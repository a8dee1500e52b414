import KotlinCompile.Proofs.Composition
import KotlinCompile.Proofs.Listing
import KotlinCompile.Proofs.Machine.WellFormed
import KotlinCompile.Proofs.Staging

/-! The staged sources of a tree that can be read. They are the files below the directory of the
sources in the order of their names on the way down, in whatever order directories are listed. -/
namespace KotlinCompile

namespace Path
variable {names others : Location}

theorem compareLex_append (common left right : List Component) :
    List.compareLex Component.order (common ++ left) (common ++ right) =
      List.compareLex Component.order left right := by
  induction common with
  | nil => rfl
  | cons component rest ih =>
    have alike : Component.order component component = .eq := Std.ReflCmp.compare_self
    rw [List.cons_append, List.cons_append, List.compareLex_cons_cons, alike]
    exact ih

theorem compareLex_lt_iff {α : Type} [LT α] {compare : α → α → Ordering}
    (less : ∀ a b, compare a b = .lt ↔ a < b) (same : ∀ a b, compare a b = .eq ↔ a = b)
    {left right : List α} : List.compareLex compare left right = .lt ↔ left < right := by
  induction left generalizing right with
  | nil => cases right <;> simp [List.compareLex]
  | cons a rest ih =>
    cases right with
    | nil => simp [List.compareLex]
    | cons b more =>
      rw [List.compareLex_cons_cons, Ordering.then_eq_lt, ih, less, same, List.cons_lt_cons_iff]

theorem compare_bytes_lt_iff (left right : Bytes) : compare left right = .lt ↔ left < right := by
  rw [List.compare_eq_compareLex]
  exact compareLex_lt_iff (fun _ _ => Std.compare_eq_lt) fun _ _ => Std.compare_eq_iff_eq

theorem compareLex_names :
    List.compareLex Component.order (names.map .name) (others.map .name) =
      List.compareLex compare names others := by
  induction names generalizing others with
  | nil => cases others <;> rfl
  | cons name rest ih =>
    cases others with
    | nil => rfl
    | cons other more =>
      rw [List.map_cons, List.map_cons, List.compareLex_cons_cons, List.compareLex_cons_cons, ih]
      rfl

/-- Paths below one directory are in the order of their names, the first that differ deciding. -/
theorem order_below_lt_iff (directory : Path) (named : ∀ name ∈ names, IsName name)
    (named' : ∀ name ∈ others, IsName name) :
    (directory.below names).order (directory.below others) = .lt ↔ names < others := by
  rw [order, components_below directory named, components_below directory named',
    compareLex_append, compareLex_names]
  exact compareLex_lt_iff compare_bytes_lt_iff fun _ _ => Std.compare_eq_iff_eq

end Path

/-- A walk goes down along names that are all there, through directories only. -/
theorem Tree.walkUntilLink_names {tree : Tree} {follow : Bool} {place : Location} {node : Node}
    {jump : Location → List Bytes → Except Cause Place} {names : Location}
    (free : tree.LinkFree place) (named : ∀ name ∈ names, IsName name)
    (short : ∀ name ∈ names, name.length ≤ longestName)
    (above : ∀ front back, back ≠ [] → names = front ++ back →
      tree.node? (place ++ front) = some .directory)
    (found : tree.node? (place ++ names) = some node) :
    tree.walkUntilLink follow jump place names = .ok (.occupied (place ++ names) node) := by
  induction names generalizing place with
  | nil =>
    rw [List.append_nil] at found ⊢
    rw [walkUntilLink, found]
  | cons name rest ih =>
    obtain ⟨isName, named⟩ := List.forall_mem_cons.mp named
    obtain ⟨fits, short⟩ := List.forall_mem_cons.mp short
    have directory : tree.node? place = some .directory := by
      simpa using above [] (name :: rest) (List.cons_ne_nil _ _) rfl
    have next : ∃ node, tree.node? (place ++ [name]) = some node := by
      cases rest with
      | nil => exact ⟨node, found⟩
      | cons => exact ⟨_, above [name] _ (List.cons_ne_nil _ _) rfl⟩
    obtain ⟨between, there⟩ := next
    have busy : ¬(name = [] ∨ name = [Byte.dot]) := by simp [isName.filled, isName.still]
    have plain : ∀ target, between ≠ .link target := by
      rintro target rfl
      exact free [name] target (List.cons_ne_nil _ _) there
    have goes : GoesTo tree place name (place ++ [name]) :=
      .down busy isName.level (Nat.not_lt.mpr fits) plain there
    have split : place ++ name :: rest = place ++ [name] ++ rest := by simp
    rw [goes.walk directory]
    rw [split] at found ⊢
    apply ih (free.below [name]) named short _ found
    intro front back filled whole
    simpa using above (name :: front) back filled (congrArg (name :: ·) whole)

namespace Machine
variable {machine : Machine} {directory : Path} {place : Location} {names : Location}
  {node : Node}

/-- Whatever is below the directory is in directories, and the machine takes its path and each of its
names. -/
structure Readable (machine : Machine) (directory : Path) (place : Location) : Prop where
  above : ∀ front back node, back ≠ [] → machine.tree.node? (place ++ front ++ back) = some node →
    machine.tree.node? (place ++ front) = some .directory
  short : ∀ names node, names ≠ [] → machine.tree.node? (place ++ names) = some node →
    Tree.refusal? (directory.below names) = none ∧
      ∀ name ∈ names, name.length ≤ Tree.longestName

theorem readable_of_nodes (wellFormed : machine.tree.WellFormed)
    (above : ∀ entry ∈ machine.tree.nodes, ∀ depth < entry.1.length,
      machine.tree.node? (entry.1.take depth) = some .directory)
    (short : ∀ entry ∈ machine.tree.nodes, place <+: entry.1 →
      Tree.refusal? (directory.below (entry.1.drop place.length)) = none ∧
        ∀ name ∈ entry.1.drop place.length, name.length ≤ Tree.longestName) :
    machine.Readable directory place := by
  constructor
  · intro front back node filled found
    have member := (wellFormed.mem_iff (by simp [filled]) node).mpr found
    have deeper : (place ++ front).length < (place ++ front ++ back).length := by
      have some := List.length_pos_iff.mpr filled
      simp only [List.length_append]
      omega
    have inside := above _ member _ deeper
    rwa [List.take_left] at inside
  · intro names node filled found
    have member := (wellFormed.mem_iff (by simp [filled]) node).mpr found
    simpa using short _ member (List.prefix_append place names)

/-- In a tree that can be read everything is found along its names. -/
theorem Readable.status (readable : machine.Readable directory place)
    (wellFormed : machine.tree.WellFormed) (takes : directory.TakesSlash)
    (there : machine.status directory = .ok (place, .directory))
    (free : machine.tree.LinkFree place)
    (found : machine.tree.node? (place ++ names) = some node) :
    machine.status (directory.below names) = .ok (place ++ names, node) := by
  by_cases filled : names = []
  · subst filled
    rw [List.append_nil, node_of_status there] at found
    cases found
    rw [List.append_nil]
    exact there
  obtain ⟨fine, short⟩ := readable.short names node filled found
  have named := (List.forall_mem_append.mp (wellFormed.named_of_node found)).2
  have on := goesOn_below takes named
  obtain ⟨_, walked⟩ := Tree.find_eq_ok.mp (status_eq_ok.mp there)
  obtain ⟨left, onward⟩ := Tree.walk_append walked
  rw [status_eq_ok, Tree.find_eq_ok, on.steps, Tree.origin, on.absolute]
  refine ⟨fine, (onward true names filled).trans ?_⟩
  have above : ∀ front back, back ≠ [] → names = front ++ back →
      machine.tree.node? (place ++ front) = some .directory := by
    rintro front back more rfl
    exact readable.above front back node more (by rwa [List.append_assoc])
  cases left <;> exact Tree.walkUntilLink_names free named short above found

end Machine

namespace Composition
open Fallible
variable {machine : Machine} {directory : Path} {place names : Location}

section Readable
variable (wellFormed : machine.tree.WellFormed) (takes : directory.TakesSlash)
  (there : machine.status directory = .ok (place, .directory))
  (free : machine.tree.LinkFree place) (readable : machine.Readable directory place)
include wellFormed takes there free readable

/-- What a path below the directory names is a file exactly if the tree has a file there. -/
theorem isFileAt_iff_node :
    names ≠ [] ∧ IsFileAt machine directory (directory.below names) names ↔
      ∃ contents executable,
        machine.tree.node? (place ++ names) = some (.file contents executable) := by
  constructor
  · rintro ⟨_, named, _, isFile⟩
    obtain ⟨location, contents, executable, found⟩ := Machine.isFile_iff.mp isFile
    have along := Machine.status_below takes there free named found
    exact ⟨contents, executable, along ▸ Machine.node_of_status found⟩
  · rintro ⟨contents, executable, node⟩
    have named := (List.forall_mem_append.mp (wellFormed.named_of_node node)).2
    have found := readable.status wellFormed takes there free node
    refine ⟨?_, named, rfl, Machine.isFile_iff.mpr ⟨_, _, _, found⟩⟩
    rintro rfl
    rw [List.append_nil, Machine.node_of_status there] at node
    cases node

theorem stagedSources_names : ∃ files : List Location, files.Pairwise (· < ·) ∧
    (∀ names, names ∈ files ↔ ∃ contents executable,
      machine.tree.node? (place ++ names) = some (.file contents executable)) ∧
    stagedSources machine directory = .ok (files.map directory.below) := by
  obtain ⟨paths, listed, ascending, members⟩ := stagedSources_spec wellFormed takes there free
  have along (path : Path) (member : path ∈ paths) := (members path).mp member
  choose! namesOf filled isFile using along
  have spelled : ∀ path ∈ paths, directory.below (namesOf path) = path :=
    fun path member => (isFile path member).2.1.symm
  refine ⟨paths.map namesOf, ?_, ?_, ?_⟩
  · apply List.pairwise_map.mpr
    apply ascending.imp_of_mem
    intro first second left right before
    rw [← Path.order_below_lt_iff directory (isFile first left).1 (isFile second right).1,
      spelled first left, spelled second right]
    exact before
  · intro names
    rw [← isFileAt_iff_node wellFormed takes there free readable, List.mem_map]
    constructor
    · rintro ⟨path, member, rfl⟩
      rw [spelled path member]
      exact ⟨filled path member, isFile path member⟩
    · rintro ⟨some, named, same, found⟩
      have member := (members (directory.below names)).mpr ⟨names, some, named, same, found⟩
      have alike := congrArg Path.components (spelled _ member)
      exact ⟨_, member, Path.below_injective (isFile _ member).1 named alike⟩
  · have whole : (paths.map namesOf).map directory.below = paths := by
      rw [List.map_map]
      exact (List.map_congr_left spelled).trans (List.map_id paths)
    rw [whole, listed]

end Readable

/-- If the directory of the sources is missing, or is no directory, there are no staged sources. If
it is one, there are no links below it and all of it can be read, they are the files below it: each
of them once, in the order of their names on the way down, and nothing else. They are the same in
whatever order the machine lists its directories, and they are what a composition puts before the
free arguments of the caller. -/
theorem stagedSources_any_order (wellFormed : machine.tree.WellFormed) (request : Request) :
    let sources := request.layout.sources
    (machine.isDirectory sources = false → stagedSources machine sources = .ok []) ∧
    ∀ place, machine.status sources = .ok (place, .directory) → machine.tree.LinkFree place →
      machine.Readable sources place → ∃ files : List Location, files.Pairwise (· < ·) ∧
        (∀ names, names ∈ files ↔ ∃ contents executable,
          machine.tree.node? (place ++ names) = some (.file contents executable)) ∧
        stagedSources machine sources = .ok (files.map sources.below) ∧
        (∀ order, (∀ directory, (order directory).Perm (machine.tree.namesIn directory)) →
          (∃ other, machine.Relists order other) ∧ ∀ other, machine.Relists order other →
            stagedSources other sources = .ok (files.map sources.below)) ∧
        ∀ classpath kapt composition, compose machine request classpath kapt = .ok composition →
          composition.arguments.freeArgs =
            (files.map sources.below).map (·.text) ++ request.options.freeArgs := by
  intro sources
  have takes := request.layout.takesSlash_sources
  constructor
  · intro missing
    simp [stagedSources, missing]
  intro place there free readable
  obtain ⟨files, ascending, members, listed⟩ :=
    stagedSources_names wellFormed takes there free readable
  refine ⟨files, ascending, members, listed, ?_, ?_⟩
  · intro order permutes
    refine ⟨Machine.exists_relists wellFormed permutes, fun other relists => ?_⟩
    have again := (relists.status sources).trans there
    rw [← listed]
    apply stagedSources_congr takes there again free wellFormed relists.wellFormed
    intro names
    exact relists.nodes (place ++ names)
  · intro classpath kapt composition composed
    obtain ⟨paths, _, _, _, staged, _, _, _, rfl⟩ := compose_eq_ok.mp composed
    cases listed.symm.trans staged
    rfl

/-- A machine that lists a file before a directory whose name is the start of its own. -/
def dashedMachine : Machine :=
  ⟨⟨[(["w"], .directory), (["w", "sources"], .directory),
    (["w", "sources", "a-b.kt"], .file (.bytes []) false), (["w", "sources", "a"], .directory),
    (["w", "sources", "a", "c.kt"], .file (.bytes []) false)]⟩, [], []⟩

/-- As texts the two paths are in the opposite order. -/
theorem dashed_listed_in_any_order :
    let sources : Path := ⟨"/w/sources"⟩
    let paths : List Path := [⟨"/w/sources/a/c.kt"⟩, ⟨"/w/sources/a-b.kt"⟩]
    dashedMachine.tree.WellFormed ∧
    dashedMachine.status sources = .ok (["w", "sources"], .directory) ∧
    dashedMachine.tree.LinkFree ["w", "sources"] ∧
    dashedMachine.Readable sources ["w", "sources"] ∧
    stagedSources dashedMachine sources = .ok paths ∧
    (∃ other, dashedMachine.Relists dashedMachine.backwards other ∧
      stagedSources other sources = .ok paths) ∧
    "/w/sources/a-b.kt" < "/w/sources/a/c.kt" := by
  intro sources paths
  have wellFormed : dashedMachine.tree.WellFormed := ⟨by decide, by decide⟩
  have there : dashedMachine.status sources = .ok (["w", "sources"], .directory) := by decide
  have free : dashedMachine.tree.LinkFree ["w", "sources"] :=
    Tree.linkFree_of_nodes (by simp [dashedMachine])
  have readable : dashedMachine.Readable sources ["w", "sources"] :=
    Machine.readable_of_nodes wellFormed (by decide) (by decide)
  obtain ⟨files, ascending, members, listed, orders, _⟩ :=
    (stagedSources_any_order wellFormed { layout := ⟨⟨"/w"⟩⟩ }).2 _ there free readable
  have exactly : files = ([["a", "c.kt"], ["a-b.kt"]] : List Location) := by
    have perm : files.Perm ([["a", "c.kt"], ["a-b.kt"]] : List Location) := by
      apply (List.perm_ext_iff_of_nodup
        (ascending.imp fun before => mt (· ▸ before) (List.lt_irrefl _)) (by decide)).mpr
      intro names
      have below : (["w", "sources"] : Location) ++ names ≠ [] := by simp
      simp only [members, ← wellFormed.mem_iff below]
      simp [dashedMachine, exists_or, or_comm]
    exact perm.eq_of_pairwise (fun _ _ _ _ before after => absurd before (List.lt_asymm after)) ascending
      (by decide)
  subst exactly
  obtain ⟨⟨other, relists⟩, same⟩ := orders _ dashedMachine.backwards_perm
  exact ⟨wellFormed, there, free, readable, listed, ⟨other, relists, same other relists⟩, by decide⟩

end Composition
end KotlinCompile
