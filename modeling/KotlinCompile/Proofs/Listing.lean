import KotlinCompile.Composition
import KotlinCompile.Proofs.Machine.Growth
import KotlinCompile.Proofs.Path

/-! The staged sources as they are listed: in a directory without links below it every file is found
along its names, once, and the listing is sorted. -/
namespace KotlinCompile

namespace Machine
variable {machine : Machine} {directory : Path} {place location : Location} {node : Node}
  {names : List Bytes}

/-- Below a directory without links a path leads along its names. -/
theorem status_below (takes : directory.TakesSlash)
    (there : machine.status directory = .ok (place, .directory)) (free : machine.tree.LinkFree place)
    (named : ∀ name ∈ names, IsName name)
    (found : machine.status (directory.below names) = .ok (location, node)) :
    location = place ++ names := by
  cases names with
  | nil =>
    cases there.symm.trans found
    exact (List.append_nil _).symm
  | cons name rest =>
    have on := goesOn_below takes named
    have every : (name :: rest).filter (fun _ => true) = name :: rest := List.filter_true _
    have ⟨along, _⟩ := status_onward (fun _ _ => rfl) there there free (fun _ _ => id) on
      (every.symm ▸ on) (by rw [every]; exact List.cons_ne_nil _ _) (level_names named)
      (status_refusal found) found
    rw [along, moves_names named]

/-- What is above something found is a directory. -/
theorem isDirectory_above (takes : directory.TakesSlash) (names : List Bytes) {more : List Bytes}
    (named : ∀ name ∈ names ++ more, IsName name) (filled : more ≠ [])
    (found : machine.status (directory.below (names ++ more)) = .ok (location, node)) :
    ∃ place, machine.status (directory.below names) = .ok (place, .directory) := by
  have ⟨front, back⟩ := List.forall_mem_append.mp named
  rw [Path.below_append] at found
  have between := Path.takesSlash_below takes front
  have fine := status_refusal found
  refine status_front found (goesOn_below between back) filled ?_
  refine Path.refusal_of_sublist ?_ between.spelled fine
  rw [Path.below_spelling between back]
  exact List.sublist_append_left _ _

theorem isFile_iff {path : Path} : machine.isFile path = true ↔ ∃ location contents executable,
    machine.status path = .ok (location, .file contents executable) := by
  unfold isFile
  split
  · next location contents executable found =>
    exact ⟨fun _ => ⟨_, _, _, found⟩, fun _ => rfl⟩
  · next other =>
    exact ⟨fun refused => Bool.noConfusion refused,
      fun ⟨location, contents, executable, found⟩ => absurd found (other _ _ _)⟩

theorem list_of_status (there : machine.status directory = .ok (place, .directory)) :
    machine.list directory = .ok ((machine.tree.namesIn place).map directory.child) := by
  unfold list
  rw [there]
  rfl

end Machine

namespace Composition
open Fallible
variable {machine : Machine} {directory : Path} {place : Location}

/-- The path names a file at or below the directory. -/
def IsFileAt (machine : Machine) (directory path : Path) (names : List Bytes) : Prop :=
  (∀ name ∈ names, IsName name) ∧ path = directory.below names ∧ machine.isFile path = true

/-- A list of all files of a kind, each once. -/
structure Lists (files : List Path) (isOne : Path → Prop) : Prop where
  nodup : files.Nodup
  mem_iff : ∀ path, path ∈ files ↔ isOne path

/-- The files at one entry of a directory: those below it if it is a directory, and else itself. -/
theorem lists_entry {depth : Nat} {entry : Path} (takes : entry.TakesSlash)
    (below : machine.isDirectory entry = true → ∃ files,
      filesBelow machine depth entry = .ok files ∧
        Lists files fun path => ∃ names, names ≠ [] ∧ IsFileAt machine entry path names) :
    ∃ files, (if machine.isDirectory entry then filesBelow machine depth entry
        else return if machine.isFile entry then [entry] else []) = .ok files ∧
      Lists files fun path => ∃ names, IsFileAt machine entry path names := by
  by_cases inner : machine.isDirectory entry = true
  · obtain ⟨files, listed, lists⟩ := below inner
    refine ⟨files, by rw [if_pos inner, listed], lists.nodup, fun path => ?_⟩
    rw [lists.mem_iff]
    constructor
    · rintro ⟨names, _, isFile⟩
      exact ⟨names, isFile⟩
    · rintro ⟨names, named, rfl, isFile⟩
      refine ⟨names, ?_, named, rfl, isFile⟩
      rintro rfl
      obtain ⟨_, found⟩ := Machine.isDirectory_iff.mp inner
      obtain ⟨_, _, _, file⟩ := Machine.isFile_iff.mp isFile
      cases found.symm.trans file
  · have alone (names : List Bytes) (named : ∀ name ∈ names, IsName name)
        (isFile : machine.isFile (entry.below names) = true) : names = [] := by
      by_contra filled
      obtain ⟨_, _, _, found⟩ := Machine.isFile_iff.mp isFile
      exact inner (Machine.isDirectory_iff.mpr
        (Machine.isDirectory_above takes [] named filled found))
    rw [if_neg inner]
    by_cases isFile : machine.isFile entry = true
    · refine ⟨[entry], by rw [if_pos isFile]; rfl, List.nodup_singleton entry, fun path => ?_⟩
      rw [List.mem_singleton]
      constructor
      · rintro rfl
        exact ⟨[], fun _ member => absurd member List.not_mem_nil, rfl, isFile⟩
      · rintro ⟨names, named, rfl, found⟩
        rw [alone names named found]
        rfl
    · refine ⟨[], by rw [if_neg isFile]; rfl, List.nodup_nil, fun path => ?_⟩
      refine ⟨fun member => absurd member List.not_mem_nil, ?_⟩
      rintro ⟨names, named, rfl, found⟩
      rw [alone names named found] at found
      exact absurd found isFile

theorem size_child (takes : directory.TakesSlash) {name : Bytes} (isName : IsName name) :
    directory.spelling.length < (directory.child name).spelling.length := by
  rw [Path.child, Path.join_spelling takes isName.relative, List.length_append, List.length_cons]
  omega

/-- A file below a directory is found at one of the names that the directory lists. -/
theorem isFileAt_below (wellFormed : machine.tree.WellFormed) (takes : directory.TakesSlash)
    (there : machine.status directory = .ok (place, .directory))
    (free : machine.tree.LinkFree place) (path : Path) :
    (∃ name ∈ machine.tree.namesIn place, ∃ names,
      IsFileAt machine (directory.child name) path names) ↔
    ∃ names, names ≠ [] ∧ IsFileAt machine directory path names := by
  constructor
  · rintro ⟨name, member, names, named, same, isFile⟩
    obtain ⟨node, found⟩ := (wellFormed.mem_namesIn place name).mp member
    have isName := wellFormed.named_of_node found name (by simp)
    exact ⟨name :: names, List.cons_ne_nil _ _, List.forall_mem_cons.mpr ⟨isName, named⟩, same,
      isFile⟩
  · rintro ⟨names, filled, named, rfl, isFile⟩
    obtain ⟨name, rest, rfl⟩ := List.exists_cons_of_ne_nil filled
    have ⟨isName, others⟩ := List.forall_mem_cons.mp named
    refine ⟨name, ?_, rest, others, rfl, isFile⟩
    have ⟨location, node, found⟩ :
        ∃ location node, machine.status (directory.below [name]) = .ok (location, node) := by
      obtain ⟨location, contents, executable, found⟩ := Machine.isFile_iff.mp isFile
      by_cases ends : rest = []
      · subst ends
        exact ⟨_, _, found⟩
      · obtain ⟨above, found⟩ :=
          Machine.isDirectory_above takes [name] named ends found
        exact ⟨above, _, found⟩
    have along := Machine.status_below takes there free (List.forall_mem_singleton.mpr isName) found
    rw [wellFormed.mem_namesIn, ← along]
    exact ⟨node, Machine.node_of_status found⟩

/-- Every file below a directory is listed, however deep it is. -/
theorem lists_filesBelow (wellFormed : machine.tree.WellFormed) {depth : Nat}
    (takes : directory.TakesSlash)
    (there : machine.status directory = .ok (place, .directory))
    (free : machine.tree.LinkFree place)
    (deep : Tree.longestPath < directory.spelling.length + depth) :
    ∃ files, filesBelow machine depth directory = .ok files ∧
      Lists files fun path => ∃ names, names ≠ [] ∧ IsFileAt machine directory path names := by
  induction depth generalizing directory place with
  | zero =>
    -- a path that long is not even looked for
    have fine := Machine.status_refusal there
    unfold Tree.refusal? at fine
    split at fine
    · cases fine
    rw [if_neg takes.spelled, if_pos (by simpa using deep)] at fine
    cases fine
  | succ depth ih =>
    have isName {name : Bytes} (member : name ∈ machine.tree.namesIn place) : IsName name := by
      obtain ⟨node, found⟩ := (wellFormed.mem_namesIn place name).mp member
      exact wellFormed.named_of_node found name (by simp)
    have inside (name : Bytes) (member : name ∈ machine.tree.namesIn place)
        (inner : machine.isDirectory (directory.child name) = true) : ∃ files,
        filesBelow machine depth (directory.child name) = .ok files ∧ Lists files fun path =>
          ∃ names, names ≠ [] ∧ IsFileAt machine (directory.child name) path names := by
      obtain ⟨location, found⟩ := Machine.isDirectory_iff.mp inner
      have along : location = place ++ [name] := Machine.status_below takes there free
        (List.forall_mem_singleton.mpr (isName member)) found
      subst along
      have longer := size_child takes (isName member)
      exact ih (Path.takesSlash_child (isName member) directory) found (free.below [name])
        (by omega)
    have each (name : Bytes) (member : name ∈ machine.tree.namesIn place) :=
      lists_entry (Path.takesSlash_child (isName member) directory) (inside name member)
    choose! files listed lists using each
    have entries : ((machine.tree.namesIn place).map directory.child).mapM (fun entry =>
        if machine.isDirectory entry then filesBelow machine depth entry
        else return if machine.isFile entry then [entry] else []) =
          .ok ((machine.tree.namesIn place).map files) := by
      rw [List.mapM_map]
      exact mapM_of_forall listed
    refine ⟨(machine.tree.namesIn place).flatMap files, ?_, ?_, fun path => ?_⟩
    · rw [filesBelow, Machine.list_of_status there]
      exact bind_eq_ok.mpr ⟨_, rfl, bind_eq_ok.mpr ⟨_, entries, rfl⟩⟩
    · rw [List.nodup_flatMap]
      refine ⟨fun name member => (lists name member).nodup, ?_⟩
      refine (wellFormed.nodup_namesIn place).imp_of_mem fun {first second} left right differ => ?_
      intro path inFirst inSecond
      obtain ⟨names, named, rfl, _⟩ := ((lists first left).mem_iff path).mp inFirst
      obtain ⟨others, named', same, _⟩ := ((lists second right).mem_iff _).mp inSecond
      have alike : first :: names = second :: others := Path.below_injective
        (List.forall_mem_cons.mpr ⟨isName left, named⟩)
        (List.forall_mem_cons.mpr ⟨isName right, named'⟩) (congrArg Path.components same)
      exact differ (List.cons.inj alike).1
    · rw [← isFileAt_below wellFormed takes there free, List.mem_flatMap]
      exact exists_congr fun name => and_congr_right fun member => (lists name member).mem_iff path

/-- The staged sources are the files below their directory, ascending and each once, and they are
spelled along their names. -/
theorem stagedSources_spec (wellFormed : machine.tree.WellFormed) (takes : directory.TakesSlash)
    (there : machine.status directory = .ok (place, .directory))
    (free : machine.tree.LinkFree place) : ∃ paths, stagedSources machine directory = .ok paths ∧
      Path.Ascending paths ∧
      ∀ path, path ∈ paths ↔ ∃ names, names ≠ [] ∧ IsFileAt machine directory path names := by
  have deep : Tree.longestPath < directory.spelling.length + (Tree.longestPath + 1) := by
    omega
  obtain ⟨files, listed, lists⟩ := lists_filesBelow wellFormed takes there free deep
  refine ⟨Path.sorted files, ?_, Path.ascending_sorted ?_, fun path => ?_⟩
  · rw [stagedSources, if_pos (Machine.isDirectory_iff.mpr ⟨place, there⟩), listed]
    rfl
  · refine lists.nodup.imp_of_mem fun {first second} left right differ same => ?_
    obtain ⟨names, _, named, rfl, _⟩ := (lists.mem_iff first).mp left
    obtain ⟨others, _, named', rfl, _⟩ := (lists.mem_iff second).mp right
    exact differ (congrArg directory.below (Path.below_injective named named' same))
  · rw [Path.mem_sorted]
    exact lists.mem_iff path

section Transfer
variable {other : Machine} (takes : directory.TakesSlash)
  (there : machine.status directory = .ok (place, .directory))
  (there' : other.status directory = .ok (place, .directory)) (free : machine.tree.LinkFree place)
include takes there there' free

theorem IsFileAt.transfer {path : Path} {names : List Bytes}
    (same : ∀ names node, machine.tree.node? (place ++ names) = some node →
      other.tree.node? (place ++ names) = some node)
    (filled : names ≠ []) (isFile : IsFileAt machine directory path names) :
    IsFileAt other directory path names := by
  obtain ⟨named, rfl, isFile⟩ := isFile
  obtain ⟨location, contents, executable, found⟩ := Machine.isFile_iff.mp isFile
  have on := Machine.goesOn_below takes named
  have every : names.filter (fun _ => true) = names := List.filter_true _
  have found := (Machine.status_onward (fun _ _ => rfl) there there' free same on (every.symm ▸ on)
    (every.symm ▸ filled) (Machine.level_names named) (Machine.status_refusal found) found).2
  exact ⟨named, rfl, Machine.isFile_iff.mpr ⟨_, _, _, found⟩⟩

/-- The same sources are listed wherever the nodes below their directory are the same. -/
theorem stagedSources_congr (wellFormed : machine.tree.WellFormed)
    (wellFormed' : other.tree.WellFormed)
    (same : ∀ names, other.tree.node? (place ++ names) = machine.tree.node? (place ++ names)) :
    stagedSources other directory = stagedSources machine directory := by
  have free' : other.tree.LinkFree place := fun names target filled linked =>
    free names target filled ((same names).symm.trans linked)
  obtain ⟨paths, listed, ascending, members⟩ := stagedSources_spec wellFormed takes there free
  obtain ⟨paths', listed', ascending', members'⟩ :=
    stagedSources_spec wellFormed' takes there' free'
  have alike : paths' = paths := by
    refine ascending'.eq_of_mem_iff ascending fun path => ?_
    rw [members, members']
    refine exists_congr fun names => and_congr_right fun filled => ⟨?_, ?_⟩
    · exact IsFileAt.transfer takes there' there free'
        (fun names node found => (same names).symm.trans found) filled
    · exact IsFileAt.transfer takes there there' free
        (fun names node found => (same names).trans found) filled
  rw [listed, listed', alike]

end Transfer

end Composition
end KotlinCompile
