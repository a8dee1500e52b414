import KotlinCompile.Machine.Files
import KotlinCompile.Proofs.Machine.Route
import Mathlib.Data.List.Dedup
import Mathlib.Data.List.Nodup

/-! Trees that list every location once and under names only, as those of a machine do, and machines
that differ only in the order in which they list their directories. -/
namespace KotlinCompile.Tree
variable {tree : Tree} {location : Location}

structure WellFormed (tree : Tree) : Prop where
  nodup : (tree.nodes.map (·.1)).Nodup
  named : ∀ entry ∈ tree.nodes, ∀ name ∈ entry.1, IsName name

theorem locations_putNode (location : Location) (node : Node) (nodes : List (Location × Node)) :
    (putNode location node nodes).map (·.1) = if location ∈ nodes.map (·.1) then nodes.map (·.1)
      else nodes.map (·.1) ++ [location] := by
  induction nodes with
  | nil => rfl
  | cons entry rest ih =>
    rw [putNode]
    by_cases same : entry.1 = location
    · rw [if_pos same]
      simp [same]
    · rw [if_neg same, List.map_cons, ih, List.map_cons]
      by_cases listed : location ∈ rest.map (·.1)
      · rw [if_pos listed, if_pos (List.mem_cons_of_mem _ listed)]
      · rw [if_neg listed, if_neg (List.not_mem_cons_of_ne_of_not_mem (Ne.symm same) listed)]
        rfl

theorem WellFormed.put (wellFormed : tree.WellFormed) (named : ∀ name ∈ location, IsName name)
    (node : Node) : (tree.put location node).WellFormed := by
  unfold Tree.put
  split
  · exact wellFormed
  have listed := locations_putNode location node tree.nodes
  constructor
  · rw [listed]
    split
    · exact wellFormed.nodup
    · next fresh =>
      exact List.Nodup.append wellFormed.nodup (List.nodup_singleton location)
        (List.disjoint_singleton.mpr fresh)
  · intro entry member name inside
    have among : entry.1 ∈ (putNode location node tree.nodes).map (·.1) :=
      List.mem_map_of_mem member
    rw [listed] at among
    have known : entry.1 ∈ tree.nodes.map (·.1) ∨ entry.1 = location := by
      split at among
      · exact Or.inl among
      · simpa using among
    rcases known with old | rfl
    · obtain ⟨other, kept, same⟩ := List.mem_map.mp old
      exact wellFormed.named other kept name (same ▸ inside)
    · exact named name inside

theorem WellFormed.mem_iff (wellFormed : tree.WellFormed) (below : location ≠ []) (node : Node) :
    (location, node) ∈ tree.nodes ↔ tree.node? location = some node := by
  rw [node?, if_neg below]
  have distinct := wellFormed.nodup
  generalize tree.nodes = nodes at distinct
  induction nodes with
  | nil => simp
  | cons entry rest ih =>
    obtain ⟨other, old⟩ := entry
    rw [List.map_cons, List.nodup_cons] at distinct
    rw [List.mem_cons, Prod.mk.injEq, List.lookup_cons]
    by_cases same : location = other
    · subst same
      have apart : (location, node) ∉ rest := fun member =>
        distinct.1 (List.mem_map.mpr ⟨_, member, rfl⟩)
      simp [apart, eq_comm]
    · have differ : (location == other) = false := beq_eq_false_iff_ne.mpr same
      rw [differ]
      simp only [same, false_and, false_or]
      exact ih distinct.2

theorem WellFormed.named_of_node (wellFormed : tree.WellFormed) {node : Node}
    (found : tree.node? location = some node) : ∀ name ∈ location, IsName name := by
  by_cases below : location = []
  · rw [below]
    exact fun _ member => absurd member List.not_mem_nil
  · exact wellFormed.named _ ((wellFormed.mem_iff below node).mpr found)

/-- The name by which a directory lists a location, if it does. -/
def listedIn? (directory location : Location) : Option Bytes :=
  match location.getLast? with
  | some name => if location = directory ++ [name] then some name else none
  | none => none

theorem listedIn_iff {directory : Location} {name : Bytes} :
    listedIn? directory location = some name ↔ location = directory ++ [name] := by
  constructor
  · intro listed
    unfold listedIn? at listed
    split at listed
    · split at listed
      · next same =>
        cases listed
        exact same
      · cases listed
    · cases listed
  · rintro rfl
    simp [listedIn?]

theorem namesIn_eq (tree : Tree) (directory : Location) :
    tree.namesIn directory = (tree.nodes.map (·.1)).filterMap (listedIn? directory) := by
  rw [List.filterMap_map]
  rfl

/-- A directory lists the names of what is directly below it, each once. -/
theorem WellFormed.mem_namesIn (wellFormed : tree.WellFormed) (directory : Location) (name : Bytes) :
    name ∈ tree.namesIn directory ↔ ∃ node, tree.node? (directory ++ [name]) = some node := by
  have below : directory ++ [name] ≠ [] := by simp
  rw [namesIn_eq, List.mem_filterMap]
  constructor
  · rintro ⟨_, member, listed⟩
    obtain ⟨⟨location, node⟩, held, rfl⟩ := List.mem_map.mp member
    have same : location = directory ++ [name] := listedIn_iff.mp listed
    exact ⟨node, (wellFormed.mem_iff below node).mp (same ▸ held)⟩
  · rintro ⟨node, found⟩
    have member := (wellFormed.mem_iff below node).mpr found
    exact ⟨_, List.mem_map.mpr ⟨_, member, rfl⟩, listedIn_iff.mpr rfl⟩

theorem WellFormed.isName_of_mem_namesIn (wellFormed : tree.WellFormed) {directory : Location}
    {name : Bytes} (member : name ∈ tree.namesIn directory) : IsName name := by
  obtain ⟨node, found⟩ := (wellFormed.mem_namesIn directory name).mp member
  exact wellFormed.named_of_node found name (by simp)

theorem WellFormed.nodup_namesIn (wellFormed : tree.WellFormed) (directory : Location) :
    (tree.namesIn directory).Nodup := by
  rw [namesIn_eq]
  exact wellFormed.nodup.filterMap fun _ _ _ first second =>
    (listedIn_iff.mp first).trans (listedIn_iff.mp second).symm

section Walks
variable {follow : Bool} {jump : Location → List Bytes → Except Cause Place} {here : Location}
  {steps : List Bytes} {place : Place}

/-- Steps as paths have them. -/
def Undivided (steps : List Bytes) : Prop := ∀ step ∈ steps, Byte.slash ∉ step

theorem undivided_steps (path : Path) : Undivided (Tree.steps path) := path.segments_plain

theorem Undivided.append {more : List Bytes} (first : Undivided steps) (second : Undivided more) :
    Undivided (steps ++ more) :=
  List.forall_mem_append.mpr ⟨first, second⟩

theorem WellFormed.walkUntilLink_named (wellFormed : tree.WellFormed)
    (jumps : ∀ here steps place, Undivided steps → jump here steps = .ok place →
      ∀ name ∈ place.location, IsName name)
    (undivided : Undivided steps)
    (found : tree.walkUntilLink follow jump here steps = .ok place) :
    ∀ name ∈ place.location, IsName name := by
  fun_induction walkUntilLink tree follow jump here steps with
  | case1 here node occupied =>
    cases found
    exact wellFormed.named_of_node occupied
  | case2 | case3 | case6 | case8 => cases found
  | case4 here step rest directory idle ih =>
    exact ih (List.forall_mem_cons.mp undivided).2 found
  | case5 here rest directory busy ih => exact ih (List.forall_mem_cons.mp undivided).2 found
  | case7 here step rest directory busy down short free last =>
    cases found
    have above := wellFormed.named_of_node (Decidable.not_not.mp directory)
    have isName : IsName step := by
      rw [not_or] at busy
      exact ⟨busy.1, busy.2, down, undivided step List.mem_cons_self⟩
    exact List.forall_mem_append.mpr ⟨above, List.forall_mem_singleton.mpr isName⟩
  | case9 here step rest directory busy down short target linked last =>
    cases found
    exact wellFormed.named_of_node linked
  | case10 here step rest directory busy down short target linked more =>
    have later := (List.forall_mem_cons.mp undivided).2
    exact jumps _ _ _ ((undivided_steps target).append later) found
  | case11 here step rest directory busy down short node plain occupied ih =>
    exact ih (List.forall_mem_cons.mp undivided).2 found

theorem WellFormed.walk_named (wellFormed : tree.WellFormed) {links : Nat}
    (undivided : Undivided steps) (found : tree.walk follow links here steps = .ok place) :
    ∀ name ∈ place.location, IsName name := by
  induction links generalizing here steps place with
  | zero =>
    exact wellFormed.walkUntilLink_named (fun _ _ _ _ refused => by cases refused) undivided found
  | succ links ih =>
    exact wellFormed.walkUntilLink_named (fun _ _ _ undivided jumped => ih undivided jumped)
      undivided found

/-- Whatever a path leads to, it is found under names. -/
theorem WellFormed.find_named (wellFormed : tree.WellFormed) {path : Path}
    (found : tree.find follow here path = .ok place) : ∀ name ∈ place.location, IsName name := by
  unfold find at found
  split at found
  · cases found
  · exact wellFormed.walk_named (undivided_steps path) found

end Walks

end KotlinCompile.Tree

namespace KotlinCompile

namespace Tree
variable {tree other : Tree}

section SameNodes
variable (same : ∀ location, other.node? location = tree.node? location)
include same

theorem walkUntilLink_congr (follow : Bool) (jump : Location → List Bytes → Except Cause Place)
    (here : Location) (steps : List Bytes) :
    other.walkUntilLink follow jump here steps = tree.walkUntilLink follow jump here steps := by
  induction steps generalizing here with
  | nil => simp only [walkUntilLink, same]
  | cons step rest ih => simp only [walkUntilLink, same, ih]

theorem walk_congr (follow : Bool) (links : Nat) (here : Location) (steps : List Bytes) :
    other.walk follow links here steps = tree.walk follow links here steps := by
  induction links generalizing here steps with
  | zero => exact walkUntilLink_congr same ..
  | succ links ih =>
    have jumps : other.walk follow links = tree.walk follow links :=
      funext fun here => funext fun steps => ih here steps
    rw [walk, walk, jumps]
    exact walkUntilLink_congr same ..

theorem find_congr (follow : Bool) (here : Location) (path : Path) :
    other.find follow here path = tree.find follow here path := by
  unfold find
  rw [walk_congr same]

end SameNodes

/-- The locations that directories list, one directory after the other and each in its order. -/
def listing (order : Location → List Bytes) (directories : List Location) : List Location :=
  directories.flatMap fun directory => (order directory).map fun name => directory ++ [name]

/-- The directories that anything is in. -/
def parents (tree : Tree) : List Location := (tree.nodes.map (·.1.dropLast)).dedup

theorem nodup_parents (tree : Tree) : tree.parents.Nodup := List.nodup_dedup _

theorem WellFormed.mem_parents (wellFormed : tree.WellFormed) {place : Location} {name : Bytes}
    {node : Node} (found : tree.node? (place ++ [name]) = some node) : place ∈ tree.parents := by
  have member := (wellFormed.mem_iff (by simp) node).mpr found
  exact List.mem_dedup.mpr (List.mem_map.mpr ⟨_, member, List.dropLast_concat⟩)

/-- The tree with the same nodes, but listed in these orders. -/
def relist (tree : Tree) (order : Location → List Bytes) : Tree :=
  ⟨(listing order tree.parents).filterMap fun location =>
    (tree.node? location).map (location, ·)⟩

section Listing
variable {order : Location → List Bytes} {directories : List Location} {place location : Location}

theorem listing_cons (directory : Location) (rest : List Location) :
    listing order (directory :: rest) =
      (order directory).map (fun name => directory ++ [name]) ++ listing order rest :=
  List.flatMap_cons

theorem mem_listing : location ∈ listing order directories ↔
    ∃ directory ∈ directories, ∃ name ∈ order directory, location = directory ++ [name] := by
  simp only [listing, List.mem_flatMap, List.mem_map, eq_comm]

theorem nodup_listing (distinct : directories.Nodup) (once : ∀ place, (order place).Nodup) :
    (listing order directories).Nodup := by
  apply List.nodup_flatMap.mpr
  constructor
  · intro directory _
    apply (once directory).map
    intro name name' same
    simpa using same
  · apply distinct.imp
    intro first second differ location left right
    obtain ⟨name, _, rfl⟩ := List.mem_map.mp left
    obtain ⟨name', _, same⟩ := List.mem_map.mp right
    exact differ (List.append_inj' same rfl).1.symm

theorem filterMap_children (directory : Location) (names : List Bytes) :
    (names.map fun name => directory ++ [name]).filterMap (listedIn? place) =
      if place = directory then names else [] := by
  rw [List.filterMap_map]
  by_cases same : place = directory
  · subst same
    have listed : listedIn? place ∘ (fun name => place ++ [name]) = some :=
      funext fun name => listedIn_iff.mpr rfl
    rw [if_pos rfl, listed, List.filterMap_some]
  · rw [if_neg same, List.filterMap_eq_nil_iff]
    intro name _
    apply Option.eq_none_iff_forall_ne_some.mpr
    intro name' listed
    exact same (List.append_inj' (listedIn_iff.mp listed) rfl).1.symm

/-- For a directory that was listed its names are found in the listing, and for others nothing. -/
theorem filterMap_listing (distinct : directories.Nodup) :
    (listing order directories).filterMap (listedIn? place) =
      if place ∈ directories then order place else [] := by
  induction directories with
  | nil => rfl
  | cons directory rest ih =>
    obtain ⟨apart, distinct⟩ := List.nodup_cons.mp distinct
    rw [listing_cons, List.filterMap_append, filterMap_children, ih distinct]
    by_cases same : place = directory
    · subst same
      simp [apart]
    · simp [same]

end Listing

section Relist
variable {order : Location → List Bytes} (wellFormed : tree.WellFormed)
  (permutes : ∀ place, (order place).Perm (tree.namesIn place))
include wellFormed permutes

theorem mem_listing_of_permutes {location : Location} :
    location ∈ listing order tree.parents ↔
      location ≠ [] ∧ ∃ node, tree.node? location = some node := by
  rw [mem_listing]
  constructor
  · rintro ⟨directory, _, name, listed, rfl⟩
    refine ⟨by simp, ?_⟩
    exact (wellFormed.mem_namesIn directory name).mp ((permutes directory).mem_iff.mp listed)
  · rintro ⟨below, node, found⟩
    obtain ⟨place, name, rfl⟩ := (List.eq_nil_or_concat' location).resolve_left below
    refine ⟨place, wellFormed.mem_parents found, name, ?_, rfl⟩
    rw [(permutes place).mem_iff, wellFormed.mem_namesIn]
    exact ⟨node, found⟩

theorem locations_relist :
    (tree.relist order).nodes.map (·.1) = listing order tree.parents := by
  have all : ∀ location ∈ listing order tree.parents,
      ((tree.node? location).map (location, ·)).map (·.1) = some location := by
    intro location member
    obtain ⟨_, node, found⟩ := (mem_listing_of_permutes wellFormed permutes).mp member
    rw [found]
    rfl
  rw [relist, List.map_filterMap, List.filterMap_congr all, List.filterMap_some]

theorem relist_wellFormed : (tree.relist order).WellFormed := by
  have locations := locations_relist wellFormed permutes
  constructor
  · rw [locations]
    apply nodup_listing tree.nodup_parents
    intro place
    exact (permutes place).nodup_iff.mpr (wellFormed.nodup_namesIn place)
  · intro entry member
    have listed : entry.1 ∈ (tree.relist order).nodes.map (·.1) := List.mem_map_of_mem member
    rw [locations, mem_listing_of_permutes wellFormed permutes] at listed
    obtain ⟨_, node, found⟩ := listed
    exact wellFormed.named_of_node found

theorem node?_relist (location : Location) :
    (tree.relist order).node? location = tree.node? location := by
  by_cases below : location = []
  · subst below
    rfl
  apply Option.ext
  intro node
  rw [← (relist_wellFormed wellFormed permutes).mem_iff below, relist, List.mem_filterMap]
  constructor
  · rintro ⟨other, _, entry⟩
    obtain ⟨held, found, same⟩ := Option.map_eq_some_iff.mp entry
    cases same
    exact found
  · intro found
    refine ⟨location, (mem_listing_of_permutes wellFormed permutes).mpr ⟨below, node, found⟩, ?_⟩
    rw [found]
    rfl

theorem namesIn_relist (place : Location) : (tree.relist order).namesIn place = order place := by
  rw [namesIn_eq, locations_relist wellFormed permutes, filterMap_listing tree.nodup_parents]
  split
  · rfl
  · next unlisted =>
    apply Eq.symm
    apply List.eq_nil_iff_forall_not_mem.mpr
    intro name member
    rw [(permutes place).mem_iff, wellFormed.mem_namesIn] at member
    obtain ⟨node, found⟩ := member
    exact unlisted (wellFormed.mem_parents found)

end Relist
end Tree

namespace Machine
variable {machine other : Machine} {order : Location → List Bytes}

/-- The other machine is the same, but lists its directories in these orders. -/
structure Relists (machine : Machine) (order : Location → List Bytes) (other : Machine) :
    Prop where
  here : other.here = machine.here
  environment : other.environment = machine.environment
  wellFormed : other.tree.WellFormed
  nodes : ∀ location, other.tree.node? location = machine.tree.node? location
  lists : ∀ place, other.tree.namesIn place = order place

/-- Every directory from its last name to its first. -/
def backwards (machine : Machine) (directory : Location) : List Bytes :=
  (machine.tree.namesIn directory).reverse

theorem backwards_perm (machine : Machine) (directory : Location) :
    (machine.backwards directory).Perm (machine.tree.namesIn directory) :=
  List.reverse_perm _

theorem exists_relists (wellFormed : machine.tree.WellFormed)
    (permutes : ∀ place, (order place).Perm (machine.tree.namesIn place)) :
    ∃ other, machine.Relists order other :=
  ⟨{ machine with tree := machine.tree.relist order }, rfl, rfl,
    Tree.relist_wellFormed wellFormed permutes, Tree.node?_relist wellFormed permutes,
    Tree.namesIn_relist wellFormed permutes⟩

namespace Relists
variable (relists : machine.Relists order other)
include relists

theorem status (path : Path) : other.status path = machine.status path := by
  unfold Machine.status
  rw [relists.here, Tree.find_congr relists.nodes]

theorem isThere (path : Path) : other.isThere path = machine.isThere path := by
  unfold Machine.isThere
  rw [relists.status]

theorem valueOf? (name : String) : other.valueOf? name = machine.valueOf? name := by
  unfold Machine.valueOf?
  rw [relists.environment]

theorem currentDirectory : other.currentDirectory = machine.currentDirectory := by
  unfold Machine.currentDirectory
  rw [relists.here]

end Relists
end Machine
end KotlinCompile
