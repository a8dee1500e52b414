import KotlinCompile.Machine.Files
import KotlinCompile.Proofs.Machine.Walk
import KotlinCompile.Proofs.Path.Below

/-! Where a path leads, whether or not anything is there. Only links say where a way goes on, so as
long as no link comes or goes, every path leads where it led before, and a way that meets no link
goes along its names. -/
namespace KotlinCompile

/-- The step that a component asks for, unless it asks for none. -/
def Component.step? : Component → Option Bytes
  | name bytes => some bytes
  | up => some [Byte.dot, Byte.dot]
  | _ => none

/-- The steps that a path asks for, without those that stay. -/
def Path.track (path : Path) : List Bytes := path.components.filterMap Component.step?

/-- Where a walk may go on, or a path that was followed may end. -/
def Place.Unlinked : Place → Prop
  | occupied _ node => ∀ target, node ≠ .link target
  | free .. => True

theorem Location.below_inj {place : Location} {name other : Bytes} {rest more : List Bytes}
    (same : place ++ name :: rest = place ++ other :: more) : name = other ∧ rest = more :=
  List.cons.inj (List.append_cancel_left same)

namespace Tree
variable {tree other : Tree} {here place location : Location} {step : Bytes}
  {steps rest names : List Bytes}

/-- The steps that do not stay. -/
def moves (steps : List Bytes) : List Bytes := steps.filter fun step => step ≠ [] ∧ step ≠ [Byte.dot]

theorem moves_cons_of_idle (idle : step = [] ∨ step = [Byte.dot]) : moves (step :: rest) = moves rest := by
  rcases idle with rfl | rfl <;> rfl

theorem moves_cons (busy : ¬(step = [] ∨ step = [Byte.dot])) :
    moves (step :: rest) = step :: moves rest := by
  rw [not_or] at busy
  rw [moves, List.filter_cons_of_pos (by simpa using busy), moves]

theorem moves_append (steps more : List Bytes) : moves (steps ++ more) = moves steps ++ moves more :=
  List.filter_append ..

theorem track_eq (path : Path) : path.track = moves (Tree.steps path) := by
  have starts : path.start.filterMap Component.step? = [] := by
    unfold Path.start
    split
    · rfl
    · split <;> rfl
  rw [Path.track, Path.components, List.filterMap_append, starts, List.nil_append, Tree.steps]
  induction path.segments with
  | nil => rfl
  | cons segment segments ih =>
    by_cases idle : segment = [] ∨ segment = [Byte.dot]
    · have none := Path.segmentComponent_of_idle idle
      rw [List.filterMap_cons_none none, moves_cons_of_idle idle, ih]
    · obtain ⟨component, counts, asks⟩ : ∃ component, Path.segmentComponent? segment =
          some component ∧ component.step? = some segment := by
        unfold Path.segmentComponent?
        rw [if_neg idle]
        split
        · next up => exact ⟨_, rfl, congrArg some up.symm⟩
        · exact ⟨_, rfl, rfl⟩
      rw [List.filterMap_cons_some counts, List.filterMap_cons_some asks, moves_cons idle, ih]

/-- The way from a location by some steps to another, through whatever links lie on it. -/
inductive Route (tree : Tree) : Location → List Bytes → Location → Prop
  | arrived (here : Location) : Route tree here [] here
  | up {here location : Location} {rest : List Bytes} :
      Route tree here.dropLast rest location → Route tree here ([Byte.dot, Byte.dot] :: rest) location
  | down {here location : Location} {step : Bytes} {rest : List Bytes} : step ≠ [Byte.dot, Byte.dot] →
      (∀ target, tree.node? (here ++ [step]) ≠ some (.link target)) →
      Route tree (here ++ [step]) rest location → Route tree here (step :: rest) location
  | through {here location : Location} {step : Bytes} {rest : List Bytes} {target : Path} :
      step ≠ [Byte.dot, Byte.dot] → tree.node? (here ++ [step]) = some (.link target) →
      Route tree (origin here target) (target.track ++ rest) location →
      Route tree here (step :: rest) location

theorem Route.unique (route : Route tree here steps location)
    (again : Route tree here steps place) : place = location := by
  induction route with
  | arrived here =>
    cases again
    rfl
  | up _ ih =>
    cases again with
    | up further => exact ih further
    | down level => exact absurd rfl level
    | through level => exact absurd rfl level
  | down level plain _ ih =>
    cases again with
    | up => exact absurd rfl level
    | down _ _ further => exact ih further
    | through _ linked => exact absurd linked (plain _)
  | through level linked _ ih =>
    cases again with
    | up => exact absurd rfl level
    | down _ plain => exact absurd linked (plain _)
    | through _ same further =>
      cases linked.symm.trans same
      exact ih further

theorem Route.append {more : List Bytes} (first : Route tree here steps place)
    (second : Route tree place more location) : Route tree here (steps ++ more) location := by
  induction first with
  | arrived => exact second
  | up _ ih => exact .up (ih second)
  | down level plain _ ih => exact .down level plain (ih second)
  | through level linked _ ih =>
    have further := ih second
    rw [List.append_assoc] at further
    exact .through level linked further

theorem Route.split {more : List Bytes} (whole : Route tree here (steps ++ more) location) :
    ∃ place, Route tree here steps place ∧ Route tree place more location := by
  generalize joined : steps ++ more = all at whole
  induction whole generalizing steps with
  | arrived here =>
    obtain ⟨rfl, rfl⟩ := List.append_eq_nil_iff.mp joined
    exact ⟨here, .arrived here, .arrived here⟩
  | @up here location rest further ih =>
    rcases List.append_eq_cons_iff.mp joined with ⟨rfl, rfl⟩ | ⟨rest, rfl, same⟩
    · exact ⟨here, .arrived here, .up further⟩
    · obtain ⟨place, first, second⟩ := ih same.symm
      exact ⟨place, .up first, second⟩
  | @down here location step rest level plain further ih =>
    rcases List.append_eq_cons_iff.mp joined with ⟨rfl, rfl⟩ | ⟨rest, rfl, same⟩
    · exact ⟨here, .arrived here, .down level plain further⟩
    · obtain ⟨place, first, second⟩ := ih same.symm
      exact ⟨place, .down level plain first, second⟩
  | @through here location step rest target level linked further ih =>
    rcases List.append_eq_cons_iff.mp joined with ⟨rfl, rfl⟩ | ⟨rest, rfl, same⟩
    · exact ⟨here, .arrived here, .through level linked further⟩
    · subst same
      obtain ⟨place, first, second⟩ := ih (List.append_assoc target.track rest more)
      exact ⟨place, .through level linked first, second⟩

def SameLinks (tree other : Tree) : Prop :=
  ∀ location target, tree.node? location = some (.link target) ↔
    other.node? location = some (.link target)

theorem SameLinks.symm (same : SameLinks tree other) : SameLinks other tree :=
  fun location target => (same location target).symm

theorem Route.transfer (same : SameLinks tree other) (route : Route tree here steps location) :
    Route other here steps location := by
  induction route with
  | arrived here => exact .arrived here
  | up _ ih => exact .up ih
  | down level plain _ ih =>
    exact .down level (fun target linked => plain target ((same _ target).mpr linked)) ih
  | through level linked _ ih => exact .through level ((same _ _).mp linked) ih

/-- No link is below the location. -/
def LinkFree (tree : Tree) (place : Location) : Prop :=
  ∀ names target, names ≠ [] → tree.node? (place ++ names) ≠ some (.link target)

theorem linkFree_of_nodes (plain : ∀ entry ∈ tree.nodes, place <+: entry.1 →
    ∀ target, entry.2 ≠ .link target) : LinkFree tree place := by
  intro names target filled linked
  rw [node?, if_neg (List.append_ne_nil_of_right_ne_nil _ filled)] at linked
  obtain ⟨before, after, whole, _⟩ := List.lookup_eq_some_iff.mp linked
  have member : (place ++ names, Node.link target) ∈ tree.nodes := by simp [whole]
  exact plain _ member (List.prefix_append place names) target rfl

theorem LinkFree.below (free : LinkFree tree place) (names : List Bytes) :
    LinkFree tree (place ++ names) := by
  intro more target filled
  rw [List.append_assoc]
  exact free _ target (List.append_ne_nil_of_right_ne_nil _ filled)

theorem LinkFree.transfer (same : SameLinks tree other) (free : LinkFree tree place) :
    LinkFree other place :=
  fun names target filled linked => free names target filled ((same _ target).mpr linked)

theorem LinkFree.route (free : LinkFree tree place) (level : [Byte.dot, Byte.dot] ∉ names) :
    Route tree place names (place ++ names) := by
  induction names generalizing place with
  | nil =>
    rw [List.append_nil]
    exact .arrived place
  | cons name rest ih =>
    rw [List.mem_cons, not_or] at level
    have further := ih (free.below [name]) level.2
    rw [List.append_assoc] at further
    exact .down (Ne.symm level.1) (fun target => free [name] target (List.cons_ne_nil _ _)) further

section Walks
variable {follow : Bool} {jump : Location → List Bytes → Except Cause Place} {found : Place}

theorem walkUntilLink_route
    (jumps : ∀ here steps found, jump here steps = .ok found → found.Unlinked →
      Route tree here (moves steps) found.location)
    (walked : tree.walkUntilLink follow jump here steps = .ok found) (plain : found.Unlinked) :
    Route tree here (moves steps) found.location := by
  fun_induction walkUntilLink tree follow jump here steps with
  | case1 here node occupied =>
    cases walked
    exact .arrived here
  | case2 | case3 | case6 | case8 => cases walked
  | case4 here step rest directory idle ih =>
    rw [moves_cons_of_idle idle]
    exact ih walked
  | case5 here rest directory busy ih =>
    rw [moves_cons busy]
    exact .up (ih walked)
  | case7 here step rest directory busy down short free last =>
    cases walked
    have ends : moves rest = [] := by
      rw [moves, List.filter_eq_nil_iff]
      intro step member
      have empty := List.all_eq_true.mp last step member
      simp_all
    rw [moves_cons busy, ends]
    refine .down down (fun target linked => ?_) (.arrived _)
    rw [free] at linked
    cases linked
  | case9 here step rest directory busy down short target linked last =>
    cases walked
    exact absurd rfl (plain target)
  | case10 here step rest directory busy down short target linked more =>
    have further := jumps _ _ _ walked plain
    rw [moves_append, ← track_eq] at further
    rw [moves_cons busy]
    exact .through down linked further
  | case11 here step rest directory busy down short node other occupied ih =>
    rw [moves_cons busy]
    refine .down down (fun target linked => ?_) (ih walked)
    cases occupied.symm.trans linked
    exact other target rfl

/-- A walk that is not left at a link goes where the steps lead. -/
theorem walk_route {links : Nat} (walked : tree.walk follow links here steps = .ok found)
    (plain : found.Unlinked) : Route tree here (moves steps) found.location := by
  induction links generalizing here steps found with
  | zero => exact walkUntilLink_route (fun _ _ _ refused => by cases refused) walked plain
  | succ links ih => exact walkUntilLink_route (fun _ _ _ jumped => ih jumped) walked plain

end Walks
end Tree

namespace Machine
variable {machine : Machine} {path base : Path} {location place : Location} {names : List Bytes}

/-- The path leads to the location, whether or not anything is there. -/
def Routes (machine : Machine) (path : Path) (location : Location) : Prop :=
  machine.tree.Route (Tree.origin machine.here path) path.track location

def LinkFreeBelow (machine : Machine) (path : Path) : Prop :=
  ∀ place, machine.Routes path place → machine.tree.LinkFree place

theorem Routes.unique (routes : machine.Routes path location) (again : machine.Routes path place) :
    place = location :=
  Tree.Route.unique routes again

theorem absolute_of_components
    (whole : path.components = base.components ++ names.map .name) :
    path.isAbsolute = base.isAbsolute := by
  rw [Bool.eq_iff_iff, ← Path.root_mem_components, ← Path.root_mem_components, whole]
  simp

theorem track_of_components (whole : path.components = base.components ++ names.map .name) :
    path.track = base.track ++ names := by
  have alone : (names.map Component.name).filterMap Component.step? = names := by
    rw [List.filterMap_map]
    exact List.filterMap_some
  rw [Path.track, whole, List.filterMap_append, alone]
  rfl

/-- A path that goes on by names leads on from where the path before them leads. -/
theorem routes_iff (whole : path.components = base.components ++ names.map .name) :
    machine.Routes path location ↔
      ∃ place, machine.Routes base place ∧ machine.tree.Route place names location := by
  unfold Routes Tree.origin
  rw [absolute_of_components whole, track_of_components whole]
  constructor
  · exact Tree.Route.split
  · rintro ⟨place, first, second⟩
    exact first.append second

/-- Behind a place without links below, a path leads along its names. -/
theorem routes_below (whole : path.components = base.components ++ names.map .name)
    (free : machine.LinkFreeBelow base) (level : [Byte.dot, Byte.dot] ∉ names) :
    machine.Routes path location ↔ ∃ place, machine.Routes base place ∧ location = place ++ names := by
  rw [routes_iff whole]
  refine exists_congr fun place => and_congr_right fun leads => ?_
  have along := (free place leads).route level
  constructor
  · exact fun route => along.unique route
  · rintro rfl
    exact along

end Machine
end KotlinCompile
