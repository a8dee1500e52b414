import KotlinCompile.Proofs.Machine.Growth

/-! What a way passes. A walk asks for no other nodes than those at the locations on its way, so it
comes out the same in every tree that has the same nodes there. -/
namespace KotlinCompile

namespace Tree
variable {tree other : Tree} {here place location : Location} {steps more names : List Bytes}

/-- The way from a location by some steps passes another, from where it starts to where it ends. -/
inductive Passes (tree : Tree) : Location → List Bytes → Location → Prop
  | start (here : Location) (steps : List Bytes) : Passes tree here steps here
  | up {here location : Location} {rest : List Bytes} : Passes tree here.dropLast rest location →
      Passes tree here ([Byte.dot, Byte.dot] :: rest) location
  | down {here location : Location} {step : Bytes} {rest : List Bytes} :
      step ≠ [Byte.dot, Byte.dot] → (∀ target, tree.node? (here ++ [step]) ≠ some (.link target)) →
      Passes tree (here ++ [step]) rest location → Passes tree here (step :: rest) location
  | link {here : Location} {step : Bytes} {rest : List Bytes} {target : Path} :
      step ≠ [Byte.dot, Byte.dot] → tree.node? (here ++ [step]) = some (.link target) →
      Passes tree here (step :: rest) (here ++ [step])
  | through {here location : Location} {step : Bytes} {rest : List Bytes} {target : Path} :
      step ≠ [Byte.dot, Byte.dot] → tree.node? (here ++ [step]) = some (.link target) →
      Passes tree (origin here target) (target.track ++ rest) location →
      Passes tree here (step :: rest) location

theorem Route.passes (route : Route tree here steps location) : Passes tree here steps location := by
  induction route with
  | arrived here => exact .start here []
  | up _ ih => exact .up ih
  | down level plain _ ih => exact .down level plain ih
  | through level linked _ ih => exact .through level linked ih

theorem Passes.transfer (same : SameLinks tree other) (passes : Passes tree here steps location) :
    Passes other here steps location := by
  induction passes with
  | start here steps => exact .start here steps
  | up _ ih => exact .up ih
  | down level plain _ ih =>
    exact .down level (fun target linked => plain target ((same _ target).mpr linked)) ih
  | link level linked => exact .link level ((same _ _).mp linked)
  | through level linked _ ih => exact .through level ((same _ _).mp linked) ih

theorem Passes.append (passes : Passes tree here steps location) :
    Passes tree here (steps ++ more) location := by
  induction passes with
  | start here steps => exact .start here _
  | up _ ih => exact .up ih
  | down level plain _ ih => exact .down level plain ih
  | link level linked => exact .link level linked
  | through level linked _ ih =>
    rw [List.append_assoc] at ih
    exact .through level linked ih

-- What a longer way passes is passed by its first part, or behind the place that this leads to.
theorem Passes.split (passes : Passes tree here (steps ++ more) location) :
    Passes tree here steps location ∨
      ∃ place, Route tree here steps place ∧ Passes tree place more location := by
  generalize joined : steps ++ more = all at passes
  induction passes generalizing steps with
  | start here => exact Or.inl (.start here steps)
  | @up here location rest further ih =>
    rcases List.append_eq_cons_iff.mp joined with ⟨rfl, rfl⟩ | ⟨rest, rfl, same⟩
    · exact Or.inr ⟨here, .arrived here, .up further⟩
    · exact (ih same.symm).imp .up fun ⟨place, first, second⟩ => ⟨place, .up first, second⟩
  | @down here location step rest level plain further ih =>
    rcases List.append_eq_cons_iff.mp joined with ⟨rfl, rfl⟩ | ⟨rest, rfl, same⟩
    · exact Or.inr ⟨here, .arrived here, .down level plain further⟩
    · exact (ih same.symm).imp (.down level plain)
        fun ⟨place, first, second⟩ => ⟨place, .down level plain first, second⟩
  | @link here step rest target level linked =>
    rcases List.append_eq_cons_iff.mp joined with ⟨rfl, rfl⟩ | ⟨rest, rfl, same⟩
    · exact Or.inr ⟨here, .arrived here, .link level linked⟩
    · exact Or.inl (.link level linked)
  | @through here location step rest target level linked further ih =>
    rcases List.append_eq_cons_iff.mp joined with ⟨rfl, rfl⟩ | ⟨rest, rfl, same⟩
    · exact Or.inr ⟨here, .arrived here, .through level linked further⟩
    · subst same
      exact (ih (List.append_assoc target.track rest more)).imp (.through level linked)
        fun ⟨place, first, second⟩ => ⟨place, .through level linked first, second⟩

/-- Without links on their way, names lead past nothing but the beginnings of the way down. -/
theorem Passes.front (plain : ∀ front target, front ≠ [] → front <+: names →
      tree.node? (place ++ front) ≠ some (.link target))
    (level : [Byte.dot, Byte.dot] ∉ names) (passes : Passes tree place names location) :
    ∃ front, front <+: names ∧ location = place ++ front := by
  induction names generalizing place with
  | nil =>
    cases passes
    exact ⟨[], List.nil_prefix, (List.append_nil _).symm⟩
  | cons name rest ih =>
    rw [List.mem_cons, not_or] at level
    have first (target : Path) : tree.node? (place ++ [name]) ≠ some (.link target) :=
      plain [name] target (List.cons_ne_nil _ _) ⟨rest, rfl⟩
    cases passes with
    | start => exact ⟨[], List.nil_prefix, (List.append_nil _).symm⟩
    | up => exact absurd rfl level.1
    | link _ linked => exact absurd linked (first _)
    | through _ linked => exact absurd linked (first _)
    | down _ _ further =>
      obtain ⟨front, begins, rfl⟩ := ih (fun front target _ begins => by
        rw [List.append_assoc]
        exact plain (name :: front) target (List.cons_ne_nil _ _)
          (List.cons_prefix_cons.mpr ⟨rfl, begins⟩)) level.2 further
      exact ⟨name :: front, List.cons_prefix_cons.mpr ⟨rfl, begins⟩, List.append_assoc ..⟩

theorem LinkFree.passes (free : LinkFree tree place) (level : [Byte.dot, Byte.dot] ∉ names)
    (passes : Passes tree place names location) :
    ∃ front, front <+: names ∧ location = place ++ front :=
  passes.front (fun front target filled _ => free front target filled) level

section Agreeing
variable {follow : Bool} {jump jump' : Location → List Bytes → Except Cause Place}

/-- Both trees have the same nodes wherever the way passes. -/
def AgreeOnWay (tree other : Tree) (here : Location) (steps : List Bytes) : Prop :=
  ∀ location, Passes tree here steps location → other.node? location = tree.node? location

theorem Route.agreeing (agree : AgreeOnWay tree other here steps)
    (route : Route tree here steps location) : Route other here steps location := by
  induction route with
  | arrived here => exact .arrived here
  | up _ ih => exact .up (ih fun place passes => agree place (.up passes))
  | @down here location step rest level plain _ ih =>
    have same := agree (here ++ [step]) (.down level plain (.start _ _))
    refine .down level (fun target linked => plain target (same.symm.trans linked)) ?_
    exact ih fun place passes => agree place (.down level plain passes)
  | through level linked _ ih =>
    refine .through level ((agree _ (.link level linked)).trans linked) ?_
    exact ih fun place passes => agree place (.through level linked passes)

theorem walkUntilLink_agreeing
    (jumps : ∀ here steps, AgreeOnWay tree other here (moves steps) →
      jump' here steps = jump here steps)
    (agree : AgreeOnWay tree other here (moves steps)) :
    other.walkUntilLink follow jump' here steps = tree.walkUntilLink follow jump here steps := by
  induction steps generalizing here with
  | nil => rw [walkUntilLink, walkUntilLink, agree here (.start _ _)]
  | cons step rest ih =>
    rw [walkUntilLink, walkUntilLink, agree here (.start _ _)]
    by_cases idle : step = [] ∨ step = [Byte.dot]
    · rw [if_pos idle, if_pos idle]
      rw [moves_cons_of_idle idle] at agree
      rw [ih agree]
    rw [if_neg idle, if_neg idle]
    rw [moves_cons idle] at agree
    by_cases up : step = [Byte.dot, Byte.dot]
    · subst up
      rw [if_pos rfl, if_pos rfl, ih fun place passes => agree place (.up passes)]
    rw [if_neg up, if_neg up]
    by_cases linked : ∃ target, tree.node? (here ++ [step]) = some (.link target)
    · obtain ⟨target, linked⟩ := linked
      have along : AgreeOnWay tree other (origin here target) (moves (Tree.steps target ++ rest)) := by
        rw [moves_append, ← track_eq]
        exact fun place passes => agree place (.through up linked passes)
      rw [agree _ (.link up linked), linked]
      dsimp only
      rw [jumps _ _ along]
    · have plain (target : Path) : tree.node? (here ++ [step]) ≠ some (.link target) :=
        fun found => linked ⟨target, found⟩
      rw [agree _ (.down up plain (.start _ _)),
        ih fun place passes => agree place (.down up plain passes)]
      cases found : tree.node? (here ++ [step]) with
      | none => rfl
      | some node => cases node <;> first | rfl | exact absurd found (plain _)

/-- A walk comes out the same where its way passes the same nodes. -/
theorem walk_agreeing {links : Nat} (agree : AgreeOnWay tree other here (moves steps)) :
    other.walk follow links here steps = tree.walk follow links here steps := by
  induction links generalizing here steps with
  | zero => exact walkUntilLink_agreeing (fun _ _ _ => rfl) agree
  | succ links ih => exact walkUntilLink_agreeing (fun _ _ => ih) agree

end Agreeing
end Tree

namespace Machine
variable {machine other : Machine} {path base : Path} {location place : Location} {names : Location}

/-- The way that a path leads passes the location. -/
def Passes (machine : Machine) (path : Path) (location : Location) : Prop :=
  machine.tree.Passes (Tree.origin machine.here path) path.track location

theorem Routes.passes (routes : machine.Routes path location) : machine.Passes path location :=
  Tree.Route.passes routes

theorem Passes.split (whole : path.components = base.components ++ names.map .name)
    (passes : machine.Passes path location) : machine.Passes base location ∨
      ∃ place, machine.Routes base place ∧ machine.tree.Passes place names location := by
  unfold Passes Tree.origin at passes
  rw [absolute_of_components whole, track_of_components whole] at passes
  exact Tree.Passes.split passes

theorem Grows.passes_iff {makes writes : Path → Prop} (grows : Grows makes writes machine other) :
    other.Passes path location ↔ machine.Passes path location := by
  unfold Passes
  rw [grows.here]
  exact ⟨.transfer grows.sameLinks.symm, .transfer grows.sameLinks⟩

/-- The machines have the same nodes wherever the path passes in the first of them. -/
structure AgreeOnWay (machine other : Machine) (path : Path) : Prop where
  here : other.here = machine.here
  node : ∀ location, machine.Passes path location →
    other.tree.node? location = machine.tree.node? location

theorem Routes.agreeing (agree : machine.AgreeOnWay other path)
    (routes : machine.Routes path location) : other.Routes path location := by
  unfold Routes
  rw [agree.here]
  exact Tree.Route.agreeing agree.node routes

theorem status_agreeing (agree : machine.AgreeOnWay other path) :
    other.status path = machine.status path := by
  have node := agree.node
  unfold Passes at node
  rw [Tree.track_eq] at node
  unfold status Tree.find
  rw [agree.here, Tree.walk_agreeing node]

end Machine
end KotlinCompile
