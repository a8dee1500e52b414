import KotlinCompile.Proofs.Machine.Route

/-! Walks in two parts. The way to a directory is the same whatever comes behind it, and below a
directory without links what comes behind is decided by the nodes there alone. -/
namespace KotlinCompile

namespace Tree
variable {tree other : Tree} {here place location : Location} {node : Node} {step : Bytes}
  {steps more rest : List Bytes}

section Parts
variable {follow : Bool} {jump jump' : Location → List Bytes → Except Cause Place}

/-- Where a walk in a directory is after a step that is no link. -/
inductive GoesTo (tree : Tree) (here : Location) (step : Bytes) : Location → Prop
  | idle : step = [] ∨ step = [Byte.dot] → GoesTo tree here step here
  | up : step = [Byte.dot, Byte.dot] → GoesTo tree here step here.dropLast
  | down {node : Node} : ¬(step = [] ∨ step = [Byte.dot]) → step ≠ [Byte.dot, Byte.dot] →
      ¬longestName < step.length → (∀ target, node ≠ .link target) →
      tree.node? (here ++ [step]) = some node → GoesTo tree here step (here ++ [step])

/-- The step is a link, as a walk in a directory may meet it. -/
structure Meets (tree : Tree) (here : Location) (step : Bytes) (target : Path) : Prop where
  busy : ¬(step = [] ∨ step = [Byte.dot])
  level : step ≠ [Byte.dot, Byte.dot]
  short : ¬longestName < step.length
  linked : tree.node? (here ++ [step]) = some (.link target)

theorem GoesTo.walk (goes : GoesTo tree here step location)
    (directory : tree.node? here = some .directory) (follow : Bool)
    (jump : Location → List Bytes → Except Cause Place) (rest : List Bytes) :
    tree.walkUntilLink follow jump here (step :: rest) =
      tree.walkUntilLink follow jump location rest := by
  cases goes with
  | idle still => rw [walkUntilLink, if_neg (not_not_intro directory), if_pos still]
  | up up =>
    subst up
    rw [walkUntilLink, if_neg (not_not_intro directory), if_neg (by decide), if_pos rfl]
  | down busy level short plain found =>
    exact walkUntilLink_step directory busy level short plain found

theorem Meets.walk {target : Path} (meets : Meets tree here step target)
    (directory : tree.node? here = some .directory) (onward : rest ≠ [] ∨ follow = true)
    (jump : Location → List Bytes → Except Cause Place) :
    tree.walkUntilLink follow jump here (step :: rest) =
      jump (origin here target) (Tree.steps target ++ rest) := by
  have followed : ¬(rest.isEmpty && !follow) = true := by
    rcases onward with filled | rfl
    · simp [filled]
    · simp
  rw [walkUntilLink, if_neg (not_not_intro directory), if_neg meets.busy, if_neg meets.level,
    if_neg meets.short, meets.linked]
  dsimp only
  rw [if_neg followed]

/-- A walk that gets to something goes on after its first step, or jumps along a link, or ends at a
link that is not followed. -/
theorem walkUntilLink_cons (found : tree.walkUntilLink follow jump here (step :: rest) =
    .ok (.occupied location node)) : tree.node? here = some .directory ∧
      ((∃ next, GoesTo tree here step next ∧
        tree.walkUntilLink follow jump next rest = .ok (.occupied location node)) ∨
      ∃ target, Meets tree here step target ∧
        ((rest ≠ [] ∨ follow = true) ∧
            jump (origin here target) (Tree.steps target ++ rest) = .ok (.occupied location node) ∨
          (rest = [] ∧ follow = false) ∧ location = here ++ [step] ∧ node = .link target)) := by
  have directory := directory_of_walk (List.cons_ne_nil _ _) found
  refine ⟨directory, ?_⟩
  rw [walkUntilLink, if_neg (not_not_intro directory)] at found
  split at found
  · next still => exact Or.inl ⟨here, .idle still, found⟩
  next busy =>
  split at found
  · next up => exact Or.inl ⟨here.dropLast, .up up, found⟩
  next level =>
  split at found
  · cases found
  next short =>
  split at found
  · split at found <;> cases found
  · next target linked =>
    refine Or.inr ⟨target, ⟨busy, level, short, linked⟩, ?_⟩
    split at found
    · next last =>
      cases found
      exact Or.inr ⟨by simpa using last, rfl, rfl⟩
    · next more => exact Or.inl ⟨by simpa [Decidable.imp_iff_not_or] using more, found⟩
  · next other plain occupied =>
    exact Or.inl ⟨here ++ [step], .down busy level short plain occupied, found⟩

theorem walkUntilLink_append
    (found : tree.walkUntilLink true jump here steps = .ok (.occupied place .directory)) :
    (∀ follow jump' more, more ≠ [] → tree.walkUntilLink follow jump' here (steps ++ more) =
      tree.walkUntilLink follow jump' place more) ∨
    ∃ start left, jump start left = .ok (.occupied place .directory) ∧
      ∀ follow jump' more, more ≠ [] →
        tree.walkUntilLink follow jump' here (steps ++ more) = jump' start (left ++ more) := by
  induction steps generalizing here with
  | nil =>
    rw [walkUntilLink] at found
    split at found <;> cases found
    exact Or.inl fun _ _ _ _ => rfl
  | cons step rest ih =>
    obtain ⟨directory, first⟩ := walkUntilLink_cons found
    rcases first with ⟨next, goes, onward⟩ | ⟨target, meets, ⟨_, jumped⟩ | ⟨⟨_, ⟨⟩⟩, _⟩⟩
    · simp only [List.cons_append, goes.walk directory]
      exact ih onward
    · refine Or.inr ⟨_, _, jumped, fun follow jump' more filled => ?_⟩
      rw [List.cons_append, meets.walk directory (Or.inl (by simp [filled])), List.append_assoc]

/-- Behind a directory a walk goes on as it would from there, with the links that are left. -/
theorem walk_append {links : Nat}
    (found : tree.walk true links here steps = .ok (.occupied place .directory)) :
    ∃ left, ∀ follow more, more ≠ [] →
      tree.walk follow links here (steps ++ more) = tree.walk follow left place more := by
  induction links generalizing here steps with
  | zero =>
    rcases walkUntilLink_append found with same | ⟨_, _, refused, _⟩
    · exact ⟨0, fun follow more filled => same follow _ more filled⟩
    · cases refused
  | succ links ih =>
    rcases walkUntilLink_append found with same | ⟨start, left, jumped, same⟩
    · exact ⟨links + 1, fun follow more filled => same follow _ more filled⟩
    · obtain ⟨fewer, onward⟩ := ih jumped
      refine ⟨fewer, fun follow more filled => ?_⟩
      rw [← onward follow more filled]
      exact same follow _ more filled

theorem walkUntilLink_front (filled : more ≠ [])
    (jumps : ∀ start left, jump start (left ++ more) = .ok (.occupied location node) →
      ∃ place, jump' start left = .ok (.occupied place .directory))
    (found : tree.walkUntilLink follow jump here (steps ++ more) = .ok (.occupied location node)) :
    ∃ place, tree.walkUntilLink true jump' here steps = .ok (.occupied place .directory) := by
  induction steps generalizing here with
  | nil =>
    refine ⟨here, ?_⟩
    rw [walkUntilLink, directory_of_walk filled found]
  | cons step rest ih =>
    rw [List.cons_append] at found
    obtain ⟨directory, first⟩ := walkUntilLink_cons found
    rcases first with ⟨next, goes, onward⟩ | ⟨target, meets, ⟨_, jumped⟩ | ⟨⟨ends, _⟩, _⟩⟩
    · rw [goes.walk directory]
      exact ih onward
    · rw [meets.walk directory (Or.inr rfl)]
      rw [← List.append_assoc] at jumped
      exact jumps _ _ jumped
    · exact absurd ends (List.append_ne_nil_of_right_ne_nil _ filled)

/-- A walk that gets somewhere behind some steps gets to a directory by them. -/
theorem walk_front (filled : more ≠ []) {links : Nat}
    (found : tree.walk follow links here (steps ++ more) = .ok (.occupied location node)) :
    ∃ place, tree.walk true links here steps = .ok (.occupied place .directory) := by
  induction links generalizing here steps with
  | zero => exact walkUntilLink_front filled (fun _ _ refused => by cases refused) found
  | succ links ih => exact walkUntilLink_front filled (fun _ _ jumped => ih jumped) found

theorem walkUntilLink_unfollowed
    (jumps : ∀ start left, (∃ place node, jump start left = .ok (.occupied place node)) →
      ∃ place node, jump' start left = .ok (.occupied place node))
    (found : ∃ place node,
      tree.walkUntilLink true jump here steps = .ok (.occupied place node)) :
    ∃ place node, tree.walkUntilLink false jump' here steps = .ok (.occupied place node) := by
  induction steps generalizing here with
  | nil =>
    rw [walkUntilLink] at found ⊢
    exact found
  | cons step rest ih =>
    obtain ⟨place, node, found⟩ := found
    obtain ⟨directory, first⟩ := walkUntilLink_cons found
    rcases first with ⟨next, goes, onward⟩ | ⟨target, meets, ⟨_, jumped⟩ | ⟨⟨_, ⟨⟩⟩, _⟩⟩
    · rw [goes.walk directory]
      exact ih ⟨place, node, onward⟩
    · cases rest with
      | nil =>
        -- the walk is over at the link itself
        refine ⟨here ++ [step], .link target, ?_⟩
        rw [walkUntilLink, if_neg (not_not_intro directory), if_neg meets.busy,
          if_neg meets.level, if_neg meets.short, meets.linked]
        rfl
      | cons second others =>
        rw [meets.walk directory (Or.inl (List.cons_ne_nil _ _))]
        exact jumps _ _ ⟨place, node, jumped⟩

/-- Where a walk gets to something, a walk that does not follow a link at its end does so too. -/
theorem walk_unfollowed {links : Nat}
    (found : ∃ place node, tree.walk true links here steps = .ok (.occupied place node)) :
    ∃ place node, tree.walk false links here steps = .ok (.occupied place node) := by
  induction links generalizing here steps with
  | zero =>
    refine walkUntilLink_unfollowed (fun _ _ refused => ?_) found
    obtain ⟨_, _, ⟨⟩⟩ := refused
  | succ links ih => exact walkUntilLink_unfollowed (fun _ _ jumped => ih jumped) found

end Parts

section Below
variable {follow : Bool} {jump jump' : Location → List Bytes → Except Cause Place}
  {keep : Bytes → Bool}

theorem node?_of_same (same : ∀ names node, tree.node? (place ++ names) = some node →
    other.node? (place ++ names) = some node) (found : tree.node? place = some node) :
    other.node? place = some node := by
  have there := same [] node (by rwa [List.append_nil])
  rwa [List.append_nil] at there

/-- Below a directory without links a walk goes along its names, and it stays what it is in another
tree that has the same nodes there, and without steps that stay. -/
theorem walkUntilLink_below (free : LinkFree tree place)
    (same : ∀ names node, tree.node? (place ++ names) = some node →
      other.node? (place ++ names) = some node)
    (busy : ∀ step, ¬(step = [] ∨ step = [Byte.dot]) → keep step = true) (level : [Byte.dot, Byte.dot] ∉ steps)
    (found : tree.walkUntilLink follow jump place steps = .ok (.occupied location node)) :
    location = place ++ moves steps ∧
      other.walkUntilLink follow jump' place (steps.filter keep) = .ok (.occupied location node) := by
  induction steps generalizing place with
  | nil =>
    rw [walkUntilLink] at found
    split at found
    · next old occupied =>
      cases found
      refine ⟨(List.append_nil _).symm, ?_⟩
      rw [List.filter_nil, walkUntilLink, node?_of_same same occupied]
    · cases found
  | cons step rest ih =>
    rw [List.mem_cons, not_or] at level
    obtain ⟨directory, first⟩ := walkUntilLink_cons found
    have directory := node?_of_same same directory
    rcases first with ⟨next, goes, onward⟩ | ⟨target, meets, _⟩
    · cases goes with
      | idle still =>
        obtain ⟨along, walked⟩ := ih free same level.2 onward
        refine ⟨by rw [moves_cons_of_idle still]; exact along, ?_⟩
        rw [List.filter_cons]
        split
        · exact ((GoesTo.idle still).walk directory _ _ _).trans walked
        · exact walked
      | up up => exact absurd up.symm level.1
      | down counts _ short plain occupied =>
        have deeper (names : List Bytes) (node : Node)
            (found : tree.node? (place ++ [step] ++ names) = some node) :
            other.node? (place ++ [step] ++ names) = some node := by
          rw [List.append_assoc] at found ⊢
          exact same _ node found
        obtain ⟨along, walked⟩ := ih (free.below [step]) deeper level.2 onward
        have goes : GoesTo other place step (place ++ [step]) :=
          .down counts (Ne.symm level.1) short plain (same [step] _ occupied)
        refine ⟨by rw [moves_cons counts, along, List.append_assoc]; rfl, ?_⟩
        rw [List.filter_cons_of_pos (busy step counts), goes.walk directory]
        exact walked
    · exact absurd meets.linked (free [step] target (List.cons_ne_nil _ _))

theorem walk_below (free : LinkFree tree place)
    (same : ∀ names node, tree.node? (place ++ names) = some node →
      other.node? (place ++ names) = some node)
    (busy : ∀ step, ¬(step = [] ∨ step = [Byte.dot]) → keep step = true) (level : [Byte.dot, Byte.dot] ∉ steps)
    {links : Nat} (found : tree.walk follow links place steps = .ok (.occupied location node))
    (links' : Nat) : location = place ++ moves steps ∧
      other.walk follow links' place (steps.filter keep) = .ok (.occupied location node) := by
  cases links <;> cases links' <;> exact walkUntilLink_below free same busy level found

end Below

theorem find_eq_ok {follow : Bool} {path : Path} {found : Place} :
    tree.find follow here path = .ok found ↔ refusal? path = none ∧
      tree.walk follow mostLinks (origin here path) (Tree.steps path) = .ok found := by
  unfold find
  split
  · next cause refused =>
    rw [refused]
    exact ⟨nofun, fun ⟨fine, _⟩ => by cases fine⟩
  · next fine =>
    rw [fine]
    exact ⟨fun found => ⟨rfl, found⟩, fun found => found.2⟩

end Tree

namespace Machine
variable {machine other : Machine} {path path' base : Path} {place location : Location}
  {node : Node} {steps : List Bytes}

theorem status_eq_ok : machine.status path = .ok (location, node) ↔
    machine.tree.find true machine.here path = .ok (.occupied location node) := by
  unfold status
  split
  · next found =>
    rw [found]
    constructor <;> rintro ⟨⟩ <;> rfl
  · next found =>
    rw [found]
    exact ⟨nofun, nofun⟩
  · next found =>
    rw [found]
    exact ⟨nofun, nofun⟩

/-- The path goes on from another by some steps. -/
structure GoesOn (path base : Path) (steps : List Bytes) : Prop where
  steps : Tree.steps path = Tree.steps base ++ steps
  absolute : path.isAbsolute = base.isAbsolute

theorem goesOn_join (takes : base.TakesSlash) (relative : path.isAbsolute = false) :
    GoesOn (base.join path) base (Tree.steps path) :=
  have ⟨steps, absolute⟩ := Path.steps_join takes relative
  ⟨steps, absolute⟩

theorem goesOn_below (takes : base.TakesSlash) {names : List Bytes}
    (named : ∀ name ∈ names, IsName name) : GoesOn (base.below names) base names :=
  have ⟨steps, absolute⟩ := Path.steps_below takes named
  ⟨steps, absolute⟩

theorem status_refusal (found : machine.status path = .ok (location, node)) :
    Tree.refusal? path = none :=
  (Tree.find_eq_ok.mp (status_eq_ok.mp found)).1

theorem node_of_status (found : machine.status path = .ok (location, node)) :
    machine.tree.node? location = some node :=
  Tree.walk_isIn (Tree.find_eq_ok.mp (status_eq_ok.mp found)).2

theorem status_routes (found : machine.status path = .ok (location, node))
    (plain : ∀ target, node ≠ .link target) : machine.Routes path location := by
  have walked := (Tree.find_eq_ok.mp (status_eq_ok.mp found)).2
  have route := Tree.walk_route walked plain
  rwa [← Tree.track_eq] at route

/-- A path that goes on from another and gets somewhere has a directory there. -/
theorem status_front (found : machine.status path = .ok (location, node))
    (on : GoesOn path base steps) (more : steps ≠ []) (fine : Tree.refusal? base = none) :
    ∃ place, machine.status base = .ok (place, .directory) := by
  have walked := (Tree.find_eq_ok.mp (status_eq_ok.mp found)).2
  rw [on.steps, Tree.origin, on.absolute] at walked
  obtain ⟨place, front⟩ := Tree.walk_front more walked
  exact ⟨place, status_eq_ok.mpr (Tree.find_eq_ok.mpr ⟨fine, front⟩)⟩

/-- What a path finds below a directory without links is at the end of its names, and any path that
goes on in the same way finds it, also on another machine that has the same nodes there. -/
theorem status_onward {keep : Bytes → Bool}
    (busy : ∀ step, ¬(step = [] ∨ step = [Byte.dot]) → keep step = true)
    (there : machine.status base = .ok (place, .directory))
    (there' : other.status base = .ok (place, .directory))
    (free : machine.tree.LinkFree place)
    (same : ∀ names node, machine.tree.node? (place ++ names) = some node →
      other.tree.node? (place ++ names) = some node)
    (on : GoesOn path base steps) (on' : GoesOn path' base (steps.filter keep))
    (more : steps.filter keep ≠ []) (level : [Byte.dot, Byte.dot] ∉ steps) (fine : Tree.refusal? path' = none)
    (found : machine.status path = .ok (location, node)) :
    location = place ++ Tree.moves steps ∧ other.status path' = .ok (location, node) := by
  have walked := (Tree.find_eq_ok.mp (status_eq_ok.mp found)).2
  have front := (Tree.find_eq_ok.mp (status_eq_ok.mp there)).2
  have front' := (Tree.find_eq_ok.mp (status_eq_ok.mp there')).2
  obtain ⟨left, onward⟩ := Tree.walk_append front
  obtain ⟨left', onward'⟩ := Tree.walk_append front'
  have filled : steps ≠ [] := fun empty => more (by rw [empty]; rfl)
  rw [on.steps, Tree.origin, on.absolute, ← Tree.origin, onward true steps filled] at walked
  have ⟨along, again⟩ := Tree.walk_below free same busy level walked left'
  refine ⟨along, status_eq_ok.mpr (Tree.find_eq_ok.mpr ⟨fine, ?_⟩)⟩
  rw [on'.steps, Tree.origin, on'.absolute, ← Tree.origin, onward' true _ more]
  exact again

theorem moves_names {names : List Bytes} (named : ∀ name ∈ names, IsName name) :
    Tree.moves names = names := by
  rw [Tree.moves, List.filter_eq_self]
  intro name member
  have isName := named name member
  simp [isName.filled, isName.still]

theorem level_names {names : List Bytes} (named : ∀ name ∈ names, IsName name) :
    [Byte.dot, Byte.dot] ∉ names :=
  fun member => (named _ member).level rfl

/-- If one child of a directory is found, so is any other that is there. -/
theorem status_child {known name : Bytes}
    (there : machine.status (base.child known) = .ok (location, node)) (isKnown : IsName known)
    (leads : machine.Routes base place) (isName : IsName name)
    (short : ¬Tree.longestName < name.length) (fine : Tree.refusal? (base.child name) = none)
    {node' : Node} (found : machine.tree.node? (place ++ [name]) = some node')
    (plain : ∀ target, node' ≠ .link target) :
    machine.status (base.child name) = .ok (place ++ [name], node') := by
  obtain ⟨way, children⟩ := Path.steps_child base
  have walked := (Tree.find_eq_ok.mp (status_eq_ok.mp there)).2
  rw [(children known isKnown).1, Tree.origin, (children known isKnown).2] at walked
  obtain ⟨above, front⟩ := Tree.walk_front (by simp) walked
  have whole : base.track = Tree.moves way := by
    have child : (base.child name).track = base.track ++ [name] :=
      track_of_components (Path.components_child isName.components base)
    rw [Tree.track_eq, (children name isName).1, Tree.moves_append,
      moves_names (List.forall_mem_singleton.mpr isName)] at child
    exact (List.append_cancel_right child).symm
  have same : above = place := by
    have route := Tree.walk_route front nofun
    rw [← whole] at route
    exact leads.unique route
  subst same
  obtain ⟨left, onward⟩ := Tree.walk_append front
  refine status_eq_ok.mpr (Tree.find_eq_ok.mpr ⟨fine, ?_⟩)
  rw [(children name isName).1, Tree.origin, (children name isName).2]
  refine (onward true [name] (by simp)).trans ?_
  have directory : machine.tree.node? above = some .directory := Tree.walk_isIn front
  have busy : ¬(name = [] ∨ name = [Byte.dot]) := not_or.mpr ⟨isName.filled, isName.still⟩
  have arrives (jump : Location → List Bytes → Except Cause Place) :
      machine.tree.walkUntilLink true jump above [name] = .ok (.occupied (above ++ [name]) node') := by
    rw [Tree.walkUntilLink_step directory busy isName.level short plain found, Tree.walkUntilLink,
      found]
  cases left <;> exact arrives _

end Machine
end KotlinCompile
