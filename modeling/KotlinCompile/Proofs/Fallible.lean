import Mathlib.Data.List.Forall2

/-! Computations that may fail, taken apart where they are put together: plain ones, and those that
work on a state which stays as it is left when they fail. -/
namespace KotlinCompile.Fallible
variable {σ ε ε' α β : Type}

theorem pure_eq_ok {a b : α} : (pure a : Except ε α) = .ok b ↔ a = b := by
  simp [pure, Except.pure]

theorem pure_ne_error {a : α} {fault : ε} : (pure a : Except ε α) ≠ .error fault := by
  simp [pure, Except.pure]

theorem bind_eq_ok {x : Except ε α} {next : α → Except ε β} {b : β} :
    (x >>= next) = .ok b ↔ ∃ a, x = .ok a ∧ next a = .ok b := by
  cases x <;> simp [bind, Except.bind]

theorem bind_eq_error {x : Except ε α} {next : α → Except ε β} {fault : ε} :
    (x >>= next) = .error fault ↔ x = .error fault ∨ ∃ a, x = .ok a ∧ next a = .error fault := by
  cases x <;> simp [bind, Except.bind]

theorem map_eq_ok {f : α → β} {x : Except ε α} {b : β} :
    f <$> x = .ok b ↔ ∃ a, x = .ok a ∧ f a = b := by
  cases x <;> simp [Functor.map, Except.map]

theorem mapError_eq_ok {change : ε → ε'} {x : Except ε α} {a : α} :
    x.mapError change = .ok a ↔ x = .ok a := by
  cases x with
  | error fault => exact ⟨nofun, nofun⟩
  | ok b =>
    constructor
    · rintro ⟨⟩
      rfl
    · rintro ⟨⟩
      rfl

theorem mapError_cases (change : ε → ε') (x : Except ε α) :
    (∃ a, x.mapError change = .ok a) ∨ ∃ fault, x.mapError change = .error (change fault) := by
  cases x with
  | error fault => exact Or.inr ⟨fault, rfl⟩
  | ok a => exact Or.inl ⟨a, rfl⟩

theorem toOption_eq_some {x : Except ε α} {a : α} : x.toOption = some a ↔ x = .ok a := by
  cases x <;> simp [Except.toOption]

/-- What a computation fails with, if it fails. -/
def fault? : Except ε α → Option ε
  | .error fault => some fault
  | .ok _ => none

theorem fault_eq_some {x : Except ε α} {fault : ε} : fault? x = some fault ↔ x = .error fault := by
  cases x <;> simp [fault?]

theorem fault_eq_none {x : Except ε α} : fault? x = none ↔ ∃ a, x = .ok a := by
  cases x <;> simp [fault?]

theorem fault_map (f : α → β) (x : Except ε α) : fault? (f <$> x) = fault? x := by
  cases x <;> rfl

theorem fault_mapError (change : ε → ε') (x : Except ε α) :
    fault? (x.mapError change) = (fault? x).map change := by
  cases x <;> rfl

-- What comes behind a step that went through may fail in one way only, whatever the step gave.
theorem fault_bind {x : Except ε α} {next : α → Except ε β} {later : Option ε}
    (same : ∀ a, fault? (next a) = later) : fault? (x >>= next) = (fault? x).or later := by
  cases x with
  | error fault => rfl
  | ok a => exact same a

-- A list is gone through up to the first item that fails, and that item's fault is the fault.
theorem fault_forM (check : α → Except ε Unit) (items : List α) :
    fault? (items.forM check) = items.findSome? fun item => fault? (check item) := by
  induction items with
  | nil => rfl
  | cons item rest ih =>
    have step : (item :: rest).forM check = check item >>= fun _ => rest.forM check := rfl
    rw [List.findSome?_cons, ← ih, step]
    cases check item <;> rfl

theorem fault_mapM (read : α → Except ε β) (items : List α) :
    fault? (items.mapM read) = items.findSome? fun item => fault? (read item) := by
  induction items with
  | nil => rfl
  | cons item rest ih =>
    rw [List.findSome?_cons, ← ih, List.mapM_cons]
    cases read item with
    | error fault => rfl
    | ok value => cases rest.mapM read <;> rfl

theorem forM_eq_ok {check : α → Except ε Unit} {items : List α} :
    items.forM check = .ok () ↔ ∀ item ∈ items, check item = .ok () := by
  induction items with
  | nil => exact ⟨fun _ _ member => absurd member List.not_mem_nil, fun _ => rfl⟩
  | cons item rest ih =>
    have step : (item :: rest).forM check = check item >>= fun _ => rest.forM check := rfl
    rw [List.forall_mem_cons, ← ih, step, bind_eq_ok]
    constructor
    · rintro ⟨_, first, others⟩
      exact ⟨first, others⟩
    · rintro ⟨first, others⟩
      exact ⟨(), first, others⟩

/-- Going through a list fails at the first item that fails, behind items that all passed. -/
theorem mapM_eq_error {read : α → Except ε β} {items : List α} {fault : ε} :
    items.mapM read = .error fault ↔ ∃ front item back, items = front ++ item :: back ∧
      (∀ earlier ∈ front, ∃ value, read earlier = .ok value) ∧ read item = .error fault := by
  simp only [← fault_eq_some, fault_mapM, List.findSome?_eq_some_iff, fault_eq_none]
  exact exists₃_congr fun _ _ _ => and_congr_right fun _ => and_comm

theorem mapM_error {read : α → Except ε β} {items : List α} {fault : ε}
    (failed : items.mapM read = .error fault) : ∃ item ∈ items, read item = .error fault := by
  obtain ⟨_, item, _, rfl, _, failed⟩ := mapM_eq_error.mp failed
  exact ⟨item, by simp, failed⟩

theorem mapM_of_forall {read : α → Except ε β} {value : α → β} {items : List α}
    (each : ∀ item ∈ items, read item = .ok (value item)) :
    items.mapM read = .ok (items.map value) := by
  induction items with
  | nil => rfl
  | cons item rest ih =>
    have ⟨first, others⟩ := List.forall_mem_cons.mp each
    rw [List.mapM_cons, first, ih others]
    rfl

theorem mapM_eq_ok {read : α → Except ε β} {items : List α} {values : List β} :
    items.mapM read = .ok values ↔
      List.Forall₂ (fun item value => read item = .ok value) items values := by
  induction items generalizing values with
  | nil =>
    rw [List.mapM_nil, pure_eq_ok, List.forall₂_nil_left_iff, eq_comm]
  | cons item rest ih =>
    simp only [List.mapM_cons, bind_eq_ok, pure_eq_ok, ih, List.forall₂_cons_left_iff]
    constructor
    · rintro ⟨value, first, others, later, rfl⟩
      exact ⟨value, others, first, later, rfl⟩
    · rintro ⟨value, others, first, later, rfl⟩
      exact ⟨value, first, others, later, rfl⟩

theorem mapM_values {read : α → Except ε β} {items : List α} {values : List β}
    (passed : items.mapM read = .ok values) : ∀ value ∈ values, ∃ item ∈ items, read item = .ok value := by
  induction items generalizing values with
  | nil =>
    rw [← pure_eq_ok.mp passed]
    exact fun _ member => absurd member List.not_mem_nil
  | cons item rest ih =>
    rw [List.mapM_cons] at passed
    obtain ⟨first, read, passed⟩ := bind_eq_ok.mp passed
    obtain ⟨others, later, done⟩ := bind_eq_ok.mp passed
    rw [← pure_eq_ok.mp done, List.forall_mem_cons]
    refine ⟨⟨item, List.mem_cons_self, read⟩, fun value member => ?_⟩
    obtain ⟨source, kept, found⟩ := ih later value member
    exact ⟨source, List.mem_cons_of_mem item kept, found⟩

theorem bind_apply (work : ExceptT ε (StateM σ) α) (next : α → ExceptT ε (StateM σ) β) (state : σ) :
    (work >>= next) state = match work state with
      | (.ok a, after) => next a after
      | (.error error, after) => (.error error, after) := by
  simp only [bind, ExceptT.bind, ExceptT.mk, StateT.bind]
  cases work state with
  | mk result after => cases result <;> rfl

theorem bind_apply_ok {work : ExceptT ε (StateM σ) α} {next : α → ExceptT ε (StateM σ) β}
    {state after : σ} {b : β} : (work >>= next) state = (.ok b, after) ↔
      ∃ a middle, work state = (.ok a, middle) ∧ next a middle = (.ok b, after) := by
  rw [bind_apply]
  cases work state with
  | mk result middle =>
    cases result with
    | error error => exact ⟨nofun, nofun⟩
    | ok a =>
      constructor
      · exact fun done => ⟨a, middle, rfl, done⟩
      · rintro ⟨_, _, ⟨⟩, done⟩
        exact done

-- Work on a list went through, so it did up to any of its items, at that item and from there on.
theorem mapM_apply_ok {work : α → ExceptT ε (StateM σ) β} {before later : List α} {item : α}
    {state after : σ} {values : List β}
    (done : (before ++ item :: later).mapM work state = (.ok values, after)) :
    ∃ first middle b next rest, before.mapM work state = (.ok first, middle) ∧
      work item middle = (.ok b, next) ∧ later.mapM work next = (.ok rest, after) := by
  rw [List.mapM_append, List.mapM_cons] at done
  obtain ⟨first, middle, front, done⟩ := bind_apply_ok.mp done
  obtain ⟨_, last, back, ⟨⟩⟩ := bind_apply_ok.mp done
  obtain ⟨b, next, here, back⟩ := bind_apply_ok.mp back
  obtain ⟨rest, _, behind, ⟨⟩⟩ := bind_apply_ok.mp back
  exact ⟨first, middle, b, next, rest, front, here, behind⟩

/-- From a state of a certain kind the work leads to such a state, or it fails with an error that
is admitted. -/
def FailsWithin (kind : σ → Prop) (admitted : ε → Prop) (work : ExceptT ε (StateM σ) α) : Prop :=
  ∀ state, kind state → match work state with
    | (.ok _, after) => kind after
    | (.error error, _) => admitted error

section FailsWithin
variable {kind : σ → Prop} {admitted : ε → Prop}

theorem FailsWithin.error {work : ExceptT ε (StateM σ) α} (within : FailsWithin kind admitted work)
    {state : σ} (inside : kind state) {error : ε} (failed : (work state).1 = .error error) :
    admitted error := by
  have ended := within state inside
  have whole : work state = (.error error, (work state).2) := Prod.ext failed rfl
  rw [whole] at ended
  exact ended

theorem failsWithin_pure (a : α) :
    FailsWithin kind admitted (pure a : ExceptT ε (StateM σ) α) :=
  fun _ inside => inside

theorem failsWithin_bind {work : ExceptT ε (StateM σ) α} {next : α → ExceptT ε (StateM σ) β}
    (first : FailsWithin kind admitted work) (second : ∀ a, FailsWithin kind admitted (next a)) :
    FailsWithin kind admitted (work >>= next) := by
  intro state inside
  have reached := first state inside
  rw [bind_apply]
  cases ended : work state with
  | mk result after =>
    rw [ended] at reached
    cases result with
    | error error => exact reached
    | ok a => exact second a after reached

theorem failsWithin_forM {work : α → ExceptT ε (StateM σ) Unit} {items : List α}
    (each : ∀ item ∈ items, FailsWithin kind admitted (work item)) :
    FailsWithin kind admitted (items.forM work) := by
  induction items with
  | nil => exact failsWithin_pure ()
  | cons item rest ih =>
    exact failsWithin_bind (each item List.mem_cons_self)
      fun _ => ih fun other member => each other (List.mem_cons_of_mem item member)

theorem failsWithin_mapM {work : α → ExceptT ε (StateM σ) β} {items : List α}
    (each : ∀ item ∈ items, FailsWithin kind admitted (work item)) :
    FailsWithin kind admitted (items.mapM work) := by
  induction items with
  | nil => exact failsWithin_pure []
  | cons item rest ih =>
    rw [List.mapM_cons]
    refine failsWithin_bind (each item List.mem_cons_self) fun first => ?_
    refine failsWithin_bind (ih fun other member => each other (List.mem_cons_of_mem item member))
      fun others => failsWithin_pure _

end FailsWithin
end KotlinCompile.Fallible
