namespace KotlinCompile.Occurrences
variable {α κ : Type} [DecidableEq κ] (key : α → κ)

def firsts : List α → List α
  | [] => []
  | x :: rest => x :: (firsts rest).filter fun y => key y ≠ key x

/-- Where the key of an item occurs first. -/
def position (items : List α) (x : α) : Nat := items.findIdx fun y => key y = key x

variable {key} {items : List α}

theorem mem_of_mem_firsts {x : α} (member : x ∈ firsts key items) : x ∈ items := by
  induction items with
  | nil => exact member
  | cons first rest ih =>
    rcases List.mem_cons.mp member with rfl | later
    · exact List.mem_cons_self
    · exact List.mem_cons_of_mem first (ih (List.mem_filter.mp later).1)

theorem key_mem_firsts {x : α} (member : x ∈ items) : ∃ y ∈ firsts key items, key y = key x := by
  induction items with
  | nil => cases member
  | cons first rest ih =>
    by_cases same : key x = key first
    · exact ⟨first, List.mem_cons_self, same.symm⟩
    · rcases List.mem_cons.mp member with rfl | member
      · exact absurd rfl same
      · obtain ⟨y, kept, equal⟩ := ih member
        refine ⟨y, List.mem_cons_of_mem first (List.mem_filter.mpr ⟨kept, ?_⟩), equal⟩
        simpa [equal] using same

variable (key items) in
theorem firsts_apart : (firsts key items).Pairwise fun x y => key x ≠ key y := by
  induction items with
  | nil => exact .nil
  | cons first rest ih =>
    refine .cons ?_ (ih.filter _)
    intro y member
    have differ := (List.mem_filter.mp member).2
    exact fun same => of_decide_eq_true differ same.symm

theorem find_of_mem_firsts {x : α} (member : x ∈ firsts key items) :
    items.find? (fun y => key y = key x) = some x := by
  induction items with
  | nil => cases member
  | cons first rest ih =>
    rcases List.mem_cons.mp member with rfl | later
    · simp
    · obtain ⟨kept, differ⟩ := List.mem_filter.mp later
      have apart : ¬ key first = key x := fun same => of_decide_eq_true differ same.symm
      rw [List.find?_cons_of_neg (by simpa using apart)]
      exact ih kept

variable (key items) in
theorem firsts_ascending :
    (firsts key items).Pairwise fun x y => position key items x < position key items y := by
  induction items with
  | nil => exact .nil
  | cons first rest ih =>
    -- Behind the first item every position is one more than it is in the rest.
    have shifted : ∀ x ∈ (firsts key rest).filter fun y => key y ≠ key first,
        position key (first :: rest) x = position key rest x + 1 := by
      intro x member
      have differ := of_decide_eq_true (List.mem_filter.mp member).2
      have apart : ¬ key first = key x := fun same => differ same.symm
      simp [position, List.findIdx_cons, apart]
    have front : position key (first :: rest) first = 0 := by
      simp [position, List.findIdx_cons]
    refine .cons ?_ ((ih.filter _).imp_of_mem ?_)
    · intro y member
      rw [front, shifted y member]
      exact Nat.succ_pos _
    · intro x y left right before
      rw [shifted x left, shifted y right]
      exact Nat.succ_lt_succ before

theorem firsts_of_apart (apart : items.Pairwise fun x y => key x ≠ key y) :
    firsts key items = items := by
  induction apart with
  | nil => rfl
  | cons differ _ ih =>
    rw [firsts, ih, List.filter_eq_self.mpr]
    intro y member
    exact decide_eq_true (differ y member).symm

variable (key) in
theorem firsts_prefix (before after : List α) :
    firsts key before <+: firsts key (before ++ after) := by
  induction before with
  | nil => exact List.nil_prefix
  | cons first rest ih =>
    rw [List.cons_append, firsts, firsts, List.cons_prefix_cons]
    exact ⟨rfl, ih.filter _⟩

variable (key) in
-- Leaving out whole groups is the same before and after the rest of each group is dropped.
theorem firsts_filter (keeps : κ → Bool) (items : List α) :
    firsts key (items.filter fun x => keeps (key x)) =
      (firsts key items).filter fun x => keeps (key x) := by
  induction items with
  | nil => rfl
  | cons first rest ih =>
    simp only [List.filter_cons, firsts]
    by_cases kept : keeps (key first) = true
    · rw [if_pos kept, if_pos kept, firsts, ih, List.filter_filter, List.filter_filter]
      exact congrArg (first :: ·) (List.filter_congr fun x _ => Bool.and_comm _ _)
    · rw [if_neg kept, if_neg kept, ih, List.filter_filter]
      refine List.filter_congr fun x _ => ?_
      by_cases same : key x = key first
      · simp [same, kept]
      · simp [same]

-- What is left out is passed over by the search anyway.
theorem find_filter_of_imp {sought kept : α → Bool}
    (keeps : ∀ x, sought x = true → kept x = true) (items : List α) :
    (items.filter kept).find? sought = items.find? sought := by
  induction items with
  | nil => rfl
  | cons first rest ih =>
    by_cases found : sought first = true
    · simp [keeps first found, found]
    · by_cases stays : kept first = true <;> simp [stays, found, ih]

/-- A search that goes by the keys finds the same item where only the first of each group is
left. -/
theorem find_firsts {sought : α → Bool}
    (byKey : ∀ x y, key x = key y → sought x = true → sought y = true) (items : List α) :
    (firsts key items).find? sought = items.find? sought := by
  induction items with
  | nil => rfl
  | cons first rest ih =>
    by_cases found : sought first = true
    · simp [firsts, found]
    · have others : ∀ x, sought x = true → decide (key x ≠ key first) = true := by
        intro x soughtFor
        apply decide_eq_true
        intro same
        exact found (byKey x first same soughtFor)
      simp only [firsts, List.find?_cons, found]
      rw [find_filter_of_imp others, ih]

/-- The last item of a group splits the items behind it. -/
theorem exists_last (key : α → κ) {x : α} (member : x ∈ items) : ∃ before y later,
    items = before ++ y :: later ∧ key y = key x ∧ ∀ other ∈ later, key other ≠ key y := by
  induction items generalizing x with
  | nil => cases member
  | cons first rest ih =>
    by_cases again : ∃ other ∈ rest, key other = key x
    · obtain ⟨other, later, same⟩ := again
      obtain ⟨before, y, behind, rfl, alike, apart⟩ := ih later
      exact ⟨first :: before, y, behind, rfl, alike.trans same, apart⟩
    · rcases List.mem_cons.mp member with rfl | later
      · exact ⟨[], x, rest, rfl, rfl, fun other inside same => again ⟨other, inside, same⟩⟩
      · exact absurd ⟨x, later, rfl⟩ again

theorem eraseDups_eq_firsts [DecidableEq α] : (items : List α) → items.eraseDups = firsts id items
  | [] => rfl
  | first :: rest => by
    have shorter : (rest.filter fun x => !x == first).length < rest.length + 1 :=
      Nat.lt_succ_of_le (List.length_filter_le _ _)
    have others := firsts_filter id (fun x => !x == first) rest
    rw [List.eraseDups_cons, eraseDups_eq_firsts (rest.filter _), firsts]
    refine congrArg (first :: ·) (others.trans (List.filter_congr fun x _ => ?_))
    by_cases same : x = first <;> simp [same]
termination_by items => items.length

end KotlinCompile.Occurrences
