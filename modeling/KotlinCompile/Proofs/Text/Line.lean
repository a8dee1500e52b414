import KotlinCompile.Text.Cut

/-! Cutting a text behind each separator. The pieces are found one after the other, and gluing texts
together keeps their pieces exactly if no text but the last breaks off inside a piece: each place
where one does costs a piece. -/
namespace KotlinCompile.Text
variable {α : Type}

/-- The first piece of a text and what comes behind it. A piece goes through the first separator,
or to the end of the text where there is none. -/
inductive Reads (separator : α) : List α → List α → List α → Prop
  | through {body rest : List α} (plain : separator ∉ body) :
    Reads separator (body ++ separator :: rest) (body ++ [separator]) rest
  | toEnd {body : List α} (plain : separator ∉ body) (nonempty : body ≠ []) :
    Reads separator body body []

/-- The pieces of a text, read one after the other until nothing is left. -/
inductive CutThrough (separator : α) : List α → List (List α) → Prop
  | nil : CutThrough separator [] []
  | cons {text piece rest : List α} {pieces : List (List α)}
    (first : Reads separator text piece rest) (others : CutThrough separator rest pieces) :
    CutThrough separator text (piece :: pieces)

variable [BEq α]

/-- Whether a text does not break off inside a piece. -/
def isClosed (separator : α) (text : List α) : Bool := text.getLast?.all (· == separator)

theorem isClosed_append {separator : α} (before : List α) {after : List α} (nonempty : after ≠ []) :
    isClosed separator (before ++ after) = isClosed separator after := by
  rw [isClosed, isClosed, List.getLast?_append, List.getLast?_eq_some_getLast nonempty]
  rfl

theorem isClosed_cons {separator : α} (x : α) {rest : List α} (nonempty : rest ≠ []) :
    isClosed separator (x :: rest) = isClosed separator rest :=
  isClosed_append [x] nonempty

variable [LawfulBEq α] {separator : α} {text piece rest : List α}

theorem piecesThrough_plain (plain : separator ∉ text) (nonempty : text ≠ []) :
    piecesThrough separator text = [text] := by
  induction text with
  | nil => exact absurd rfl nonempty
  | cons x rest ih =>
    have ⟨different, later⟩ := List.ne_and_not_mem_of_not_mem_cons plain
    by_cases last : rest = []
    · subst last
      simp [piecesThrough, Ne.symm different]
    · simp [piecesThrough, Ne.symm different, ih later last]

theorem piecesThrough_through (plain : separator ∉ piece) (rest : List α) :
    piecesThrough separator (piece ++ separator :: rest) =
      (piece ++ [separator]) :: piecesThrough separator rest := by
  induction piece with
  | nil => simp [piecesThrough]
  | cons x others ih =>
    obtain ⟨different, later⟩ := List.ne_and_not_mem_of_not_mem_cons plain
    simp [piecesThrough, Ne.symm different, ih later]

theorem Reads.pieces (first : Reads separator text piece rest) :
    piecesThrough separator text = piece :: piecesThrough separator rest := by
  cases first with
  | through plain => exact piecesThrough_through plain rest
  | toEnd plain nonempty => exact piecesThrough_plain plain nonempty

omit [BEq α] [LawfulBEq α] in
theorem exists_reads (separator : α) {text : List α} (nonempty : text ≠ []) :
    ∃ piece rest, Reads separator text piece rest := by
  induction text with
  | nil => exact absurd rfl nonempty
  | cons x others ih =>
    by_cases same : x = separator
    · subst same
      exact ⟨[x], others, .through List.not_mem_nil⟩
    · by_cases last : others = []
      · subst last
        exact ⟨[x], [], .toEnd (by simpa using Ne.symm same) nonempty⟩
      · obtain ⟨piece, rest, first⟩ := ih last
        cases first with
        | through plain =>
          exact ⟨_, rest, .through (List.not_mem_cons_of_ne_of_not_mem (Ne.symm same) plain)⟩
        | toEnd plain _ =>
          exact ⟨_, [], .toEnd (List.not_mem_cons_of_ne_of_not_mem (Ne.symm same) plain) nonempty⟩

omit [BEq α] [LawfulBEq α] in
theorem Reads.shorter (first : Reads separator text piece rest) : rest.length < text.length := by
  cases first with
  | through plain => simp only [List.length_append, List.length_cons]; omega
  | toEnd plain nonempty => exact List.length_pos_iff.mpr nonempty

omit [BEq α] [LawfulBEq α] in
theorem reads_induction (separator : α) {motive : List α → Prop} (nil : motive [])
    (reads : ∀ {text piece rest}, Reads separator text piece rest → motive rest → motive text)
    (text : List α) : motive text := by
  -- on the length, since a first piece may be the whole text
  induction size : text.length using Nat.strongRecOn generalizing text with
  | ind size ih =>
    by_cases empty : text = []
    · subst empty
      exact nil
    · obtain ⟨piece, rest, first⟩ := exists_reads separator empty
      exact reads first (ih rest.length (size ▸ first.shorter) rest rfl)

/-- The cut is made in one way only. -/
theorem cutThrough_iff {pieces : List (List α)} :
    CutThrough separator text pieces ↔ piecesThrough separator text = pieces := by
  constructor
  · intro cut
    induction cut with
    | nil => rfl
    | cons first others ih => rw [first.pieces, ih]
  · rintro rfl
    induction text using reads_induction separator with
    | nil => exact .nil
    | reads first ih =>
      rw [first.pieces]
      exact .cons first ih

theorem not_isClosed_of_plain (plain : separator ∉ text) (nonempty : text ≠ []) :
    isClosed separator text = false := by
  have last : text.getLast nonempty ≠ separator := by
    intro same
    exact plain (same ▸ List.getLast_mem nonempty)
  rw [isClosed, List.getLast?_eq_some_getLast nonempty]
  exact beq_eq_false_iff_ne.mpr last

/-- There is a piece for each separator, and one more if the text breaks off. -/
theorem length_piecesThrough (separator : α) (text : List α) :
    (piecesThrough separator text).length =
      text.count separator + if isClosed separator text then 0 else 1 := by
  induction text using reads_induction separator with
  | nil => rfl
  | @reads _ _ rest first ih =>
    rw [first.pieces, List.length_cons, ih]
    cases first with
    | @through body _ plain =>
      by_cases last : rest = []
      · subst last
        simp [isClosed, List.count_eq_zero.mpr plain]
      · rw [List.count_append, List.count_eq_zero.mpr plain, List.count_cons_self,
          isClosed_append body (List.cons_ne_nil separator rest), isClosed_cons separator last]
        omega
    | toEnd plain nonempty =>
      rw [List.count_eq_zero.mpr plain, not_isClosed_of_plain plain nonempty]
      rfl

theorem Reads.alone (first : Reads separator text piece rest) :
    piecesThrough separator piece = [piece] := by
  cases first with
  | through plain => exact piecesThrough_through plain []
  | toEnd plain nonempty => exact piecesThrough_plain plain nonempty

/-- A piece of a text is not cut any further. -/
theorem alone_of_mem (member : piece ∈ piecesThrough separator text) :
    piecesThrough separator piece = [piece] := by
  induction text using reads_induction separator with
  | nil => cases member
  | reads first ih =>
    rw [first.pieces] at member
    rcases List.mem_cons.mp member with rfl | later
    · exact first.alone
    · exact ih later

/-- A text does not break off if neither its first piece does nor what stands behind that. -/
theorem Reads.isClosed_iff (first : Reads separator text piece rest) :
    isClosed separator text = true ↔
      isClosed separator piece = true ∧ isClosed separator rest = true := by
  cases first with
  | @through body _ plain =>
    have ends : isClosed separator (body ++ [separator]) = true := by simp [isClosed]
    rw [ends, isClosed_append body (List.cons_ne_nil separator rest)]
    by_cases last : rest = []
    · subst last
      simp [isClosed]
    · simp [isClosed_cons separator last]
  | toEnd plain nonempty => simp [not_isClosed_of_plain plain nonempty]

theorem isClosed_iff : isClosed separator text = true ↔
    ∀ piece ∈ piecesThrough separator text, isClosed separator piece = true := by
  induction text using reads_induction separator with
  | nil => exact ⟨fun _ _ member => absurd member List.not_mem_nil, fun _ => rfl⟩
  | reads first ih => rw [first.pieces, List.forall_mem_cons, first.isClosed_iff, ih]

section Gluing
variable {before after : List α} {texts : List (List α)}

theorem piecesThrough_append (closed : isClosed separator before = true) (after : List α) :
    piecesThrough separator (before ++ after) =
      piecesThrough separator before ++ piecesThrough separator after := by
  induction before using reads_induction separator with
  | nil => rfl
  | reads first ih =>
    have ⟨ends, later⟩ := first.isClosed_iff.mp closed
    cases first with
    | through plain =>
      rw [List.append_assoc, List.cons_append, piecesThrough_through plain,
        piecesThrough_through plain, ih later]
      rfl
    | toEnd plain nonempty =>
      rw [not_isClosed_of_plain plain nonempty] at ends
      cases ends

/-- Where a text breaks off, its last piece and the first piece behind it become one. -/
theorem length_piecesThrough_broken (broken : isClosed separator before = false)
    (nonempty : after ≠ []) :
    (piecesThrough separator (before ++ after)).length + 1 =
      (piecesThrough separator before).length + (piecesThrough separator after).length := by
  simp only [length_piecesThrough, List.count_append, isClosed_append before nonempty, broken]
  simp only [Bool.false_eq_true, if_false]
  omega

theorem length_piecesThrough_append_le (separator : α) (before after : List α) :
    (piecesThrough separator (before ++ after)).length ≤
      (piecesThrough separator before).length + (piecesThrough separator after).length := by
  cases ends : isClosed separator before with
  | true =>
    have apart := congrArg List.length (piecesThrough_append ends after)
    rw [List.length_append] at apart
    exact Nat.le_of_eq apart
  | false =>
    by_cases empty : after = []
    · subst empty
      rw [List.append_nil]
      exact Nat.le_add_right _ _
    · have merged := length_piecesThrough_broken ends empty
      omega

theorem length_piecesThrough_flatten_le
    (alone : ∀ text ∈ texts, piecesThrough separator text = [text]) :
    (piecesThrough separator texts.flatten).length ≤ texts.length := by
  induction texts with
  | nil => exact Nat.le_refl 0
  | cons text others ih =>
    have ⟨single, later⟩ := List.forall_mem_cons.mp alone
    have glued := length_piecesThrough_append_le separator text others.flatten
    have rest := ih later
    rw [single, List.length_singleton] at glued
    rw [List.flatten_cons, List.length_cons]
    omega

theorem piecesThrough_flatten (alone : ∀ text ∈ texts, piecesThrough separator text = [text])
    (closed : ∀ text ∈ texts.dropLast, isClosed separator text = true) :
    piecesThrough separator texts.flatten = texts := by
  induction texts with
  | nil => rfl
  | cons text others ih =>
    have ⟨single, later⟩ := List.forall_mem_cons.mp alone
    cases others with
    | nil =>
      rw [List.flatten_singleton]
      exact single
    | cons next more =>
      rw [List.dropLast_cons_cons] at closed
      have ⟨ends, rest⟩ := List.forall_mem_cons.mp closed
      rw [List.flatten_cons, piecesThrough_append ends, single, ih later rest]
      rfl

theorem length_piecesThrough_flatten_lt
    (alone : ∀ text ∈ texts, piecesThrough separator text = [text])
    (broken : ∃ text ∈ texts.dropLast, isClosed separator text = false) :
    (piecesThrough separator texts.flatten).length < texts.length := by
  induction texts with
  | nil =>
    obtain ⟨text, member, _⟩ := broken
    cases member
  | cons text others ih =>
    have ⟨single, later⟩ := List.forall_mem_cons.mp alone
    cases others with
    | nil =>
      obtain ⟨text, member, _⟩ := broken
      cases member
    | cons next more =>
      have rest := length_piecesThrough_flatten_le later
      have nonempty : (next :: more).flatten ≠ [] := by
        intro empty
        have piece := later next List.mem_cons_self
        rw [List.flatten_eq_nil_iff.mp empty next List.mem_cons_self] at piece
        cases piece
      rw [List.flatten_cons, List.length_cons]
      rw [List.dropLast_cons_cons] at broken
      obtain ⟨found, member, breaks⟩ := broken
      rcases List.mem_cons.mp member with rfl | within
      · have merged := length_piecesThrough_broken breaks nonempty
        rw [single, List.length_singleton] at merged
        omega
      · have fewer := ih later ⟨found, within, breaks⟩
        have glued := length_piecesThrough_append_le separator text (next :: more).flatten
        rw [single, List.length_singleton] at glued
        omega

/-- Pieces that are glued together are found again, in whatever order, exactly if none but the last
of them breaks off. -/
theorem perm_piecesThrough_flatten
    (alone : ∀ text ∈ texts, piecesThrough separator text = [text]) :
    (piecesThrough separator texts.flatten).Perm texts ↔
      ∀ text ∈ texts.dropLast, isClosed separator text = true := by
  constructor
  · intro same text member
    cases ends : isClosed separator text with
    | true => rfl
    | false =>
      have fewer := length_piecesThrough_flatten_lt alone ⟨text, member, ends⟩
      rw [same.length_eq] at fewer
      exact absurd fewer (Nat.lt_irrefl _)
  · intro closed
    rw [piecesThrough_flatten alone closed]

/-- No piece of a text but its last breaks off. -/
theorem isClosed_of_mem_dropLast (member : piece ∈ (piecesThrough separator text).dropLast) :
    isClosed separator piece = true := by
  have alone : ∀ piece ∈ piecesThrough separator text, piecesThrough separator piece = [piece] :=
    fun _ inside => alone_of_mem inside
  have same := perm_piecesThrough_flatten alone
  rw [flatten_piecesThrough] at same
  exact same.mp (List.Perm.refl _) piece member

end Gluing

theorem mem_of_mem_withoutLineEnd {line : List Char} {c : Char} (member : c ∈ withoutLineEnd line) :
    c ∈ line := by
  unfold withoutLineEnd at member
  split at member
  · next body ends =>
    have inside : c ∈ '\n' :: '\r' :: body :=
      List.mem_cons_of_mem _ (List.mem_cons_of_mem _ (List.mem_reverse.mp member))
    exact List.mem_reverse.mp (ends ▸ inside)
  · next body _ ends =>
    have inside : c ∈ '\n' :: body := List.mem_cons_of_mem _ (List.mem_reverse.mp member)
    exact List.mem_reverse.mp (ends ▸ inside)
  · exact member

/-- Nothing stands in a line that does not stand in the text. -/
theorem mem_of_mem_lines {text line : List Char} {c : Char} (inside : line ∈ lines text)
    (member : c ∈ line) : c ∈ text := by
  obtain ⟨piece, found, rfl⟩ := List.mem_map.mp inside
  rw [← flatten_piecesThrough '\n' text]
  exact List.mem_flatten.mpr ⟨piece, found, mem_of_mem_withoutLineEnd member⟩

end KotlinCompile.Text
