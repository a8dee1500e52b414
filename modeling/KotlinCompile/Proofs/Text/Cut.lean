import KotlinCompile.Text.Character
import KotlinCompile.Text.Cut
import Mathlib.Data.List.Basic
import Mathlib.Data.List.TakeWhile

/-! The pieces of a text between separators, and its blanks: what is glued to a separator is cut
there again, and nothing but separators is lost. A cut is made at the first separator, so what
stands before it is what has none. -/
namespace KotlinCompile.Text
variable {α : Type}

theorem mem_intercalate {separator : List α} {x : α} {texts : List (List α)}
    (member : x ∈ separator.intercalate texts) : x ∈ separator ∨ ∃ text ∈ texts, x ∈ text := by
  induction texts with
  | nil => cases member
  | cons text others ih =>
    cases others with
    | nil => exact Or.inr ⟨text, List.mem_cons_self, by simpa using member⟩
    | cons next more =>
      rw [List.intercalate_cons_cons, List.append_assoc, List.mem_append, List.mem_append] at member
      rcases member with inside | between | later
      · exact Or.inr ⟨text, List.mem_cons_self, inside⟩
      · exact Or.inl between
      · exact (ih later).imp_right fun ⟨other, kept, inside⟩ =>
          ⟨other, List.mem_cons_of_mem text kept, inside⟩

variable [BEq α]

theorem pieces_eq_splitOn (separator : α) (text : List α) :
    pieces separator text = text.splitOn separator := by
  induction text with
  | nil => exact (List.splitOn_nil separator).symm
  | cons x rest ih =>
    rw [pieces, List.splitOn_cons_eq_if_modifyHead, ih]
    cases found : rest.splitOn separator with
    | nil => exact absurd found (List.splitOn_ne_nil separator rest)
    | cons piece others => rfl

theorem pieces_ne_nil (separator : α) (text : List α) : pieces separator text ≠ [] := by
  rw [pieces_eq_splitOn]
  exact List.splitOn_ne_nil separator text

variable [LawfulBEq α]

theorem pieces_append (separator : α) (before after : List α) :
    pieces separator (before ++ separator :: after) =
      pieces separator before ++ pieces separator after := by
  simp only [pieces_eq_splitOn, List.splitOn_append_cons_self]

theorem pieces_of_not_mem {separator : α} {text : List α} (plain : separator ∉ text) :
    pieces separator text = [text] := by
  rw [pieces_eq_splitOn, List.splitOn_eq_singleton plain]

theorem mem_piece_of_mem (separator : α) {x : α} {text : List α} (member : x ∈ text) :
    x = separator ∨ ∃ piece ∈ pieces separator text, x ∈ piece := by
  rw [pieces_eq_splitOn]
  rw [← show [separator].intercalate (text.splitOn separator) = text from
    List.intercalate_splitOn separator] at member
  exact (mem_intercalate member).imp_left List.mem_singleton.mp

theorem behind_eq_some {start text rest : List α} :
    behind? start text = some rest ↔ text = start ++ rest :=
  List.isPrefixOf?_eq_some_iff_append_eq.trans eq_comm

/-- What stands behind the first occurrence of a run. -/
def BehindFirst {α : Type} (run text rest : List α) : Prop :=
  ∃ before, text = before ++ run ++ rest ∧
    ∀ earlier later, text = earlier ++ run ++ later → before.length ≤ earlier.length

theorem behindRun_eq_some {run text rest : List α} :
    behindRun? run text = some rest ↔ BehindFirst run text rest := by
  induction text with
  | nil =>
    rw [behindRun?, behind_eq_some]
    constructor
    · exact fun whole => ⟨[], whole, fun _ _ _ => Nat.zero_le _⟩
    · rintro ⟨before, whole, _⟩
      simp_all
  | cons x others ih =>
    rw [behindRun?]
    cases found : behind? run (x :: others) with
    | some later =>
      have whole := behind_eq_some.mp found
      rw [Option.some_or, Option.some_inj]
      constructor
      · rintro rfl
        exact ⟨[], whole, fun _ _ _ => Nat.zero_le _⟩
      · rintro ⟨before, split, first⟩
        obtain rfl := List.length_eq_zero_iff.mp (Nat.le_zero.mp (first [] later whole))
        exact List.append_cancel_left (whole.symm.trans split)
    | none =>
      have notHere (later : List α) : x :: others ≠ [] ++ run ++ later := by
        intro whole
        cases found.symm.trans (behind_eq_some.mpr whole)
      rw [Option.none_or, ih]
      constructor
      · rintro ⟨before, split, first⟩
        refine ⟨x :: before, congrArg (x :: ·) split, fun earlier later whole => ?_⟩
        cases earlier with
        | nil => exact absurd whole (notHere later)
        | cons y more => exact Nat.succ_le_succ (first more later (List.cons.inj whole).2)
      · rintro ⟨before, split, first⟩
        cases before with
        | nil => exact absurd split (notHere rest)
        | cons y more =>
          obtain ⟨rfl, behind⟩ := List.cons.inj split
          refine ⟨more, behind, fun earlier later whole => ?_⟩
          exact Nat.le_of_succ_le_succ (first (x :: earlier) later (congrArg (x :: ·) whole))

theorem cutAt_eq_some {separator : α} {text before after : List α} :
    cutAt? separator text = some (before, after) ↔
      separator ∉ before ∧ text = before ++ separator :: after := by
  induction text generalizing before with
  | nil => simp [cutAt?]
  | cons x rest ih =>
    by_cases same : x = separator
    · subst same
      have first : cutAt? x (x :: rest) = some ([], rest) := by simp [cutAt?]
      rw [first]
      constructor
      · rintro ⟨⟩
        exact ⟨List.not_mem_nil, rfl⟩
      · rintro ⟨plain, whole⟩
        cases before with
        | nil =>
          cases whole
          rfl
        | cons y others =>
          cases whole
          exact absurd List.mem_cons_self plain
    · have later : cutAt? separator (x :: rest) =
          (cutAt? separator rest).map fun cut => (x :: cut.1, cut.2) := by
        simp [cutAt?, same]
      rw [later, Option.map_eq_some_iff]
      constructor
      · rintro ⟨⟨others, behind⟩, cut, ⟨⟩⟩
        obtain ⟨plain, whole⟩ := ih.mp cut
        exact ⟨List.not_mem_cons_of_ne_of_not_mem (Ne.symm same) plain, congrArg (x :: ·) whole⟩
      · rintro ⟨plain, whole⟩
        cases before with
        | nil =>
          cases whole
          exact absurd rfl same
        | cons y others =>
          cases whole
          have cut := ih.mpr ⟨fun member => plain (List.mem_cons_of_mem x member), rfl⟩
          exact ⟨(others, after), cut, rfl⟩

theorem cutAt_append {separator : α} {before : List α} (plain : separator ∉ before)
    (after : List α) : cutAt? separator (before ++ separator :: after) = some (before, after) :=
  cutAt_eq_some.mpr ⟨plain, rfl⟩

theorem not_mem_of_mem_pieces {separator : α} {text piece : List α}
    (member : piece ∈ pieces separator text) : separator ∉ piece := by
  induction text generalizing piece with
  | nil =>
    rw [List.mem_singleton.mp member]
    exact List.not_mem_nil
  | cons x rest ih =>
    obtain ⟨first, others, found⟩ := List.exists_cons_of_ne_nil (pieces_ne_nil separator rest)
    rw [found] at ih
    by_cases same : x = separator
    · have cut : pieces separator (x :: rest) = [] :: first :: others := by
        simp [pieces, found, same]
      rw [cut] at member
      rcases List.mem_cons.mp member with rfl | later
      · exact List.not_mem_nil
      · exact ih later
    · have longer : pieces separator (x :: rest) = (x :: first) :: others := by
        simp [pieces, found, same]
      rw [longer] at member
      rcases List.mem_cons.mp member with rfl | later
      · exact List.not_mem_cons_of_ne_of_not_mem (Ne.symm same) (ih List.mem_cons_self)
      · exact ih (List.mem_cons_of_mem first later)

-- Texts that are joined by a separator come apart at those that they hold themselves, too.
theorem pieces_intercalate (separator : α) {texts : List (List α)} (nonempty : texts ≠ []) :
    pieces separator ([separator].intercalate texts) = texts.flatMap (pieces separator) := by
  induction texts with
  | nil => exact absurd rfl nonempty
  | cons text others ih =>
    cases others with
    | nil => simp
    | cons next more =>
      rw [List.intercalate_cons_cons, List.append_assoc, List.singleton_append, pieces_append,
        ih (List.cons_ne_nil next more)]
      rfl

theorem pieces_intercalate_iff (separator : α) {texts : List (List α)} (nonempty : texts ≠ []) :
    pieces separator ([separator].intercalate texts) = texts ↔
      ∀ text ∈ texts, separator ∉ text := by
  rw [pieces_intercalate separator nonempty]
  constructor
  · intro same text member
    rw [← same] at member
    obtain ⟨_, _, piece⟩ := List.mem_flatMap.mp member
    exact not_mem_of_mem_pieces piece
  · intro plain
    have whole : texts.map (pieces separator) = texts.map ([·]) :=
      List.map_congr_left fun text member => pieces_of_not_mem (plain text member)
    rw [List.flatMap_def, whole, ← List.flatMap_def, List.flatMap_singleton']

theorem hasRun_iff (run text : List α) : hasRun run text = true ↔ run <:+: text := by
  induction text with
  | nil => simp [hasRun]
  | cons x rest ih => simp [hasRun, List.infix_cons_iff, ih]

section Blanks

/-- The longest run at the beginning of a list whose items all have a property, and the rest. -/
structure FrontRun {α : Type} (p : α → Bool) (items front rest : List α) : Prop where
  whole : items = front ++ rest
  holds : ∀ x ∈ front, p x = true
  ends : ∀ x ∈ rest.head?, p x = false

theorem frontRun_iff {α : Type} {p : α → Bool} {items front rest : List α} :
    FrontRun p items front rest ↔ items.takeWhile p = front ∧ items.dropWhile p = rest := by
  constructor
  · rintro ⟨rfl, holds, ends⟩
    have stops : rest.takeWhile p = [] ∧ rest.dropWhile p = rest := by
      cases rest with
      | nil => exact ⟨rfl, rfl⟩
      | cons x others => simp [ends x rfl]
    rw [List.takeWhile_append_of_pos holds, List.dropWhile_append_of_pos holds, stops.1, stops.2,
      List.append_nil]
    exact ⟨rfl, rfl⟩
  · rintro ⟨rfl, rfl⟩
    refine ⟨List.takeWhile_append_dropWhile.symm, fun _ member => List.mem_takeWhile_imp member, ?_⟩
    intro x first
    have stopped := List.head?_dropWhile_not p items
    rwa [Option.mem_def.mp first] at stopped

/-- The text without the blanks at its ends. -/
def Trimmed (text core : List Char) : Prop :=
  ∃ before after, text = before ++ core ++ after ∧
    (∀ c ∈ before, isBlank c = true) ∧ (∀ c ∈ after, isBlank c = true) ∧
    (∀ c ∈ core.head?, isBlank c = false) ∧ ∀ c ∈ core.getLast?, isBlank c = false

/-- The first word of a text, which goes up to a blank or to the end. -/
def FirstWord (text word : List Char) : Prop :=
  word ≠ [] ∧ ∃ before after, text = before ++ word ++ after ∧
    (∀ c ∈ before, isBlank c = true) ∧ (∀ c ∈ word, isBlank c = false) ∧
    ∀ c ∈ after.head?, isBlank c = true

variable {text core word : List Char}

theorem trimRight_eq_iff : trimRight text = core ↔ ∃ after, text = core ++ after ∧
    (∀ c ∈ after, isBlank c = true) ∧ ∀ c ∈ core.getLast?, isBlank c = false := by
  have backwards : trimRight text = core ↔ text.reverse.dropWhile isBlank = core.reverse :=
    List.reverse_eq_iff
  rw [backwards]
  constructor
  · intro same
    obtain ⟨whole, holds, ends⟩ := frontRun_iff.mpr ⟨rfl, same⟩
    refine ⟨(text.reverse.takeWhile isBlank).reverse, ?_, ?_, ?_⟩
    · simpa using congrArg List.reverse whole
    · simpa using holds
    · simpa using ends
  · rintro ⟨after, rfl, blank, ends⟩
    have run : FrontRun isBlank (core ++ after).reverse after.reverse core.reverse :=
      ⟨List.reverse_append, by simpa using blank, by simpa using ends⟩
    exact (frontRun_iff.mp run).2

theorem trimmed_iff : Trimmed text core ↔ trim text = core := by
  rw [trim, trimRight_eq_iff]
  constructor
  · rintro ⟨before, after, rfl, front, back, first, last⟩
    cases core with
    | nil =>
      have blank : ∀ c ∈ before ++ after, isBlank c = true :=
        List.forall_mem_append.mpr ⟨front, back⟩
      have nothing : trimLeft (before ++ [] ++ after) = [] := by
        rw [List.append_nil]
        exact List.dropWhile_eq_nil_iff.mpr blank
      exact ⟨[], nothing, fun _ member => absurd member List.not_mem_nil, last⟩
    | cons c rest =>
      have run : FrontRun isBlank (before ++ (c :: rest) ++ after) before ((c :: rest) ++ after) :=
        ⟨List.append_assoc .., front, first⟩
      exact ⟨after, (frontRun_iff.mp run).2, back, last⟩
  · rintro ⟨after, left, back, last⟩
    obtain ⟨whole, front, first⟩ := frontRun_iff.mpr ⟨rfl, left⟩
    refine ⟨_, after, whole.trans (List.append_assoc ..).symm, front, back, ?_, last⟩
    intro c begins
    exact first c (by rw [List.head?_append, Option.mem_def.mp begins]; rfl)

theorem trim_eq_nil_iff : trim text = [] ↔ ∀ c ∈ text, isBlank c = true := by
  rw [← trimmed_iff]
  constructor
  · rintro ⟨before, after, rfl, front, back, _⟩
    rw [List.append_nil]
    exact List.forall_mem_append.mpr ⟨front, back⟩
  · intro blank
    exact ⟨text, [], by simp, blank, nofun, nofun, nofun⟩

theorem firstWord_iff : FirstWord text word ↔ firstWord text = word ∧ word ≠ [] := by
  constructor
  · rintro ⟨filled, before, after, rfl, front, plain, ends⟩
    obtain ⟨c, rest, rfl⟩ := List.exists_cons_of_ne_nil filled
    have skips : FrontRun isBlank (before ++ (c :: rest) ++ after) before ((c :: rest) ++ after) :=
      ⟨List.append_assoc .., front, fun _ first => plain _ (by simp_all)⟩
    have takes : FrontRun (!isBlank ·) ((c :: rest) ++ after) (c :: rest) after :=
      ⟨rfl, by simpa using plain, by simpa using ends⟩
    refine ⟨?_, filled⟩
    rw [firstWord, trimLeft, (frontRun_iff.mp skips).2, (frontRun_iff.mp takes).1]
  · rintro ⟨rfl, filled⟩
    obtain ⟨whole, front, _⟩ := frontRun_iff.mpr ⟨rfl, Eq.refl (text.dropWhile isBlank)⟩
    obtain ⟨again, plain, ends⟩ :=
      frontRun_iff.mpr ⟨Eq.refl (firstWord text), Eq.refl ((trimLeft text).dropWhile (!isBlank ·))⟩
    refine ⟨filled, _, _, ?_, front, by simpa using plain, by simpa using ends⟩
    rw [List.append_assoc, ← again]
    exact whole

theorem isBlank_of_isDigit {c : Char} (digit : c.isDigit = true) : isBlank c = false := by
  have within : 48 ≤ c.toNat ∧ c.toNat ≤ 57 := by
    simpa [Char.isDigit, UInt32.le_iff_toNat_le] using digit
  have apart : ∀ range ∈ blanks, range.2 < 48 ∨ 57 < range.1 := by decide
  rw [← Bool.not_eq_true, isBlank, CodePoints.has_iff]
  rintro ⟨range, member, low, high⟩
  have outside := apart range member
  omega

end Blanks

end KotlinCompile.Text
