import KotlinCompile.Options.Basic
import KotlinCompile.Proofs.Text.Cut

/-! The texts that name a release. The number in them may be written with any number of leading
zeros; it is read into a byte, and what does not fit there is refused at the digit at which it stops
to fit. -/
namespace KotlinCompile.JvmTarget

/-- Decimal digits and the number that they stand for, perhaps behind a plus sign. -/
inductive Numeral : List Char → Nat → Prop where
  | unsigned {digits : List Char} (filled : digits ≠ [])
      (decimal : ∀ c ∈ digits, c.isDigit = true) : Numeral digits (Nat.ofDigitChars 10 digits 0)
  | signed {digits : List Char} (filled : digits ≠ [])
      (decimal : ∀ c ∈ digits, c.isDigit = true) :
      Numeral ('+' :: digits) (Nat.ofDigitChars 10 digits 0)

/-- What is left of a text without the mark of the old releases, where it begins with it. -/
inductive Unmarked : List Char → List Char → Prop where
  | marked (rest : List Char) : Unmarked ('1' :: '.' :: rest) rest
  | plain {text : List Char} (markless : ¬['1', '.'] <+: text) : Unmarked text text

/-- The text, between blanks, is the number of a release. -/
def Spells (text : String) (release : Nat) : Prop :=
  ∃ core numeral, Text.Trimmed text.toList core ∧ Unmarked core numeral ∧ Numeral numeral release

theorem isDigit_eq (c : Char) : Text.isDigit c = c.isDigit := rfl

theorem withDigit_eq_some {number longer : UInt8} {c : Char} :
    withDigit? number c = some longer ↔
      c.isDigit = true ∧ longer.toNat = 10 * number.toNat + (c.toNat - '0'.toNat) := by
  have fits : longer.toNat < UInt8.size := longer.toNat_lt
  simp only [withDigit?, isDigit_eq, Nat.mul_comm _ 10, Option.ite_none_right_eq_some,
    Bool.and_eq_true, decide_eq_true_eq, Option.some.injEq]
  constructor
  · rintro ⟨⟨digit, small⟩, rfl⟩
    exact ⟨digit, UInt8.toNat_ofNat_of_lt small⟩
  · rintro ⟨digit, same⟩
    rw [← same]
    exact ⟨⟨digit, fits⟩, UInt8.ofNat_toNat⟩

theorem le_ofDigitChars (digits : List Char) (start : Nat) :
    start ≤ Nat.ofDigitChars 10 digits start := by
  rw [Nat.ofDigitChars_eq_ofDigitChars_zero]
  have grows : start ≤ 10 ^ digits.length * start :=
    Nat.le_mul_of_pos_left start (Nat.pow_pos (by decide))
  omega

-- No digit makes a number smaller, so one that fits in the end has fitted all the way.
theorem foldlM_withDigit {digits : List Char} {start number : UInt8} :
    digits.foldlM withDigit? start = some number ↔
      (∀ c ∈ digits, c.isDigit = true) ∧
        number.toNat = Nat.ofDigitChars 10 digits start.toNat := by
  induction digits generalizing start with
  | nil =>
    show some start = some number ↔ _
    rw [Option.some_inj, Nat.ofDigitChars_nil, eq_comm, ← UInt8.toNat_inj]
    simp
  | cons c rest ih =>
    rw [List.foldlM_cons, Option.bind_eq_bind, Option.bind_eq_some_iff, List.forall_mem_cons,
      Nat.ofDigitChars_cons]
    constructor
    · rintro ⟨longer, extended, read⟩
      obtain ⟨digit, value⟩ := withDigit_eq_some.mp extended
      obtain ⟨others, same⟩ := ih.mp read
      rw [value] at same
      exact ⟨⟨digit, others⟩, same⟩
    · rintro ⟨⟨digit, others⟩, same⟩
      have small : 10 * start.toNat + (c.toNat - '0'.toNat) < UInt8.size :=
        calc 10 * start.toNat + (c.toNat - '0'.toNat)
          _ ≤ _ := le_ofDigitChars rest _
          _ = number.toNat := same.symm
          _ < UInt8.size := number.toNat_lt
      have value := UInt8.toNat_ofNat_of_lt small
      refine ⟨_, withDigit_eq_some.mpr ⟨digit, value⟩, ih.mpr ⟨others, ?_⟩⟩
      rw [value, same]

theorem unsigned_eq_some {digits : List Char} {number : UInt8} :
    byte?.unsigned? digits = some number ↔ digits ≠ [] ∧ (∀ c ∈ digits, c.isDigit = true) ∧
      number.toNat = Nat.ofDigitChars 10 digits 0 := by
  rw [byte?.unsigned?, Option.ite_none_left_eq_some, foldlM_withDigit, List.isEmpty_iff]
  rfl

theorem byte_eq_some {text : List Char} {number : UInt8} :
    byte? text = some number ↔ Numeral text number.toNat := by
  constructor
  · intro read
    unfold byte? at read
    split at read <;> obtain ⟨filled, decimal, value⟩ := unsigned_eq_some.mp read <;> rw [value]
    · exact .signed filled decimal
    · exact .unsigned filled decimal
  · generalize same : number.toNat = value
    intro numeral
    cases numeral with
    | unsigned filled decimal =>
      have signless : ∀ rest, text ≠ '+' :: rest := by
        rintro rest rfl
        exact absurd (decimal '+' List.mem_cons_self) (by decide)
      unfold byte?
      split
      · next rest => exact absurd rfl (signless rest)
      · exact unsigned_eq_some.mpr ⟨filled, decimal, same⟩
    | signed filled decimal => exact unsigned_eq_some.mpr ⟨filled, decimal, same⟩

theorem unmarked_iff {text rest : List Char} :
    Unmarked text rest ↔ withoutLegacyMark text = rest := by
  unfold withoutLegacyMark
  constructor
  · intro unmarked
    cases unmarked with
    | marked =>
      have behind : Text.behind? ['1', '.'] ('1' :: '.' :: rest) = some rest :=
        Text.behind_eq_some.mpr rfl
      rw [behind, Option.getD_some]
    | plain markless =>
      have nowhere : Text.behind? ['1', '.'] text = none := by
        rw [Option.eq_none_iff_forall_ne_some]
        exact fun rest behind => markless ⟨rest, (Text.behind_eq_some.mp behind).symm⟩
      rw [nowhere, Option.getD_none]
  · rintro rfl
    cases behind : Text.behind? ['1', '.'] text with
    | some rest =>
      rw [Text.behind_eq_some.mp behind]
      exact .marked rest
    | none =>
      refine .plain fun ⟨rest, whole⟩ => ?_
      rw [Text.behind_eq_some.mpr whole.symm] at behind
      cases behind

theorem Numeral.unique {text : List Char} {value other : Nat} (first : Numeral text value)
    (second : Numeral text other) : value = other := by
  have signless {digits : List Char} (decimal : ∀ c ∈ '+' :: digits, c.isDigit = true) : False :=
    absurd (decimal '+' List.mem_cons_self) (by decide)
  cases first with
  | unsigned _ decimal =>
    cases second with
    | unsigned => rfl
    | signed => exact (signless decimal).elim
  | signed =>
    cases second with
    | unsigned _ decimal => exact (signless decimal).elim
    | signed => rfl

/-- A text spells one number only. -/
theorem Spells.unique {text : String} {release other : Nat} (first : Spells text release)
    (second : Spells text other) : release = other := by
  obtain ⟨_, _, trimmed, unmarked, numeral⟩ := first
  obtain ⟨_, _, trimmed', unmarked', numeral'⟩ := second
  obtain rfl := (Text.trimmed_iff.mp trimmed).symm.trans (Text.trimmed_iff.mp trimmed')
  obtain rfl := (unmarked_iff.mp unmarked).symm.trans (unmarked_iff.mp unmarked')
  exact numeral.unique numeral'

theorem ofRelease_eq_some {release : Nat} {target : JvmTarget} :
    ofRelease? release = some target ↔ release = target.release := by
  unfold ofRelease?
  split
  · constructor
    · rintro ⟨⟩
      rfl
    · rintro rfl
      rfl
  · next outside =>
    constructor
    · nofun
    · rintro rfl
      exact absurd ⟨target.oldest_le, target.le_newest⟩ outside

theorem parse_eq_some {text : String} {target : JvmTarget} :
    parse? text = some target ↔ Spells text target.release := by
  unfold parse? Spells
  simp only [Option.bind_eq_some_iff, ofRelease_eq_some, Text.trimmed_iff, unmarked_iff]
  constructor
  · rintro ⟨number, read, value⟩
    exact ⟨_, _, rfl, rfl, value ▸ byte_eq_some.mp read⟩
  · rintro ⟨_, _, rfl, rfl, numeral⟩
    have fits : target.release < UInt8.size := Nat.lt_of_le_of_lt target.le_newest (by decide)
    have value := UInt8.toNat_ofNat_of_lt fits
    exact ⟨_, byte_eq_some.mpr (value.symm ▸ numeral), value⟩

/-- What a target is written as spells its release. -/
theorem text_spells (target : JvmTarget) : Spells target.text target.release := by
  have decimal : ∀ c ∈ Nat.toDigits 10 target.release, c.isDigit = true :=
    fun _ member => Nat.isDigit_of_mem_toDigits (by decide) (by decide) member
  have numeral : Numeral (Nat.toDigits 10 target.release) target.release := by
    have written := Numeral.unsigned Nat.toDigits_ne_nil decimal
    rwa [Nat.ofDigitChars_ten_toDigits] at written
  have spelled : (toString target.release).toList = Nat.toDigits 10 target.release := by
    rw [Nat.toString_eq_ofList_toDigits, String.toList_ofList]
  have bare {text : List Char} (plain : ∀ c ∈ text, c = '1' ∨ c = '.' ∨ c.isDigit = true) :
      Text.Trimmed text text := by
    rw [Text.trimmed_iff]
    refine Text.trim_of_not_blank fun c member => ?_
    rcases plain c member with rfl | rfl | digit
    · decide
    · decide
    · exact Text.isBlank_of_isDigit digit
  unfold JvmTarget.text Spells
  split
  · have marked : ("1." ++ toString target.release).toList =
        '1' :: '.' :: Nat.toDigits 10 target.release := by
      rw [String.toList_append, spelled]
      rfl
    rw [marked]
    refine ⟨_, _, bare ?_, .marked _, numeral⟩
    rw [List.forall_mem_cons, List.forall_mem_cons]
    exact ⟨Or.inl rfl, Or.inr (Or.inl rfl), fun c member => Or.inr (Or.inr (decimal c member))⟩
  · rw [spelled]
    refine ⟨_, _, bare fun c member => Or.inr (Or.inr (decimal c member)), .plain ?_, numeral⟩
    intro marked
    exact absurd (decimal '.' (marked.subset (by simp))) (by decide)

theorem parse_eq_ok {text : String} {target : JvmTarget} :
    parse text = .ok target ↔ Spells text target.release := by
  rw [← parse_eq_some, parse]
  cases parse? text <;> simp

theorem parse_eq_error {text message : String} :
    parse text = .error message ↔ (∀ target : JvmTarget, ¬Spells text target.release) ∧
      message = unsupported text := by
  simp only [← parse_eq_some, parse]
  cases parse? text with
  | none => simp [eq_comm]
  | some target => simp

/-- A text names a target exactly if, between blanks and without the mark of the old releases, it is
a number from 6 to 25; how many digits the number is written with does not matter, and none that is
out of this range is taken for one within. All other texts are refused, and quoted without the
blanks around them. What a target is written as names that target. -/
theorem parse_exact (text : String) :
    ((∃ target, parse text = .ok target) ↔
      ∃ release, Spells text release ∧ 6 ≤ release ∧ release ≤ 25) ∧
    (∀ release, Spells text release →
      ∀ target, parse text = .ok target ↔ target.release = release) ∧
    (∀ target, parse text = .ok target → parse target.text = .ok target) ∧
    ∀ message, parse text = .error message → ∃ core, Text.Trimmed text.toList core ∧
      message = "unsupported JVM target '" ++ String.ofList core ++ "'" := by
  refine ⟨?_, ?_, ?_, ?_⟩
  · constructor
    · rintro ⟨target, named⟩
      exact ⟨_, parse_eq_ok.mp named, target.oldest_le, target.le_newest⟩
    · rintro ⟨release, spells, oldest, newest⟩
      exact ⟨⟨release, oldest, newest⟩, parse_eq_ok.mpr spells⟩
  · intro release spells target
    rw [parse_eq_ok]
    constructor
    · exact fun own => own.unique spells
    · exact fun same => same ▸ spells
  · exact fun target _ => parse_eq_ok.mpr (text_spells target)
  · intro message refused
    exact ⟨_, Text.trimmed_iff.mpr rfl, (parse_eq_error.mp refused).2⟩

-- The number in front wraps around to 8 in a byte, and the one behind it is 8.
example : parse? "264" = none ∧ (parse? " 1.+0000000008 ").map (·.release) = some 8 := by
  decide +kernel

end KotlinCompile.JvmTarget
