import KotlinCompile.Proofs.Text.Utf16
import KotlinCompile.Text.Encoding
import Mathlib.Algebra.Group.Nat.Defs

/-! The order of texts by their characters, which is also the order of their UTF-8 bytes. -/
namespace KotlinCompile.Text

/-- The bytes part at some place, and there the first has the smaller byte. -/
def PartsBelow (first second : Bytes) : Prop :=
  ∃ common a b rest others, first = common ++ a :: rest ∧ second = common ++ b :: others ∧ a < b

theorem partsBelow_here {a b : Nat} (byte : b < 256) (below : a < b) (rest others : Bytes) :
    PartsBelow (.ofNat a :: rest) (.ofNat b :: others) := by
  refine ⟨[], _, _, rest, others, rfl, rfl, ?_⟩
  rw [UInt8.lt_iff_toNat_lt, UInt8.toNat_ofNat', UInt8.toNat_ofNat']
  omega

theorem partsBelow_later (byte : UInt8) {rest others : Bytes} (below : PartsBelow rest others) :
    PartsBelow (byte :: rest) (byte :: others) := by
  obtain ⟨common, a, b, left, right, rfl, rfl, smaller⟩ := below
  exact ⟨byte :: common, a, b, left, right, rfl, rfl, smaller⟩

theorem lt_of_partsBelow {first second : Bytes} (below : PartsBelow first second)
    (left right : Bytes) : first ++ left < second ++ right := by
  obtain ⟨common, a, b, rest, others, rfl, rfl, smaller⟩ := below
  induction common with
  | nil => exact .rel smaller
  | cons byte common ih => exact .cons ih

/-- How many bytes follow the first one of a code point. -/
def following (n : Nat) : Nat :=
  if n ≤ 0x7F then 0 else if n ≤ 0x7FF then 1 else if n ≤ 0xFFFF then 2 else 3

/-- What the first byte announces so many further ones with. -/
def announcement : Nat → Nat
  | 0 => 0
  | 1 => 0xC0
  | 2 => 0xE0
  | _ => 0xF0

/-- The lowest bits of a code point, six to a byte. -/
def lowBytes (n : Nat) : Nat → Bytes
  | 0 => []
  | more + 1 => .ofNat (n / 64 ^ more % 64 + 0x80) :: lowBytes n more

def firstByte (n : Nat) : Nat := n / 64 ^ following n + announcement (following n)

theorem firstByte_cases (n : Nat) :
    n ≤ 0x7F ∧ following n = 0 ∧ firstByte n = n ∨
    0x7F < n ∧ n ≤ 0x7FF ∧ following n = 1 ∧ firstByte n = n / 64 + 0xC0 ∨
    0x7FF < n ∧ n ≤ 0xFFFF ∧ following n = 2 ∧ firstByte n = n / 4096 + 0xE0 ∨
    0xFFFF < n ∧ following n = 3 ∧ firstByte n = n / 262144 + 0xF0 := by
  unfold firstByte following
  split
  · simp [announcement]; omega
  · split
    · simp [announcement]; omega
    · split
      · simp [announcement]; omega
      · simp [announcement]; omega

theorem toNat_limit (c : Char) : c.toNat < 0x110000 := by
  rcases scalar_toNat c with low | ⟨_, high⟩ <;> omega

theorem encode_eq (c : Char) : String.utf8EncodeChar c =
    .ofNat (firstByte c.toNat) :: lowBytes c.toNat (following c.toNat) := by
  have limit := toNat_limit c
  have cases := firstByte_cases c.toNat
  unfold Char.toNat at limit cases ⊢
  unfold String.utf8EncodeChar
  generalize c.val.toNat = n at limit cases ⊢
  dsimp only
  rcases cases with ⟨small, more, first⟩ | ⟨low, high, more, first⟩ | ⟨low, high, more, first⟩ |
    ⟨low, more, first⟩
  · rw [if_pos small, more, first]
    rfl
  · rw [if_neg (by omega), if_pos high, more, first, Nat.mod_eq_of_lt (by omega : n / 64 < 32)]
    simp [lowBytes]
  · rw [if_neg (by omega), if_neg (by omega), if_pos high, more, first,
      Nat.mod_eq_of_lt (by omega : n / 4096 < 16)]
    simp [lowBytes]
  · rw [if_neg (by omega), if_neg (by omega), if_neg (by omega), more, first,
      Nat.mod_eq_of_lt (by omega : n / 262144 < 8)]
    simp [lowBytes]

-- Of two numbers in digits of any base, the leading digit decides unless it is the same.
theorem digits_lt {base a b rest others : Nat} (small : others < base)
    (below : rest + base * a < others + base * b) : a < b ∨ a = b ∧ rest < others := by
  rcases Nat.lt_trichotomy a b with less | same | more
  · exact Or.inl less
  · subst same
    exact Or.inr ⟨rfl, Nat.lt_of_add_lt_add_right below⟩
  · have whole : base * (b + 1) ≤ base * a := Nat.mul_le_mul_left base more
    rw [Nat.mul_succ] at whole
    omega

theorem partsBelow_lowBytes {m n : Nat} (more : Nat) (below : m % 64 ^ more < n % 64 ^ more) :
    PartsBelow (lowBytes m more) (lowBytes n more) := by
  induction more with
  | zero => simp [Nat.mod_one] at below
  | succ more ih =>
    have unit : 0 < 64 ^ more := Nat.pow_pos (by decide)
    rw [Nat.pow_succ, Nat.mod_mul, Nat.mod_mul] at below
    unfold lowBytes
    rcases digits_lt (Nat.mod_lt n unit) below with less | ⟨same, rest⟩
    · exact partsBelow_here (by omega) (Nat.add_lt_add_right less _) _ _
    · rw [same]
      exact partsBelow_later _ (ih rest)

theorem firstByte_bound {n : Nat} (limit : n < 0x110000) : firstByte n < 256 := by
  rcases firstByte_cases n with found | found | found | found <;> omega

theorem firstByte_lt {m n : Nat} (below : m < n) (limit : n < 0x110000)
    (longer : following m ≠ following n) : firstByte m < firstByte n := by
  rcases firstByte_cases m with left | left | left | left <;>
    rcases firstByte_cases n with right | right | right | right <;> omega

-- A longer encoding has the higher first byte, and encodings of one length differ in some digit.
theorem partsBelow_encode {c d : Char} (before : c < d) :
    PartsBelow (String.utf8EncodeChar c) (String.utf8EncodeChar d) := by
  have below : c.toNat < d.toNat := before
  have byte := firstByte_bound (toNat_limit d)
  rw [encode_eq, encode_eq]
  by_cases same : following c.toNat = following d.toNat
  · have unit : 0 < 64 ^ following d.toNat := Nat.pow_pos (by decide)
    have parted : c.toNat % 64 ^ following d.toNat +
          64 ^ following d.toNat * (c.toNat / 64 ^ following d.toNat) <
        d.toNat % 64 ^ following d.toNat +
          64 ^ following d.toNat * (d.toNat / 64 ^ following d.toNat) := by
      rw [Nat.mod_add_div, Nat.mod_add_div]
      exact below
    rcases digits_lt (Nat.mod_lt _ unit) parted with less | ⟨top, rest⟩
    · refine partsBelow_here byte ?_ _ _
      unfold firstByte
      rw [same]
      exact Nat.add_lt_add_right less _
    · have first : firstByte c.toNat = firstByte d.toNat := by
        unfold firstByte
        rw [same, top]
      rw [first, same]
      exact partsBelow_later _ (partsBelow_lowBytes _ rest)
  · exact partsBelow_here byte (firstByte_lt below (toNat_limit d) same) _ _

theorem utf8_lt_of_chars {s t : List Char} (before : s < t) :
    s.flatMap String.utf8EncodeChar < t.flatMap String.utf8EncodeChar := by
  induction before with
  | nil =>
    rw [List.flatMap_cons, encode_eq]
    exact .nil
  | rel below => exact lt_of_partsBelow (partsBelow_encode below) _ _
  | @cons c s t _ ih =>
    rw [List.flatMap_cons, List.flatMap_cons]
    exact List.append_left_lt ih

/-- Texts are in the order of their bytes. -/
theorem utf8_lt {s t : String} (before : s < t) : utf8 s < utf8 t :=
  utf8_lt_of_chars (String.lt_iff.mp before)

theorem utf8_lt_iff {s t : String} : utf8 s < utf8 t ↔ s < t := by
  refine ⟨fun below => Decidable.byContradiction fun notBefore => ?_, utf8_lt⟩
  by_cases same : s = t
  · exact List.lt_irrefl (utf8 t) (same ▸ below)
  · have after : t < s := Std.lt_of_le_of_ne (String.not_lt.mp notBefore) (Ne.symm same)
    exact List.lt_asymm below (utf8_lt after)

end KotlinCompile.Text
