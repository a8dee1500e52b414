import KotlinCompile.Text.Encoding
import Mathlib.Algebra.Group.Nat.Defs
import Mathlib.Data.List.Basic

/-! Well-formed UTF-16, the text that it stands for, and its groups of bytes. A group is cut from
the bits of its unit by shifts and masks, which is the same as dividing the unit by powers of two.
-/
namespace KotlinCompile.Text

/-- The units of a text: each is no surrogate and stands for itself, or it is a high surrogate
with a low one right behind it. -/
inductive Paired : List Nat → List Char → Prop where
  | nil : Paired [] []
  | single {unit : Nat} {units : List Nat} {text : List Char} :
      unit < 0xD800 ∨ 0xE000 ≤ unit ∧ unit < 0x10000 → Paired units text →
      Paired (unit :: units) (Char.ofNat unit :: text)
  | pair {high low : Nat} {units : List Nat} {text : List Char} :
      0xD800 ≤ high → high < 0xDC00 → 0xDC00 ≤ low → low < 0xE000 → Paired units text →
      Paired (high :: low :: units)
        (Char.ofNat (0x10000 + (high - 0xD800) * 0x400 + (low - 0xDC00)) :: text)

theorem toNat_of_scalar {n : Nat} (scalar : n < 0xD800 ∨ 0xE000 ≤ n ∧ n < 0x110000) :
    (Char.ofNat n).toNat = n := by
  have valid : n.isValidChar := by
    rcases scalar with low | high
    · exact Or.inl low
    · exact Or.inr ⟨Nat.lt_of_succ_le high.1, high.2⟩
  rw [Char.ofNat, dif_pos valid]
  rfl

theorem scalar_toNat (c : Char) : c.toNat < 0xD800 ∨ 0xE000 ≤ c.toNat ∧ c.toNat < 0x110000 := by
  rcases c.valid with low | ⟨above, below⟩
  · exact Or.inl low
  · exact Or.inr ⟨above, below⟩

theorem unit_bound {c : Char} {unit : Nat} (member : unit ∈ units c) : unit < 0x10000 := by
  have scalar := scalar_toNat c
  unfold units at member
  split at member
  · next small => rw [List.mem_singleton.mp member]; exact small
  · next large =>
    rcases List.mem_cons.mp member with rfl | member
    · omega
    · rw [List.mem_singleton.mp member]
      omega

theorem paired_units (c : Char) {rest : List Nat} {text : List Char} (paired : Paired rest text) :
    Paired (units c ++ rest) (c :: text) := by
  have scalar := scalar_toNat c
  unfold units
  split
  · next small =>
    have single : Paired (c.toNat :: rest) (Char.ofNat c.toNat :: text) :=
      .single (by omega) paired
    rwa [Char.ofNat_toNat] at single
  · next large =>
    have whole : 0x10000 + (0xD800 + (c.toNat - 0x10000) / 0x400 - 0xD800) * 0x400 +
        (0xDC00 + (c.toNat - 0x10000) % 0x400 - 0xDC00) = c.toNat := by omega
    have pair : Paired ((0xD800 + (c.toNat - 0x10000) / 0x400) ::
        (0xDC00 + (c.toNat - 0x10000) % 0x400) :: rest) (_ :: text) :=
      .pair (by omega) (by omega) (by omega) (by omega) paired
    rwa [whole, Char.ofNat_toNat] at pair

theorem units_of_paired {list : List Nat} {text : List Char} (paired : Paired list text) :
    list = text.flatMap units := by
  induction paired with
  | nil => rfl
  | @single unit rest text scalar _ ih =>
    have value : (Char.ofNat unit).toNat = unit := toNat_of_scalar (by omega)
    have small : unit < 0x10000 := by omega
    rw [List.flatMap_cons, ← ih, units, value, if_pos small]
    rfl
  | @pair high low rest text aboveHigh belowHigh aboveLow belowLow _ ih =>
    have value : (Char.ofNat (0x10000 + (high - 0xD800) * 0x400 + (low - 0xDC00))).toNat =
        0x10000 + (high - 0xD800) * 0x400 + (low - 0xDC00) := toNat_of_scalar (by omega)
    rw [List.flatMap_cons, ← ih, units, value, if_neg (by omega)]
    have first : 0xD800 + (0x10000 + (high - 0xD800) * 0x400 + (low - 0xDC00) - 0x10000) / 0x400 =
        high := by omega
    have second : 0xDC00 + (0x10000 + (high - 0xD800) * 0x400 + (low - 0xDC00) - 0x10000) % 0x400 =
        low := by omega
    rw [first, second]
    rfl

/-- The well-formed sequences are the unit forms of texts, and each is that of one text only. -/
theorem paired_iff (list : List Nat) (text : List Char) :
    Paired list text ↔ list = text.flatMap units := by
  refine ⟨units_of_paired, ?_⟩
  rintro rfl
  induction text with
  | nil => exact .nil
  | cons c rest ih => exact paired_units c ih

theorem high_surrogate_iff (unit : Nat) :
    isHighSurrogate unit = true ↔ 0xD800 ≤ unit ∧ unit < 0xDC00 := by
  simp [isHighSurrogate]

theorem low_surrogate_iff (unit : Nat) :
    isLowSurrogate unit = true ↔ 0xDC00 ≤ unit ∧ unit < 0xE000 := by
  simp [isLowSurrogate]

theorem ofUnits_single {unit : Nat} (notHigh : ¬isHighSurrogate unit = true)
    (notLow : ¬isLowSurrogate unit = true) (rest : List Nat) :
    ofUnits? (unit :: rest) = (ofUnits? rest).map (Char.ofNat unit :: ·) := by
  cases rest <;> simp [ofUnits?, notHigh, notLow]

theorem paired_of_ofUnits {list : List Nat} {text : List Char}
    (small : ∀ unit ∈ list, unit < 0x10000) (read : ofUnits? list = some text) :
    Paired list text := by
  induction list using ofUnits?.induct generalizing text with
  | case1 => cases read; exact .nil
  | case2 high isHigh => simp [ofUnits?, isHigh] at read
  | case3 high isHigh low rest isLow ih =>
    have ⟨aboveHigh, belowHigh⟩ := (high_surrogate_iff high).mp isHigh
    have ⟨aboveLow, belowLow⟩ := (low_surrogate_iff low).mp isLow
    simp only [ofUnits?, isHigh, isLow, if_true, Option.map_eq_some_iff] at read
    obtain ⟨after, readAfter, rfl⟩ := read
    exact .pair aboveHigh belowHigh aboveLow belowLow
      (ih (fun unit member => small unit (by simp [member])) readAfter)
  | case4 high isHigh low rest notLow => simp [ofUnits?, isHigh, notLow] at read
  | case5 unit rest notHigh isLow => cases rest <;> simp [ofUnits?, notHigh, isLow] at read
  | case6 unit rest notHigh notLow ih =>
    have bound := small unit List.mem_cons_self
    rw [ofUnits_single notHigh notLow] at read
    obtain ⟨after, readAfter, rfl⟩ := Option.map_eq_some_iff.mp read
    rw [high_surrogate_iff] at notHigh
    rw [low_surrogate_iff] at notLow
    exact .single (by omega)
      (ih (fun other member => small other (List.mem_cons_of_mem unit member)) readAfter)

theorem ofUnits_of_paired {list : List Nat} {text : List Char} (paired : Paired list text) :
    ofUnits? list = some text := by
  induction paired with
  | nil => rfl
  | @single unit rest text scalar _ ih =>
    have notHigh : ¬isHighSurrogate unit = true := by rw [high_surrogate_iff]; omega
    have notLow : ¬isLowSurrogate unit = true := by rw [low_surrogate_iff]; omega
    rw [ofUnits_single notHigh notLow, ih]
    rfl
  | @pair high low rest text aboveHigh belowHigh aboveLow belowLow _ ih =>
    have isHigh := (high_surrogate_iff high).mpr ⟨aboveHigh, belowHigh⟩
    have isLow := (low_surrogate_iff low).mpr ⟨aboveLow, belowLow⟩
    simp [ofUnits?, isHigh, isLow, ih]

/-- Units are read as a text exactly if every surrogate among them is paired. -/
theorem ofUnits_iff {list : List Nat} (small : ∀ unit ∈ list, unit < 0x10000) (text : List Char) :
    ofUnits? list = some text ↔ Paired list text :=
  ⟨paired_of_ofUnits small, ofUnits_of_paired⟩

/-- The units of a text in 16 bits each. -/
def words (text : String) : List UInt16 := (text.toList.flatMap units).map UInt16.ofNat

/-- A byte of some bits below a mark. -/
def marked (mark : UInt8) (bits : UInt16) : UInt8 := mark ||| bits.toUInt8

/-- The group of a unit, cut from its bits. -/
def wordGroup (word : UInt16) : Bytes :=
  if 0x0001 ≤ word ∧ word ≤ 0x007F then [word.toUInt8]
  else if word = 0x0000 ∨ 0x0080 ≤ word ∧ word ≤ 0x07FF then
    [marked 0xC0 (word >>> 6 &&& 0x1F), marked 0x80 (word &&& 0x3F)]
  else
    [marked 0xE0 (word >>> 12 &&& 0x0F), marked 0x80 (word >>> 6 &&& 0x3F),
      marked 0x80 (word &&& 0x3F)]

section Bits
variable {word mask bits : UInt16} {mark : UInt8} {unit : Nat}

theorem toNat_shifted (value : word.toNat = unit) (shift : UInt16) (within : shift.toNat < 16) :
    (word >>> shift).toNat = unit / 2 ^ shift.toNat := by
  rw [UInt16.toNat_shiftRight, value, Nat.mod_eq_of_lt within, Nat.shiftRight_eq_div_pow]

theorem toNat_masked {width : Nat} (value : word.toNat = unit) (ones : mask.toNat = 2 ^ width - 1) :
    (word &&& mask).toNat = unit % 2 ^ width := by
  rw [UInt16.toNat_and, value, ones, Nat.and_two_pow_sub_one_eq_mod]

-- The mark is zero where the bits are, so the two are added.
theorem marked_eq (width high : Nat) (free : mark.toNat = 2 ^ width * high)
    (short : 2 ^ width ≤ 256) (value : bits.toNat = unit % 2 ^ width) :
    marked mark bits = UInt8.ofNat (mark.toNat + unit % 2 ^ width) := by
  have small : unit % 2 ^ width < 2 ^ width := Nat.mod_lt _ (Nat.two_pow_pos width)
  have sum : mark.toNat ||| unit % 2 ^ width = mark.toNat + unit % 2 ^ width := by
    rw [free, Nat.two_pow_add_eq_or_of_lt small]
  have byte : mark.toNat ||| unit % 2 ^ width < 2 ^ 8 :=
    Nat.or_lt_two_pow mark.toNat_lt (Nat.lt_of_lt_of_le small short)
  apply UInt8.toNat_inj.mp
  rw [marked, UInt8.toNat_or, UInt16.toNat_toUInt8, value, Nat.mod_eq_of_lt (by omega),
    UInt8.toNat_ofNat', ← sum, Nat.mod_eq_of_lt byte]

end Bits

theorem toNat_word {unit : Nat} (small : unit < 0x10000) : (UInt16.ofNat unit).toNat = unit := by
  rw [UInt16.toNat_ofNat', Nat.mod_eq_of_lt small]

/-- The group that is cut from the bits is the group by division. -/
theorem wordGroup_ofNat {unit : Nat} (small : unit < 0x10000) :
    wordGroup (UInt16.ofNat unit) = unitGroup unit := by
  have value := toNat_word small
  have six : (UInt16.ofNat unit >>> 6).toNat = unit / 64 := toNat_shifted value 6 (by decide)
  have twelve : (UInt16.ofNat unit >>> 12).toNat = unit / 4096 := toNat_shifted value 12 (by decide)
  have last : marked 0x80 (UInt16.ofNat unit &&& 0x3F) = UInt8.ofNat (0x80 + unit % 64) :=
    marked_eq 6 2 rfl (by decide) (toNat_masked value rfl)
  have middle : marked 0x80 (UInt16.ofNat unit >>> 6 &&& 0x3F) =
      UInt8.ofNat (0x80 + unit / 64 % 64) :=
    marked_eq 6 2 rfl (by decide) (toNat_masked six rfl)
  have firstOfTwo : marked 0xC0 (UInt16.ofNat unit >>> 6 &&& 0x1F) =
      UInt8.ofNat (0xC0 + unit / 64 % 32) :=
    marked_eq 5 6 rfl (by decide) (toNat_masked six rfl)
  have firstOfThree : marked 0xE0 (UInt16.ofNat unit >>> 12 &&& 0x0F) =
      UInt8.ofNat (0xE0 + unit / 4096 % 16) :=
    marked_eq 4 14 rfl (by decide) (toNat_masked twelve rfl)
  unfold wordGroup unitGroup
  simp only [UInt16.le_iff_toNat_le, ← UInt16.toNat_inj, value, UInt16.reduceToNat]
  by_cases ascii : 1 ≤ unit ∧ unit ≤ 0x7F
  · simp [ascii]
  by_cases short : unit ≤ 0x7FF
  · rw [if_neg ascii, if_neg ascii, if_pos (by omega), if_pos short, firstOfTwo, last,
      Nat.mod_eq_of_lt (show unit / 64 < 32 by omega)]
  · rw [if_neg ascii, if_neg ascii, if_neg (by omega), if_neg short, firstOfThree, middle, last,
      Nat.mod_eq_of_lt (show unit / 4096 < 16 by omega)]

theorem small_of_units (text : String) :
    ∀ unit ∈ text.toList.flatMap units, unit < 0x10000 := by
  intro unit member
  obtain ⟨c, _, unitOfChar⟩ := List.mem_flatMap.mp member
  exact unit_bound unitOfChar

theorem wordGroups_eq (text : String) : (words text).flatMap wordGroup = unitGroups text := by
  rw [words, List.flatMap_map, unitGroups]
  exact List.flatMap_congr fun unit member => wordGroup_ofNat (small_of_units text unit member)

/-- A 16-bit value in a group of three bytes. -/
def threeBytes (n : Nat) : Bytes :=
  [UInt8.ofNat (0xE0 + n / 0x1000), UInt8.ofNat (0x80 + n / 0x40 % 0x40),
    UInt8.ofNat (0x80 + n % 0x40)]

/-- The bytes of a character: those of UTF-8, except that NUL takes two, and that a supplementary
character takes a group for each of its surrogates. -/
def charBytes (c : Char) : Bytes :=
  if c.toNat = 0 then [0xC0, 0x80]
  else if c.toNat < 0x10000 then String.utf8EncodeChar c
  else threeBytes (0xD800 + (c.toNat - 0x10000) / 0x400) ++
    threeBytes (0xDC00 + (c.toNat - 0x10000) % 0x400)

theorem unitGroup_basic {c : Char} (positive : 0 < c.toNat) (basic : c.toNat < 0x10000) :
    unitGroup c.toNat = String.utf8EncodeChar c := by
  have value : c.val.toNat = c.toNat := rfl
  unfold String.utf8EncodeChar unitGroup
  simp only [value, Nat.add_comm 0xC0, Nat.add_comm 0xE0, Nat.add_comm 0x80]
  by_cases ascii : c.toNat ≤ 0x7F
  · rw [if_pos ⟨positive, ascii⟩, if_pos ascii]
  by_cases short : c.toNat ≤ 0x7FF
  · rw [if_neg (by omega), if_neg ascii, if_pos short, if_pos short,
      Nat.mod_eq_of_lt (show c.toNat / 64 < 32 by omega)]
  · rw [if_neg (by omega), if_neg ascii, if_neg short, if_neg short, if_pos (by omega),
      Nat.mod_eq_of_lt (show c.toNat / 4096 < 16 by omega)]

theorem unitGroup_large {unit : Nat} (large : 0x7FF < unit) : unitGroup unit = threeBytes unit := by
  rw [unitGroup, if_neg (by omega), if_neg (by omega)]
  rfl

theorem groups_char (c : Char) : (units c).flatMap unitGroup = charBytes c := by
  unfold units charBytes
  by_cases nul : c.toNat = 0
  · have two : unitGroup 0 = [0xC0, 0x80] := by decide
    simp [nul, two]
  by_cases basic : c.toNat < 0x10000
  · simp [nul, basic, unitGroup_basic (Nat.pos_of_ne_zero nul) basic]
  · have high : 0x7FF < 0xD800 + (c.toNat - 0x10000) / 0x400 := by omega
    have low : 0x7FF < 0xDC00 + (c.toNat - 0x10000) % 0x400 := by omega
    simp [nul, basic, unitGroup_large high, unitGroup_large low]

theorem unitGroups_eq (text : String) : unitGroups text = text.toList.flatMap charBytes := by
  rw [unitGroups, List.flatMap_assoc]
  exact List.flatMap_congr fun c _ => groups_char c

theorem byte_of_unitGroup {unit : Nat} (small : unit < 0x10000) :
    ∀ byte ∈ unitGroup unit, 0 < byte.toNat ∧ byte.toNat < 0xF0 := by
  unfold unitGroup
  split
  · simp
    omega
  split
  · simp
    omega
  · simp
    omega

/-- No byte of a text is zero, and none announces more than two bytes behind it. -/
theorem byte_of_unitGroups (text : String) :
    ∀ byte ∈ unitGroups text, 0x00 < byte ∧ byte < 0xF0 := by
  intro byte member
  obtain ⟨unit, unitOfText, inGroup⟩ := List.mem_flatMap.mp member
  exact byte_of_unitGroup (small_of_units text unit unitOfText) byte inGroup

end KotlinCompile.Text
