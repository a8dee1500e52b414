import KotlinCompile.Proofs.Text.Cut
import KotlinCompile.Proofs.Text.Utf16
import KotlinCompile.Text.Encoding
import Mathlib.Algebra.Group.Nat.Defs

/-! Bytes read as text whatever they are. An ASCII byte continues no character, so a run of ASCII
characters occurs in the text exactly where its bytes occur. Bytes that are all characters are the
bytes of the text that they are read as, and no others are read strictly. -/
namespace KotlinCompile.Text

section Follow
variable {b low high : UInt8}

theorem follow_append (ascii : b < 0x80) (above : 0x80 ≤ low) (more value : Nat)
    (rest after : Bytes) : follow more low high value (rest ++ b :: after) =
      ((follow more low high value rest).1, (follow more low high value rest).2 ++ b :: after) := by
  induction more generalizing low high value rest with
  | zero => rfl
  | succ more ih =>
    cases rest with
    | nil =>
      have outside : ¬low ≤ b := by
        rw [UInt8.not_le]
        exact UInt8.lt_of_lt_of_le ascii above
      simp [follow, outside]
    | cons x rest =>
      by_cases inside : low ≤ x ∧ x ≤ high
      · simp [follow, inside, ih (UInt8.le_refl 0x80)]
      · simp [follow, inside]

theorem follow_suffix (more value : Nat) (rest : Bytes) :
    (follow more low high value rest).2 <:+ rest := by
  induction more generalizing low high value rest with
  | zero => exact List.suffix_refl rest
  | succ more ih =>
    cases rest with
    | nil => exact List.suffix_refl []
    | cons x rest =>
      by_cases inside : low ≤ x ∧ x ≤ high
      · simp only [follow, inside, decide_true, Bool.and_self, if_true]
        exact (ih _ rest).trans (List.suffix_cons x rest)
      · simp [follow, inside]

theorem follow_eq_some {more value n : Nat} {rest : Bytes}
    (read : (follow (more + 1) low high value rest).1 = some n) :
    ∃ x after, (low ≤ x ∧ x ≤ high) ∧
      (follow more 0x80 0xBF (value * 64 + x.toNat % 64) after).1 = some n := by
  cases rest with
  | nil => simp [follow] at read
  | cons x after =>
    by_cases inside : low ≤ x ∧ x ≤ high
    · exact ⟨x, after, inside, by simpa [follow, inside] using read⟩
    · simp [follow, inside] at read

/-- The value of bytes that were read to the end, by the range of the first of them. -/
theorem follow_value (above : 0x80 ≤ low) (below : high ≤ 0xBF) {more value n : Nat} {rest : Bytes}
    (read : (follow (more + 1) low high value rest).1 = some n) :
    (value * 64 + (low.toNat - 0x80)) * 64 ^ more ≤ n ∧
      n < (value * 64 + (high.toNat - 0x80) + 1) * 64 ^ more := by
  induction more generalizing low high value rest with
  | zero =>
    obtain ⟨x, after, ⟨least, most⟩, last⟩ := follow_eq_some read
    simp only [UInt8.le_iff_toNat_le, UInt8.reduceToNat] at above below least most
    simp only [follow, Option.some.injEq] at last
    omega
  | succ more ih =>
    obtain ⟨x, after, ⟨least, most⟩, later⟩ := follow_eq_some read
    obtain ⟨lower, upper⟩ := ih (UInt8.le_refl 0x80) (UInt8.le_refl 0xBF) later
    simp only [UInt8.le_iff_toNat_le, UInt8.reduceToNat] at above below least most lower upper
    have first : (value * 64 + (low.toNat - 128)) * 64 ≤
        (value * 64 + x.toNat % 64) * 64 + (128 - 128) := by omega
    have last : (value * 64 + x.toNat % 64) * 64 + (191 - 128) + 1 ≤
        (value * 64 + (high.toNat - 128) + 1) * 64 := by omega
    rw [Nat.pow_succ', ← Nat.mul_assoc, ← Nat.mul_assoc]
    exact ⟨Nat.le_trans (Nat.mul_le_mul_right _ first) lower,
      Nat.lt_of_lt_of_le upper (Nat.mul_le_mul_right _ last)⟩

end Follow

/-- The values that a lead with `more + 1` following bytes can reach are those of characters, and
none of them is ASCII. -/
structure Lead.Reaches (lead : Lead) (more : Nat) : Prop where
  count : lead.more = more + 1
  above : 0x80 ≤ lead.low
  below : lead.high ≤ 0xBF
  notAscii : 0x80 ≤ (lead.bits * 64 + (lead.low.toNat - 0x80)) * 64 ^ more
  scalar : (lead.bits * 64 + (lead.high.toNat - 0x80) + 1) * 64 ^ more ≤ 0xD800 ∨
    0xE000 ≤ (lead.bits * 64 + (lead.low.toNat - 0x80)) * 64 ^ more ∧
      (lead.bits * 64 + (lead.high.toNat - 0x80) + 1) * 64 ^ more ≤ 0x110000

theorem lead_reaches {b : UInt8} {lead : Lead} (leads : lead? b = some lead) :
    ∃ more, lead.Reaches more := by
  -- by the kind of lead: where its bits are fixed, so are the bounds
  simp only [lead?, Bool.and_eq_true, decide_eq_true_eq, beq_iff_eq, UInt8.le_iff_toNat_le,
    ← UInt8.toNat_inj, UInt8.reduceToNat] at leads
  split at leads
  · obtain rfl := Option.some.inj leads
    exact ⟨0, rfl, UInt8.le_refl 0x80, UInt8.le_refl 0xBF, by simp; omega, by simp; omega⟩
  split at leads
  · obtain rfl := Option.some.inj leads
    exact ⟨1, rfl, by decide, by decide, by decide, by decide⟩
  split at leads
  · obtain rfl := Option.some.inj leads
    exact ⟨1, rfl, by decide, by decide, by decide, by decide⟩
  split at leads
  · obtain rfl := Option.some.inj leads
    exact ⟨1, rfl, UInt8.le_refl 0x80, UInt8.le_refl 0xBF, by simp; omega, by simp; omega⟩
  split at leads
  · obtain rfl := Option.some.inj leads
    exact ⟨2, rfl, by decide, by decide, by decide, by decide⟩
  split at leads
  · obtain rfl := Option.some.inj leads
    exact ⟨2, rfl, UInt8.le_refl 0x80, UInt8.le_refl 0xBF, by simp; omega, by simp; omega⟩
  split at leads
  · obtain rfl := Option.some.inj leads
    exact ⟨2, rfl, by decide, by decide, by decide, by decide⟩
  · cases leads

theorem lead_value {b : UInt8} {lead : Lead} (leads : lead? b = some lead) {n : Nat} {rest : Bytes}
    (read : (follow lead.more lead.low lead.high lead.bits rest).1 = some n) :
    0x80 ≤ n ∧ (n < 0xD800 ∨ 0xE000 ≤ n ∧ n < 0x110000) := by
  obtain ⟨more, reaches⟩ := lead_reaches leads
  rw [reaches.count] at read
  obtain ⟨least, most⟩ := follow_value reaches.above reaches.below read
  exact ⟨Nat.le_trans reaches.notAscii least, reaches.scalar.imp (Nat.lt_of_lt_of_le most)
    fun ⟨first, last⟩ => ⟨Nat.le_trans first least, Nat.lt_of_lt_of_le most last⟩⟩

section FirstChar
variable {b : UInt8}

/-- An ASCII character is read from its own byte only, which stands alone. -/
theorem firstChar_ascii {c : Char} {rest : Bytes} (read : (firstChar b rest).1 = some c)
    (small : c.toNat < 0x80) : b < 0x80 := by
  by_contra large
  cases leads : lead? b with
  | none => simp [firstChar, large, leads] at read
  | some lead =>
    simp only [firstChar, large, if_false, leads, Option.map_eq_some_iff] at read
    obtain ⟨n, value, rfl⟩ := read
    obtain ⟨notAscii, scalar⟩ := lead_value leads value
    rw [toNat_of_scalar scalar] at small
    exact absurd small (Nat.not_lt.mpr notAscii)

theorem firstChar_of_ascii (ascii : b < 0x80) (rest : Bytes) :
    firstChar b rest = (some (Char.ofNat b.toNat), rest) := by
  simp [firstChar, ascii]

theorem firstChar_suffix (b : UInt8) (rest : Bytes) : (firstChar b rest).2 <:+ rest := by
  by_cases ascii : b < 0x80
  · simp [firstChar, ascii]
  · cases leads : lead? b with
    | none => simp [firstChar, ascii, leads]
    | some lead => simpa [firstChar, ascii, leads] using follow_suffix lead.more lead.bits rest

/-- No character reaches over an ASCII byte. -/
theorem firstChar_append {x : UInt8} (ascii : x < 0x80) (rest after : Bytes) :
    firstChar b (rest ++ x :: after) =
      ((firstChar b rest).1, (firstChar b rest).2 ++ x :: after) := by
  by_cases first : b < 0x80
  · simp [firstChar, first]
  · cases leads : lead? b with
    | none => simp [firstChar, first, leads]
    | some lead =>
      obtain ⟨_, reaches⟩ := lead_reaches leads
      simp [firstChar, first, leads, follow_append ascii reaches.above]

end FirstChar

@[simp] theorem scalars_nil : scalars [] = [] := by
  simp [scalars]

theorem scalars_cons (b : UInt8) (rest : Bytes) :
    scalars (b :: rest) = (firstChar b rest).1 :: scalars (firstChar b rest).2 := by
  rw [scalars]

/-- Bytes are read in two parts wherever an ASCII byte stands, even if the part before it ends
inside a character. -/
theorem scalars_append {x : UInt8} (ascii : x < 0x80) (before after : Bytes) :
    scalars (before ++ x :: after) = scalars before ++ scalars (x :: after) := by
  fun_induction scalars before with
  | case1 => simp
  | case2 b rest ih =>
    rw [List.cons_append, scalars_cons, firstChar_append ascii]
    exact congrArg _ ih

theorem encode_ascii {c : Char} (small : c.toNat < 0x80) :
    ∃ b : UInt8, b < 0x80 ∧ b.toNat = c.toNat ∧ String.utf8EncodeChar c = [b] := by
  have short : c.utf8Size = 1 := by
    rw [Char.utf8Size_eq_one_iff, UInt32.le_iff_toNat_le]
    exact Nat.le_of_lt_succ small
  have value : c.val.toUInt8.toNat = c.toNat := by
    rw [UInt32.toNat_toUInt8]
    exact Nat.mod_eq_of_lt (Nat.lt_trans small (by decide))
  refine ⟨c.val.toUInt8, ?_, value, String.utf8EncodeChar_eq_singleton short⟩
  rw [UInt8.lt_iff_toNat_lt, value]
  exact small

/-- The characters of the text that bytes are read as. -/
def characters (bytes : Bytes) : List Char := (scalars bytes).map (·.getD '\uFFFD')

theorem characters_cons (b : UInt8) (rest : Bytes) : characters (b :: rest) =
    (firstChar b rest).1.getD '\uFFFD' :: characters (firstChar b rest).2 := by
  simp [characters, scalars_cons]

theorem characters_append {x : UInt8} (ascii : x < 0x80) (before after : Bytes) :
    characters (before ++ x :: after) = characters before ++ characters (x :: after) := by
  simp [characters, scalars_append ascii]

-- U+FFFD is not ASCII, so an ASCII character never stands for bytes that are no character.
theorem first_iff {c : Char} {x : UInt8} (ascii : x < 0x80) (value : x.toNat = c.toNat)
    (b : UInt8) (rest : Bytes) : c = (firstChar b rest).1.getD '\uFFFD' ↔ x = b := by
  have small : c.toNat < 0x80 := by
    rw [← value]
    exact UInt8.lt_iff_toNat_lt.mp ascii
  constructor
  · intro first
    cases read : (firstChar b rest).1 with
    | none => simp [first, read] at small
    | some d =>
      obtain rfl : c = d := by simpa [read] using first
      have own := firstChar_ascii read small
      simp only [firstChar_of_ascii own, Option.some.injEq] at read
      rw [← UInt8.toNat_inj, value, ← read, toNat_of_scalar]
      rw [UInt8.lt_iff_toNat_lt] at own
      exact Or.inl (Nat.lt_trans own (by decide))
  · rintro rfl
    simp [firstChar_of_ascii ascii, value]

section Run
variable {run : List Char}

theorem prefix_characters_iff (ascii : ∀ c ∈ run, c.toNat < 0x80) (bytes : Bytes) :
    run <+: characters bytes ↔ run.flatMap String.utf8EncodeChar <+: bytes := by
  induction run generalizing bytes with
  | nil => simp
  | cons c run ih =>
    have ⟨small, others⟩ := List.forall_mem_cons.mp ascii
    obtain ⟨x, single, value, encoded⟩ := encode_ascii small
    cases bytes with
    | nil => simp [characters, encoded]
    | cons b rest =>
      rw [characters_cons, List.flatMap_cons, encoded, List.singleton_append,
        List.cons_prefix_cons, List.cons_prefix_cons, ih others, first_iff single value]
      apply and_congr_right
      rintro rfl
      rw [firstChar_of_ascii single]

theorem infix_characters_iff (ascii : ∀ c ∈ run, c.toNat < 0x80) (bytes : Bytes) :
    run <:+: characters bytes ↔ run.flatMap String.utf8EncodeChar <:+: bytes := by
  constructor
  · intro inside
    fun_induction scalars bytes with
    | case1 =>
      simp only [characters, scalars_nil, List.map_nil, List.infix_nil] at inside
      simp [inside]
    | case2 b rest ih =>
      rw [characters_cons, List.infix_cons_iff, ← characters_cons,
        prefix_characters_iff ascii] at inside
      rcases inside with first | later
      · exact first.isInfix
      · have further := (firstChar_suffix b rest).trans (List.suffix_cons b rest)
        exact (ih later).trans further.isInfix
  · rintro ⟨before, after, rfl⟩
    cases run with
    | nil => simp
    | cons c run =>
      obtain ⟨x, single, _, encoded⟩ := encode_ascii (ascii c List.mem_cons_self)
      have here := (prefix_characters_iff ascii _).mpr (List.prefix_append _ after)
      rw [List.flatMap_cons, encoded, List.singleton_append] at here ⊢
      rw [List.append_assoc, List.cons_append, characters_append single]
      exact here.isInfix.trans (List.suffix_append ..).isInfix

end Run

/-- An ASCII text occurs in what bytes are read as exactly where its own bytes occur in them,
whatever the others are. -/
theorem hasRun_lossy {text : String} (ascii : ∀ c ∈ text.toList, c.toNat < 0x80) (bytes : Bytes) :
    hasRun text.toList (lossy bytes).toList = true ↔ utf8 text <:+: bytes := by
  rw [hasRun_iff, lossy, String.toList_ofList]
  exact infix_characters_iff ascii bytes

/-- The byte that follows with the last six bits of a value. -/
def sixBits (value : Nat) : UInt8 := UInt8.ofNat (value % 64 + 0x80)

theorem toNat_sixBits (value : Nat) : (sixBits value).toNat = value % 64 + 0x80 := by
  apply UInt8.toNat_ofNat_of_lt'
  show value % 64 + 0x80 < 256
  omega

/-- The bytes that follow with the last bits of a value, six in each of so many. -/
def trail : Nat → Nat → Bytes
  | 0, _ => []
  | more + 1, value => sixBits (value / 64 ^ more) :: trail more value

section Follow
variable {low high : UInt8} {n more : Nat} {after : Bytes}

-- A byte in the range adds its six bits to the value, and they are its own.
theorem sixBits_iff (above : 0x80 ≤ low) (below : high ≤ 0xBF) {x : UInt8} {value sum : Nat} :
    (low ≤ x ∧ x ≤ high) ∧ sum = value * 64 + x.toNat % 64 ↔
      x = sixBits sum ∧ sum / 64 = value ∧ low ≤ x ∧ x ≤ high := by
  simp only [← UInt8.toNat_inj, UInt8.le_iff_toNat_le, UInt8.reduceToNat, toNat_sixBits]
    at above below ⊢
  omega

theorem follow_succ (later : ∀ value rest, follow more 0x80 0xBF value rest = (some n, after) ↔
      rest = trail more n ++ after ∧ n / 64 ^ more = value)
    (above : 0x80 ≤ low) (below : high ≤ 0xBF) (value : Nat) (rest : Bytes) :
    follow (more + 1) low high value rest = (some n, after) ↔
      rest = trail (more + 1) n ++ after ∧ n / 64 ^ (more + 1) = value ∧
        low ≤ sixBits (n / 64 ^ more) ∧ sixBits (n / 64 ^ more) ≤ high := by
  have shorter : n / 64 ^ (more + 1) = n / 64 ^ more / 64 := by
    rw [Nat.pow_succ, Nat.div_div_eq_div_mul]
  have first : follow (more + 1) low high value rest = (some n, after) ↔
      ∃ x tail, rest = x :: tail ∧ (low ≤ x ∧ x ≤ high) ∧
        follow more 0x80 0xBF (value * 64 + x.toNat % 64) tail = (some n, after) := by
    cases rest with
    | nil => simp [follow]
    | cons x tail => by_cases inside : low ≤ x ∧ x ≤ high <;> simp [follow, inside]
  rw [first, trail, List.cons_append, shorter]
  constructor
  · rintro ⟨x, tail, rfl, inside, read⟩
    obtain ⟨rfl, sum⟩ := (later _ _).mp read
    obtain ⟨rfl, value, inside⟩ := (sixBits_iff above below).mp ⟨inside, sum⟩
    exact ⟨rfl, value, inside⟩
  · rintro ⟨rfl, value, inside⟩
    obtain ⟨_, sum⟩ := (sixBits_iff above below).mpr ⟨rfl, value, inside⟩
    exact ⟨_, _, rfl, inside, (later _ _).mpr ⟨rfl, sum⟩⟩

theorem follow_tail_iff (more value : Nat) (rest : Bytes) :
    follow more 0x80 0xBF value rest = (some n, after) ↔
      rest = trail more n ++ after ∧ n / 64 ^ more = value := by
  induction more generalizing value rest with
  | zero => simp [follow, trail, and_comm, eq_comm]
  | succ more ih =>
    have inside : 0x80 ≤ sixBits (n / 64 ^ more) ∧ sixBits (n / 64 ^ more) ≤ 0xBF := by
      simp only [UInt8.le_iff_toNat_le, UInt8.reduceToNat, toNat_sixBits]
      omega
    rw [follow_succ ih (by decide) (by decide), and_iff_left inside]

/-- The bytes behind a lead are read as a value that they and the lead's own bits make up. -/
theorem follow_iff (above : 0x80 ≤ low) (below : high ≤ 0xBF) (value : Nat) (rest : Bytes) :
    follow (more + 1) low high value rest = (some n, after) ↔
      rest = trail (more + 1) n ++ after ∧ n / 64 ^ (more + 1) = value ∧
        low ≤ sixBits (n / 64 ^ more) ∧ sixBits (n / 64 ^ more) ≤ high :=
  follow_succ (follow_tail_iff more) above below value rest

end Follow

/-- The first byte of a character that is not ASCII, and the number of bytes that follow it. -/
inductive Heads : UInt8 → Nat → Nat → Prop
  | two {b : UInt8} {n : Nat} (first : b.toNat = n / 64 + 0xC0) (least : 0x80 ≤ n)
      (most : n < 0x800) : Heads b 1 n
  | three {b : UInt8} {n : Nat} (first : b.toNat = n / 4096 + 0xE0) (least : 0x800 ≤ n)
      (most : n < 0x10000) : Heads b 2 n
  | four {b : UInt8} {n : Nat} (first : b.toNat = n / 262144 + 0xF0) (least : 0x10000 ≤ n)
      (most : n < 0x110000) : Heads b 3 n

/-- The leads say of a first byte what it is: the bits that it has of the value, and the bytes that
may follow it. -/
theorem heads_iff {b : UInt8} {n more : Nat} (scalar : n < 0xD800 ∨ 0xE000 ≤ n ∧ n < 0x110000) :
    Heads b (more + 1) n ↔
      ∃ lead, lead? b = some lead ∧ lead.more = more + 1 ∧ n / 64 ^ (more + 1) = lead.bits ∧
        lead.low ≤ sixBits (n / 64 ^ more) ∧ sixBits (n / 64 ^ more) ≤ lead.high := by
  constructor
  · intro heads
    fun_cases lead? b
    all_goals
      simp only [Bool.and_eq_true, decide_eq_true_eq, beq_iff_eq, UInt8.le_iff_toNat_le,
        ← UInt8.toNat_inj, UInt8.reduceToNat] at *
      cases heads
    -- a first byte has one lead only
    all_goals try omega
    all_goals
      refine ⟨_, rfl, rfl, ?_⟩
      simp only [toNat_sixBits, UInt8.reduceToNat, Nat.pow_zero]
      omega
  · rintro ⟨lead, leads, count, bits, low, high⟩
    revert leads
    simp only [UInt8.le_iff_toNat_le, toNat_sixBits] at low high
    fun_cases lead? b
    all_goals
      simp only [Bool.and_eq_true, decide_eq_true_eq, beq_iff_eq, UInt8.le_iff_toNat_le,
        ← UInt8.toNat_inj, UInt8.reduceToNat] at *
      intro leads
    case case8 => cases leads
    all_goals obtain rfl := Option.some.inj leads
    case case1 =>
      obtain rfl : more = 0 := Nat.succ.inj count.symm
      simp only [UInt8.reduceToNat, Nat.pow_zero, Nat.pow_one, Nat.zero_add] at bits low high
      exact .two (by omega) (by omega) (by omega)
    case case2 | case3 | case4 =>
      obtain rfl : more = 1 := Nat.succ.inj count.symm
      simp only [UInt8.reduceToNat] at bits low high
      exact .three (by omega) (by omega) (by omega)
    case case5 | case6 | case7 =>
      obtain rfl : more = 2 := Nat.succ.inj count.symm
      simp only [UInt8.reduceToNat] at bits low high
      exact .four (by omega) (by omega) (by omega)

section Encoded
variable {c : Char} {b : UInt8} {rest after : Bytes}

theorem encode_of_heads {more : Nat} (heads : Heads b more c.toNat) :
    String.utf8EncodeChar c = b :: trail more c.toNat := by
  have value : c.val.toNat = c.toNat := rfl
  unfold String.utf8EncodeChar
  simp only [value]
  generalize c.toNat = n at heads
  have ofFirst {first : Nat} (own : b.toNat = first) : UInt8.ofNat first = b := by
    rw [← own, UInt8.ofNat_toNat]
  cases heads with
  | two first least most =>
    rw [if_neg (by omega), if_pos (by omega), Nat.mod_eq_of_lt (by omega), ofFirst first]
    simp [trail, sixBits]
  | three first least most =>
    rw [if_neg (by omega), if_neg (by omega), if_pos (by omega), Nat.mod_eq_of_lt (by omega),
      ofFirst first]
    simp [trail, sixBits]
  | four first least most =>
    rw [if_neg (by omega), if_neg (by omega), if_neg (by omega), Nat.mod_eq_of_lt (by omega),
      ofFirst first]
    simp [trail, sixBits]

theorem exists_heads {n : Nat} (large : 0x80 ≤ n) (most : n < 0x110000) :
    ∃ b more, Heads b (more + 1) n := by
  have toNat {first : Nat} (small : first < 256) : (UInt8.ofNat first).toNat = first :=
    UInt8.toNat_ofNat_of_lt' small
  by_cases two : n < 0x800
  · exact ⟨_, 0, .two (toNat (by omega)) large two⟩
  by_cases three : n < 0x10000
  · exact ⟨_, 1, .three (toNat (by omega)) (by omega) three⟩
  · exact ⟨_, 2, .four (toNat (by omega)) (by omega) most⟩

theorem firstChar_of_lead {b : UInt8} {rest after : Bytes} {c : Char} (large : ¬b < 0x80) :
    firstChar b rest = (some c, after) ↔ ∃ lead n, lead? b = some lead ∧
      follow lead.more lead.low lead.high lead.bits rest = (some n, after) ∧ Char.ofNat n = c := by
  rw [firstChar, if_neg large]
  cases lead? b with
  | none => simp
  | some lead =>
    cases read : follow lead.more lead.low lead.high lead.bits rest with
    | mk value left => cases value <;> simp [read, and_comm]

/-- Bytes are read as a character that is not ASCII where they are a first byte of it and those that
follow it. -/
theorem firstChar_large {b : UInt8} {rest after : Bytes} {c : Char} (large : 0x80 ≤ c.toNat) :
    firstChar b rest = (some c, after) ↔
      ∃ more, Heads b (more + 1) c.toNat ∧ rest = trail (more + 1) c.toNat ++ after := by
  constructor
  · intro read
    have notAscii : ¬b < 0x80 := by
      intro ascii
      rw [firstChar_of_ascii ascii, Prod.mk.injEq, Option.some.injEq] at read
      rw [UInt8.lt_iff_toNat_lt] at ascii
      rw [← read.1, toNat_of_scalar (Or.inl (Nat.lt_trans ascii (by decide)))] at large
      exact Nat.not_lt.mpr large ascii
    obtain ⟨lead, n, leads, followed, rfl⟩ := (firstChar_of_lead notAscii).mp read
    obtain ⟨more, reaches⟩ := lead_reaches leads
    have scalar := (lead_value leads (congrArg Prod.fst followed)).2
    rw [reaches.count, follow_iff reaches.above reaches.below] at followed
    rw [toNat_of_scalar scalar]
    exact ⟨more, (heads_iff scalar).mpr ⟨lead, leads, reaches.count, followed.2⟩, followed.1⟩
  · rintro ⟨more, heads, rfl⟩
    have notAscii : ¬b < 0x80 := by
      simp only [UInt8.lt_iff_toNat_lt, UInt8.reduceToNat]
      cases heads <;> omega
    obtain ⟨lead, leads, count, fits⟩ := (heads_iff (scalar_toNat c)).mp heads
    obtain ⟨_, reaches⟩ := lead_reaches leads
    refine (firstChar_of_lead notAscii).mpr ⟨lead, c.toNat, leads, ?_, Char.ofNat_toNat c⟩
    rw [count, follow_iff reaches.above reaches.below]
    exact ⟨rfl, fits⟩

/-- Bytes begin with a character where they are its own. -/
theorem firstChar_iff : firstChar b rest = (some c, after) ↔
    b :: rest = String.utf8EncodeChar c ++ after := by
  by_cases small : c.toNat < 0x80
  · obtain ⟨own, ascii, value, encoded⟩ := encode_ascii small
    rw [encoded, List.singleton_append, List.cons.injEq]
    constructor
    · intro read
      obtain rfl : own = b := (first_iff ascii value b rest).mp (by rw [read, Option.getD_some])
      rw [firstChar_of_ascii ascii] at read
      exact ⟨rfl, congrArg Prod.snd read⟩
    · rintro ⟨rfl, rfl⟩
      rw [firstChar_of_ascii ascii, value, Char.ofNat_toNat]
  · have large := Nat.not_lt.mp small
    have most : c.toNat < 0x110000 := by
      have scalar := scalar_toNat c
      omega
    rw [firstChar_large large]
    constructor
    · rintro ⟨more, heads, rfl⟩
      rw [encode_of_heads heads, List.cons_append]
    · intro whole
      obtain ⟨first, more, heads⟩ := exists_heads large most
      rw [encode_of_heads heads, List.cons_append, List.cons.injEq] at whole
      obtain ⟨rfl, rfl⟩ := whole
      exact ⟨more, heads, rfl⟩

end Encoded

theorem scalars_iff {bytes : Bytes} {text : List Char} :
    scalars bytes = text.map some ↔ bytes = text.flatMap String.utf8EncodeChar := by
  constructor
  · intro read
    fun_induction scalars bytes generalizing text with
    | case1 =>
      rw [List.map_eq_nil_iff.mp read.symm]
      rfl
    | case2 b rest ih =>
      cases text with
      | nil => cases read
      | cons c text =>
        rw [List.map_cons, List.cons.injEq] at read
        have first : firstChar b rest = (some c, (firstChar b rest).2) := Prod.ext read.1 rfl
        rw [firstChar_iff.mp first, ih read.2, List.flatMap_cons]
  · rintro rfl
    induction text with
    | nil => exact scalars_nil
    | cons c text ih =>
      rw [List.flatMap_cons]
      obtain ⟨b, more, encoded⟩ :=
        List.exists_cons_of_ne_nil (String.utf8EncodeChar_ne_nil (c := c))
      have first : firstChar b (more ++ text.flatMap String.utf8EncodeChar) = (some c, _) :=
        firstChar_iff.mpr (by rw [encoded, List.cons_append])
      rw [encoded, List.cons_append, scalars_cons, first, ih, List.map_cons]

/-- Bytes are read strictly as a text when they are its bytes. -/
theorem strict_eq_some {bytes : Bytes} {text : String} :
    strict? bytes = some text ↔ bytes = utf8 text := by
  rw [utf8, ← scalars_iff, strict?, lossy]
  constructor
  · intro read
    split at read
    · next all =>
      obtain rfl := Option.some.inj read
      have own : ∀ read ∈ scalars bytes, (some ∘ (·.getD '\uFFFD')) read = read := by
        intro read member
        obtain ⟨c, rfl⟩ := Option.isSome_iff_exists.mp (List.all_eq_true.mp all read member)
        rfl
      rw [String.toList_ofList, List.map_map, List.map_congr_left own, List.map_id']
    · cases read
  · intro read
    have own : text.toList.map ((·.getD '\uFFFD') ∘ some) = text.toList :=
      List.map_id'' (fun _ => rfl) _
    rw [read, List.map_map, own, String.ofList_toList, if_pos (by simp)]

theorem lossy_utf8 (text : String) : lossy (utf8 text) = text := by
  have read : strict? (utf8 text) = some text := strict_eq_some.mpr rfl
  rw [strict?] at read
  split at read
  · exact Option.some.inj read
  · cases read

end KotlinCompile.Text
