import KotlinCompile.Text.Character
import KotlinCompile.Text.Encoding

/-! Base64 reads exactly what it writes. Both directions go by groups of four digits: three bytes
have the same bits as four values below 64, and padding stands only for bits that are zero. -/
namespace KotlinCompile.Text.Base64

theorem value_digit : ∀ value < 64, value? (digit value) = some value := by decide +kernel

theorem digit_plain (value : Nat) : digit value ≠ '=' ∧ isBlank (digit value) = false := by
  have inside : ∀ v < 64, digit v ≠ '=' ∧ isBlank (digit v) = false := by decide +kernel
  by_cases small : value < 64
  · exact inside value small
  · have count : alphabet.length = 64 := by decide +kernel
    have outside : alphabet[value]? = none := List.getElem?_eq_none (by omega)
    rw [digit, List.getD_eq_getElem?_getD, outside]
    decide +kernel

theorem char_between {low c high : Char} (above : low ≤ c) (below : c ≤ high) :
    ∃ value, value ≤ high.toNat - low.toNat ∧ c.toNat - low.toNat = value ∧
      c = Char.ofNat (low.toNat + value) := by
  have lower : low.toNat ≤ c.toNat := above
  have upper : c.toNat ≤ high.toNat := below
  refine ⟨c.toNat - low.toNat, by omega, rfl, ?_⟩
  rw [Nat.add_sub_cancel' lower, Char.ofNat_toNat]

/-- Only a digit has a value, and it is the digit of that value. -/
theorem digit_of_value {c : Char} {value : Nat} (read : value? c = some value) :
    value < 64 ∧ digit value = c := by
  have upper : ∀ v ≤ 25, digit v = Char.ofNat (65 + v) := by decide +kernel
  have lower : ∀ v ≤ 25, digit (v + 26) = Char.ofNat (97 + v) := by decide +kernel
  have decimal : ∀ v ≤ 9, digit (v + 52) = Char.ofNat (48 + v) := by decide +kernel
  unfold value? at read
  split at read
  · next inside =>
    obtain ⟨v, small, same, rfl⟩ := char_between inside.1 inside.2
    rw [same] at read
    have bound : v ≤ 25 := small
    obtain rfl : v = value := Option.some.inj read
    exact ⟨by omega, upper v bound⟩
  split at read
  · next inside =>
    obtain ⟨v, small, same, rfl⟩ := char_between inside.1 inside.2
    rw [same] at read
    cases read
    have bound : v ≤ 25 := small
    exact ⟨by omega, lower v bound⟩
  split at read
  · next inside =>
    obtain ⟨v, small, same, rfl⟩ := char_between inside.1 inside.2
    rw [same] at read
    cases read
    have bound : v ≤ 9 := small
    exact ⟨by omega, decimal v bound⟩
  split at read
  · next plus => cases read; subst plus; decide +kernel
  split at read
  · next slash => cases read; subst slash; decide +kernel
  · cases read

/-- Four digits that end in none of the padding are read as three bytes. -/
theorem decode_group (c d e f : Char) (rest : List Char) (plain : f ≠ '=') :
    decode? (c :: d :: e :: f :: rest) = (do
      let w ← value? c
      let x ← value? d
      let y ← value? e
      let z ← value? f
      let bytes ← decode? rest
      some (firstByte w x :: secondByte x y :: thirdByte y z :: bytes)) := by
  rw [decode?]
  · exact fun _ padding _ => plain padding
  · exact fun padding _ => plain padding

theorem decode_triple (c d e : Char) (plain : e ≠ '=') :
    decode? [c, d, e, '='] = (do
      let w ← value? c
      let x ← value? d
      let y ← value? e
      if y % 4 = 0 then some [firstByte w x, secondByte x y] else none) := by
  rw [decode?]
  exact plain

/-- The bits of three bytes, in four values and back. -/
theorem bytes_of_quartet (a b c : UInt8) :
    firstByte (a.toNat / 4) (a.toNat % 4 * 16 + b.toNat / 16) = a ∧
      secondByte (a.toNat % 4 * 16 + b.toNat / 16) (b.toNat % 16 * 4 + c.toNat / 64) = b ∧
      thirdByte (b.toNat % 16 * 4 + c.toNat / 64) (c.toNat % 64) = c := by
  have boundA := a.toNat_lt
  have boundB := b.toNat_lt
  have boundC := c.toNat_lt
  refine ⟨UInt8.toNat_inj.mp ?_, UInt8.toNat_inj.mp ?_, UInt8.toNat_inj.mp ?_⟩ <;>
    simp only [firstByte, secondByte, thirdByte, UInt8.toNat_ofNat'] <;> omega

theorem quartet_of_bytes {w x y z : Nat} (boundW : w < 64) (boundX : x < 64) (boundY : y < 64)
    (boundZ : z < 64) :
    quartet (firstByte w x) (secondByte x y) (thirdByte y z) =
      [digit w, digit x, digit y, digit z] := by
  simp only [quartet, firstByte, secondByte, thirdByte, UInt8.toNat_ofNat']
  have first : (w * 4 + x / 16) % 2 ^ 8 / 4 = w := by omega
  have second : (w * 4 + x / 16) % 2 ^ 8 % 4 * 16 + (x % 16 * 16 + y / 4) % 2 ^ 8 / 16 = x := by omega
  have third : (x % 16 * 16 + y / 4) % 2 ^ 8 % 16 * 4 + (y % 4 * 64 + z) % 2 ^ 8 / 64 = y := by omega
  have fourth : (y % 4 * 64 + z) % 2 ^ 8 % 64 = z := by omega
  rw [first, second, third, fourth]

theorem decode_encode (bytes : Bytes) : decode? (encode bytes) = some bytes := by
  induction bytes using encode.induct with
  | case1 => rfl
  | case2 a =>
    have boundA := a.toNat_lt
    obtain ⟨backA, -, -⟩ := bytes_of_quartet a 0 0
    have first := value_digit (a.toNat / 4) (by omega)
    have second := value_digit (a.toNat % 4 * 16) (by omega)
    have idle : a.toNat % 4 * 16 % 16 = 0 := by omega
    simp_all [encode, quartet, decode?]
  | case3 a b =>
    have boundA := a.toNat_lt
    have boundB := b.toNat_lt
    obtain ⟨backA, backB, -⟩ := bytes_of_quartet a b 0
    have first := value_digit (a.toNat / 4) (by omega)
    have second := value_digit (a.toNat % 4 * 16 + b.toNat / 16) (by omega)
    have third := value_digit (b.toNat % 16 * 4) (by omega)
    have idle : b.toNat % 16 * 4 % 4 = 0 := by omega
    have plain := (digit_plain (b.toNat % 16 * 4)).1
    have padded := decode_triple (digit (a.toNat / 4))
      (digit (a.toNat % 4 * 16 + b.toNat / 16)) _ plain
    simp_all [encode, quartet]
  | case4 a b c rest ih =>
    have boundA := a.toNat_lt
    have boundB := b.toNat_lt
    have boundC := c.toNat_lt
    obtain ⟨backA, backB, backC⟩ := bytes_of_quartet a b c
    have first := value_digit (a.toNat / 4) (by omega)
    have second := value_digit (a.toNat % 4 * 16 + b.toNat / 16) (by omega)
    have third := value_digit (b.toNat % 16 * 4 + c.toNat / 64) (by omega)
    have fourth := value_digit (c.toNat % 64) (by omega)
    simp only [encode, quartet, List.cons_append, List.nil_append]
    rw [decode_group _ _ _ _ _ (digit_plain _).1, first, second, third, fourth, ih]
    simp [backA, backB, backC]

/-- What is read is the written form of what it is read as. The cases are those of the padding:
the values it leaves out are zero, so the last group is that of the missing bytes as zeros. -/
theorem eq_encode_of_decode {text : List Char} {bytes : Bytes}
    (read : decode? text = some bytes) : text = encode bytes := by
  induction text using decode?.induct generalizing bytes with
  | case1 => cases read; rfl
  | case2 c d =>
    simp only [decode?, Option.bind_eq_bind, Option.bind_eq_some_iff] at read
    obtain ⟨w, readW, x, readX, made⟩ := read
    obtain ⟨boundW, rfl⟩ := digit_of_value readW
    obtain ⟨boundX, rfl⟩ := digit_of_value readX
    split at made
    · next idle =>
      cases made
      have second : secondByte x 0 = 0 := by simp [secondByte, idle]
      have third : thirdByte 0 0 = 0 := rfl
      have group := quartet_of_bytes boundW boundX (y := 0) (z := 0) (by decide) (by decide)
      rw [second, third] at group
      simp [encode, group]
    · cases made
  | case3 c d e unpadded =>
    rw [decode_triple c d e unpadded] at read
    simp only [Option.bind_eq_bind, Option.bind_eq_some_iff] at read
    obtain ⟨w, readW, x, readX, y, readY, made⟩ := read
    obtain ⟨boundW, rfl⟩ := digit_of_value readW
    obtain ⟨boundX, rfl⟩ := digit_of_value readX
    obtain ⟨boundY, rfl⟩ := digit_of_value readY
    split at made
    · next idle =>
      cases made
      have third : thirdByte y 0 = 0 := by simp [thirdByte, idle]
      have group := quartet_of_bytes boundW boundX boundY (z := 0) (by decide)
      rw [third] at group
      simp [encode, group]
    · cases made
  | case4 c d e f rest unpaddedPair unpaddedTriple ih =>
    rw [decode?] at read
    · simp only [Option.bind_eq_bind, Option.bind_eq_some_iff] at read
      obtain ⟨w, readW, x, readX, y, readY, z, readZ, others, readRest, made⟩ := read
      obtain ⟨boundW, rfl⟩ := digit_of_value readW
      obtain ⟨boundX, rfl⟩ := digit_of_value readX
      obtain ⟨boundY, rfl⟩ := digit_of_value readY
      obtain ⟨boundZ, rfl⟩ := digit_of_value readZ
      cases made
      simp [encode, quartet_of_bytes boundW boundX boundY boundZ, ih readRest]
    · exact unpaddedPair
    · exact unpaddedTriple
  | case5 text h1 h2 h3 h4 =>
    rw [decode?] at read
    · cases read
    all_goals assumption

theorem decode_iff (text : List Char) (bytes : Bytes) :
    decode? text = some bytes ↔ text = encode bytes :=
  ⟨eq_encode_of_decode, fun written => written ▸ decode_encode bytes⟩

theorem encode_not_blank (bytes : Bytes) : ∀ c ∈ encode bytes, isBlank c = false := by
  have padding : isBlank '=' = false := by decide +kernel
  have plain (value : Nat) := (digit_plain value).2
  induction bytes using encode.induct with
  | case1 => simp [encode]
  | case2 a => simp [encode, quartet, plain, padding]
  | case3 a b => simp [encode, quartet, plain, padding]
  | case4 a b c rest ih =>
    simp only [encode, quartet, List.cons_append, List.nil_append, List.forall_mem_cons, plain]
    exact ⟨trivial, trivial, trivial, trivial, ih⟩

/-- No blanks stand around a written text, so taking them off its ends leaves it as it is. -/
theorem trim_encode (bytes : Bytes) : trim (encode bytes) = encode bytes :=
  trim_of_not_blank (encode_not_blank bytes)

end KotlinCompile.Text.Base64
