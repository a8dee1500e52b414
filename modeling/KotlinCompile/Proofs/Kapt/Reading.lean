import KotlinCompile.Error
import KotlinCompile.Kapt.Payload
import KotlinCompile.Proofs.Fallible
import KotlinCompile.Proofs.SortedMap
import KotlinCompile.Proofs.Text.Base64
import KotlinCompile.Proofs.Text.Utf16

/-! The form of a payload, and that reading accepts exactly the bytes of this form. Each reader is
compared with the part of the grammar it reads, from any cursor: what it accepts stands at the
cursor, and it is passed over as a whole. -/
namespace KotlinCompile.Kapt.Payload

/-- Bytes that split into groups, and the 16-bit values of the groups. A group is one of 0xxxxxxx,
110xxxxx 10xxxxxx and 1110xxxx 10xxxxxx 10xxxxxx; a longer one than its value needs is a group too. -/
inductive Groups : Bytes → List Nat → Prop where
  | nil : Groups [] []
  | one {x : Nat} {rest : Bytes} {units : List Nat} :
      x < 0x80 → Groups rest units → Groups (UInt8.ofNat x :: rest) (x :: units)
  | two {x y : Nat} {rest : Bytes} {units : List Nat} :
      x < 0x20 → y < 0x40 → Groups rest units →
      Groups (UInt8.ofNat (0xC0 + x) :: UInt8.ofNat (0x80 + y) :: rest) ((x * 0x40 + y) :: units)
  | three {x y z : Nat} {rest : Bytes} {units : List Nat} :
      x < 0x10 → y < 0x40 → z < 0x40 → Groups rest units →
      Groups (UInt8.ofNat (0xE0 + x) :: UInt8.ofNat (0x80 + y) :: UInt8.ofNat (0x80 + z) :: rest)
        ((x * 0x1000 + y * 0x40 + z) :: units)

/-- The bytes of one text: their number in two bytes, and then the groups of well-formed UTF-16. -/
def IsRecord (bytes : Bytes) (text : String) : Prop :=
  ∃ groups units, bytes = twoBytes groups.length ++ groups ∧ groups.length < 0x10000 ∧
    Groups groups units ∧ Text.Paired units text.toList

/-- The bytes of entries in their order, the record of the key before that of the value. -/
inductive AreEntries : Bytes → List (String × String) → Prop where
  | nil : AreEntries [] []
  | cons {first second rest : Bytes} {key value : String} {others : List (String × String)} :
      IsRecord first key → IsRecord second value → AreEntries rest others →
      AreEntries (first ++ second ++ rest) ((key, value) :: others)

/-- The bytes of a whole payload: the number of entries, which no sign bit makes negative, the
entries, and nothing more. -/
def IsPayload (bytes : Bytes) (entries : List (String × String)) : Prop :=
  entries.length < 0x80000000 ∧
    ∃ body, bytes = fourBytes entries.length ++ body ∧ AreEntries body entries

/-- The text of a payload: its Base64, perhaps with blanks around it. -/
def IsEncoded (encoded : String) (entries : List (String × String)) : Prop :=
  ∃ bytes, Text.trim encoded.toList = Text.Base64.encode bytes ∧ IsPayload bytes entries

theorem group_value_small {bytes : Bytes} {units : List Nat} (groups : Groups bytes units) :
    ∀ unit ∈ units, unit < 0x10000 := by
  induction groups with
  | nil => simp
  | one boundX _ ih => exact List.forall_mem_cons.mpr ⟨by omega, ih⟩
  | two boundX boundY _ ih => exact List.forall_mem_cons.mpr ⟨by omega, ih⟩
  | three boundX boundY boundZ _ ih => exact List.forall_mem_cons.mpr ⟨by omega, ih⟩

theorem byte_of_bits (byte : UInt8) {n : Nat} (small : n < 0x100) (same : byte.toNat = n) :
    byte = UInt8.ofNat n := by
  apply UInt8.toNat_inj.mp
  rw [same, UInt8.toNat_ofNat', Nat.mod_eq_of_lt small]

theorem toNat_byte {n : Nat} (small : n < 0x100) : (UInt8.ofNat n).toNat = n := by
  rw [UInt8.toNat_ofNat', Nat.mod_eq_of_lt small]

theorem continuation_bits {byte : UInt8} (continues : isContinuation byte = true) :
    byte = UInt8.ofNat (0x80 + byte.toNat % 64) := by
  have bits : byte.toNat / 64 = 2 := by simpa [isContinuation] using continues
  exact byte_of_bits _ (by omega) (by omega)

theorem continuation_byte {y : Nat} (small : y < 0x40) :
    isContinuation (UInt8.ofNat (0x80 + y)) = true := by
  simp only [isContinuation, toNat_byte (show 0x80 + y < 0x100 by omega), beq_iff_eq]
  omega

theorem readUnits_one {first : UInt8} (short : first.toNat < 0x80) (rest : Bytes) :
    readUnits (first :: rest) = (first.toNat :: ·) <$> readUnits rest := by
  cases rest <;> simp [readUnits, short]

theorem readUnits_two {first second : UInt8} (lead : first.toNat / 32 = 6)
    (continues : isContinuation second = true) (rest : Bytes) :
    readUnits (first :: second :: rest) =
      ((first.toNat % 32 * 64 + second.toNat % 64) :: ·) <$> readUnits rest := by
  have long : ¬first.toNat < 0x80 := by omega
  simp [readUnits, long, lead, continues]

theorem readUnits_three {first second third : UInt8} (lead : first.toNat / 16 = 14)
    (continues : (isContinuation second && isContinuation third) = true) (rest : Bytes) :
    readUnits (first :: second :: third :: rest) =
      ((first.toNat % 16 * 4096 + second.toNat % 64 * 64 + third.toNat % 64) :: ·) <$>
        readUnits rest := by
  have long : ¬first.toNat < 0x80 := by omega
  have notTwo : ¬first.toNat / 32 = 6 := by omega
  simp [readUnits, long, notTwo, lead, continues]

theorem groups_of_readUnits {bytes : Bytes} {units : List Nat}
    (read : readUnits bytes = .ok units) : Groups bytes units := by
  induction bytes using readUnits.induct generalizing units with
  | case1 => cases read; exact .nil
  | case2 first rest short ih =>
    rw [readUnits_one short] at read
    obtain ⟨others, readOthers, rfl⟩ := Fallible.map_eq_ok.mp read
    have group := Groups.one (x := first.toNat) (by omega) (ih readOthers)
    rwa [UInt8.ofNat_toNat] at group
  | case3 first long lead second rest continues ih =>
    have bits : first.toNat / 32 = 6 := beq_iff_eq.mp lead
    rw [readUnits_two bits continues] at read
    obtain ⟨others, readOthers, rfl⟩ := Fallible.map_eq_ok.mp read
    have group := Groups.two (x := first.toNat % 32) (y := second.toNat % 64) (by omega) (by omega)
      (ih readOthers)
    rwa [← continuation_bits continues,
      ← byte_of_bits first (n := 0xC0 + first.toNat % 32) (by omega) (by omega)] at group
  | case4 first long lead second rest stops => simp [readUnits, long, lead, stops] at read
  | case5 first long lead => simp [readUnits, long, lead] at read
  | case6 first long notTwo lead second third rest continues ih =>
    have bits : first.toNat / 16 = 14 := beq_iff_eq.mp lead
    have ⟨continuesSecond, continuesThird⟩ := (Bool.and_eq_true _ _).mp continues
    rw [readUnits_three bits continues] at read
    obtain ⟨others, readOthers, rfl⟩ := Fallible.map_eq_ok.mp read
    have group := Groups.three (x := first.toNat % 16) (y := second.toNat % 64)
      (z := third.toNat % 64) (by omega) (by omega) (by omega) (ih readOthers)
    rwa [← continuation_bits continuesSecond, ← continuation_bits continuesThird,
      ← byte_of_bits first (n := 0xE0 + first.toNat % 16) (by omega) (by omega)] at group
  | case7 first long notTwo lead second third rest stops =>
    simp [readUnits, long, notTwo, lead, stops] at read
  | case8 first rest long notTwo lead ends =>
    match rest with
    | [] => simp [readUnits, long, notTwo, lead] at read
    | [second] => simp [readUnits, long, notTwo, lead] at read
    | second :: third :: others => exact (ends second third others rfl).elim
  | case9 first rest long notTwo notThree =>
    cases rest <;> simp [readUnits, long, notTwo, notThree] at read

theorem readUnits_of_groups {bytes : Bytes} {units : List Nat} (groups : Groups bytes units) :
    readUnits bytes = .ok units := by
  induction groups with
  | nil => rfl
  | @one x rest units boundX _ ih =>
    have value : (UInt8.ofNat x).toNat = x := toNat_byte (by omega)
    rw [readUnits_one (by omega), ih, value]
    rfl
  | @two x y rest units boundX boundY _ ih =>
    have lead : (UInt8.ofNat (0xC0 + x)).toNat = 0xC0 + x := toNat_byte (by omega)
    have value : (UInt8.ofNat (0x80 + y)).toNat = 0x80 + y := toNat_byte (by omega)
    rw [readUnits_two (by omega) (continuation_byte boundY), ih, lead, value,
      show (0xC0 + x) % 32 = x by omega, show (0x80 + y) % 64 = y by omega]
    rfl
  | @three x y z rest units boundX boundY boundZ _ ih =>
    have lead : (UInt8.ofNat (0xE0 + x)).toNat = 0xE0 + x := toNat_byte (by omega)
    have second : (UInt8.ofNat (0x80 + y)).toNat = 0x80 + y := toNat_byte (by omega)
    have third : (UInt8.ofNat (0x80 + z)).toNat = 0x80 + z := toNat_byte (by omega)
    have continues : (isContinuation (UInt8.ofNat (0x80 + y)) &&
        isContinuation (UInt8.ofNat (0x80 + z))) = true := by
      rw [continuation_byte boundY, continuation_byte boundZ]
      rfl
    rw [readUnits_three (by omega) continues, ih, lead, second, third,
      show (0xE0 + x) % 16 = x by omega, show (0x80 + y) % 64 = y by omega,
      show (0x80 + z) % 64 = z by omega]
    rfl

theorem readUnits_iff (bytes : Bytes) (units : List Nat) :
    readUnits bytes = .ok units ↔ Groups bytes units :=
  ⟨groups_of_readUnits, readUnits_of_groups⟩

theorem bigEndian_twoBytes {n : Nat} (small : n < 0x10000) : bigEndian (twoBytes n) = n := by
  have high : (UInt8.ofNat (n / 256)).toNat = n / 256 := toNat_byte (by omega)
  have low : (UInt8.ofNat (n % 256)).toNat = n % 256 := toNat_byte (by omega)
  simp only [bigEndian, twoBytes, List.foldl_cons, List.foldl_nil, high, low]
  omega

theorem twoBytes_bigEndian {bytes : Bytes} (two : bytes.length = 2) :
    bigEndian bytes < 0x10000 ∧ twoBytes (bigEndian bytes) = bytes := by
  match bytes, two with
  | [a, b], _ =>
    have boundA := a.toNat_lt
    have boundB := b.toNat_lt
    simp only [bigEndian, twoBytes, List.foldl_cons, List.foldl_nil]
    refine ⟨by omega, ?_⟩
    rw [← byte_of_bits a (by omega) (by omega),
      ← byte_of_bits b (by omega) (by omega)]

theorem bigEndian_fourBytes {n : Nat} (small : n < 0x100000000) : bigEndian (fourBytes n) = n := by
  have first : (UInt8.ofNat (n / 65536 / 256)).toNat = n / 65536 / 256 := toNat_byte (by omega)
  have second : (UInt8.ofNat (n / 65536 % 256)).toNat = n / 65536 % 256 := toNat_byte (by omega)
  have third : (UInt8.ofNat (n % 65536 / 256)).toNat = n % 65536 / 256 := toNat_byte (by omega)
  have fourth : (UInt8.ofNat (n % 65536 % 256)).toNat = n % 65536 % 256 := toNat_byte (by omega)
  simp only [bigEndian, fourBytes, twoBytes, List.cons_append, List.nil_append, List.foldl_cons,
    List.foldl_nil, first, second, third, fourth]
  omega

theorem fourBytes_bigEndian {bytes : Bytes} (four : bytes.length = 4) :
    bigEndian bytes < 0x100000000 ∧ fourBytes (bigEndian bytes) = bytes := by
  match bytes, four with
  | [a, b, c, d], _ =>
    have boundA := a.toNat_lt
    have boundB := b.toNat_lt
    have boundC := c.toNat_lt
    have boundD := d.toNat_lt
    simp only [bigEndian, fourBytes, twoBytes, List.cons_append, List.nil_append, List.foldl_cons,
      List.foldl_nil]
    refine ⟨by omega, ?_⟩
    rw [← byte_of_bits a (by omega) (by omega),
      ← byte_of_bits b (by omega) (by omega),
      ← byte_of_bits c (by omega) (by omega),
      ← byte_of_bits d (by omega) (by omega)]

/-- Reading passed over the bytes, from the one cursor to the other. -/
def Passes (cursor : Cursor) (bytes : Bytes) (after : Cursor) : Prop :=
  cursor.rest = bytes ++ after.rest ∧ after.offset = cursor.offset + bytes.length

theorem passes_append (cursor after : Cursor) (first second : Bytes) :
    Passes cursor (first ++ second) after ↔
      ∃ middle, Passes cursor first middle ∧ Passes middle second after := by
  constructor
  · rintro ⟨rest, offset⟩
    rw [List.length_append] at offset
    refine ⟨⟨cursor.offset + first.length, second ++ after.rest⟩, ⟨?_, rfl⟩, rfl, ?_⟩
    · rw [rest, List.append_assoc]
    · rw [offset, Nat.add_assoc]
  · rintro ⟨middle, ⟨rest, offset⟩, restAfter, offsetAfter⟩
    refine ⟨?_, ?_⟩
    · rw [rest, restAfter, List.append_assoc]
    · rw [offsetAfter, offset, List.length_append, Nat.add_assoc]

theorem take_iff (n : Nat) (cursor after : Cursor) (bytes : Bytes) :
    cursor.take n = .ok (bytes, after) ↔ bytes.length = n ∧ Passes cursor bytes after := by
  unfold Cursor.take
  constructor
  · intro read
    split at read
    · next fits =>
      cases read
      have width : (cursor.rest.take n).length = n := List.length_take_of_le fits
      exact ⟨width, (List.take_append_drop n cursor.rest).symm, by rw [width]⟩
    · cases read
  · rintro ⟨rfl, rest, offset⟩
    have fits : bytes.length ≤ cursor.rest.length := by rw [rest]; simp
    obtain ⟨place, left⟩ := after
    simp only at rest offset
    rw [if_pos fits, rest, List.take_left, List.drop_left, offset]

/-- A text is read where a record of it stands, and the record is all that is passed over. -/
theorem readText_iff (cursor after : Cursor) (text : String) :
    readText cursor = .ok (text, after) ↔
      ∃ bytes, IsRecord bytes text ∧ Passes cursor bytes after := by
  constructor
  · intro read
    simp only [readText, Fallible.bind_eq_ok] at read
    obtain ⟨⟨length, middle⟩, readLength, ⟨groups, last⟩, readGroups, units, readValues, made⟩ := read
    obtain ⟨width, passedLength⟩ := (take_iff ..).mp readLength
    obtain ⟨count, passedGroups⟩ := (take_iff ..).mp readGroups
    obtain ⟨small, written⟩ := twoBytes_bigEndian width
    have split := (readUnits_iff ..).mp readValues
    split at made
    · next chars readChars =>
      cases made
      refine ⟨length ++ groups, ⟨groups, units, ?_, ?_, split, ?_⟩, ?_⟩
      · rw [count, written]
      · rw [count]
        exact small
      · rw [String.toList_ofList]
        exact (Text.ofUnits_iff (group_value_small split) chars).mp readChars
      · exact (passes_append ..).mpr ⟨middle, passedLength, passedGroups⟩
    · cases made
  · rintro ⟨bytes, ⟨groups, units, rfl, small, split, paired⟩, passed⟩
    obtain ⟨middle, passedLength, passedGroups⟩ := (passes_append ..).mp passed
    have readLength := (take_iff 2 ..).mpr ⟨rfl, passedLength⟩
    have readGroups := (take_iff groups.length ..).mpr ⟨rfl, passedGroups⟩
    have readChars := (Text.ofUnits_iff (group_value_small split) _).mpr paired
    have readValues := (readUnits_iff ..).mpr split
    simp only [readText, readLength, bigEndian_twoBytes small, readGroups, readValues, readChars,
      bind, Except.bind]
    rw [String.ofList_toList]
    rfl

theorem readEntries_iff (count : Nat) (cursor after : Cursor) (entries : List (String × String)) :
    readEntries count cursor = .ok (entries, after) ↔
      entries.length = count ∧ ∃ bytes, AreEntries bytes entries ∧ Passes cursor bytes after := by
  induction count generalizing cursor after entries with
  | zero =>
    constructor
    · intro read
      cases read
      exact ⟨rfl, [], .nil, rfl, rfl⟩
    · rintro ⟨none, bytes, written, rest, offset⟩
      obtain rfl := List.length_eq_zero_iff.mp none
      cases written
      obtain ⟨place, left⟩ := after
      simp only [List.nil_append, List.length_nil, Nat.add_zero] at rest offset
      rw [readEntries, ← rest, offset]
  | succ count ih =>
    constructor
    · intro read
      simp only [readEntries, Fallible.bind_eq_ok, Fallible.pure_eq_ok] at read
      obtain ⟨⟨key, behindKey⟩, readKey, ⟨value, behindValue⟩, readValue, ⟨others, last⟩, readOthers,
        made⟩ := read
      cases made
      obtain ⟨first, firstRecord, passedKey⟩ := (readText_iff ..).mp readKey
      obtain ⟨second, secondRecord, passedValue⟩ := (readText_iff ..).mp readValue
      obtain ⟨length, rest, written, passedRest⟩ := (ih ..).mp readOthers
      refine ⟨congrArg Nat.succ length, _, .cons firstRecord secondRecord written, ?_⟩
      have passedEntry := (passes_append ..).mpr ⟨behindKey, passedKey, passedValue⟩
      exact (passes_append ..).mpr ⟨behindValue, passedEntry, passedRest⟩
    · rintro ⟨length, bytes, written, passed⟩
      cases written with
      | nil => cases length
      | @cons first second rest key value others firstRecord secondRecord written =>
        obtain ⟨behindValue, passedEntry, passedRest⟩ := (passes_append ..).mp passed
        obtain ⟨behindKey, passedKey, passedValue⟩ := (passes_append ..).mp passedEntry
        have readKey := (readText_iff ..).mpr ⟨first, firstRecord, passedKey⟩
        have readValue := (readText_iff ..).mpr ⟨second, secondRecord, passedValue⟩
        have readOthers := (ih ..).mpr ⟨Nat.succ.inj length, rest, written, passedRest⟩
        simp only [readEntries, readKey, readValue, readOthers, bind, Except.bind]
        rfl

theorem signed_below {n : Nat} (below : n < 0x80000000) :
    ¬signed n < 0 ∧ (signed n).toNat = n := by
  unfold signed
  rw [if_pos below]
  omega

theorem below_of_signed {n : Nat} (small : n < 0x100000000) (positive : ¬signed n < 0) :
    n < 0x80000000 := by
  unfold signed at positive
  split at positive <;> omega

/-- Behind a count that is not negative so many entries are read, and nothing may follow them. -/
theorem readAll_counted {count : Nat} (small : count < 0x80000000) (rest : Bytes) :
    readAll (fourBytes count ++ rest) = readEntries count ⟨4, rest⟩ >>= fun read =>
      if read.2.rest.length ≠ 0 then .error (.trailing read.2.rest.length count)
      else .ok read.1 := by
  have readHead : Cursor.take 4 ⟨0, fourBytes count ++ rest⟩ = .ok (fourBytes count, ⟨4, rest⟩) :=
    (take_iff ..).mpr ⟨rfl, rfl, rfl⟩
  have ⟨positive, value⟩ := signed_below small
  have counted : bigEndian (fourBytes count) = count := bigEndian_fourBytes (by omega)
  simp only [readAll, readHead, bind, Except.bind, counted, positive, if_false, value]
  cases readEntries count ⟨4, rest⟩ with
  | error fault => rfl
  | ok read => by_cases left : read.2.rest.length = 0 <;> simp [left] <;> rfl

/-- Bytes are read as some entries exactly if they are the payload of them. -/
theorem readAll_iff (bytes : Bytes) (entries : List (String × String)) :
    readAll bytes = .ok entries ↔ IsPayload bytes entries := by
  constructor
  · intro read
    simp only [readAll, Fallible.bind_eq_ok] at read
    obtain ⟨⟨head, behindHead⟩, readHead, read⟩ := read
    obtain ⟨width, passedHead⟩ := (take_iff ..).mp readHead
    obtain ⟨small, written⟩ := fourBytes_bigEndian width
    split at read
    · cases read
    · next positive =>
      have bound := below_of_signed small positive
      have count := (signed_below bound).2
      simp only [count, Fallible.bind_eq_ok] at read
      obtain ⟨⟨found, last⟩, readFound, ended⟩ := read
      obtain ⟨length, body, areEntries, passedBody⟩ := (readEntries_iff ..).mp readFound
      split at ended
      · cases ended
      · next nothing =>
        cases ended
        have nothingLeft : last.rest = [] := by simpa using nothing
        have whole : bytes = head ++ behindHead.rest := passedHead.1
        refine ⟨by rw [length]; exact bound, body, ?_, areEntries⟩
        rw [length, written, whole, passedBody.1, nothingLeft, List.append_nil]
  · rintro ⟨bound, body, rfl, areEntries⟩
    have passedBody : Passes ⟨4, body⟩ body ⟨4 + body.length, []⟩ := ⟨(List.append_nil body).symm, rfl⟩
    have readBody := (readEntries_iff entries.length ..).mpr ⟨rfl, body, areEntries, passedBody⟩
    rw [readAll_counted bound, readBody]
    rfl

theorem decode_ok_iff (encoded : String) (options : SortedMap String) :
    decode encoded = .ok options ↔
      ∃ entries, IsEncoded encoded entries ∧ SortedMap.ofList entries = options := by
  simp only [decode, Fallible.mapError_eq_ok]
  constructor
  · intro decoded
    split at decoded
    · next bytes readBytes =>
      obtain ⟨entries, readEntries, made⟩ := Fallible.map_eq_ok.mp decoded
      exact ⟨entries, ⟨bytes, (Text.Base64.decode_iff ..).mp readBytes, (readAll_iff ..).mp readEntries⟩,
        made⟩
    · cases decoded
  · rintro ⟨entries, ⟨bytes, written, payload⟩, made⟩
    rw [(Text.Base64.decode_iff ..).mpr written]
    exact Fallible.map_eq_ok.mpr ⟨entries, (readAll_iff ..).mpr payload, made⟩

theorem decode_error (encoded : String) :
    (∃ options, decode encoded = .ok options) ∨ ∃ fault, decode encoded = .error ⟨"", fault⟩ :=
  Fallible.mapError_cases _ _

/-- A text is decoded exactly if it is the written form of a payload. The map then holds under each
key the value that stands last, and otherwise the error names no option. -/
theorem decode_exact (encoded : String) :
    ((∃ options, decode encoded = .ok options) ↔ ∃ entries, IsEncoded encoded entries) ∧
      (∀ entries, IsEncoded encoded entries →
        ∃ options, decode encoded = .ok options ∧
          ∀ key, options.get? key = entries.reverse.lookup key) ∧
      ((¬∃ entries, IsEncoded encoded entries) →
        ∃ fault, (decode encoded).mapError BuildError.optionEncoding =
          .error (.optionEncoding ⟨"", fault⟩)) := by
  have accepted : (∃ options, decode encoded = .ok options) ↔ ∃ entries, IsEncoded encoded entries := by
    constructor
    · rintro ⟨options, decoded⟩
      obtain ⟨entries, written, _⟩ := (decode_ok_iff ..).mp decoded
      exact ⟨entries, written⟩
    · rintro ⟨entries, written⟩
      exact ⟨_, (decode_ok_iff ..).mpr ⟨entries, written, rfl⟩⟩
  refine ⟨accepted, ?_, ?_⟩
  · intro entries written
    exact ⟨.ofList entries, (decode_ok_iff ..).mpr ⟨entries, written, rfl⟩, SortedMap.get_ofList entries⟩
  · intro unwritten
    rcases decode_error encoded with decoded | ⟨fault, failed⟩
    · exact (unwritten (accepted.mp decoded)).elim
    · exact ⟨fault, by rw [failed]; rfl⟩

end KotlinCompile.Kapt.Payload
