import KotlinCompile.Proofs.Fallible
import KotlinCompile.Proofs.Kapt.Reading
import KotlinCompile.Proofs.Text.Utf16

/-! Records behind what was written before them. The groups of a text are pushed unit by unit apart
from the output, and they are counted before any of them goes there; so a text that is refused leaves
the output as it was. -/
namespace KotlinCompile.Kapt.Payload
open Fallible

/-- The groups of some units behind those that were pushed before. -/
def pushGroups : Bytes → List UInt16 → Bytes
  | pushed, [] => pushed
  | pushed, word :: rest => pushGroups (pushed ++ Text.wordGroup word) rest

def groupsOf (text : String) : Bytes := pushGroups [] (Text.words text)

/-- The low 16 bits of a number in two bytes. -/
def lowBytes (n : Nat) : Bytes :=
  let word := UInt16.ofNat n
  [(word >>> 8).toUInt8, word.toUInt8]

/-- Work on an output, which stays as the work leaves it when it fails. -/
abbrev OnOutput := ExceptT Error (StateM Bytes) Unit

def extend (bytes : Bytes) : OnOutput := modify (· ++ bytes)

def append (key text : String) : OnOutput := do
  let groups := groupsOf text
  if 65535 < groups.length then throw ⟨key, .tooLong groups.length⟩
  extend (lowBytes groups.length)
  extend groups

def appendEntries : List (String × String) → OnOutput
  | [] => pure ()
  | (key, value) :: rest => do
    append key key
    append key value
    appendEntries rest

def appendMap (options : SortedMap String) : OnOutput := do
  let count := options.entries.length
  if 2147483647 < count then throw ⟨"", .tooManyEntries count⟩
  extend (fourBytes count)
  appendEntries options.entries

theorem pushGroups_eq (pushed : Bytes) (words : List UInt16) :
    pushGroups pushed words = pushed ++ words.flatMap Text.wordGroup := by
  induction words generalizing pushed with
  | nil => simp [pushGroups]
  | cons word rest ih => simp [pushGroups, ih]

theorem groupsOf_eq (text : String) : groupsOf text = Text.unitGroups text := by
  simp [groupsOf, pushGroups_eq, Text.wordGroups_eq]

theorem groupsOf_append (text more : String) :
    groupsOf (text ++ more) = groupsOf text ++ groupsOf more := by
  simp [groupsOf_eq, Text.unitGroups_eq]

theorem exists_lowBytes {n : Nat} (small : n < 0x10000) : ∃ high low : UInt8,
    twoBytes n = [high, low] ∧ lowBytes n = [high, low] ∧ high.toNat * 256 + low.toNat = n := by
  have value := Text.toNat_word small
  have shifted : (UInt16.ofNat n >>> 8).toNat = n / 256 := Text.toNat_shifted value 8 (by decide)
  have high : (UInt16.ofNat n >>> 8).toUInt8 = UInt8.ofNat (n / 256) := by
    apply UInt8.toNat_inj.mp
    rw [UInt16.toNat_toUInt8, shifted, UInt8.toNat_ofNat']
  have low : (UInt16.ofNat n).toUInt8 = UInt8.ofNat (n % 256) := by
    apply UInt8.toNat_inj.mp
    rw [UInt16.toNat_toUInt8, value, UInt8.toNat_ofNat', Nat.mod_mod]
  refine ⟨UInt8.ofNat (n / 256), UInt8.ofNat (n % 256), rfl, ?_, ?_⟩
  · simp only [lowBytes, high, low]
  · rw [toNat_byte (by omega), toNat_byte (by omega)]
    omega

theorem record_groupsOf (key text : String) : record key text =
    if (groupsOf text).length ≤ 65535 then .ok (twoBytes (groupsOf text).length ++ groupsOf text)
    else .error ⟨key, .tooLong (groupsOf text).length⟩ := by
  rw [groupsOf_eq]
  rfl

/-- A record goes to the end of the output as a whole, or the output stays as it is. -/
theorem append_apply (key text : String) (out : Bytes) : append key text out =
    match record key text with
    | .ok bytes => (.ok (), out ++ bytes)
    | .error error => (.error error, out) := by
  rw [record_groupsOf, append]
  by_cases fits : (groupsOf text).length ≤ 65535
  · obtain ⟨high, low, written, counted, _⟩ := exists_lowBytes (Nat.lt_succ_of_le fits)
    rw [if_pos fits, if_neg (by omega), written, counted]
    exact congrArg (Except.ok (), ·) (List.append_assoc ..)
  · rw [if_neg fits, if_pos (by omega)]
    rfl

/-- The work adds the bytes of the result to any output; or it fails as the result does, and what
was there before is still the front of the output. -/
structure Appends (work : OnOutput) (result : Except Error Bytes) : Prop where
  passed : ∀ bytes, result = .ok bytes → ∀ out, work out = (.ok (), out ++ bytes)
  failed : ∀ error, result = .error error → ∀ out, ∃ more, work out = (.error error, out ++ more)

theorem appends_extend (bytes : Bytes) : Appends (extend bytes) (.ok bytes) := by
  constructor
  · rintro _ ⟨⟩ out
    rfl
  · rintro _ ⟨⟩

theorem appends_record (key text : String) : Appends (append key text) (record key text) := by
  constructor
  · intro bytes written out
    rw [append_apply, written]
  · intro error refused out
    refine ⟨[], ?_⟩
    rw [append_apply, refused, List.append_nil]

theorem Appends.behind {first second : OnOutput} {front back : Except Error Bytes}
    (appendsFront : Appends first front) (appendsBack : Appends second back) :
    Appends (first >>= fun _ => second) (front >>= fun bytes => (bytes ++ ·) <$> back) := by
  constructor
  · intro whole passed out
    obtain ⟨bytes, rfl, passed⟩ := bind_eq_ok.mp passed
    obtain ⟨others, rfl, rfl⟩ := map_eq_ok.mp passed
    rw [bind_apply, appendsFront.passed _ rfl]
    simp only [appendsBack.passed _ rfl, List.append_assoc]
  · intro error failed out
    rcases bind_eq_error.mp failed with rfl | ⟨bytes, rfl, failed⟩
    · obtain ⟨more, stopped⟩ := appendsFront.failed _ rfl out
      exact ⟨more, by rw [bind_apply, stopped]⟩
    · cases back with
      | ok others => cases failed
      | error fault =>
        cases failed
        obtain ⟨more, stopped⟩ := appendsBack.failed _ rfl (out ++ bytes)
        refine ⟨bytes ++ more, ?_⟩
        rw [bind_apply, appendsFront.passed _ rfl]
        simp only [stopped, List.append_assoc]

theorem appends_entries (entries : List (String × String)) :
    Appends (appendEntries entries) (records entries) := by
  induction entries with
  | nil =>
    constructor
    · rintro _ ⟨⟩ out
      exact congrArg (Except.ok (), ·) (List.append_nil out).symm
    · rintro _ ⟨⟩
  | cons entry rest ih =>
    obtain ⟨key, value⟩ := entry
    have whole : records ((key, value) :: rest) = record key key >>= fun first =>
        (first ++ ·) <$> (record key value >>= fun second => (second ++ ·) <$> records rest) := by
      rw [records]
      cases record key key with
      | error error => rfl
      | ok first =>
        cases record key value with
        | error error => rfl
        | ok second =>
          cases records rest with
          | error error => rfl
          | ok others => exact congrArg Except.ok (List.append_assoc ..)
    rw [whole]
    exact (appends_record key key).behind ((appends_record key value).behind ih)

/-- What is written for a map is what is appended for it, record by record. -/
theorem appends_map (options : SortedMap String) : Appends (appendMap options) (write options) := by
  simp only [appendMap, write]
  by_cases few : options.entries.length ≤ 2147483647
  · rw [if_pos few, if_neg (by omega)]
    exact (appends_extend _).behind (appends_entries options.entries)
  · rw [if_neg few, if_pos (by omega)]
    refine ⟨nofun, fun error refused out => ⟨[], ?_⟩⟩
    cases refused
    rw [List.append_nil]
    rfl

/-- The bytes that are pushed for a text are those of its characters, one after the other; none of
them is zero or announces a group of four, and texts that are put together give the bytes of both.
Behind what was written before they are appended with their number in front of them; or they are too
many for two bytes to count, and nothing is appended. -/
theorem append_exact (key text : String) (out : Bytes) :
    let groups := groupsOf text
    groups = text.toList.flatMap Text.charBytes ∧
    (∀ byte ∈ groups, 0x00 < byte ∧ byte < 0xF0) ∧
    (∀ more, groupsOf (text ++ more) = groups ++ groupsOf more) ∧
    (groups.length ≤ 65535 → ∃ high low : UInt8, high.toNat * 256 + low.toNat = groups.length ∧
      record key text = .ok (high :: low :: groups) ∧
      append key text out = (.ok (), out ++ high :: low :: groups)) ∧
    (65535 < groups.length →
      record key text = .error ⟨key, .tooLong groups.length⟩ ∧
      append key text out = (.error ⟨key, .tooLong groups.length⟩, out)) := by
  intro groups
  have same : groups = Text.unitGroups text := groupsOf_eq text
  refine ⟨?_, ?_, groupsOf_append text, ?_, ?_⟩
  · rw [same, Text.unitGroups_eq]
  · rw [same]
    exact Text.byte_of_unitGroups text
  · intro fits
    obtain ⟨high, low, two, _, counted⟩ := exists_lowBytes (Nat.lt_succ_of_le fits)
    have written : record key text = .ok (high :: low :: groups) := by
      rw [record_groupsOf, if_pos fits, two]
      rfl
    exact ⟨high, low, counted, written, by rw [append_apply, written]⟩
  · intro exceeds
    have refused : record key text = .error ⟨key, .tooLong groups.length⟩ := by
      rw [record_groupsOf, if_neg (Nat.not_le.mpr exceeds)]
    exact ⟨refused, by rw [append_apply, refused]⟩

-- NUL, both sides of the bounds of the short groups, and a surrogate pair.
example : groupsOf "\x00\x7f\u0080\u07ff\u0800😀" = [0xC0, 0x80, 0x7F, 0xC2, 0x80, 0xDF, 0xBF,
    0xE0, 0xA0, 0x80, 0xED, 0xA0, 0xBD, 0xED, 0xB8, 0x80] := by
  decide +kernel

end KotlinCompile.Kapt.Payload
