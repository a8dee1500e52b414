import KotlinCompile.Error
import KotlinCompile.Proofs.Kapt.Reading
import KotlinCompile.Proofs.Text.Order
import Mathlib.Algebra.GroupWithZero.Nat

/-! How long the record of a text gets, and which texts are too long for one. The length is told by
the characters; it is compared before it is written in two bytes, so it is never cut to fit them. -/
namespace KotlinCompile.Kapt.Payload
open Fallible

/-- The bytes that a character takes in a record: NUL takes two, and a supplementary character three
for each of its units. -/
def width (c : Char) : Nat :=
  if 0x01 ≤ c.toNat ∧ c.toNat ≤ 0x7F then 1
  else if c.toNat ≤ 0x7FF then 2
  else if c.toNat ≤ 0xFFFF then 3
  else 6

def lengthOf (text : String) : Nat := (text.toList.map width).sum

theorem length_unitGroup (unit : Nat) : (Text.unitGroup unit).length =
    if 0x01 ≤ unit ∧ unit ≤ 0x7F then 1 else if unit ≤ 0x7FF then 2 else 3 := by
  unfold Text.unitGroup
  split
  · rfl
  · split <;> rfl

theorem length_groups_units (c : Char) :
    ((Text.units c).flatMap Text.unitGroup).length = width c := by
  unfold Text.units width
  split
  · next basic =>
    rw [List.flatMap_singleton, length_unitGroup, if_pos (show c.toNat ≤ 0xFFFF by omega)]
  · next supplementary =>
    -- both surrogates lie above the two-byte groups
    rw [List.flatMap_cons, List.flatMap_singleton, List.length_append, length_unitGroup,
      length_unitGroup]
    repeat rw [if_neg (by omega)]

theorem length_unitGroups (text : String) : (Text.unitGroups text).length = lengthOf text := by
  unfold Text.unitGroups lengthOf
  rw [List.flatMap_assoc, List.length_flatMap]
  exact congrArg List.sum (List.map_congr_left fun c _ => length_groups_units c)

/-- What the text of an option is refused for. -/
def excess? (key text : String) : Option Error :=
  if 65535 < lengthOf text then some ⟨key, .tooLong (lengthOf text)⟩ else none

/-- What an entry is refused for; its key is looked at before its value. -/
def entryExcess? (entry : String × String) : Option Error :=
  (excess? entry.1 entry.1).or (excess? entry.1 entry.2)

theorem excess_eq_none {key text : String} : excess? key text = none ↔ lengthOf text ≤ 65535 := by
  unfold excess?
  split
  · next exceeds => exact iff_of_false nofun (Nat.not_le.mpr exceeds)
  · next fits => exact iff_of_true rfl (Nat.not_lt.mp fits)

theorem excess_eq_some {key text : String} {error : Error} : excess? key text = some error ↔
    65535 < lengthOf text ∧ error = ⟨key, .tooLong (lengthOf text)⟩ := by
  unfold excess?
  split
  · next exceeds => rw [Option.some.injEq, eq_comm, and_iff_right exceeds]
  · next fits => exact iff_of_false nofun fun both => fits both.1

theorem entryExcess_eq_none {entry : String × String} : entryExcess? entry = none ↔
    lengthOf entry.1 ≤ 65535 ∧ lengthOf entry.2 ≤ 65535 := by
  rw [entryExcess?, Option.or_eq_none_iff, excess_eq_none, excess_eq_none]

theorem entryExcess_eq_some {entry : String × String} {error : Error}
    (refused : entryExcess? entry = some error) :
    (65535 < lengthOf entry.1 ∨ 65535 < lengthOf entry.2) ∧ error = ⟨entry.1, .tooLong
      (if 65535 < lengthOf entry.1 then lengthOf entry.1 else lengthOf entry.2)⟩ := by
  rcases Option.or_eq_some_iff.mp refused with key | ⟨fits, value⟩
  · obtain ⟨exceeds, rfl⟩ := excess_eq_some.mp key
    exact ⟨Or.inl exceeds, by rw [if_pos exceeds]⟩
  · obtain ⟨exceeds, rfl⟩ := excess_eq_some.mp value
    exact ⟨Or.inr exceeds, by rw [if_neg (Nat.not_lt.mpr (excess_eq_none.mp fits))]⟩

theorem fault_record (key text : String) : fault? (record key text) = excess? key text := by
  simp only [record, length_unitGroups]
  by_cases fits : lengthOf text ≤ 65535
  · rw [if_pos fits, excess_eq_none.mpr fits]
    rfl
  · rw [if_neg fits, excess_eq_some.mpr ⟨Nat.not_le.mp fits, rfl⟩]
    rfl

/-- A record that is written begins with the length of its text. -/
theorem length_of_record {key text : String} {bytes : Bytes} (written : record key text = .ok bytes) :
    bigEndian (bytes.take 2) = lengthOf text ∧ bytes.length = 2 + lengthOf text := by
  simp only [record, length_unitGroups] at written
  split at written <;> cases written
  next fits =>
  constructor
  · exact bigEndian_twoBytes (Nat.lt_succ_of_le fits)
  · rw [List.length_append, length_unitGroups]
    rfl

-- The entries are written one after the other, so the first that is refused is the one named.
theorem fault_records (entries : List (String × String)) :
    fault? (records entries) = entries.findSome? entryExcess? := by
  induction entries with
  | nil => rfl
  | cons entry rest ih =>
    obtain ⟨key, value⟩ := entry
    have behind (first second : Bytes) : fault? (records rest >>= fun others =>
        (pure (first ++ second ++ others) : Except Error Bytes)) = rest.findSome? entryExcess? := by
      have none (others : Bytes) :
        fault? (pure (first ++ second ++ others) : Except Error Bytes) = none := rfl
      rw [fault_bind none, ih, Option.or_none]
    have written : fault? (records ((key, value) :: rest)) = (fault? (record key key)).or
        ((fault? (record key value)).or (rest.findSome? entryExcess?)) :=
      fault_bind fun first => fault_bind fun second => behind first second
    rw [written, fault_record, fault_record, ← Option.or_assoc, List.findSome?_cons, entryExcess?]
    cases (excess? key key).or (excess? key value) <;> rfl

theorem fault_encode {options : SortedMap String} (few : options.entries.length ≤ 2147483647) :
    fault? (encode options) = options.entries.findSome? entryExcess? := by
  unfold encode write
  simp only [if_pos few, fault_map, fault_records]

theorem message_tooLong (key : String) (length : Nat) :
    (BuildError.optionEncoding ⟨key, .tooLong length⟩).message =
      "Cannot encode option '" ++ key ++ "': encoded length " ++ toString length ++
        " exceeds 65535 bytes" := by
  have spelled : (BuildError.optionEncoding ⟨key, .tooLong length⟩).message =
      "Cannot encode option '" ++ key ++ "': " ++
        ("encoded length " ++ toString length ++ " exceeds 65535 bytes") := rfl
  have joined : "': encoded length " = "': " ++ "encoded length " := by decide
  rw [spelled, joined]
  simp only [String.append_assoc]

/-- Among ascending entries the first that is refused is the one with the smallest key. -/
theorem first_excess {entries : List (String × String)} {error : Error}
    (ascending : entries.Pairwise (·.1 < ·.1)) (found : entries.findSome? entryExcess? = some error) :
    ∃ entry ∈ entries, entryExcess? entry = some error ∧
      ∀ other ∈ entries, entryExcess? other ≠ none → other = entry ∨ entry.1 < other.1 := by
  obtain ⟨before, entry, after, rfl, refused, passed⟩ := List.findSome?_eq_some_iff.mp found
  refine ⟨entry, List.mem_append_right _ List.mem_cons_self, refused, fun other member exceeds => ?_⟩
  rcases List.mem_append.mp member with earlier | later
  · exact absurd (passed other earlier) exceeds
  · rcases List.mem_cons.mp later with same | behind
    · exact Or.inl same
    · exact Or.inr ((List.pairwise_cons.mp (List.pairwise_append.mp ascending).2.1).1 other behind)

/-- A map with as many entries as can be counted is encoded exactly if each key and each value fits
into its record. Otherwise the error names, in the order of the bytes, the smallest key that does
not fit or whose value does not, with the whole length of the text that is too long, the key's if it
is; and in front of each record that is written stands its whole length. -/
theorem encode_exact (options : SortedMap String) (few : options.entries.length ≤ 2147483647) :
    ((∃ text, encode options = .ok text) ↔ ∀ key value, options.get? key = some value →
      lengthOf key ≤ 65535 ∧ lengthOf value ≤ 65535) ∧
    (∀ error, (encode options).mapError BuildError.optionEncoding = .error error →
      ∃ key value, options.get? key = some value ∧
        (65535 < lengthOf key ∨ 65535 < lengthOf value) ∧
        (∀ other held, options.get? other = some held →
          65535 < lengthOf other ∨ 65535 < lengthOf held →
            other = key ∨ Text.utf8 key < Text.utf8 other) ∧
        let length := if 65535 < lengthOf key then lengthOf key else lengthOf value
        error = .optionEncoding ⟨key, .tooLong length⟩ ∧
        error.message = "Cannot encode option '" ++ key ++ "': encoded length " ++ toString length ++
          " exceeds 65535 bytes") ∧
    (∀ key text bytes, record key text = .ok bytes →
      bigEndian (bytes.take 2) = lengthOf text ∧ bytes.length = 2 + lengthOf text) := by
  have faults := fault_encode few
  refine ⟨?_, ?_, fun key text bytes => length_of_record⟩
  · have passed : (∃ text, encode options = .ok text) ↔ fault? (encode options) = none := by
      cases encode options <;> simp [fault?]
    rw [passed, faults, List.findSome?_eq_none_iff]
    constructor
    · intro fits key value held
      exact entryExcess_eq_none.mp (fits (key, value) ((options.mem_entries key value).mpr held))
    · intro fits entry member
      exact entryExcess_eq_none.mpr (fits entry.1 entry.2 ((options.mem_entries entry.1 entry.2).mp member))
  · intro error failed
    cases encoded : encode options with
    | ok text =>
      rw [encoded] at failed
      cases failed
    | error refusal =>
      rw [encoded] at failed faults
      cases failed
      obtain ⟨⟨key, value⟩, member, refused, smallest⟩ := first_excess options.ascending faults.symm
      obtain ⟨exceeds, rfl⟩ := entryExcess_eq_some refused
      refine ⟨key, value, (options.mem_entries key value).mp member, exceeds, ?_, rfl,
        message_tooLong key _⟩
      · intro other held holds tooLong
        have counts : entryExcess? (other, held) ≠ none := fun none => by
          have fits := entryExcess_eq_none.mp none
          exact tooLong.elim (Nat.not_lt.mpr fits.1) (Nat.not_lt.mpr fits.2)
        rcases smallest _ ((options.mem_entries other held).mpr holds) counts with same | above
        · exact Or.inl (congrArg Prod.fst same)
        · exact Or.inr (Text.utf8_lt above)

/-- So many supplementary characters, and some text behind them. -/
def supplementary (count : Nat) (text : String) : String :=
  String.ofList (List.replicate count '😀' ++ text.toList)

theorem lengthOf_supplementary (count : Nat) (text : String) :
    lengthOf (supplementary count text) = 6 * count + lengthOf text := by
  have each : width '😀' = 6 := by decide
  rw [lengthOf, supplementary, String.toList_ofList, List.map_append, List.sum_append,
    List.map_replicate, List.sum_replicate_nat, each, Nat.mul_comm, lengthOf]

/-- The value of the first key fills its record to the last byte; the other one has a NUL more. -/
def brimful : SortedMap String where
  entries := [("a", supplementary 10922 "abc"), ("b", supplementary 10922 "abc\x00")]
  ascending := List.pairwise_pair.mpr (show "a" < "b" by decide)

theorem brimful_refused :
    (encode brimful).mapError BuildError.optionEncoding =
      .error (.optionEncoding ⟨"b", .tooLong 65537⟩) := by
  have fits : lengthOf (supplementary 10922 "abc") = 65535 := by
    rw [lengthOf_supplementary]
    decide
  have exceeds : lengthOf (supplementary 10922 "abc\x00") = 65537 := by
    rw [lengthOf_supplementary]
    decide
  have keys : lengthOf "a" = 1 ∧ lengthOf "b" = 1 := by decide
  obtain ⟨passes, fails, _⟩ := encode_exact brimful (by decide)
  have refused : ¬∃ text, encode brimful = .ok text := fun encoded => by
    have all := passes.mp encoded "b" _ rfl
    omega
  cases encoded : encode brimful with
  | ok text => exact absurd ⟨text, encoded⟩ refused
  | error refusal =>
    have failed : (encode brimful).mapError BuildError.optionEncoding =
        .error (.optionEncoding refusal) := by rw [encoded]; rfl
    obtain ⟨key, value, held, tooLong, _, same, _⟩ := fails _ failed
    have member : (key, value) ∈ brimful.entries := (brimful.mem_entries key value).mpr held
    rcases List.mem_cons.mp member with first | second
    · cases first
      omega
    · cases List.mem_singleton.mp second
      rw [keys.2, exceeds] at same
      exact congrArg Except.error same

end KotlinCompile.Kapt.Payload
