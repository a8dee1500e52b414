import KotlinCompile.Proofs.Kapt.Reading
import KotlinCompile.Proofs.Text.Order
import Mathlib.Data.List.Forall2

/-! The one payload of a map that is written for it. Reading takes entries in any order, keys more
than once and groups longer than they need to be; writing has one form for all of these, so a
payload comes back as it was exactly if it has that form already. -/
namespace KotlinCompile.Kapt.Payload

/-- The shortest group of a 16-bit value, except that NUL, which is no zero byte, takes two. -/
inductive ShortestGroup : Bytes → Nat → Prop where
  | nul : ShortestGroup [0xC0, 0x80] 0
  | one {x : Nat} : 0 < x → x < 0x80 → ShortestGroup [UInt8.ofNat x] x
  | two {x y : Nat} :
      x < 0x20 → y < 0x40 → 0x80 ≤ x * 0x40 + y →
      ShortestGroup [UInt8.ofNat (0xC0 + x), UInt8.ofNat (0x80 + y)] (x * 0x40 + y)
  | three {x y z : Nat} :
      x < 0x10 → y < 0x40 → z < 0x40 → 0x800 ≤ x * 0x1000 + y * 0x40 + z →
      ShortestGroup [UInt8.ofNat (0xE0 + x), UInt8.ofNat (0x80 + y), UInt8.ofNat (0x80 + z)]
        (x * 0x1000 + y * 0x40 + z)

/-- The record of a text in which each unit has its shortest group. -/
def IsShortestRecord (bytes : Bytes) (text : String) : Prop :=
  ∃ groups units, bytes = twoBytes groups.flatten.length ++ groups.flatten ∧
    groups.flatten.length < 0x10000 ∧ List.Forall₂ ShortestGroup groups units ∧
    Text.Paired units text.toList

inductive AreShortestEntries : Bytes → List (String × String) → Prop where
  | nil : AreShortestEntries [] []
  | cons {first second rest : Bytes} {key value : String} {others : List (String × String)} :
      IsShortestRecord first key → IsShortestRecord second value → AreShortestEntries rest others →
      AreShortestEntries (first ++ second ++ rest) ((key, value) :: others)

/-- A payload in shortest groups, its keys in strictly ascending order of their UTF-8 bytes. -/
def IsCanonical (bytes : Bytes) (entries : List (String × String)) : Prop :=
  entries.length < 0x80000000 ∧
    (entries.Pairwise fun entry later => Text.utf8 entry.1 < Text.utf8 later.1) ∧
    ∃ body, bytes = fourBytes entries.length ++ body ∧ AreShortestEntries body entries

theorem shortestGroup_iff {bytes : Bytes} {unit : Nat} :
    ShortestGroup bytes unit ↔ unit < 0x10000 ∧ bytes = Text.unitGroup unit := by
  unfold Text.unitGroup
  constructor
  · intro group
    cases group with
    | nul => exact ⟨by omega, rfl⟩
    | one positive short =>
      rw [if_pos (by omega)]
      exact ⟨by omega, rfl⟩
    | @two x y boundX boundY long =>
      rw [if_neg (by omega), if_pos (by omega), show (x * 0x40 + y) / 64 = x by omega,
        show (x * 0x40 + y) % 64 = y by omega]
      exact ⟨by omega, rfl⟩
    | @three x y z boundX boundY boundZ long =>
      rw [if_neg (by omega), if_neg (by omega),
        show (x * 0x1000 + y * 0x40 + z) / 4096 = x by omega,
        show (x * 0x1000 + y * 0x40 + z) / 64 % 64 = y by omega,
        show (x * 0x1000 + y * 0x40 + z) % 64 = z by omega]
      exact ⟨by omega, rfl⟩
  · rintro ⟨small, rfl⟩
    split
    · next short => exact .one (by omega) (by omega)
    · split
      · by_cases zero : unit = 0
        · subst zero
          exact .nul
        · have two := ShortestGroup.two (x := unit / 64) (y := unit % 64) (by omega) (by omega)
            (by omega)
          have value : unit / 64 * 0x40 + unit % 64 = unit := by omega
          rwa [value] at two
      · have three := ShortestGroup.three (x := unit / 4096) (y := unit / 64 % 64) (z := unit % 64)
          (by omega) (by omega) (by omega) (by omega)
        have value : unit / 4096 * 0x1000 + unit / 64 % 64 * 0x40 + unit % 64 = unit := by omega
        rwa [value] at three

theorem shortestGroups_iff {groups : List Bytes} {units : List Nat} :
    List.Forall₂ ShortestGroup groups units ↔
      (∀ unit ∈ units, unit < 0x10000) ∧ groups = units.map Text.unitGroup := by
  induction units generalizing groups with
  | nil => simp
  | cons unit rest ih =>
    rw [List.forall₂_cons_right_iff, List.forall_mem_cons, List.map_cons]
    constructor
    · rintro ⟨group, others, shortest, alike, rfl⟩
      obtain ⟨small, rfl⟩ := shortestGroup_iff.mp shortest
      obtain ⟨smaller, rfl⟩ := ih.mp alike
      exact ⟨⟨small, smaller⟩, rfl⟩
    · rintro ⟨⟨small, smaller⟩, rfl⟩
      exact ⟨_, _, shortestGroup_iff.mpr ⟨small, rfl⟩, ih.mpr ⟨smaller, rfl⟩, rfl⟩

/-- A record is written in the shortest groups, and every such record is the one that is written. -/
theorem record_eq_ok {key text : String} {bytes : Bytes} :
    record key text = .ok bytes ↔ IsShortestRecord bytes text := by
  simp only [record]
  constructor
  · intro written
    split at written <;> cases written
    next fits =>
    have small : ∀ unit ∈ text.toList.flatMap Text.units, unit < 0x10000 := by
      intro unit member
      obtain ⟨c, _, unitOfChar⟩ := List.mem_flatMap.mp member
      exact Text.unit_bound unitOfChar
    have groups := shortestGroups_iff.mpr ⟨small, rfl⟩
    have whole : ((text.toList.flatMap Text.units).map Text.unitGroup).flatten =
        Text.unitGroups text := rfl
    refine ⟨_, _, ?_, ?_, groups, (Text.paired_iff _ _).mpr rfl⟩
    · rw [whole]
    · rw [whole]
      omega
  · rintro ⟨groups, units, rfl, fits, shortest, paired⟩
    obtain ⟨_, rfl⟩ := shortestGroups_iff.mp shortest
    obtain rfl := Text.units_of_paired paired
    exact if_pos (Nat.le_of_lt_succ fits)

theorem records_eq_ok {entries : List (String × String)} {bytes : Bytes} :
    records entries = .ok bytes ↔ AreShortestEntries bytes entries := by
  induction entries generalizing bytes with
  | nil =>
    constructor
    · rintro ⟨⟩
      exact .nil
    · rintro ⟨⟩
      rfl
  | cons entry rest ih =>
    simp only [records, Fallible.bind_eq_ok, Fallible.pure_eq_ok, record_eq_ok, ih]
    constructor
    · rintro ⟨first, key, second, value, others, behind, rfl⟩
      exact .cons key value behind
    · rintro (_ | ⟨key, value, behind⟩)
      exact ⟨_, key, _, value, _, behind, rfl⟩

theorem ascending_utf8 {entries : List (String × String)} :
    (entries.Pairwise fun entry later => Text.utf8 entry.1 < Text.utf8 later.1) ↔
      entries.Pairwise (·.1 < ·.1) := by
  simp only [Text.utf8_lt_iff]

/-- What is written for a map is the canonical payload of its entries. -/
theorem write_eq_ok {options : SortedMap String} {bytes : Bytes} :
    write options = .ok bytes ↔ IsCanonical bytes options.entries := by
  have ascending := ascending_utf8.mpr options.ascending
  simp only [write]
  constructor
  · intro written
    split at written
    · next few =>
      obtain ⟨body, bodyWritten, rfl⟩ := Fallible.map_eq_ok.mp written
      exact ⟨by omega, ascending, body, rfl, records_eq_ok.mp bodyWritten⟩
    · cases written
  · rintro ⟨few, _, body, rfl, shortest⟩
    rw [if_pos (Nat.le_of_lt_succ few)]
    exact Fallible.map_eq_ok.mpr ⟨body, records_eq_ok.mpr shortest, rfl⟩

theorem encode_eq_ok {options : SortedMap String} {text : String} :
    encode options = .ok text ↔
      ∃ bytes, text.toList = Text.Base64.encode bytes ∧ IsCanonical bytes options.entries := by
  unfold encode
  rw [Fallible.map_eq_ok]
  constructor
  · rintro ⟨bytes, written, rfl⟩
    exact ⟨bytes, String.toList_ofList, write_eq_ok.mp written⟩
  · rintro ⟨bytes, spelled, canonical⟩
    exact ⟨bytes, write_eq_ok.mpr canonical, by rw [← spelled, String.ofList_toList]⟩

theorem ShortestGroup.groups {group rest : Bytes} {unit : Nat} {units : List Nat}
    (shortest : ShortestGroup group unit) (groups : Groups rest units) :
    Groups (group ++ rest) (unit :: units) := by
  cases shortest with
  | nul => exact Groups.two (x := 0) (y := 0) (by decide) (by decide) groups
  | one _ short => exact .one short groups
  | two boundX boundY _ => exact .two boundX boundY groups
  | three boundX boundY boundZ _ => exact .three boundX boundY boundZ groups

theorem groups_of_shortest {groups : List Bytes} {units : List Nat}
    (shortest : List.Forall₂ ShortestGroup groups units) : Groups groups.flatten units := by
  induction shortest with
  | nil => exact .nil
  | cons first _ ih => exact first.groups ih

theorem IsShortestRecord.isRecord {bytes : Bytes} {text : String}
    (record : IsShortestRecord bytes text) : IsRecord bytes text := by
  obtain ⟨groups, units, whole, fits, shortest, paired⟩ := record
  exact ⟨groups.flatten, units, whole, fits, groups_of_shortest shortest, paired⟩

theorem AreShortestEntries.areEntries {bytes : Bytes} {entries : List (String × String)}
    (shortest : AreShortestEntries bytes entries) : AreEntries bytes entries := by
  induction shortest with
  | nil => exact .nil
  | cons key value _ ih => exact .cons key.isRecord value.isRecord ih

theorem IsCanonical.isPayload {bytes : Bytes} {entries : List (String × String)}
    (canonical : IsCanonical bytes entries) : IsPayload bytes entries := by
  obtain ⟨few, _, body, whole, shortest⟩ := canonical
  exact ⟨few, body, whole, shortest.areEntries⟩

theorem isEncoded_of_encode {options : SortedMap String} {text : String}
    (written : encode options = .ok text) : IsEncoded text options.entries := by
  obtain ⟨bytes, spelled, canonical⟩ := encode_eq_ok.mp written
  exact ⟨bytes, by rw [spelled, Text.Base64.trim_encode], canonical.isPayload⟩

/-- A text that is decoded, with no blanks around it, is what its map is encoded as exactly if its
payload is canonical. Otherwise the map is encoded as another text, or not at all: a NUL that stood
as one byte takes two, which may be more than its record has room for. -/
theorem encode_decoded_iff {encoded : String} {options : SortedMap String}
    (bare : Text.trimmed encoded = encoded) (decoded : decode encoded = .ok options) :
    encode options = .ok encoded ↔ ∃ bytes entries,
      Text.Base64.decode? (Text.trim encoded.toList) = some bytes ∧ IsCanonical bytes entries := by
  have untrimmed : Text.trim encoded.toList = encoded.toList := by
    rw [← String.toList_ofList (l := Text.trim encoded.toList)]
    exact congrArg String.toList bare
  simp only [untrimmed, Text.Base64.decode_iff]
  constructor
  · intro written
    obtain ⟨bytes, spelled, canonical⟩ := encode_eq_ok.mp written
    exact ⟨bytes, options.entries, spelled, canonical⟩
  · rintro ⟨bytes, entries, spelled, canonical⟩
    -- The entries are a map as they stand, and the text is decoded as that map.
    have ascending := ascending_utf8.mp canonical.2.1
    have written : encode ⟨entries, ascending⟩ = .ok encoded :=
      encode_eq_ok.mpr ⟨bytes, spelled, canonical⟩
    have again := (decode_ok_iff encoded ⟨entries, ascending⟩).mpr
      ⟨entries, isEncoded_of_encode written, SortedMap.ofList_entries ⟨entries, ascending⟩⟩
    rw [again] at decoded
    cases decoded
    exact written

/-- Its keys are in the order of their bytes, which is not that of their units. -/
def supplementaryLast : SortedMap String := SortedMap.ofList [("\uffff", "\x00"), ("😀", "é")]

/-- Both entries of the map, in the order of the bytes of their keys. -/
def byBytes : String := "AAAAAgAD77+/AALAgAAG7aC97biAAALDqQ=="

def byUnits : String := "AAAAAgAG7aC97biAAALDqQAD77+/AALAgA=="

theorem order_of_bytes_kept :
    encode supplementaryLast = .ok byBytes ∧
    (∃ bytes entries, Text.Base64.decode? (Text.trim byBytes.toList) = some bytes ∧
      IsCanonical bytes entries) ∧
    decode byUnits = .ok supplementaryLast ∧
    ¬∃ bytes entries, Text.Base64.decode? (Text.trim byUnits.toList) = some bytes ∧
      IsCanonical bytes entries := by
  have bare : Text.trimmed byBytes = byBytes ∧ Text.trimmed byUnits = byUnits := by decide +kernel
  have decoded : decode byBytes = .ok supplementaryLast :=
    Fallible.toOption_eq_some.mp (by decide +kernel)
  have swapped : decode byUnits = .ok supplementaryLast :=
    Fallible.toOption_eq_some.mp (by decide +kernel)
  have written : encode supplementaryLast = .ok byBytes :=
    Fallible.toOption_eq_some.mp (by decide +kernel)
  refine ⟨written, (encode_decoded_iff bare.1 decoded).mp written, swapped, fun canonical => ?_⟩
  have kept := (encode_decoded_iff bare.2 swapped).mpr canonical
  rw [written] at kept
  exact absurd (Except.ok.inj kept) (by decide +kernel)

/-- Every map that can be encoded comes back whole, whatever characters its texts hold. -/
theorem decode_encoded (options : SortedMap String) (text : String)
    (written : encode options = .ok text) : decode text = .ok options :=
  (decode_ok_iff text options).mpr
    ⟨options.entries, isEncoded_of_encode written, SortedMap.ofList_entries options⟩

-- The texts stand on both sides of every bound: NUL, the end of the two-byte groups, a surrogate pair.
def boundaries : SortedMap String :=
  SortedMap.ofList [("nul\x00", "\u007f\u0080"), ("\u07ff\u0800", "\uffff😀"), ("", "")]

theorem boundaries_decoded :
    encode boundaries = .ok "AAAAAwAAAAAABW51bMCAAAN/woAABd+/4KCAAAnvv7/toL3tuIA=" ∧
      decode "AAAAAwAAAAAABW51bMCAAAN/woAABd+/4KCAAAnvv7/toL3tuIA=" = .ok boundaries := by
  have written := Fallible.toOption_eq_some.mp
    (show (encode boundaries).toOption =
      some "AAAAAwAAAAAABW51bMCAAAN/woAABd+/4KCAAAnvv7/toL3tuIA=" by decide +kernel)
  exact ⟨written, decode_encoded boundaries _ written⟩

end KotlinCompile.Kapt.Payload
