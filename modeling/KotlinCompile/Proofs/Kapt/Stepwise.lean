import KotlinCompile.Kapt.Payload
import KotlinCompile.Proofs.Fallible

/-! Reading a payload by places. The bytes stay whole and a reading goes through them in single steps:
it holds how many bytes it took, and inside of a record the index of the next group. A slice, a byte
or a difference is had where there is one, and elsewhere the step is trapped. No step is: the ways to
make one are told, and each keeps the reading within the bytes, with at least four of them behind it
for each entry. -/
namespace KotlinCompile.Kapt.Payload
variable {α : Type} {bytes : Bytes} {offset : Nat}

/-- An operation on arguments that it is not defined for. -/
inductive Trap where
  | slice (start stop length : Nat)
  | width (length room : Nat)
  | index (index length : Nat)
  | difference (whole part : Nat)
deriving DecidableEq

def slice (bytes : Bytes) (start stop : Nat) : Except Trap Bytes :=
  if start ≤ stop ∧ stop ≤ bytes.length then .ok ((bytes.take stop).drop start)
  else .error (.slice start stop bytes.length)

def byteAt (bytes : Bytes) (index : Nat) : Except Trap UInt8 :=
  match bytes[index]? with
  | some byte => .ok byte
  | none => .error (.index index bytes.length)

def difference (whole part : Nat) : Except Trap Nat :=
  if part ≤ whole then .ok (whole - part) else .error (.difference whole part)

/-- The next `n` bytes and the offset behind them, or a fault and the offset as it is. -/
def takeAt (bytes : Bytes) (n offset : Nat) : Except Trap (Except Fault Bytes × Nat) :=
  if offset + n ≤ bytes.length then do
    let taken ← slice bytes offset (offset + n)
    return (.ok taken, offset + n)
  else return (.error (.truncated offset), offset)

/-- The number in the next `n` bytes, which are copied into room for exactly so many. -/
def takeNumber (bytes : Bytes) (n offset : Nat) : Except Trap (Except Fault Nat × Nat) := do
  match ← takeAt bytes n offset with
  | (.ok taken, offset) =>
    if taken.length = n then return (.ok (bigEndian taken), offset)
    else throw (.width taken.length n)
  | (.error fault, offset) => return (.error fault, offset)

/-- The bits of a byte that goes on with a group, if there is one. -/
def continuation : Option UInt8 → Except Fault Nat
  | some byte => if isContinuation byte then .ok (byte.toNat % 64) else .error .malformedContinuation
  | none => .error .malformedContinuation

/-- The unit of a group and its width, from its first byte and the two behind that. -/
def groupOf (first : UInt8) (second? third? : Option UInt8) : Except Fault (Nat × Nat) :=
  if first.toNat < 0x80 then .ok (first.toNat, 1)
  else if first.toNat / 32 = 6 then do
    let second ← continuation second?
    return (first.toNat % 32 * 64 + second, 2)
  else if first.toNat / 16 = 14 then do
    let second ← continuation second?
    let third ← continuation third?
    return (first.toNat % 16 * 4096 + second * 64 + third, 3)
  else .error (.malformedByte first)

/-- The group that begins at an index. Behind the last byte it finds none to go on with. -/
def groupAt (data : Bytes) (index : Nat) : Except Trap (Except Fault (Nat × Nat)) := do
  let first ← byteAt data index
  return groupOf first data[index + 1]? data[index + 2]?

def textOfUnits (units : List Nat) : Except Fault String :=
  match Text.ofUnits? units with
  | some text => .ok (String.ofList text)
  | none => .error .loneSurrogate

/-- What a reading does next, with what it has at hand for that. The key of an entry is there as soon
as the value is to be read. -/
inductive Stage where
  | counting
  | counted (n : Nat)
  | looping
  | measuring (key? : Option String)
  | taking (key? : Option String) (length : Nat)
  | splitting (key? : Option String) (data : Bytes) (index : Nat) (units : List Nat)
  | ended (result : Except Fault (SortedMap String))

namespace Stage

/-- How many bytes are taken at a stage where some are. -/
def takes? : Stage → Option Nat
  | counting => some 4
  | measuring _ => some 2
  | taking _ length => some length
  | _ => none

/-- The least number of bytes in front of a stage, besides four for each complete entry: those of the
count, and those of the lengths in the entry that is being read. -/
def least : Stage → Nat
  | counting | ended _ => 0
  | counted _ | looping => 4
  | measuring key? => 4 + key?.elim 0 fun _ => 2
  | taking key? _ | splitting key? .. => 6 + key?.elim 0 fun _ => 2

end Stage

structure Reading where
  offset : Nat := 0
  count : Nat := 0
  completed : Nat := 0
  options : SortedMap String := ∅
  stage : Stage := .counting

namespace Reading

def orEnd (reading : Reading) (found : Except Fault α) (next : α → Reading) : Reading :=
  match found with
  | .ok a => next a
  | .error fault => { reading with stage := .ended (.error fault) }

def receive (reading : Reading) (key? : Option String) (text : String) : Reading :=
  match key? with
  | none => { reading with stage := .measuring (some text) }
  | some key => { reading with
      completed := reading.completed + 1
      options := reading.options.insert key text
      stage := .looping }

def step (bytes : Bytes) (reading : Reading) : Except Trap Reading :=
  match reading.stage with
  | .counting => do
    let (number, offset) ← takeNumber bytes 4 reading.offset
    let reading := { reading with offset }
    return reading.orEnd number fun n => { reading with stage := .counted n }
  | .counted n =>
    if signed n < 0 then return { reading with stage := .ended (.error (.negativeCount (signed n))) }
    else return { reading with count := (signed n).toNat, stage := .looping }
  | .looping =>
    if reading.completed < reading.count then return { reading with stage := .measuring none }
    else if reading.offset ≠ bytes.length then do
      let extra ← difference bytes.length reading.offset
      return { reading with stage := .ended (.error (.trailing extra reading.count)) }
    else return { reading with stage := .ended (.ok reading.options) }
  | .measuring key? => do
    let (length, offset) ← takeNumber bytes 2 reading.offset
    let reading := { reading with offset }
    return reading.orEnd length fun length => { reading with stage := .taking key? length }
  | .taking key? length => do
    let (data, offset) ← takeAt bytes length reading.offset
    let reading := { reading with offset }
    return reading.orEnd data fun data => { reading with stage := .splitting key? data 0 [] }
  | .splitting key? data index units =>
    if index < data.length then do
      let group ← groupAt data index
      return reading.orEnd group fun (unit, width) =>
        { reading with stage := .splitting key? data (index + width) (units ++ [unit]) }
    else return reading.orEnd (textOfUnits units) (reading.receive key?)
  | .ended _ => return reading

end Reading

/-- Some bytes stand at an offset of all bytes. -/
def Stands (bytes : Bytes) (offset : Nat) (taken : Bytes) : Prop :=
  ∃ front back, bytes = front ++ taken ++ back ∧ front.length = offset

theorem Stands.inside {taken : Bytes} (stands : Stands bytes offset taken) :
    offset + taken.length ≤ bytes.length := by
  obtain ⟨front, back, rfl, rfl⟩ := stands
  simp

theorem exists_front {index : Nat} (inside : index ≤ bytes.length) :
    ∃ front rest, bytes = front ++ rest ∧ front.length = index :=
  ⟨bytes.take index, bytes.drop index, (List.take_append_drop index bytes).symm,
    List.length_take_of_le inside⟩

theorem takeAt_cases (inside : offset ≤ bytes.length) (n : Nat) :
    (∃ taken, Stands bytes offset taken ∧ taken.length = n ∧
      takeAt bytes n offset = .ok (.ok taken, offset + n)) ∨
    bytes.length < offset + n ∧ takeAt bytes n offset = .ok (.error (.truncated offset), offset) := by
  obtain ⟨front, rest, rfl, rfl⟩ := exists_front inside
  by_cases enough : n ≤ rest.length
  · left
    obtain ⟨taken, back, rfl, rfl⟩ := exists_front enough
    have sliced : slice (front ++ (taken ++ back)) front.length (front.length + taken.length) =
        .ok taken := by simp [slice, List.drop_take]
    refine ⟨taken, ⟨front, back, (List.append_assoc ..).symm, rfl⟩, rfl, ?_⟩
    rw [takeAt, sliced]
    exact if_pos (by simp)
  · right
    have short : (front ++ rest).length < front.length + n := by
      rw [List.length_append]
      omega
    exact ⟨short, if_neg (Nat.not_le.mpr short)⟩

theorem takeNumber_cases (inside : offset ≤ bytes.length) (n : Nat) :
    (∃ taken, Stands bytes offset taken ∧ taken.length = n ∧
      takeNumber bytes n offset = .ok (.ok (bigEndian taken), offset + n)) ∨
    bytes.length < offset + n ∧
      takeNumber bytes n offset = .ok (.error (.truncated offset), offset) := by
  rcases takeAt_cases inside n with ⟨taken, stands, rfl, found⟩ | ⟨short, failed⟩
  · left
    refine ⟨taken, stands, rfl, ?_⟩
    rw [takeNumber, found]
    exact if_pos rfl
  · right
    refine ⟨short, ?_⟩
    rw [takeNumber, failed]
    rfl

theorem groupAt_inside {data : Bytes} {index : Nat} (inside : index < data.length) :
    groupAt data index = .ok (groupOf data[index] data[index + 1]? data[index + 2]?) := by
  rw [groupAt, byteAt, List.getElem?_eq_getElem inside]
  rfl

theorem isSome_of_continuation {byte? : Option UInt8} {bits : Nat}
    (found : continuation byte? = .ok bits) : byte?.isSome := by
  cases byte? with
  | none => cases found
  | some byte => rfl

theorem width_of_groupOf {data : Bytes} {index unit width : Nat} {first : UInt8}
    (inside : index < data.length)
    (found : groupOf first data[index + 1]? data[index + 2]? = .ok (unit, width)) :
    1 ≤ width ∧ width ≤ 3 ∧ index + width ≤ data.length := by
  have there {more bits : Nat} (goesOn : continuation data[index + more]? = .ok bits) :
      index + more < data.length := by
    simpa using isSome_of_continuation goesOn
  unfold groupOf at found
  split at found
  · cases found
    exact ⟨Nat.le_refl 1, by decide, inside⟩
  split at found
  · obtain ⟨second, isSecond, ⟨⟩⟩ := Fallible.bind_eq_ok.mp found
    exact ⟨by decide, by decide, there isSecond⟩
  split at found
  · obtain ⟨second, isSecond, found⟩ := Fallible.bind_eq_ok.mp found
    obtain ⟨third, isThird, ⟨⟩⟩ := Fallible.bind_eq_ok.mp found
    exact ⟨by decide, Nat.le_refl 3, there isThird⟩
  · cases found

/-- The ways to make a step. Bytes are taken, or there are too few and the offset stays; the count is
a number or it is negative; there is another entry, or the bytes have to end; a group is passed over,
or the text is made where the groups end, unless one is malformed. -/
inductive Moves (bytes : Bytes) (reading : Reading) : Reading → Prop where
  | truncated {n : Nat} (takes : reading.stage.takes? = some n)
      (short : bytes.length < reading.offset + n) :
      Moves bytes reading { reading with stage := .ended (.error (.truncated reading.offset)) }
  | head {taken : Bytes} (stage : reading.stage = .counting)
      (stands : Stands bytes reading.offset taken) (four : taken.length = 4) :
      Moves bytes reading
        { reading with offset := reading.offset + 4, stage := .counted (bigEndian taken) }
  | length {key? : Option String} {taken : Bytes} (stage : reading.stage = .measuring key?)
      (stands : Stands bytes reading.offset taken) (two : taken.length = 2) :
      Moves bytes reading
        { reading with offset := reading.offset + 2, stage := .taking key? (bigEndian taken) }
  | data {key? : Option String} {length : Nat} {data : Bytes}
      (stage : reading.stage = .taking key? length)
      (stands : Stands bytes reading.offset data) (whole : data.length = length) :
      Moves bytes reading
        { reading with offset := reading.offset + length, stage := .splitting key? data 0 [] }
  | negative {n : Nat} (stage : reading.stage = .counted n) (negative : signed n < 0) :
      Moves bytes reading { reading with stage := .ended (.error (.negativeCount (signed n))) }
  | begin {n : Nat} (stage : reading.stage = .counted n) (natural : ¬signed n < 0) :
      Moves bytes reading { reading with count := (signed n).toNat, stage := .looping }
  | entry (stage : reading.stage = .looping) (more : reading.completed < reading.count) :
      Moves bytes reading { reading with stage := .measuring none }
  | trailing (stage : reading.stage = .looping) (all : ¬reading.completed < reading.count)
      (left : reading.offset ≠ bytes.length) :
      Moves bytes reading { reading with
        stage := .ended (.error (.trailing (bytes.length - reading.offset) reading.count)) }
  | finish (stage : reading.stage = .looping) (all : ¬reading.completed < reading.count)
      (none : reading.offset = bytes.length) :
      Moves bytes reading { reading with stage := .ended (.ok reading.options) }
  | group {key? : Option String} {data : Bytes} {index unit width : Nat} {units : List Nat}
      (stage : reading.stage = .splitting key? data index units) (inside : index < data.length)
      (found : groupOf data[index] data[index + 1]? data[index + 2]? = .ok (unit, width)) :
      Moves bytes reading
        { reading with stage := .splitting key? data (index + width) (units ++ [unit]) }
  | malformed {key? : Option String} {data : Bytes} {index : Nat} {units : List Nat} {fault : Fault}
      (stage : reading.stage = .splitting key? data index units) (inside : index < data.length)
      (found : groupOf data[index] data[index + 1]? data[index + 2]? = .error fault) :
      Moves bytes reading { reading with stage := .ended (.error fault) }
  | text {key? : Option String} {data : Bytes} {index : Nat} {units : List Nat} {text : String}
      (stage : reading.stage = .splitting key? data index units) (whole : data.length ≤ index)
      (made : textOfUnits units = .ok text) :
      Moves bytes reading (reading.receive key? text)
  | lone {key? : Option String} {data : Bytes} {index : Nat} {units : List Nat} {fault : Fault}
      (stage : reading.stage = .splitting key? data index units) (whole : data.length ≤ index)
      (made : textOfUnits units = .error fault) :
      Moves bytes reading { reading with stage := .ended (.error fault) }
  | stay {result : Except Fault (SortedMap String)} (stage : reading.stage = .ended result) :
      Moves bytes reading reading

/-- Within the bytes a step is made in one of these ways, and is not trapped. -/
theorem exists_moves {reading : Reading} (inside : reading.offset ≤ bytes.length) :
    ∃ next, reading.step bytes = .ok next ∧ Moves bytes reading next := by
  unfold Reading.step
  cases stage : reading.stage with
  | counting =>
    rcases takeNumber_cases inside 4 with ⟨taken, stands, four, found⟩ | ⟨short, failed⟩
    · exact ⟨_, by rw [found]; rfl, .head stage stands four⟩
    · exact ⟨_, by rw [failed]; rfl, .truncated (by rw [stage]; rfl) short⟩
  | counted n =>
    by_cases negative : signed n < 0
    · exact ⟨_, if_pos negative, .negative stage negative⟩
    · exact ⟨_, if_neg negative, .begin stage negative⟩
  | looping =>
    by_cases more : reading.completed < reading.count
    · exact ⟨_, if_pos more, .entry stage more⟩
    by_cases none : reading.offset = bytes.length
    · exact ⟨_, by rw [if_neg more, if_neg (not_not_intro none)]; rfl, .finish stage more none⟩
    · have left : difference bytes.length reading.offset = .ok (bytes.length - reading.offset) :=
        if_pos inside
      exact ⟨_, by rw [if_neg more, if_pos none, left]; rfl, .trailing stage more none⟩
  | measuring key? =>
    rcases takeNumber_cases inside 2 with ⟨taken, stands, two, found⟩ | ⟨short, failed⟩
    · exact ⟨_, by rw [found]; rfl, .length stage stands two⟩
    · exact ⟨_, by rw [failed]; rfl, .truncated (by rw [stage]; rfl) short⟩
  | taking key? length =>
    dsimp only
    rcases takeAt_cases inside length with ⟨data, stands, whole, found⟩ | ⟨short, failed⟩
    · exact ⟨_, by rw [found]; rfl, .data stage stands whole⟩
    · exact ⟨_, by rw [failed]; rfl, .truncated (by rw [stage]; rfl) short⟩
  | splitting key? data index units =>
    dsimp only
    by_cases more : index < data.length
    · rw [if_pos more, groupAt_inside more]
      cases found : groupOf data[index] data[index + 1]? data[index + 2]? with
      | ok group => exact ⟨_, rfl, .group stage more found⟩
      | error fault => exact ⟨_, rfl, .malformed stage more found⟩
    · rw [if_neg more]
      have whole := Nat.le_of_not_lt more
      cases made : textOfUnits units with
      | ok text => exact ⟨_, rfl, .text stage whole made⟩
      | error fault => exact ⟨_, rfl, .lone stage whole made⟩
  | ended result => exact ⟨_, rfl, .stay stage⟩

/-- Where a reading is. There are at least four bytes behind it for each complete entry, besides those
of the count, and the record that is being read ends at the offset. -/
structure Reading.Within (bytes : Bytes) (reading : Reading) : Prop where
  inside : reading.offset ≤ bytes.length
  behind : 4 * reading.completed + reading.stage.least ≤ reading.offset
  entries : 4 * reading.completed ≤ bytes.length - 4
  record {key? : Option String} {data : Bytes} {index : Nat} {units : List Nat} :
    reading.stage = .splitting key? data index units →
      index ≤ data.length ∧ ∃ start, Stands bytes start data ∧ reading.offset = start + data.length

namespace Reading.Within
variable {reading next : Reading}

theorem start (bytes : Bytes) : Within bytes {} where
  inside := Nat.zero_le _
  behind := Nat.le_refl 0
  entries := Nat.zero_le _
  record := nofun

theorem ended (within : Within bytes reading) (result : Except Fault (SortedMap String)) :
    Within bytes { reading with stage := .ended result } where
  inside := within.inside
  behind := Nat.le_trans (Nat.le_add_right ..) within.behind
  entries := within.entries
  record := nofun

theorem received {key? : Option String} {data : Bytes} {index : Nat} {units : List Nat}
    (within : Within bytes reading) (stage : reading.stage = .splitting key? data index units)
    (text : String) : Within bytes (reading.receive key? text) := by
  have inside := within.inside
  have behind := within.behind
  rw [stage] at behind
  cases key? with
  | none => exact ⟨inside, behind, within.entries, nofun⟩
  | some key =>
    -- the two lengths make four bytes, so the entry is paid for
    have paid : 4 * (reading.completed + 1) + 4 ≤ reading.offset := behind
    exact ⟨inside, paid, show 4 * (reading.completed + 1) ≤ bytes.length - 4 by omega, nofun⟩

/-- What each step preserves. -/
theorem moves (within : Within bytes reading) (moves : Moves bytes reading next) :
    Within bytes next := by
  have behind := within.behind
  cases moves with
  | truncated | negative | trailing | finish | malformed | lone => exact within.ended _
  | stay => exact within
  | head stage stands four =>
    rw [stage] at behind
    have inside := stands.inside
    rw [four] at inside
    exact ⟨inside, Nat.add_le_add_right behind 4, within.entries, nofun⟩
  | @length key? taken stage stands two =>
    rw [stage] at behind
    have inside := stands.inside
    rw [two] at inside
    have further : 4 * reading.completed + (Stage.taking key? (bigEndian taken)).least ≤
        reading.offset + 2 := by
      simp only [Stage.least] at behind ⊢
      omega
    exact ⟨inside, further, within.entries, nofun⟩
  | data stage stands whole =>
    rw [stage] at behind
    have inside := stands.inside
    rw [whole] at inside
    refine ⟨inside, Nat.le_trans behind (Nat.le_add_right ..), within.entries, ?_⟩
    rintro _ _ _ _ ⟨⟩
    exact ⟨Nat.zero_le _, reading.offset, stands, by rw [whole]⟩
  | begin stage | entry stage =>
    rw [stage] at behind
    exact ⟨within.inside, behind, within.entries, nofun⟩
  | group stage inside found =>
    obtain ⟨_, place⟩ := within.record stage
    obtain ⟨_, _, fits⟩ := width_of_groupOf inside found
    rw [stage] at behind
    refine ⟨within.inside, behind, within.entries, ?_⟩
    rintro _ _ _ _ ⟨⟩
    exact ⟨fits, place⟩
  | text stage => exact within.received stage _

end Reading.Within

end KotlinCompile.Kapt.Payload
