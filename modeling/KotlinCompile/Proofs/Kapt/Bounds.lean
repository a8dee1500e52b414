import KotlinCompile.Proofs.Kapt.Remainder

/-! How far a reading gets. Its bytes bound that, whatever count and lengths are written in them: it is
never trapped, each entry takes four bytes at least, and it ends within two steps for each byte. -/
namespace KotlinCompile.Kapt.Payload
variable {bytes : Bytes} {reading next : Reading}

/-- A reading after so many steps. -/
def after (bytes : Bytes) : Nat → Except Trap Reading
  | 0 => .ok {}
  | n + 1 => after bytes n >>= Reading.step bytes

def Stage.left : Stage → Nat
  | counting | measuring _ => 1
  | counted _ => 3
  | looping => 2
  | taking .. => 4
  | splitting _ data index _ => data.length - index + 3
  | ended _ => 0

/-- More steps than a reading can still make before it ends. A byte that is taken pays for two, its own
as the beginning of a group being one of them. -/
def Reading.left (bytes : Bytes) (reading : Reading) : Nat :=
  2 * (bytes.length - reading.offset) + reading.stage.left

theorem left_ended (bytes : Bytes) (reading : Reading) (result : Except Fault (SortedMap String)) :
    (∃ earlier, reading.stage = .ended earlier) ∨
      Reading.left bytes { reading with stage := .ended result } < reading.left bytes := by
  cases stage : reading.stage with
  | ended earlier => exact Or.inl ⟨earlier, rfl⟩
  | _ =>
    right
    simp only [Reading.left, Stage.left, stage]
    omega

theorem left_moves (moves : Moves bytes reading next) :
    (∃ result, reading.stage = .ended result) ∨ next.left bytes < reading.left bytes := by
  cases moves with
  | truncated | negative | trailing | finish | malformed | lone => exact left_ended ..
  | stay stage => exact Or.inl ⟨_, stage⟩
  | head stage stands four | length stage stands two | data stage stands whole =>
    have inside := stands.inside
    right
    simp only [Reading.left, Stage.left, stage]
    omega
  | begin stage | entry stage =>
    right
    simp only [Reading.left, Stage.left, stage]
    omega
  | group stage inside found =>
    have width := width_of_groupOf inside found
    right
    simp only [Reading.left, Stage.left, stage]
    omega
  | @text key? _ _ _ _ stage =>
    right
    cases key? <;> simp only [Reading.left, Reading.receive, Stage.left, stage] <;> omega

theorem step_ended {result : Except Fault (SortedMap String)} (stage : reading.stage = .ended result) :
    reading.step bytes = .ok reading := by
  unfold Reading.step
  rw [stage]
  rfl

/-- Every point of a reading. From there the readers still come to what they make of all bytes, and the
reading has ended, or the steps that were made are no longer left. -/
theorem exists_after (bytes : Bytes) (n : Nat) : ∃ reading, after bytes n = .ok reading ∧
    reading.Within bytes ∧ reading.remainder bytes = read bytes ∧
    ((∃ result, reading.stage = .ended result) ∨ reading.left bytes + n ≤ 2 * bytes.length + 1) := by
  induction n with
  | zero => exact ⟨{}, rfl, .start bytes, Reading.remainder_start bytes, Or.inr (Nat.le_refl _)⟩
  | succ n ih =>
    obtain ⟨reading, reached, within, remainder, left⟩ := ih
    obtain ⟨next, stepped, moves⟩ := exists_moves within.inside
    have stays : (∃ result, reading.stage = .ended result) → ∃ result, next.stage = .ended result := by
      rintro ⟨result, stage⟩
      cases stepped.symm.trans (step_ended stage)
      exact ⟨result, stage⟩
    refine ⟨next, by rw [after, reached]; exact stepped, within.moves moves,
      (Reading.remainder_moves within moves).trans remainder, ?_⟩
    rcases left with ended | left
    · exact Or.inl (stays ended)
    rcases left_moves moves with ended | less
    · exact Or.inl (stays ended)
    · exact Or.inr (by omega)

theorem ended_after {n : Nat} (enough : 2 * bytes.length < n) :
    ∃ last, after bytes n = .ok last ∧ last.stage = .ended (read bytes) := by
  obtain ⟨last, reached, _, remainder, left⟩ := exists_after bytes n
  have ended : ∃ result, last.stage = .ended result := by
    rcases left with ended | left
    · exact ended
    rcases left_ended bytes last (read bytes) with ended | some
    · exact ended
    · omega
  obtain ⟨result, stage⟩ := ended
  have same : last.remainder bytes = result := by
    simp only [Reading.remainder, stage]
  exact ⟨last, reached, by rw [stage, ← remainder, same]⟩

/-- A step that takes `n` bytes, or finds fewer of them: then the offset stays, and the fault names it. -/
def Takes (bytes : Bytes) (n : Nat) (reading next : Reading) : Prop :=
  reading.offset + n ≤ bytes.length ∧ next.offset = reading.offset + n ∨
  bytes.length < reading.offset + n ∧
    next = { reading with stage := .ended (.error (.truncated reading.offset)) }

/-- A step in a record, with the index of the next group. It passes over a group, all of which is in the
record, or has the text where the record ends, or it finds a fault. -/
inductive Splits (key? : Option String) (data : Bytes) (index : Nat) (units : List Nat)
    (reading : Reading) : Reading → Prop where
  | group {unit width : Nat} (some : 1 ≤ width) (three : width ≤ 3)
      (inside : index + width ≤ data.length) : Splits key? data index units reading
        { reading with stage := .splitting key? data (index + width) (units ++ [unit]) }
  | text {text : String} (whole : index = data.length) : Splits key? data index units reading
      (reading.receive key? text)
  | fault {fault : Fault} : Splits key? data index units reading
      { reading with stage := .ended (.error fault) }

theorem takes_of_moves {n : Nat} (takes : reading.stage.takes? = some n)
    (moves : Moves bytes reading next) : Takes bytes n reading next := by
  cases moves with
  | truncated same short =>
    cases takes.symm.trans same
    exact Or.inr ⟨short, rfl⟩
  | head stage stands four | length stage stands two | data stage stands whole =>
    have inside := stands.inside
    rw [stage] at takes
    cases takes
    exact Or.inl ⟨by omega, rfl⟩
  | negative stage | begin stage | entry stage | trailing stage | finish stage | group stage
  | malformed stage | text stage | lone stage | stay stage =>
    rw [stage] at takes
    cases takes

theorem splits_of_moves {key? : Option String} {data : Bytes} {index : Nat} {units : List Nat}
    (within : reading.Within bytes) (stage : reading.stage = .splitting key? data index units)
    (moves : Moves bytes reading next) : Splits key? data index units reading next := by
  obtain ⟨inside, _⟩ := within.record stage
  cases moves with
  | truncated takes =>
    rw [stage] at takes
    cases takes
  | group same before found =>
    cases stage.symm.trans same
    obtain ⟨some, three, fits⟩ := width_of_groupOf before found
    exact .group some three fits
  | malformed same => exact .fault
  | lone same => exact .fault
  | text same whole =>
    cases stage.symm.trans same
    exact .text (Nat.le_antisymm inside whole)
  | head same | length same | data same | negative same | begin same | entry same | trailing same
  | finish same | stay same => cases stage.symm.trans same

/-- Reading goes on without a trap, whatever the bytes are. At each point of it the offset is within them,
each complete entry has four of them besides those of the count, and the readers make of the bytes from
there on what they make of all. A step that takes bytes takes all that it asks for or leaves the offset as
it is, and one in a record stays in it. The reading ends, with what a text of the bytes is decoded to. -/
theorem reading_within_bytes (bytes : Bytes) :
    (∀ n, ∃ reading next, after bytes n = .ok reading ∧ reading.step bytes = .ok next ∧
      reading.remainder bytes = read bytes ∧ reading.offset ≤ bytes.length ∧
      reading.completed ≤ (bytes.length - 4) / 4 ∧
      (∀ width, reading.stage.takes? = some width → Takes bytes width reading next) ∧
      ∀ key? data index units, reading.stage = .splitting key? data index units →
        index ≤ data.length ∧
        (∃ start, Stands bytes start data ∧ reading.offset = start + data.length) ∧
        Splits key? data index units reading next) ∧
    ∀ n, 2 * bytes.length < n → ∃ last result, after bytes n = .ok last ∧
      last.stage = .ended result ∧
      ∀ encoded, Text.Base64.decode? (Text.trim encoded.toList) = some bytes →
        decode encoded = result.mapError fun fault => ⟨"", fault⟩ := by
  constructor
  · intro n
    obtain ⟨reading, reached, within, remainder, _⟩ := exists_after bytes n
    obtain ⟨next, stepped, moves⟩ := exists_moves within.inside
    have entries := within.entries
    refine ⟨reading, next, reached, stepped, remainder, within.inside, by omega,
      fun _ takes => takes_of_moves takes moves, ?_⟩
    intro key? data index units stage
    obtain ⟨inside, place⟩ := within.record stage
    exact ⟨inside, place, splits_of_moves within stage moves⟩
  · intro n enough
    obtain ⟨last, reached, stage⟩ := ended_after enough
    refine ⟨last, read bytes, reached, stage, fun encoded written => ?_⟩
    rw [decode, written]

-- The count says 2147483647, and the one entry that there is has four bytes.
example : (after [0x7F, 0xFF, 0xFF, 0xFF, 0, 0, 0, 0] 17).map
    (fun last => (last.offset, last.completed)) = .ok (8, 1) := by rfl

end KotlinCompile.Kapt.Payload
