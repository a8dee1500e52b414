import KotlinCompile.Compiler.Process
import KotlinCompile.Proofs.Compiler.Writing

/-! What a compiler that runs as a process is seen to do while it is watched. Chunks are passed on
up to the first write that is refused, and from there on they are taken for nothing but to keep the
process going; then it is waited for. -/
namespace KotlinCompile

/-- What is done while a process is watched, with the answers of the stream. -/
inductive Act where
  | took (chunk : Bytes)
  | wrote (data : Bytes) (answer : Except Cause Unit)
  | flushed (answer : Except Cause Unit)
  | waited

namespace Act

/-- The chunk, where one was taken. -/
def chunk? : Act → Option Bytes
  | took chunk => some chunk
  | _ => none

/-- The data, where some was written, and whether the write went through. -/
def write? : Act → Option (Bytes × Bool)
  | wrote data answer => some (data, answer.isOk)
  | _ => none

def leavesStream : Act → Bool
  | took _ | waited => true
  | wrote .. | flushed _ => false

/-- A write or a flush that failed. -/
def failed : Act → Bool
  | wrote _ (.error _) | flushed (.error _) => true
  | _ => false

/-- What comes after a failure leaves the stream alone. -/
def StopAtFailure (acts : List Act) : Prop :=
  acts.Pairwise fun earlier later => earlier.failed = true → later.leavesStream = true

theorem stopAtFailure_append {before after : List Act}
    (passed : ∀ act ∈ before, act.failed = false) (stops : StopAtFailure after) :
    StopAtFailure (before ++ after) := by
  induction before with
  | nil => exact stops
  | cons act rest ih =>
    have ⟨passes, later⟩ := List.forall_mem_cons.mp passed
    refine List.pairwise_cons.mpr ⟨?_, ih later⟩
    intro _ _ fails
    rw [passes] at fails
    cases fails

theorem stopAtFailure_cons {act : Act} {after : List Act}
    (left : ∀ act ∈ after, act.leavesStream = true) : StopAtFailure (act :: after) := by
  refine List.pairwise_cons.mpr ⟨fun later member _ => left later member, ?_⟩
  exact List.pairwise_iff_forall_sublist.mpr fun sublist _ =>
    left _ (sublist.subset (List.mem_cons_of_mem _ List.mem_cons_self))

end Act

namespace Watching
variable {α : Type}

/-- Watches over a process that ends with a status, and says how it ended and what was done. -/
def run (status : Option Int) : Watching α → Tee → α × List Act × Tee
  | finished result, tee => (result, [], tee)
  | take chunk next, tee =>
    let (result, acts, after) := next.run status tee
    (result, .took chunk :: acts, after)
  | write data next, tee =>
    let (answer, tee) := tee.write data
    let (result, acts, after) := (next answer).run status tee
    (result, .wrote data answer :: acts, after)
  | flush next, tee =>
    let (result, acts, after) := (next tee.flush).run status tee
    (result, .flushed tee.flush :: acts, after)
  | wait next, tee =>
    let (result, acts, after) := (next status).run status tee
    (result, .waited :: acts, after)

/-- What is done comes to the same as what is written. -/
theorem writing_on (watching : Watching α) (status : Option Int) (machine : Machine) (tee : Tee) :
    (watching.writing status machine).on tee =
      (((watching.run status tee).1, machine), (watching.run status tee).2.2) := by
  induction watching generalizing tee with
  | finished result => rfl
  | take chunk next ih => exact ih tee
  | write data next ih => exact ih (tee.write data).1 (tee.write data).2
  | flush next ih => exact ih tee.flush tee
  | wait next ih => exact ih status tee

/-- The writes among what is done are those that reach the stream. -/
theorem pieces_writing (watching : Watching α) (status : Option Int) (machine : Machine)
    (tee : Tee) : ((watching.writing status machine).pieces tee.sink).map
        (fun piece => (piece.data, piece.isWhole)) =
      (watching.run status tee).2.1.filterMap Act.write? := by
  induction watching generalizing tee with
  | finished result => rfl
  | take chunk next ih => exact ih tee
  | write data next ih =>
    have later := ih (tee.write data).1 (tee.write data).2
    have answer : (tee.write data).1 = (tee.sink.write data).1 := by rw [Tee.write_eq]
    have sink : (tee.write data).2.sink = (tee.sink.write data).2 := by rw [Tee.write_eq]
    rw [sink] at later
    rw [run, writing, Writing.pieces]
    dsimp only
    rw [List.map_cons, Stream.isWhole_write, ← answer, later]
    rfl
  | flush next ih => exact ih tee.flush tee
  | wait next ih => exact ih status tee

end Watching

namespace ProcessCompiler

/-- A chunk that is passed on. -/
def passed (chunk : Bytes) : List Act := [.took chunk, .wrote chunk (.ok ())]

/-- What is done where every chunk is passed on. -/
def throughout (chunks : List Bytes) (answer : Except Cause Unit) : List Act :=
  chunks.flatMap passed ++ [.flushed answer, .waited]

/-- What is done where one chunk is refused. -/
def cutShort (before : List Bytes) (chunk : Bytes) (cause : Cause) (after : List Bytes) :
    List Act :=
  before.flatMap passed ++ .took chunk :: .wrote chunk (.error cause) ::
    (after.map .took ++ [.waited])

section Acts
variable {chunks before after : List Bytes} {chunk : Bytes} {cause : Cause} {act : Act}

theorem mem_passed (member : act ∈ chunks.flatMap passed) :
    act.failed = false ∧ act ≠ .waited := by
  obtain ⟨chunk, _, member⟩ := List.mem_flatMap.mp member
  rcases List.mem_cons.mp member with rfl | last
  · exact ⟨rfl, Act.noConfusion⟩
  · rw [List.mem_singleton.mp last]
    exact ⟨rfl, Act.noConfusion⟩

theorem mem_drained (member : act ∈ after.map Act.took ++ [.waited]) :
    act.leavesStream = true := by
  rcases List.mem_append.mp member with taken | last
  · obtain ⟨chunk, _, rfl⟩ := List.mem_map.mp taken
    rfl
  · rw [List.mem_singleton.mp last]
    rfl

theorem chunks_passed (chunks : List Bytes) :
    (chunks.flatMap passed).filterMap Act.chunk? = chunks := by
  induction chunks with
  | nil => rfl
  | cons chunk rest ih =>
    rw [List.flatMap_cons, List.filterMap_append, ih]
    rfl

theorem writes_throughout (chunks : List Bytes) (answer : Except Cause Unit) :
    (throughout chunks answer).filterMap Act.write? = chunks.map (·, true) := by
  have written : (chunks.flatMap passed).filterMap Act.write? = chunks.map (·, true) := by
    induction chunks with
    | nil => rfl
    | cons chunk rest ih =>
      rw [List.flatMap_cons, List.filterMap_append, ih]
      rfl
  rw [throughout, List.filterMap_append, written]
  exact List.append_nil _

theorem chunks_throughout (chunks : List Bytes) (answer : Except Cause Unit) :
    (throughout chunks answer).filterMap Act.chunk? = chunks := by
  rw [throughout, List.filterMap_append, chunks_passed]
  exact List.append_nil chunks

theorem chunks_cutShort (before : List Bytes) (chunk : Bytes) (cause : Cause)
    (after : List Bytes) :
    (cutShort before chunk cause after).filterMap Act.chunk? = before ++ chunk :: after := by
  have drained : (after.map Act.took ++ [Act.waited]).filterMap Act.chunk? = after := by
    rw [List.filterMap_append, List.filterMap_map]
    exact (List.append_nil _).trans List.filterMap_some
  rw [cutShort, List.filterMap_append, chunks_passed]
  exact congrArg (before ++ chunk :: ·) drained

theorem throughout_stops (chunks : List Bytes) (answer : Except Cause Unit) :
    Act.StopAtFailure (throughout chunks answer) := by
  apply Act.stopAtFailure_append (fun _ member => (mem_passed member).1)
  apply Act.stopAtFailure_cons
  intro act member
  rw [List.mem_singleton.mp member]
  rfl

theorem cutShort_stops (before : List Bytes) (chunk : Bytes) (cause : Cause)
    (after : List Bytes) : Act.StopAtFailure (cutShort before chunk cause after) := by
  apply Act.stopAtFailure_append (fun _ member => (mem_passed member).1)
  have taken : ∀ act ∈ [Act.took chunk], act.failed = false := by
    intro act member
    rw [List.mem_singleton.mp member]
    rfl
  exact Act.stopAtFailure_append taken
    (Act.stopAtFailure_cons fun _ member => mem_drained member)

theorem throughout_failed_iff {answer : Except Cause Unit} :
    (∃ act ∈ throughout chunks answer, act.failed = true) ↔ (Act.flushed answer).failed = true := by
  constructor
  · rintro ⟨act, member, fails⟩
    rcases List.mem_append.mp member with inside | ends
    · rw [(mem_passed inside).1] at fails
      cases fails
    · rcases List.mem_cons.mp ends with rfl | last
      · exact fails
      · rw [List.mem_singleton.mp last] at fails
        cases fails
  · exact fun fails => ⟨.flushed answer, by simp [throughout], fails⟩

theorem cutShort_failed : ∃ act ∈ cutShort before chunk cause after, act.failed = true :=
  ⟨.wrote chunk (.error cause), by simp [cutShort], rfl⟩

theorem throughout_waits (chunks : List Bytes) (answer : Except Cause Unit) :
    ∃ earlier, throughout chunks answer = earlier ++ [.waited] ∧ Act.waited ∉ earlier := by
  refine ⟨chunks.flatMap passed ++ [.flushed answer], by simp [throughout], ?_⟩
  simpa using fun member => (mem_passed member).2 rfl

theorem cutShort_waits (before : List Bytes) (chunk : Bytes) (cause : Cause)
    (after : List Bytes) :
    ∃ earlier, cutShort before chunk cause after = earlier ++ [.waited] ∧ Act.waited ∉ earlier := by
  refine ⟨before.flatMap passed ++ .took chunk :: .wrote chunk (.error cause) :: after.map .took,
    by simp [cutShort], ?_⟩
  simpa using fun member => (mem_passed member).2 rfl

end Acts

theorem outcome_error_iff (forwarded : Except Cause Unit) (status : Option Int) :
    (∃ cause, outcome forwarded status = .error (.diagnostics cause)) ↔
      (Act.flushed forwarded).failed = true := by
  cases forwarded with
  | ok _ => exact ⟨nofun, nofun⟩
  | error cause => exact ⟨fun _ => rfl, fun _ => ⟨cause, rfl⟩⟩

theorem outcome_of_passed {forwarded : Except Cause Unit} (status : Option Int)
    (passes : ¬ (Act.flushed forwarded).failed = true) :
    outcome forwarded status = .ok (ExitCode.ofStatus status) := by
  cases forwarded with
  | ok _ => rfl
  | error cause => exact absurd rfl passes

theorem run_conclude (forwarded : Except Cause Unit) (status : Option Int) (tee : Tee) :
    (forward.conclude forwarded).run status tee = (outcome forwarded status, [.waited], tee) := rfl

theorem run_drain (cause : Cause) (chunks : List Bytes) (status : Option Int) (tee : Tee) :
    (forward.drain cause chunks).run status tee =
      (.error (.diagnostics cause), chunks.map .took ++ [.waited], tee) := by
  induction chunks with
  | nil => rfl
  | cons chunk rest ih =>
    rw [forward.drain, Watching.run, ih]
    rfl

section Forward
variable {chunks : List Bytes} {cause : Cause} {tee : Tee}

-- The writes of the chunks are together one write of all of them.
theorem run_forward_passed (status : Option Int)
    (passes : (tee.sink.write chunks.flatten).1 = .ok ()) :
    (forward chunks).run status tee = (outcome tee.flush status, throughout chunks tee.flush,
      ⟨(tee.sink.write chunks.flatten).2, tee.captured ++ chunks.flatten⟩) := by
  induction chunks generalizing tee with
  | nil =>
    rw [forward, Watching.run, run_conclude, List.flatten_nil, Stream.write_nil, List.append_nil]
    rfl
  | cons chunk rest ih =>
    rw [List.flatten_cons] at passes ⊢
    have first := Stream.write_passed_of_append passes
    rw [Stream.write_append first] at passes ⊢
    have later := @ih ⟨(tee.sink.write chunk).2, tee.captured ++ chunk⟩ passes
    have flushes : (tee.sink.write chunk).2.flush = tee.sink.flush :=
      Stream.flush_write tee.sink chunk
    rw [forward, Watching.run, Watching.run, Tee.write_passed first]
    dsimp only
    rw [later, Tee.flush, Tee.flush, flushes, List.append_assoc]
    rfl

theorem run_forward_refused (status : Option Int)
    (refused : (tee.sink.write chunks.flatten).1 = .error cause) :
    ∃ before chunk after, chunks = before ++ chunk :: after ∧
      (forward chunks).run status tee =
        (.error (.diagnostics cause), cutShort before chunk cause after,
          ⟨(tee.sink.write chunks.flatten).2, tee.captured ++ before.flatten⟩) := by
  induction chunks generalizing tee with
  | nil =>
    rw [List.flatten_nil, Stream.write_nil] at refused
    cases refused
  | cons chunk rest ih =>
    rw [List.flatten_cons] at refused ⊢
    cases first : (tee.sink.write chunk).1 with
    | ok _ =>
      rw [Stream.write_append first] at refused ⊢
      obtain ⟨before, failing, after, rfl, later⟩ :=
        @ih ⟨(tee.sink.write chunk).2, tee.captured ++ chunk⟩ refused
      refine ⟨chunk :: before, failing, after, rfl, ?_⟩
      rw [forward, Watching.run, Watching.run, Tee.write_passed first]
      dsimp only
      rw [later, List.flatten_cons, List.append_assoc]
      rfl
    | error other =>
      rw [Stream.write_append_refused first] at refused ⊢
      rw [first] at refused
      cases refused
      refine ⟨[], chunk, rest, rfl, ?_⟩
      rw [forward, Watching.run, Watching.run, Tee.write_refused first]
      dsimp only
      rw [run_drain, List.flatten_nil, List.append_nil]
      rfl

-- A chunk that is refused is a write that is not whole.
theorem passes_of_whole {status : Option Int} {machine : Machine}
    (whole : ∀ piece ∈ ((forward chunks).writing status machine).pieces tee.sink,
      piece.isWhole = true) : (tee.sink.write chunks.flatten).1 = .ok () := by
  cases answer : (tee.sink.write chunks.flatten).1 with
  | ok _ => rfl
  | error cause =>
    obtain ⟨before, chunk, after, _, ended⟩ := run_forward_refused status answer
    have seen := Watching.pieces_writing (forward chunks) status machine tee
    have wrote : (chunk, false) ∈ ((forward chunks).run status tee).2.1.filterMap Act.write? := by
      rw [ended]
      exact List.mem_filterMap.mpr ⟨.wrote chunk (.error cause), by simp [cutShort], rfl⟩
    rw [← seen] at wrote
    obtain ⟨piece, member, same⟩ := List.mem_map.mp wrote
    rw [whole piece member] at same
    cases same

theorem pieces_forward {status : Option Int} {machine : Machine}
    (passes : (tee.sink.write chunks.flatten).1 = .ok ()) :
    (((forward chunks).writing status machine).pieces tee.sink).map (·.data) = chunks := by
  have seen := Watching.pieces_writing (forward chunks) status machine tee
  rw [run_forward_passed status passes, writes_throughout] at seen
  have written := congrArg (List.map Prod.fst) seen
  rw [List.map_map, List.map_map] at written
  exact written.trans (List.map_id chunks)

theorem run_forward_cases (chunks : List Bytes) (status : Option Int) (tee : Tee) :
    ((forward chunks).run status tee).1 = .ok (ExitCode.ofStatus status) ∨
      ∃ cause, ((forward chunks).run status tee).1 = .error (.diagnostics cause) := by
  cases answer : (tee.sink.write chunks.flatten).1 with
  | ok _ =>
    rw [run_forward_passed status answer]
    cases tee.flush with
    | ok _ => exact Or.inl rfl
    | error cause => exact Or.inr ⟨cause, rfl⟩
  | error cause =>
    obtain ⟨_, _, _, _, ended⟩ := run_forward_refused status answer
    rw [ended]
    exact Or.inr ⟨cause, rfl⟩

end Forward

/-- On a stream with room for so many bytes, and whatever comes of flushing it, the loop takes every
chunk, and the stream gets the front of them all that it has room for. After a write or a flush that
failed it is left alone. The outcome is an error about the diagnostics exactly if one of them
failed, and otherwise the exit of the process, which is waited for at the end and only there. -/
theorem forward_drains (chunks : List Bytes) (status : Option Int) (machine : Machine)
    (received captured : Bytes) (room : Nat) (flushFails : Bool) :
    let tee : Tee := ⟨⟨received, some room, flushFails⟩, captured⟩
    let (result, acts, after) := (forward chunks).run status tee
    ((forward chunks).writing status machine).on tee = ((result, machine), after) ∧
      acts.filterMap Act.chunk? = chunks ∧
      after.sink.received = received ++ chunks.flatten.take room ∧
      Act.StopAtFailure acts ∧
      ((∃ cause, result = .error (.diagnostics cause)) ↔ ∃ act ∈ acts, act.failed = true) ∧
      ((¬ ∃ act ∈ acts, act.failed = true) → result = .ok (ExitCode.ofStatus status)) ∧
      ((∃ act ∈ acts, act.failed = true) ↔ room < chunks.flatten.length ∨ flushFails = true) ∧
      ∃ earlier, acts = earlier ++ [.waited] ∧ Act.waited ∉ earlier := by
  intro tee
  have arrives : (tee.sink.write chunks.flatten).2.received =
      received ++ chunks.flatten.take room := Stream.write_received tee.sink chunks.flatten
  have same := Watching.writing_on (forward chunks) status machine tee
  cases answer : (tee.sink.write chunks.flatten).1 with
  | ok _ =>
    have fits : chunks.flatten.length ≤ room := Stream.write_limited_passed_iff.mp answer
    rw [run_forward_passed status answer] at same ⊢
    refine ⟨same, chunks_throughout chunks _, arrives, throughout_stops chunks _, ?_, ?_, ?_,
      throughout_waits chunks _⟩
    · rw [throughout_failed_iff]
      exact outcome_error_iff tee.flush status
    · rw [throughout_failed_iff]
      exact outcome_of_passed status
    · rw [throughout_failed_iff, or_iff_right (Nat.not_lt.mpr fits)]
      cases flushFails <;> rfl
  | error cause =>
    have exceeds : room < chunks.flatten.length := by
      apply Nat.lt_of_not_le
      intro fits
      rw [Stream.write_limited_passed_iff.mpr fits] at answer
      cases answer
    obtain ⟨before, chunk, after, rfl, ended⟩ := run_forward_refused status answer
    rw [ended] at same ⊢
    refine ⟨same, chunks_cutShort before chunk cause after, arrives,
      cutShort_stops before chunk cause after, ?_, ?_, ?_,
      cutShort_waits before chunk cause after⟩
    · exact ⟨fun _ => cutShort_failed, fun _ => ⟨cause, rfl⟩⟩
    · exact fun passes => absurd cutShort_failed passes
    · exact ⟨fun _ => Or.inl exceeds, fun _ => cutShort_failed⟩

end ProcessCompiler
end KotlinCompile
