import KotlinCompile.Proofs.Compiler.Watching

/-! Writing on a stream that takes so many bytes and nothing more. A compiler that stops at the
first write that is refused does there what it does without the limit as long as everything fits,
and else it leaves just the front that fits and ends with a diagnostics error. -/
namespace KotlinCompile

namespace Stream
variable {stream : Stream} {data : Bytes} {room : Nat}

/-- The same stream with room for so many bytes. -/
def limited (stream : Stream) (room : Nat) : Stream := { stream with room := some room }

/-- The same stream when it has received some more. -/
def extended (stream : Stream) (data : Bytes) : Stream :=
  { stream with received := stream.received ++ data }

@[simp] theorem extended_received (stream : Stream) (data : Bytes) :
    (stream.extended data).received = stream.received ++ data := rfl

@[simp] theorem extended_nil (stream : Stream) : stream.extended [] = stream := by
  rw [extended, List.append_nil]

@[simp] theorem extended_extended (stream : Stream) (data more : Bytes) :
    (stream.extended data).extended more = stream.extended (data ++ more) := by
  simp only [extended, List.append_assoc]

theorem write_unlimited (endless : stream.room = none) (data : Bytes) :
    stream.write data = (.ok (), stream.extended data) := by
  obtain ⟨received, room, flushFails⟩ := stream
  cases endless
  rfl

theorem write_limited_within (fits : data.length ≤ room) :
    (stream.limited room).write data =
      (.ok (), (stream.extended data).limited (room - data.length)) :=
  write_within fits

theorem write_limited_beyond (exceeds : room < data.length) :
    (stream.limited room).write data =
      (.error .streamFull, (stream.extended (data.take room)).limited 0) :=
  write_beyond (Nat.not_le.mpr exceeds)

end Stream

/-- The tee on the same stream with room for so many bytes. -/
def Tee.limited (tee : Tee) (room : Nat) : Tee := { tee with sink := tee.sink.limited room }

namespace Tee
variable {tee : Tee} {data : Bytes} {room : Nat}

theorem write_unlimited (endless : tee.sink.room = none) (data : Bytes) :
    tee.write data = (.ok (), ⟨tee.sink.extended data, tee.captured ++ data⟩) := by
  rw [write, Stream.write_unlimited endless]

theorem write_limited_within (fits : data.length ≤ room) :
    (tee.limited room).write data = (.ok (),
      limited ⟨tee.sink.extended data, tee.captured ++ data⟩ (room - data.length)) := by
  rw [write, limited, Stream.write_limited_within fits]
  rfl

theorem write_limited_beyond (exceeds : room < data.length) :
    (tee.limited room).write data = (.error .streamFull,
      limited ⟨tee.sink.extended (data.take room), tee.captured⟩ 0) := by
  rw [write, limited, Stream.write_limited_beyond exceeds]
  rfl

end Tee

namespace Writing

/-- Whether a compiler ends with a diagnostics error as soon as a write is refused. -/
def StopsAtRefusal : Writing (Except BuildError ExitCode × Machine) → Prop
  | finished _ => True
  | write _ next =>
    (∀ cause, ∃ reason machine,
        next (.error cause) = finished (.error (.diagnostics reason), machine)) ∧
      (next (.ok ())).StopsAtRefusal
  | flush next => ∀ answer, (next answer).StopsAtRefusal

/-- What is written without a limit is cut by one at its place, wherever the writes end. -/
theorem on_limited {writing : Writing (Except BuildError ExitCode × Machine)}
    (stops : writing.StopsAtRefusal) {tee : Tee} (endless : tee.sink.room = none) :
    ∃ data, (writing.on tee).2.sink = tee.sink.extended data ∧ ∀ room,
      (data.length ≤ room → writing.on (tee.limited room) =
        ((writing.on tee).1, (writing.on tee).2.limited (room - data.length))) ∧
      (room < data.length → ∃ cause machine after,
        writing.on (tee.limited room) = ((.error (.diagnostics cause), machine), after) ∧
          after.sink.received = tee.sink.received ++ data.take room) := by
  induction writing generalizing tee with
  | finished result =>
    refine ⟨[], (Stream.extended_nil _).symm, fun room => ⟨fun _ => rfl, ?_⟩⟩
    exact fun exceeds => absurd exceeds (Nat.not_lt_zero room)
  | flush next ih => exact ih tee.flush (stops tee.flush) endless
  | write data next ih =>
    obtain ⟨refused, goesOn⟩ := stops
    have passed := Tee.write_unlimited endless data
    obtain ⟨more, reached, later⟩ :=
      @ih (.ok ()) goesOn ⟨tee.sink.extended data, tee.captured ++ data⟩ endless
    refine ⟨data ++ more, ?_, fun room => ?_⟩
    · rw [on, passed]
      exact reached.trans (Stream.extended_extended _ _ _)
    · simp only [on, passed, List.length_append]
      -- the limit falls into this write or behind it
      by_cases fits : data.length ≤ room
      · rw [Tee.write_limited_within fits]
        obtain ⟨within, beyond⟩ := later (room - data.length)
        constructor
        · intro all
          rw [Nat.sub_add_eq]
          exact within (by omega)
        · intro exceeds
          obtain ⟨cause, machine, after, ended, received⟩ := beyond (by omega)
          refine ⟨cause, machine, after, ended, received.trans ?_⟩
          rw [List.take_append, List.take_of_length_le fits]
          exact List.append_assoc _ _ _
      · have exceeds : room < data.length := Nat.not_le.mp fits
        obtain ⟨reason, machine, ends⟩ := refused .streamFull
        rw [Tee.write_limited_beyond exceeds, ends]
        refine ⟨fun all => by omega, fun _ => ⟨reason, machine, _, rfl, ?_⟩⟩
        rw [List.take_append_of_le_length (Nat.le_of_lt exceeds)]
        rfl

end Writing

def Backend.StopsAtRefusal (backend : Backend) : Prop :=
  ∀ arguments machine, (backend arguments machine).StopsAtRefusal

theorem Backend.scripted_stopsAtRefusal (output : List Bytes)
    (result : Except BuildError ExitCode) : (Backend.scripted output result).StopsAtRefusal := by
  intro arguments machine
  unfold scripted
  induction output with
  | nil => trivial
  | cons data rest ih => exact ⟨fun cause => ⟨cause, machine, rfl⟩, ih⟩

namespace ProcessCompiler

theorem writing_drain (cause : Cause) (chunks : List Bytes) (status : Option Int)
    (machine : Machine) : (forward.drain cause chunks).writing status machine =
      .finished (.error (.diagnostics cause), machine) := by
  induction chunks with
  | nil => rfl
  | cons chunk rest ih => exact ih

-- What a process prints behind a write that was refused is taken, but no longer written.
theorem backend_stopsAtRefusal (compiler : ProcessCompiler) (turns : List Bool) :
    (compiler.backend turns).StopsAtRefusal := by
  intro arguments machine
  unfold backend
  split
  · trivial
  · next ended after _ =>
    induction merged turns (linesOf ended.stdout) (linesOf ended.stderr) with
    | nil => exact fun _ => trivial
    | cons chunk rest ih => exact ⟨fun cause => ⟨cause, after, writing_drain cause rest _ _⟩, ih⟩

end ProcessCompiler
end KotlinCompile
