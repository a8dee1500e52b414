import KotlinCompile.Compiler.Backend

/-! What becomes of the bytes that are written. A stream that runs full takes the front of what is
written and refuses the write; the copy of a tee has only the writes that went through. So the two
hold the same bytes as long as nothing is refused. -/
namespace KotlinCompile

namespace Stream
variable {stream : Stream} {received data : Bytes} {room : Nat} {flushFails : Bool}

theorem write_within (fits : data.length ≤ room) :
    write ⟨received, some room, flushFails⟩ data =
      (.ok (), ⟨received ++ data, some (room - data.length), flushFails⟩) :=
  if_pos fits

theorem write_beyond (exceeds : ¬ data.length ≤ room) :
    write ⟨received, some room, flushFails⟩ data =
      (.error .streamFull, ⟨received ++ data.take room, some 0, flushFails⟩) :=
  if_neg exceeds

/-- As much of some data as the stream still takes. -/
def fitting (stream : Stream) (data : Bytes) : Bytes :=
  match stream.room with
  | none => data
  | some room => data.take room

theorem fitting_endless (endless : stream.room = none) (data : Bytes) :
    stream.fitting data = data := by
  rw [fitting, endless]

theorem write_endless (endless : stream.room = none) (data : Bytes) :
    (stream.write data).2.room = none := by
  rw [write, endless]

theorem write_received (stream : Stream) (data : Bytes) :
    (stream.write data).2.received = stream.received ++ stream.fitting data := by
  obtain ⟨received, room, flushFails⟩ := stream
  cases room with
  | none => rfl
  | some room =>
    by_cases fits : data.length ≤ room
    · rw [write_within fits]
      exact congrArg (received ++ ·) (List.take_of_length_le fits).symm
    · rw [write_beyond fits]
      rfl

/-- What is taken needs room, and a write that is refused leaves none. -/
theorem write_room (limited : stream.room = some room) (data : Bytes) :
    (stream.write data).2.room = some (room - data.length) := by
  obtain ⟨received, _, flushFails⟩ := stream
  cases limited
  by_cases fits : data.length ≤ room
  · rw [write_within fits]
  · rw [write_beyond fits, Nat.sub_eq_zero_of_le (Nat.le_of_not_le fits)]

theorem write_passed_iff : (stream.write data).1 = .ok () ↔ stream.fitting data = data := by
  obtain ⟨received, room, flushFails⟩ := stream
  cases room with
  | none => exact ⟨fun _ => rfl, fun _ => rfl⟩
  | some room =>
    by_cases fits : data.length ≤ room
    · rw [write_within fits, fitting]
      exact ⟨fun _ => List.take_of_length_le fits, fun _ => rfl⟩
    · rw [write_beyond fits, fitting]
      refine ⟨nofun, fun whole => absurd ?_ fits⟩
      have shorter := congrArg List.length whole
      rw [List.length_take] at shorter
      omega

theorem write_limited_passed_iff :
    (write ⟨received, some room, flushFails⟩ data).1 = .ok () ↔ data.length ≤ room := by
  by_cases fits : data.length ≤ room
  · rw [write_within fits]
    exact ⟨fun _ => fits, fun _ => rfl⟩
  · rw [write_beyond fits]
    exact ⟨nofun, fun held => absurd held fits⟩

theorem received_of_write {after : Stream} (passed : stream.write data = (.ok (), after)) :
    after.received = stream.received ++ data := by
  have received := stream.write_received data
  rw [write_passed_iff.mp (congrArg Prod.fst passed), passed] at received
  exact received

/-- A stream that is full stays so and takes nothing more. -/
theorem write_full (full : stream.room = some 0) (data : Bytes) :
    (stream.write data).2.room = some 0 ∧ stream.fitting data = [] := by
  obtain ⟨received, room, flushFails⟩ := stream
  cases full
  refine ⟨?_, rfl⟩
  by_cases fits : data.length ≤ 0
  · rw [write_within fits, Nat.zero_sub]
  · rw [write_beyond fits]

theorem write_refused (refused : stream.fitting data ≠ data) :
    (stream.write data).2.room = some 0 := by
  obtain ⟨received, room, flushFails⟩ := stream
  cases room with
  | none => exact absurd rfl refused
  | some room =>
    have exceeds : ¬ data.length ≤ room := fun fits => refused (List.take_of_length_le fits)
    rw [write_beyond exceeds]

theorem write_nil (stream : Stream) : stream.write [] = (.ok (), stream) := by
  obtain ⟨received, room, flushFails⟩ := stream
  cases room <;> simp [write]

/-- Two writes are one write of both, if the first went through. -/
theorem write_append (passed : (stream.write data).1 = .ok ()) (more : Bytes) :
    stream.write (data ++ more) = (stream.write data).2.write more := by
  obtain ⟨received, room, flushFails⟩ := stream
  cases room with
  | none => simp [write]
  | some room =>
    by_cases fits : data.length ≤ room
    · rw [write_within fits]
      by_cases all : more.length ≤ room - data.length
      · have whole : (data ++ more).length ≤ room := by
          rw [List.length_append]
          omega
        rw [write_within all, write_within whole, List.append_assoc, List.length_append,
          Nat.sub_add_eq]
      · have cut : ¬ (data ++ more).length ≤ room := by
          rw [List.length_append]
          omega
        rw [write_beyond all, write_beyond cut, List.append_assoc, List.take_append,
          List.take_of_length_le fits]
    · rw [write_beyond fits] at passed
      cases passed

/-- Behind a write that was refused there is nothing more to write. -/
theorem write_append_refused {cause : Cause} (refused : (stream.write data).1 = .error cause)
    (more : Bytes) : stream.write (data ++ more) = stream.write data := by
  obtain ⟨received, room, flushFails⟩ := stream
  cases room with
  | none => cases refused
  | some room =>
    by_cases fits : data.length ≤ room
    · rw [write_within fits] at refused
      cases refused
    · have exceeds : ¬ (data ++ more).length ≤ room := by
        rw [List.length_append]
        omega
      rw [write_beyond fits, write_beyond exceeds, List.take_append_of_le_length (by omega)]

theorem write_passed_of_append {more : Bytes} (passed : (stream.write (data ++ more)).1 = .ok ()) :
    (stream.write data).1 = .ok () := by
  cases first : (stream.write data).1 with
  | ok _ => rfl
  | error cause =>
    rw [write_append_refused first, first] at passed
    cases passed

theorem flush_write (stream : Stream) (data : Bytes) :
    (stream.write data).2.flush = stream.flush := by
  obtain ⟨received, room, flushFails⟩ := stream
  cases room with
  | none => rfl
  | some room =>
    by_cases fits : data.length ≤ room
    · rw [write_within fits]
      rfl
    · rw [write_beyond fits]
      rfl

end Stream

/-- Some data that was written, and as much of it as was taken. -/
structure Piece where
  data : Bytes
  taken : Bytes
deriving DecidableEq

namespace Piece

/-- Whether the write went through. -/
def isWhole (piece : Piece) : Bool := piece.taken == piece.data

def arrived (pieces : List Piece) : Bytes := pieces.flatMap (·.taken)

/-- What was written by the writes that went through. -/
def written (pieces : List Piece) : Bytes := (pieces.filter isWhole).flatMap (·.data)

/-- What arrived of the writes that were refused. -/
def cut (pieces : List Piece) : Bytes := (pieces.filter (!·.isWhole)).flatMap (·.taken)

variable {piece : Piece} {rest pieces : List Piece}

theorem arrived_cons (piece : Piece) (rest : List Piece) :
    arrived (piece :: rest) = piece.taken ++ arrived rest :=
  List.flatMap_cons

theorem written_cons (piece : Piece) (rest : List Piece) :
    written (piece :: rest) = (if piece.isWhole then piece.data else []) ++ written rest := by
  rw [written, List.filter_cons]
  split
  · rw [List.flatMap_cons, written]
  · rfl

theorem cut_cons (piece : Piece) (rest : List Piece) :
    cut (piece :: rest) = (if piece.isWhole then [] else piece.taken) ++ cut rest := by
  rw [cut, List.filter_cons]
  cases piece.isWhole with
  | true => rfl
  | false => exact List.flatMap_cons

theorem cut_of_whole (whole : ∀ piece ∈ pieces, piece.isWhole = true) : cut pieces = [] := by
  rw [cut, List.filter_eq_nil_iff.mpr fun piece member => by simp [whole piece member]]
  rfl

theorem written_of_whole (whole : ∀ piece ∈ pieces, piece.isWhole = true) :
    written pieces = pieces.flatMap (·.data) := by
  rw [written, List.filter_eq_self.mpr whole]

/-- Where nothing was taken, the writes that went through were empty. -/
theorem nothing_taken (none : ∀ piece ∈ pieces, piece.taken = []) :
    arrived pieces = [] ∧ written pieces = [] ∧ cut pieces = [] := by
  refine ⟨List.flatMap_eq_nil_iff.mpr none, ?_, ?_⟩
  · refine List.flatMap_eq_nil_iff.mpr fun piece member => ?_
    obtain ⟨kept, whole⟩ := List.mem_filter.mp member
    exact (eq_of_beq whole).symm.trans (none piece kept)
  · refine List.flatMap_eq_nil_iff.mpr fun piece member => ?_
    exact none piece (List.mem_filter.mp member).1

end Piece

namespace Writing
variable {α : Type}

/-- What is written on a stream, piece by piece. -/
def pieces : Writing α → Stream → List Piece
  | finished _, _ => []
  | write data next, stream =>
    let (answer, after) := stream.write data
    ⟨data, stream.fitting data⟩ :: (next answer).pieces after
  | flush next, stream => (next stream.flush).pieces stream

theorem pieces_whole (writing : Writing α) {stream : Stream} (endless : stream.room = none) :
    ∀ piece ∈ writing.pieces stream, piece.isWhole = true := by
  induction writing generalizing stream with
  | finished result => exact fun _ member => absurd member List.not_mem_nil
  | write data next ih =>
    rw [pieces, List.forall_mem_cons]
    exact ⟨beq_iff_eq.mpr (Stream.fitting_endless endless data),
      ih _ (Stream.write_endless endless data)⟩
  | flush next ih => exact ih _ endless

theorem pieces_full (writing : Writing α) {stream : Stream} (full : stream.room = some 0) :
    ∀ piece ∈ writing.pieces stream, piece.taken = [] := by
  induction writing generalizing stream with
  | finished result => exact fun _ member => absurd member List.not_mem_nil
  | write data next ih =>
    obtain ⟨still, nothing⟩ := Stream.write_full full data
    rw [pieces, List.forall_mem_cons]
    exact ⟨nothing, ih _ still⟩
  | flush next ih => exact ih _ full

-- The first write that is refused fills the stream up, so nothing arrives behind its cut.
theorem arrived_eq (writing : Writing α) (stream : Stream) :
    Piece.arrived (writing.pieces stream) =
      Piece.written (writing.pieces stream) ++ Piece.cut (writing.pieces stream) := by
  induction writing generalizing stream with
  | finished result => rfl
  | write data next ih =>
    rw [pieces, Piece.arrived_cons, Piece.written_cons, Piece.cut_cons]
    by_cases whole : stream.fitting data = data
    · rw [ih, Piece.isWhole, if_pos (beq_iff_eq.mpr whole), if_pos (beq_iff_eq.mpr whole), whole,
        List.nil_append, List.append_assoc]
    · have refused : ¬ (stream.fitting data == data) = true := fun same => whole (eq_of_beq same)
      obtain ⟨arrived, written, cut⟩ := Piece.nothing_taken
        (pieces_full (next (stream.write data).1) (Stream.write_refused whole))
      rw [arrived, written, cut, Piece.isWhole, if_neg refused, if_neg refused, List.append_nil,
        List.append_nil]
      rfl
  | flush next ih => exact ih _ stream

end Writing

theorem Tee.write_passed {tee : Tee} {data : Bytes} (passed : (tee.sink.write data).1 = .ok ()) :
    tee.write data = (.ok (), ⟨(tee.sink.write data).2, tee.captured ++ data⟩) := by
  unfold write
  cases written : tee.sink.write data with
  | mk answer sink =>
    rw [written] at passed
    cases passed
    rfl

theorem Tee.write_refused {tee : Tee} {data : Bytes} {cause : Cause}
    (refused : (tee.sink.write data).1 = .error cause) :
    tee.write data = (.error cause, ⟨(tee.sink.write data).2, tee.captured⟩) := by
  unfold write
  cases written : tee.sink.write data with
  | mk answer sink =>
    rw [written] at refused
    cases refused
    rfl

theorem Stream.isWhole_write (stream : Stream) (data : Bytes) :
    (⟨data, stream.fitting data⟩ : Piece).isWhole = (stream.write data).1.isOk := by
  cases answer : (stream.write data).1 with
  | ok _ => exact beq_iff_eq.mpr (write_passed_iff.mp answer)
  | error cause =>
    refine beq_eq_false_iff_ne.mpr fun whole => ?_
    rw [write_passed_iff.mpr whole] at answer
    cases answer

theorem Tee.write_eq (tee : Tee) (data : Bytes) :
    tee.write data = ((tee.sink.write data).1, ⟨(tee.sink.write data).2, tee.captured ++
      if (⟨data, tee.sink.fitting data⟩ : Piece).isWhole then data else []⟩) := by
  rw [Stream.isWhole_write]
  cases answer : (tee.sink.write data).1 with
  | ok _ => exact write_passed answer
  | error cause =>
    rw [write_refused answer]
    simp [Except.isOk, Except.toBool]

namespace Writing
variable {α : Type}

/-- The stream behind a tee gets all that arrives, and the tee copies all that went through. -/
theorem on_received (writing : Writing α) (tee : Tee) :
    (writing.on tee).2.sink.received =
        tee.sink.received ++ Piece.arrived (writing.pieces tee.sink) ∧
      (writing.on tee).2.captured =
        tee.captured ++ Piece.written (writing.pieces tee.sink) := by
  induction writing generalizing tee with
  | finished result => exact ⟨(List.append_nil _).symm, (List.append_nil _).symm⟩
  | write data next ih =>
    rw [on, Tee.write_eq, pieces, Piece.arrived_cons, Piece.written_cons]
    have later := ih (tee.sink.write data).1 ⟨(tee.sink.write data).2, tee.captured ++
      if (⟨data, tee.sink.fitting data⟩ : Piece).isWhole then data else []⟩
    rw [Stream.write_received, List.append_assoc, List.append_assoc] at later
    exact later
  | flush next ih => exact ih tee.flush tee

/-- What a stream holds after a first write, all of a computation and a last write. -/
theorem received_between (writing : Writing α) {stream after : Stream} {first last : Bytes}
    (opened : (stream.write first).1 = .ok ())
    (closed : (writing.on ⟨(stream.write first).2, []⟩).2.sink.write last = (.ok (), after)) :
    let pieces := writing.pieces (stream.write first).2
    after.received =
      stream.received ++ first ++ Piece.written pieces ++ Piece.cut pieces ++ last := by
  intro pieces
  have before : (stream.write first).2.received = stream.received ++ first :=
    Stream.received_of_write (Prod.ext opened rfl)
  calc after.received
    _ = (writing.on ⟨(stream.write first).2, []⟩).2.sink.received ++ last :=
      Stream.received_of_write closed
    _ = (stream.write first).2.received ++ Piece.arrived pieces ++ last := by
      rw [(writing.on_received _).1]
    _ = _ := by
      rw [before, arrived_eq, ← List.append_assoc]

end Writing

theorem Backend.scripted_written (output : List Bytes) (result : Except BuildError ExitCode)
    (arguments : List String) (machine : Machine) {stream : Stream} (endless : stream.room = none) :
    Piece.written ((scripted output result arguments machine).pieces stream) = output.flatten := by
  unfold scripted
  induction output generalizing stream with
  | nil => rfl
  | cons data rest ih =>
    have whole := Stream.fitting_endless endless data
    have passed := Stream.write_passed_iff.mpr whole
    have later := ih (Stream.write_endless endless data)
    rw [scripted.go, Writing.pieces]
    cases went : stream.write data with
    | mk answer after =>
      rw [went] at passed later
      cases passed
      rw [Piece.written_cons, Piece.isWhole, whole, if_pos (beq_self_eq_true data),
        List.flatten_cons]
      exact congrArg (data ++ ·) later

end KotlinCompile
