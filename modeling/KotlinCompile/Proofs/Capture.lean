import KotlinCompile.Proofs.Compiler.Writing
import Mathlib.Data.List.TakeDrop

/-! What a tee captures, call by call, on a stream that takes so many bytes. While all that is
offered fits, the copy is what the stream holds. The first write that is refused fills the stream
up, and what goes through from then on is empty. -/
namespace KotlinCompile.Tee

inductive Call where
  | write (data : Bytes)
  | flush
deriving DecidableEq

namespace Call

def data : Call → Bytes
  | write data => data
  | flush => []

/-- What is offered to the stream by some calls, whether or not it takes it. -/
def offered (calls : List Call) : Bytes := calls.flatMap data

end Call

abbrev Event := Call × Except Cause Unit

namespace Event

def passed : Event → Bytes
  | (call, .ok _) => call.data
  | (_, .error _) => []

/-- Something was offered and refused. -/
def IsRefusal (event : Event) : Prop := event.1.data ≠ [] ∧ ∃ cause, event.2 = .error cause

end Event

def perform (tee : Tee) : Call → Except Cause Unit × Tee
  | .write data => tee.write data
  | .flush => (tee.flush, tee)

/-- The events of some calls, and the tee as they leave it. -/
def performAll (tee : Tee) : List Call → List Event × Tee
  | [] => ([], tee)
  | call :: rest =>
    let (answer, next) := tee.perform call
    let (events, last) := next.performAll rest
    ((call, answer) :: events, last)

theorem performAll_append (tee : Tee) (before after : List Call) :
    tee.performAll (before ++ after) =
      ((tee.performAll before).1 ++ ((tee.performAll before).2.performAll after).1,
        ((tee.performAll before).2.performAll after).2) := by
  induction before generalizing tee with
  | nil => rfl
  | cons call rest ih =>
    simp only [List.cons_append, performAll]
    rw [ih]

theorem performAll_calls (tee : Tee) (calls : List Call) :
    (tee.performAll calls).1.map Prod.fst = calls := by
  induction calls generalizing tee with
  | nil => rfl
  | cons call rest ih => simp [performAll, ih]

theorem perform_captured (tee : Tee) (call : Call) :
    (tee.perform call).2.captured = tee.captured ++ Event.passed (call, (tee.perform call).1) := by
  cases call with
  | flush => cases flushed : tee.flush <;> simp [perform, flushed, Event.passed, Call.data]
  | write data =>
    cases answer : (tee.sink.write data).1 with
    | ok _ => simp [perform, write_passed answer, Event.passed, Call.data]
    | error cause => simp [perform, write_refused answer, Event.passed]

/-- What is captured is what the calls brought through. -/
theorem performAll_captured (tee : Tee) (calls : List Call) :
    (tee.performAll calls).2.captured =
      tee.captured ++ (tee.performAll calls).1.flatMap Event.passed := by
  induction calls generalizing tee with
  | nil => simp [performAll]
  | cons call rest ih => simp [performAll, ih, perform_captured]

/-- A tee that was made on an empty stream for so many bytes, when some data was offered to it. -/
structure Follows (capacity : Nat) (data : Bytes) (tee : Tee) : Prop where
  received : tee.sink.received = data.take capacity
  room : tee.sink.room = some (capacity - data.length)
  front : tee.captured <+: data.take capacity
  whole : data.length ≤ capacity → tee.captured = data

section Follows
variable {capacity room : Nat} {data more : Bytes} {tee : Tee} {call : Call}

theorem follows_fresh (capacity : Nat) (flushFails : Bool) :
    Follows capacity [] { sink := { room := some capacity, flushFails } } := by
  constructor <;> simp

namespace Follows

/-- A write goes through as far as there is room for it. -/
theorem answer_iff (follows : Follows capacity data tee) (more : Bytes) :
    (tee.sink.write more).1 = .ok () ↔ more.length ≤ capacity - data.length := by
  rw [Stream.write_passed_iff, Stream.fitting, follows.room]
  exact List.take_eq_self_iff more

theorem captured_within (follows : Follows capacity data tee)
    (fits : (data ++ more).length ≤ capacity) : (tee.write more).2.captured = data ++ more := by
  rw [List.length_append] at fits
  have passes : (tee.sink.write more).1 = .ok () := (follows.answer_iff more).mpr (by omega)
  rw [write_passed passes]
  exact congrArg (· ++ more) (follows.whole (by omega))

theorem captured_beyond (follows : Follows capacity data tee)
    (exceeds : capacity < (data ++ more).length) : (tee.write more).2.captured = tee.captured := by
  rw [List.length_append] at exceeds
  cases answer : (tee.sink.write more).1 with
  | error cause => rw [write_refused answer]
  | ok _ =>
    have fits := (follows.answer_iff more).mp answer
    have empty : more = [] := List.eq_nil_of_length_eq_zero (by omega)
    rw [write_passed answer, empty, List.append_nil]

theorem write (follows : Follows capacity data tee) (more : Bytes) :
    Follows capacity (data ++ more) (tee.write more).2 := by
  have sink : (tee.write more).2.sink = (tee.sink.write more).2 := by rw [write_eq]
  have cut : (data ++ more).take capacity =
      data.take capacity ++ more.take (capacity - data.length) := List.take_append
  constructor
  · rw [sink, Stream.write_received, Stream.fitting, follows.room, follows.received, cut]
  · rw [sink, Stream.write_room follows.room, List.length_append, Nat.sub_add_eq]
  · by_cases fits : (data ++ more).length ≤ capacity
    · have same : (tee.write more).2.captured = (data ++ more).take capacity :=
        (follows.captured_within fits).trans (List.take_of_length_le fits).symm
      exact same ▸ List.prefix_rfl
    · rw [follows.captured_beyond (Nat.lt_of_not_le fits), cut]
      exact follows.front.trans (List.prefix_append _ _)
  · exact follows.captured_within

theorem perform (follows : Follows capacity data tee) (call : Call) :
    Follows capacity (data ++ call.data) (tee.perform call).2 := by
  cases call with
  | write more => exact follows.write more
  | flush => simpa [Tee.perform, Call.data] using follows

theorem performAll (follows : Follows capacity data tee) (calls : List Call) :
    Follows capacity (data ++ Call.offered calls) (tee.performAll calls).2 := by
  induction calls generalizing data tee with
  | nil => simpa [Tee.performAll, Call.offered] using follows
  | cons call rest ih =>
    have later := ih (follows.perform call)
    rw [List.append_assoc] at later
    exact later

/-- Where something was refused, more was offered than the stream takes. -/
theorem exceeded (follows : Follows capacity data tee) {calls : List Call} {event : Event}
    (member : event ∈ (tee.performAll calls).1) (refusal : event.IsRefusal) :
    capacity < (data ++ Call.offered calls).length := by
  induction calls generalizing data tee with
  | nil => cases member
  | cons call rest ih =>
    rcases List.mem_cons.mp member with rfl | later
    · obtain ⟨filled, cause, refused⟩ := refusal
      cases call with
      | flush => exact absurd rfl filled
      | write more =>
        have exceeds : ¬ more.length ≤ capacity - data.length := by
          intro fits
          have answer : (tee.write more).1 = .error cause := refused
          rw [write_passed ((follows.answer_iff more).mpr fits)] at answer
          cases answer
        simp only [Call.offered, Call.data, List.flatMap_cons, List.length_append]
        omega
    · have exceeds := ih (follows.perform call) later
      rw [List.append_assoc] at exceeds
      exact exceeds

theorem captured_still (follows : Follows capacity data tee) (exceeds : capacity < data.length)
    (calls : List Call) : (tee.performAll calls).2.captured = tee.captured := by
  induction calls generalizing data tee with
  | nil => rfl
  | cons call rest ih =>
    have longer : capacity < (data ++ call.data).length := by
      rw [List.length_append]
      omega
    have same : (tee.perform call).2.captured = tee.captured := by
      cases call with
      | write more => exact follows.captured_beyond longer
      | flush => rfl
    exact (ih (follows.perform call) longer).trans same

end Follows
end Follows

/-- After every call the copy is what the calls brought through, and the stream begins with it; the
stream holds the front of all that was offered; and once something was refused, the copy stays as it
is. So texts that are offered in different pieces are captured alike if the stream takes them whole,
wherever they are cut. -/
theorem captured_follows_stream (capacity : Nat) (flushFails : Bool) (calls : List Call) :
    let fresh : Tee := { sink := { room := some capacity, flushFails } }
    (∀ done rest, calls = done ++ rest →
      let (events, tee) := fresh.performAll done
      events.map Prod.fst = done ∧
      tee.captured = events.flatMap Event.passed ∧
      tee.captured <+: tee.sink.received ∧
      tee.sink.received = (Call.offered done).take capacity ∧
      ((∃ event ∈ events, event.IsRefusal) →
        (fresh.performAll calls).2.captured = tee.captured)) ∧
    ((Call.offered calls).length ≤ capacity →
      (fresh.performAll calls).2.captured = Call.offered calls ∧
      ∀ others, Call.offered others = Call.offered calls →
        (fresh.performAll others).2.text = (fresh.performAll calls).2.text) := by
  intro fresh
  have follows (calls : List Call) :
      Follows capacity (Call.offered calls) (fresh.performAll calls).2 :=
    (follows_fresh capacity flushFails).performAll calls
  constructor
  · rintro done rest rfl
    refine ⟨performAll_calls fresh done, performAll_captured fresh done, ?_,
      (follows done).received, ?_⟩
    · rw [(follows done).received]
      exact (follows done).front
    · rintro ⟨event, member, refusal⟩
      have exceeds := (follows_fresh capacity flushFails).exceeded member refusal
      rw [performAll_append]
      exact (follows done).captured_still exceeds rest
  · intro fits
    have whole := (follows calls).whole fits
    refine ⟨whole, fun others same => ?_⟩
    have alike := (follows others).whole (same ▸ fits)
    rw [text, text, whole, alike, same]

/-- A character in two pieces is captured where it fits; where only half of it does, the half that
the stream takes is left out of the copy, and so is what comes behind it. -/
theorem halved_character_captured :
    let fresh : Tee := { sink := { room := some 2 } }
    let beyond : List Call :=
      [.write [0x61], .write [0xC3, 0xA9], .write [], .flush, .write [0x62]]
    (∃ event ∈ (fresh.performAll (beyond.take 2)).1, event.IsRefusal) ∧
    (fresh.performAll beyond).2.sink.received = [0x61, 0xC3] ∧
    (fresh.performAll beyond).2.captured = [0x61] ∧
    (fresh.performAll [.write [0xC3], .flush, .write [0xA9]]).2.text =
      (fresh.performAll [.write [0xC3, 0xA9]]).2.text := by
  intro fresh beyond
  have refusal : ∃ event ∈ (fresh.performAll (beyond.take 2)).1, event.IsRefusal :=
    ⟨(.write [0xC3, 0xA9], .error .streamFull), by decide, by decide, .streamFull, rfl⟩
  have ⟨each, _⟩ := captured_follows_stream 2 false beyond
  have ⟨_, _, _, _, still⟩ := each (beyond.take 2) (beyond.drop 2) rfl
  have ⟨_, _, _, received, _⟩ := each beyond [] rfl
  have ⟨_, alike⟩ := (captured_follows_stream 2 false [.write [0xC3, 0xA9]]).2 (by decide)
  exact ⟨refusal, received, still refusal, alike [.write [0xC3], .flush, .write [0xA9]] rfl⟩

end KotlinCompile.Tee
