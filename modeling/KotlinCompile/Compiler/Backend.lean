import KotlinCompile.Error
import KotlinCompile.Machine.Tree
import KotlinCompile.Text.Cut
import KotlinCompile.Text.Encoding

/-! A compiler, as a computation that reads and changes the machine and writes diagnostics. It sees
of the stream only whether each write went through; a stream with room for so many bytes is filled
up exactly, and then a write of anything more fails. -/
namespace KotlinCompile

inductive ExitCode where
  | ok
  | compilationError
  | internalError
  | scriptExecutionError
  | failure (status : Option Int)
deriving DecidableEq

namespace ExitCode

def ofStatus : Option Int → ExitCode
  | some 0 => ok
  | some 1 => compilationError
  | some 2 => internalError
  | some 3 => scriptExecutionError
  | status => failure status

def isSuccess (exit : ExitCode) : Bool := exit == ok

def status : ExitCode → Int
  | ok => 0
  | compilationError => 1
  | internalError => 2
  | scriptExecutionError => 3
  | failure status => status.getD (-1)

def name : ExitCode → String
  | ok => "Ok"
  | compilationError => "CompilationError"
  | internalError => "InternalError"
  | scriptExecutionError => "ScriptExecutionError"
  | failure (some status) => s!"Failure(Some({status}))"
  | failure none => "Failure(None)"

end ExitCode

structure Stream where
  received : Bytes := []
  /-- The bytes that still fit; none for a stream that takes everything. -/
  room : Option Nat := none
  flushFails : Bool := false
deriving DecidableEq

namespace Stream

def text (stream : Stream) : String := Text.lossy stream.received

def write (stream : Stream) (data : Bytes) : Except Cause Unit × Stream :=
  match stream.room with
  | none => (.ok (), { stream with received := stream.received ++ data })
  | some room =>
    if data.length ≤ room then
      (.ok (), { stream with received := stream.received ++ data, room := some (room - data.length) })
    else
      (.error .streamFull,
        { stream with received := stream.received ++ data.take room, room := some 0 })

def flush (stream : Stream) : Except Cause Unit :=
  if stream.flushFails then .error .flushFailed else .ok ()

end Stream

/-- Passes what is written on to a stream, and keeps a copy of all that went through. -/
structure Tee where
  sink : Stream
  captured : Bytes := []
deriving DecidableEq

namespace Tee

def text (tee : Tee) : String := Text.lossy tee.captured

def write (tee : Tee) (data : Bytes) : Except Cause Unit × Tee :=
  match tee.sink.write data with
  | (.ok (), sink) => (.ok (), ⟨sink, tee.captured ++ data⟩)
  | (.error cause, sink) => (.error cause, { tee with sink })

def flush (tee : Tee) : Except Cause Unit := tee.sink.flush

end Tee

/-- A computation that writes diagnostics piece by piece and goes on according to each answer. -/
inductive Writing (α : Type) where
  | finished (result : α)
  | write (data : Bytes) (next : Except Cause Unit → Writing α)
  | flush (next : Except Cause Unit → Writing α)

namespace Writing

def on {α : Type} : Writing α → Tee → α × Tee
  | finished result, tee => (result, tee)
  | write data next, tee =>
    let (answer, tee) := tee.write data
    (next answer).on tee
  | flush next, tee => (next tee.flush).on tee

end Writing

/-- A compiler: for its arguments and the machine, what it writes, and then how it ended. -/
abbrev Backend := List String → Machine → Writing (Except BuildError ExitCode × Machine)

namespace Backend

def scripted (output : List Bytes) (result : Except BuildError ExitCode) : Backend :=
  fun _ machine => go machine output
where
  go (machine : Machine) : List Bytes → Writing (Except BuildError ExitCode × Machine)
    | [] => .finished (result, machine)
    | data :: rest => .write data fun
      | .ok () => go machine rest
      | .error cause => .finished (.error (.diagnostics cause), machine)

end Backend

structure Outcome where
  exit : ExitCode
  diagnostics : String
  inheritClasspath : Bool

abbrev FailureRule := Outcome → Option String

namespace FailureRule

/-- What the javac of a newer JDK says when it meets the tools.jar of JDK 8. -/
def legacySignature : String :=
  "No enum constant com.sun.tools.javac.main.Option.BOOT_CLASS_PATH"

def legacyWarning : String :=
  "The compiler reported an internal error that is most likely caused by a tools.jar from JDK 8 "
    ++ "or earlier being used together with JDK 9 or later."

def inheritedWarning : String :=
  " The host classpath is inherited: make sure it does not contain a tools.jar or an unwanted JDK."

def legacyToolsJar : FailureRule := fun outcome =>
  if outcome.exit = .internalError ∧
      Text.hasRun legacySignature.toList outcome.diagnostics.toList = true then
    some (legacyWarning ++ if outcome.inheritClasspath then inheritedWarning else "")
  else none

def defaults : List FailureRule := [legacyToolsJar]

def warnings (rules : List FailureRule) (outcome : Outcome) : List String :=
  rules.filterMap fun rule => rule outcome

end FailureRule
end KotlinCompile
