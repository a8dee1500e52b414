import KotlinCompile.Compiler.Backend
import KotlinCompile.Text.Cut
import KotlinCompile.Toolchain

/-! The compiler as a process of its own. Both of its streams are read line by line at the same
time, so their lines reach the diagnostics in some interleaving, each of them whole. -/
namespace KotlinCompile

/-- A computation that watches over a process: it takes what the process prints chunk by chunk,
writes diagnostics and goes on according to each answer, and waits for the process to end. -/
inductive Watching (α : Type) where
  | finished (result : α)
  | take (chunk : Bytes) (next : Watching α)
  | write (data : Bytes) (next : Except Cause Unit → Watching α)
  | flush (next : Except Cause Unit → Watching α)
  | wait (next : Option Int → Watching α)

def Watching.writing {α : Type} (status : Option Int) (machine : Machine) :
    Watching α → Writing (α × Machine)
  | finished result => .finished (result, machine)
  | take _ next => next.writing status machine
  | write data next => .write data fun answer => (next answer).writing status machine
  | flush next => .flush fun answer => (next answer).writing status machine
  | wait next => (next status).writing status machine

structure ProcessCompiler where
  program : Path
  leading : List Bytes := []
deriving DecidableEq

namespace ProcessCompiler

def mainClass : String := "org.jetbrains.kotlin.cli.jvm.K2JVMCompiler"

def launcher (path : Path) : ProcessCompiler := ⟨path, []⟩

def jvm (java compilerJar : Path) : ProcessCompiler :=
  ⟨java, ["-cp", compilerJar.spelling, mainClass]⟩

def ofToolchain (toolchain : Toolchain) : ProcessCompiler := launcher toolchain.launcher

def discover (machine : Machine) : Except BuildError ProcessCompiler :=
  ofToolchain <$> Toolchain.discover machine

def linesOf (output : Bytes) : List Bytes := Text.piecesThrough Byte.lineFeed output

/-- The lines of two streams in the order in which they come in: each turn takes the next line of
the first stream or of the second, and what no turn takes comes last. -/
def merged : List Bool → List Bytes → List Bytes → List Bytes
  | [], first, second => first ++ second
  | true :: turns, line :: first, second => line :: merged turns first second
  | true :: turns, [], second => merged turns [] second
  | false :: turns, first, line :: second => line :: merged turns first second
  | false :: turns, first, [] => merged turns first []

def outcome (forwarded : Except Cause Unit) (status : Option Int) : Except BuildError ExitCode :=
  match forwarded with
  | .ok () => .ok (ExitCode.ofStatus status)
  | .error cause => .error (.diagnostics cause)

/-- Passes chunks on, and flushes unless a write failed. The chunks after a failed write are still
taken, so that the process never waits for a reader; and it is waited for in any case. -/
def forward : List Bytes → Watching (Except BuildError ExitCode)
  | [] => .flush conclude
  | chunk :: rest => .take chunk (.write chunk fun
    | .ok () => forward rest
    | .error cause => drain cause rest)
where
  drain (cause : Cause) : List Bytes → Watching (Except BuildError ExitCode)
    | [] => conclude (.error cause)
    | chunk :: rest => .take chunk (drain cause rest)
  conclude (forwarded : Except Cause Unit) : Watching (Except BuildError ExitCode) :=
    .wait fun status => .finished (outcome forwarded status)

def backend (compiler : ProcessCompiler) (turns : List Bool) : Backend := fun arguments machine =>
  match (Machine.run compiler.program (compiler.leading ++ arguments.map Text.utf8)).run machine with
  | (.error cause, machine) =>
    .finished (.error (.compilerSpawn compiler.program.text cause), machine)
  | (.ok ended, machine) =>
    let lines := merged turns (linesOf ended.stdout) (linesOf ended.stderr)
    (forward lines).writing ended.status machine

end ProcessCompiler
end KotlinCompile
