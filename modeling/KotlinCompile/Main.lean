import KotlinCompile.CommandLine.Compile

/-! The command line. No process is started from here, so compiling is a rehearsal: the files that are
named are read, all that is written stays in memory, and the arguments that the compiler would be
given are printed where its diagnostics would stand. -/
namespace KotlinCompile.Rehearsal

open CommandLine

def usage : String :=
  "Usage: compile [SETTINGS] SOURCES...\n       toolchain [--kotlin-home HOME]\n"

/-- Prints its arguments, one on a line. -/
def backend : Backend := fun arguments =>
  Backend.scripted (arguments.map fun argument => Text.utf8 (argument ++ "\n")) (.ok .ok) arguments

def variableNames : List String :=
  ["PATH", "HOME", "USERPROFILE", "KOTLIN_HOME", "JAVA_HOME", "JDK_HOME"] ++
    HostClasspath.variableNames

def withVariable (machine : Machine) (name : String) : IO Machine := do
  match ← IO.getEnv name with
  | some value =>
    return { machine with environment := machine.environment ++ [(name, Text.utf8 value)] }
  | none => return machine

def bare : IO Machine := do
  let here : Path := ⟨(← IO.currentDir).toString⟩
  let machine : Machine := ⟨.empty, [], []⟩
  let (_, machine) := (Machine.createDirectories here).run machine
  variableNames.foldlM withVariable { machine with here := here.names }

/-- Puts a file where it is in truth, if it can be read. -/
def withFile (executable : Bool) (machine : Machine) (path : Path) : IO Machine := do
  match ← (IO.FS.readBinFile path.text).toBaseIO with
  | .error _ => return machine
  | .ok data =>
    let (_, machine) := (match path.parent? with
      | some parent => Machine.createDirectories parent
      | none => pure ()).run machine
    match machine.tree.find true machine.here path with
    | .ok (.free location _) =>
      let node := Node.file (.bytes data.toList) executable
      return { machine with tree := machine.tree.put location node }
    | _ => return machine

def files (command : CompileCommand) : List Path :=
  command.profile.toList ++ command.sources.map command.sourceRoot.join

def workingDirectory : Path := ⟨"/tmp/kotlin-compile"⟩

def status (exit : ExitCode) : UInt32 := UInt32.ofNat (exit.status % 256).toNat

def report (failure : Failure) : IO Unit := do
  IO.eprintln s!"Error: {failure.message}"
  for reason in failure.reason? do
    IO.eprintln s!"Caused by: {reason}"

def compile (command : CompileCommand) : IO UInt32 := do
  let machine ← (files command).foldlM (withFile false) (← bare)
  let machine ← command.launcher.toList.foldlM (withFile true) machine
  match command.request machine (command.workingDirectory.getD workingDirectory) with
  | .error failure => report failure; return 1
  | .ok request =>
    let home := (command.toolchain machine).toOption.map (·.home)
    let ran := CompileCommand.finish { request, backend, resolver := .host { home } } machine
    IO.print ran.printed.text
    match ran.result with
    | .ok exit => return status exit
    | .error failure => report failure; return 1

def describe (home : Option Path) : IO UInt32 := do
  let machine ← bare
  let homes := home.toList ++ ((machine.valueOf? "KOTLIN_HOME").map (⟨·⟩)).toList
  let launchers := homes.map fun home => (home.child "bin").child Toolchain.launcherName
  let machine ← launchers.foldlM (withFile true) machine
  match ((Describe.describe home).run machine).1 with
  | .ok text => IO.print text; return 0
  | .error error => report (.build error); return 1

def run (words : List String) : IO UInt32 := do
  match Command.parse words with
  | .ok (.compile command) => compile command
  | .ok (.toolchain home) => describe home
  | .error .helpAsked => IO.print usage; return 0
  | .error fault => IO.eprint s!"Error: {fault.message}\n{usage}"; return 2

end KotlinCompile.Rehearsal

def main (words : List String) : IO UInt32 := KotlinCompile.Rehearsal.run words
