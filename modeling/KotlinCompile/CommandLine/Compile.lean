import KotlinCompile.Archive.Catalog
import KotlinCompile.Classpath
import KotlinCompile.CommandLine.Command
import KotlinCompile.Compiler.Compilation
import KotlinCompile.Compiler.Process
import KotlinCompile.Request

/-! Compiling the files that a command line names. What it says is added to its profile; of a thing
that can only be said once, the command line's word counts. -/
namespace KotlinCompile.CommandLine

inductive Failure where
  | build (error : BuildError)
  | profile (path : Path) (error : BuildError)
  | source (place : Path) (cause : Cause)
  | noHomeFor (launcher : Path)
  | compilation (error : BuildError)
deriving DecidableEq

namespace Failure

def message : Failure → String
  | build error => error.message
  | profile path _ => s!"Failed to load profile {path.text}"
  | source place _ => s!"Failed to read source {place.text}"
  | noHomeFor launcher => s!"Cannot derive KOTLIN_HOME from {launcher.text}"
  | compilation _ => "Compilation could not be run"

def error? : Failure → Option BuildError
  | build error | profile _ error | compilation error => some error
  | source .. | noHomeFor _ => none

def reason? : Failure → Option String
  | profile _ error | compilation error => some error.message
  | source _ cause => some cause.message
  | build _ | noHomeFor _ => none

end Failure

namespace CompileCommand

def profileOptions (command : CompileCommand) (machine : Machine) :
    Except Failure CompilerOptions :=
  match command.profile with
  | some profile => (CompilerOptions.load machine profile).mapError (.profile profile)
  | none => .ok {}

def merged (command : CompileCommand) (detected : Option Path) (options : CompilerOptions) :
    CompilerOptions :=
  { options with
    classpaths := options.classpaths ++ command.classpath
    annotationProcessors := options.annotationProcessors ++ command.processors
    processorClasspath := options.processorClasspath ++ command.processorClasspath
    jdkHome := command.jdkHome.or (options.jdkHome.or detected)
    verbose := options.verbose && !command.quiet }

/-- A source keeps the path it was named by. -/
def readSource (command : CompileCommand) (machine : Machine) (path : Path) :
    Except Failure SourceFile :=
  let place := command.sourceRoot.join path
  match machine.readText place with
  | .ok contents => .ok ⟨path, contents⟩
  | .error cause => .error (.source place cause)

def request (command : CompileCommand) (machine : Machine) (workingDirectory : Path) :
    Except Failure Request := do
  let options ← command.profileOptions machine
  let sources ← command.sources.mapM (command.readSource machine)
  return {
    layout := ⟨workingDirectory⟩
    sources
    options := command.merged (Toolchain.javaHome? machine) options }

/-- The toolchain of the launcher that was named, whose home is the directory above its own. -/
def toolchain (command : CompileCommand) (machine : Machine) : Except Failure Toolchain :=
  match command.launcher with
  | none => (Toolchain.discover machine).mapError .build
  | some launcher =>
    match launcher.parent?.bind Path.parent? with
    | some home => .ok ⟨launcher, home⟩
    | none => .error (.noHomeFor launcher)

def compilation (request : Request) (toolchain : Toolchain) (turns : List Bool) : Compilation where
  request
  backend := (ProcessCompiler.ofToolchain toolchain).backend turns
  resolver := .host { home := some toolchain.home }

def summary (result : CompilationResult) : String :=
  s!"{result.exit.name}: classes in {result.outputDirectory.text}\n"

structure Ran where
  result : Except Failure ExitCode
  machine : Machine
  printed : Stream

def refused (machine : Machine) (failure : Failure) : Ran := ⟨.error failure, machine, {}⟩

def finish (compilation : Compilation) (machine : Machine) : Ran :=
  let (result, bench) := Compilation.run.run { compilation, machine, stream := {} }
  match result with
  | .error error => ⟨.error (.compilation error), bench.machine, bench.stream⟩
  | .ok result =>
    ⟨.ok result.exit, bench.machine, (bench.stream.write (Text.utf8 (summary result))).2⟩

/-- Runs in the command's own working directory, or else in the one given. The request is built before
a toolchain is looked for. -/
def run (command : CompileCommand) (machine : Machine) (otherwise : Path) (turns : List Bool) : Ran :=
  match command.request machine (command.workingDirectory.getD otherwise) with
  | .error failure => refused machine failure
  | .ok request =>
    match command.toolchain machine with
    | .error failure => refused machine failure
    | .ok toolchain => finish (compilation request toolchain turns) machine

end CompileCommand
end KotlinCompile.CommandLine

namespace KotlinCompile.CommandLine.Describe

def versionText : Except BuildError String → String
  | .ok version => version
  | .error error => s!"unknown ({error.message})"

def archiveLine (host : List Path) (archive : Archive) : String :=
  let place := (archive.locate host).elim "(missing)" (·.text)
  s!"  {archive.label}: {place}\n"

def summary (toolchain : Toolchain) (version : Except BuildError String) (javaHome : Option Path)
    (host : List Path) : String :=
  let java := javaHome.elim "(not found)" (·.text)
  s!"kotlinc:     {toolchain.launcher.text}\n"
    ++ s!"kotlin home: {toolchain.home.text}\n"
    ++ s!"version:     {versionText version}\n"
    ++ s!"java home:   {java}\n"
    ++ String.join (Archive.all.map (archiveLine host))

def toolchain (machine : Machine) : Option Path → Except BuildError Toolchain
  | some home => Toolchain.ofHome machine home
  | none => Toolchain.discover machine

/-- Asks the toolchain its version and looks for the archives with its home. A version that cannot
be told is no failure. -/
def describe (home : Option Path) : OnMachine BuildError String := fun machine =>
  match toolchain machine home with
  | .error error => (.error error, machine)
  | .ok toolchain =>
    let (version, machine) := toolchain.version.run machine
    let host := HostClasspath.enumerate machine { home := some toolchain.home }
    (.ok (summary toolchain version (Toolchain.javaHome? machine) host), machine)

end KotlinCompile.CommandLine.Describe
