import KotlinCompile.Classpath
import KotlinCompile.Compiler.Backend
import KotlinCompile.Composition
import KotlinCompile.Request

/-! One run of the compiler: the sources are staged, and then the compiler is called, each of them
once and in this order. A step is entered before its work is done, so a step that failed is not
tried again. The supporting archives are resolved when they are first needed and then kept. -/
namespace KotlinCompile

structure Invocation where
  phase : Phase := .unstarted
deriving DecidableEq

namespace Invocation

def advance (invocation : Invocation) (expected next : Phase) : Except BuildError Invocation :=
  if invocation.phase = expected then .ok ⟨next⟩
  else .error (.invalidState expected invocation.phase)

/-- Writes the sources of a request below its sources directory, in order and up to the first
that cannot be written. -/
def stageSources (request : Request) : OnMachine BuildError (List Path) := do
  let directory := request.layout.sources
  failingWith (.io directory) (Machine.createDirectories directory)
  request.sources.mapM (SourceFile.stage directory)

def stage (invocation : Invocation) (request : Request) (machine : Machine) :
    Except BuildError (List Path) × Invocation × Machine :=
  match invocation.advance .unstarted .staged with
  | .error error => (.error error, invocation, machine)
  | .ok invocation =>
    let (result, machine) := (stageSources request).run machine
    (result, invocation, machine)

structure Called where
  result : Except BuildError ExitCode
  invocation : Invocation
  machine : Machine
  tee : Tee
  entered : Bool

/-- Hands the arguments to a compiler. If it cannot be launched the invocation stays running. -/
def execute (invocation : Invocation) (backend : Backend) (arguments : List String)
    (machine : Machine) (tee : Tee) : Called :=
  match invocation.advance .staged .running with
  | .error error => ⟨.error error, invocation, machine, tee, false⟩
  | .ok running =>
    let ((result, machine), tee) := (backend arguments machine).on tee
    match result with
    | .error error => ⟨.error error, running, machine, tee, true⟩
    | .ok exit =>
      match running.advance .running .completed with
      | .error error => ⟨.error error, running, machine, tee, true⟩
      | .ok completed => ⟨.ok exit, completed, machine, tee, true⟩

end Invocation

structure Compilation where
  request : Request
  backend : Backend
  resolver : Resolver := .host {}
  resolved : Option ResolvedArchives := none
  rules : List FailureRule := FailureRule.defaults

structure CompilationResult where
  exit : ExitCode
  outputDirectory : Path
  messages : String
  warnings : List String
deriving DecidableEq

namespace Compilation

/-- Another host classpath; what was resolved against the former one is forgotten. -/
def withResolver (compilation : Compilation) (resolver : Resolver) : Compilation :=
  { compilation with resolver, resolved := none }

def withRule (compilation : Compilation) (rule : FailureRule) : Compilation :=
  { compilation with rules := compilation.rules ++ [rule] }

def withRules (compilation : Compilation) (rules : List FailureRule) : Compilation :=
  { compilation with rules }

def asksHost (compilation : Compilation) : Bool :=
  Archive.all.any fun archive => compilation.request.options.archives.of archive == .discover

def archives (compilation : Compilation) (machine : Machine) : ResolvedArchives × Compilation :=
  match compilation.resolved with
  | some archives => (archives, compilation)
  | none =>
    let options := compilation.request.options
    let (locate, resolver) :=
      if compilation.asksHost then compilation.resolver.locating machine
      else (fun _ => none, compilation.resolver)
    let archives := ResolvedArchives.resolve machine options.archives locate options.jdkHome
    (archives, { compilation with resolver, resolved := some archives })

def classpath (compilation : Compilation) (machine : Machine) : Classpath × Compilation :=
  let options := compilation.request.options
  let (inherited, compilation) :=
    if options.inheritClasspath then
      let (host, resolver) := compilation.resolver.entries machine
      (host, { compilation with resolver })
    else ([], compilation)
  let (archives, compilation) := compilation.archives machine
  (.build machine.currentDirectory options.classpaths archives.classpath inherited, compilation)

def wiringInputs (request : Request) (archives : ResolvedArchives) : Kapt.Inputs where
  kaptJar := archives.found .kapt
  toolsJar := archives.found .tools
  sources := request.layout.kaptSources
  classes := request.layout.kaptClasses
  stubs := request.layout.kaptStubs
  servicesJar := request.layout.servicesJar
  processorClasspath := request.options.processorClasspath
  correctErrorTypes := request.options.correctErrorTypes
  processorOptions := request.options.kaptOptions
  javacArguments := request.options.kaptJavacArguments

def kapt (compilation : Compilation) (machine : Machine) :
    Except BuildError (Option Kapt.Wiring) × Compilation :=
  if compilation.request.hasServices then
    let (archives, compilation) := compilation.archives machine
    (some <$> Kapt.wire (wiringInputs compilation.request archives), compilation)
  else (.ok none, compilation)

def compose (compilation : Compilation) (machine : Machine) :
    Except BuildError Composition × Compilation :=
  match compilation.kapt machine with
  | (.error error, compilation) => (.error error, compilation)
  | (.ok kapt, compilation) =>
    let (classpath, compilation) := compilation.classpath machine
    (Composition.compose machine compilation.request classpath kapt, compilation)

/-- The state of a run: what it works on, and the argument lists the compiler was given. -/
structure Bench where
  compilation : Compilation
  machine : Machine
  stream : Stream
  calls : List (List String) := []

/-- A computation on the bench; what it did stays when it fails. -/
abbrev Run (α : Type) := ExceptT BuildError (StateM Bench) α

namespace Run

def raise {α : Type} (result : Except BuildError α) : Run α := fun bench => (result, bench)

def onMachine {α : Type} (work : OnMachine BuildError α) : Run α := fun bench =>
  let (result, machine) := work.run bench.machine
  (result, { bench with machine })

def ask {α : Type} (question : Compilation → Machine → α × Compilation) : Run α := fun bench =>
  let (answer, compilation) := question bench.compilation bench.machine
  (.ok answer, { bench with compilation })

def stage (request : Request) : Run Invocation := fun bench =>
  let (result, invocation, machine) := Invocation.stage {} request bench.machine
  (result.map fun _ => invocation, { bench with machine })

def say (line : String) : Run Unit := fun bench =>
  let (result, stream) := bench.stream.write (Text.utf8 (line ++ "\n"))
  (result.mapError .diagnostics, { bench with stream })

/-- Calls the compiler with its diagnostics going through a tee, and returns what went through. -/
def call (invocation : Invocation) (arguments : List String) : Run (ExitCode × String) :=
  fun bench =>
    let called :=
      invocation.execute bench.compilation.backend arguments bench.machine ⟨bench.stream, []⟩
    (called.result.map fun exit => (exit, called.tee.text),
      { bench with
        machine := called.machine
        stream := called.tee.sink
        calls := if called.entered then bench.calls ++ [arguments] else bench.calls })

end Run

def searched (archive : Archive) : String :=
  s!"Searched host classpath for {archive.label} and found no match"

/-- The advisories of a run: archives that were looked for in vain, of which those for annotation
processing matter only with services, and those of the composition. -/
def advisories (request : Request) (archives : ResolvedArchives) (composition : Composition) :
    List String :=
  (if request.options.verbose then
      (archives.missing.filter fun archive => archive.onClasspath || request.hasServices).map searched
    else [])
    ++ composition.advisories

/-- Everything that can be rejected is rejected here, before anything is written. -/
def check : Run (Option Kapt.Wiring × Classpath) := do
  let request := (← get).compilation.request
  .raise (request.sources.forM SourceFile.check)
  .raise (ServiceBinding.checkAll request.bindings)
  let _ ← Run.raise (Composition.parsePluginOptions request.options.pluginOptions)
  let kapt ← Run.raise (← Run.ask kapt)
  let classpath ← Run.ask classpath
  let _ ← Run.raise classpath.join
  return (kapt, classpath)

def prepare (request : Request) : Run Invocation := do
  let invocation ← Run.stage request
  let classes := request.layout.classes
  .onMachine (failingWith (.io classes) (Machine.createDirectories classes))
  if request.hasServices then
    .onMachine (ServiceBinding.package request.bindings request.layout.servicesJar)
  return invocation

def carryOut (request : Request) (kapt : Option Kapt.Wiring) (classpath : Classpath) :
    Run CompilationResult := do
  let invocation ← prepare request
  let composition ← Run.raise (Composition.compose (← get).machine request classpath kapt)
  let archives ← Run.ask archives
  (advisories request archives composition).forM fun advisory => .say ("logging: " ++ advisory)
  let (exit, messages) ← Run.call invocation composition.arguments.commandLine
  let warnings := FailureRule.warnings (← get).compilation.rules
    ⟨exit, messages, request.options.inheritClasspath⟩
  warnings.forM fun warning => .say ("warning: " ++ warning)
  return ⟨exit, request.layout.classes, messages, warnings⟩

def run : Run CompilationResult := do
  let request := (← get).compilation.request
  let (kapt, classpath) ← check
  carryOut request kapt classpath

end Compilation
end KotlinCompile
