import KotlinCompile.Arguments
import KotlinCompile.Classpath
import KotlinCompile.Error
import KotlinCompile.Path
import KotlinCompile.Request

/-! The compiler's arguments put together from a request, its classpath and the wiring of kapt. The
staged sources are read off the machine; nothing is written. -/
namespace KotlinCompile.Kapt

structure Wiring where
  classpath : List Path := []
  options : List PluginOption := []
deriving DecidableEq

structure Inputs where
  kaptJar : Option Path
  toolsJar : Option Path
  sources : Path
  classes : Path
  stubs : Path
  servicesJar : Path
  processorClasspath : List Path
  correctErrorTypes : Bool
  processorOptions : SortedMap String
  javacArguments : SortedMap String

/-- Stubs are generated and then processed in the same run. -/
def mode : String := "stubsAndApt"

def pathOption (key : Key) (path : Path) : PluginOption := .kapt key path.text

/-- The option that carries a whole map; an empty map is not handed over. -/
def mapOptions (key : Key) (options : SortedMap String) :
    Except BuildError (List PluginOption) :=
  if options.isEmpty then .ok []
  else match Payload.encode options with
    | .ok text => .ok [.kapt key text]
    | .error error => .error (.optionEncoding error)

def fixedOptions (inputs : Inputs) : List PluginOption :=
  [pathOption .sources inputs.sources, pathOption .classes inputs.classes,
      pathOption .stubs inputs.stubs, pathOption .apClasspath inputs.servicesJar]
    ++ inputs.processorClasspath.map (pathOption .apClasspath)
    ++ [.kapt .correctErrorTypes (if inputs.correctErrorTypes then "true" else "false"),
      .kapt .aptMode mode]

def wire (inputs : Inputs) : Except BuildError Wiring :=
  match inputs.kaptJar with
  | none => .error .missingKaptArchive
  | some kaptJar => do
    let processorOptions ← mapOptions .apOptions inputs.processorOptions
    let javacArguments ← mapOptions .javacArguments inputs.javacArguments
    return ⟨kaptJar :: inputs.toolsJar.toList,
      fixedOptions inputs ++ processorOptions ++ javacArguments⟩

end KotlinCompile.Kapt

namespace KotlinCompile

structure Composition where
  arguments : Arguments
  advisories : List String
deriving DecidableEq

namespace Composition

def parsePluginOptions (options : List String) : Except BuildError (List PluginOption) :=
  options.mapM fun option => (PluginOption.parse option).mapError .invalidPluginOption

/-- The files below a directory at any depth. A path that is longer than any the machine follows
is no directory, so `depth` levels suffice if that many characters do not fit into a path. -/
def filesBelow (machine : Machine) : Nat → Path → Except BuildError (List Path)
  | 0, _ => .ok []
  | depth + 1, directory => do
    let entries ← (machine.list directory).mapError (.io directory)
    let files ← entries.mapM fun entry =>
      if machine.isDirectory entry then filesBelow machine depth entry
      else return if machine.isFile entry then [entry] else []
    return files.flatten

/-- Every file below a directory in path order. A directory that is missing has none. -/
def stagedSources (machine : Machine) (directory : Path) : Except BuildError (List Path) :=
  if machine.isDirectory directory then
    Path.sorted <$> filesBelow machine (Tree.longestPath + 1) directory
  else .ok []

def withoutServices : String :=
  "No services were given. Not including kapt in the compiler's plugins."

def withoutJdk : String :=
  "No JDK home was given. Passing -no-jdk; JDK classes must come from the classpath."

def advisoriesFor (request : Request) : List String :=
  if request.options.verbose then
    (if request.hasServices then [] else [withoutServices]) ++
      (if request.options.jdkHome.isNone then [withoutJdk] else [])
  else []

def wiringFor (request : Request) (kapt : Option Kapt.Wiring) : Except BuildError Kapt.Wiring :=
  if request.hasServices then
    match kapt with
    | some wiring => .ok wiring
    | none => .error .missingKaptArchive
  else .ok {}

def argumentsFor (request : Request) (sources : List Path) (classpath : String)
    (pluginOptions : List PluginOption) (wiring : Kapt.Wiring) : Arguments where
  freeArgs := sources.map (·.text) ++ request.options.freeArgs
  destination := request.layout.classes
  classpath
  jdkHome := request.options.jdkHome
  noJdk := request.options.jdkHome.isNone
  noStdlib := true
  noReflect := true
  jvmTarget := request.options.jvmTarget
  verbose := request.options.verbose
  suppressWarnings := request.options.suppressWarnings
  allWarningsAsErrors := request.options.allWarningsAsErrors
  reportOutputFiles := request.options.reportOutputFiles
  reportPerformance := request.options.reportPerformance
  skipRuntimeVersionCheck := request.options.skipRuntimeVersionCheck
  loadBuiltinsFromDependencies := request.options.loadBuiltinsFromDependencies
  moduleName := request.options.moduleName
  languageVersion := request.options.languageVersion
  apiVersion := request.options.apiVersion
  javaParameters := request.options.javaParameters
  pluginClasspaths := request.options.pluginClasspaths ++ wiring.classpath
  pluginOptions := pluginOptions ++ wiring.options

def compose (machine : Machine) (request : Request) (classpath : Classpath)
    (kapt : Option Kapt.Wiring) : Except BuildError Composition := do
  let sources ← stagedSources machine request.layout.sources
  let pluginOptions ← parsePluginOptions request.options.pluginOptions
  let wiring ← wiringFor request kapt
  let joined ← classpath.join
  return ⟨argumentsFor request sources joined pluginOptions wiring, advisoriesFor request⟩

end Composition
end KotlinCompile
