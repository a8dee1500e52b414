import KotlinCompile.Error
import KotlinCompile.Machine.Files
import KotlinCompile.Path
import KotlinCompile.Text.Character
import KotlinCompile.Text.Cut

/-! One compilation as it is asked for: options, perhaps from a profile on disk, registrations of
service providers, and sources that exist only in memory until they are staged. Two requests with
one working directory must not run at the same time, since what they write has fixed places below
it. -/
namespace KotlinCompile

namespace CompilerOptions

def parse (text : String) : Except BuildError CompilerOptions :=
  (Profile.parse text).mapError .config

/-- The options of a profile, with its relative paths resolved against its own directory. -/
def load (machine : Machine) (profile : Path) : Except BuildError CompilerOptions := do
  let text ← (machine.readText profile).mapError (.io profile)
  let options ← parse text
  return match profile.parent? with
    | some directory => options.rebase directory
    | none => options

end CompilerOptions

namespace ClassName

def isIdentifier : List Char → Bool
  | [] => false
  | first :: rest =>
    (Text.isAlphabetic first || first == '_') &&
      rest.all fun c => Text.isAlphanumeric c || c == '_'

def isMember : List Char → Bool
  | [] => false
  | first :: rest => !Text.isDigit first && isIdentifier (first :: rest)

def isPart (part : List Char) : Bool :=
  match Text.pieces '$' part with
  | [] => false
  | outer :: members => isIdentifier outer && members.all isMember

def isResolvable (name : String) : Bool :=
  name != "" && (Text.pieces '.' name.toList).all isPart

end ClassName

structure ServiceBinding where
  interface : String
  implementation : String
deriving DecidableEq

namespace ServiceBinding

def processorInterface : String := "javax.annotation.processing.Processor"

def entriesBelow : String := "META-INF/services/"

def check (binding : ServiceBinding) : Except BuildError Unit :=
  if !ClassName.isResolvable binding.interface then
    .error (.unresolvableIdentity .interface binding.interface)
  else if !ClassName.isResolvable binding.implementation then
    .error (.unresolvableIdentity .implementation binding.implementation)
  else .ok ()

def checkAll (bindings : List ServiceBinding) : Except BuildError Unit := bindings.forM check

/-- The implementations of each interface in the order they were first given, the interfaces
ascending. -/
def grouped (bindings : List ServiceBinding) : SortedMap (List String) :=
  bindings.eraseDups.foldl (fun groups binding =>
    let others := (groups.get? binding.interface).getD []
    groups.insert binding.interface (others ++ [binding.implementation])) ∅

def body (implementations : List String) : String :=
  String.join (implementations.map (· ++ "\n"))

def archiveEntries (bindings : List ServiceBinding) : List (String × String) :=
  (grouped bindings).entries.map fun (interface, implementations) =>
    (entriesBelow ++ interface, body implementations)

/-- Writes the archive. All bindings are checked before anything is touched. -/
def package (bindings : List ServiceBinding) (destination : Path) : OnMachine BuildError Unit := do
  liftExcept (checkAll bindings)
  match destination.parent? with
  | some parent => failingWith (.io parent) (Machine.createDirectories parent)
  | none => pure ()
  failingWith (.io destination)
    (Machine.write destination (.archive (archiveEntries bindings)))

end ServiceBinding

structure SourceFile where
  path : Path
  contents : String
deriving DecidableEq

namespace SourceFile

def named (name ending contents : String) : SourceFile :=
  let path : Path := ⟨name⟩
  ⟨if path.extension?.isSome then path else path.addExtension ending, contents⟩

/-- A Kotlin file; a name without an extension is given one. -/
def kotlin (name contents : String) : SourceFile := named name "kt" contents

def java (name contents : String) : SourceFile := named name "java" contents

def staysBelow : Component → Bool
  | .name _ | .here => true
  | .root | .up => false

/-- A path that leads from any directory to a place strictly below it. -/
def isStageable (path : Path) : Bool :=
  path.components.all staysBelow && !path.names.isEmpty

def check (source : SourceFile) : Except BuildError Unit :=
  if isStageable source.path then .ok () else .error (.invalidSourcePath source.path)

def target (source : SourceFile) (directory : Path) : Path := directory.join source.path

def stage (directory : Path) (source : SourceFile) : OnMachine BuildError Path := do
  liftExcept source.check
  let target := source.target directory
  match target.parent? with
  | some parent => failingWith (.io parent) (Machine.createDirectories parent)
  | none => pure ()
  failingWith (.io target) (Machine.write target (.bytes (Text.utf8 source.contents)))
  return target

end SourceFile

structure Request where
  layout : Layout
  sources : List SourceFile := []
  services : List ServiceBinding := []
  options : CompilerOptions := {}
deriving DecidableEq

namespace Request

def workingDirectory (request : Request) : Path := request.layout.root

def bindings (request : Request) : List ServiceBinding :=
  request.services ++
    request.options.annotationProcessors.map (⟨ServiceBinding.processorInterface, ·⟩)

def hasServices (request : Request) : Bool := !request.bindings.isEmpty

end Request
end KotlinCompile
