import KotlinCompile.Kapt.Payload
import KotlinCompile.Machine.Tree
import KotlinCompile.Options.Profile
import KotlinCompile.Plugin.Option

/-! Why a build could not be carried out. What the compiler says about the sources is not an
error but an exit code. -/
namespace KotlinCompile

/-- How far one invocation of the compiler has got. -/
inductive Phase where
  | unstarted
  | staged
  | running
  | completed
deriving DecidableEq

def Phase.name : Phase → String
  | unstarted => "Unstarted"
  | staged => "Staged"
  | running => "Running"
  | completed => "Completed"

inductive ServiceSide where
  | interface
  | implementation
deriving DecidableEq

def ServiceSide.text : ServiceSide → String
  | interface => "service interface"
  | implementation => "service implementation"

inductive SearchFault where
  | noLauncherIn (home : Path)
  | nowhere
  | noHomeFor (launcher : Path)
  | unrecognisedVersion (launcher : Path) (output : String)
deriving DecidableEq

def SearchFault.message : SearchFault → String
  | noLauncherIn home => s!"'{home.text}' does not contain bin/kotlinc"
  | nowhere => "Unable to locate 'kotlinc'. Set KOTLIN_HOME or put kotlinc on PATH."
  | noHomeFor launcher => s!"Failed to derive KOTLIN_HOME from '{launcher.text}'"
  | unrecognisedVersion launcher output =>
    s!"unrecognised version output from '{launcher.text}': {Text.trimmed output}"

inductive BuildError where
  | config (fault : Profile.Fault)
  | missingKaptArchive
  | unresolvableIdentity (side : ServiceSide) (name : String)
  | invalidSourcePath (path : Path)
  | invalidPluginOption (error : PluginOption.Error)
  | optionEncoding (error : Kapt.Payload.Error)
  | invalidClasspathEntry (entry : Path)
  | io (path : Path) (cause : Cause)
  | archive (path : Path) (cause : Cause)
  | compilerNotFound (fault : SearchFault)
  | compilerSpawn (command : String) (cause : Cause)
  | diagnostics (cause : Cause)
  | invalidState (expected actual : Phase)
deriving DecidableEq

namespace BuildError

def message : BuildError → String
  | config fault => s!"Configuration error: invalid compiler profile: {fault.message}"
  | missingKaptArchive =>
    "Annotation processing was requested but no kotlin-annotation-processing archive is "
      ++ "available. Put it on the host classpath or select it explicitly."
  | unresolvableIdentity side name =>
    s!"{side.text} '{name}' is not a resolvable fully-qualified class name"
  | invalidSourcePath path => s!"Source path '{path.text}' escapes the staging directory"
  | invalidPluginOption error =>
    s!"Invalid plugin option '{error.option}': {error.fault.message}"
  | optionEncoding error => s!"Cannot encode option '{error.key}': {error.fault.message}"
  | invalidClasspathEntry entry =>
    s!"Classpath entry '{entry.text}' contains the platform path separator"
  | io path cause => s!"IO error at '{path.text}': {cause.message}"
  | archive path cause => s!"Failed to write archive '{path.text}': {cause.message}"
  | compilerNotFound fault => s!"Kotlin compiler not found: {fault.message}"
  | compilerSpawn command cause => s!"Failed to launch compiler '{command}': {cause.message}"
  | diagnostics cause => s!"Failed to forward compiler diagnostics: {cause.message}"
  | invalidState expected actual => s!"Invocation is {actual.name}, expected {expected.name}"

/-- Whether the request itself is at fault, which is found out before anything is written. -/
def isConfiguration : BuildError → Bool
  | config _ | missingKaptArchive | unresolvableIdentity .. | invalidSourcePath _
  | invalidPluginOption _ | optionEncoding _ | invalidClasspathEntry _ => true
  | _ => false

end BuildError
end KotlinCompile
