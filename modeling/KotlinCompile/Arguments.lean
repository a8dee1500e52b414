import KotlinCompile.Options.Basic
import KotlinCompile.Path
import KotlinCompile.Plugin.Option

namespace KotlinCompile

structure Arguments where
  /-- The staged sources, and then the arguments given freely. -/
  freeArgs : List String := []
  destination : Path := ⟨""⟩
  classpath : String := ""
  jdkHome : Option Path := none
  noJdk : Bool := false
  noStdlib : Bool := false
  noReflect : Bool := false
  jvmTarget : Option JvmTarget := none
  verbose : Bool := false
  suppressWarnings : Bool := false
  allWarningsAsErrors : Bool := false
  reportOutputFiles : Bool := false
  reportPerformance : Bool := false
  skipRuntimeVersionCheck : Bool := false
  loadBuiltinsFromDependencies : Bool := false
  moduleName : Option String := none
  languageVersion : Option String := none
  apiVersion : Option String := none
  javaParameters : Bool := false
  pluginClasspaths : List Path := []
  pluginOptions : List PluginOption := []
deriving DecidableEq

namespace Arguments

def switch (flag : String) (on : Bool) : List String := if on then [flag] else []

def setting (flag : String) : Option String → List String
  | some value => [flag, value]
  | none => []

def classpathArguments (text : String) : List String :=
  if text = "" then [] else ["-classpath", text]

/-- A home is named, or else the compiler may be told to do without one. -/
def jdkArguments (home : Option Path) (noJdk : Bool) : List String :=
  match home with
  | some home => ["-jdk-home", home.text]
  | none => switch "-no-jdk" noJdk

def pluginArguments (paths : List Path) : List String :=
  if paths.isEmpty then [] else ["-Xplugin=" ++ ",".intercalate (paths.map (·.text))]

def optionArguments (options : List PluginOption) : List String :=
  options.flatMap fun option => ["-P", option.text]

def rendered (a : Arguments) : List String :=
  ["-d", a.destination.text]
    ++ classpathArguments a.classpath
    ++ jdkArguments a.jdkHome a.noJdk
    ++ switch "-no-stdlib" a.noStdlib
    ++ switch "-no-reflect" a.noReflect
    ++ setting "-jvm-target" (a.jvmTarget.map (·.text))
    ++ switch "-verbose" a.verbose
    ++ switch "-nowarn" a.suppressWarnings
    ++ switch "-Werror" a.allWarningsAsErrors
    ++ switch "-Xreport-output-files" a.reportOutputFiles
    ++ switch "-Xreport-perf" a.reportPerformance
    ++ switch "-Xskip-runtime-version-check" a.skipRuntimeVersionCheck
    ++ switch "-Xload-builtins-from-dependencies" a.loadBuiltinsFromDependencies
    ++ setting "-module-name" a.moduleName
    ++ setting "-language-version" a.languageVersion
    ++ setting "-api-version" a.apiVersion
    ++ switch "-java-parameters" a.javaParameters
    ++ pluginArguments a.pluginClasspaths
    ++ optionArguments a.pluginOptions

def commandLine (a : Arguments) : List String := a.rendered ++ a.freeArgs

end Arguments
end KotlinCompile
