import KotlinCompile.Error
import KotlinCompile.Machine.Program

namespace KotlinCompile

structure Toolchain where
  launcher : Path
  home : Path
deriving DecidableEq

namespace Toolchain

def launcherName : String := "kotlinc"

def lib (toolchain : Toolchain) : Path := toolchain.home.child "lib"

def compilerJar (toolchain : Toolchain) : Path := toolchain.lib.child "kotlin-compiler.jar"

def launcherAt? (machine : Machine) (home : Path) : Option Path :=
  let inBin := (home.child "bin").child launcherName
  let inHome := home.child launcherName
  if machine.isFile inBin then some inBin
  else if home.endsWith "bin" && machine.isFile inHome then some inHome
  else if home.endsWith launcherName && machine.isFile home then some home
  else none

def ofHome (machine : Machine) (home : Path) : Except BuildError Toolchain :=
  match launcherAt? machine home with
  | some launcher => .ok ⟨launcher, home⟩
  | none => .error (.compilerNotFound (.noLauncherIn home))

def ofEnvironment? (machine : Machine) : Option Path :=
  (machine.valueOf? "KOTLIN_HOME").bind fun home => launcherAt? machine ⟨home⟩

/-- A program on the search path, by its own place rather than that of a link to it. -/
def onSearchPath? (machine : Machine) (name : String) : Option Path :=
  (machine.which? name).map fun found => (machine.canonical found).toOption.getD found

def knownRoots (machine : Machine) : List Path :=
  let managed := (machine.valueOf? "HOME").or (machine.valueOf? "USERPROFILE")
  (managed.map fun home =>
      (((Path.child ⟨home⟩ ".sdkman").child "candidates").child "kotlin").child "current").toList
    ++ [⟨"/usr/share/kotlin"⟩, ⟨"/usr/lib/kotlin"⟩, ⟨"/opt/kotlinc"⟩, ⟨"/opt/kotlin"⟩,
      ⟨"/snap/kotlin/current"⟩]

/-- The launcher of a root itself, or of the first of its directories that has one. -/
def launcherBelow? (machine : Machine) (root : Path) : Option Path :=
  if machine.isDirectory root then
    (launcherAt? machine root).or
      (((machine.list root).toOption.getD []).findSome? fun entry =>
        if machine.isDirectory entry then launcherAt? machine entry else none)
  else none

def findLauncher? (machine : Machine) : Option Path :=
  (ofEnvironment? machine).or <| (onSearchPath? machine launcherName).or <|
    (knownRoots machine).findSome? (launcherBelow? machine)

def homeOf? (machine : Machine) (launcher : Path) : Option Path := do
  let bin ← launcher.parent?
  let home ← bin.parent?
  if machine.isDirectory (home.child "lib") then some home else none

def discover (machine : Machine) : Except BuildError Toolchain :=
  match findLauncher? machine with
  | none => .error (.compilerNotFound .nowhere)
  | some launcher =>
    match homeOf? machine launcher with
    | none => .error (.compilerNotFound (.noHomeFor launcher))
    | some home => .ok ⟨launcher, home⟩

def versionMark : List Char := "kotlinc-jvm ".toList

def versionInLine? (line : List Char) : Option String := do
  let rest ← Text.behindRun? versionMark line
  match Text.firstWord rest with
  | [] => none
  | first :: others =>
    if Text.isDigit first then some (String.ofList (first :: others)) else none

def versionIn? (output : String) : Option String :=
  (Text.lines output.toList).findSome? versionInLine?

/-- What counts of the two streams: the errors, unless they are blank. -/
def versionText (stdout stderr : Bytes) : String :=
  if Text.trim (Text.lossy stderr).toList = [] then Text.lossy stdout else Text.lossy stderr

def version (toolchain : Toolchain) : OnMachine BuildError String := do
  let ended ← failingWith (.compilerSpawn (toolchain.launcher.text ++ " -version"))
    (Machine.run toolchain.launcher ["-version"])
  let output := versionText ended.stdout ended.stderr
  match versionIn? output with
  | some version => return version
  | none => throw (.compilerNotFound (.unrecognisedVersion toolchain.launcher output))

def javaHome? (machine : Machine) : Option Path :=
  let named := ["JAVA_HOME", "JDK_HOME"].findSome? fun name =>
    (machine.valueOf? name).bind fun home =>
      if machine.isFile ((Path.child ⟨home⟩ "bin").child "java") then some ⟨home⟩ else none
  named.or ((onSearchPath? machine "java").bind (homeOf? machine))

end Toolchain
end KotlinCompile
