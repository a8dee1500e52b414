import KotlinCompile.Archive.Catalog
import KotlinCompile.Machine.Files
import KotlinCompile.SortedMap
import KotlinCompile.Text.Character
import KotlinCompile.Text.Cut

/-! Everything about a compilation that is not its sources: what the compiler is told to do, and
where its archives come from. -/
namespace KotlinCompile

structure JvmTarget where
  release : Nat
  oldest_le : 6 ≤ release
  le_newest : release ≤ 25
deriving DecidableEq

namespace JvmTarget

def ofRelease? (release : Nat) : Option JvmTarget :=
  if h : 6 ≤ release ∧ release ≤ 25 then some ⟨release, h.1, h.2⟩ else none

def text (target : JvmTarget) : String :=
  if target.release ≤ 8 then "1." ++ toString target.release else toString target.release

/-- A number in a byte with one more decimal digit behind it; none if the character is no digit, or
if the longer number no longer fits. -/
def withDigit? (number : UInt8) (c : Char) : Option UInt8 :=
  let longer := number.toNat * 10 + (c.toNat - '0'.toNat)
  if Text.isDigit c && longer < UInt8.size then some (.ofNat longer) else none

def byte? : List Char → Option UInt8
  | '+' :: digits => unsigned? digits
  | digits => unsigned? digits
where
  unsigned? (digits : List Char) : Option UInt8 :=
    if digits.isEmpty then none else digits.foldlM withDigit? 0

def withoutLegacyMark (text : List Char) : List Char :=
  (Text.behind? ['1', '.'] text).getD text

def parse? (text : String) : Option JvmTarget :=
  (byte? (withoutLegacyMark (Text.trim text.toList))).bind fun number => ofRelease? number.toNat

def unsupported (text : String) : String := s!"unsupported JVM target '{Text.trimmed text}'"

/-- The target that a text names; a text that names none is quoted without the blanks around it. -/
def parse (text : String) : Except String JvmTarget :=
  match parse? text with
  | some target => .ok target
  | none => .error (unsupported text)

end JvmTarget

inductive ArchiveSelection where
  | discover
  | use (path : Path)
  | skip
deriving DecidableEq

def ArchiveSelection.mapPath (change : Path → Path) : ArchiveSelection → ArchiveSelection
  | discover => discover
  | use path => use (change path)
  | skip => skip

structure ArchiveSelections where
  stdlib : ArchiveSelection := .discover
  stdlibJdk : ArchiveSelection := .discover
  stdlibCommon : ArchiveSelection := .discover
  reflect : ArchiveSelection := .discover
  scriptRuntime : ArchiveSelection := .discover
  kapt : ArchiveSelection := .discover
  tools : ArchiveSelection := .discover
deriving DecidableEq

namespace ArchiveSelections

def none : ArchiveSelections :=
  ⟨.skip, .skip, .skip, .skip, .skip, .skip, .skip⟩

def of (selections : ArchiveSelections) : Archive → ArchiveSelection
  | .stdlib => selections.stdlib
  | .stdlibCommon => selections.stdlibCommon
  | .stdlibJdk => selections.stdlibJdk
  | .reflect => selections.reflect
  | .scriptRuntime => selections.scriptRuntime
  | .kapt => selections.kapt
  | .tools => selections.tools

def mapPaths (change : Path → Path) (selections : ArchiveSelections) : ArchiveSelections where
  stdlib := selections.stdlib.mapPath change
  stdlibJdk := selections.stdlibJdk.mapPath change
  stdlibCommon := selections.stdlibCommon.mapPath change
  reflect := selections.reflect.mapPath change
  scriptRuntime := selections.scriptRuntime.mapPath change
  kapt := selections.kapt.mapPath change
  tools := selections.tools.mapPath change

end ArchiveSelections

structure CompilerOptions where
  verbose : Bool := true
  inheritClasspath : Bool := false
  /-- The JDK whose classes are compiled against; without one there are none. -/
  jdkHome : Option Path := none
  jvmTarget : Option JvmTarget := none
  moduleName : Option String := none
  languageVersion : Option String := none
  apiVersion : Option String := none
  suppressWarnings : Bool := false
  allWarningsAsErrors : Bool := false
  reportOutputFiles : Bool := false
  reportPerformance : Bool := false
  skipRuntimeVersionCheck : Bool := false
  loadBuiltinsFromDependencies : Bool := false
  javaParameters : Bool := false
  correctErrorTypes : Bool := true
  /-- Explicit entries; they win over all that is resolved later. -/
  classpaths : List Path := []
  freeArgs : List String := []
  pluginClasspaths : List Path := []
  pluginOptions : List String := []
  kaptOptions : SortedMap String := ∅
  kaptJavacArguments : SortedMap String := ∅
  annotationProcessors : List String := []
  processorClasspath : List Path := []
  archives : ArchiveSelections := {}
deriving DecidableEq

namespace CompilerOptions

def quiet (options : CompilerOptions) : CompilerOptions := { options with verbose := false }

def withJdkHome (options : CompilerOptions) (home : Path) : CompilerOptions :=
  { options with jdkHome := some home }

def withJvmTarget (options : CompilerOptions) (target : JvmTarget) : CompilerOptions :=
  { options with jvmTarget := some target }

def withClasspath (options : CompilerOptions) (entry : Path) : CompilerOptions :=
  { options with classpaths := options.classpaths ++ [entry] }

def withInheritedClasspath (options : CompilerOptions) : CompilerOptions :=
  { options with inheritClasspath := true }

def withAnnotationProcessor (options : CompilerOptions) (name : String) : CompilerOptions :=
  { options with annotationProcessors := options.annotationProcessors ++ [name] }

def withKaptOption (options : CompilerOptions) (key value : String) : CompilerOptions :=
  { options with kaptOptions := options.kaptOptions.insert key value }

def withArchives (options : CompilerOptions) (archives : ArchiveSelections) : CompilerOptions :=
  { options with archives }

/-- The options with every path that is relative resolved against a directory. -/
def rebase (options : CompilerOptions) (directory : Path) : CompilerOptions :=
  let change := Path.absoluteFrom directory
  { options with
    jdkHome := options.jdkHome.map change
    classpaths := options.classpaths.map change
    pluginClasspaths := options.pluginClasspaths.map change
    processorClasspath := options.processorClasspath.map change
    archives := options.archives.mapPaths change }

end CompilerOptions
end KotlinCompile
