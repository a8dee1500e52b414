import KotlinCompile.Archive.Catalog
import KotlinCompile.Error
import KotlinCompile.Machine.Files
import KotlinCompile.Options.Basic
import KotlinCompile.Toolchain

/-! The compile classpath: explicit entries, then supporting archives, then perhaps the classpath of
the host, in which the archives are looked for. The host's is enumerated when it is first asked for
and then kept, whatever changes on the machine. -/
namespace KotlinCompile

structure Classpath where
  entries : List Path
deriving DecidableEq

namespace Classpath

def separator : UInt8 := Byte.colon

def absoluteDistinct (directory : Path) (paths : List Path) : List Path :=
  Path.distinct (paths.map (Path.absoluteFrom directory))

def build (directory : Path) (explicit supporting inherited : List Path) : Classpath :=
  ⟨absoluteDistinct directory (explicit ++ supporting ++ inherited)⟩

def isEmpty (classpath : Classpath) : Bool := classpath.entries.isEmpty

/-- Some paths in one spelling; none if one of them would be read there as two. -/
def joined? (paths : List Path) : Option Bytes :=
  if paths.any fun path => path.spelling.contains separator then none
  else some ([separator].intercalate (paths.map (·.spelling)))

/-- The entries as one text, with U+FFFD for what is no text in them. They are tried one by one
first, for the error to name the entry that stands in the way; where only all of them together could
not be joined, it would name none. -/
def join (classpath : Classpath) : Except BuildError String :=
  match classpath.entries.find? fun entry => (joined? [entry]).isNone with
  | some entry => .error (.invalidClasspathEntry entry)
  | none => match joined? classpath.entries with
    | some spelling => .ok (Text.lossy spelling)
    | none => .error (.invalidClasspathEntry ⟨""⟩)

def split (spelling : Bytes) : List Path := (Text.pieces separator spelling).map (⟨·⟩)

end Classpath

structure HostClasspath where
  home : Option Path := none
  known : Option (List Path) := none
deriving DecidableEq

namespace HostClasspath

def variableNames : List String := ["CLASSPATH", "KCT_HOST_CLASSPATH"]

def entriesOf (machine : Machine) (name : String) : List Path :=
  match machine.valueOf? name with
  | some value => (Classpath.split value).filter fun entry => entry.spelling != []
  | none => []

def isJar (path : Path) : Bool :=
  (path.extension?.bind Text.strict?).any fun extension => extension.toLower == "jar"

def archivesIn (machine : Machine) (directory : Path) : List Path :=
  Path.sorted (((machine.list directory).toOption.getD []).filter isJar)

def homeOn (machine : Machine) (host : HostClasspath) : Option Path :=
  host.home.or ((Toolchain.discover machine).toOption.map (·.home))

def enumerate (machine : Machine) (host : HostClasspath) : List Path :=
  let offered := variableNames.flatMap (entriesOf machine) ++
    (host.homeOn machine).elim [] fun home => archivesIn machine (home.child "lib")
  Classpath.absoluteDistinct machine.currentDirectory (offered.filter machine.isThere)

/-- The entries, and the host that keeps them from now on. -/
def entries (machine : Machine) (host : HostClasspath) : List Path × HostClasspath :=
  match host.known with
  | some entries => (entries, host)
  | none => (host.enumerate machine, { host with known := some (host.enumerate machine) })

end HostClasspath

/-- Where the host classpath comes from, and how archives are located in it. A caller's own source
lends a list that it holds, and may locate archives as it likes. -/
inductive Resolver where
  | host (host : HostClasspath)
  | own (entries : List Path) (locate : Archive → Option Path)

namespace Resolver

def fixed (entries : List Path) : Resolver := own entries fun archive => archive.locate entries

def ofEntries (machine : Machine) (entries : List Path) : Resolver :=
  fixed (Classpath.absoluteDistinct machine.currentDirectory entries)

def entries (machine : Machine) : Resolver → List Path × Resolver
  | own entries locate => (entries, own entries locate)
  | host known =>
    let (entries, known) := known.entries machine
    (entries, host known)

def locating (machine : Machine) : Resolver → (Archive → Option Path) × Resolver
  | own entries locate => (locate, own entries locate)
  | host known =>
    let (entries, known) := known.entries machine
    (fun archive => archive.locate entries, host known)

end Resolver

structure ResolvedArchives where
  found : Archive → Option Path
  missing : List Archive

namespace ResolvedArchives

def place? (machine : Machine) (selections : ArchiveSelections)
    (locate : Archive → Option Path) (jdkHome : Option Path) (archive : Archive) : Option Path :=
  match selections.of archive with
  | .skip => none
  | .use path => some (machine.absolute path)
  | .discover => (locate archive).or (fallback? machine archive jdkHome)
where
  /-- A JDK may bring the archive with javac's internals along. -/
  fallback? (machine : Machine) : Archive → Option Path → Option Path
    | .tools, some home =>
      let jar := (home.child "lib").child "tools.jar"
      if machine.isFile jar then some jar else none
    | _, _ => none

def resolve (machine : Machine) (selections : ArchiveSelections)
    (locate : Archive → Option Path) (jdkHome : Option Path) : ResolvedArchives where
  found := place? machine selections locate jdkHome
  missing := Archive.all.filter fun archive =>
    selections.of archive != .skip && (place? machine selections locate jdkHome archive).isNone

def classpath (archives : ResolvedArchives) : List Path :=
  (Archive.all.filter (·.onClasspath)).filterMap archives.found

end ResolvedArchives
end KotlinCompile
