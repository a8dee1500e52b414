import KotlinCompile.Text.Cut
import KotlinCompile.Text.Encoding

/-! File paths. A path keeps its spelling, which is bytes and need not be text, and what it denotes
is the list of its components: a repeated or trailing slash says nothing, and neither does a dot,
unless a relative path begins with it. Equality of spellings is finer. -/
namespace KotlinCompile

inductive Component where
  | root
  | here
  | up
  | name (bytes : Bytes)
deriving DecidableEq

namespace Component

def rank : Component → Nat
  | root => 0
  | here => 1
  | up => 2
  | name _ => 3

def bytes : Component → Bytes
  | name bytes => bytes
  | _ => []

def order (a b : Component) : Ordering := (compare a.rank b.rank).then (compare a.bytes b.bytes)

end Component

structure Path where
  spelling : Bytes
deriving DecidableEq, Inhabited

namespace Path

/-- The path as it is shown, or handed to what only takes text. -/
def text (path : Path) : String := Text.lossy path.spelling

def isAbsolute (path : Path) : Bool := path.spelling.head? == some Byte.slash

def segments (path : Path) : List Bytes :=
  Text.pieces Byte.slash (if path.isAbsolute then path.spelling.tail else path.spelling)

def segmentComponent? (segment : Bytes) : Option Component :=
  if segment = [] ∨ segment = [Byte.dot] then none
  else if segment = [Byte.dot, Byte.dot] then some .up
  else some (.name segment)

def start (path : Path) : List Component :=
  if path.isAbsolute then [.root]
  else if path.segments.head? == some [Byte.dot] then [.here]
  else []

def components (path : Path) : List Component :=
  path.start ++ path.segments.filterMap segmentComponent?

def names (path : Path) : List Bytes :=
  path.components.filterMap fun | .name bytes => some bytes | _ => none

def same (p q : Path) : Bool := p.components == q.components

def order (p q : Path) : Ordering := List.compareLex Component.order p.components q.components

def sorted (paths : List Path) : List Path := paths.mergeSort fun p q => (p.order q).isLE

def distinct : List Path → List Path
  | [] => []
  | path :: rest => path :: (distinct rest).filter fun other => !other.same path

def join (base path : Path) : Path :=
  if path.isAbsolute then path
  else if base.spelling = [] || base.spelling.getLast? == some Byte.slash then
    ⟨base.spelling ++ path.spelling⟩
  else ⟨base.spelling ++ Byte.slash :: path.spelling⟩

def child (base : Path) (name : Bytes) : Path := base.join ⟨name⟩

/-- The path itself if it is absolute, and else its spelling from `directory`. -/
def absoluteFrom (directory path : Path) : Path := directory.join path

def withoutIdleEnd (segments : List Bytes) : List Bytes :=
  (segments.reverse.dropWhile fun s => s == [] || s == [Byte.dot]).reverse

/-- The segments up to the last that is a component. -/
def significant (absolute : Bool) : List Bytes → List Bytes
  | [] => []
  | first :: rest =>
    if absolute then withoutIdleEnd (first :: rest)
    else if first == [] then withoutIdleEnd rest
    else first :: withoutIdleEnd rest

def ofSegments (absolute : Bool) (segments : List Bytes) : Path :=
  ⟨(if absolute then [Byte.slash] else []) ++ [Byte.slash].intercalate segments⟩

def parent? (path : Path) : Option Path :=
  match (significant path.isAbsolute path.segments).reverse with
  | [] => none
  | _ :: before =>
    some (ofSegments path.isAbsolute (significant path.isAbsolute before.reverse))

def fileName? (path : Path) : Option Bytes :=
  match path.components.getLast? with
  | some (.name bytes) => some bytes
  | _ => none

/-- What follows the last dot of the file name, unless that dot is its first byte. -/
def extension? (path : Path) : Option Bytes := do
  let name ← path.fileName?
  match Text.cutAt? Byte.dot name.reverse with
  | some (_, []) => none
  | some (extension, _) => some extension.reverse
  | none => none

def addExtension (path : Path) (extension : Bytes) : Path :=
  match path.fileName? with
  | none => path
  | some _ =>
    ⟨(ofSegments path.isAbsolute (significant path.isAbsolute path.segments)).spelling
      ++ Byte.dot :: extension⟩

def endsWith (path : Path) (name : Bytes) : Bool := path.fileName? == some name

end Path

structure Layout where
  root : Path
deriving DecidableEq

namespace Layout

def sourcesName : Bytes := "sources"
def classesName : Bytes := "classes"
def servicesName : Bytes := "services.jar"
def kaptName : Bytes := "kapt"

def sources (layout : Layout) : Path := layout.root.child sourcesName
def classes (layout : Layout) : Path := layout.root.child classesName
def servicesJar (layout : Layout) : Path := layout.root.child servicesName
def kapt (layout : Layout) : Path := layout.root.child kaptName
def kaptSources (layout : Layout) : Path := layout.kapt.child "sources"
def kaptStubs (layout : Layout) : Path := layout.kapt.child "stubs"
def kaptClasses (layout : Layout) : Path := layout.kapt.child "classes"

end Layout
end KotlinCompile
