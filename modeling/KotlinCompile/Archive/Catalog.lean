import KotlinCompile.Path

/-! The archives that a compilation may need besides its own classpath, by the patterns of their
file names. A pattern is read from the front: what is left of it behind a first character is a
pattern again. -/
namespace KotlinCompile

inductive Pattern where
  | never
  | empty
  | oneOf (ranges : List (Char × Char))
  | seq (first second : Pattern)
  | either (left right : Pattern)
  | many (pattern : Pattern)

namespace Pattern

def word (text : String) : Pattern := text.toList.foldr (fun c => seq (oneOf [(c, c)])) empty

def repeated (pattern : Pattern) : Pattern := seq pattern (many pattern)

def optional (pattern : Pattern) : Pattern := either pattern empty

def nullable : Pattern → Bool
  | never | oneOf _ => false
  | empty | many _ => true
  | seq first second => first.nullable && second.nullable
  | either left right => left.nullable || right.nullable

def followed : Pattern → Pattern → Pattern
  | never, _ => never
  | empty, second => second
  | first, second => seq first second

def orElse : Pattern → Pattern → Pattern
  | never, right => right
  | left, never => left
  | left, right => either left right

def inRanges (ranges : List (Char × Char)) (c : Char) : Bool :=
  ranges.any fun range => range.1 ≤ c && c ≤ range.2

/-- What is to follow behind a first character. -/
def behind (c : Char) : Pattern → Pattern
  | never | empty => never
  | oneOf ranges => if inRanges ranges c then empty else never
  | seq first second =>
    let rest := (first.behind c).followed second
    if first.nullable then rest.orElse (second.behind c) else rest
  | either left right => (left.behind c).orElse (right.behind c)
  | many pattern => (pattern.behind c).followed (many pattern)

def accepts (pattern : Pattern) : List Char → Bool
  | [] => pattern.nullable
  | c :: rest => (pattern.behind c).accepts rest

end Pattern

inductive Archive where
  | stdlib
  | stdlibCommon
  | stdlibJdk
  | reflect
  | scriptRuntime
  /-- The compiler plugin for annotation processing. -/
  | kapt
  /-- The javac internals of JDK 8, which kapt needs. -/
  | tools
deriving DecidableEq

namespace Archive

def all : List Archive := [stdlib, stdlibCommon, stdlibJdk, reflect, scriptRuntime, kapt, tools]

def label : Archive → String
  | stdlib => "kotlin-stdlib"
  | stdlibCommon => "kotlin-stdlib-common"
  | stdlibJdk => "kotlin-stdlib-jdk"
  | reflect => "kotlin-reflect"
  | scriptRuntime => "kotlin-script-runtime"
  | kapt => "kotlin-annotation-processing"
  | tools => "tools.jar"

def onClasspath : Archive → Bool
  | kapt | tools => false
  | _ => true

section Name
open Pattern

def digits : Pattern := repeated (oneOf [('0', '9')])

def number : Pattern := digits.seq (many ((word ".").seq digits))

def qualifier : Pattern := repeated (oneOf [('A', 'Z'), ('a', 'z'), ('0', '9'), ('.', '.')])

-- (-[0-9]+(\.[0-9]+)*(-[A-Za-z0-9.]+)?)?
def version : Pattern :=
  optional ((word "-").seq (number.seq (optional ((word "-").seq qualifier))))

def stem : Archive → Pattern
  | stdlib => either (word "kotlin-stdlib") (word "kotlin-runtime")
  | stdlibCommon => word "kotlin-stdlib-common"
  | stdlibJdk => (word "kotlin-stdlib-jdk").seq digits
  | reflect => word "kotlin-reflect"
  | scriptRuntime => word "kotlin-script-runtime"
  | kapt => (word "kotlin-annotation-processing").seq (optional (word "-embeddable"))
  | tools => word "tools"

def pattern (archive : Archive) : Pattern := archive.stem.seq (version.seq (word ".jar"))

end Name

/-- Whether a file of this name is taken for the archive; its contents are never looked at. -/
def matchesName (archive : Archive) (name : String) : Bool := archive.pattern.accepts name.toList

def locate (archive : Archive) (candidates : List Path) : Option Path :=
  candidates.find? fun candidate => (candidate.fileName?.bind Text.strict?).any archive.matchesName

end Archive
end KotlinCompile
