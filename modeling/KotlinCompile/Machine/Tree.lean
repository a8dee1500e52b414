import KotlinCompile.Path
import KotlinCompile.Text.Encoding

/-! The file tree of a machine, and what a path denotes in it. A location is the names on the way
down from the root, so it has one spelling; the root itself is always a directory and is never
listed. A walk goes one step per segment, through directories only, and through at most forty links.
-/
namespace KotlinCompile

inductive Cause where
  | notFound
  | permissionDenied
  | alreadyExists
  | notDirectory
  | isDirectory
  | nameTooLong
  | tooManyLinks
  | notExecutableFormat
  | noSuchDevice
  | nulInFileName
  | nulInCommand
  | notUtf8
  | streamFull
  | flushFailed
  | reported (text : String)
deriving DecidableEq

def Cause.message : Cause → String
  | notFound => "No such file or directory (os error 2)"
  | permissionDenied => "Permission denied (os error 13)"
  | alreadyExists => "File exists (os error 17)"
  | notDirectory => "Not a directory (os error 20)"
  | isDirectory => "Is a directory (os error 21)"
  | nameTooLong => "File name too long (os error 36)"
  | tooManyLinks => "Too many levels of symbolic links (os error 40)"
  | notExecutableFormat => "Exec format error (os error 8)"
  | noSuchDevice => "No such device or address (os error 6)"
  | nulInFileName => "file name contained an unexpected NUL byte"
  | nulInCommand => "nul byte found in provided data"
  | notUtf8 => "stream did not contain valid UTF-8"
  | streamFull => "sink full"
  | flushFailed => "flush failed"
  | reported text => text

abbrev Location := List Bytes

/-- What a program does when it is run: it adds its arguments to its log, writes to both of its
streams, and ends with a status, or without one when a signal ends it. -/
structure Script where
  stdout : Bytes
  stderr : Bytes
  status : Option Int
  log : Option Location
deriving DecidableEq

inductive Contents where
  | bytes (data : Bytes)
  | archive (entries : List (String × String))
  | program (script : Script)
deriving DecidableEq

inductive Node where
  | directory
  | file (contents : Contents) (executable : Bool)
  | link (target : Path)
  /-- Neither a file nor a directory, and nothing that can be opened. -/
  | socket
deriving DecidableEq

structure Tree where
  nodes : List (Location × Node)
deriving DecidableEq

namespace Tree

def empty : Tree := ⟨[]⟩

def node? (tree : Tree) (location : Location) : Option Node :=
  if location = [] then some .directory else tree.nodes.lookup location

/-- Replaces the node at a location in its place, or lists a new one last. -/
def putNode (location : Location) (node : Node) : List (Location × Node) → List (Location × Node)
  | [] => [(location, node)]
  | entry :: rest =>
    if entry.1 = location then (location, node) :: rest
    else entry :: putNode location node rest

def put (tree : Tree) (location : Location) (node : Node) : Tree :=
  if location = [] then tree else ⟨putNode location node tree.nodes⟩

def remove (tree : Tree) (location : Location) : Tree :=
  ⟨tree.nodes.filter fun entry => !location.isPrefixOf entry.1⟩

def namesIn (tree : Tree) (directory : Location) : List Bytes :=
  tree.nodes.filterMap fun entry =>
    match entry.1.getLast? with
    | some name => if entry.1 = directory ++ [name] then some name else none
    | none => none

theorem lookup_putNode_self (location : Location) (node : Node) (nodes : List (Location × Node)) :
    (putNode location node nodes).lookup location = some node := by
  induction nodes with
  | nil => simp [putNode]
  | cons entry rest ih =>
    obtain ⟨place, old⟩ := entry
    simp only [putNode]
    split
    · simp
    · next differ =>
      have apart : (location == place) = false := beq_eq_false_iff_ne.mpr (Ne.symm differ)
      simp only [List.lookup_cons, apart, ih]

theorem lookup_putNode_of_ne {location other : Location} (differ : other ≠ location) (node : Node)
    (nodes : List (Location × Node)) :
    (putNode location node nodes).lookup other = nodes.lookup other := by
  have apart : (other == location) = false := beq_eq_false_iff_ne.mpr differ
  induction nodes with
  | nil => simp only [putNode, List.lookup_cons, apart]
  | cons entry rest ih =>
    obtain ⟨place, old⟩ := entry
    simp only [putNode]
    split
    · next same =>
      subst same
      simp only [List.lookup_cons, apart]
    · simp only [List.lookup_cons, ih]

end Tree

/-- Where a walk ends: at a node, or at a free name in a directory. A free name with a slash
behind it can only become a directory. -/
inductive Place where
  | occupied (location : Location) (node : Node)
  | free (location : Location) (slash : Bool)

namespace Tree

def longestName : Nat := 255
def longestPath : Nat := 4095
def mostLinks : Nat := 40

def steps (path : Path) : List Bytes := path.segments

def origin (here : Location) (path : Path) : Location := if path.isAbsolute then [] else here

/-- Walks the steps from a location up to the first link that has to be followed, which is left
to `jump` together with the steps behind it. A link is followed when steps remain behind it, and
at the end if `follow` says so. -/
def walkUntilLink (tree : Tree) (follow : Bool)
    (jump : Location → List Bytes → Except Cause Place) (here : Location) :
    List Bytes → Except Cause Place
  | [] =>
    match tree.node? here with
    | some node => .ok (.occupied here node)
    | none => .error .notFound
  | step :: rest =>
    if tree.node? here ≠ some .directory then .error .notDirectory
    else if step = [] ∨ step = [Byte.dot] then walkUntilLink tree follow jump here rest
    else if step = [Byte.dot, Byte.dot] then walkUntilLink tree follow jump here.dropLast rest
    else if longestName < step.length then .error .nameTooLong
    else match tree.node? (here ++ [step]) with
      | none =>
        if rest.all (· = []) then .ok (.free (here ++ [step]) !rest.isEmpty)
        else .error .notFound
      | some (.link target) =>
        if rest.isEmpty && !follow then .ok (.occupied (here ++ [step]) (.link target))
        else jump (origin here target) (steps target ++ rest)
      | some _ => walkUntilLink tree follow jump (here ++ [step]) rest

def walk (tree : Tree) (follow : Bool) : Nat → Location → List Bytes → Except Cause Place
  | 0 => tree.walkUntilLink follow fun _ _ => .error .tooManyLinks
  | links + 1 => tree.walkUntilLink follow (tree.walk follow links)

def refusal? (path : Path) : Option Cause :=
  if path.spelling.contains Byte.nul then some .nulInFileName
  else if path.spelling = [] then some .notFound
  else if longestPath < path.spelling.length then some .nameTooLong
  else none

def find (tree : Tree) (follow : Bool) (here : Location) (path : Path) : Except Cause Place :=
  match refusal? path with
  | some cause => .error cause
  | none => walk tree follow mostLinks (origin here path) (steps path)

end Tree
end KotlinCompile
