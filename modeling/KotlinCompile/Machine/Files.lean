import KotlinCompile.Machine.Tree

/-! A machine as the program sees it: a file tree, a current directory and the environment.
Operations that can be refused after changing something return the machine in either case. -/
namespace KotlinCompile

structure Machine where
  tree : Tree
  here : Location
  environment : List (String × Bytes)

/-- A computation that works on the machine; what it changed stays when it fails. -/
abbrev OnMachine (ε α : Type) := ExceptT ε (StateM Machine) α

def failingWith {ε ε' α : Type} (change : ε → ε') (work : OnMachine ε α) : OnMachine ε' α :=
  fun machine =>
    let (result, machine) := work.run machine
    (result.mapError change, machine)

def liftExcept {ε α : Type} (result : Except ε α) : OnMachine ε α := fun machine => (result, machine)

namespace Machine

def valueOf? (machine : Machine) (name : String) : Option Bytes := machine.environment.lookup name

def pathOf (location : Location) : Path := ⟨Byte.slash :: [Byte.slash].intercalate location⟩

def currentDirectory (machine : Machine) : Path := pathOf machine.here

def absolute (machine : Machine) (path : Path) : Path :=
  Path.absoluteFrom machine.currentDirectory path

def status (machine : Machine) (path : Path) : Except Cause (Location × Node) :=
  match machine.tree.find true machine.here path with
  | .ok (.occupied location node) => .ok (location, node)
  | .ok (.free ..) => .error .notFound
  | .error cause => .error cause

def isThere (machine : Machine) (path : Path) : Bool :=
  match machine.status path with
  | .ok _ => true
  | .error _ => false

def isDirectory (machine : Machine) (path : Path) : Bool :=
  match machine.status path with
  | .ok (_, .directory) => true
  | _ => false

def isFile (machine : Machine) (path : Path) : Bool :=
  match machine.status path with
  | .ok (_, .file ..) => true
  | _ => false

def isExecutable (machine : Machine) (path : Path) : Bool :=
  match machine.status path with
  | .ok (_, .file _ executable) => executable
  | _ => false

def canonical (machine : Machine) (path : Path) : Except Cause Path :=
  (machine.status path).map fun found => pathOf found.1

def list (machine : Machine) (directory : Path) : Except Cause (List Path) := do
  match ← machine.status directory with
  | (location, .directory) => return (machine.tree.namesIn location).map directory.child
  | _ => throw .notDirectory

def read (machine : Machine) (path : Path) : Except Cause Contents := do
  match ← machine.status path with
  | (_, .file contents _) => return contents
  | (_, .directory) => throw .isDirectory
  | (_, .socket) => throw .noSuchDevice
  | (_, .link _) => throw .notFound

def readText (machine : Machine) (path : Path) : Except Cause String := do
  match ← machine.read path with
  | .bytes data =>
    match Text.strict? data with
    | some text => return text
    | none => throw .notUtf8
  | _ => throw .notUtf8

def slashEnded (path : Path) : Bool := path.spelling.getLast? == some Byte.slash

def withoutSlashEnd (path : Path) : Path :=
  ⟨(path.spelling.reverse.dropWhile (· == Byte.slash)).reverse⟩

/-- Puts the contents into the file at a path, which is created if its name is free. -/
def write (path : Path) (contents : Contents) : OnMachine Cause Unit := do
  let machine ← get
  match machine.tree.find true machine.here path with
  | .ok (.occupied location (.file _ executable)) =>
    set { machine with tree := machine.tree.put location (.file contents executable) }
  | .ok (.free location false) =>
    set { machine with tree := machine.tree.put location (.file contents false) }
  | .ok (.occupied _ .socket) => throw .noSuchDevice
  | .ok _ => throw .isDirectory
  | .error cause =>
    if slashEnded path && machine.isThere (withoutSlashEnd path) then throw .isDirectory
    else throw cause

def createDirectory (path : Path) : OnMachine Cause Unit := do
  let machine ← get
  match machine.tree.find false machine.here path with
  | .ok (.free location _) => set { machine with tree := machine.tree.put location .directory }
  | .ok (.occupied ..) => throw .alreadyExists
  | .error cause =>
    if slashEnded path && machine.isThere (withoutSlashEnd path) then throw .alreadyExists
    else throw cause

def ancestors : Nat → Path → List Path
  | 0, path => [path]
  | more + 1, path =>
    match path.parent? with
    | some parent => path :: ancestors more parent
    | none => [path]

/-- A directory that is there already is as good as one that was created. -/
def settle (path : Path) : Except Cause Unit × Machine → Except Cause Unit × Machine
  | (.ok (), machine) => (.ok (), machine)
  | (.error cause, machine) =>
    if machine.isDirectory path then (.ok (), machine) else (.error cause, machine)

/-- Creates the first of the directories, after those that it lies below if they are missing. -/
def createAlong : List Path → Machine → Except Cause Unit × Machine
  | [], machine => (.error .notFound, machine)
  | path :: above, machine =>
    if path.spelling = [] then (.ok (), machine)
    else match (createDirectory path).run machine with
      | (.error .notFound, _) =>
        match createAlong above machine with
        | (.ok (), machine) => settle path ((createDirectory path).run machine)
        | failed => failed
      | result => settle path result

def createDirectories (path : Path) : OnMachine Cause Unit :=
  fun machine => createAlong (ancestors path.segments.length path) machine

def remove (path : Path) : StateM Machine Unit := modify fun machine =>
  match machine.tree.find false machine.here path with
  | .ok (.occupied location _) => { machine with tree := machine.tree.remove location }
  | _ => machine

end Machine
end KotlinCompile
