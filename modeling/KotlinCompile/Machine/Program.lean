import KotlinCompile.Machine.Files
import KotlinCompile.Text.Cut

namespace KotlinCompile

structure Ended where
  stdout : Bytes
  stderr : Bytes
  status : Option Int
deriving DecidableEq

namespace Machine

def searchPath (value : Bytes) : List Path := (Text.pieces Byte.colon value).map (⟨·⟩)

/-- A search directory below the home directory, when it begins with a tilde. -/
def expanded (machine : Machine) (directory : Path) : Path :=
  match directory.components, machine.valueOf? "HOME" with
  | .name first :: rest, some home =>
    if first ≠ [Byte.tilde] ∨ home = [] then directory
    else rest.foldl (fun path component => match component with
      | .name name => path.child name
      | .up => path.child ".."
      | _ => path) ⟨home⟩
  | _, _ => directory

def which? (machine : Machine) (name : String) : Option Path :=
  (machine.valueOf? "PATH").bind fun value =>
    ((searchPath value).map fun directory => (machine.expanded directory).child name).find?
      machine.isExecutable

def script (machine : Machine) (path : Path) : Except Cause Script := do
  match ← machine.status path with
  | (_, .file (.program script) true) => return script
  | (_, .file _ true) => throw .notExecutableFormat
  | _ => throw .permissionDenied

/-- The script of a command. A name without a slash is looked for in the search path, where a
file that may not be run is passed over but remembered. -/
def command (machine : Machine) (program : Path) : Except Cause Script :=
  if program.spelling.contains Byte.slash then machine.script program
  else if program.spelling = [] then .error .notFound
  else
    let value := (machine.valueOf? "PATH").getD "/bin:/usr/bin"
    first .notFound ((searchPath value).map (·.join program))
where
  first (otherwise : Cause) : List Path → Except Cause Script
    | [] => .error otherwise
    | candidate :: rest =>
      match machine.script candidate with
      | .error .notFound | .error .notDirectory => first otherwise rest
      | .error .permissionDenied => first .permissionDenied rest
      | result => result

def logged (script : Script) (arguments : List Bytes) (machine : Machine) : Machine :=
  match script.log, arguments with
  | none, _ | _, [] => machine
  | some location, _ =>
    let before := match machine.tree.node? location with
      | some (.file (.bytes data) _) => data
      | _ => []
    let added := arguments.flatMap (· ++ [Byte.lineFeed])
    { machine with tree := machine.tree.put location (.file (.bytes (before ++ added)) false) }

def run (program : Path) (arguments : List Bytes) : OnMachine Cause Ended := do
  if (program.spelling :: arguments).any (·.contains Byte.nul) then throw .nulInCommand
  let machine ← get
  match machine.command program with
  | .error cause => throw cause
  | .ok script =>
    set (machine.logged script arguments)
    return ⟨script.stdout, script.stderr, script.status⟩

end Machine
end KotlinCompile
