import KotlinCompile.Path
import KotlinCompile.Text.Cut

/-! A command line, word by word. The value of a setting, or a run of operands, is looked at when
the next setting begins or the words end; a word that cannot be placed is reported without looking
at what is still open. -/
namespace KotlinCompile.CommandLine

inductive Word where
  /-- Two hyphens alone: what follows are operands. -/
  | escape
  /-- Two hyphens and a name, perhaps with a value behind an equals sign. -/
  | long (name : String) (value : Option String)
  | short (letter : Char) (more : List Char)
  | plain (text : String)
deriving DecidableEq

namespace Word

def ofLong (text : List Char) : Word :=
  match Text.cutAt? '=' text with
  | some (name, value) => long (String.ofList name) (some (String.ofList value))
  | none => long (String.ofList text) none

def ofText (text : String) : Word :=
  match text.toList with
  | ['-', '-'] => escape
  | '-' :: '-' :: rest => ofLong rest
  | '-' :: letter :: more => short letter more
  | _ => plain text

end Word

/-- Why the words ask for no work; the first three are no mistakes. -/
inductive UsageFault where
  | helpAsked
  | versionAsked
  | nothingAsked
  | unknownCommand
  | unknownWord
  | missingOperand
  | invalidValue
  | repeated
  | unwantedValue
deriving DecidableEq

def UsageFault.message : UsageFault → String
  | helpAsked => "help was asked for"
  | versionAsked => "the version was asked for"
  | nothingAsked => "a command is wanted"
  | unknownCommand => "there is no such command"
  | unknownWord => "a word was not expected"
  | missingOperand => "no source file was named"
  | invalidValue => "a value is missing or empty"
  | repeated => "a setting was given more than once"
  | unwantedValue => "a value was given to a setting that takes none"

inductive Arity where
  | switch
  | once
  | many
  | stop (fault : UsageFault)
deriving DecidableEq

structure Setting where
  name : String
  arity : Arity
  letter : Option Char := none
  isPath : Bool := false
deriving DecidableEq

def Setting.takesValue (setting : Setting) : Bool := setting.arity == .once || setting.arity == .many

def help : Setting := { name := "help", arity := .stop .helpAsked, letter := some 'h' }

structure Form where
  settings : List Setting
  operands : Option Setting := none

/-- The settings that were given, each with its values, in order. -/
abbrev Given := List (String × List String)

def accept (given : Given) (setting : Setting) (values : List String) :
    Except UsageFault Given :=
  if setting.takesValue && values.isEmpty then .error .invalidValue
  else if setting.arity != .many && given.any (·.1 == setting.name) then .error .repeated
  else if setting.isPath && values.contains "" then .error .invalidValue
  else .ok (given ++ [(setting.name, values)])

/-- What was accepted, and what may still get a value. -/
structure Reading where
  given : Given := []
  pending : Option (Setting × List String) := none

namespace Reading

def settle (reading : Reading) : Except UsageFault Given :=
  match reading.pending with
  | some (setting, values) => accept reading.given setting values
  | none => .ok reading.given

def setting (reading : Reading) (setting : Setting) (value : Option String) :
    Except UsageFault Reading :=
  match value with
  | some value =>
    if setting.takesValue then do
      return { given := ← accept (← reading.settle) setting [value] }
    else throw .unwantedValue
  | none => do
    let given ← reading.settle
    match setting.arity with
    | .stop fault => throw fault
    | .switch => return { given := ← accept given setting [] }
    | _ => return { given, pending := some (setting, []) }

def operand (form : Form) (reading : Reading) (text : String) : Except UsageFault Reading :=
  match form.operands, reading.pending with
  | none, _ => .error .unknownWord
  | some operands, none => .ok { reading with pending := some (operands, [text]) }
  | some operands, some (setting, values) =>
    if setting = operands then .ok { reading with pending := some (operands, values ++ [text]) }
    else do return { given := ← reading.settle, pending := some (operands, [text]) }

/-- A word that is no setting is the value that a setting waits for, or else an operand. -/
def plain (form : Form) (reading : Reading) (text : String) : Except UsageFault Reading :=
  match reading.pending with
  | some (setting, []) => .ok { reading with pending := some (setting, [text]) }
  | _ => operand form reading text

/-- Letters may stand together, but none of those after a letter that stops is looked at. -/
def letter (form : Form) (reading : Reading) (letter : Char) : Except UsageFault Reading :=
  match form.settings.find? fun setting => setting.letter == some letter with
  | some found => reading.setting found none
  | none => .error .unknownWord

def named (form : Form) (reading : Reading) (name : String) (value : Option String) :
    Except UsageFault Reading :=
  match form.settings.find? fun setting => setting.name == name with
  | some found => reading.setting found value
  | none => .error .unknownWord

def words (form : Form) : Reading → List String → Except UsageFault Reading
  | reading, [] => .ok reading
  | reading, text :: rest =>
    match Word.ofText text with
    | .escape => rest.foldlM (operand form) reading
    | .long name value => do words form (← named form reading name value) rest
    | .short first more => do words form (← (first :: more).foldlM (letter form) reading) rest
    | .plain text => do words form (← plain form reading text) rest

end Reading

def Form.read (form : Form) (words : List String) : Except UsageFault Given := do
  (← Reading.words form {} words).settle

namespace Given

def values (given : Given) (name : String) : List String :=
  (given.filter (·.1 == name)).flatMap (·.2)

def value? (given : Given) (name : String) : Option String := (given.values name).head?

def has (given : Given) (name : String) : Bool := given.any (·.1 == name)

end Given

structure CompileCommand where
  sources : List Path
  profile : Option Path := none
  workingDirectory : Option Path := none
  launcher : Option Path := none
  classpath : List Path := []
  processors : List String := []
  processorClasspath : List Path := []
  sourceRoot : Path := ⟨"."⟩
  jdkHome : Option Path := none
  quiet : Bool := false
deriving DecidableEq

inductive Command where
  | compile (settings : CompileCommand)
  | toolchain (home : Option Path)
deriving DecidableEq

namespace Command

def path (name : String) (arity : Arity) : Setting := { name, arity, isPath := true }

def compileForm : Form where
  settings :=
    [path "profile" .once, path "working-dir" .once, path "kotlinc" .once, path "classpath" .many,
      { name := "processor", arity := .many }, path "processor-path" .many,
      path "source-root" .once, path "jdk-home" .once, { name := "quiet", arity := .switch }, help]
  operands := some (path "sources" .many)

def toolchainForm : Form where
  settings := [path "kotlin-home" .once, help]

/-- The settings before a command. None of them leads on to one. -/
def outerForm : Form where
  settings :=
    [help, { name := "version", arity := .stop .versionAsked, letter := some 'V' }]

def paths (given : Given) (name : String) : List Path :=
  (given.values name).map fun (text : String) => ⟨text⟩

def path? (given : Given) (name : String) : Option Path :=
  (given.value? name).map fun (text : String) => ⟨text⟩

def compileOf (given : Given) : CompileCommand where
  sources := paths given "sources"
  profile := path? given "profile"
  workingDirectory := path? given "working-dir"
  launcher := path? given "kotlinc"
  classpath := paths given "classpath"
  processors := given.values "processor"
  processorClasspath := paths given "processor-path"
  sourceRoot := (path? given "source-root").getD ⟨"."⟩
  jdkHome := path? given "jdk-home"
  quiet := given.has "quiet"

def readCompile (words : List String) : Except UsageFault Command := do
  let settings := compileOf (← compileForm.read words)
  if settings.sources.isEmpty then throw .missingOperand
  return .compile settings

def readToolchain (words : List String) : Except UsageFault Command := do
  return .toolchain (path? (← toolchainForm.read words) "kotlin-home")

def names : List String := ["compile", "toolchain", "help"]

def readHelp : List String → UsageFault
  | [] => .helpAsked
  | [name] => if name ∈ names then .helpAsked else .unknownCommand
  | _ => .unknownCommand

def escaped : List String → UsageFault
  | [] => .nothingAsked
  | word :: _ => if word ∈ names then .unknownWord else .unknownCommand

def refuse (word : String) : Except UsageFault Command :=
  match outerForm.read [word] with
  | .error fault => .error fault
  | .ok _ => .error .unknownCommand

def parse : List String → Except UsageFault Command
  | [] => .error .nothingAsked
  | word :: rest =>
    match Word.ofText word with
    | .escape => .error (escaped rest)
    | .plain "compile" => readCompile rest
    | .plain "toolchain" => readToolchain rest
    | .plain "help" => .error (readHelp rest)
    | .plain _ => .error .unknownCommand
    | _ => refuse word

end Command
end KotlinCompile.CommandLine
