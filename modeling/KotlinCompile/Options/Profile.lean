import KotlinCompile.Options.Basic
import KotlinCompile.Text.Quoted
import KotlinCompile.Toml.Document

/-! Options read from a profile, a TOML document whose keys are the names of the options. The
entries are taken in document order and the first that does not fit is reported. -/
namespace KotlinCompile.Profile

inductive Fault where
  | notToml
  | unknownField (name : String) (known : List String)
  | unknownSelection (name : String)
  | invalidType (found expected : String)
  | notSelection
  | entryCount (count : Nat)
  | payload (name : String)
  | unsupportedTarget (text : String)
deriving DecidableEq

def ticked (text : String) : String := "`" ++ text ++ "`"

def oneOf (names : List String) : String := ", ".intercalate (names.map ticked)

def selectionNames : List String := ["discover", "use", "skip"]

def Fault.message : Fault → String
  | notToml => "not a TOML document"
  | unknownField name known => s!"unknown field {ticked name}, expected one of {oneOf known}"
  | unknownSelection name =>
    s!"unknown variant {ticked name}, expected one of {oneOf selectionNames}"
  | invalidType found expected => s!"invalid type: {found}, expected {expected}"
  | notSelection => "wanted string or table"
  | entryCount count => s!"wanted exactly 1 element, found {count} elements"
  | payload name => s!"unexpected payload of {ticked name}"
  | unsupportedTarget text => JvmTarget.unsupported text

/-- What a value is called when something else was expected. -/
def described : Toml.Value → String
  | .boolean value => "boolean " ++ ticked (if value then "true" else "false")
  | .integer value => "integer " ++ ticked (toString value)
  | .float value => "floating point " ++ ticked value.text
  | .text value => "string " ++ Text.quoted value
  | .list _ => "sequence"
  | .tables _ => "sequence"
  | .moment _ => "map"
  | .table .. => "map"

abbrev Read (α : Type) := Toml.Value → Except Fault α

def mistyped (expected : String) (value : Toml.Value) : Fault :=
  .invalidType (described value) expected

def readBool : Read Bool
  | .boolean value => .ok value
  | value => .error (mistyped "a boolean" value)

def readText : Read String
  | .text value => .ok value
  | value => .error (mistyped "a string" value)

def readPath : Read Path
  | .text value => .ok ⟨value⟩
  | value => .error (mistyped "path string" value)

def readTarget (value : Toml.Value) : Except Fault JvmTarget := do
  let text ← readText value
  match JvmTarget.parse? text with
  | some target => return target
  | none => throw (.unsupportedTarget text)

def readList {α : Type} (read : Read α) (value : Toml.Value) : Except Fault (List α) :=
  match value.items? with
  | some items => items.mapM read
  | none => .error (mistyped "a sequence" value)

def readMap (value : Toml.Value) : Except Fault (SortedMap String) :=
  match value.entries? with
  | some entries =>
    SortedMap.ofList <$> entries.mapM fun entry => (fun text => (entry.1, text)) <$> readText entry.2
  | none => .error (mistyped "a map" value)

def isBlankPayload : Toml.Value → Bool
  | .table _ entries => entries.isEmpty
  | .list items => items.isEmpty
  | .tables items => items.isEmpty
  | _ => false

/-- A selection by its name alone, or as the single entry of a table. -/
def readSelection : Read ArchiveSelection
  | .text "discover" => .ok .discover
  | .text "skip" => .ok .skip
  | .text "use" => .error (.payload "use")
  | .text name => .error (.unknownSelection name)
  | .table _ [("use", value)] => .use <$> readPath value
  | .table _ [("discover", value)] =>
    if isBlankPayload value then .ok .discover else .error (.payload "discover")
  | .table _ [("skip", value)] =>
    if isBlankPayload value then .ok .skip else .error (.payload "skip")
  | .table _ [(name, _)] => .error (.unknownSelection name)
  | .table _ entries => .error (.entryCount entries.length)
  | _ => .error .notSelection

def archiveNames : List String :=
  ["stdlib", "stdlib_jdk", "stdlib_common", "reflect", "script_runtime", "kapt", "tools"]

def withArchive (selections : ArchiveSelections) (name : String) (value : Toml.Value) :
    Except Fault ArchiveSelections :=
  match name with
  | "stdlib" => return { selections with stdlib := ← readSelection value }
  | "stdlib_jdk" => return { selections with stdlibJdk := ← readSelection value }
  | "stdlib_common" => return { selections with stdlibCommon := ← readSelection value }
  | "reflect" => return { selections with reflect := ← readSelection value }
  | "script_runtime" => return { selections with scriptRuntime := ← readSelection value }
  | "kapt" => return { selections with kapt := ← readSelection value }
  | "tools" => return { selections with tools := ← readSelection value }
  | name => throw (.unknownField name archiveNames)

def archivesOfEntries (entries : Toml.Entries) : Except Fault ArchiveSelections :=
  entries.foldlM (fun selections entry => withArchive selections entry.1 entry.2) {}

/-- A list stands for the archives in the order of their names; one that is too short leaves the
others to be discovered, and what is too much is not looked at. -/
def readArchives (value : Toml.Value) : Except Fault ArchiveSelections :=
  match value.entries?, value.items? with
  | some entries, _ => archivesOfEntries entries
  | none, some items => archivesOfEntries (archiveNames.zip items)
  | none, none => .error (mistyped "struct SupportingArchives" value)

def fieldNames : List String :=
  ["verbose", "inherit_classpath", "jdk_home", "jvm_target", "module_name", "language_version",
    "api_version", "suppress_warnings", "all_warnings_as_errors", "report_output_files",
    "report_performance", "skip_runtime_version_check", "load_builtins_from_dependencies",
    "java_parameters", "correct_error_types", "classpaths", "free_args", "plugin_classpaths",
    "plugin_options", "kapt_options", "kapt_javac_arguments", "annotation_processors",
    "processor_classpath", "archives"]

def withField (o : CompilerOptions) (name : String) (value : Toml.Value) :
    Except Fault CompilerOptions :=
  match name with
  | "verbose" => return { o with verbose := ← readBool value }
  | "inherit_classpath" => return { o with inheritClasspath := ← readBool value }
  | "jdk_home" => return { o with jdkHome := some (← readPath value) }
  | "jvm_target" => return { o with jvmTarget := some (← readTarget value) }
  | "module_name" => return { o with moduleName := some (← readText value) }
  | "language_version" => return { o with languageVersion := some (← readText value) }
  | "api_version" => return { o with apiVersion := some (← readText value) }
  | "suppress_warnings" => return { o with suppressWarnings := ← readBool value }
  | "all_warnings_as_errors" => return { o with allWarningsAsErrors := ← readBool value }
  | "report_output_files" => return { o with reportOutputFiles := ← readBool value }
  | "report_performance" => return { o with reportPerformance := ← readBool value }
  | "skip_runtime_version_check" => return { o with skipRuntimeVersionCheck := ← readBool value }
  | "load_builtins_from_dependencies" =>
    return { o with loadBuiltinsFromDependencies := ← readBool value }
  | "java_parameters" => return { o with javaParameters := ← readBool value }
  | "correct_error_types" => return { o with correctErrorTypes := ← readBool value }
  | "classpaths" => return { o with classpaths := ← readList readPath value }
  | "free_args" => return { o with freeArgs := ← readList readText value }
  | "plugin_classpaths" => return { o with pluginClasspaths := ← readList readPath value }
  | "plugin_options" => return { o with pluginOptions := ← readList readText value }
  | "kapt_options" => return { o with kaptOptions := ← readMap value }
  | "kapt_javac_arguments" => return { o with kaptJavacArguments := ← readMap value }
  | "annotation_processors" => return { o with annotationProcessors := ← readList readText value }
  | "processor_classpath" => return { o with processorClasspath := ← readList readPath value }
  | "archives" => return { o with archives := ← readArchives value }
  | name => throw (.unknownField name fieldNames)

/-- The options that a profile's entries give, on top of the defaults. -/
def ofEntries (entries : Toml.Entries) : Except Fault CompilerOptions :=
  entries.foldlM (fun options entry => withField options entry.1 entry.2) {}

def parse (text : String) : Except Fault CompilerOptions :=
  match Toml.parse? text with
  | some entries => ofEntries entries
  | none => .error .notToml

end KotlinCompile.Profile
