import KotlinCompile.Options.Profile
import KotlinCompile.Proofs.Archive.Located
import KotlinCompile.Proofs.Fallible
import KotlinCompile.Proofs.Toml.Fields

/-! What the values of a profile mean. Each option has a place that it is read to and a form that
its values have, so an entry with a known name is read exactly if its value means something there,
and one with another name never is. -/
namespace KotlinCompile.Profile
open Fallible
variable {α : Type} {value : Toml.Value}

/-- Which values mean what. -/
abbrev Meaning (α : Type) := Toml.Value → α → Prop

def IsBool : Meaning Bool := fun value given => value = .boolean given

def IsText : Meaning String := fun value text => value = .text text

def IsPath : Meaning Path := fun value path => ∃ text : String, value = .text text ∧ path = ⟨text⟩

def IsTarget : Meaning JvmTarget := fun value target =>
  ∃ text, value = .text text ∧ JvmTarget.parse? text = some target

def IsSome (means : Meaning α) : Meaning (Option α) := fun value option =>
  ∃ given, option = some given ∧ means value given

/-- Lists are given item by item. -/
def IsList (means : Meaning α) : Meaning (List α) := fun value list =>
  ∃ items, value.items? = some items ∧ List.Forall₂ means items list

/-- Maps are given by tables of texts. -/
def IsMap : Meaning (SortedMap String) := fun value map =>
  ∃ pairs, value.entries? = some (pairs.map fun pair => (pair.1, .text pair.2)) ∧
    map = SortedMap.ofList pairs

/-- An archive is selected by a word, or by a table with that word as its only key. -/
inductive Selects : Meaning ArchiveSelection
  | discover : Selects (.text "discover") .discover
  | skip : Selects (.text "skip") .skip
  | use {origin : Toml.Origin} {text : String} :
      Selects (.table origin [("use", .text text)]) (.use ⟨text⟩)
  | discoverKey {origin : Toml.Origin} {payload : Toml.Value} : isBlankPayload payload = true →
      Selects (.table origin [("discover", payload)]) .discover
  | skipKey {origin : Toml.Origin} {payload : Toml.Value} : isBlankPayload payload = true →
      Selects (.table origin [("skip", payload)]) .skip

theorem readBool_eq_ok {given : Bool} : readBool value = .ok given ↔ IsBool value given := by
  cases value <;> simp [readBool, IsBool]

theorem readText_eq_ok {text : String} : readText value = .ok text ↔ IsText value text := by
  cases value <;> simp [readText, IsText]

theorem readPath_eq_ok {path : Path} : readPath value = .ok path ↔ IsPath value path := by
  cases value <;> simp [readPath, IsPath, eq_comm]

theorem readTarget_eq_ok {target : JvmTarget} :
    readTarget value = .ok target ↔ IsTarget value target := by
  unfold readTarget
  rw [bind_eq_ok]
  simp only [readText_eq_ok]
  refine exists_congr fun text => and_congr_right fun _ => ?_
  cases JvmTarget.parse? text <;> simp [pure, Except.pure, throw, throwThe, MonadExceptOf.throw]

theorem readList_eq_ok {read : Read α} {means : Meaning α}
    (same : ∀ {item x}, read item = .ok x ↔ means item x) {list : List α} :
    readList read value = .ok list ↔ IsList means value list := by
  unfold readList IsList
  cases value.items? with
  | none => simp
  | some items => simp [mapM_eq_ok, same]

theorem readMap_eq_ok {map : SortedMap String} : readMap value = .ok map ↔ IsMap value map := by
  unfold readMap IsMap
  cases value.entries? with
  | none => simp
  | some entries =>
    have named (entry : String × Toml.Value) (pair : String × String) :
        (fun text => (entry.1, text)) <$> readText entry.2 = .ok pair ↔
          entry = (pair.1, .text pair.2) := by
      simp only [map_eq_ok, readText_eq_ok, IsText, Prod.ext_iff]
      grind
    have spelled (pairs : List (String × String)) :
        (entries.mapM fun entry => (fun text => (entry.1, text)) <$> readText entry.2) = .ok pairs ↔
          entries = pairs.map fun pair => (pair.1, .text pair.2) := by
      rw [mapM_eq_ok]
      simp only [named]
      rw [← List.forall₂_map_right_iff (R := Eq), List.forall₂_eq_eq_eq]
    simp only [map_eq_ok, spelled, Option.some.injEq, eq_comm (a := map)]

theorem readSelection_eq_ok {selection : ArchiveSelection} :
    readSelection value = .ok selection ↔ Selects value selection := by
  constructor
  · intro read
    unfold readSelection at read
    split at read
    case h_1 =>
      cases read
      exact .discover
    case h_2 =>
      cases read
      exact .skip
    case h_5 =>
      obtain ⟨path, spelled, rfl⟩ := map_eq_ok.mp read
      obtain ⟨text, rfl, rfl⟩ := readPath_eq_ok.mp spelled
      exact .use
    case h_6 =>
      split at read
      · next blank =>
        cases read
        exact .discoverKey blank
      · cases read
    case h_7 =>
      split at read
      · next blank =>
        cases read
        exact .skipKey blank
      · cases read
    all_goals cases read
  · intro selects
    cases selects with
    | discover => rfl
    | skip => rfl
    | use => rfl
    | discoverKey blank => simp [readSelection, blank]
    | skipKey blank => simp [readSelection, blank]

section
variable {σ : Type} {s t : σ} {result : Except Fault σ}

theorem field_eq_ok {field : Toml.Field σ} {read : Read field.Held}
    (same : ∀ {x}, read value = .ok x ↔ field.Means value x)
    (run : result = do return field.set (← read value) s) :
    result = .ok t ↔ ∃ x, field.Means value x ∧ field.set x s = t := by
  simp only [run, bind_eq_ok, pure_eq_ok, same]

theorem option_eq_ok {read : Read α} {means : Meaning α} {set : Option α → σ → σ}
    (same : ∀ {x}, read value = .ok x ↔ means value x)
    (run : result = do return set (some (← read value)) s) :
    result = .ok t ↔ ∃ x, IsSome means value x ∧ set x s = t := by
  have given (x : Option α) :
      IsSome means value x ↔ ∃ a, x = some a ∧ read value = .ok a := by
    simp only [same, IsSome]
  simp only [run, bind_eq_ok, pure_eq_ok, given]
  grind

end

/-- The selections with one of them changed. -/
def setArchive : Archive → ArchiveSelection → ArchiveSelections → ArchiveSelections
  | .stdlib, selection, selections => { selections with stdlib := selection }
  | .stdlibCommon, selection, selections => { selections with stdlibCommon := selection }
  | .stdlibJdk, selection, selections => { selections with stdlibJdk := selection }
  | .reflect, selection, selections => { selections with reflect := selection }
  | .scriptRuntime, selection, selections => { selections with scriptRuntime := selection }
  | .kapt, selection, selections => { selections with kapt := selection }
  | .tools, selection, selections => { selections with tools := selection }

/-- The name of an archive in a profile. -/
def archiveName : Archive → String
  | .stdlib => "stdlib"
  | .stdlibCommon => "stdlib_common"
  | .stdlibJdk => "stdlib_jdk"
  | .reflect => "reflect"
  | .scriptRuntime => "script_runtime"
  | .kapt => "kapt"
  | .tools => "tools"

/-- The archives in the table of their selections. -/
def archiveFields : Toml.Fields ArchiveSelections where
  Key := Archive
  field archive := {
    name := archiveName archive
    Held := ArchiveSelection
    get := fun selections => selections.of archive
    set := setArchive archive
    Means := Selects }
  name_injective := by
    intro key other
    cases key <;> cases other <;> simp [archiveName]
  get_set := by
    intro key x s
    cases key <;> rfl
  get_set_of_ne := by
    intro key other x s
    cases key <;> cases other <;> simp [ArchiveSelections.of, setArchive]
  ext := by
    intro s t same
    cases s
    cases t
    simp only [ArchiveSelections.mk.injEq]
    exact ⟨same .stdlib, same .stdlibJdk, same .stdlibCommon, same .reflect, same .scriptRuntime,
      same .kapt, same .tools⟩

theorem withArchive_named (archive : Archive) {selections result : ArchiveSelections}
    {value : Toml.Value} :
    withArchive selections (archiveFields archive).name value = .ok result ↔
      ∃ x, (archiveFields archive).Means value x ∧
        (archiveFields archive).set x selections = result := by
  apply field_eq_ok readSelection_eq_ok
  cases archive <;> rfl

theorem withArchive_unknown {selections : ArchiveSelections} {name : String} {value : Toml.Value}
    (unknown : name ∉ archiveNames) :
    withArchive selections name value = .error (.unknownField name archiveNames) := by
  unfold withArchive
  split <;> first | rfl | exact absurd (by decide) unknown

theorem mem_archiveNames {name : String} :
    name ∈ archiveNames ↔ ∃ archive, (archiveFields archive).name = name := by
  have found : ∀ name ∈ archiveNames, ∃ archive ∈ Archive.all, archiveName archive = name := by
    decide
  constructor
  · intro known
    obtain ⟨archive, -, same⟩ := found name known
    exact ⟨archive, same⟩
  · rintro ⟨archive, rfl⟩
    cases archive <;> decide

theorem withArchive_known {selections result : ArchiveSelections} {name : String}
    {value : Toml.Value} (done : withArchive selections name value = .ok result) :
    ∃ archive, (archiveFields archive).name = name := by
  by_contra unknown
  rw [withArchive_unknown (mt mem_archiveNames.mp unknown)] at done
  cases done

theorem archivesOfEntries_eq_ok {entries : Toml.Entries} {selections : ArchiveSelections}
    (distinct : entries.Distinct) :
    archivesOfEntries entries = .ok selections ↔ archiveFields.Reads entries {} selections :=
  Toml.Fields.foldlM_eq_ok (fun _ archive _ _ _ => withArchive_named archive)
    (fun _ _ _ _ done => withArchive_known done) distinct

/-- The selections are given by a table. -/
def IsArchives : Meaning ArchiveSelections := fun value selections =>
  ∃ origin entries, value = .table origin entries ∧ archiveFields.Reads entries {} selections

/-- The options by the names that they have here. -/
inductive Key where
  | verbose | inheritClasspath | jdkHome | jvmTarget | moduleName | languageVersion | apiVersion
  | suppressWarnings | allWarningsAsErrors | reportOutputFiles | reportPerformance
  | skipRuntimeVersionCheck | loadBuiltinsFromDependencies | javaParameters | correctErrorTypes
  | classpaths | freeArgs | pluginClasspaths | pluginOptions | kaptOptions | kaptJavacArguments
  | annotationProcessors | processorClasspath | archives
deriving DecidableEq

def Key.all : List Key :=
  [.verbose, .inheritClasspath, .jdkHome, .jvmTarget, .moduleName, .languageVersion, .apiVersion,
    .suppressWarnings, .allWarningsAsErrors, .reportOutputFiles, .reportPerformance,
    .skipRuntimeVersionCheck, .loadBuiltinsFromDependencies, .javaParameters, .correctErrorTypes,
    .classpaths, .freeArgs, .pluginClasspaths, .pluginOptions, .kaptOptions, .kaptJavacArguments,
    .annotationProcessors, .processorClasspath, .archives]

/-- The name of each option in a profile, its place and its form. -/
def field : Key → Toml.Field CompilerOptions
  | .verbose => ⟨"verbose", Bool, (·.verbose), fun x o => { o with verbose := x }, IsBool⟩
  | .inheritClasspath =>
    ⟨"inherit_classpath", Bool, (·.inheritClasspath),
      fun x o => { o with inheritClasspath := x }, IsBool⟩
  | .jdkHome =>
    ⟨"jdk_home", Option Path, (·.jdkHome), fun x o => { o with jdkHome := x }, IsSome IsPath⟩
  | .jvmTarget =>
    ⟨"jvm_target", Option JvmTarget, (·.jvmTarget),
      fun x o => { o with jvmTarget := x }, IsSome IsTarget⟩
  | .moduleName =>
    ⟨"module_name", Option String, (·.moduleName),
      fun x o => { o with moduleName := x }, IsSome IsText⟩
  | .languageVersion =>
    ⟨"language_version", Option String, (·.languageVersion),
      fun x o => { o with languageVersion := x }, IsSome IsText⟩
  | .apiVersion =>
    ⟨"api_version", Option String, (·.apiVersion),
      fun x o => { o with apiVersion := x }, IsSome IsText⟩
  | .suppressWarnings =>
    ⟨"suppress_warnings", Bool, (·.suppressWarnings),
      fun x o => { o with suppressWarnings := x }, IsBool⟩
  | .allWarningsAsErrors =>
    ⟨"all_warnings_as_errors", Bool, (·.allWarningsAsErrors),
      fun x o => { o with allWarningsAsErrors := x }, IsBool⟩
  | .reportOutputFiles =>
    ⟨"report_output_files", Bool, (·.reportOutputFiles),
      fun x o => { o with reportOutputFiles := x }, IsBool⟩
  | .reportPerformance =>
    ⟨"report_performance", Bool, (·.reportPerformance),
      fun x o => { o with reportPerformance := x }, IsBool⟩
  | .skipRuntimeVersionCheck =>
    ⟨"skip_runtime_version_check", Bool, (·.skipRuntimeVersionCheck),
      fun x o => { o with skipRuntimeVersionCheck := x }, IsBool⟩
  | .loadBuiltinsFromDependencies =>
    ⟨"load_builtins_from_dependencies", Bool, (·.loadBuiltinsFromDependencies),
      fun x o => { o with loadBuiltinsFromDependencies := x }, IsBool⟩
  | .javaParameters =>
    ⟨"java_parameters", Bool, (·.javaParameters), fun x o => { o with javaParameters := x }, IsBool⟩
  | .correctErrorTypes =>
    ⟨"correct_error_types", Bool, (·.correctErrorTypes),
      fun x o => { o with correctErrorTypes := x }, IsBool⟩
  | .classpaths =>
    ⟨"classpaths", List Path, (·.classpaths), fun x o => { o with classpaths := x }, IsList IsPath⟩
  | .freeArgs =>
    ⟨"free_args", List String, (·.freeArgs), fun x o => { o with freeArgs := x }, IsList IsText⟩
  | .pluginClasspaths =>
    ⟨"plugin_classpaths", List Path, (·.pluginClasspaths),
      fun x o => { o with pluginClasspaths := x }, IsList IsPath⟩
  | .pluginOptions =>
    ⟨"plugin_options", List String, (·.pluginOptions),
      fun x o => { o with pluginOptions := x }, IsList IsText⟩
  | .kaptOptions =>
    ⟨"kapt_options", SortedMap String, (·.kaptOptions),
      fun x o => { o with kaptOptions := x }, IsMap⟩
  | .kaptJavacArguments =>
    ⟨"kapt_javac_arguments", SortedMap String, (·.kaptJavacArguments),
      fun x o => { o with kaptJavacArguments := x }, IsMap⟩
  | .annotationProcessors =>
    ⟨"annotation_processors", List String, (·.annotationProcessors),
      fun x o => { o with annotationProcessors := x }, IsList IsText⟩
  | .processorClasspath =>
    ⟨"processor_classpath", List Path, (·.processorClasspath),
      fun x o => { o with processorClasspath := x }, IsList IsPath⟩
  | .archives =>
    ⟨"archives", ArchiveSelections, (·.archives), fun x o => { o with archives := x }, IsArchives⟩

/-- The options in the table that is a profile. -/
def fields : Toml.Fields CompilerOptions where
  Key := Key
  field := field
  name_injective := by
    intro key other
    cases key <;> cases other <;> simp [field]
  get_set := by
    intro key x o
    cases key <;> rfl
  get_set_of_ne := by
    intro key other x o differ
    cases key <;> cases other <;> first | rfl | exact absurd rfl differ
  ext := by
    intro o p same
    cases o
    cases p
    simp only [CompilerOptions.mk.injEq]
    exact ⟨same .verbose, same .inheritClasspath, same .jdkHome, same .jvmTarget, same .moduleName,
      same .languageVersion, same .apiVersion, same .suppressWarnings, same .allWarningsAsErrors,
      same .reportOutputFiles, same .reportPerformance, same .skipRuntimeVersionCheck,
      same .loadBuiltinsFromDependencies, same .javaParameters, same .correctErrorTypes,
      same .classpaths, same .freeArgs, same .pluginClasspaths, same .pluginOptions,
      same .kaptOptions, same .kaptJavacArguments, same .annotationProcessors,
      same .processorClasspath, same .archives⟩

theorem mem_fieldNames {name : String} : name ∈ fieldNames ↔ ∃ key, (fields key).name = name := by
  have listed : fieldNames = Key.all.map fun key => (fields key).name := rfl
  constructor
  · intro known
    rw [listed] at known
    obtain ⟨key, -, same⟩ := List.mem_map.mp known
    exact ⟨key, same⟩
  · rintro ⟨key, rfl⟩
    cases key <;> decide

theorem readArchives_eq_ok {origin : Toml.Origin} {entries : Toml.Entries}
    {selections : ArchiveSelections} (distinct : entries.Distinct) :
    readArchives (.table origin entries) = .ok selections ↔
      IsArchives (.table origin entries) selections := by
  constructor
  · intro read
    exact ⟨origin, entries, rfl, (archivesOfEntries_eq_ok distinct).mp read⟩
  · rintro ⟨_, _, ⟨⟩, reads⟩
    exact (archivesOfEntries_eq_ok distinct).mpr reads

theorem withField_unknown {o : CompilerOptions} {name : String} {value : Toml.Value}
    (unknown : name ∉ fieldNames) :
    withField o name value = .error (.unknownField name fieldNames) := by
  unfold withField
  split <;> first | rfl | exact absurd (by decide) unknown

theorem withField_known {o p : CompilerOptions} {name : String} {value : Toml.Value}
    (done : withField o name value = .ok p) : ∃ key, (fields key).name = name := by
  by_contra unknown
  rw [withField_unknown (mt mem_fieldNames.mp unknown)] at done
  cases done

theorem withField_named {key : Key} {o p : CompilerOptions} {value : Toml.Value}
    (tabular : key = .archives →
      ∃ origin entries, value = .table origin entries ∧ Toml.Entries.Distinct entries) :
    withField o (fields key).name value = .ok p ↔
      ∃ x, (fields key).Means value x ∧ (fields key).set x o = p := by
  cases key
  case verbose | inheritClasspath | suppressWarnings | allWarningsAsErrors | reportOutputFiles |
      reportPerformance | skipRuntimeVersionCheck | loadBuiltinsFromDependencies | javaParameters |
      correctErrorTypes =>
    exact field_eq_ok readBool_eq_ok rfl
  case classpaths | pluginClasspaths | processorClasspath =>
    exact field_eq_ok (readList_eq_ok readPath_eq_ok) rfl
  case freeArgs | pluginOptions | annotationProcessors =>
    exact field_eq_ok (readList_eq_ok readText_eq_ok) rfl
  case kaptOptions | kaptJavacArguments =>
    exact field_eq_ok readMap_eq_ok rfl
  case jdkHome =>
    exact option_eq_ok readPath_eq_ok rfl
  case jvmTarget =>
    exact option_eq_ok readTarget_eq_ok rfl
  case moduleName | languageVersion | apiVersion =>
    exact option_eq_ok readText_eq_ok rfl
  case archives =>
    obtain ⟨origin, entries, rfl, distinct⟩ := tabular rfl
    exact field_eq_ok (readArchives_eq_ok distinct) rfl

end KotlinCompile.Profile
