import KotlinCompile.Proofs.Compiler.Resolution
import KotlinCompile.Proofs.Fallible

/-! What a compilation is rejected for. The checks are listed here as the request states what they
are about; a run meets them in this order, and the first that fails is the one it reports. -/
namespace KotlinCompile
open Fallible

def encodingFault? (options : SortedMap String) : Option BuildError :=
  (fault? (Kapt.Payload.encode options)).map .optionEncoding

/-- What a request that has services is rejected for, given the archives. -/
def kaptRejection? (request : Request) (archives : ResolvedArchives) : Option BuildError :=
  if archives.found .kapt = none then some .missingKaptArchive
  else (encodingFault? request.options.kaptOptions).or
    (encodingFault? request.options.kaptJavacArguments)

namespace Compilation

def rejection? (compilation : Compilation) (machine : Machine) : Option BuildError :=
  let request := compilation.request
  (request.sources.findSome? fun source => fault? source.check)
    |>.or (request.bindings.findSome? fun binding => fault? binding.check)
    |>.or (request.options.pluginOptions.findSome? fun option =>
      (fault? (PluginOption.parse option)).map .invalidPluginOption)
    |>.or (if request.hasServices then kaptRejection? request (compilation.archives machine).1
      else none)
    |>.or (fault? (compilation.classpath machine).1.join)

end Compilation

theorem SourceFile.check_fault {source : SourceFile} {error : BuildError}
    (failed : fault? source.check = some error) : error.isConfiguration = true := by
  unfold SourceFile.check at failed
  split at failed <;> cases failed
  rfl

theorem ServiceBinding.check_fault {binding : ServiceBinding} {error : BuildError}
    (failed : fault? binding.check = some error) : error.isConfiguration = true := by
  unfold ServiceBinding.check at failed
  split at failed
  · cases failed
    rfl
  · split at failed <;> cases failed
    rfl

theorem Classpath.join_fault {classpath : Classpath} {error : BuildError}
    (failed : fault? classpath.join = some error) : error.isConfiguration = true := by
  unfold Classpath.join at failed
  split at failed
  · cases failed
    rfl
  · split at failed <;> cases failed
    rfl

theorem encodingFault_isConfiguration {options : SortedMap String} {error : BuildError}
    (failed : encodingFault? options = some error) : error.isConfiguration = true := by
  obtain ⟨fault, _, same⟩ := Option.map_eq_some_iff.mp failed
  rw [← same]
  rfl

theorem kaptRejection_isConfiguration {request : Request} {archives : ResolvedArchives}
    {error : BuildError} (failed : kaptRejection? request archives = some error) :
    error.isConfiguration = true := by
  unfold kaptRejection? at failed
  split at failed
  · cases failed
    rfl
  · rcases Option.or_eq_some_iff.mp failed with first | ⟨_, second⟩
    · exact encodingFault_isConfiguration first
    · exact encodingFault_isConfiguration second

theorem Compilation.rejection_isConfiguration {compilation : Compilation} {machine : Machine}
    {error : BuildError} (rejected : compilation.rejection? machine = some error) :
    error.isConfiguration = true := by
  simp only [rejection?, Option.or_eq_some_iff] at rejected
  rcases rejected with (((source | ⟨_, binding⟩) | ⟨_, option⟩) | ⟨_, kapt⟩) | ⟨_, joined⟩
  · obtain ⟨source, _, failed⟩ := List.exists_of_findSome?_eq_some source
    exact SourceFile.check_fault failed
  · obtain ⟨binding, _, failed⟩ := List.exists_of_findSome?_eq_some binding
    exact ServiceBinding.check_fault failed
  · obtain ⟨option, _, failed⟩ := List.exists_of_findSome?_eq_some option
    obtain ⟨fault, _, same⟩ := Option.map_eq_some_iff.mp failed
    rw [← same]
    rfl
  · split at kapt
    · exact kaptRejection_isConfiguration kapt
    · cases kapt
  · exact Classpath.join_fault joined

theorem fault_parsePluginOptions (options : List String) :
    fault? (Composition.parsePluginOptions options) = options.findSome? fun option =>
      (fault? (PluginOption.parse option)).map .invalidPluginOption := by
  simp only [Composition.parsePluginOptions, fault_mapM, fault_mapError]

-- A map without entries is left out, and it could have been encoded.
theorem fault_mapOptions (key : Kapt.Key) (options : SortedMap String) :
    fault? (Kapt.mapOptions key options) = encodingFault? options := by
  unfold Kapt.mapOptions encodingFault?
  by_cases empty : options.isEmpty = true
  · have none : options.entries = [] := List.isEmpty_iff.mp empty
    have encoded : fault? (Kapt.Payload.encode options) = Option.none := by
      simp only [Kapt.Payload.encode, Kapt.Payload.write, none, fault_map]
      rfl
    rw [if_pos empty, encoded]
    rfl
  · rw [if_neg empty]
    cases Kapt.Payload.encode options <;> rfl

theorem fault_wire (request : Request) (archives : ResolvedArchives) :
    fault? (Kapt.wire (Compilation.wiringInputs request archives)) =
      kaptRejection? request archives := by
  -- The archive is missed before any map is encoded, so the maps matter only where it was found.
  unfold Kapt.wire kaptRejection? Compilation.wiringInputs
  cases archives.found .kapt with
  | none => rfl
  | some kaptJar =>
    rw [if_neg (by simp), ← fault_mapOptions .apOptions request.options.kaptOptions,
      ← fault_mapOptions .javacArguments request.options.kaptJavacArguments]
    cases Kapt.mapOptions .apOptions request.options.kaptOptions with
    | error error => rfl
    | ok processorOptions =>
      cases Kapt.mapOptions .javacArguments request.options.kaptJavacArguments <;> rfl

namespace Compilation

theorem fault_kapt (compilation : Compilation) (machine : Machine) :
    fault? (compilation.kapt machine).1 = if compilation.request.hasServices then
      kaptRejection? compilation.request (compilation.archives machine).1 else none := by
  rw [kapt_answer]
  split
  · rw [fault_map, fault_wire]
  · rfl

/-- The checks in the words of the program. -/
theorem rejection_eq (compilation : Compilation) (machine : Machine) :
    compilation.rejection? machine =
      ((((fault? (compilation.request.sources.forM SourceFile.check)).or
        (fault? (ServiceBinding.checkAll compilation.request.bindings))).or
        (fault? (Composition.parsePluginOptions compilation.request.options.pluginOptions))).or
        (fault? (compilation.kapt machine).1)).or
        (fault? (compilation.classpath machine).1.join) := by
  rw [rejection?, fault_kapt, fault_parsePluginOptions, ServiceBinding.checkAll, fault_forM, fault_forM]

/-- A bench on which nothing was written and no compiler was called. -/
structure Untouched (bench after : Bench) : Prop where
  task : SameTask bench.compilation after.compilation
  machine : after.machine = bench.machine
  stream : after.stream = bench.stream
  calls : after.calls = bench.calls

/-- What the checks leave certain. -/
structure Checked (request : Request) (kapt : Option Kapt.Wiring) (classpath : Classpath) :
    Prop where
  sources : request.sources.forM SourceFile.check = .ok ()
  bindings : ServiceBinding.checkAll request.bindings = .ok ()
  pluginOptions : ∃ options,
    Composition.parsePluginOptions request.options.pluginOptions = .ok options
  wired : request.hasServices = true → ∃ wiring, kapt = some wiring
  joined : ∃ text, classpath.join = .ok text

theorem get_apply (bench : Bench) : (get : Run Bench) bench = (.ok bench, bench) := rfl

theorem untouched_asked {bench : Bench} {compilation : Compilation}
    (asked : Asked bench.machine bench.compilation compilation) :
    Untouched bench { bench with compilation } :=
  ⟨asked.toSameTask, rfl, rfl, rfl⟩

theorem kapt_wired {compilation : Compilation} {machine : Machine} {kapt : Option Kapt.Wiring}
    (answer : (compilation.kapt machine).1 = .ok kapt)
    (services : compilation.request.hasServices = true) : ∃ wiring, kapt = some wiring := by
  rw [kapt_answer, if_pos services] at answer
  obtain ⟨wiring, _, same⟩ := map_eq_ok.mp answer
  exact ⟨wiring, same.symm⟩

theorem check_spec (bench : Bench) :
    Untouched bench (check bench).2 ∧ match (check bench).1 with
      | .error error => bench.compilation.rejection? bench.machine = some error
      | .ok (kapt, classpath) => bench.compilation.rejection? bench.machine = none ∧
          Checked bench.compilation.request kapt classpath := by
  rw [rejection_eq]
  have untouched := untouched_asked (Asked.refl bench.machine bench.compilation)
  have asked := asked_kapt bench.compilation bench.machine
  have same := asked.classpath
  unfold check
  simp only [bind_apply, get_apply, Run.raise, Run.ask]
  -- One case for each check in their order. The last one sees a compilation that was asked for the
  -- archives before, and `same` says that its classpath is still the one that `rejection?` joins.
  cases sources : bench.compilation.request.sources.forM SourceFile.check with
  | error error => exact ⟨untouched, rfl⟩
  | ok _ =>
    cases bindings : ServiceBinding.checkAll bench.compilation.request.bindings with
    | error error => exact ⟨untouched, rfl⟩
    | ok _ =>
      cases options : Composition.parsePluginOptions
          bench.compilation.request.options.pluginOptions with
      | error error => exact ⟨untouched, rfl⟩
      | ok _ =>
        dsimp only
        cases answer : (bench.compilation.kapt bench.machine).1 with
        | error error => exact ⟨untouched_asked asked, rfl⟩
        | ok kapt =>
          dsimp only
          rw [same]
          have asked := asked.trans
            (asked_classpath (bench.compilation.kapt bench.machine).2 bench.machine)
          cases joined : (bench.compilation.classpath bench.machine).1.join with
          | error error => exact ⟨untouched_asked asked, rfl⟩
          | ok text =>
            exact ⟨untouched_asked asked, rfl, sources, bindings, ⟨_, options⟩,
              kapt_wired answer, text, joined⟩

end Compilation
end KotlinCompile
