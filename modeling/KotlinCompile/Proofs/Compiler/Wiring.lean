import KotlinCompile.Proofs.Compiler.Footprint
import KotlinCompile.Proofs.Kapt.Canonical
import KotlinCompile.Proofs.Machine.Passing

/-! How a run with services has the compiler process annotations: behind the plugin options of the
request stand those of kapt, and the first path they name for finding processors is that of the
archive that was just written. A run without services does neither. -/
namespace KotlinCompile
open Fallible

namespace Arguments

/-- The texts of the options for plugins among some arguments. -/
def optionsRead (arguments : List String) : List String :=
  (read arguments).filterMap fun option => if option.1 = "-P" then option.2 else none

/-- Nothing but the plugin options is read as one, whatever the texts of the other fields look
like. -/
theorem optionsRead_rendered (a : Arguments) :
    optionsRead a.rendered = a.pluginOptions.map (·.text) := by
  have elsewhere : (given a.places).filterMap
      (fun option => if option.1 = "-P" then option.2 else none) = [] := by
    rw [List.filterMap_eq_nil_iff]
    intro option member
    rw [if_neg (flags_unlike a option.1 (mem_places_of_given member)).2]
  have paths : (if a.pluginClasspaths.isEmpty then [] else
      [(pluginArgument a.pluginClasspaths, (none : Option String))]).filterMap
        (fun option => if option.1 = "-P" then option.2 else none) = [] := by
    split <;> simp
  rw [optionsRead, read_rendered, List.filterMap_append, elsewhere, pluginsGiven,
    List.filterMap_append, paths, List.filterMap_map, List.nil_append, List.nil_append]
  exact congrFun List.filterMap_eq_map a.pluginOptions

end Arguments

namespace Kapt

/-- The text of an option that hands over a map; there is no such option for an empty map. -/
def Carries (options : SortedMap String) : Option String → Prop
  | none => options.isEmpty = true
  | some text => options.isEmpty = false ∧ Payload.decode text = .ok options

theorem carries_of_mapOptions {key : Key} {options : SortedMap String} {made : List PluginOption}
    (encoded : mapOptions key options = .ok made) :
    ∃ text : Option String, Carries options text ∧ made = text.toList.map (.kapt key) := by
  unfold mapOptions at encoded
  split at encoded
  · next empty =>
    cases encoded
    exact ⟨none, empty, rfl⟩
  · next filled =>
    split at encoded
    · next text written =>
      cases encoded
      have readable := Payload.decode_encoded options text written
      exact ⟨some text, ⟨Bool.not_eq_true _ ▸ filled, readable⟩, rfl⟩
    · cases encoded

end Kapt

namespace Request

/-- The options that kapt needs for a request. -/
def NeedsOfKapt (request : Request) (options : List PluginOption) : Prop :=
  ∃ processors javac, Kapt.Carries request.options.kaptOptions processors ∧
    Kapt.Carries request.options.kaptJavacArguments javac ∧
    options =
      [.kapt .sources request.layout.kaptSources.text,
        .kapt .classes request.layout.kaptClasses.text,
        .kapt .stubs request.layout.kaptStubs.text,
        .kapt .apClasspath request.layout.servicesJar.text] ++
      request.options.processorClasspath.map (fun path => .kapt .apClasspath path.text) ++
      [.kapt .correctErrorTypes (if request.options.correctErrorTypes then "true" else "false"),
        .kapt .aptMode "stubsAndApt"] ++
      processors.toList.map (.kapt .apOptions) ++ javac.toList.map (.kapt .javacArguments)

end Request

namespace Compilation
variable {bench ready : Bench} {composition : Composition} {request : Request}

theorem needs_of_wire {archives : ResolvedArchives} {wiring : Kapt.Wiring}
    (wired : Kapt.wire (wiringInputs request archives) = .ok wiring) :
    request.NeedsOfKapt wiring.options := by
  obtain ⟨_, _, _, _, first, second, rfl⟩ := Kapt.wire_ok wired
  obtain ⟨processors, carried, rfl⟩ := Kapt.carries_of_mapOptions first
  obtain ⟨javac, carried', rfl⟩ := Kapt.carries_of_mapOptions second
  exact ⟨processors, javac, carried, carried', rfl⟩

/-- The options on the command line of a run that reaches the compiler. -/
theorem Reaches.options (reached : Reaches bench composition ready) :
    let request := bench.compilation.request
    ∃ own wired, Composition.parsePluginOptions request.options.pluginOptions = .ok own ∧
      Arguments.optionsRead composition.arguments.rendered = (own ++ wired).map (·.text) ∧
      if request.hasServices then request.NeedsOfKapt wired else wired = [] := by
  intro request
  obtain ⟨kapt, classpath, announces⟩ := reaches_iff.mp reached
  obtain ⟨_, own, wiring, _, _, parsed, wired, _, same⟩ :=
    Composition.compose_eq_ok.mp announces.composed
  refine ⟨own, wiring.options, parsed, ?_, ?_⟩
  · rw [Arguments.optionsRead_rendered, same]
    rfl
  · have which := Composition.wiringFor_eq_ok wired
    obtain ⟨_, _, _, answer, _⟩ := check_eq_ok.mp announces.checked
    rw [kapt_answer] at answer
    split at which
    · next services =>
      rw [if_pos services, which] at answer
      obtain ⟨_, made, ⟨⟩⟩ := map_eq_ok.mp answer
      rw [if_pos services]
      exact needs_of_wire made
    · next services =>
      rw [if_neg services, which]

/-- With services the archive is written when the run reaches the compiler. -/
theorem Reaches.archive (reached : Reaches bench composition ready)
    (services : bench.compilation.request.hasServices = true) : ∃ entries,
    ServiceBinding.Registers entries bench.compilation.request.bindings ∧
    ready.machine.read bench.compilation.request.layout.servicesJar = .ok (.archive entries) := by
  obtain ⟨_, _, announces⟩ := reaches_iff.mp reached
  obtain ⟨_, _, _, _, machine, _, _, packages, same⟩ := prepare_eq_ok.mp announces.prepared
  rw [if_pos services] at packages
  obtain ⟨accepted, delivered⟩ := ServiceBinding.package_eq_ok.mp packages
  obtain ⟨_, _, _, found⟩ := Machine.status_of_deliver delivered
  refine ⟨_, ServiceBinding.registers_archiveEntries (forM_eq_ok.mp accepted), ?_⟩
  cases same
  exact Machine.read_of_status found

end Compilation
end KotlinCompile
