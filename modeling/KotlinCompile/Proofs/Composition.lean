import KotlinCompile.Composition
import KotlinCompile.Proofs.Arguments
import KotlinCompile.Proofs.Fallible
import KotlinCompile.Proofs.Path.Text

/-! What a composition is made of, and how much of it a compiler can read off its command line:
everything, but for the plugin paths, which share one argument. The wiring of services is put behind
the plugins of the caller, and all else is as it is without it. -/
namespace KotlinCompile
open Fallible

namespace Kapt

theorem made_of_mapOptions {key : Key} {options : SortedMap String} {made : List PluginOption}
    (encoded : mapOptions key options = .ok made) : ∀ option ∈ made, option.Made := by
  unfold mapOptions at encoded
  split at encoded
  · cases encoded
    exact fun _ member => absurd member List.not_mem_nil
  · split at encoded
    · next text _ =>
      cases encoded
      exact List.forall_mem_singleton.mpr (.kapt key text)
    · cases encoded

theorem made_of_fixedOptions (inputs : Inputs) : ∀ option ∈ fixedOptions inputs, option.Made := by
  intro option member
  simp only [fixedOptions, List.mem_append, List.mem_cons, List.mem_map, List.not_mem_nil, or_false]
    at member
  rcases member with ((rfl | rfl | rfl | rfl) | ⟨path, _, rfl⟩) | rfl | rfl <;> exact .kapt _ _

theorem wire_ok {inputs : Inputs} {wiring : Wiring} (wired : wire inputs = .ok wiring) :
    ∃ kaptJar processors javac, inputs.kaptJar = some kaptJar ∧
      mapOptions .apOptions inputs.processorOptions = .ok processors ∧
      mapOptions .javacArguments inputs.javacArguments = .ok javac ∧
      wiring = ⟨kaptJar :: inputs.toolsJar.toList,
        fixedOptions inputs ++ processors ++ javac⟩ := by
  unfold wire at wired
  split at wired
  · cases wired
  · next kaptJar found =>
    obtain ⟨processors, encoded, wired⟩ := bind_eq_ok.mp wired
    obtain ⟨javac, encoded', done⟩ := bind_eq_ok.mp wired
    exact ⟨kaptJar, processors, javac, found, encoded, encoded', (pure_eq_ok.mp done).symm⟩

/-- The archive of the plugin stands before that of javac, if there is one, and the options are
all kapt's own. -/
theorem wire_eq_ok {inputs : Inputs} {wiring : Wiring} (wired : wire inputs = .ok wiring) :
    (∃ kaptJar, inputs.kaptJar = some kaptJar ∧
      wiring.classpath = kaptJar :: inputs.toolsJar.toList) ∧
    ∀ option ∈ wiring.options, option.Made := by
  obtain ⟨kaptJar, processors, javac, found, encoded, encoded', rfl⟩ := wire_ok wired
  refine ⟨⟨kaptJar, found, rfl⟩, fun option member => ?_⟩
  rcases List.mem_append.mp member with member | member
  · rcases List.mem_append.mp member with member | member
    · exact made_of_fixedOptions inputs option member
    · exact made_of_mapOptions encoded option member
  · exact made_of_mapOptions encoded' option member

end Kapt

namespace Composition
variable {machine : Machine} {request : Request} {classpath : Classpath}
  {kapt : Option Kapt.Wiring} {composition : Composition}

theorem compose_eq_ok :
    compose machine request classpath kapt = .ok composition ↔
      ∃ sources options wiring text,
        stagedSources machine request.layout.sources = .ok sources ∧
        parsePluginOptions request.options.pluginOptions = .ok options ∧
        wiringFor request kapt = .ok wiring ∧ classpath.join = .ok text ∧
        composition = ⟨argumentsFor request sources text options wiring, advisoriesFor request⟩ := by
  simp only [compose, bind_eq_ok, pure_eq_ok]
  constructor
  · rintro ⟨sources, staged, options, parsed, wiring, wired, text, joined, rfl⟩
    exact ⟨sources, options, wiring, text, staged, parsed, wired, joined, rfl⟩
  · rintro ⟨sources, options, wiring, text, staged, parsed, wired, joined, rfl⟩
    exact ⟨sources, staged, options, parsed, wiring, wired, text, joined, rfl⟩

theorem made_of_parsePluginOptions {texts : List String} {options : List PluginOption}
    (parsed : parsePluginOptions texts = .ok options) : ∀ option ∈ options, option.Made := by
  intro option member
  obtain ⟨text, _, parsed⟩ := mapM_values parsed option member
  exact PluginOption.made_of_parse (mapError_eq_ok.mp parsed)

theorem wiringFor_eq_ok {wiring : Kapt.Wiring} (wired : wiringFor request kapt = .ok wiring) :
    if request.hasServices then kapt = some wiring else wiring = {} := by
  unfold wiringFor at wired
  split at wired
  · next services =>
    rw [if_pos services]
    split at wired <;> cases wired
    rfl
  · next services =>
    rw [if_neg services]
    cases wired
    rfl

theorem advisories_of_compose
    (composed : compose machine request classpath kapt = .ok composition) :
    composition.advisories = advisoriesFor request := by
  obtain ⟨_, _, _, _, _, _, _, _, rfl⟩ := compose_eq_ok.mp composed
  rfl

/-- Kapt's options stand behind those of the request, and all of them were checked or made for
kapt. -/
theorem composed_of_compose (made : ∀ wiring ∈ kapt, ∀ option ∈ wiring.options, option.Made)
    (composed : compose machine request classpath kapt = .ok composition) :
    composition.arguments.Composed := by
  obtain ⟨_, options, wiring, _, _, parsed, wired, _, rfl⟩ := compose_eq_ok.mp composed
  refine ⟨rfl, fun option member => ?_⟩
  rcases List.mem_append.mp member with own | wires
  · exact made_of_parsePluginOptions parsed option own
  · have answer := wiringFor_eq_ok wired
    split at answer
    · exact made wiring answer option wires
    · rw [answer] at wires
      cases wires

/-- Nothing is lost on the command line: arguments that were composed, with as many free ones, are
the same if their command lines are, but for what the texts of their paths do not tell: which bytes
stand behind a character that is none of text, and where among the plugin paths one of them ends and
the next begins. -/
theorem commandLine_faithful :
    (∀ machine request classpath kapt composition,
      (∀ wiring ∈ kapt, ∀ option ∈ wiring.options, option.Made) →
      compose machine request classpath kapt = .ok composition →
      composition.arguments.Composed) ∧
    (∀ inputs wiring, Kapt.wire inputs = .ok wiring → ∀ option ∈ wiring.options, option.Made) ∧
    ∀ a b : Arguments, a.Composed → b.Composed → a.freeArgs.length = b.freeArgs.length →
      a.commandLine = b.commandLine →
      a = { b with
          destination := a.destination
          jdkHome := a.jdkHome
          pluginClasspaths := a.pluginClasspaths } ∧
        a.destination.text = b.destination.text ∧
        a.jdkHome.map (·.text) = b.jdkHome.map (·.text) ∧
        Arguments.joined a.pluginClasspaths = Arguments.joined b.pluginClasspaths := by
  refine ⟨fun _ _ _ _ _ => composed_of_compose, fun _ _ wired => (Kapt.wire_eq_ok wired).2, ?_⟩
  intro a b first second free same
  obtain ⟨rendered, free⟩ := List.append_inj' same free
  have reading : Arguments.given a.places ++ a.pluginsGiven =
      Arguments.given b.places ++ b.pluginsGiven := by
    rw [← Arguments.read_rendered, ← Arguments.read_rendered, rendered]
  have distinct : (a.places.map (·.1)).Nodup := by
    rw [Arguments.flags_places a {}]
    decide
  obtain ⟨places, plugins⟩ := Arguments.given_append_inj (Arguments.flags_places a b) distinct
    (Arguments.pluginsGiven_apart a a) (Arguments.pluginsGiven_apart b a) reading
  obtain ⟨joined, options⟩ := Arguments.pluginsGiven_inj first.made second.made plugins
  obtain ⟨alike, destination, home⟩ := Arguments.eq_of_places first second places options free
  exact ⟨alike, destination, home, joined⟩

/-- Texts that look like flags, and a plugin path that looks like two. -/
def flagLike (paths : List Path) : Arguments where
  freeArgs := ["-verbose"]
  destination := ⟨"-classpath"⟩
  classpath := "-d"
  noJdk := true
  moduleName := some "-api-version"
  apiVersion := some "-Xplugin=/a"
  pluginClasspaths := paths
  pluginOptions := [.kapt .apClasspath "-P"]

theorem flagLike_paths_alike :
    (∀ paths, (flagLike paths).Composed) ∧
    (flagLike [⟨"/a"⟩, ⟨"b.jar"⟩]).commandLine = (flagLike [⟨"/a,b.jar"⟩]).commandLine ∧
    flagLike [⟨"/a"⟩, ⟨"b.jar"⟩] =
      { flagLike [⟨"/a,b.jar"⟩] with pluginClasspaths := [⟨"/a"⟩, ⟨"b.jar"⟩] } := by
  have composed (paths : List Path) : (flagLike paths).Composed :=
    ⟨rfl, List.forall_mem_singleton.mpr (.kapt _ _)⟩
  have same : (flagLike [⟨"/a"⟩, ⟨"b.jar"⟩]).commandLine =
      (flagLike [⟨"/a,b.jar"⟩]).commandLine := by
    simp [flagLike, Arguments.commandLine, Arguments.rendered, Arguments.pluginArguments]
  exact ⟨composed, same, (commandLine_faithful.2.2 (flagLike [⟨"/a"⟩, ⟨"b.jar"⟩])
    (flagLike [⟨"/a,b.jar"⟩]) (composed _) (composed _) rfl same).1⟩

/-- The caller's plugin paths come first, and then those of the wiring if there are services. -/
theorem pluginClasspaths_of_compose
    (composed : compose machine request classpath kapt = .ok composition) :
    composition.arguments.pluginClasspaths = request.options.pluginClasspaths ++
      if request.hasServices then (kapt.map (·.classpath)).getD [] else [] := by
  obtain ⟨_, _, wiring, _, _, _, wired, _, rfl⟩ := compose_eq_ok.mp composed
  have answer := wiringFor_eq_ok wired
  split at answer
  · next services => rw [if_pos services, answer]; rfl
  · next services => rw [if_neg services, answer]; rfl

/-- Before the free arguments one option names the plugin paths, and its commas give back the texts
of the caller's paths and then of the archives of kapt exactly if none of them has a comma in it. -/
theorem plugin_paths_read_iff
    (composed : compose machine request classpath kapt = .ok composition)
    (nonempty : composition.arguments.pluginClasspaths ≠ []) :
    let entries := request.options.pluginClasspaths ++
      if request.hasServices then (kapt.map (·.classpath)).getD [] else []
    (∃ options found, composition.arguments.commandLine = options ++ composition.arguments.freeArgs ∧
      Arguments.pluginPathsRead options = [found] ∧
      (found = entries.map (·.text) ↔ ∀ entry ∈ entries, ',' ∉ entry.text.toList)) ∧
    ∀ inputs wiring, Kapt.wire inputs = .ok wiring → ∃ kaptJar, inputs.kaptJar = some kaptJar ∧
      wiring.classpath = kaptJar :: inputs.toolsJar.toList := by
  intro entries
  have paths : composition.arguments.pluginClasspaths = entries :=
    pluginClasspaths_of_compose composed
  refine ⟨⟨composition.arguments.rendered, _, rfl, Arguments.pluginPathsRead_rendered nonempty, ?_⟩,
    fun _ _ wired => (Kapt.wire_eq_ok wired).1⟩
  rw [← paths]
  exact Arguments.pathsAt_joined_iff nonempty

/-- A request with one plugin path of its own. -/
def pluginRequest (path : Path) (services : List ServiceBinding) : Request where
  layout := ⟨⟨"/work"⟩⟩
  services
  options := { pluginClasspaths := [path] }

theorem compose_pluginRequest (path : Path) (services : List ServiceBinding)
    (kapt : Option Kapt.Wiring) {wiring : Kapt.Wiring}
    (wired : wiringFor (pluginRequest path services) kapt = .ok wiring) :
    compose ⟨.empty, [], []⟩ (pluginRequest path services) ⟨[]⟩ kapt =
      .ok ⟨argumentsFor (pluginRequest path services) [] "" [] wiring,
        advisoriesFor (pluginRequest path services)⟩ := by
  have absent : Machine.isDirectory ⟨.empty, [], []⟩
      (pluginRequest path services).layout.sources = false := by
    change Machine.isDirectory ⟨.empty, [], []⟩ (Layout.sources ⟨⟨"/work"⟩⟩) = false
    decide +kernel
  have unstaged : stagedSources ⟨.empty, [], []⟩ (pluginRequest path services).layout.sources =
      .ok [] := by
    rw [stagedSources, absent]
    rfl
  have joined : Classpath.join ⟨[]⟩ = .ok "" := by decide +kernel
  exact compose_eq_ok.mpr ⟨[], [], wiring, "", unstaged, rfl, wired, joined, rfl⟩

theorem plugin_archives_read :
    ∃ composition options, compose ⟨.empty, [], []⟩
        (pluginRequest ⟨"/plugins/open.jar"⟩ [⟨"api.Plugin", "impl.First"⟩]) ⟨[]⟩
        (some ⟨[⟨"/lib/kapt.jar"⟩, ⟨"/jdk/lib/tools.jar"⟩], []⟩) = .ok composition ∧
      composition.arguments.commandLine = options ++ composition.arguments.freeArgs ∧
      Arguments.pluginPathsRead options =
        [["/plugins/open.jar", "/lib/kapt.jar", "/jdk/lib/tools.jar"]] := by
  have composed := compose_pluginRequest ⟨"/plugins/open.jar"⟩ [⟨"api.Plugin", "impl.First"⟩]
    (some ⟨[⟨"/lib/kapt.jar"⟩, ⟨"/jdk/lib/tools.jar"⟩], []⟩) rfl
  obtain ⟨options, found, whole, read, plain⟩ :=
    (plugin_paths_read_iff composed (List.cons_ne_nil _ _)).1
  exact ⟨_, options, composed, whole, by rw [read, plain.mpr (by decide +kernel)]; decide +kernel⟩

theorem comma_read_as_two_paths :
    ∃ composition, compose ⟨.empty, [], []⟩ (pluginRequest ⟨"/plugins/a,b.jar"⟩ []) ⟨[]⟩ none =
        .ok composition ∧
      composition.arguments.pluginClasspaths = [⟨"/plugins/a,b.jar"⟩] ∧
      Arguments.pluginPathsRead composition.arguments.rendered =
        [["/plugins/a", "b.jar"]] :=
  ⟨_, compose_pluginRequest ⟨"/plugins/a,b.jar"⟩ [] none rfl, rfl, by decide +kernel⟩

end Composition

namespace Arguments

theorem flags_nodup (a : Arguments) : (a.places.map (·.1)).Nodup := by
  rw [flags_places a {}]
  decide

/-- A place that is filled is given once, and another one not at all. -/
theorem count_given {κ β : Type} [DecidableEq κ] {places : List (κ × Option β)}
    (distinct : (places.map (·.1)).Nodup) {flag : κ} {value : Option β}
    (member : (flag, value) ∈ places) :
    ((given places).map (·.1)).count flag = if value.isSome then 1 else 0 := by
  have absent {places : List (κ × Option β)} (elsewhere : flag ∉ places.map (·.1)) :
      ((given places).map (·.1)).count flag = 0 := by
    apply List.count_eq_zero.mpr
    intro given
    obtain ⟨option, inside, rfl⟩ := List.mem_map.mp given
    exact elsewhere (mem_places_of_given inside)
  induction places with
  | nil => cases member
  | cons place rest ih =>
    obtain ⟨other, filled⟩ := place
    obtain ⟨once, distinct⟩ := List.nodup_cons.mp distinct
    have step : given ((other, filled) :: rest) =
        (filled.map (other, ·)).toList ++ given rest := by
      cases filled <;> rfl
    rw [step, List.map_append, List.count_append]
    rcases List.mem_cons.mp member with same | later
    · cases same
      rw [absent once]
      cases value <;> simp
    · have differ : other ≠ flag := by
        rintro rfl
        exact once (List.mem_map.mpr ⟨_, later, rfl⟩)
      rw [ih distinct later]
      cases filled <;> simp [differ]

/-- How often a flag stands among the rendered options, if it is one of those with a place. -/
theorem count_rendered (a : Arguments) {flag : String} {value : Option (Option String)}
    (place : (flag, value) ∈ a.places) :
    ((read a.rendered).map (·.1)).count flag = if value.isSome then 1 else 0 := by
  have plugins : (a.pluginsGiven.map (·.1)).count flag = 0 := by
    apply List.count_eq_zero.mpr
    intro member
    obtain ⟨option, inside, rfl⟩ := List.mem_map.mp member
    exact pluginsGiven_apart a a option inside (List.mem_map.mpr ⟨_, place, rfl⟩)
  rw [read_rendered, List.map_append, List.count_append, plugins, count_given a.flags_nodup place,
    Nat.add_zero]

end Arguments

/-- The request as it is without services: neither bindings nor annotation processors. -/
def Request.withoutServices (request : Request) : Request :=
  { request with services := [], options := { request.options with annotationProcessors := [] } }

namespace Composition
variable {machine : Machine} {request : Request} {classpath : Classpath}
  {kapt : Option Kapt.Wiring} {composition : Composition}

theorem texts_of_parsePluginOptions {texts : List String} {options : List PluginOption}
    (parsed : parsePluginOptions texts = .ok options) : options.map (·.text) = texts := by
  induction texts generalizing options with
  | nil =>
    cases parsed
    rfl
  | cons text rest ih =>
    rw [parsePluginOptions, List.mapM_cons] at parsed
    obtain ⟨option, first, later⟩ := bind_eq_ok.mp parsed
    obtain ⟨others, behind, done⟩ := bind_eq_ok.mp later
    rw [← pure_eq_ok.mp done, List.map_cons, ih behind]
    have same : option.text = text := (PluginOption.parse_eq_ok.mp (mapError_eq_ok.mp first)).1
    rw [same]

/-- What the wiring of kapt adds to a request. -/
def added (request : Request) (kapt : Option Kapt.Wiring) : Kapt.Wiring :=
  if request.hasServices then kapt.getD {} else {}

theorem added_of_wiringFor {wiring : Kapt.Wiring} (wired : wiringFor request kapt = .ok wiring) :
    added request kapt = wiring := by
  have answer := wiringFor_eq_ok wired
  unfold added
  split at answer <;> simp_all

theorem compose_withoutServices (other : Option Kapt.Wiring)
    (composed : compose machine request classpath kapt = .ok composition) : ∃ bare,
      compose machine request.withoutServices classpath other = .ok bare ∧
      composition.arguments =
        { bare.arguments with
          pluginClasspaths := bare.arguments.pluginClasspaths ++ (added request kapt).classpath
          pluginOptions := bare.arguments.pluginOptions ++ (added request kapt).options } := by
  obtain ⟨sources, options, wiring, text, staged, parsed, wired, joined, rfl⟩ :=
    compose_eq_ok.mp composed
  have bare : wiringFor request.withoutServices other = .ok {} := rfl
  refine ⟨_, compose_eq_ok.mpr ⟨sources, options, {}, text, staged, parsed, bare, joined, rfl⟩, ?_⟩
  rw [added_of_wiringFor wired]
  simp [argumentsFor, Request.withoutServices]

/-- A request that can be composed with services can be composed without them, and then the
arguments lack the wiring of kapt behind the plugin paths and behind the plugin options, and nothing
else. With or without services the plugins and the free arguments of the caller stand as they were
given, the standard library and reflection are left to the classpath, and of the two flags about a
JDK there is the one that fits, once. -/
theorem services_only_append
    (composed : compose machine request classpath kapt = .ok composition) :
    let arguments := composition.arguments
    let flags := (Arguments.read arguments.rendered).map (·.1)
    (request.hasServices = true → ∃ wiring, kapt = some wiring ∧ ∀ other, ∃ bare,
      compose machine request.withoutServices classpath other = .ok bare ∧
      arguments =
        { bare.arguments with
          pluginClasspaths := bare.arguments.pluginClasspaths ++ wiring.classpath
          pluginOptions := bare.arguments.pluginOptions ++ wiring.options }) ∧
    arguments.pluginClasspaths =
      request.options.pluginClasspaths ++ (added request kapt).classpath ∧
    arguments.pluginOptions.map (·.text) =
      request.options.pluginOptions ++ (added request kapt).options.map (·.text) ∧
    (∃ sources, stagedSources machine request.layout.sources = .ok sources ∧
      arguments.freeArgs = sources.map (·.text) ++ request.options.freeArgs) ∧
    arguments.noStdlib = true ∧ arguments.noReflect = true ∧
    arguments.commandLine = arguments.rendered ++ arguments.freeArgs ∧
    flags.count "-jdk-home" = (if request.options.jdkHome.isSome then 1 else 0) ∧
    flags.count "-no-jdk" = (if request.options.jdkHome.isNone then 1 else 0) := by
  intro arguments flags
  obtain ⟨sources, options, wiring, text, staged, parsed, wired, joined, same⟩ :=
    compose_eq_ok.mp composed
  have whole : arguments = argumentsFor request sources text options wiring := by
    simp only [arguments, same]
  have home : arguments.jdkHome = request.options.jdkHome := by rw [whole]; rfl
  have noJdk : arguments.noJdk = request.options.jdkHome.isNone := by rw [whole]; rfl
  refine ⟨?_, ?_, ?_, ⟨sources, staged, by rw [whole]; rfl⟩, by rw [whole]; rfl, by rw [whole]; rfl,
    rfl, ?_, ?_⟩
  · intro services
    have answer := wiringFor_eq_ok wired
    rw [if_pos services] at answer
    refine ⟨wiring, answer, fun other => ?_⟩
    have wires : added request kapt = wiring := added_of_wiringFor wired
    exact wires ▸ compose_withoutServices other composed
  · rw [added_of_wiringFor wired, whole]
    rfl
  · rw [added_of_wiringFor wired, whole, argumentsFor, List.map_append,
      texts_of_parsePluginOptions parsed]
  · have place : ("-jdk-home", arguments.jdkHome.map fun home => some home.text) ∈
        arguments.places := by simp [Arguments.places]
    rw [arguments.count_rendered place, Option.isSome_map, home]
  · have place : ("-no-jdk", Arguments.bare (arguments.jdkHome.isNone && arguments.noJdk)) ∈
        arguments.places := by simp [Arguments.places]
    rw [arguments.count_rendered place, home, noJdk]
    cases request.options.jdkHome <;> rfl

theorem plugin_kept_without_services :
    let request := pluginRequest ⟨"/plugins/open.jar"⟩ [⟨"api.Plugin", "impl.First"⟩]
    let wiring : Kapt.Wiring := ⟨[⟨"/lib/kapt.jar"⟩], [.kapt .aptMode Kapt.mode]⟩
    ∃ composition bare,
      compose ⟨.empty, [], []⟩ request ⟨[]⟩ (some wiring) = .ok composition ∧
      request.hasServices = true ∧
      compose ⟨.empty, [], []⟩ request.withoutServices ⟨[]⟩ none = .ok bare ∧
      composition.arguments.pluginClasspaths = [⟨"/plugins/open.jar"⟩, ⟨"/lib/kapt.jar"⟩] ∧
      bare.arguments.pluginClasspaths = [⟨"/plugins/open.jar"⟩] ∧
      composition.arguments.pluginOptions = bare.arguments.pluginOptions ++ wiring.options := by
  intro request wiring
  have composed := compose_pluginRequest ⟨"/plugins/open.jar"⟩ [⟨"api.Plugin", "impl.First"⟩]
    (some wiring) rfl
  have services : request.hasServices = true := rfl
  have ⟨appends, paths, _⟩ := services_only_append composed
  obtain ⟨_, same, without⟩ := appends services
  cases same
  obtain ⟨bare, composed', differ⟩ := without none
  refine ⟨_, bare, composed, services, composed', paths, ?_, congrArg (·.pluginOptions) differ⟩
  have appended := paths.symm.trans (congrArg (·.pluginClasspaths) differ)
  exact (List.append_cancel_right appended).symm

end Composition
end KotlinCompile
