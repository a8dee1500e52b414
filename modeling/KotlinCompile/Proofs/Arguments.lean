import KotlinCompile.Arguments
import KotlinCompile.Proofs.Path
import KotlinCompile.Proofs.Plugin.Option

/-! How a command line is read. A flag that takes a value has the argument behind it, whatever that
looks like, and so what was rendered comes apart again into one place for each flag, the plugin
paths, and the options of the plugins. -/
namespace KotlinCompile

namespace JvmTarget

theorem text_injective {target other : JvmTarget} (same : target.text = other.text) :
    target = other := by
  have releases : ∀ n < 26, 6 ≤ n → ∀ m < 26, 6 ≤ m →
      (if n ≤ 8 then "1." ++ toString n else toString n) =
        (if m ≤ 8 then "1." ++ toString m else toString m) → n = m := by decide +kernel
  obtain ⟨release, oldest, newest⟩ := target
  obtain ⟨another, eldest, latest⟩ := other
  have equal := releases release (Nat.lt_succ_of_le newest) oldest another
    (Nat.lt_succ_of_le latest) eldest same
  subst equal
  rfl

end JvmTarget

namespace Arguments

/-- The flags that take a value. -/
def valued : List String :=
  ["-d", "-classpath", "-jdk-home", "-jvm-target", "-module-name", "-language-version",
    "-api-version", "-P"]

/-- The options among some arguments, each with its value if it takes one. -/
def read : List String → List (String × Option String)
  | [] => []
  | [flag] => [(flag, none)]
  | flag :: value :: rest =>
    if flag ∈ valued then (flag, some value) :: read rest
    else (flag, none) :: read (value :: rest)

theorem read_alone {flag : String} (alone : flag ∉ valued) (rest : List String) :
    read (flag :: rest) = (flag, none) :: read rest := by
  cases rest with
  | nil => rfl
  | cons value rest => rw [read, if_neg alone]

theorem read_valued {flag : String} (takes : flag ∈ valued) (value : String)
    (rest : List String) : read (flag :: value :: rest) = (flag, some value) :: read rest := by
  rw [read, if_pos takes]

section Places
variable {κ β : Type} {places others : List (κ × Option β)} {rest behind : List (κ × β)}

/-- What is given in a list of places, each of which may be left empty. -/
def given (places : List (κ × Option β)) : List (κ × β) :=
  places.filterMap fun place => place.2.map (place.1, ·)

theorem given_append (places others : List (κ × Option β)) :
    given (places ++ others) = given places ++ given others :=
  List.filterMap_append

theorem mem_places_of_given {option : κ × β} (member : option ∈ given places) :
    option.1 ∈ places.map (·.1) := by
  obtain ⟨place, kept, found⟩ := List.mem_filterMap.mp member
  obtain ⟨value, _, rfl⟩ := Option.map_eq_some_iff.mp found
  exact List.mem_map_of_mem kept

theorem not_given {flag : κ} (absent : flag ∉ places.map (·.1))
    (apart : ∀ option ∈ rest, option.1 ≠ flag) (value : β) (more : List (κ × β)) :
    (flag, value) :: more ≠ given places ++ rest := by
  intro same
  have member : (flag, value) ∈ given places ++ rest := same ▸ List.mem_cons_self
  rcases List.mem_append.mp member with inside | after
  · exact absent (mem_places_of_given inside)
  · exact apart _ after rfl

/-- Where every flag has one place, the places can be told from what is given in them, and so can
whatever other options follow. -/
theorem given_append_inj (flags : places.map (·.1) = others.map (·.1))
    (distinct : (places.map (·.1)).Nodup)
    (apart : ∀ option ∈ rest, option.1 ∉ places.map (·.1))
    (elsewhere : ∀ option ∈ behind, option.1 ∉ places.map (·.1))
    (same : given places ++ rest = given others ++ behind) : places = others ∧ rest = behind := by
  induction places generalizing others with
  | nil =>
    rw [List.map_eq_nil_iff.mp flags.symm] at same ⊢
    exact ⟨rfl, same⟩
  | cons place places ih =>
    obtain ⟨flag, value⟩ := place
    cases others with
    | nil => cases flags
    | cons other others =>
      obtain ⟨flag', value'⟩ := other
      obtain ⟨first, more⟩ := List.cons.inj flags
      obtain ⟨once, distinct⟩ := List.nodup_cons.mp distinct
      simp only [List.map_cons, List.mem_cons, not_or] at apart elsewhere
      have later := ih more distinct (fun option member => (apart option member).2)
        (fun option member => (elsewhere option member).2)
      cases first
      -- What only one of the two gives is at the front there and nowhere in the other.
      cases value with
      | none =>
        cases value' with
        | none =>
          obtain ⟨rfl, equal⟩ := later same
          exact ⟨rfl, equal⟩
        | some value' =>
          exact absurd same.symm
            (not_given once (fun option member => (apart option member).1) value' _)
      | some value =>
        cases value' with
        | none =>
          have absent : flag ∉ others.map (·.1) := more ▸ once
          exact absurd same
            (not_given absent (fun option member => (elsewhere option member).1) value _)
        | some value' =>
          obtain ⟨front, tails⟩ := List.cons.inj same
          cases front
          obtain ⟨rfl, equal⟩ := later tails
          exact ⟨rfl, equal⟩

end Places

section Reading
variable {flag : String}

def bare (on : Bool) : Option (Option String) := if on then some none else none

theorem bare_inj {on other : Bool} (same : bare on = bare other) : on = other := by
  have back (on : Bool) : (bare on).isSome = on := by cases on <;> rfl
  rw [← back on, same, back]

theorem read_switch (alone : flag ∉ valued) (on : Bool) (rest : List String) :
    read (switch flag on ++ rest) = given [(flag, bare on)] ++ read rest := by
  cases on with
  | false => rfl
  | true => exact read_alone alone rest

theorem read_setting (takes : flag ∈ valued) (value : Option String) (rest : List String) :
    read (setting flag value ++ rest) = given [(flag, value.map some)] ++ read rest := by
  cases value with
  | none => rfl
  | some value => exact read_valued takes value rest

/-- What is given for a classpath, of which an empty one is left out. -/
def classpathGiven (text : String) : Option (Option String) :=
  if text = "" then none else some (some text)

theorem classpathGiven_inj {text other : String}
    (same : classpathGiven text = classpathGiven other) : text = other := by
  unfold classpathGiven at same
  split at same <;> split at same <;> simp_all

theorem read_classpath (text : String) (rest : List String) :
    read (classpathArguments text ++ rest) =
      given [("-classpath", classpathGiven text)] ++ read rest := by
  unfold classpathArguments classpathGiven
  split
  · rfl
  · exact read_valued (by decide) text rest

theorem read_jdk (home : Option Path) (noJdk : Bool) (rest : List String) :
    read (jdkArguments home noJdk ++ rest) =
      given [("-jdk-home", home.map fun home => some home.text),
        ("-no-jdk", bare (home.isNone && noJdk))] ++ read rest := by
  cases home with
  | none => exact read_switch (by decide) noJdk rest
  | some home => exact read_valued (by decide) home.text rest

def joined (paths : List Path) : String := ",".intercalate (paths.map (·.text))

def pluginArgument (paths : List Path) : String := "-Xplugin=" ++ joined paths

theorem pluginArgument_ne (known : "-Xplugin=".toList.isPrefixOf flag.toList = false)
    (paths : List Path) : pluginArgument paths ≠ flag := by
  rintro rfl
  rw [pluginArgument, String.toList_append, ← Bool.not_eq_true, List.isPrefixOf_iff_prefix] at known
  exact known (List.prefix_append _ _)

/-- The plugin paths and the options of the plugins as they are read. -/
def pluginsGiven (a : Arguments) : List (String × Option String) :=
  (if a.pluginClasspaths.isEmpty then [] else [(pluginArgument a.pluginClasspaths, none)]) ++
    a.pluginOptions.map fun option => ("-P", some option.text)

theorem read_options (options : List PluginOption) :
    read (optionArguments options) = options.map fun option => ("-P", some option.text) := by
  induction options with
  | nil => rfl
  | cons option rest ih =>
    rw [optionArguments, List.flatMap_cons]
    exact (read_valued (by decide) option.text _).trans (congrArg (_ :: ·) ih)

theorem read_plugins (a : Arguments) :
    read (pluginArguments a.pluginClasspaths ++ optionArguments a.pluginOptions) =
      a.pluginsGiven := by
  unfold pluginArguments pluginsGiven
  split
  · exact read_options a.pluginOptions
  · have alone : pluginArgument a.pluginClasspaths ∉ valued := by
      intro member
      have unlike : ∀ flag ∈ valued, "-Xplugin=".toList.isPrefixOf flag.toList = false := by decide
      exact pluginArgument_ne (unlike _ member) _ rfl
    exact (read_alone alone _).trans (congrArg (_ :: ·) (read_options a.pluginOptions))

end Reading

/-- What the fields give, but for those about plugins, in the order of the command line. -/
def places (a : Arguments) : List (String × Option (Option String)) :=
  [("-d", some (some a.destination.text)),
    ("-classpath", classpathGiven a.classpath),
    ("-jdk-home", a.jdkHome.map fun home => some home.text),
    ("-no-jdk", bare (a.jdkHome.isNone && a.noJdk)),
    ("-no-stdlib", bare a.noStdlib),
    ("-no-reflect", bare a.noReflect),
    ("-jvm-target", (a.jvmTarget.map (·.text)).map some),
    ("-verbose", bare a.verbose),
    ("-nowarn", bare a.suppressWarnings),
    ("-Werror", bare a.allWarningsAsErrors),
    ("-Xreport-output-files", bare a.reportOutputFiles),
    ("-Xreport-perf", bare a.reportPerformance),
    ("-Xskip-runtime-version-check", bare a.skipRuntimeVersionCheck),
    ("-Xload-builtins-from-dependencies", bare a.loadBuiltinsFromDependencies),
    ("-module-name", a.moduleName.map some),
    ("-language-version", a.languageVersion.map some),
    ("-api-version", a.apiVersion.map some),
    ("-java-parameters", bare a.javaParameters)]

theorem flags_places (a b : Arguments) : a.places.map (·.1) = b.places.map (·.1) := rfl

/-- What is read from a rendered command line is what the fields give. -/
theorem read_rendered (a : Arguments) : read a.rendered = given a.places ++ a.pluginsGiven := by
  have destination (rest : List String) : read (["-d", a.destination.text] ++ rest) =
      given [("-d", some (some a.destination.text))] ++ read rest :=
    read_valued (by decide) _ rest
  delta rendered
  simp (disch := decide) only [List.append_assoc, destination, read_classpath, read_jdk,
    read_switch, read_setting, read_plugins]
  simp only [← List.append_assoc, ← given_append, List.cons_append, List.nil_append]
  rfl

/-- What holds of all arguments that are put together from a request. -/
structure Composed (a : Arguments) : Prop where
  noJdk : a.noJdk = a.jdkHome.isNone
  made : ∀ option ∈ a.pluginOptions, option.Made

variable {a b : Arguments}

theorem flags_unlike (a : Arguments) : ∀ flag ∈ a.places.map (·.1),
    "-Xplugin=".toList.isPrefixOf flag.toList = false ∧ flag ≠ "-P" := by
  rw [flags_places a {}]
  decide

theorem pluginsGiven_apart (a b : Arguments) :
    ∀ option ∈ a.pluginsGiven, option.1 ∉ b.places.map (·.1) := by
  have unlike := flags_unlike b
  intro option member place
  unfold pluginsGiven at member
  rcases List.mem_append.mp member with paths | options
  · split at paths
    · cases paths
    · rw [List.mem_singleton.mp paths] at place
      exact pluginArgument_ne (unlike _ place).1 _ rfl
  · obtain ⟨_, _, rfl⟩ := List.mem_map.mp options
    exact (unlike _ place).2 rfl

theorem options_ne_paths {options : List PluginOption} {flag : String}
    {rest : List (String × Option String)} :
    options.map (fun option => ("-P", some option.text)) ≠ (flag, none) :: rest := by
  cases options with
  | nil => exact nofun
  | cons option more =>
    intro same
    cases (List.cons.inj same).1

theorem pluginsGiven_inj (made : ∀ option ∈ a.pluginOptions, option.Made)
    (alike : ∀ option ∈ b.pluginOptions, option.Made) (same : a.pluginsGiven = b.pluginsGiven) :
    joined a.pluginClasspaths = joined b.pluginClasspaths ∧ a.pluginOptions = b.pluginOptions := by
  have options (texts : a.pluginOptions.map (fun option => ("-P", some option.text)) =
      b.pluginOptions.map fun option => ("-P", some option.text)) :
      a.pluginOptions = b.pluginOptions := by
    refine PluginOption.texts_injective made alike ?_
    have values := congrArg (List.map fun option : String × Option String => option.2.getD "") texts
    rw [List.map_map, List.map_map] at values
    exact values
  unfold pluginsGiven at same
  cases first : a.pluginClasspaths with
  | nil =>
    cases second : b.pluginClasspaths with
    | nil =>
      rw [first, second] at same
      exact ⟨rfl, options same⟩
    | cons path paths =>
      rw [first, second] at same
      exact absurd same options_ne_paths
  | cons path paths =>
    cases second : b.pluginClasspaths with
    | nil =>
      rw [first, second] at same
      exact absurd same.symm options_ne_paths
    | cons path' paths' =>
      rw [first, second] at same
      obtain ⟨argument, texts⟩ := List.cons.inj same
      have text := String.append_right_inj _ |>.mp (congrArg (·.1) argument)
      exact ⟨text, options texts⟩

/-- Places tell the paths in them by their texts, and all else as it is. -/
theorem eq_of_places (first : a.Composed) (second : b.Composed) (given : a.places = b.places)
    (options : a.pluginOptions = b.pluginOptions) (free : a.freeArgs = b.freeArgs) :
    a = { b with
        destination := a.destination
        jdkHome := a.jdkHome
        pluginClasspaths := a.pluginClasspaths } ∧
      a.destination.text = b.destination.text ∧
        a.jdkHome.map (·.text) = b.jdkHome.map (·.text) := by
  simp only [places, List.cons.injEq, Prod.mk.injEq, true_and, and_true, Option.some.injEq]
    at given
  obtain ⟨destination, classpath, home, _, stdlib, reflect, target, verbose, nowarn, werror, files,
    perf, version, builtins, name, language, api, parameters⟩ := given
  have home : a.jdkHome.map (·.text) = b.jdkHome.map (·.text) := by
    apply Option.map_injective fun _ _ => Option.some.inj
    rwa [Option.map_map, Option.map_map]
  have noJdk : a.noJdk = b.noJdk := by
    rw [first.noJdk, second.noJdk, ← Option.isNone_map (f := Path.text), home, Option.isNone_map]
  have target : a.jvmTarget = b.jvmTarget := Option.map_injective
    (fun _ _ => JvmTarget.text_injective) (Option.map_injective (fun _ _ => Option.some.inj) target)
  have setting {value other : Option String} (same : value.map some = other.map some) :
      value = other := Option.map_injective (fun _ _ => Option.some.inj) same
  refine ⟨?_, destination, home⟩
  obtain ⟨⟩ := a
  obtain ⟨⟩ := b
  rw [mk.injEq]
  exact ⟨free, rfl, classpathGiven_inj classpath, rfl, noJdk, bare_inj stdlib, bare_inj reflect, target,
    bare_inj verbose, bare_inj nowarn, bare_inj werror, bare_inj files, bare_inj perf, bare_inj version, bare_inj builtins, setting name,
    setting language, setting api, bare_inj parameters, rfl, options⟩

def pathsAt (text : List Char) : List String := (Text.pieces ',' text).map String.ofList

/-- The plugin paths that an option names; none if it is not about them. -/
def pathsNamed? (flag : String) : Option (List String) :=
  (Text.behind? "-Xplugin=".toList flag.toList).map pathsAt

/-- What a compiler takes for plugin paths, for each of the options that name some. -/
def pluginPathsRead (arguments : List String) : List (List String) :=
  (read arguments).filterMap fun option => pathsNamed? option.1

section PluginPaths
variable {paths : List Path}

theorem pathsAt_joined_iff (nonempty : paths ≠ []) :
    pathsAt (joined paths).toList = paths.map (·.text) ↔ ∀ path ∈ paths, ',' ∉ path.text.toList := by
  have texts : paths.map (·.text.toList) ≠ [] := mt List.map_eq_nil_iff.mp nonempty
  have whole : (joined paths).toList = [','].intercalate (paths.map (·.text.toList)) := by
    rw [joined, String.toList_intercalate, List.map_map]
    rfl
  have spelled : paths.map (·.text) = (paths.map (·.text.toList)).map String.ofList := by
    simp
  rw [pathsAt, whole, spelled, (List.map_injective_iff.mpr fun _ _ => String.ofList_injective).eq_iff,
    Text.pieces_intercalate_iff ',' texts, List.forall_mem_map]

theorem pathsNamed_pluginArgument (paths : List Path) :
    pathsNamed? (pluginArgument paths) = some (pathsAt (joined paths).toList) := by
  have behind : Text.behind? "-Xplugin=".toList (pluginArgument paths).toList =
      some (joined paths).toList := by
    rw [pluginArgument, String.toList_append]
    exact Text.behind_eq_some.mpr rfl
  rw [pathsNamed?, behind, Option.map_some]

theorem pathsNamed_eq_none {flag : String}
    (unlike : "-Xplugin=".toList.isPrefixOf flag.toList = false) : pathsNamed? flag = none := by
  rw [← List.isSome_isPrefixOf?_eq_isPrefixOf, Option.isSome_eq_false_iff,
    Option.isNone_iff_eq_none] at unlike
  rw [pathsNamed?, Text.behind?, unlike, Option.map_none]

/-- One option names the plugin paths, whatever the texts of the other fields look like. -/
theorem pluginPathsRead_rendered (nonempty : a.pluginClasspaths ≠ []) :
    pluginPathsRead a.rendered = [pathsAt (joined a.pluginClasspaths).toList] := by
  have elsewhere : (given a.places).filterMap (fun option => pathsNamed? option.1) = [] := by
    rw [List.filterMap_eq_nil_iff]
    intro option member
    exact pathsNamed_eq_none (flags_unlike a option.1 (mem_places_of_given member)).1
  have options : (a.pluginOptions.map fun option => ("-P", some option.text)).filterMap
      (fun option => pathsNamed? option.1) = [] := by
    have other : pathsNamed? "-P" = none := pathsNamed_eq_none (by decide)
    rw [List.filterMap_eq_nil_iff]
    intro option member
    obtain ⟨_, _, rfl⟩ := List.mem_map.mp member
    exact other
  have named : a.pluginClasspaths.isEmpty = false := List.isEmpty_eq_false_iff.mpr nonempty
  rw [pluginPathsRead, read_rendered, List.filterMap_append, elsewhere, pluginsGiven, named,
    List.filterMap_append, options]
  simp [pathsNamed_pluginArgument]

end PluginPaths
end Arguments
end KotlinCompile
