import KotlinCompile.Proofs.Compiler.Reach
import KotlinCompile.Proofs.Occurrences

/-! What is prepared for the compiler: the staged sources, each of which it is named once and in
order, the directory of the classes, and with services the archive. Where all this is there already,
preparing it again writes the same files and changes nothing. -/
namespace KotlinCompile
open Fallible

/-- What is left to the compiler: what is below the directory of the classes, and the directory of
kapt. -/
def IsOutput (place location : Location) : Prop :=
  (∃ name rest, location = place ++ Layout.classesName :: name :: rest) ∨
    ∃ rest, location = place ++ Layout.kaptName :: rest

theorem not_isOutput_sources (place names : Location) :
    ¬IsOutput place (place ++ Layout.sourcesName :: names) := by
  rintro (⟨_, _, same⟩ | ⟨_, same⟩) <;>
    exact absurd (Location.below_inj same).1 (by decide)

theorem not_isOutput_classes (place : Location) : ¬IsOutput place (place ++ [Layout.classesName]) := by
  rintro (⟨_, _, same⟩ | ⟨_, same⟩)
  · cases (Location.below_inj same).2
  · exact absurd (Location.below_inj same).1 (by decide)

theorem not_isOutput_servicesJar (place : Location) :
    ¬IsOutput place (place ++ [Layout.servicesName]) := by
  rintro (⟨_, _, same⟩ | ⟨_, same⟩) <;>
    exact absurd (Location.below_inj same).1 (by decide)

namespace Request
variable {request : Request} {place : Location} {machine other : Machine}

/-- All is there that the compiler needs besides its arguments. -/
structure Prepared (request : Request) (place : Location) (machine : Machine) : Prop
    extends Invocation.Staged request place machine where
  classes : machine.status request.layout.classes = .ok (place ++ [Layout.classesName], .directory)
  archive : request.hasServices = true → ServiceBinding.checkAll request.bindings = .ok () ∧
    ∃ executable, machine.status request.layout.servicesJar = .ok (place ++ [Layout.servicesName],
      .file (.archive (ServiceBinding.archiveEntries request.bindings)) executable)

/-- What is prepared is still prepared once the compiler changed its output, if the paths of the
working directory and of the sources lead where they led. -/
theorem Prepared.transfer (prepared : Prepared request place machine)
    (free : machine.tree.LinkFree (place ++ [Layout.sourcesName]))
    (leads : other.Routes request.layout.root place)
    (same : other.status request.layout.sources = machine.status request.layout.sources)
    (kept : ∀ location, ¬IsOutput place location →
      other.tree.node? location = machine.tree.node? location) :
    Prepared request place other := by
  have directory : other.status request.layout.sources =
      .ok (place ++ [Layout.sourcesName], .directory) := same.trans prepared.directory
  have child {name : Bytes} (isName : IsName name)
      (short : ¬Tree.longestName < name.length) {node : Node}
      (apart : ¬IsOutput place (place ++ [name]))
      (found : machine.status (request.layout.root.child name) = .ok (place ++ [name], node))
      (plain : ∀ target, node ≠ .link target) :
      other.status (request.layout.root.child name) = .ok (place ++ [name], node) :=
    Machine.status_child directory Layout.isName_sources leads isName short
      (Machine.status_refusal found) ((kept _ apart).trans (Machine.node_of_status found)) plain
  refine ⟨prepared.toStaged.transfer free directory
    fun names => kept _ (not_isOutput_sources place names), ?_, fun services => ?_⟩
  · exact child Layout.isName_classes (by decide) (not_isOutput_classes place) prepared.classes nofun
  · obtain ⟨accepted, executable, found⟩ := prepared.archive services
    exact ⟨accepted, executable,
      child Layout.isName_servicesJar (by decide) (not_isOutput_servicesJar place) found nofun⟩

/-- Between two machines on which the same is prepared, nothing is different if nothing but that was
written. -/
theorem Prepared.same_nodes (before : Prepared request place machine)
    (after : Prepared request place other)
    (grows : Machine.Grows (fun _ => False) request.Writes machine other) (location : Location) :
    other.tree.node? location = machine.tree.node? location := by
  have change := grows.change location
  generalize old_eq : machine.tree.node? location = old at change
  generalize new_eq : other.tree.node? location = new at change
  cases change with
  | kept => rfl
  | made impossible => exact impossible.elim
  | @written path _ contents executable writes leads file =>
    -- the same was written there before, and the mark of a file that is written over stays
    have alike {path : Path} {text : Contents} {mark mark' : Bool}
        (found : machine.status path = .ok (location, .file text mark))
        (now : other.status path = .ok (location, .file text mark')) :
        some (.file contents executable) = old := by
      have was := old_eq.symm.trans (Machine.node_of_status found)
      obtain ⟨_, ⟨⟩⟩ := file _ was
      cases new_eq.symm.trans (Machine.node_of_status now)
      exact was.symm
    rcases writes with ⟨source, ⟨member, _⟩, rfl⟩ | ⟨services, rfl⟩
    · obtain ⟨_, _, placed⟩ := before.placed source member
      cases leads.unique (Machine.status_routes placed nofun)
      obtain ⟨first, last, later, whole, same, apart⟩ :=
        Occurrences.exists_last (fun source => source.path.names) member
      obtain ⟨_, found⟩ := before.file first last later whole apart
      obtain ⟨_, now⟩ := after.file first last later whole apart
      rw [same] at found now
      exact alike found now
    · obtain ⟨_, _, found⟩ := before.archive services
      cases leads.unique (Machine.status_routes found nofun)
      obtain ⟨_, _, now⟩ := after.archive services
      exact alike found now

end Request

namespace Compilation
variable {request : Request} {invocation : Invocation} {after : Bench} {place : Location}

theorem prepared_of_prepare (bench : Bench)
    (free : bench.machine.LinkFreeBelow request.layout.root)
    (done : prepare request bench = (.ok invocation, after)) :
    ∃ place, bench.machine.Routes request.layout.root place ∧
      request.Prepared place after.machine := by
  obtain ⟨_, targets, staged, created, machine, stages, creates, packages, rfl⟩ :=
    prepare_eq_ok.mp done
  obtain ⟨place, root, sources⟩ := Invocation.staged_of_stageSources free stages
  -- each step leaves what the ones before it prepared, as it writes somewhere else
  have first := Invocation.growsBy_stageSources request bench.machine
  rw [stages] at first
  have second := Machine.growsBy_createDirectories request.layout.classes staged
  rw [creates] at second
  have free := second.linkFreeBelow (first.linkFreeBelow free)
  have root' := second.routes_iff.mpr (first.routes_iff.mpr root)
  have sources := sources.grows second fun _ => False.elim
  have classes : created.status request.layout.classes =
      .ok (place ++ [Layout.classesName], .directory) := by
    have spelled := request.layout.takesSlash_classes.spelled
    have there := Machine.isDirectory_of_createDirectories spelled creates
    obtain ⟨location, found⟩ := Machine.isDirectory_iff.mp there
    obtain ⟨_, again, rfl⟩ := (Layout.routes_classes free).mp (Machine.status_routes found nofun)
    cases root'.unique again
    exact found
  refine ⟨place, root, ?_⟩
  split at packages
  · next services =>
    obtain ⟨accepted, delivered⟩ := ServiceBinding.package_eq_ok.mp packages
    have third := Machine.growsBy_deliver request.layout.servicesJar
      (.archive (ServiceBinding.archiveEntries request.bindings)) created
    rw [delivered] at third
    have along {location : Location} (leads : created.Routes request.layout.servicesJar location) :
        location = place ++ [Layout.servicesName] := by
      obtain ⟨_, again, rfl⟩ := (Layout.routes_servicesJar free).mp leads
      cases root'.unique again
      rfl
    obtain ⟨location, executable, leads, found⟩ := Machine.status_of_deliver delivered
    cases along leads
    refine ⟨sources.grows third ?_, third.status_directory classes,
      fun _ => ⟨accepted, executable, found⟩⟩
    rintro _ rfl names leads
    exact absurd (Location.below_inj (along leads)).1 (by decide)
  · next none =>
    rw [packages]
    exact ⟨sources, classes, fun services => absurd services none⟩

theorem Reaches.prepared {bench ready : Bench} {composition : Composition}
    (reached : Reaches bench composition ready)
    (free : bench.machine.LinkFreeBelow bench.compilation.request.layout.root) :
    ∃ place, bench.machine.Routes bench.compilation.request.layout.root place ∧
      bench.compilation.request.Prepared place ready.machine := by
  obtain ⟨_, _, announces⟩ := reaches_iff.mp reached
  have ends := prepared_of_prepare { bench with compilation := ready.compilation } free
    announces.prepared
  exact ends

/-- What is prepared is prepared again where it is, and then the machine is as it was. -/
theorem prepare_again (bench : Bench) (prepared : request.Prepared place bench.machine)
    (free : bench.machine.LinkFreeBelow request.layout.sources) :
    ∃ machine, prepare request bench = (.ok ⟨.staged⟩, { bench with machine }) ∧
      Machine.Grows (fun _ => False) request.Writes bench.machine machine ∧
      request.Prepared place machine := by
  obtain ⟨targets, staged, stages, first, sources⟩ := prepared.toStaged.again free
  have first := first.mono (fun _ => id) fun _ target => (Or.inl target : request.Writes _)
  have classes := first.status_directory prepared.classes
  have creates :=
    Machine.createDirectories_of_isDirectory (Machine.isDirectory_iff.mpr ⟨_, classes⟩)
  by_cases services : request.hasServices = true
  · obtain ⟨accepted, executable, found⟩ := prepared.archive services
    obtain ⟨_, _, there⟩ := first.status_file found
    obtain ⟨machine, delivered, second⟩ := Machine.deliver_again there
      (.archive (ServiceBinding.archiveEntries request.bindings))
    have packages := ServiceBinding.package_eq_ok.mpr ⟨accepted, delivered⟩
    obtain ⟨location, executable, leads, written⟩ := Machine.status_of_deliver delivered
    have along := Machine.status_routes there nofun
    cases along.unique leads
    refine ⟨machine, prepare_eq_ok.mpr ⟨rfl, targets, staged, staged, machine, stages, creates,
      by rwa [if_pos services], rfl⟩, first.trans (second.mono (fun _ => id) ?_),
      sources.grows second ?_, second.status_directory classes,
      fun _ => ⟨accepted, executable, written⟩⟩
    · rintro _ rfl
      exact Or.inr ⟨services, rfl⟩
    · rintro _ rfl names leads'
      exact absurd (Location.below_inj (along.unique leads')).1 (by decide)
  · refine ⟨staged, prepare_eq_ok.mpr ⟨rfl, targets, staged, staged, staged, stages, creates,
      by rw [if_neg services], rfl⟩, first, sources, classes, fun given => absurd given services⟩

end Compilation
theorem SourceFile.same_below_iff {source : SourceFile} (accepted : source.check = .ok ())
    (layout : Layout) {names : Location} (named : ∀ name ∈ names, IsName name) :
    (source.target layout.sources).same (layout.sources.below names) = true ↔
      source.path.names = names := by
  rw [Path.same, beq_iff_eq, components_target accepted layout.sources_spelled,
    Path.components_below _ named, List.append_cancel_left_eq]
  exact (List.map_injective_iff.mpr fun _ _ => Component.name.inj).eq_iff

namespace Compilation
variable {bench ready : Bench} {composition : Composition}

/-- No file is in the directory of the sources or below it. -/
def NoSources (machine : Machine) (layout : Layout) : Prop :=
  ∀ place, machine.Routes layout.root place → ∀ names contents executable,
    machine.tree.node? (place ++ Layout.sourcesName :: names) ≠ some (.file contents executable)

section Reached
variable (reached : Reaches bench composition ready)
  (free : bench.machine.LinkFreeBelow bench.compilation.request.layout.root)
include reached free

/-- The files below the directory of the sources are the targets, if there were none before. -/
theorem Reaches.isFileAt_iff (none : NoSources bench.machine bench.compilation.request.layout)
    (path : Path) :
    (∃ names, names ≠ [] ∧ Composition.IsFileAt ready.machine
      bench.compilation.request.layout.sources path names) ↔
    ∃ source ∈ bench.compilation.request.sources,
      path = bench.compilation.request.layout.sources.below source.path.names := by
  obtain ⟨place, root, prepared⟩ := reached.prepared free
  have staged := prepared.toStaged
  have grows := reached.grows
  have free' := (grows.linkFree (free place root)).below [Layout.sourcesName]
  have takes := bench.compilation.request.layout.takesSlash_sources
  constructor
  · rintro ⟨names, _, named, rfl, isFile⟩
    obtain ⟨location, contents, executable, found⟩ := Machine.isFile_iff.mp isFile
    have along := Machine.status_below takes staged.directory free' named found
    rw [List.append_assoc, List.singleton_append] at along
    subst along
    have change := grows.change (place ++ Layout.sourcesName :: names)
    rw [Machine.node_of_status found] at change
    generalize old_eq : bench.machine.tree.node? (place ++ Layout.sourcesName :: names) = old at change
    cases change with
    | kept => exact absurd old_eq (none place root names contents executable)
    | written writes leads =>
      rcases writes.location free root leads with ⟨source, member, _, same⟩ | ⟨_, same⟩
      · rw [(Location.below_inj same).2]
        exact ⟨source, member, rfl⟩
      · exact absurd (Location.below_inj same).1 (by decide)
  · rintro ⟨source, member, rfl⟩
    obtain ⟨before, last, later, whole, same, others⟩ :=
      Occurrences.exists_last (fun source => source.path.names) member
    obtain ⟨executable, found⟩ := staged.plain free' whole others
    rw [same] at found
    exact ⟨source.path.names, SourceFile.names_of_check (staged.accepted source member),
      source.named_names, rfl, Machine.isFile_iff.mpr ⟨_, _, _, found⟩⟩

end Reached

theorem SourceFile.isText_below {layout : Layout} (root : layout.root.IsText) {source : SourceFile}
    (isText : source.path.IsText) : (layout.sources.below source.path.names).IsText :=
  (root.join ⟨"sources", rfl⟩).below isText.names

/-- When the compiler is called it is given, before the free arguments of the request, the text of one
path for each place that a source has below the directory of the sources, in the ascending order of
these paths; and at each of them is what the last of the sources with this place holds. The texts are
the paths themselves if the working directory and the paths of the sources are UTF-8. -/
theorem sources_staged_and_named (wellFormed : bench.machine.tree.WellFormed)
    (free : bench.machine.LinkFreeBelow bench.compilation.request.layout.root)
    (none : NoSources bench.machine bench.compilation.request.layout)
    (called : (run bench).2.calls ≠ bench.calls) :
    let request := bench.compilation.request
    let sources := request.layout.sources
    ∃ composition ready paths, Reaches bench composition ready ∧
      (run bench).2.calls = bench.calls ++ [composition.arguments.commandLine] ∧
      composition.arguments.freeArgs = paths.map (·.text) ++ request.options.freeArgs ∧
      Path.Ascending paths ∧
      (∀ path, path ∈ paths ↔ ∃ source ∈ request.sources, path = sources.below source.path.names) ∧
      (∀ path ∈ paths, ∀ before source later, request.sources = before ++ source :: later →
          (source.target sources).same path = true →
          (∀ other ∈ later, (other.target sources).same path = false) →
          ready.machine.read path = .ok (.bytes (Text.utf8 source.contents))) ∧
      (request.layout.root.IsText → (∀ source ∈ request.sources, source.path.IsText) →
        ∀ path ∈ paths, (⟨path.text⟩ : Path) = path) := by
  intro request sources
  obtain ⟨composition, ready, reached⟩ := reaches_of_called called
  obtain ⟨kapt, classpath, announces⟩ := reaches_iff.mp reached
  obtain ⟨place, root, prepared⟩ := reached.prepared free
  have staged := prepared.toStaged
  have grows := reached.grows
  have free' := (grows.linkFree (free place root)).below [Layout.sourcesName]
  obtain ⟨paths, listed, ascending, members⟩ := Composition.stagedSources_spec
    (grows.wellFormed wellFormed) request.layout.takesSlash_sources staged.directory free'
  obtain ⟨_, _, _, _, listed', _, _, _, same⟩ := Composition.compose_eq_ok.mp announces.composed
  cases listed.symm.trans listed'
  have members (path : Path) := (members path).trans (reached.isFileAt_iff free none path)
  refine ⟨composition, ready, paths, reached, reached.calls, ?_, ascending, members, ?_, ?_⟩
  · rw [same]
    rfl
  · intro path member before source later whole alike others
    obtain ⟨other, _, rfl⟩ := (members path).mp member
    have accepted := staged.accepted source (by rw [whole]; simp)
    have names := (SourceFile.same_below_iff accepted request.layout other.named_names).mp alike
    rw [← names] at others ⊢
    have apart : ∀ other ∈ later, other.path.names ≠ source.path.names := by
      intro other inside same
      have accepted' := staged.accepted other (by rw [whole]; simp [inside])
      have alike := (SourceFile.same_below_iff accepted' request.layout source.named_names).mpr same
      exact Bool.false_ne_true ((others other inside).symm.trans alike)
    obtain ⟨executable, found⟩ := staged.plain free' whole apart
    exact Machine.read_of_status found
  · intro rootText texts path member
    obtain ⟨source, inside, rfl⟩ := (members path).mp member
    have isText := SourceFile.isText_below rootText (texts source inside)
    exact congrArg Path.mk isText.utf8_text

/-- Of the two sources that have one place the later one is compiled. -/
theorem linked_sources :
    let bench := linkedBench [] [⟨"api.Plugin", "impl.First"⟩]
    bench.machine.tree.WellFormed ∧ bench.machine.LinkFreeBelow ⟨"/work"⟩ ∧
    NoSources bench.machine ⟨⟨"/work"⟩⟩ ∧ (run bench).2.calls ≠ bench.calls ∧
    ∃ composition ready, Reaches bench composition ready ∧
      "/work/sources/Main.kt" ∈ composition.arguments.freeArgs ∧
      ready.machine.read ⟨"/work/sources/Main.kt"⟩ = .ok (.bytes (Text.utf8 "new")) := by
  intro bench
  have wellFormed : bench.machine.tree.WellFormed := ⟨by decide, by decide⟩
  have free : bench.machine.LinkFreeBelow ⟨"/work"⟩ := linkFreeBelow_linked (by simp)
  have none : NoSources bench.machine ⟨⟨"/work"⟩⟩ := by
    intro place root names contents executable found
    have member := (wellFormed.mem_iff (by simp) _).mpr found
    simp [bench, linkedBench, linkedMachine] at member
  have called : (run bench).2.calls ≠ bench.calls := by decide +kernel
  obtain ⟨composition, ready, paths, reached, _, arguments, _, members, texts, _⟩ :=
    sources_staged_and_named wellFormed free none called
  have member : (⟨"/work/sources/Main.kt"⟩ : Path) ∈ paths :=
    (members _).mpr ⟨⟨⟨"Main.kt"⟩, "new"⟩, by decide, by decide⟩
  refine ⟨wellFormed, free, none, called, composition, ready, reached, ?_, ?_⟩
  · rw [arguments]
    exact List.mem_append_left _ (List.mem_map.mpr ⟨_, member, Path.text_utf8 _⟩)
  · exact texts _ member [⟨⟨"./Main.kt"⟩, "old"⟩, ⟨⟨"com//Other.kt"⟩, "other"⟩]
      ⟨⟨"Main.kt"⟩, "new"⟩ [] rfl (by decide) (by simp)

/-- Two sources whose paths have different components may have one place, and then it has what the
later one holds. And the text that the compiler is given for the place need not lead there. -/
theorem mangled_sources :
    let layout := mangledBench.compilation.request.layout
    let sources := mangledBench.compilation.request.sources
    mangledBench.machine.tree.WellFormed ∧ mangledBench.machine.LinkFreeBelow layout.root ∧
    NoSources mangledBench.machine layout ∧
    sources.map (·.path.components) = [[.name "A.kt"], [.here, .name "A.kt"]] ∧
    sources.map (·.contents) = ["old", "new"] ∧
    ∃ composition ready, Reaches mangledBench composition ready ∧
      composition.arguments.freeArgs = ["/\uFFFD/sources/A.kt"] ∧
      ready.machine.read (layout.sources.below ["A.kt"]) = .ok (.bytes (Text.utf8 "new")) ∧
      ready.machine.isThere ⟨"/\uFFFD/sources/A.kt"⟩ = false := by
  intro layout sources
  have called : (run mangledBench).2.calls ≠ mangledBench.calls := by decide +kernel
  obtain ⟨composition, ready, reached⟩ := reaches_of_called called
  have named : (announce mangledBench.compilation.request mangledBench).1.toOption.map
      (fun announced => announced.2.arguments.freeArgs) = some ["/\uFFFD/sources/A.kt"] := by
    decide +kernel
  have there : (announce mangledBench.compilation.request mangledBench).2.machine.read
          (layout.sources.below ["A.kt"]) = .ok (.bytes (Text.utf8 "new")) ∧
      (announce mangledBench.compilation.request mangledBench).2.machine.isThere
        ⟨"/\uFFFD/sources/A.kt"⟩ = false := by decide +kernel
  rw [reached] at named there
  have wellFormed : mangledBench.machine.tree.WellFormed := ⟨by decide, by decide⟩
  have plain : mangledBench.machine.tree.nodes = [] := rfl
  refine ⟨wellFormed, ?_, ?_, by decide, by decide, composition, ready, reached,
    Option.some.inj named, there⟩
  · exact fun place _ => Tree.linkFree_of_nodes (by simp [plain])
  · intro place root names contents executable found
    have member := (wellFormed.mem_iff (by simp) _).mpr found
    exact absurd (plain ▸ member) List.not_mem_nil

end Compilation
end KotlinCompile
