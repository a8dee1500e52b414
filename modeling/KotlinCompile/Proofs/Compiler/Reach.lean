import KotlinCompile.Proofs.Compiler.CutShort
import KotlinCompile.Proofs.Service.Archive
import KotlinCompile.Proofs.Staging

/-! What a run does to the machine before the compiler is called, wherever it ends, and what a run
that gets there has done. -/
namespace KotlinCompile

namespace Request

/-- A directory that a run may make: where its files are put, and above. -/
def Makes (request : Request) (path : Path) : Prop :=
  request.LeadsToSources path ∨ path.components <+: request.layout.classes.components

/-- A file that a run may write: a source's, and with services that of the archive. -/
def Writes (request : Request) (path : Path) : Prop :=
  request.IsTarget path ∨ request.hasServices = true ∧ path = request.layout.servicesJar

end Request

namespace Layout
variable {layout : Layout} {machine : Machine} {location : Location}

theorem isName_classes : IsName classesName := by decide

theorem isName_servicesJar : IsName servicesName := by decide

theorem components_classes (layout : Layout) :
    layout.classes.components = layout.root.components ++ [.name classesName] :=
  Path.components_child isName_classes.components layout.root

theorem components_servicesJar (layout : Layout) :
    layout.servicesJar.components = layout.root.components ++ [.name servicesName] :=
  Path.components_child isName_servicesJar.components layout.root

theorem takesSlash_classes (layout : Layout) : layout.classes.TakesSlash :=
  Path.takesSlash_child isName_classes layout.root

theorem routes_classes (free : machine.LinkFreeBelow layout.root) :
    machine.Routes layout.classes location ↔
      ∃ place, machine.Routes layout.root place ∧ location = place ++ [Layout.classesName] :=
  routes_iff layout.components_classes (List.forall_mem_singleton.mpr isName_classes) free

theorem routes_servicesJar (free : machine.LinkFreeBelow layout.root) :
    machine.Routes layout.servicesJar location ↔
      ∃ place, machine.Routes layout.root place ∧ location = place ++ [Layout.servicesName] :=
  routes_iff layout.components_servicesJar (List.forall_mem_singleton.mpr isName_servicesJar) free

end Layout

/-- A file that a run may write is below the working directory: it is that of a source, under its
names, or the archive. -/
theorem Request.Writes.location {request : Request} {machine : Machine} {path : Path}
    {place location : Location} (writes : request.Writes path)
    (free : machine.LinkFreeBelow request.layout.root)
    (root : machine.Routes request.layout.root place) (leads : machine.Routes path location) :
    (∃ source ∈ request.sources, source.check = .ok () ∧
      location = place ++ Layout.sourcesName :: source.path.names) ∨
    request.hasServices = true ∧ location = place ++ [Layout.servicesName] := by
  rcases writes with ⟨source, ⟨member, accepted⟩, rfl⟩ | ⟨services, rfl⟩
  · obtain ⟨_, again, rfl⟩ := (SourceFile.routes_target accepted free).mp leads
    cases root.unique again
    exact Or.inl ⟨source, member, accepted, rfl⟩
  · obtain ⟨_, again, rfl⟩ := (Layout.routes_servicesJar free).mp leads
    cases root.unique again
    exact Or.inr ⟨services, rfl⟩

namespace Compilation
open Fallible

section Grows
variable {α β : Type} {request : Request} {makes writes : Path → Prop}

/-- A step of a run that makes and writes only what it may, however it ends. -/
def GrowsBy (makes writes : Path → Prop) (step : Run α) : Prop :=
  ∀ bench, Machine.Grows makes writes bench.machine (step bench).2.machine

theorem growsBy_bind {step : Run α} {next : α → Run β} (first : GrowsBy makes writes step)
    (second : ∀ a, GrowsBy makes writes (next a)) : GrowsBy makes writes (step >>= next) := by
  intro bench
  have grows := first bench
  rw [bind_apply]
  cases ended : step bench with
  | mk result after =>
    rw [ended] at grows
    cases result with
    | error error => exact grows
    | ok a => exact grows.trans (second a after)

theorem growsBy_of_machine {step : Run α} (same : ∀ bench, (step bench).2.machine = bench.machine) :
    GrowsBy makes writes step := by
  intro bench
  rw [same]
  exact Machine.Grows.refl _

theorem growsBy_onMachine {work : OnMachine BuildError α} (grows : Machine.GrowsBy makes writes work) :
    GrowsBy makes writes (Run.onMachine work) :=
  fun bench => grows bench.machine

theorem growsBy_package (services : request.hasServices = true) :
    Machine.GrowsBy request.Makes request.Writes
      (ServiceBinding.package request.bindings request.layout.servicesJar) := by
  rw [ServiceBinding.package_eq]
  refine Machine.growsBy_bind (Machine.growsBy_liftExcept _) fun _ =>
    (Machine.growsBy_deliver _ _).mono (fun path within => ?_) fun path same => Or.inr ⟨services, same⟩
  -- what lies above the archive also lies above the sources
  rw [request.layout.components_servicesJar, List.dropLast_concat] at within
  refine Or.inl (Or.inl (within.trans ?_))
  rw [request.layout.components_sources]
  exact List.prefix_append _ _

theorem growsBy_prepare (request : Request) :
    GrowsBy request.Makes request.Writes (prepare request) := by
  have stages : GrowsBy request.Makes request.Writes (Run.stage request) := fun bench =>
    (Invocation.growsBy_stageSources request bench.machine).mono (fun _ => Or.inl) fun _ => Or.inl
  have creates : Machine.GrowsBy request.Makes request.Writes _ :=
    (Machine.growsBy_createDirectories request.layout.classes).mono (fun _ => Or.inr)
      fun _ => False.elim
  unfold prepare
  refine growsBy_bind stages fun invocation => growsBy_bind (growsBy_onMachine creates) fun _ => ?_
  split
  · next services =>
    exact growsBy_bind (growsBy_onMachine (growsBy_package services)) fun _ =>
      growsBy_of_machine fun _ => rfl
  · exact growsBy_of_machine fun _ => rfl

theorem growsBy_announce (request : Request) :
    GrowsBy request.Makes request.Writes (announce request) := by
  unfold announce
  refine growsBy_bind (growsBy_of_machine fun bench => (check_spec bench).1.machine) fun checked => ?_
  refine growsBy_bind (growsBy_prepare request) fun invocation => ?_
  refine growsBy_bind (growsBy_of_machine fun _ => rfl) fun found => ?_
  refine growsBy_bind (growsBy_of_machine fun _ => rfl) fun composition => ?_
  refine growsBy_bind (growsBy_of_machine fun _ => rfl) fun archives => ?_
  refine growsBy_bind (growsBy_of_machine fun bench => ?_) fun _ => growsBy_of_machine fun _ => rfl
  rw [say_all]

end Grows

section Reach
variable {bench ready : Bench} {kapt : Option Kapt.Wiring} {classpath : Classpath}
  {invocation : Invocation} {composition : Composition}

/-- A run that gets to the call of the compiler went through its checks and has everything ready. -/
structure Announces (bench : Bench) (kapt : Option Kapt.Wiring) (classpath : Classpath)
    (composition : Composition) (ready : Bench) : Prop where
  checked : check bench = (.ok (kapt, classpath),
    { bench with compilation := ready.compilation })
  prepared : prepare bench.compilation.request { bench with compilation := ready.compilation } =
    (.ok ⟨.staged⟩,
      { bench with compilation := ready.compilation, machine := ready.machine })
  composed : Composition.compose ready.machine bench.compilation.request classpath kapt =
    .ok composition
  said : bench.stream.write (marked "logging: " (advisories bench.compilation.request
    (bench.compilation.archives bench.machine).1 composition)) = (.ok (), ready.stream)
  calls : ready.calls = bench.calls

/-- The checks have asked for the archives, and changed nothing else in the compilation. -/
theorem Announces.asked (announces : Announces bench kapt classpath composition ready) :
    Asked bench.machine bench.compilation ready.compilation := by
  obtain ⟨_, same, asked, _⟩ := check_ok announces.checked
  cases same
  exact asked

theorem Announces.kept (announces : Announces bench kapt classpath composition ready) :
    ready.compilation.resolved = some (bench.compilation.archives bench.machine).1 := by
  obtain ⟨_, same, _, kept⟩ := check_ok announces.checked
  cases same
  exact kept

/-- The run gets to the call of the compiler, which is handed the arguments of the composition on
the bench that is ready. -/
def Reaches (bench : Bench) (composition : Composition) (ready : Bench) : Prop :=
  announce bench.compilation.request bench = (.ok (⟨.staged⟩, composition), ready)

theorem announces_of_announce (reached : announce bench.compilation.request bench =
    (.ok (invocation, composition), ready)) : invocation = ⟨.staged⟩ ∧
      ∃ kapt classpath, Announces bench kapt classpath composition ready := by
  unfold announce at reached
  obtain ⟨⟨kapt, classpath⟩, _, passed, reached⟩ := bind_apply_ok.mp reached
  obtain ⟨compilation, rfl, _, kept⟩ := check_ok passed
  obtain ⟨_, _, prepared, reached⟩ := bind_apply_ok.mp reached
  obtain ⟨rfl, machine, rfl⟩ := prepare_ok prepared
  obtain ⟨_, composed, reached⟩ := raise_bind_ok.mp (get_bind_ok.mp reached)
  have reached := ask_bind_ok.mp reached
  rw [archives_kept kept] at reached
  obtain ⟨_, _, said, done⟩ := bind_apply_ok.mp reached
  obtain ⟨stream, written, rfl⟩ := say_all_ok said
  cases done
  exact ⟨rfl, kapt, classpath, passed, prepared, composed, written, rfl⟩

theorem reaches_iff : Reaches bench composition ready ↔
    ∃ kapt classpath, Announces bench kapt classpath composition ready := by
  constructor
  · exact fun reached => (announces_of_announce reached).2
  · rintro ⟨kapt, classpath, announces⟩
    unfold Reaches announce
    obtain ⟨compilation, machine, stream, calls⟩ := ready
    obtain ⟨checked, prepared, composed, said, rfl⟩ := announces
    obtain ⟨_, same, _, kept⟩ := check_ok checked
    cases same
    refine bind_apply_ok.mpr ⟨_, _, checked, bind_apply_ok.mpr ⟨_, _, prepared, ?_⟩⟩
    refine get_bind_ok.mpr (raise_bind_ok.mpr ⟨_, composed, ask_bind_ok.mpr ?_⟩)
    rw [archives_kept kept]
    refine bind_apply_ok.mpr ⟨(), { bench with compilation, machine, stream }, ?_, rfl⟩
    rw [say_all]
    dsimp only
    rw [said]
    rfl

theorem Reaches.grows (reached : Reaches bench composition ready) :
    Machine.Grows bench.compilation.request.Makes bench.compilation.request.Writes bench.machine
      ready.machine := by
  have grows := growsBy_announce bench.compilation.request bench
  rw [reached] at grows
  exact grows

/-- The compiler is called at most once, and it is called exactly if a run gets there. -/
theorem Reaches.calls (reached : Reaches bench composition ready) :
    (run bench).2.calls = bench.calls ++ [composition.arguments.commandLine] := by
  obtain ⟨_, _, announces⟩ := reaches_iff.mp reached
  rw [run_eq_conclude, bind_apply, reached]
  exact (calls_conclude _ composition ready).trans (by rw [announces.calls])

theorem reaches_of_called (called : (run bench).2.calls ≠ bench.calls) :
    ∃ composition ready, Reaches bench composition ready := by
  rw [run_eq_conclude, bind_apply] at called
  have quiet := calls_announce bench.compilation.request bench
  cases ended : announce bench.compilation.request bench with
  | mk answer ready =>
    rw [ended] at called quiet
    cases answer with
    | error error => exact absurd quiet called
    | ok announced =>
      obtain ⟨invocation, composition⟩ := announced
      obtain ⟨rfl, _⟩ := announces_of_announce ended
      exact ⟨composition, ready, ended⟩

theorem machine_conclude (request : Request) (composition : Composition) (ready : Bench) :
    (conclude request (⟨.staged⟩, composition) ready).2.machine =
      ((ready.compilation.backend composition.arguments.commandLine ready.machine).on
        ⟨ready.stream, []⟩).1.2 := by
  have called : (Run.call ⟨.staged⟩ composition.arguments.commandLine ready).2.machine = _ :=
    congrArg (·.2.machine) (call_staged composition.arguments.commandLine ready)
  unfold conclude
  refine (kept_bind (·.machine) (fun result bench => ?_) ready).trans called
  refine (kept_bind (·.machine) (fun found bench => ?_) bench).trans rfl
  refine (kept_bind (·.machine) (fun _ _ => rfl) bench).trans ?_
  rw [say_all]

end Reach

/-- A working directory that is reached through a link, with some nodes in it. -/
def linkedMachine (below : List (Location × Node)) : Machine where
  tree := ⟨(["home"], .directory) :: (["home", "project"], .directory) ::
    (["work"], .link ⟨"home/project"⟩) :: below⟩
  here := []
  environment := []

/-- A source that is given twice and one in a directory of its own, and perhaps services. -/
def linkedBench (below : List (Location × Node)) (services : List ServiceBinding) : Bench where
  compilation :=
    { request :=
        { layout := ⟨⟨"/work"⟩⟩
          sources := [⟨⟨"./Main.kt"⟩, "old"⟩, ⟨⟨"com//Other.kt"⟩, "other"⟩, ⟨⟨"Main.kt"⟩, "new"⟩]
          services
          options :=
            { verbose := false
              freeArgs := ["-Xmulti-platform"]
              kaptOptions := .ofList [("mode", "fast")]
              archives := { ArchiveSelections.none with kapt := .use ⟨"/lib/kapt.jar"⟩ } } }
      backend := .scripted [] (.ok .ok)
      resolver := .fixed [] }
  machine := linkedMachine below
  stream := {}

/-- A working directory with a name that is no UTF-8, where two spellings of one source are compiled
with services. -/
def mangledBench : Bench where
  compilation :=
    { request :=
        { layout := ⟨⟨[Byte.slash, 0xFF]⟩⟩
          sources := [⟨⟨"A.kt"⟩, "old"⟩, ⟨⟨"./A.kt"⟩, "new"⟩]
          services := [⟨"api.Plugin", "impl.First"⟩]
          options :=
            { verbose := false
              archives := { ArchiveSelections.none with kapt := .use ⟨"/lib/kapt.jar"⟩ } } }
      backend := .scripted [] (.ok .ok)
      resolver := .fixed [] }
  machine := ⟨.empty, [], []⟩
  stream := {}

theorem routes_linked (below : List (Location × Node)) :
    (linkedMachine below).Routes ⟨"/work"⟩ ["home", "project"] := by
  have plain (location : Location) (there : (linkedMachine below).tree.node? location =
      some .directory) (target : Path) :
      (linkedMachine below).tree.node? location ≠ some (.link target) := by
    rw [there]
    exact nofun
  have whole : (⟨"/work"⟩ : Path).track = (["work"] : Location) := by decide
  have target : (⟨"home/project"⟩ : Path).track ++ [] = (["home", "project"] : Location) := by
    decide
  have level : Text.utf8 "home" ≠ [Byte.dot, Byte.dot] ∧
      Text.utf8 "project" ≠ [Byte.dot, Byte.dot] ∧ Text.utf8 "work" ≠ [Byte.dot, Byte.dot] := by
    decide
  unfold Machine.Routes
  rw [whole]
  refine .through level.2.2 rfl ?_
  rw [target]
  exact .down level.1 (plain ["home"] rfl)
    (.down level.2.1 (plain ["home", "project"] rfl) (.arrived _))

theorem linkFreeBelow_linked {below : List (Location × Node)}
    (plain : ∀ entry ∈ below, ∀ target, entry.2 ≠ .link target) :
    (linkedMachine below).LinkFreeBelow ⟨"/work"⟩ := by
  intro place root
  cases (routes_linked below).unique root
  refine Tree.linkFree_of_nodes fun entry member inside => ?_
  simp only [linkedMachine, List.mem_cons] at member
  rcases member with rfl | rfl | rfl | later
  · exact nofun
  · exact nofun
  · exact absurd inside (by decide)
  · exact plain entry later

end Compilation
end KotlinCompile
