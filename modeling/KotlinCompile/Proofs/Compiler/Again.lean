import KotlinCompile.Proofs.Compiler.CutShort
import KotlinCompile.Proofs.Compiler.Prepared
import KotlinCompile.Proofs.Machine.Passing

/-! A compilation that is run again. The archives are kept from the first run, what is prepared is
there already, and the listing of the sources finds the same files; so the compiler is given the same
arguments, and where these decide what it does, all comes out as before. -/
namespace KotlinCompile
open Fallible

/-- Only the output of the compiler is different. -/
structure OnlyOutput (place : Location) (before after : Machine) : Prop where
  here : after.here = before.here
  node : ∀ location, ¬IsOutput place location →
    after.tree.node? location = before.tree.node? location
  wellFormed : before.tree.WellFormed → after.tree.WellFormed

namespace Backend

/-- How the compiler ends and what it writes is decided by its arguments. -/
def DecidedByArguments (backend : Backend) : Prop :=
  ∀ arguments machine other tee,
    ((backend arguments other).on tee).1.1 = ((backend arguments machine).on tee).1.1 ∧
      ((backend arguments other).on tee).2 = ((backend arguments machine).on tee).2

/-- The compiler changes nothing but what is below the directory of the classes, and the directory
of kapt. -/
def KeepsToOutput (backend : Backend) (layout : Layout) : Prop :=
  ∀ arguments machine tee place, machine.Routes layout.root place →
    OnlyOutput place machine ((backend arguments machine).on tee).1.2

end Backend

namespace Layout
variable {layout : Layout} {machine other : Machine} {place : Location}

/-- The way to the working directory passes nothing that is left to the compiler. -/
def PassesNoOutput (layout : Layout) (machine : Machine) : Prop :=
  ∀ place location, machine.Routes layout.root place → machine.Passes layout.root location →
    ¬IsOutput place location

/-- A working directory that is reached without links and without steps up lies below all that the
way to it passes. -/
theorem passesNoOutput_of_level
    (free : machine.tree.LinkFree (Tree.origin machine.here layout.root))
    (level : [Byte.dot, Byte.dot] ∉ layout.root.track) : layout.PassesNoOutput machine := by
  intro place location root passes output
  have along := (free.route level).unique root
  obtain ⟨front, begins, rfl⟩ := free.passes level passes
  have short := begins.length_le
  rw [along] at output
  rcases output with ⟨name, rest, same⟩ | ⟨rest, same⟩ <;>
  · have long := congrArg List.length same
    simp only [List.length_append, List.length_cons] at long
    omega

/-- Where the output of the compiler is not on the way, that way stays as it is, and so does the way
on to the sources. -/
theorem PassesNoOutput.agree (clear : layout.PassesNoOutput machine)
    (root : machine.Routes layout.root place) (free : machine.tree.LinkFree place)
    (output : OnlyOutput place machine other) :
    machine.AgreeOnWay other layout.root ∧ machine.AgreeOnWay other layout.sources := by
  have whole : layout.sources.components =
      layout.root.components ++ [Layout.sourcesName].map .name := layout.components_sources
  refine ⟨⟨output.here, fun location passes => ?_⟩, ⟨output.here, fun location passes => ?_⟩⟩
  · exact output.node location (clear place location root passes)
  · apply output.node
    rcases passes.split whole with above | ⟨place', root', behind⟩
    · exact clear place location root above
    · cases root.unique root'
      obtain ⟨front, begins, rfl⟩ := free.passes (by decide) behind
      rcases List.prefix_cons_iff.mp begins with rfl | ⟨rest, rfl, ends⟩
      · rw [List.append_nil]
        exact clear place place root root.passes
      · exact not_isOutput_sources place rest

end Layout

def Node.isLink : Node → Bool
  | .link _ => true
  | _ => false

theorem linkFree_of_isLink {tree : Tree} (plain : ∀ entry ∈ tree.nodes, entry.2.isLink = false)
    (place : Location) : tree.LinkFree place := by
  refine Tree.linkFree_of_nodes fun entry member _ target same => ?_
  have none := plain entry member
  rw [same] at none
  cases none

namespace Compilation

section Asking
variable {compilation : Compilation} {entries : List Path}

theorem resolver_archives (fixed : compilation.resolver = .fixed entries) (machine : Machine) :
    (compilation.archives machine).2.resolver = .fixed entries := by
  unfold archives
  cases compilation.resolved with
  | some archives => exact fixed
  | none =>
    dsimp only
    split
    · rw [fixed]
      rfl
    · exact fixed

theorem resolver_classpath (fixed : compilation.resolver = .fixed entries) (machine : Machine) :
    (compilation.classpath machine).2.resolver = .fixed entries := by
  rw [classpath_eq]
  refine resolver_archives ?_ machine
  unfold afterInheriting
  split
  · rw [fixed]
    rfl
  · exact fixed

theorem resolver_kapt (fixed : compilation.resolver = .fixed entries) (machine : Machine) :
    (compilation.kapt machine).2.resolver = .fixed entries := by
  unfold kapt
  split
  · exact resolver_archives fixed machine
  · exact fixed

end Asking

section Again
variable {bench ready later after : Bench} {kapt : Option Kapt.Wiring} {classpath : Classpath}
  {composition : Composition} {entries : List Path} {result : CompilationResult} {request : Request}

/-- What was checked is checked again with the same answers, wherever the archives are kept and the
host classpath is fixed. -/
theorem check_again (later : Bench) (fixed : bench.compilation.resolver = .fixed entries)
    (passed : check bench = (.ok (kapt, classpath), after))
    (same : later.compilation = after.compilation)
    (here : later.machine.here = bench.machine.here) :
    ∃ compilation, check later = (.ok (kapt, classpath), { later with compilation }) := by
  obtain ⟨_, rfl, asked, kept⟩ := check_ok passed
  obtain ⟨sources, bindings, options, wired, rfl, joined, left⟩ := check_eq_ok.mp passed
  have request := asked.request
  have resolver : later.compilation.resolver = .fixed entries := by
    rw [same, left]
    exact resolver_classpath (resolver_kapt fixed bench.machine) bench.machine
  dsimp only at same
  refine ⟨_, check_eq_ok.mpr ⟨?_, ?_, ?_, ?_, ?_, joined, rfl⟩⟩
  · rwa [same, request]
  · rwa [same, request]
  · rwa [same, request]
  · rw [kapt_answer] at wired ⊢
    rw [same, archives_kept kept, request]
    exact wired
  · have directory : later.machine.currentDirectory = bench.machine.currentDirectory :=
      congrArg Machine.pathOf here
    rw [classpath_eq, classpath_eq, (asked_afterInheriting _ later.machine).archives,
      (asked_afterInheriting _ bench.machine).archives, directory, inherited, inherited, resolver,
      fixed, same, archives_kept kept, request]
    rfl

/-- What the compiler does when it is called. -/
def answer (ready : Bench) (arguments : List String) :
    (Except BuildError ExitCode × Machine) × Tee :=
  (ready.compilation.backend arguments ready.machine).on ⟨ready.stream, []⟩

/-- A run that is over has for its result what the compiler answered, and the warnings that follow
from it. -/
structure Concludes (request : Request) (line : List String) (ready : Bench)
    (result : CompilationResult) (after : Bench) : Prop where
  exit : (answer ready line).1.1 = .ok result.exit
  reported : result = ⟨result.exit, request.layout.classes, (answer ready line).2.text,
    FailureRule.warnings ready.compilation.rules
      ⟨result.exit, (answer ready line).2.text, request.options.inheritClasspath⟩⟩
  warned : (answer ready line).2.sink.write (marked "warning: " result.warnings) =
    (.ok (), after.stream)
  left : after = { ready with
    machine := (answer ready line).1.2, stream := after.stream, calls := ready.calls ++ [line] }

theorem conclude_eq_ok : conclude request (⟨.staged⟩, composition) ready = (.ok result, after) ↔
    Concludes request composition.arguments.commandLine ready result after := by
  unfold conclude
  rw [bind_apply_ok]
  constructor
  · rintro ⟨⟨exit, messages⟩, _, calls, rest⟩
    obtain ⟨exits, rfl, rfl⟩ := call_ok calls
    obtain ⟨_, last, warns, done⟩ := bind_apply_ok.mp (get_bind_ok.mp rest)
    obtain ⟨final, warned, rfl⟩ := say_all_ok warns
    cases done
    exact ⟨exits, rfl, warned, rfl⟩
  · rintro ⟨exits, same, warned, left⟩
    have calls := call_staged composition.arguments.commandLine ready
    rw [← answer] at calls
    dsimp only at calls
    rw [exits] at calls
    refine ⟨_, _, calls, get_bind_ok.mpr (bind_apply_ok.mpr ⟨(), after, ?_, ?_⟩)⟩
    · rw [say_all]
      rw [same] at warned
      dsimp only at warned ⊢
      rw [warned, left]
      rfl
    · rw [same]
      rfl

theorem conclude_again (decided : ready.compilation.backend.DecidedByArguments)
    (ended : conclude request (⟨.staged⟩, composition) ready = (.ok result, after))
    (stream : later.stream = ready.stream)
    (task : SameTask ready.compilation later.compilation) :
    ∃ done, conclude request (⟨.staged⟩, composition) later = (.ok result, done) ∧
      done.stream = after.stream := by
  have ends := conclude_eq_ok.mp ended
  have ⟨exit, tee⟩ : (answer later composition.arguments.commandLine).1.1 =
        (answer ready composition.arguments.commandLine).1.1 ∧
      (answer later composition.arguments.commandLine).2 =
        (answer ready composition.arguments.commandLine).2 := by
    unfold answer
    rw [task.backend, stream]
    exact decided _ ready.machine later.machine _
  refine ⟨{ later with
    machine := (answer later composition.arguments.commandLine).1.2, stream := after.stream,
    calls := later.calls ++ [composition.arguments.commandLine] }, conclude_eq_ok.mpr ?_, rfl⟩
  refine ⟨exit.trans ends.exit, ?_, ?_, rfl⟩
  · rw [tee, task.rules]
    exact ends.reported
  · rw [tee]
    exact ends.warned

theorem reaches_of_ended (ended : run bench = (.ok result, after)) :
    ∃ composition ready, Reaches bench composition ready ∧
      Concludes bench.compilation.request composition.arguments.commandLine ready result after := by
  rw [run_eq_conclude] at ended
  obtain ⟨⟨_, composition⟩, ready, announced, concluded⟩ := bind_apply_ok.mp ended
  obtain ⟨rfl, _⟩ := announces_of_announce announced
  exact ⟨composition, ready, announced, conclude_eq_ok.mp concluded⟩

/-- From where everything is prepared as it was left for the compiler, a run gets to the compiler
again, with the same arguments and on the same machine. -/
theorem announces_again {place : Location} (later : Bench)
    (fixed : bench.compilation.resolver = .fixed entries)
    (announces : Announces bench kapt classpath composition ready)
    (ready' : bench.compilation.request.Prepared place ready.machine)
    (free : ready.machine.tree.LinkFree (place ++ [Layout.sourcesName]))
    (compilation : later.compilation = ready.compilation)
    (stream : later.stream = bench.stream) (here : later.machine.here = bench.machine.here)
    (prepared : bench.compilation.request.Prepared place later.machine)
    (sources : ∀ names, later.machine.tree.node? (place ++ Layout.sourcesName :: names) =
      ready.machine.tree.node? (place ++ Layout.sourcesName :: names))
    (wellFormed : ready.machine.tree.WellFormed) (wellFormed' : later.machine.tree.WellFormed) :
    ∃ again, Announces later kapt classpath composition again ∧
      again.stream = ready.stream ∧ SameTask ready.compilation again.compilation ∧
      Machine.Grows (fun _ => False) bench.compilation.request.Writes later.machine again.machine ∧
      ∀ location, again.machine.tree.node? location = later.machine.tree.node? location := by
  have asked := announces.asked
  have request : later.compilation.request = bench.compilation.request :=
    (congrArg Compilation.request compilation).trans asked.request
  have freeLater : later.machine.LinkFreeBelow bench.compilation.request.layout.sources := by
    intro location routes
    cases (Machine.status_routes prepared.directory nofun).unique routes
    intro names target filled linked
    rw [List.append_assoc] at linked
    refine free names target filled ?_
    rw [List.append_assoc]
    exact (sources names).symm.trans linked
  obtain ⟨compilation', checked⟩ := check_again later fixed announces.checked compilation here
  obtain ⟨machine, prepares, grows, prepared'⟩ :=
    prepare_again { later with compilation := compilation' } prepared freeLater
  have nodes := prepared.same_nodes prepared' grows
  -- the arguments depend on the machine by the listing of the sources only
  have listed : Composition.stagedSources machine bench.compilation.request.layout.sources =
      Composition.stagedSources ready.machine bench.compilation.request.layout.sources := by
    refine Composition.stagedSources_congr bench.compilation.request.layout.takesSlash_sources
      ready'.directory prepared'.directory free wellFormed (grows.wellFormed wellFormed')
      fun names => ?_
    rw [List.append_assoc]
    exact (nodes _).trans (sources names)
  refine ⟨{ later with compilation := compilation', machine, stream := ready.stream },
    ⟨checked, ?_, ?_, ?_, rfl⟩, rfl, ?_, grows, nodes⟩
  · rw [request]
    exact prepares
  · rw [request, Composition.compose, listed]
    exact announces.composed
  · rw [request, compilation, archives_kept announces.kept, stream]
    exact announces.said
  · obtain ⟨_, same', asked', _⟩ := check_ok checked
    cases same'
    rw [← compilation]
    exact asked'.toSameTask

/-- What was prepared for the compiler is still prepared when it is done, if the way to the working
directory does not pass what the compiler may change. -/
theorem prepared_after
    (keeps : bench.compilation.backend.KeepsToOutput bench.compilation.request.layout)
    (free : bench.machine.LinkFreeBelow bench.compilation.request.layout.root)
    (clear : bench.compilation.request.layout.PassesNoOutput bench.machine)
    (reached : Reaches bench composition ready)
    (concludes : Concludes request composition.arguments.commandLine ready result after) :
    ∃ place, bench.machine.Routes bench.compilation.request.layout.root place ∧
      after.machine.Routes bench.compilation.request.layout.root place ∧
      bench.compilation.request.Prepared place ready.machine ∧
      bench.compilation.request.Prepared place after.machine ∧
      OnlyOutput place ready.machine after.machine := by
  obtain ⟨_, _, announces⟩ := reaches_iff.mp reached
  obtain ⟨place, root, prepared⟩ := reached.prepared free
  have grows := reached.grows
  have rootReady := grows.routes_iff.mpr root
  have freeReady := grows.linkFree (free place root)
  have output : OnlyOutput place ready.machine after.machine := by
    rw [concludes.left, answer, announces.asked.backend]
    exact keeps _ _ _ place rootReady
  have clearReady : bench.compilation.request.layout.PassesNoOutput ready.machine := by
    intro place location root passes
    exact clear place location (grows.routes_iff.mp root) (grows.passes_iff.mp passes)
  obtain ⟨agree, agree'⟩ := clearReady.agree rootReady freeReady output
  have rootAfter := rootReady.agreeing agree
  have prepared' := prepared.transfer (freeReady.below [Layout.sourcesName]) rootAfter
    (Machine.status_agreeing agree') output.node
  exact ⟨place, root, rootAfter, prepared, prepared', output⟩

/-- The second run is over as the first one was, on the stream that the first one was given. -/
theorem run_repeated (fixed : bench.compilation.resolver = .fixed entries)
    (decided : bench.compilation.backend.DecidedByArguments)
    (keeps : bench.compilation.backend.KeepsToOutput bench.compilation.request.layout)
    (wellFormed : bench.machine.tree.WellFormed)
    (free : bench.machine.LinkFreeBelow bench.compilation.request.layout.root)
    (clear : bench.compilation.request.layout.PassesNoOutput bench.machine)
    (ended : run bench = (.ok result, after)) :
    ∃ line again, run { after with stream := bench.stream } = (.ok result, again) ∧
      after.calls = bench.calls ++ [line] ∧ again.calls = after.calls ++ [line] ∧
      again.stream = after.stream ∧
      ∃ place, bench.machine.Routes bench.compilation.request.layout.root place ∧
        (∀ names, again.machine.tree.node? (place ++ Layout.sourcesName :: names) =
          after.machine.tree.node? (place ++ Layout.sourcesName :: names)) ∧
        again.machine.tree.node? (place ++ [Layout.servicesName]) =
          after.machine.tree.node? (place ++ [Layout.servicesName]) := by
  obtain ⟨composition, ready, reached, concludes⟩ := reaches_of_ended ended
  obtain ⟨kapt, classpath, announces⟩ := reaches_iff.mp reached
  obtain ⟨place, root, rootAfter, prepared, prepared', output⟩ :=
    prepared_after keeps free clear reached concludes
  have grows := reached.grows
  have asked := announces.asked
  have left := concludes.left
  have compilation : after.compilation = ready.compilation := by rw [left]
  have request : after.compilation.request = bench.compilation.request :=
    (congrArg Compilation.request compilation).trans asked.request
  have freeReady := (grows.linkFree (free place root)).below [Layout.sourcesName]
  have wellFormed' := grows.wellFormed wellFormed
  have sources (names : Location) := output.node _ (not_isOutput_sources place names)
  obtain ⟨again, announces', stream, task, grows', nodes⟩ := announces_again
    { after with stream := bench.stream } fixed announces prepared freeReady compilation rfl
    (output.here.trans grows.here) prepared' sources wellFormed' (output.wellFormed wellFormed')
  -- so the compiler is called as it was, and what it leaves alone is as the first run left it
  have decided' : ready.compilation.backend.DecidedByArguments := by rwa [asked.backend]
  obtain ⟨done, concluded, received⟩ :=
    conclude_again decided' (conclude_eq_ok.mpr concludes) stream task
  have last := (conclude_eq_ok.mp concluded).left
  have output' : OnlyOutput place again.machine done.machine := by
    rw [last, answer, task.backend, asked.backend]
    exact keeps _ _ _ place (grows'.routes_iff.mpr rootAfter)
  have kept (location : Location) (apart : ¬IsOutput place location) :
      done.machine.tree.node? location = after.machine.tree.node? location :=
    (output'.node location apart).trans (nodes location)
  refine ⟨composition.arguments.commandLine, done, ?_, ?_, ?_, received, place, root, ?_, ?_⟩
  · rw [run_eq_conclude]
    refine bind_apply_ok.mpr ⟨_, again, reaches_iff.mpr ⟨kapt, classpath, announces'⟩, ?_⟩
    rw [request]
    exact concluded
  · rw [left, announces.calls]
  · rw [last, announces'.calls]
  · exact fun names => kept _ (not_isOutput_sources place names)
  · exact kept _ (not_isOutput_servicesJar place)

/-- A run that succeeded succeeds again with the same result, on any stream that has as much room
as the first one had, if the way to the working directory does not pass what the compiler may change.
The compiler is given the same arguments, the stream receives the same, and the sources and the
archive are left as they were. -/
theorem run_again (fixed : bench.compilation.resolver = .fixed entries)
    (decided : bench.compilation.backend.DecidedByArguments)
    (keeps : bench.compilation.backend.KeepsToOutput bench.compilation.request.layout)
    (wellFormed : bench.machine.tree.WellFormed)
    (free : bench.machine.LinkFreeBelow bench.compilation.request.layout.root)
    (clear : bench.compilation.request.layout.PassesNoOutput bench.machine)
    (ended : run bench = (.ok result, after))
    (sink : Stream) (room : sink.room = bench.stream.room)
    (flush : sink.flushFails = bench.stream.flushFails) :
    ∃ line data again, run { after with stream := sink } = (.ok result, again) ∧
      after.calls = bench.calls ++ [line] ∧ again.calls = after.calls ++ [line] ∧
      after.stream.received = bench.stream.received ++ data ∧
      again.stream.received = sink.received ++ data ∧
      ∃ place, bench.machine.Routes bench.compilation.request.layout.root place ∧
        (∀ names, again.machine.tree.node? (place ++ Layout.sourcesName :: names) =
          after.machine.tree.node? (place ++ Layout.sourcesName :: names)) ∧
        again.machine.tree.node? (place ++ [Layout.servicesName]) =
          after.machine.tree.node? (place ++ [Layout.servicesName]) := by
  obtain ⟨line, again, repeated, first, second, same, place, root, sources, archive⟩ :=
    run_repeated fixed decided keeps wellFormed free clear ended
  let base : Stream := { bench.stream with received := [] }
  have stands : bench.stream = base.behind bench.stream.received :=
    Stream.behind_received rfl rfl rfl
  have stands' : sink = base.behind sink.received := Stream.behind_received rfl room flush
  -- all of these are runs on the stream as it was empty, behind what was received before
  have onFirst := run_behind { bench with stream := base } bench.stream.received
  have onAgain := run_behind { after with stream := base } bench.stream.received
  have onSink := run_behind { after with stream := base } sink.received
  rw [Bench.behind] at onFirst onAgain onSink
  dsimp only at onFirst onAgain onSink
  rw [← stands] at onFirst onAgain
  rw [← stands'] at onSink
  rw [ended] at onFirst
  rw [repeated] at onAgain
  have received := congrArg (·.2.stream.received) onFirst
  have left := congrArg Prod.snd onAgain
  dsimp only [Bench.behind, Stream.behind] at received left
  rw [← (congrArg Prod.fst onAgain)] at onSink
  refine ⟨line, _, _, onSink, first, ?_, received, ?_, place, root, ?_, ?_⟩
  · rw [← second, left]
    rfl
  · have both := congrArg Stream.received same
    rw [left, received] at both
    exact congrArg (sink.received ++ ·) (List.append_cancel_left both)
  · intro names
    rw [← sources names, left]
    rfl
  · rw [← archive, left]
    rfl

end Again

/-- A compiler that writes a line and, where there are no links at all, puts a file in one place. -/
def putting (location : Location) : Backend := fun _ machine =>
  .write (Text.utf8 "ok\n") fun _ => .finished (.ok .ok,
    if ∀ entry ∈ machine.tree.nodes, entry.2.isLink = false then
      { machine with tree := machine.tree.put location (.file (.bytes [0]) false) }
    else machine)

theorem decided_putting (location : Location) : (putting location).DecidedByArguments :=
  fun _ _ _ _ => ⟨rfl, rfl⟩

theorem keepsToOutput_putting {layout : Layout} {place location : Location}
    (named : ∀ name ∈ location, IsName name) (output : IsOutput place location)
    (leads : ∀ machine : Machine, machine.tree.LinkFree [] → machine.Routes layout.root place) :
    (putting location).KeepsToOutput layout := by
  intro arguments machine tee place' routes
  show OnlyOutput place' machine (if ∀ entry ∈ machine.tree.nodes, entry.2.isLink = false then
    { machine with tree := machine.tree.put location (.file (.bytes [0]) false) } else machine)
  split
  · next plain =>
    cases (leads machine (linkFree_of_isLink plain [])).unique routes
    refine ⟨rfl, fun other apart => Tree.node?_put_of_ne ?_ _,
      fun wellFormed => wellFormed.put named _⟩
    rintro rfl
    exact apart output
  · exact ⟨rfl, fun _ _ => rfl, id⟩

/-- One source is compiled, in a working directory that is named in some way. -/
def puttingBench (root : Path) (location : Location) : Bench where
  compilation :=
    { request := { layout := ⟨root⟩, sources := [⟨⟨"A.kt"⟩, "class A"⟩] }
      backend := putting location
      resolver := .fixed [] }
  machine := ⟨⟨[(["work"], .directory)]⟩, [], []⟩
  stream := {}

theorem routes_work {machine : Machine} (free : machine.tree.LinkFree []) :
    machine.Routes ⟨"/work"⟩ ["work"] := by
  have whole : (⟨"/work"⟩ : Path).track = (["work"] : Location) := by decide
  unfold Machine.Routes
  rw [whole]
  exact free.route (by decide)

/-- A class is put into the directory of the classes, and the second run goes on with the stream of
the first. -/
theorem putting_again :
    let bench := puttingBench ⟨"/work"⟩ ["work", "classes", "A.class"]
    ∃ result, (run bench).1 = .ok result ∧ (run (run bench).2).1 = .ok result := by
  intro bench
  have free : bench.machine.tree.LinkFree [] := linkFree_of_isLink (by decide) []
  have root := routes_work free
  have below : bench.machine.LinkFreeBelow ⟨"/work"⟩ := fun place _ => free.below place
  have fine : (run bench).1.isOk = true := by decide +kernel
  have clear : bench.compilation.request.layout.PassesNoOutput bench.machine :=
    Layout.passesNoOutput_of_level free (by decide)
  have room : (run bench).2.stream.room = bench.stream.room := by decide +kernel
  have flush : (run bench).2.stream.flushFails = bench.stream.flushFails := by decide +kernel
  have keeps : (putting ["work", "classes", "A.class"]).KeepsToOutput ⟨⟨"/work"⟩⟩ :=
    keepsToOutput_putting (by decide) (Or.inl ⟨"A.class", [], rfl⟩) fun _ => routes_work
  -- the first run is evaluated above, and a name for what it left keeps it closed from here on
  generalize ended : run bench = first at *
  obtain ⟨_ | result, after⟩ := first
  · cases fine
  obtain ⟨_, _, again, done, _⟩ := run_again rfl (decided_putting _) keeps ⟨by decide, by decide⟩
    below clear ended after.stream room flush
  exact ⟨result, rfl, congrArg Prod.fst done⟩

/-- Where the path of the working directory leads through a directory that the compiler replaces by
a file, the second run cannot stage the sources. -/
theorem detour_refused :
    let bench := puttingBench ⟨"/work/classes/x/../.."⟩ ["work", "classes", "x"]
    bench.compilation.resolver = .fixed [] ∧ bench.compilation.backend.DecidedByArguments ∧
    bench.compilation.backend.KeepsToOutput bench.compilation.request.layout ∧
    bench.machine.tree.WellFormed ∧
    bench.machine.LinkFreeBelow bench.compilation.request.layout.root ∧
    (run bench).1.isOk = true ∧
    (run { (run bench).2 with stream := bench.stream }).1 =
      .error (.io ⟨"/work/classes/x/../../sources"⟩ .notDirectory) := by
  intro bench
  have free : bench.machine.tree.LinkFree [] := linkFree_of_isLink (by decide) []
  have leads (machine : Machine) (free : machine.tree.LinkFree []) :
      machine.Routes ⟨"/work/classes/x/../.."⟩ ["work"] := by
    have whole : (⟨"/work/classes/x/../.."⟩ : Path).track =
        (["work", "classes", "x"] : Location) ++ [[Byte.dot, Byte.dot], [Byte.dot, Byte.dot]] := by
      decide
    unfold Machine.Routes
    rw [whole]
    exact (free.route (by decide)).append (.up (.up (.arrived _)))
  refine ⟨rfl, decided_putting _, keepsToOutput_putting (by decide) (Or.inl ⟨"x", [], rfl⟩) leads,
    ⟨by decide, by decide⟩, fun place _ => free.below place, by decide +kernel, ?_⟩
  exact fault_eq_some.mp (by decide +kernel)

end Compilation
end KotlinCompile
