import KotlinCompile.Proofs.Compiler.Rejection
import KotlinCompile.Proofs.Compiler.Writing
import KotlinCompile.Proofs.Machine.Growth

/-! The steps of a run that go through, and what each of them leaves on the bench. The checks only
ask the compilation; what is prepared is prepared on the machine; the lines that are said go to the
stream; and the call of the compiler changes the machine and the stream behind a tee. -/
namespace KotlinCompile.Compilation
open Fallible

section Steps
variable {α : Type} {bench after : Bench}

theorem get_bind_ok {β : Type} {next : Bench → Run β} {b : β} :
    ((get : Run Bench) >>= next) bench = (.ok b, after) ↔ next bench bench = (.ok b, after) :=
  Iff.rfl

theorem raise_bind_ok {β : Type} {result : Except BuildError α} {next : α → Run β} {b : β} :
    (Run.raise result >>= next) bench = (.ok b, after) ↔
      ∃ a, result = .ok a ∧ next a bench = (.ok b, after) := by
  rw [bind_apply]
  cases result with
  | error error => exact ⟨nofun, nofun⟩
  | ok a =>
    constructor
    · exact fun done => ⟨a, rfl, done⟩
    · rintro ⟨_, ⟨⟩, done⟩
      exact done

theorem ask_bind_ok {β : Type} {question : Compilation → Machine → α × Compilation}
    {next : α → Run β} {b : β} : (Run.ask question >>= next) bench = (.ok b, after) ↔
      next (question bench.compilation bench.machine).1
        { bench with compilation := (question bench.compilation bench.machine).2 } =
        (.ok b, after) :=
  Iff.rfl

theorem onMachine_eq_ok {work : OnMachine BuildError α} {a : α} :
    Run.onMachine work bench = (.ok a, after) ↔ ∃ machine,
      work bench.machine = (.ok a, machine) ∧ after = { bench with machine } := by
  constructor
  · intro done
    have answer : (work bench.machine).1 = .ok a := congrArg Prod.fst done
    exact ⟨(work bench.machine).2, Prod.ext answer rfl, (congrArg Prod.snd done).symm⟩
  · rintro ⟨machine, done, rfl⟩
    have ran : work.run bench.machine = (.ok a, machine) := done
    rw [Run.onMachine, ran]

/-- A step that works on nothing but the machine. -/
def OnlyMachine (step : Run α) : Prop :=
  ∀ bench, ∃ machine, (step bench).2 = { bench with machine }

theorem onlyMachine_onMachine (work : OnMachine BuildError α) :
    OnlyMachine (Run.onMachine work) :=
  fun bench => ⟨(work.run bench.machine).2, rfl⟩

theorem onlyMachine_stage (request : Request) : OnlyMachine (Run.stage request) :=
  fun bench => ⟨(Invocation.stage {} request bench.machine).2.2, rfl⟩

theorem onlyMachine_pure (a : α) : OnlyMachine (pure a) := fun bench => ⟨bench.machine, rfl⟩

theorem onlyMachine_bind {β : Type} {step : Run α} {next : α → Run β} (first : OnlyMachine step)
    (second : ∀ a, OnlyMachine (next a)) : OnlyMachine (step >>= next) := by
  intro bench
  obtain ⟨machine, reached⟩ := first bench
  rw [bind_apply]
  cases ended : step bench with
  | mk result middle =>
    rw [ended] at reached
    cases reached
    cases result with
    | error error => exact ⟨machine, rfl⟩
    | ok a => exact second a _

theorem onlyMachine_prepare (request : Request) : OnlyMachine (prepare request) := by
  unfold prepare
  refine onlyMachine_bind (onlyMachine_stage request) fun invocation => ?_
  refine onlyMachine_bind (onlyMachine_onMachine _) fun _ => ?_
  split
  · exact onlyMachine_bind (onlyMachine_onMachine _) fun _ => onlyMachine_pure invocation
  · exact onlyMachine_pure invocation

/-- A step that does the same when a part of the bench is put differently, and leaves that part as
it was put. -/
def Ignores {γ : Type} (put : Bench → γ → Bench) (step : Run α) : Prop :=
  ∀ bench part, step (put bench part) = ((step bench).1, put (step bench).2 part)

section Ignores
variable {β γ : Type} {put : Bench → γ → Bench} {step : Run α}

theorem ignores_pure (a : α) : Ignores put (pure a) := fun _ _ => rfl

theorem ignores_raise (result : Except BuildError α) : Ignores put (Run.raise result) :=
  fun _ _ => rfl

theorem ignores_bind {next : α → Run β} (first : Ignores put step)
    (second : ∀ a, Ignores put (next a)) : Ignores put (step >>= next) := by
  intro bench part
  rw [bind_apply, bind_apply, first bench part]
  cases step bench with
  | mk result middle =>
    cases result with
    | error error => rfl
    | ok a => exact second a middle part

/-- What follows may look at the bench, but not at that part of it. -/
theorem ignores_getThen {next : Bench → Run β}
    (same : ∀ bench part, next (put bench part) = next bench)
    (ignores : ∀ bench, Ignores put (next bench)) : Ignores put (get >>= next) := by
  intro bench part
  rw [bind_apply, bind_apply, get_apply, get_apply]
  dsimp only
  rw [same]
  exact ignores bench bench part

theorem ignores_prepare {request : Request} (stages : Ignores put (Run.stage request))
    (works : ∀ work : OnMachine BuildError Unit, Ignores put (Run.onMachine work)) :
    Ignores put (prepare request) := by
  unfold prepare
  refine ignores_bind stages fun invocation => ?_
  refine ignores_bind (works _) fun created => ?_
  split
  · exact ignores_bind (works _) fun _ => ignores_pure invocation
  · exact ignores_pure invocation

end Ignores

/-- Some lines with a mark in front of each. -/
def marked (mark : String) (lines : List String) : Bytes :=
  lines.flatMap fun line => Text.utf8 (mark ++ line ++ "\n")

-- Some lines are one write of them together, and they are cut where it is cut.
theorem say_all (mark : String) (lines : List String) (bench : Bench) :
    (lines.forM fun line => Run.say (mark ++ line)) bench =
      ((bench.stream.write (marked mark lines)).1.mapError .diagnostics,
        { bench with stream := (bench.stream.write (marked mark lines)).2 }) := by
  induction lines generalizing bench with
  | nil =>
    rw [marked, List.flatMap_nil, Stream.write_nil]
    rfl
  | cons line rest ih =>
    have step : ((line :: rest).forM fun line => Run.say (mark ++ line)) bench =
        (Run.say (mark ++ line) >>= fun _ => rest.forM fun line => Run.say (mark ++ line)) bench := rfl
    rw [step, bind_apply, Run.say, marked, List.flatMap_cons]
    cases first : bench.stream.write (Text.utf8 (mark ++ line ++ "\n")) with
    | mk answer between =>
      cases answer with
      | error cause =>
        rw [Stream.write_append_refused (congrArg Prod.fst first), first]
        rfl
      | ok _ =>
        rw [Stream.write_append (congrArg Prod.fst first), first]
        exact ih { bench with stream := between }

theorem say_all_ok {mark : String} {lines : List String}
    (said : (lines.forM fun line => Run.say (mark ++ line)) bench = (.ok (), after)) :
    ∃ stream, bench.stream.write (marked mark lines) = (.ok (), stream) ∧
      after = { bench with stream } := by
  rw [say_all] at said
  have passed : (bench.stream.write (marked mark lines)).1 = .ok () :=
    mapError_eq_ok.mp (congrArg Prod.fst said)
  exact ⟨_, Prod.ext passed rfl, (congrArg Prod.snd said).symm⟩

end Steps

section Run
variable {bench after : Bench} {request : Request} {kapt : Option Kapt.Wiring}
  {classpath : Classpath} {invocation : Invocation} {result : CompilationResult}

theorem check_eq_ok : check bench = (.ok (kapt, classpath), after) ↔
    bench.compilation.request.sources.forM SourceFile.check = .ok () ∧
    ServiceBinding.checkAll bench.compilation.request.bindings = .ok () ∧
    (∃ options, Composition.parsePluginOptions bench.compilation.request.options.pluginOptions =
      .ok options) ∧
    (bench.compilation.kapt bench.machine).1 = .ok kapt ∧
    (bench.compilation.classpath bench.machine).1 = classpath ∧
    (∃ text, classpath.join = .ok text) ∧
    after = { bench with
      compilation := ((bench.compilation.kapt bench.machine).2.classpath bench.machine).2 } := by
  have same := (asked_kapt bench.compilation bench.machine).classpath
  unfold check
  rw [get_bind_ok, raise_bind_ok]
  simp only [raise_bind_ok, ask_bind_ok, same]
  constructor
  · rintro ⟨_, sources, _, bindings, _, options, _, wired, _, joined, done⟩
    cases done
    exact ⟨sources, bindings, ⟨_, options⟩, wired, rfl, ⟨_, joined⟩, rfl⟩
  · rintro ⟨sources, bindings, ⟨_, options⟩, wired, rfl, ⟨_, joined⟩, rfl⟩
    exact ⟨_, sources, _, bindings, _, options, _, wired, _, joined, rfl⟩

/-- Checks that passed have asked for the archives, which are kept from then on. -/
theorem check_ok (passed : check bench = (.ok (kapt, classpath), after)) :
    ∃ compilation, after = { bench with compilation } ∧
      Asked bench.machine bench.compilation compilation ∧
      compilation.resolved = some (bench.compilation.archives bench.machine).1 := by
  obtain ⟨_, _, _, _, _, _, left⟩ := check_eq_ok.mp passed
  have asked := asked_kapt bench.compilation bench.machine
  have again := asked_classpath (bench.compilation.kapt bench.machine).2 bench.machine
  refine ⟨_, left, asked.trans again, ?_⟩
  rw [resolved_classpath, asked.archives]

theorem stage_eq_ok : Run.stage request bench = (.ok invocation, after) ↔
    invocation = ⟨.staged⟩ ∧ ∃ targets machine,
      Invocation.stageSources request bench.machine = (.ok targets, machine) ∧
      after = { bench with machine } := by
  have staged : Run.stage request bench =
      ((Invocation.stageSources request bench.machine).1.map fun _ => ⟨.staged⟩,
        { bench with machine := (Invocation.stageSources request bench.machine).2 }) := rfl
  rw [staged]
  constructor
  · intro done
    obtain ⟨targets, answer, same⟩ := map_eq_ok.mp (congrArg Prod.fst done)
    exact ⟨same.symm, targets, _, Prod.ext answer rfl, (congrArg Prod.snd done).symm⟩
  · rintro ⟨rfl, targets, machine, ran, rfl⟩
    rw [ran]
    rfl

/-- What was prepared for the compiler: the sources are staged, the directory of the classes is
made, and with services the archive is written. -/
theorem prepare_eq_ok : prepare request bench = (.ok invocation, after) ↔
    invocation = ⟨.staged⟩ ∧ ∃ targets staged created machine,
      Invocation.stageSources request bench.machine = (.ok targets, staged) ∧
      Machine.createDirectories request.layout.classes staged = (.ok (), created) ∧
      (if request.hasServices then
        ServiceBinding.package request.bindings request.layout.servicesJar created = (.ok (), machine)
      else machine = created) ∧
      after = { bench with machine } := by
  unfold prepare
  rw [bind_apply_ok]
  simp only [stage_eq_ok, bind_apply_ok, onMachine_eq_ok, Machine.failingWith_eq_ok]
  constructor
  · rintro ⟨_, _, ⟨rfl, targets, staged, stages, rfl⟩, _, _, ⟨created, creates, rfl⟩, rest⟩
    split at rest
    · next services =>
      obtain ⟨_, _, packaged, done⟩ := bind_apply_ok.mp rest
      obtain ⟨machine, packages, rfl⟩ := onMachine_eq_ok.mp packaged
      cases done
      exact ⟨rfl, targets, staged, created, machine, stages, creates,
        by rwa [if_pos services], rfl⟩
    · next services =>
      cases rest
      exact ⟨rfl, targets, staged, created, created, stages, creates, by rw [if_neg services], rfl⟩
  · rintro ⟨rfl, targets, staged, created, machine, stages, creates, packages, rfl⟩
    refine ⟨_, _, ⟨rfl, targets, staged, stages, rfl⟩, (), _, ⟨created, creates, rfl⟩, ?_⟩
    split
    · next services =>
      rw [if_pos services] at packages
      exact bind_apply_ok.mpr ⟨(), _, onMachine_eq_ok.mpr ⟨machine, packages, rfl⟩, rfl⟩
    · next services =>
      rw [if_neg services] at packages
      rw [packages]
      rfl

theorem prepare_ok (ready : prepare request bench = (.ok invocation, after)) :
    invocation = ⟨.staged⟩ ∧ ∃ machine, after = { bench with machine } := by
  obtain ⟨same, _, _, _, machine, _, _, _, left⟩ := prepare_eq_ok.mp ready
  exact ⟨same, machine, left⟩

theorem call_staged (arguments : List String) (bench : Bench) :
    Run.call ⟨.staged⟩ arguments bench =
      let ended := (bench.compilation.backend arguments bench.machine).on ⟨bench.stream, []⟩
      (ended.1.1.map fun exit => (exit, ended.2.text),
        { bench with
          machine := ended.1.2
          stream := ended.2.sink
          calls := bench.calls ++ [arguments] }) := by
  rw [Run.call, Invocation.execute_staged]
  rfl

theorem call_ok {arguments : List String} {exit : ExitCode} {messages : String}
    (called : Run.call ⟨.staged⟩ arguments bench = (.ok (exit, messages), after)) :
    let ended := (bench.compilation.backend arguments bench.machine).on ⟨bench.stream, []⟩
    ended.1.1 = .ok exit ∧ messages = Text.lossy ended.2.captured ∧
      after = { bench with
        machine := ended.1.2
        stream := ended.2.sink
        calls := bench.calls ++ [arguments] } := by
  intro ended
  rw [call_staged] at called
  have answer : (fun exit => (exit, ended.2.text)) <$> ended.1.1 = Except.ok (exit, messages) :=
    congrArg Prod.fst called
  obtain ⟨_, exits, ⟨⟩⟩ := map_eq_ok.mp answer
  exact ⟨exits, rfl, (congrArg Prod.snd called).symm⟩

theorem archives_kept {compilation : Compilation} {archives : ResolvedArchives}
    (kept : compilation.resolved = some archives) (machine : Machine) :
    compilation.archives machine = (archives, compilation) := by
  rw [Compilation.archives, kept]

theorem carryOut_ok {archives : ResolvedArchives}
    (kept : bench.compilation.resolved = some archives)
    (ended : carryOut request kapt classpath bench = (.ok result, after)) :
    ∃ invocation prepared composition,
      prepare request bench = (.ok invocation, prepared) ∧
      Composition.compose prepared.machine request classpath kapt = .ok composition ∧
      let logged := marked "logging: " (advisories request archives composition)
      let called := (bench.compilation.backend composition.arguments.commandLine
        prepared.machine).on ⟨(bench.stream.write logged).2, []⟩
      (bench.stream.write logged).1 = .ok () ∧
      called.1.1 = .ok result.exit ∧
      result.messages = Text.lossy called.2.captured ∧
      result.warnings = FailureRule.warnings bench.compilation.rules
        ⟨result.exit, result.messages, request.options.inheritClasspath⟩ ∧
      called.2.sink.write (marked "warning: " result.warnings) = (.ok (), after.stream) ∧
      after.compilation = bench.compilation := by
  unfold carryOut at ended
  obtain ⟨invocation, prepared, ready, ended⟩ := bind_apply_ok.mp ended
  obtain ⟨rfl, machine, rfl⟩ := prepare_ok ready
  have ended := get_bind_ok.mp ended
  obtain ⟨composition, composed, ended⟩ := raise_bind_ok.mp ended
  have ended := ask_bind_ok.mp ended
  rw [archives_kept kept] at ended
  obtain ⟨_, logging, logs, ended⟩ := bind_apply_ok.mp ended
  obtain ⟨stream, written, rfl⟩ := say_all_ok logs
  obtain ⟨⟨exit, messages⟩, called, calls, ended⟩ := bind_apply_ok.mp ended
  obtain ⟨exits, rfl, rfl⟩ := call_ok calls
  have ended := get_bind_ok.mp ended
  obtain ⟨_, last, warns, done⟩ := bind_apply_ok.mp ended
  obtain ⟨final, warned, rfl⟩ := say_all_ok warns
  cases done
  refine ⟨_, _, composition, ready, composed, ?_⟩
  dsimp only at written exits warned ⊢
  rw [written]
  exact ⟨rfl, exits, rfl, rfl, warned, rfl⟩

theorem run_ok (ended : run bench = (.ok result, after)) :
    ∃ kapt classpath compilation,
      check bench = (.ok (kapt, classpath), { bench with compilation }) ∧
      Asked bench.machine bench.compilation compilation ∧
      compilation.resolved = some (bench.compilation.archives bench.machine).1 ∧
      carryOut bench.compilation.request kapt classpath { bench with compilation } =
        (.ok result, after) := by
  rw [run_eq] at ended
  cases passed : check bench with
  | mk verdict checked =>
    rw [passed] at ended
    cases verdict with
    | error error => cases ended
    | ok certain =>
      obtain ⟨kapt, classpath⟩ := certain
      obtain ⟨compilation, rfl, asked, kept⟩ := check_ok passed
      exact ⟨kapt, classpath, compilation, rfl, asked, kept, ended⟩

end Run

end KotlinCompile.Compilation
