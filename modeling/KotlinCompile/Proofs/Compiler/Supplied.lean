import KotlinCompile.Proofs.Compiler.CutShort

/-! What a compilation answers, told by its request and by what it is supplied with: the supporting
archives, and the host classpath that it inherits. The resolver and the archives that are kept have
no other part in it. -/
namespace KotlinCompile

/-- A request that is not rejected for anything that can be said without the archives. -/
structure Request.Acceptable (request : Request) : Prop where
  sources : request.sources.forM SourceFile.check = .ok ()
  bindings : ServiceBinding.checkAll request.bindings = .ok ()
  pluginOptions : ∃ options,
    Composition.parsePluginOptions request.options.pluginOptions = .ok options

namespace Compilation
open Fallible

structure Supplies where
  archives : ResolvedArchives
  inherited : List Path

namespace Supplies

def classpath (supplies : Supplies) (request : Request) (machine : Machine) : Classpath :=
  .build machine.currentDirectory request.options.classpaths supplies.archives.classpath
    supplies.inherited

def kapt (supplies : Supplies) (request : Request) : Except BuildError (Option Kapt.Wiring) :=
  if request.hasServices then some <$> Kapt.wire (wiringInputs request supplies.archives)
  else .ok none

def compose (supplies : Supplies) (request : Request) (machine : Machine) :
    Except BuildError Composition := do
  let kapt ← supplies.kapt request
  Composition.compose machine request (supplies.classpath request machine) kapt

def check (supplies : Supplies) (request : Request) (machine : Machine) :
    Except BuildError (Option Kapt.Wiring × Classpath) := do
  request.sources.forM SourceFile.check
  ServiceBinding.checkAll request.bindings
  let _ ← Composition.parsePluginOptions request.options.pluginOptions
  let kapt ← supplies.kapt request
  let classpath := supplies.classpath request machine
  let _ ← classpath.join
  return (kapt, classpath)

/-- What a run does after the checks, with its advisories about these archives. -/
def carryOut (supplies : Supplies) (request : Request) (kapt : Option Kapt.Wiring)
    (classpath : Classpath) : Run CompilationResult := do
  let invocation ← prepare request
  let composition ← Run.raise (Composition.compose (← get).machine request classpath kapt)
  (advisories request supplies.archives composition).forM fun advisory =>
    Run.say ("logging: " ++ advisory)
  conclude request (invocation, composition)

def run (supplies : Supplies) (request : Request) : Run CompilationResult := do
  let (kapt, classpath) ← Run.raise (supplies.check request (← get).machine)
  supplies.carryOut request kapt classpath

-- A request that is rejected without the archives is rejected for the same whatever they are.
theorem check_unacceptable {request : Request} (unacceptable : ¬request.Acceptable)
    (machine : Machine) :
    ∃ error, ∀ supplies : Supplies, supplies.check request machine = .error error := by
  unfold check
  cases sources : request.sources.forM SourceFile.check with
  | error error => exact ⟨error, fun _ => rfl⟩
  | ok _ =>
    cases bindings : ServiceBinding.checkAll request.bindings with
    | error error => exact ⟨error, fun _ => rfl⟩
    | ok _ =>
      cases options : Composition.parsePluginOptions request.options.pluginOptions with
      | error error => exact ⟨error, fun _ => rfl⟩
      | ok options' => exact absurd ⟨sources, bindings, options', options⟩ unacceptable

end Supplies

/-- What a compilation goes by when it is asked on a machine. -/
def supplies (compilation : Compilation) (machine : Machine) : Supplies :=
  ⟨(compilation.archives machine).1, compilation.inherited machine⟩

section Asked
variable (compilation : Compilation) (machine : Machine)

theorem classpath_supplied : (compilation.classpath machine).1 =
    (compilation.supplies machine).classpath compilation.request machine := by
  rw [classpath_eq, (asked_afterInheriting compilation machine).archives]
  rfl

theorem kapt_supplied : (compilation.kapt machine).1 =
    (compilation.supplies machine).kapt compilation.request :=
  kapt_answer compilation machine

theorem compose_supplied : (compilation.compose machine).1 =
    (compilation.supplies machine).compose compilation.request machine := by
  have asked := asked_kapt compilation machine
  unfold Supplies.compose compose
  rw [← kapt_supplied, ← classpath_supplied, ← asked.classpath]
  cases answer : compilation.kapt machine with
  | mk wired after =>
    cases wired with
    | error error => rfl
    | ok kapt =>
      rw [answer] at asked
      have last := asked.trans (asked_classpath after machine)
      exact congrArg (Composition.compose machine · (after.classpath machine).1 kapt) last.request

end Asked

/-- The same bench with another host classpath and other archives kept. -/
def Bench.hosted (bench : Bench) (host : Resolver × Option ResolvedArchives) : Bench :=
  { bench with compilation := { bench.compilation with resolver := host.1, resolved := host.2 } }

theorem Untouched.compilation {bench after : Bench} (untouched : Untouched bench after) :
    after = { bench with compilation := after.compilation } := by
  obtain ⟨compilation, machine, stream, calls⟩ := after
  obtain ⟨_, rfl, rfl, rfl⟩ := untouched
  rfl

section Run
variable {request : Request} {kapt : Option Kapt.Wiring} {classpath : Classpath}

theorem ignoresHost_call (invocation : Invocation) (arguments : List String) :
    Ignores Bench.hosted (Run.call invocation arguments) := fun _ _ => rfl

theorem ignoresHost_say_all (mark : String) (lines : List String) :
    Ignores Bench.hosted (lines.forM fun line => Run.say (mark ++ line)) := by
  intro bench host
  rw [say_all, say_all]
  rfl

theorem ignoresHost_carryOut (supplies : Supplies) (request : Request)
    (kapt : Option Kapt.Wiring) (classpath : Classpath) :
    Ignores Bench.hosted (supplies.carryOut request kapt classpath) := by
  unfold Supplies.carryOut
  refine ignores_bind ?_ fun invocation => ?_
  · exact ignores_prepare (fun _ _ => rfl) fun _ _ _ => rfl
  refine ignores_getThen (fun _ _ => rfl) fun bench => ?_
  refine ignores_bind (ignores_raise _) fun composition => ?_
  refine ignores_bind (ignoresHost_say_all _ _) fun _ => ?_
  exact ignores_conclude ignoresHost_call ignoresHost_say_all fun _ _ => rfl

theorem ignoresHost_run (supplies : Supplies) (request : Request) :
    Ignores Bench.hosted (supplies.run request) := by
  unfold Supplies.run
  refine ignores_getThen (fun _ _ => rfl) fun bench => ?_
  exact ignores_bind (ignores_raise _) fun certain => ignoresHost_carryOut supplies request _ _

theorem compilation_carryOut (supplies : Supplies) (request : Request)
    (kapt : Option Kapt.Wiring) (classpath : Classpath) (bench : Bench) :
    (supplies.carryOut request kapt classpath bench).2.compilation = bench.compilation := by
  have prepares (bench : Bench) : (prepare request bench).2.compilation = bench.compilation := by
    obtain ⟨machine, same⟩ := onlyMachine_prepare request bench
    rw [same]
  have speaks (mark : String) (lines : List String) (bench : Bench) :
      ((lines.forM fun line => Run.say (mark ++ line)) bench).2.compilation = bench.compilation := by
    rw [say_all]
  unfold Supplies.carryOut conclude
  refine (kept_bind (·.compilation) (fun invocation bench => ?_) bench).trans (prepares bench)
  refine (kept_bind (·.compilation) (fun found bench => ?_) bench).trans rfl
  refine (kept_bind (·.compilation) (fun composition bench => ?_) bench).trans rfl
  refine (kept_bind (·.compilation) (fun _ bench => ?_) bench).trans (speaks _ _ bench)
  refine (kept_bind (·.compilation) (fun called bench => ?_) bench).trans rfl
  refine (kept_bind (·.compilation) (fun found bench => ?_) bench).trans rfl
  exact (kept_bind (·.compilation) (fun _ _ => rfl) bench).trans (speaks _ _ bench)

theorem carryOut_hosted (supplies : Supplies) (request : Request) (kapt : Option Kapt.Wiring)
    (classpath : Classpath) {bench after : Bench} (untouched : Untouched bench after) :
    let ran := supplies.carryOut request kapt classpath bench
    supplies.carryOut request kapt classpath after =
      (ran.1, { ran.2 with compilation := after.compilation }) := by
  obtain ⟨⟨_, _, resolver, resolved, _⟩, _, _, _⟩ := after
  obtain ⟨⟨rfl, rfl, rfl⟩, rfl, rfl, rfl⟩ := untouched
  have ignored := ignoresHost_carryOut supplies request kapt classpath bench (resolver, resolved)
  unfold Bench.hosted at ignored
  rw [compilation_carryOut] at ignored
  exact ignored

-- What was resolved for the checks is what the advisories are about, whatever was staged meanwhile.
theorem carryOut_supplied {bench : Bench} {supplies : Supplies}
    (kept : bench.compilation.resolved = some supplies.archives) :
    carryOut request kapt classpath bench = supplies.carryOut request kapt classpath bench := by
  have same : carryOut request kapt classpath = prepare request >>= fun invocation =>
      get >>= fun prepared =>
      Run.raise (Composition.compose prepared.machine request classpath kapt) >>= fun composition =>
      Run.ask archives >>= fun archives =>
      ((advisories request archives composition).forM fun advisory =>
        Run.say ("logging: " ++ advisory)) >>= fun _ => conclude request (invocation, composition) :=
    rfl
  obtain ⟨machine, prepared⟩ := onlyMachine_prepare request bench
  rw [same, Supplies.carryOut, bind_apply, bind_apply]
  cases ready : prepare request bench with
  | mk result after =>
    rw [ready] at prepared
    cases prepared
    cases result with
    | error error => rfl
    | ok invocation =>
      dsimp only
      rw [bind_apply, bind_apply, get_apply]
      dsimp only
      rw [bind_apply, bind_apply, Run.raise]
      cases Composition.compose machine request classpath kapt with
      | error error => rfl
      | ok composition =>
        dsimp only
        rw [bind_apply, Run.ask, archives_kept kept]

/-- What the checks of a run come to, and when they ask for the archives. -/
theorem check_supplied (bench : Bench) :
    let request := bench.compilation.request
    (check bench).1 = (bench.compilation.supplies bench.machine).check request bench.machine ∧
      (request.Acceptable →
        (check bench).2.compilation.resolved = some (bench.compilation.archives bench.machine).1) ∧
      (¬request.Acceptable → (check bench).2.compilation = bench.compilation) := by
  intro request
  have asked := asked_kapt bench.compilation bench.machine
  unfold check Supplies.check
  rw [← kapt_supplied, ← classpath_supplied, ← asked.classpath]
  simp only [bind_apply, get_apply, Run.raise, Run.ask]
  cases sources : bench.compilation.request.sources.forM SourceFile.check with
  | error error => exact ⟨rfl, fun fine => (by cases sources.symm.trans fine.sources), fun _ => rfl⟩
  | ok _ =>
    cases bindings : ServiceBinding.checkAll bench.compilation.request.bindings with
    | error error =>
      exact ⟨rfl, fun fine => (by cases bindings.symm.trans fine.bindings), fun _ => rfl⟩
    | ok _ =>
      cases options : Composition.parsePluginOptions
          bench.compilation.request.options.pluginOptions with
      | error error =>
        refine ⟨rfl, fun fine => ?_, fun _ => rfl⟩
        obtain ⟨_, parsed⟩ := fine.pluginOptions
        cases options.symm.trans parsed
      | ok _ =>
        have fine : request.Acceptable := ⟨sources, bindings, _, options⟩
        -- from here on the archives are asked for, if only for the classpath
        have kept : ((bench.compilation.kapt bench.machine).2.classpath bench.machine).2.resolved =
            some (bench.compilation.archives bench.machine).1 := by
          rw [resolved_classpath, asked.archives]
        dsimp only
        cases answer : (bench.compilation.kapt bench.machine).1 with
        | error error =>
          refine ⟨rfl, fun _ => ?_, fun unacceptable => absurd fine unacceptable⟩
          by_cases services : bench.compilation.request.hasServices = true
          · exact resolved_kapt _ _ services
          · rw [kapt_idle _ _ services] at answer
            cases answer
        | ok kapt =>
          dsimp only
          cases ((bench.compilation.kapt bench.machine).2.classpath bench.machine).1.join with
          | error error => exact ⟨rfl, fun _ => kept, fun unacceptable => absurd fine unacceptable⟩
          | ok text => exact ⟨rfl, fun _ => kept, fun unacceptable => absurd fine unacceptable⟩

/-- A run is what its supplies make of it, and the compilation is left as the checks leave it. -/
theorem run_supplied (bench : Bench) :
    let ran := (bench.compilation.supplies bench.machine).run bench.compilation.request bench
    run bench = (ran.1, { ran.2 with compilation := (check bench).2.compilation }) := by
  have ⟨same, _, _⟩ := check_supplied bench
  have ⟨untouched, _⟩ := check_spec bench
  rw [run_eq, Supplies.run, bind_apply, get_apply]
  dsimp only
  rw [bind_apply, Run.raise, ← same]
  cases checked : check bench with
  | mk result after =>
    rw [checked] at untouched
    cases result with
    | error error => exact congrArg (Prod.mk (Except.error error)) untouched.compilation
    | ok certain =>
      obtain ⟨kapt, classpath⟩ := certain
      obtain ⟨compilation, rfl, _, kept⟩ := check_ok checked
      let supplies := bench.compilation.supplies bench.machine
      have carried : carryOut bench.compilation.request kapt classpath { bench with compilation } =
          supplies.carryOut bench.compilation.request kapt classpath { bench with compilation } :=
        carryOut_supplied kept
      exact carried.trans (carryOut_hosted supplies _ kapt classpath untouched)

end Run
end Compilation
end KotlinCompile
