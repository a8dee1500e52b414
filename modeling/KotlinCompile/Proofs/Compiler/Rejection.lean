import KotlinCompile.Proofs.Compiler.Checks
import KotlinCompile.Proofs.Compiler.Invocation
import KotlinCompile.Proofs.Compiler.Watching

/-! A run that is rejected has touched nothing, and it is rejected for the first check that fails
and for nothing else: what is repeated of the checks once the machine is being written to cannot
fail any more. -/
namespace KotlinCompile
open Fallible

/-- An error that is not the fault of the request. -/
def BuildError.IsOperational (error : BuildError) : Prop := error.isConfiguration = false

/-- Work on the machine that may fail, but not through the fault of the request. -/
abbrev Operates {α : Type} (work : OnMachine BuildError α) : Prop :=
  FailsWithin (fun _ : Machine => True) BuildError.IsOperational work

section Machine
variable {α : Type}

theorem operates_io (path : Path) (work : OnMachine Cause α) :
    Operates (failingWith (.io path) work) := by
  intro machine _
  unfold failingWith
  cases ended : work.run machine with
  | mk result after =>
    cases result with
    | ok a => trivial
    | error cause => rfl

theorem operates_liftExcept {result : Except BuildError α} {a : α} (passed : result = .ok a) :
    Operates (liftExcept result) := by
  intro machine _
  rw [passed]
  trivial

-- The directory of a file is created first, if its path has one.
theorem operates_parent (parent : Option Path) {next : Unit → OnMachine BuildError α}
    (second : ∀ done, Operates (next done)) :
    Operates (match parent with
      | some parent => failingWith (.io parent) (Machine.createDirectories parent) >>= next
      | none => next ()) := by
  cases parent with
  | some parent => exact failsWithin_bind (operates_io parent _) second
  | none => exact second ()

end Machine

theorem SourceFile.stage_operates {source : SourceFile} (checked : source.check = .ok ())
    (directory : Path) : Operates (source.stage directory) := by
  unfold SourceFile.stage
  refine failsWithin_bind (operates_liftExcept checked) fun _ => ?_
  refine operates_parent _ fun _ => ?_
  exact failsWithin_bind (operates_io _ _) fun _ => failsWithin_pure _

theorem Invocation.stageSources_operates {request : Request}
    (checked : request.sources.forM SourceFile.check = .ok ()) :
    Operates (Invocation.stageSources request) := by
  unfold Invocation.stageSources
  refine failsWithin_bind (operates_io _ _) fun _ => failsWithin_mapM fun source member => ?_
  exact source.stage_operates (forM_eq_ok.mp checked source member) _

theorem ServiceBinding.package_operates {bindings : List ServiceBinding}
    (checked : ServiceBinding.checkAll bindings = .ok ()) (destination : Path) :
    Operates (ServiceBinding.package bindings destination) := by
  unfold ServiceBinding.package
  refine failsWithin_bind (operates_liftExcept checked) fun _ => ?_
  exact operates_parent _ fun _ => operates_io _ _

namespace Composition

theorem filesBelow_operational {machine : Machine} {depth : Nat} {directory : Path}
    {error : BuildError} (failed : filesBelow machine depth directory = .error error) :
    error.IsOperational := by
  induction depth generalizing directory with
  | zero => cases failed
  | succ depth ih =>
    rw [filesBelow] at failed
    rcases bind_eq_error.mp failed with listing | ⟨entries, _, failed⟩
    · cases listed : machine.list directory with
      | ok entries => rw [listed] at listing; cases listing
      | error cause => rw [listed] at listing; cases listing; rfl
    · rcases bind_eq_error.mp failed with within | ⟨files, _, done⟩
      · obtain ⟨entry, _, failed⟩ := mapM_error within
        split at failed
        · exact ih failed
        · cases failed
      · cases done

theorem stagedSources_operational {machine : Machine} {directory : Path} {error : BuildError}
    (failed : stagedSources machine directory = .error error) : error.IsOperational := by
  unfold stagedSources at failed
  split at failed
  · cases below : filesBelow machine (Tree.longestPath + 1) directory with
    | ok files => rw [below] at failed; cases failed
    | error cause => rw [below] at failed; cases failed; exact filesBelow_operational below
  · cases failed

theorem compose_operational {request : Request} {kapt : Option Kapt.Wiring}
    {classpath : Classpath} (checked : Compilation.Checked request kapt classpath)
    {machine : Machine} {error : BuildError}
    (failed : compose machine request classpath kapt = .error error) : error.IsOperational := by
  -- What is checked again is what passed before; the listing of the sources is all that can fail.
  obtain ⟨options, parsed⟩ := checked.pluginOptions
  obtain ⟨text, joined⟩ := checked.joined
  have wired : ∃ wiring, wiringFor request kapt = .ok wiring := by
    unfold wiringFor
    by_cases services : request.hasServices = true
    · obtain ⟨wiring, same⟩ := checked.wired services
      exact ⟨wiring, by rw [if_pos services, same]⟩
    · exact ⟨{}, if_neg services⟩
  obtain ⟨wiring, wired⟩ := wired
  rw [compose, parsed, wired, joined] at failed
  rcases bind_eq_error.mp failed with staged | ⟨sources, _, done⟩
  · exact stagedSources_operational staged
  · cases done

end Composition

/-- A compiler that does not itself find fault with a request. -/
def Backend.NeverRejects (backend : Backend) : Prop :=
  ∀ arguments machine tee error,
    ((backend arguments machine).on tee).1.1 = .error error → error.IsOperational

theorem Backend.scripted_neverRejects (output : List Bytes) {result : Except BuildError ExitCode}
    (operational : ∀ error, result = .error error → error.IsOperational) :
    (Backend.scripted output result).NeverRejects := by
  intro _ machine tee error failed
  unfold Backend.scripted at failed
  induction output generalizing tee with
  | nil => exact operational error failed
  | cons data rest ih =>
    rw [Backend.scripted.go, Writing.on] at failed
    cases written : tee.write data with
    | mk answer after =>
      rw [written] at failed
      cases answer with
      | ok _ => exact ih after failed
      | error cause =>
        cases failed
        rfl

-- The compiler as a process fails to start or to pass its output on, and in no other way.
theorem ProcessCompiler.backend_neverRejects (compiler : ProcessCompiler) (turns : List Bool) :
    (compiler.backend turns).NeverRejects := by
  intro arguments machine tee error failed
  unfold ProcessCompiler.backend at failed
  split at failed
  · cases failed
    rfl
  · rw [Watching.writing_on] at failed
    rcases run_forward_cases _ _ tee with ended | ⟨cause, ended⟩
    · rw [ended] at failed
      cases failed
    · rw [ended] at failed
      cases failed
      rfl

namespace Compilation

/-- A step of a run that may fail, but not through the fault of the request. -/
abbrev Proceeds {α : Type} (step : Run α) : Prop :=
  FailsWithin (fun bench : Bench => bench.compilation.backend.NeverRejects)
    BuildError.IsOperational step

section Steps
variable {α : Type}

theorem proceeds_get : Proceeds (get : Run Bench) := fun _ never => never

theorem proceeds_raise {result : Except BuildError α}
    (operational : ∀ error, result = .error error → error.IsOperational) :
    Proceeds (Run.raise result) := by
  intro bench never
  cases result with
  | ok a => exact never
  | error error => exact operational error rfl

theorem proceeds_onMachine {work : OnMachine BuildError α} (operates : Operates work) :
    Proceeds (Run.onMachine work) := by
  intro bench never
  have ends := operates bench.machine trivial
  unfold Run.onMachine
  cases ended : work.run bench.machine with
  | mk result machine =>
    have whole : work bench.machine = (result, machine) := ended
    rw [whole] at ends
    cases result with
    | ok a => exact never
    | error error => exact ends

theorem proceeds_ask {question : Compilation → Machine → α × Compilation}
    (keeps : ∀ compilation machine, (question compilation machine).2.backend = compilation.backend) :
    Proceeds (Run.ask question) := by
  intro bench never
  have kept : (question bench.compilation bench.machine).2.backend.NeverRejects := by
    rw [keeps]
    exact never
  exact kept

theorem proceeds_say (line : String) : Proceeds (Run.say line) := by
  intro bench never
  unfold Run.say
  cases written : bench.stream.write (Text.utf8 (line ++ "\n")) with
  | mk result stream =>
    cases result with
    | ok _ => exact never
    | error cause => rfl

theorem stage_operational {request : Request}
    (checked : request.sources.forM SourceFile.check = .ok ()) {invocation : Invocation}
    {machine : Machine} {error : BuildError}
    (failed : (invocation.stage request machine).1 = .error error) : error.IsOperational := by
  obtain ⟨phase⟩ := invocation
  by_cases unstarted : phase = .unstarted
  · subst unstarted
    rw [Invocation.stage_unstarted] at failed
    exact (Invocation.stageSources_operates checked).error trivial failed
  · rw [Invocation.stage_refused unstarted] at failed
    cases failed
    rfl

theorem proceeds_stage {request : Request}
    (checked : request.sources.forM SourceFile.check = .ok ()) : Proceeds (Run.stage request) := by
  intro bench never
  unfold Run.stage
  cases ended : Invocation.stage {} request bench.machine with
  | mk result rest =>
    cases result with
    | ok paths => exact never
    | error error => exact stage_operational checked (by rw [ended])

theorem execute_operational {backend : Backend} (never : backend.NeverRejects)
    {invocation : Invocation} {arguments : List String} {machine : Machine} {tee : Tee}
    {error : BuildError}
    (failed : (invocation.execute backend arguments machine tee).result = .error error) :
    error.IsOperational := by
  obtain ⟨phase⟩ := invocation
  by_cases staged : phase = .staged
  · subst staged
    rw [Invocation.execute_staged] at failed
    exact never arguments machine tee error failed
  · rw [Invocation.execute_refused staged] at failed
    cases failed
    rfl

theorem proceeds_call (invocation : Invocation) (arguments : List String) :
    Proceeds (Run.call invocation arguments) := by
  intro bench never
  unfold Run.call
  dsimp only
  cases ended : (invocation.execute bench.compilation.backend arguments bench.machine
      ⟨bench.stream, []⟩).result with
  | ok exit => exact never
  | error error => exact execute_operational never ended

end Steps

section Checked
variable {request : Request} {kapt : Option Kapt.Wiring} {classpath : Classpath}

theorem proceeds_prepare (checked : Checked request kapt classpath) :
    Proceeds (prepare request) := by
  unfold prepare
  refine failsWithin_bind (proceeds_stage checked.sources) fun invocation => ?_
  refine failsWithin_bind (proceeds_onMachine (operates_io _ _)) fun _ => ?_
  split
  · exact failsWithin_bind
      (proceeds_onMachine (ServiceBinding.package_operates checked.bindings _))
      fun _ => failsWithin_pure invocation
  · exact failsWithin_pure invocation

theorem proceeds_carryOut (checked : Checked request kapt classpath) :
    Proceeds (carryOut request kapt classpath) := by
  -- Step by step: each either leaves a bench with the same compiler or fails operationally.
  unfold carryOut
  refine failsWithin_bind (proceeds_prepare checked) fun invocation => ?_
  refine failsWithin_bind proceeds_get fun bench => ?_
  refine failsWithin_bind (proceeds_raise fun _ failed =>
    Composition.compose_operational checked failed) fun composition => ?_
  refine failsWithin_bind (proceeds_ask fun compilation machine =>
    (asked_archives compilation machine).backend) fun archives => ?_
  refine failsWithin_bind (failsWithin_forM fun _ _ => proceeds_say _) fun _ => ?_
  refine failsWithin_bind (proceeds_call _ _) fun called => ?_
  refine failsWithin_bind proceeds_get fun bench => ?_
  exact failsWithin_bind (failsWithin_forM fun _ _ => proceeds_say _) fun _ => failsWithin_pure _

end Checked

theorem run_eq (bench : Bench) :
    run bench = match check bench with
      | (.ok (kapt, classpath), after) =>
        carryOut bench.compilation.request kapt classpath after
      | (.error error, after) => (.error error, after) := by
  simp only [run, bind_apply, get_apply]
  cases check bench with
  | mk result after => cases result <;> rfl

theorem rejected_untouched {bench : Bench} {error : BuildError}
    (rejected : bench.compilation.rejection? bench.machine = some error) :
    (run bench).1 = .error error ∧ Untouched bench (run bench).2 := by
  have ⟨untouched, checks⟩ := check_spec bench
  rw [run_eq]
  cases checked : check bench with
  | mk result after =>
    rw [checked] at untouched checks
    cases result with
    | ok _ => rw [checks.1] at rejected; cases rejected
    | error found =>
      rw [checks] at rejected
      cases rejected
      exact ⟨rfl, untouched⟩

theorem accepted_operational {bench : Bench} (never : bench.compilation.backend.NeverRejects)
    (accepted : bench.compilation.rejection? bench.machine = none) {error : BuildError}
    (failed : (run bench).1 = .error error) : error.IsOperational := by
  have ⟨untouched, checks⟩ := check_spec bench
  rw [run_eq] at failed
  cases checked : check bench with
  | mk result after =>
    rw [checked] at untouched checks failed
    cases result with
    | error found => rw [accepted] at checks; cases checks
    | ok certain =>
      have trusted : after.compilation.backend.NeverRejects := untouched.task.backend ▸ never
      exact (proceeds_carryOut checks.2).error trusted failed

theorem repeated_checks_pass {bench : Bench} {kapt : Option Kapt.Wiring} {classpath : Classpath}
    (reached : (check bench).1 = .ok (kapt, classpath)) (machine : Machine) {error : BuildError}
    (failed : (∃ invocation : Invocation,
        (invocation.stage bench.compilation.request machine).1 = .error error) ∨
      (ServiceBinding.package bench.compilation.request.bindings
        bench.compilation.request.layout.servicesJar machine).1 = .error error ∨
      Composition.compose machine bench.compilation.request classpath kapt = .error error) :
    error.IsOperational := by
  have ⟨_, checks⟩ := check_spec bench
  rw [reached] at checks
  have checked := checks.2
  rcases failed with ⟨invocation, staging⟩ | packaging | composing
  · exact stage_operational checked.sources staging
  · exact (ServiceBinding.package_operates checked.bindings _).error trivial packaging
  · exact Composition.compose_operational checked composing

/-- A run reports a configuration error exactly if a check fails, and then it is the first of them
and nothing was touched. What is checked again later passes on any machine. -/
theorem rejection_exact (bench : Bench) (never : bench.compilation.backend.NeverRejects) :
    (∀ error, ((run bench).1 = .error error ∧ error.isConfiguration = true) ↔
      bench.compilation.rejection? bench.machine = some error) ∧
    (∀ error, (run bench).1 = .error error → error.isConfiguration = true →
      Untouched bench (run bench).2) ∧
    (∀ kapt classpath, (check bench).1 = .ok (kapt, classpath) →
      ∀ (machine : Machine) (error : BuildError),
        (∃ invocation : Invocation,
          (invocation.stage bench.compilation.request machine).1 = .error error) ∨
        (ServiceBinding.package bench.compilation.request.bindings
          bench.compilation.request.layout.servicesJar machine).1 = .error error ∨
        Composition.compose machine bench.compilation.request classpath kapt = .error error →
        error.isConfiguration = false) := by
  have found : ∀ error, (run bench).1 = .error error → error.isConfiguration = true →
      bench.compilation.rejection? bench.machine = some error := by
    intro error failed configuration
    cases rejected : bench.compilation.rejection? bench.machine with
    | none =>
      have operational := accepted_operational never rejected failed
      rw [BuildError.IsOperational, configuration] at operational
      cases operational
    | some first =>
      rw [(rejected_untouched rejected).1] at failed
      cases failed
      rfl
  refine ⟨fun error => ⟨fun ⟨failed, configuration⟩ => found error failed configuration,
    fun rejected => ⟨(rejected_untouched rejected).1, rejection_isConfiguration rejected⟩⟩, ?_, ?_⟩
  · intro error failed configuration
    exact (rejected_untouched (found error failed configuration)).2
  · intro kapt classpath reached machine error failed
    exact repeated_checks_pass reached machine failed

/-- Kapt is not among the archives, and an entry of the classpath cannot be joined. -/
def twiceRejected : Bench where
  compilation :=
    { request :=
        { layout := ⟨⟨"/work"⟩⟩
          sources := [⟨⟨"a.kt"⟩, ""⟩]
          services := [⟨"api.Plugin", "impl.First"⟩]
          options := { archives := .none, classpaths := [⟨"/lib:extra"⟩] } }
      backend := .scripted [] (.ok .ok)
      resolver := .fixed [] }
  machine := ⟨.empty, [], []⟩
  stream := {}

theorem first_rejection_reported :
    (run twiceRejected).1 = .error .missingKaptArchive ∧
      Untouched twiceRejected (run twiceRejected).2 := by
  have never : twiceRejected.compilation.backend.NeverRejects :=
    Backend.scripted_neverRejects [] (fun _ failed => by cases failed)
  have exact := rejection_exact twiceRejected never
  have failed := (exact.1 .missingKaptArchive).mpr (by decide +kernel)
  exact ⟨failed.1, exact.2.1 _ failed.1 failed.2⟩

end Compilation
end KotlinCompile
