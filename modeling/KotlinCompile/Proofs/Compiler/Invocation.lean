import KotlinCompile.Compiler.Compilation
import KotlinCompile.Proofs.Fallible

/-! The phases of an invocation over any calls that are made on it. A call that is made in its phase
takes the invocation to a later one, and any other call is refused and changes nothing. Between two
calls anything may happen outside, so each comes with the machine and the tee that it finds. -/
namespace KotlinCompile.Invocation

theorem stage_unstarted (request : Request) (machine : Machine) :
    stage ⟨.unstarted⟩ request machine =
      ((stageSources request machine).1, ⟨.staged⟩, (stageSources request machine).2) := rfl

theorem stage_refused {invocation : Invocation} (started : invocation.phase ≠ .unstarted)
    (request : Request) (machine : Machine) :
    invocation.stage request machine =
      (.error (.invalidState .unstarted invocation.phase), invocation, machine) := by
  unfold stage advance
  rw [if_neg started]

/-- How a compiler that was entered leaves the invocation. -/
def ending (result : Except BuildError ExitCode) : Invocation :=
  match result with
  | .ok _ => ⟨.completed⟩
  | .error _ => ⟨.running⟩

theorem execute_staged (backend : Backend) (arguments : List String) (machine : Machine)
    (tee : Tee) :
    execute ⟨.staged⟩ backend arguments machine tee =
      let ended := (backend arguments machine).on tee
      ⟨ended.1.1, ending ended.1.1, ended.1.2, ended.2, true⟩ := by
  cases called : (backend arguments machine).on tee with
  | mk ended after =>
    obtain ⟨result, left⟩ := ended
    simp only [execute, advance, if_true, called]
    cases result with
    | error error => rfl
    | ok exit => rfl

theorem execute_refused {invocation : Invocation} (unready : invocation.phase ≠ .staged)
    (backend : Backend) (arguments : List String) (machine : Machine) (tee : Tee) :
    invocation.execute backend arguments machine tee =
      ⟨.error (.invalidState .staged invocation.phase), invocation, machine, tee, false⟩ := by
  unfold execute advance
  rw [if_neg unready]

end KotlinCompile.Invocation

namespace KotlinCompile

inductive Call where
  | stage (request : Request) (machine : Machine)
  | execute (backend : Backend) (arguments : List String) (machine : Machine) (tee : Tee)

def Call.isExecute : Call → Bool
  | stage .. => false
  | execute .. => true

/-- What a call did. -/
inductive Event where
  | staged (result : Except BuildError (List Path)) (machine : Machine)
  | executed (called : Invocation.Called)

def Event.stagedAll : Event → Bool
  | staged (.ok _) _ => true
  | _ => false

def Event.enteredBackend : Event → Bool
  | staged .. => false
  | executed called => called.entered

/-- No compiler is entered before some staging went through. -/
def EntersOnlyStaged (events : List Event) : Prop :=
  ∀ before event after, events = before ++ event :: after → event.enteredBackend = true →
    ∃ earlier ∈ before, earlier.stagedAll = true

theorem EntersOnlyStaged.of_staged {event : Event} (staged : event.stagedAll = true)
    (events : List Event) : EntersOnlyStaged (event :: events) := by
  intro before entering after same entered
  rcases List.cons_eq_append_iff.mp same with ⟨_, first⟩ | ⟨others, atFront, _⟩
  · obtain ⟨rfl, _⟩ := List.cons.inj first
    cases entering with
    | staged result machine => cases entered
    | executed called => cases staged
  · exact ⟨event, atFront ▸ List.mem_cons_self, staged⟩

theorem entersOnlyStaged_cons {event : Event} (unstaged : event.stagedAll = false)
    (outside : event.enteredBackend = false) (events : List Event) :
    EntersOnlyStaged (event :: events) ↔ EntersOnlyStaged events := by
  constructor
  · intro only before entering after same entered
    obtain ⟨earlier, member, staged⟩ := only (event :: before) entering after (by rw [same]; rfl) entered
    rcases List.mem_cons.mp member with rfl | member
    · rw [unstaged] at staged
      cases staged
    · exact ⟨earlier, member, staged⟩
  · intro only before entering after same entered
    rcases List.cons_eq_append_iff.mp same with ⟨_, first⟩ | ⟨others, atFront, rest⟩
    · obtain ⟨rfl, _⟩ := List.cons.inj first
      rw [outside] at entered
      cases entered
    · obtain ⟨earlier, member, staged⟩ := only others entering after rest entered
      exact ⟨earlier, atFront ▸ List.mem_cons_of_mem event member, staged⟩

-- Where nothing is staged, no compiler may be entered at all.
theorem entersOnlyStaged_of_unstaged {events : List Event}
    (unstaged : ∀ event ∈ events, event.stagedAll = false) :
    EntersOnlyStaged events ↔ ∀ event ∈ events, event.enteredBackend = false := by
  induction events with
  | nil => exact ⟨fun _ _ member => absurd member List.not_mem_nil,
      fun _ before _ after same => by cases before <;> cases same⟩
  | cons event rest ih =>
    have ⟨first, others⟩ := List.forall_mem_cons.mp unstaged
    rw [List.forall_mem_cons]
    cases outside : event.enteredBackend with
    | false =>
      rw [entersOnlyStaged_cons first outside, ih others]
      exact (and_iff_right rfl).symm
    | true =>
      refine ⟨fun only => ?_, fun ⟨never, _⟩ => by cases never⟩
      obtain ⟨earlier, member, _⟩ := only [] event rest rfl outside
      cases member

namespace Invocation

def perform (invocation : Invocation) : Call → Event × Invocation
  | .stage request machine =>
    let (result, invocation, machine) := invocation.stage request machine
    (.staged result machine, invocation)
  | .execute backend arguments machine tee =>
    let called := invocation.execute backend arguments machine tee
    (.executed called, called.invocation)

/-- What the calls did one after the other. -/
def events (invocation : Invocation) : List Call → List Event
  | [] => []
  | call :: rest => (invocation.perform call).1 :: (invocation.perform call).2.events rest

-- An invocation that was once staged, well or badly, stages nothing more.
theorem perform_started {invocation : Invocation} (started : invocation.phase ≠ .unstarted)
    (call : Call) :
    (invocation.perform call).1.stagedAll = false ∧
      (invocation.perform call).2.phase ≠ .unstarted := by
  cases call with
  | stage request machine =>
    rw [perform, stage_refused started]
    exact ⟨rfl, started⟩
  | execute backend arguments machine tee =>
    refine ⟨rfl, ?_⟩
    obtain ⟨phase⟩ := invocation
    by_cases staged : phase = .staged
    · subst staged
      rw [perform, execute_staged]
      unfold ending
      dsimp only
      split <;> exact Phase.noConfusion
    · rw [perform, execute_refused staged]
      exact started

theorem events_unstaged {invocation : Invocation} (started : invocation.phase ≠ .unstarted)
    (calls : List Call) : ∀ event ∈ invocation.events calls, event.stagedAll = false := by
  induction calls generalizing invocation with
  | nil => exact fun _ member => absurd member List.not_mem_nil
  | cons call rest ih =>
    have ⟨unstaged, kept⟩ := perform_started started call
    rw [events, List.forall_mem_cons]
    exact ⟨unstaged, ih kept⟩

-- A staged invocation enters the compiler at the first call that asks for it.
theorem events_outside (calls : List Call) :
    (∀ event ∈ events ⟨.staged⟩ calls, event.enteredBackend = false) ↔
      ∀ call ∈ calls, call.isExecute = false := by
  induction calls with
  | nil => exact ⟨fun _ _ member => absurd member List.not_mem_nil,
      fun _ _ member => absurd member List.not_mem_nil⟩
  | cons call rest ih =>
    rw [events, List.forall_mem_cons, List.forall_mem_cons]
    cases call with
    | stage request machine =>
      rw [perform, stage_refused (by decide), ih]
      rfl
    | execute backend arguments machine tee =>
      rw [perform, execute_staged]
      exact ⟨fun ⟨entered, _⟩ => (by cases entered), fun ⟨never, _⟩ => (by cases never)⟩

/-- How the first staging ended, and the calls behind it. -/
def firstStaging? : List Call → Option (Except BuildError (List Path) × List Call)
  | [] => none
  | .stage request machine :: rest => some ((stage {} request machine).1, rest)
  | .execute .. :: rest => firstStaging? rest

/-- The compiler is kept from sources that were not all staged exactly if nobody calls it after the
first staging failed: the phase is advanced before the sources are written, so it tells nothing
about them. -/
theorem enters_only_staged_iff (calls : List Call) :
    EntersOnlyStaged (events {} calls) ↔
      ∀ error rest, firstStaging? calls = some (.error error, rest) →
        ∀ call ∈ rest, call.isExecute = false := by
  induction calls with
  | nil =>
    refine ⟨fun _ error rest found => (by cases found), fun _ before event after same => ?_⟩
    cases before <;> cases same
  | cons call rest ih =>
    cases call with
    | execute backend arguments machine tee =>
      rw [events, perform, execute_refused (by decide)]
      exact (entersOnlyStaged_cons rfl rfl _).trans ih
    | stage request machine =>
      rw [events, perform, stage_unstarted, firstStaging?, stage_unstarted]
      dsimp only
      -- The phase is past the first whatever came of the staging, so no later call stages anything
      -- and the result of this one decides.
      cases (stageSources request machine).1 with
      | ok paths =>
        exact ⟨fun _ error rest found => (by cases found), fun _ => .of_staged rfl _⟩
      | error failure =>
        rw [entersOnlyStaged_cons rfl rfl,
          entersOnlyStaged_of_unstaged (events_unstaged (by decide) rest), events_outside]
        constructor
        · intro none error behind found
          cases found
          exact none
        · intro only
          exact only failure rest rfl

theorem entered_after_failure {request : Request} {machine : Machine} {error : BuildError}
    (failed : (stage {} request machine).1 = .error error) (backend : Backend)
    (arguments : List String) (found : Machine) (tee : Tee) :
    ¬ EntersOnlyStaged
      (events {} [.stage request machine, .execute backend arguments found tee]) := by
  rw [stage_unstarted] at failed
  rw [events, perform, stage_unstarted, events, perform, execute_staged, events]
  intro only
  obtain ⟨earlier, member, staged⟩ := only [_] _ [] rfl rfl
  rw [List.mem_singleton.mp member] at staged
  dsimp only at failed staged
  rw [failed] at staged
  cases staged

/-- The second source needs a directory where the first one is a file. -/
def blocked : Request where
  layout := ⟨⟨"/work"⟩⟩
  sources := [⟨⟨"a"⟩, "x"⟩, ⟨⟨"a/b"⟩, "x"⟩]

def bare : Machine := ⟨.empty, [], []⟩

theorem half_staged_entered :
    (stage {} blocked bare).1 = .error (.io ⟨"/work/sources/a"⟩ .alreadyExists) ∧
    ¬ EntersOnlyStaged (events {} [.stage blocked bare,
      .execute (.scripted [Text.utf8 "hi\n"] (.ok .ok)) ["-d", "x"] (stage {} blocked bare).2.2
        ⟨{}, []⟩]) := by
  have failed : (stage {} blocked bare).1 = .error (.io ⟨"/work/sources/a"⟩ .alreadyExists) :=
    Fallible.fault_eq_some.mp (by decide +kernel)
  exact ⟨failed, entered_after_failure failed _ _ _ _⟩

end Invocation

/-- How far along a phase is. -/
def Phase.rank : Phase → Nat
  | unstarted => 0
  | staged => 1
  | running => 2
  | completed => 3

/-- The phase that a call has to be made in. -/
def Call.expected : Call → Phase
  | stage .. => .unstarted
  | execute .. => .staged

/-- A call in its place: the invocation that it finds, what it does, and the one that it leaves. -/
structure Made where
  before : Invocation
  call : Call
  event : Event
  after : Invocation

namespace Made

/-- The call fails for the phase that it finds, and leaves all that it was given as it was. -/
def Refused (made : Made) : Prop :=
  made.after = made.before ∧
    let error := .invalidState made.call.expected made.before.phase
    made.event = match made.call with
      | .stage _ machine => .staged (.error error) machine
      | .execute _ _ machine tee => .executed ⟨.error error, made.before, machine, tee, false⟩

/-- A staging that does not leave every machine as it is, or whose answer hangs on what it finds. -/
def TouchesDisk (made : Made) : Prop :=
  match made.call with
  | .stage request _ =>
    ¬ ∃ answer after, ∀ machine, made.before.stage request machine = (answer, after, machine)
  | .execute .. => False

def EntersBackend (made : Made) : Prop := made.event.enteredBackend = true

/-- The compiler was entered and returned an error. -/
def BackendFailed (made : Made) : Prop :=
  ∃ called error, made.event = .executed called ∧ called.entered = true ∧
    called.result = .error error

end Made

namespace Invocation

def made (invocation : Invocation) (call : Call) : Made :=
  ⟨invocation, call, (invocation.perform call).1, (invocation.perform call).2⟩

/-- The calls in their places, one after the other. -/
def history (invocation : Invocation) : List Call → List Made
  | [] => []
  | call :: rest => invocation.made call :: (invocation.perform call).2.history rest

theorem made_refused {invocation : Invocation} {call : Call}
    (unexpected : invocation.phase ≠ call.expected) : (invocation.made call).Refused := by
  cases call with
  | stage request machine =>
    simp only [Made.Refused, made, perform, stage_refused unexpected, Call.expected, and_self]
  | execute backend arguments machine tee =>
    simp only [Made.Refused, made, perform, execute_refused unexpected, Call.expected, and_self]

theorem rank_ending (result : Except BuildError ExitCode) :
    Phase.staged.rank < (ending result).phase.rank := by
  cases result with
  | ok exit => exact Nat.lt_succ_of_lt (Nat.lt_succ_self _)
  | error error => exact Nat.lt_succ_self _

-- A call made in its phase never leaves the invocation there, whatever comes of its work.
theorem perform_advances {invocation : Invocation} {call : Call}
    (expected : invocation.phase = call.expected) :
    invocation.phase.rank < (invocation.perform call).2.phase.rank := by
  obtain ⟨phase⟩ := invocation
  cases call with
  | stage request machine =>
    cases expected
    rw [perform, stage_unstarted]
    exact Nat.lt_succ_self _
  | execute backend arguments machine tee =>
    cases expected
    rw [perform, execute_staged]
    exact rank_ending _

theorem perform_rank (invocation : Invocation) (call : Call) :
    invocation.phase.rank ≤ (invocation.perform call).2.phase.rank := by
  by_cases expected : invocation.phase = call.expected
  · exact Nat.le_of_lt (perform_advances expected)
  · have unchanged : (invocation.perform call).2 = invocation := (made_refused expected).1
    exact Nat.le_of_eq (congrArg (·.phase.rank) unchanged.symm)

theorem touchesDisk_expected {invocation : Invocation} {call : Call}
    (touches : (invocation.made call).TouchesDisk) :
    call.expected = .unstarted ∧ invocation.phase = .unstarted := by
  cases call with
  | execute backend arguments machine tee => exact touches.elim
  | stage request machine =>
    refine ⟨rfl, Decidable.byContradiction fun started => ?_⟩
    exact touches ⟨_, invocation, fun found => stage_refused started request found⟩

theorem entersBackend_expected {invocation : Invocation} {call : Call}
    (enters : (invocation.made call).EntersBackend) :
    call.expected = .staged ∧ invocation.phase = .staged := by
  cases call with
  | stage request machine => cases enters
  | execute backend arguments machine tee =>
    refine ⟨rfl, Decidable.byContradiction fun unready => ?_⟩
    rw [Made.EntersBackend, made, perform, execute_refused unready] at enters
    cases enters

theorem backendFailed_running {invocation : Invocation} {call : Call}
    (failed : (invocation.made call).BackendFailed) :
    (invocation.perform call).2.phase = .running := by
  obtain ⟨called, error, event, entered, result⟩ := failed
  have enters : (invocation.made call).EntersBackend := by
    rw [Made.EntersBackend, event]
    exact entered
  have ready := (entersBackend_expected enters).2
  obtain ⟨phase⟩ := invocation
  cases ready
  cases call with
  | stage request machine => cases event
  | execute backend arguments machine tee =>
    rw [made, perform, execute_staged] at event
    cases event
    rw [perform, execute_staged]
    dsimp only at result ⊢
    rw [result]
    rfl

/-- What holds of every call by itself holds throughout a history. -/
theorem history_forall {P : Made → Prop} (each : ∀ invocation call, P (made invocation call))
    (invocation : Invocation) (calls : List Call) : ∀ made ∈ invocation.history calls, P made := by
  induction calls generalizing invocation with
  | nil => exact fun _ member => absurd member List.not_mem_nil
  | cons call rest ih =>
    rw [history, List.forall_mem_cons]
    exact ⟨each invocation call, ih _⟩

/-- What every call settles for the calls behind it holds of every two calls of a history. -/
theorem history_pairwise {R : Made → Made → Prop}
    (settles : ∀ (invocation : Invocation) call rest,
      ∀ later ∈ (invocation.perform call).2.history rest, R (invocation.made call) later)
    (invocation : Invocation) (calls : List Call) : (invocation.history calls).Pairwise R := by
  induction calls generalizing invocation with
  | nil => exact .nil
  | cons call rest ih => exact .cons (settles invocation call rest) (ih _)

theorem history_rank (invocation : Invocation) (calls : List Call) :
    ∀ made ∈ invocation.history calls, invocation.phase.rank ≤ made.before.phase.rank := by
  induction calls generalizing invocation with
  | nil => exact fun _ member => absurd member List.not_mem_nil
  | cons call rest ih =>
    rw [history, List.forall_mem_cons]
    exact ⟨Nat.le_refl _, fun later member =>
      Nat.le_trans (perform_rank invocation call) (ih _ later member)⟩

-- A call in its phase uses that phase up: no call behind it finds the same one.
theorem history_used {invocation : Invocation} {call : Call}
    (expected : invocation.phase = call.expected) {rest : List Call} {later : Made}
    (member : later ∈ (invocation.perform call).2.history rest) :
    later.before.phase ≠ call.expected := by
  intro again
  have advanced := perform_advances expected
  have reached := history_rank _ rest later member
  rw [again, ← expected] at reached
  omega

-- Nothing leads on from a running invocation, since no call expects it to be running.
theorem history_running {invocation : Invocation} (running : invocation.phase = .running)
    (calls : List Call) :
    ∀ made ∈ invocation.history calls, made.Refused ∧ made.after.phase = .running := by
  induction calls with
  | nil => exact fun _ member => absurd member List.not_mem_nil
  | cons call rest ih =>
    have unexpected : invocation.phase ≠ call.expected := by
      rw [running]
      cases call <;> exact Phase.noConfusion
    have refused := made_refused unexpected
    have unchanged : (invocation.perform call).2 = invocation := refused.1
    rw [history, List.forall_mem_cons, unchanged]
    exact ⟨⟨refused, (congrArg phase unchanged).trans running⟩, ih⟩

-- What only calls in one phase can do is done once: the first of two such calls uses the phase up.
theorem history_once {P : Made → Prop} {phase : Phase}
    (only : ∀ invocation call, P (made invocation call) →
      call.expected = phase ∧ invocation.phase = phase)
    (invocation : Invocation) (calls : List Call) :
    (invocation.history calls).Pairwise fun earlier later => ¬(P earlier ∧ P later) := by
  have found := history_forall (P := fun made => P made → made.before.phase = phase)
    fun invocation call holds => (only invocation call holds).2
  apply history_pairwise
  rintro invocation call rest later member ⟨earlier, again⟩
  have ⟨expected, before⟩ := only invocation call earlier
  have same := found _ rest later member again
  exact history_used (before.trans expected.symm) member (same.trans expected.symm)

theorem phases_ascending (invocation : Invocation) (calls : List Call) :
    (invocation.phase.rank :: (invocation.history calls).map (·.after.phase.rank)).Pairwise
      (· ≤ ·) := by
  induction calls generalizing invocation with
  | nil => simp [history]
  | cons call rest ih =>
    rw [history, List.map_cons]
    have step := perform_rank invocation call
    have others := ih (invocation.perform call).2
    refine .cons (List.forall_mem_cons.mpr ⟨step, fun rank member => ?_⟩) others
    exact Nat.le_trans step ((List.pairwise_cons.mp others).1 rank member)

/-- Whatever calls are made on an invocation: its phases never go back, at most one staging touches
the disk, at most one call enters the compiler, a call in its phase leads on from it while any other
is refused and changes nothing, and once a compiler has failed the invocation stays running and
refuses every call. -/
theorem history_in_order (invocation : Invocation) (calls : List Call) :
    let history := invocation.history calls
    (invocation.phase.rank :: history.map (·.after.phase.rank)).Pairwise (· ≤ ·) ∧
    (history.Pairwise fun earlier later => ¬(earlier.TouchesDisk ∧ later.TouchesDisk)) ∧
    (history.Pairwise fun earlier later => ¬(earlier.EntersBackend ∧ later.EntersBackend)) ∧
    (∀ made ∈ history, made.before.phase = made.call.expected →
      made.before.phase.rank < made.after.phase.rank) ∧
    (∀ made ∈ history, made.before.phase ≠ made.call.expected → made.Refused) ∧
    (∀ made ∈ history, made.BackendFailed → made.after.phase = .running) ∧
    (history.Pairwise fun earlier later => earlier.BackendFailed →
      later.Refused ∧ later.after.phase = .running) := by
  refine ⟨phases_ascending invocation calls, ?_, ?_, ?_, ?_, ?_, ?_⟩
  · exact history_once (fun _ _ touches => touchesDisk_expected touches) invocation calls
  · exact history_once (fun _ _ enters => entersBackend_expected enters) invocation calls
  · exact history_forall (fun _ _ expected => perform_advances expected) invocation calls
  · exact history_forall (fun _ _ unexpected => made_refused unexpected) invocation calls
  · exact history_forall (fun _ _ failed => backendFailed_running failed) invocation calls
  · apply history_pairwise
    intro invocation call rest later member failed
    exact history_running (backendFailed_running failed) rest later member

end Invocation
end KotlinCompile
