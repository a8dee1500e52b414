import KotlinCompile.Proofs.Compiler.Limit
import KotlinCompile.Proofs.Compiler.Report

/-! A run on a stream with a limit. Advisories, the output of the compiler and warnings are written
in three ways, yet a limit cuts all of them alike: what is written without it is cut at its place,
the run fails there, and only if everything fits is the result the same. -/
namespace KotlinCompile.Compilation
open Fallible

/-- The same bench with room for so many bytes on its stream. -/
def Bench.limited (bench : Bench) (room : Nat) : Bench :=
  { bench with stream := bench.stream.limited room }

section Steps
variable {α β : Type} {step : Run α} {next : α → Run β} {bench middle after : Bench}
  {data more : Bytes} {a : α} {b : β}

/-- A step that goes through and writes some data where there is no limit. With one it goes through
in the same way if the data fits, and else it fails and leaves the front of the data. -/
structure Writes (step : Run α) (bench : Bench) (data : Bytes) (a : α) (after : Bench) : Prop where
  ended : step bench = (.ok a, after)
  stream : after.stream = bench.stream.extended data
  within : ∀ {room}, data.length ≤ room →
    step (bench.limited room) = (.ok a, after.limited (room - data.length))
  beyond : ∀ {room}, room < data.length → ∃ cause cut,
    step (bench.limited room) = (.error (.diagnostics cause), cut) ∧
      cut.stream.received = bench.stream.received ++ data.take room

namespace Writes

theorem pure (a : α) (bench : Bench) : Writes (Pure.pure a) bench [] a bench where
  ended := rfl
  stream := (Stream.extended_nil _).symm
  within _ := rfl
  beyond exceeds := absurd exceeds (Nat.not_lt_zero _)

theorem bind (first : Writes step bench data a middle)
    (second : Writes (next a) middle more b after) :
    Writes (step >>= next) bench (data ++ more) b after where
  ended := bind_apply_ok.mpr ⟨a, middle, first.ended, second.ended⟩
  stream := by rw [second.stream, first.stream, Stream.extended_extended]
  within := by
    intro room fits
    rw [List.length_append] at fits ⊢
    rw [bind_apply, first.within (by omega), Nat.sub_add_eq]
    exact second.within (by omega)
  beyond := by
    intro room exceeds
    rw [List.length_append] at exceeds
    -- the first step is not cut, or else the second one never begins
    by_cases fits : data.length ≤ room
    · have short : room - data.length < more.length := by omega
      obtain ⟨cause, cut, ended, received⟩ := second.beyond short
      refine ⟨cause, cut, ?_, ?_⟩
      · rw [bind_apply, first.within fits]
        exact ended
      · rw [received, first.stream, List.take_append, List.take_of_length_le fits]
        exact List.append_assoc _ _ _
    · obtain ⟨cause, cut, ended, received⟩ := first.beyond (Nat.not_le.mp fits)
      refine ⟨cause, cut, ?_, ?_⟩
      · rw [bind_apply, ended]
      · rw [received, List.take_append_of_le_length (by omega)]

theorem map (first : Writes step bench data a after) (f : α → β) :
    Writes (step >>= fun a => Pure.pure (f a)) bench data (f a) after := by
  have both : Writes (step >>= fun a => Pure.pure (f a)) bench (data ++ []) (f a) after :=
    first.bind (pure (f a) after)
  rw [List.append_nil] at both
  exact both

/-- What follows may look at the bench, but not at its stream. -/
theorem getThen {next : Bench → Run β} (same : ∀ room, next (bench.limited room) = next bench)
    (second : Writes (next bench) bench data b after) :
    Writes ((get : Run Bench) >>= next) bench data b after where
  ended := second.ended
  stream := second.stream
  within := by
    intro room fits
    rw [bind_apply, get_apply]
    dsimp only
    rw [same]
    exact second.within fits
  beyond := by
    intro room exceeds
    rw [bind_apply, get_apply]
    dsimp only
    rw [same]
    exact second.beyond exceeds

/-- What a limit makes of a step that goes through without one. -/
theorem limited (writes : Writes step bench data a after) (room : Nat) :
    let cut := step (bench.limited room)
    cut.2.stream.received = bench.stream.received ++ data.take room ∧
      (∀ other, cut.1 = .ok other ↔ data.length ≤ room ∧ other = a) ∧
      (room < data.length → ∃ cause, cut.1 = .error (.diagnostics cause)) := by
  intro cut
  by_cases fits : data.length ≤ room
  · have same : cut = _ := writes.within fits
    rw [same]
    refine ⟨?_, fun other => ?_, fun exceeds => absurd fits (Nat.not_le.mpr exceeds)⟩
    · rw [List.take_of_length_le fits]
      exact congrArg Stream.received writes.stream
    · constructor
      · rintro ⟨⟩
        exact ⟨fits, rfl⟩
      · rintro ⟨_, rfl⟩
        rfl
  · obtain ⟨cause, left, ended, received⟩ := writes.beyond (Nat.not_le.mp fits)
    have same : cut = _ := ended
    rw [same]
    exact ⟨received, fun other => ⟨nofun, fun ⟨all, _⟩ => absurd all fits⟩, fun _ => ⟨cause, rfl⟩⟩

end Writes

/-- A step that does the same on any stream and leaves it alone. -/
def LeavesStream (step : Run α) : Prop :=
  ∀ bench stream, step { bench with stream } = ((step bench).1, { (step bench).2 with stream })

theorem LeavesStream.writes (leaves : LeavesStream step) (ended : step bench = (.ok a, after)) :
    Writes step bench [] a after := by
  have on (stream : Stream) : step { bench with stream } = (.ok a, { after with stream }) := by
    rw [leaves, ended]
  have same : after.stream = bench.stream :=
    congrArg (·.2.stream) (ended.symm.trans (on bench.stream))
  refine ⟨ended, ?_, ?_, fun exceeds => absurd exceeds (Nat.not_lt_zero _)⟩
  · rw [same, Stream.extended_nil]
  · intro room _
    rw [Bench.limited, Bench.limited, same]
    exact on (bench.stream.limited room)

theorem leavesStream_ask (question : Compilation → Machine → α × Compilation) :
    LeavesStream (Run.ask question) := fun _ _ => rfl

theorem leavesStream_check : LeavesStream check := by
  unfold check
  refine ignores_getThen (fun _ _ => rfl) fun bench => ?_
  refine ignores_bind (ignores_raise _) fun sources => ?_
  refine ignores_bind (ignores_raise _) fun bindings => ?_
  refine ignores_bind (ignores_raise _) fun options => ?_
  refine ignores_bind (leavesStream_ask _) fun wiring => ?_
  refine ignores_bind (ignores_raise _) fun kapt => ?_
  refine ignores_bind (leavesStream_ask _) fun classpath => ?_
  exact ignores_bind (ignores_raise _) fun _ => ignores_pure _

theorem leavesStream_prepare (request : Request) : LeavesStream (prepare request) :=
  ignores_prepare (fun _ _ => by simp only [Run.stage]) fun _ _ _ => rfl

theorem writes_say_all (endless : bench.stream.room = none) (mark : String) (lines : List String) :
    Writes (lines.forM fun line => Run.say (mark ++ line)) bench (marked mark lines) ()
      { bench with stream := bench.stream.extended (marked mark lines) } where
  ended := by
    rw [say_all, Stream.write_unlimited endless]
    rfl
  stream := rfl
  within := by
    intro room fits
    rw [say_all, Bench.limited, Stream.write_limited_within fits]
    rfl
  beyond := by
    intro room exceeds
    rw [say_all, Bench.limited, Stream.write_limited_beyond exceeds]
    exact ⟨_, _, rfl, rfl⟩

theorem writes_call (endless : bench.stream.room = none)
    (stops : bench.compilation.backend.StopsAtRefusal) {arguments : List String} {exit : ExitCode}
    {messages : String}
    (called : Run.call ⟨.staged⟩ arguments bench = (.ok (exit, messages), after)) :
    ∃ data, Writes (Run.call ⟨.staged⟩ arguments) bench data (exit, messages) after := by
  obtain ⟨data, reached, cut⟩ :=
    @Writing.on_limited _ (stops arguments bench.machine) ⟨bench.stream, []⟩ endless
  obtain ⟨exits, same, left⟩ := call_ok called
  refine ⟨data, called, ?_, ?_, ?_⟩
  · rw [left]
    exact reached
  · intro room fits
    have on := (cut room).1 fits
    rw [Tee.limited] at on
    rw [call_staged, Bench.limited, on]
    dsimp only
    rw [exits, same, left]
    rfl
  · intro room exceeds
    obtain ⟨cause, machine, tee, on, received⟩ := (cut room).2 exceeds
    rw [Tee.limited] at on
    rw [call_staged, Bench.limited, on]
    exact ⟨cause, _, rfl, received⟩

end Steps

/-- A run up to the call of the compiler. -/
def announce (request : Request) : Run (Invocation × Composition) := do
  let (kapt, classpath) ← check
  let invocation ← prepare request
  let composition ← Run.raise (Composition.compose (← get).machine request classpath kapt)
  let archives ← Run.ask archives
  (advisories request archives composition).forM fun advisory => Run.say ("logging: " ++ advisory)
  return (invocation, composition)

/-- A run from the call of the compiler on. -/
def conclude (request : Request) (announced : Invocation × Composition) :
    Run CompilationResult := do
  let (exit, messages) ← Run.call announced.1 announced.2.arguments.commandLine
  let warnings := FailureRule.warnings (← get).compilation.rules
    ⟨exit, messages, request.options.inheritClasspath⟩
  warnings.forM fun warning => Run.say ("warning: " ++ warning)
  return ⟨exit, request.layout.classes, messages, warnings⟩

theorem ignores_conclude {γ : Type} {put : Bench → γ → Bench} {request : Request}
    {announced : Invocation × Composition}
    (calls : ∀ invocation arguments, Ignores put (Run.call invocation arguments))
    (speaks : ∀ mark lines, Ignores put ((lines : List String).forM fun line => Run.say (mark ++ line)))
    (rules : ∀ bench part, (put bench part).compilation.rules = bench.compilation.rules) :
    Ignores put (conclude request announced) := by
  unfold conclude
  refine ignores_bind (calls _ _) fun called => ?_
  refine ignores_getThen (fun bench part => by rw [rules]) fun bench => ?_
  exact ignores_bind (speaks _ _) fun _ => ignores_pure _

theorem run_eq_conclude (bench : Bench) :
    run bench =
      (announce bench.compilation.request >>= conclude bench.compilation.request) bench := by
  have same (request : Request) : (check >>= fun checked => carryOut request checked.1 checked.2) =
      announce request >>= conclude request := by
    simp only [announce, conclude, carryOut, bind_assoc, pure_bind]
  rw [run_eq, ← same, bind_apply]
  cases check bench with
  | mk result after => cases result <;> rfl

section Run
variable {bench checked prepared after : Bench} {request : Request} {kapt : Option Kapt.Wiring}
  {classpath : Classpath} {invocation : Invocation} {composition : Composition}
  {archives : ResolvedArchives} {result : CompilationResult}

theorem writes_announce (endless : bench.stream.room = none)
    (passed : check bench = (.ok (kapt, classpath), checked))
    (ready : prepare request checked = (.ok invocation, prepared))
    (composed : Composition.compose prepared.machine request classpath kapt = .ok composition)
    (kept : prepared.compilation.archives prepared.machine = (archives, prepared.compilation)) :
    let logged := marked "logging: " (advisories request archives composition)
    Writes (announce request) bench logged (invocation, composition)
      { prepared with stream := prepared.stream.extended logged } := by
  have checks := leavesStream_check.writes passed
  have prepares := (leavesStream_prepare request).writes ready
  have still : prepared.stream.room = none := by
    rw [prepares.stream, checks.stream]
    exact endless
  have composes : Writes (Run.raise (Composition.compose prepared.machine request classpath kapt))
      prepared [] composition prepared :=
    LeavesStream.writes (ignores_raise _) (by rw [composed]; rfl)
  have asks : Writes (Run.ask Compilation.archives) prepared [] archives prepared :=
    (leavesStream_ask _).writes (by rw [Run.ask, kept])
  have spoken := writes_say_all still "logging: " (advisories request archives composition)
  -- all but the last of the steps write nothing
  exact checks.bind (prepares.bind (Writes.getThen (fun _ => rfl)
    (composes.bind (asks.bind (spoken.map fun _ => (invocation, composition))))))

theorem writes_conclude (endless : bench.stream.room = none)
    (stops : bench.compilation.backend.StopsAtRefusal)
    (ended : conclude request (⟨.staged⟩, composition) bench = (.ok result, after)) :
    ∃ data, Writes (conclude request (⟨.staged⟩, composition)) bench data result after := by
  unfold conclude at ended
  obtain ⟨⟨exit, messages⟩, called, calls, rest⟩ := bind_apply_ok.mp ended
  obtain ⟨data, writes⟩ := writes_call endless stops calls
  have still : called.stream.room = none := by
    rw [writes.stream]
    exact endless
  have rest := get_bind_ok.mp rest
  let warnings := FailureRule.warnings called.compilation.rules
    ⟨exit, messages, request.options.inheritClasspath⟩
  have spoken := writes_say_all still "warning: " warnings
  obtain ⟨_, last, warns, done⟩ := bind_apply_ok.mp rest
  cases spoken.ended.symm.trans warns
  cases done
  have ends := spoken.map fun _ =>
    (⟨exit, request.layout.classes, messages, warnings⟩ : CompilationResult)
  exact ⟨_, writes.bind (Writes.getThen (fun _ => rfl) ends)⟩

-- What a part of the bench was before steps that leave it alone, it is after them.
theorem kept_bind {α β γ : Type} (part : Bench → γ) {step : Run α} {next : α → Run β}
    (quiet : ∀ a bench, part (next a bench).2 = part bench) (bench : Bench) :
    part ((step >>= next) bench).2 = part (step bench).2 := by
  rw [bind_apply]
  cases step bench with
  | mk answer after =>
    cases answer with
    | error error => rfl
    | ok a => exact quiet a after

theorem calls_say_all (mark : String) (lines : List String) (bench : Bench) :
    ((lines.forM fun line => Run.say (mark ++ line)) bench).2.calls = bench.calls := by
  rw [say_all]

theorem calls_announce (request : Request) (bench : Bench) :
    (announce request bench).2.calls = bench.calls := by
  have prepares (bench : Bench) : (prepare request bench).2.calls = bench.calls := by
    obtain ⟨machine, same⟩ := onlyMachine_prepare request bench
    rw [same]
  unfold announce
  refine (kept_bind (·.calls) (fun checked bench => ?_) bench).trans (check_spec bench).1.calls
  refine (kept_bind (·.calls) (fun invocation bench => ?_) bench).trans (prepares bench)
  refine (kept_bind (·.calls) (fun found bench => ?_) bench).trans rfl
  refine (kept_bind (·.calls) (fun composition bench => ?_) bench).trans rfl
  refine (kept_bind (·.calls) (fun archives bench => ?_) bench).trans rfl
  exact (kept_bind (·.calls) (fun _ _ => rfl) bench).trans (calls_say_all _ _ bench)

theorem calls_conclude (request : Request) (composition : Composition) (bench : Bench) :
    (conclude request (⟨.staged⟩, composition) bench).2.calls =
      bench.calls ++ [composition.arguments.commandLine] := by
  have calls : (Run.call ⟨.staged⟩ composition.arguments.commandLine bench).2.calls =
      bench.calls ++ [composition.arguments.commandLine] := by
    rw [call_staged]
  unfold conclude
  refine (kept_bind (·.calls) (fun called bench => ?_) bench).trans calls
  refine (kept_bind (·.calls) (fun found bench => ?_) bench).trans rfl
  exact (kept_bind (·.calls) (fun _ _ => rfl) bench).trans (calls_say_all _ _ bench)

theorem calls_limited {data : Bytes}
    (announces : Writes (announce request) bench data (⟨.staged⟩, composition) after) (room : Nat) :
    ((announce request >>= conclude request) (bench.limited room)).2.calls =
      if room < data.length then bench.calls
      else bench.calls ++ [composition.arguments.commandLine] := by
  rw [bind_apply]
  by_cases exceeds : room < data.length
  · obtain ⟨cause, cut, ended, _⟩ := announces.beyond exceeds
    have quiet := calls_announce request (bench.limited room)
    rw [ended] at quiet ⊢
    rw [if_pos exceeds]
    exact quiet
  · have quiet := calls_announce request bench
    rw [announces.ended] at quiet
    rw [announces.within (Nat.not_lt.mp exceeds), if_neg exceeds, ← quiet]
    exact calls_conclude request composition _

/-- A run that goes through writes the advisories up to the call of the compiler, and from there on
what the compiler writes and the warnings. -/
theorem run_writes (endless : bench.stream.room = none)
    (stops : bench.compilation.backend.StopsAtRefusal) (ended : run bench = (.ok result, after)) :
    let request := bench.compilation.request
    ∃ kapt classpath checked prepared composition called rest,
      check bench = (.ok (kapt, classpath), checked) ∧
      prepare request checked = (.ok ⟨.staged⟩, prepared) ∧
      Composition.compose prepared.machine request classpath kapt = .ok composition ∧
      Writes (announce request) bench (marked "logging: "
          (advisories request (bench.compilation.archives bench.machine).1 composition))
        (⟨.staged⟩, composition) called ∧
      Writes (conclude request (⟨.staged⟩, composition)) called rest result after := by
  intro request
  obtain ⟨kapt, classpath, compilation, passed, asked, kept, carried⟩ := run_ok ended
  obtain ⟨invocation, prepared, composition, ready, composed, _⟩ := carryOut_ok kept carried
  obtain ⟨rfl, machine, rfl⟩ := prepare_ok ready
  have announces := writes_announce endless passed ready composed (archives_kept kept machine)
  have concluded := ended
  rw [run_eq_conclude, bind_apply, announces.ended] at concluded
  have trusted : compilation.backend.StopsAtRefusal := asked.backend ▸ stops
  -- neither the checks nor the advisories change the room or the compiler
  obtain ⟨rest, concludes⟩ := writes_conclude (by exact endless) (by exact trusted) concluded
  exact ⟨kapt, classpath, _, _, composition, _, rest, passed, ready, composed, announces, concludes⟩

/-- What a run writes on a stream without a limit is cut by a limit at its place: as much arrives as
fits, and the result is the same if all fits and a diagnostics error otherwise. A limit that falls
into the advisories keeps the compiler from being called. -/
theorem run_cut_short (endless : bench.stream.room = none)
    (stops : bench.compilation.backend.StopsAtRefusal) (ended : (run bench).1 = .ok result) :
    let request := bench.compilation.request
    ∃ kapt classpath checked prepared composition written,
      check bench = (.ok (kapt, classpath), checked) ∧
      prepare request checked = (.ok ⟨.staged⟩, prepared) ∧
      Composition.compose prepared.machine request classpath kapt = .ok composition ∧
      let advised := marked "logging: "
        (advisories request (bench.compilation.archives bench.machine).1 composition)
      (run bench).2.stream.received = bench.stream.received ++ written ∧
      advised <+: written ∧
      ∀ room,
        let cut := run (bench.limited room)
        cut.2.stream.received = bench.stream.received ++ written.take room ∧
        (∀ other, cut.1 = .ok other ↔ written.length ≤ room ∧ other = result) ∧
        (room < written.length → ∃ cause, cut.1 = .error (.diagnostics cause)) ∧
        cut.2.calls = if room < advised.length then bench.calls
          else bench.calls ++ [composition.arguments.commandLine] := by
  intro request
  have whole : run bench = (.ok result, (run bench).2) := Prod.ext ended rfl
  obtain ⟨kapt, classpath, checked, prepared, composition, called, rest, passed, ready, composed,
    announces, concludes⟩ := run_writes endless stops whole
  have writes := announces.bind concludes
  refine ⟨kapt, classpath, checked, prepared, composition, marked "logging: " (advisories request
    (bench.compilation.archives bench.machine).1 composition) ++ rest, passed, ready, composed, ?_⟩
  intro advised
  have received := congrArg Stream.received writes.stream
  rw [Stream.extended_received] at received
  refine ⟨received, List.prefix_append advised rest, ?_⟩
  intro room cut
  have same : cut = _ := run_eq_conclude (bench.limited room)
  rw [same]
  have ⟨received, passes, fails⟩ := writes.limited room
  exact ⟨received, passes, fails, calls_limited announces room⟩

end Run

/-- A limit inside the first advisory, and one inside what the compiler writes. -/
theorem narrated_cut_short :
    let advised := marked "logging: " [searched .stdlib, Composition.withoutServices]
    ((∃ cause, (run (narrated.limited 10)).1 = .error (.diagnostics cause)) ∧
      (run (narrated.limited 10)).2.stream.received = Text.utf8 "logging: S" ∧
      (run (narrated.limited 10)).2.calls = []) ∧
    (∃ cause, (run (narrated.limited (advised.length + 3))).1 = .error (.diagnostics cause)) ∧
      (run (narrated.limited (advised.length + 3))).2.stream.received =
        advised ++ Text.utf8 "e: " ∧
      (run (narrated.limited (advised.length + 3))).2.calls.length = 1 := by
  intro advised
  obtain ⟨_, _, _, prepared, composition, written, _, _, composed, received, _, cut⟩ :=
    run_cut_short rfl (Backend.scripted_stopsAtRefusal _ _) run_narrated
  let rest := Text.utf8 "e: failed\nwarning: e: failed\n\n"
  have all : written = advised ++ rest := received.symm.trans (by decide +kernel)
  have said : advisories narrated.compilation.request
      (narrated.compilation.archives narrated.machine).1 composition =
        [searched .stdlib, Composition.withoutServices] := by
    rw [advisories, Composition.advisories_of_compose composed]
    decide +kernel
  have fresh : narrated.stream.received = [] ∧ narrated.calls = [] := ⟨rfl, rfl⟩
  have sizes : advised.length = 149 ∧ rest.length = 30 := by decide +kernel
  rw [said, all, fresh.1, fresh.2, List.length_append] at cut
  constructor
  · have ⟨front, _, fails, calls⟩ := cut 10
    refine ⟨fails (by omega), ?_, ?_⟩
    · rw [front, List.nil_append, List.take_append_of_le_length (by omega)]
      decide +kernel
    · exact calls.trans (if_pos (show 10 < advised.length by omega))
  · have ⟨front, _, fails, calls⟩ := cut (advised.length + 3)
    refine ⟨fails (by omega), ?_, ?_⟩
    · rw [front, List.nil_append, List.take_length_add_append]
      exact congrArg (advised ++ ·) (by decide +kernel)
    · rw [calls.trans (if_neg (show ¬ advised.length + 3 < advised.length by omega))]
      rfl

end KotlinCompile.Compilation

namespace KotlinCompile

namespace Stream

/-- The stream as it is when something was received before all that it holds. -/
def behind (stream : Stream) (before : Bytes) : Stream :=
  { stream with received := before ++ stream.received }

theorem write_behind (stream : Stream) (before data : Bytes) :
    (stream.behind before).write data =
      ((stream.write data).1, (stream.write data).2.behind before) := by
  obtain ⟨received, room, flushFails⟩ := stream
  cases room with
  | none => simp [write, behind]
  | some room => by_cases fits : data.length ≤ room <;> simp [write, behind, fits]

/-- Streams that are alike but for what they received stand behind one and the same. -/
theorem behind_received {stream base : Stream} (empty : base.received = [])
    (room : stream.room = base.room) (flush : stream.flushFails = base.flushFails) :
    stream = base.behind stream.received := by
  obtain ⟨received, _, _⟩ := stream
  obtain ⟨_, _, _⟩ := base
  cases empty
  cases room
  cases flush
  rw [behind, List.append_nil]

end Stream

def Tee.behind (tee : Tee) (before : Bytes) : Tee := { tee with sink := tee.sink.behind before }

theorem Tee.write_behind (tee : Tee) (before data : Bytes) :
    (tee.behind before).write data = ((tee.write data).1, (tee.write data).2.behind before) := by
  unfold write behind
  rw [Stream.write_behind]
  cases tee.sink.write data with
  | mk answer sink => cases answer <;> rfl

theorem Writing.on_behind {α : Type} (writing : Writing α) (tee : Tee) (before : Bytes) :
    writing.on (tee.behind before) = ((writing.on tee).1, (writing.on tee).2.behind before) := by
  induction writing generalizing tee with
  | finished result => rfl
  | write data next ih =>
    rw [on, on, Tee.write_behind]
    exact ih _ _
  | flush next ih => exact ih _ tee

namespace Compilation
open Fallible

def Bench.behind (bench : Bench) (before : Bytes) : Bench :=
  { bench with stream := bench.stream.behind before }

/-- A step that does the same whatever the stream received before. -/
def IgnoresReceived {α : Type} (step : Run α) : Prop :=
  ∀ bench before, step (bench.behind before) = ((step bench).1, (step bench).2.behind before)

section Steps

theorem LeavesStream.ignoresReceived {α : Type} {step : Run α} (leaves : LeavesStream step) :
    IgnoresReceived step := by
  intro bench before
  have still : (step bench).2.stream = bench.stream :=
    congrArg (·.2.stream) (leaves bench bench.stream)
  rw [Bench.behind, leaves, Bench.behind, still]

theorem ignoresReceived_say_all (mark : String) (lines : List String) :
    IgnoresReceived (lines.forM fun line => Run.say (mark ++ line)) := by
  intro bench before
  rw [say_all, say_all, Bench.behind, Stream.write_behind]
  rfl

theorem ignoresReceived_call (invocation : Invocation) (arguments : List String) :
    IgnoresReceived (Run.call invocation arguments) := by
  intro bench before
  obtain ⟨phase⟩ := invocation
  cases phase with
  | unstarted | running | completed => rfl
  | staged =>
    have on := (bench.compilation.backend arguments bench.machine).on_behind ⟨bench.stream, []⟩ before
    rw [Tee.behind] at on
    rw [call_staged, call_staged]
    dsimp only [Bench.behind] at on ⊢
    rw [on]
    rfl

end Steps

theorem ignoresReceived_announce (request : Request) : IgnoresReceived (announce request) := by
  unfold announce
  refine ignores_bind leavesStream_check.ignoresReceived fun checked => ?_
  refine ignores_bind (leavesStream_prepare request).ignoresReceived fun invocation => ?_
  refine ignores_getThen (fun _ _ => rfl) fun bench => ?_
  refine ignores_bind (ignores_raise _) fun composition => ?_
  refine ignores_bind (leavesStream_ask _).ignoresReceived fun archives => ?_
  exact ignores_bind (ignoresReceived_say_all _ _) fun _ => ignores_pure _

theorem ignoresReceived_conclude (request : Request) (announced : Invocation × Composition) :
    IgnoresReceived (conclude request announced) :=
  ignores_conclude ignoresReceived_call ignoresReceived_say_all (fun _ _ => rfl)

theorem run_behind : IgnoresReceived run := by
  intro bench before
  rw [run_eq_conclude, run_eq_conclude]
  exact ignores_bind (ignoresReceived_announce _) (ignoresReceived_conclude _) bench before

end Compilation
end KotlinCompile
