import KotlinCompile.Proofs.Archive.Located
import KotlinCompile.Proofs.Compiler.Supplied

/-! A compilation that is used in any way and in any order while the machine changes. Its archives
are resolved for the first use that needs them, and every later use goes by the same archives until
the compilation is given another host classpath. -/
namespace KotlinCompile
open Compilation

theorem ResolvedArchives.resolve_undiscovered {selections : ArchiveSelections}
    (given : ∀ archive, selections.of archive ≠ .discover) (machine : Machine)
    (locate other : Archive → Option Path) (jdkHome : Option Path) :
    resolve machine selections locate jdkHome = resolve machine selections other jdkHome := by
  have same : place? machine selections locate jdkHome = place? machine selections other jdkHome := by
    funext archive
    unfold place?
    cases selection : selections.of archive with
    | discover => exact absurd selection (given archive)
    | use path => rfl
    | skip => rfl
  unfold resolve
  rw [same]

namespace Compilation

theorem given_of_not_asksHost {compilation : Compilation} (never : compilation.asksHost ≠ true)
    (archive : Archive) : compilation.request.options.archives.of archive ≠ .discover := by
  intro discovered
  exact never (List.any_eq_true.mpr ⟨archive, archive.mem_all, beq_iff_eq.mpr discovered⟩)

/-- Archives that are not resolved yet are resolved on the machine of the moment, where the resolver
locates them then. -/
theorem archives_unresolved {compilation : Compilation} (unresolved : compilation.resolved = none)
    (machine : Machine) : (compilation.archives machine).1 =
      ResolvedArchives.resolve machine compilation.request.options.archives
        (compilation.resolver.locating machine).1 compilation.request.options.jdkHome := by
  rw [archives_answer, unresolved, Option.getD_none, locating]
  split
  · rfl
  · next never =>
    exact ResolvedArchives.resolve_undiscovered (given_of_not_asksHost never) machine _ _ _

end Compilation

structure Session where
  compilation : Compilation
  machine : Machine

namespace Session

/-- What a compilation is used for; a run comes with the stream for its diagnostics. -/
inductive Use where
  | archives
  | classpath
  | kapt
  | compose
  | run (stream : Stream)

/-- Whether a use comes to a point where it needs the archives. Without services there is nothing to
wire, and a run may be rejected before. -/
def Use.Needs (request : Request) : Use → Prop
  | .archives | .classpath | .compose => True
  | .kapt => request.hasServices = true
  | .run _ => request.Acceptable

/-- What a use gives back; a run also leaves its marks on the machine and on the stream. -/
inductive Answer where
  | archives (archives : ResolvedArchives)
  | classpath (classpath : Classpath)
  | kapt (wiring : Except BuildError (Option Kapt.Wiring))
  | composition (composition : Except BuildError Composition)
  | ran (result : Except BuildError CompilationResult) (machine : Machine) (stream : Stream)
      (calls : List (List String))

def Answer.ofRun (ran : Except BuildError CompilationResult × Bench) : Answer :=
  .ran ran.1 ran.2.machine ran.2.stream ran.2.calls

variable (session : Session)

def bench (stream : Stream) : Bench := ⟨session.compilation, session.machine, stream, []⟩

def perform : Use → Answer × Session
  | .archives =>
    let (archives, compilation) := session.compilation.archives session.machine
    (.archives archives, { session with compilation })
  | .classpath =>
    let (classpath, compilation) := session.compilation.classpath session.machine
    (.classpath classpath, { session with compilation })
  | .kapt =>
    let (wiring, compilation) := session.compilation.kapt session.machine
    (.kapt wiring, { session with compilation })
  | .compose =>
    let (composition, compilation) := session.compilation.compose session.machine
    (.composition composition, { session with compilation })
  | .run stream =>
    let ran := Compilation.run (session.bench stream)
    (.ofRun ran, ⟨ran.2.compilation, ran.2.machine⟩)

/-- What a use gives back where the compilation is supplied with these archives and this host
classpath, and has neither a host nor archives of its own. -/
def answerFrom (supplies : Supplies) : Use → Answer
  | .archives => .archives supplies.archives
  | .classpath => .classpath (supplies.classpath session.compilation.request session.machine)
  | .kapt => .kapt (supplies.kapt session.compilation.request)
  | .compose => .composition (supplies.compose session.compilation.request session.machine)
  | .run stream =>
    let bare := (session.bench stream).hosted (.fixed [], none)
    .ofRun (supplies.run session.compilation.request bare)

/-- A use that goes by certain archives, whatever the compilation keeps and would find now. -/
def GoesBy (archives : ResolvedArchives) (use : Use) : Prop :=
  (session.perform use).1 =
    session.answerFrom ⟨archives, session.compilation.inherited session.machine⟩ use

/-- What one use does: it goes by the archives that are kept or else found at that moment, and keeps
them if it needs any. The request stays what it is. -/
structure Performs (use : Use) : Prop where
  goesBy : session.GoesBy (session.compilation.archives session.machine).1 use
  request : (session.perform use).2.compilation.request = session.compilation.request
  needed : use.Needs session.compilation.request →
    (session.perform use).2.compilation.resolved =
      some (session.compilation.archives session.machine).1
  idle : ¬use.Needs session.compilation.request →
    (session.perform use).2.compilation = session.compilation

theorem performs (use : Use) : session.Performs use := by
  obtain ⟨compilation, machine⟩ := session
  cases use with
  | archives =>
    exact ⟨rfl, (asked_archives compilation machine).request,
      fun _ => archives_resolved compilation machine, fun idle => absurd trivial idle⟩
  | classpath =>
    exact ⟨congrArg Answer.classpath (classpath_supplied compilation machine),
      (asked_classpath compilation machine).request,
      fun _ => resolved_classpath compilation machine, fun idle => absurd trivial idle⟩
  | kapt =>
    exact ⟨congrArg Answer.kapt (kapt_supplied compilation machine),
      (asked_kapt compilation machine).request, resolved_kapt compilation machine,
      fun idle => congrArg Prod.snd (kapt_idle compilation machine idle)⟩
  | compose =>
    exact ⟨congrArg Answer.composition (compose_supplied compilation machine),
      (asked_compose compilation machine).request,
      fun _ => resolved_compose compilation machine, fun idle => absurd trivial idle⟩
  | run stream =>
    let bench : Bench := ⟨compilation, machine, stream, []⟩
    have ran := run_supplied bench
    have left : (Compilation.run bench).2.compilation = (check bench).2.compilation := by rw [ran]
    have ⟨untouched, _⟩ := check_spec bench
    have ⟨_, needed, idle⟩ := check_supplied bench
    refine ⟨?_, ?_, fun needs => ?_, fun needless => ?_⟩
    · have bare := ignoresHost_run (compilation.supplies machine) compilation.request bench
        (.fixed [], none)
      exact (congrArg Answer.ofRun ran).trans (congrArg Answer.ofRun bare).symm
    · exact (congrArg Compilation.request left).trans untouched.task.request
    · exact (congrArg Compilation.resolved left).trans (needed needs)
    · exact left.trans (idle needless)

theorem performs_kept {archives : ResolvedArchives}
    (kept : session.compilation.resolved = some archives) (use : Use) :
    session.GoesBy archives use ∧ (session.perform use).2.compilation.resolved = some archives := by
  have same : (session.compilation.archives session.machine).1 = archives := by
    rw [archives_kept kept]
  have performs := session.performs use
  refine ⟨same ▸ performs.goesBy, ?_⟩
  by_cases needs : use.Needs session.compilation.request
  · rw [performs.needed needs, same]
  · rw [performs.idle needs, kept]

-- A use that does not need the archives would give back the same with any of them.
theorem answerFrom_idle {use : Use} (idle : ¬use.Needs session.compilation.request)
    (supplies other : Supplies) : session.answerFrom supplies use = session.answerFrom other use := by
  cases use with
  | archives | classpath | compose => exact absurd trivial idle
  | kapt =>
    have none (supplies : Supplies) : supplies.kapt session.compilation.request = .ok none :=
      if_neg idle
    rw [answerFrom, answerFrom, none, none]
  | run stream =>
    obtain ⟨error, rejected⟩ := Supplies.check_unacceptable idle session.machine
    have ends (supplies : Supplies) : ∀ bare : Bench, bare.machine = session.machine →
        supplies.run session.compilation.request bare = (.error error, bare) := by
      rintro bare machine
      rw [Supplies.run, Fallible.bind_apply, get_apply]
      dsimp only
      rw [machine, rejected]
      rfl
    rw [answerFrom, answerFrom, ends _ _ rfl, ends _ _ rfl]

/-- What may happen to a compilation: it is used, the machine becomes another one, or the host
classpath is replaced. -/
inductive Occasion where
  | use (use : Use)
  | change (machine : Machine)
  | replace (resolver : Resolver)

def after : Occasion → Session
  | .use use => (session.perform use).2
  | .change machine => { session with machine }
  | .replace resolver => { session with compilation := session.compilation.withResolver resolver }

def afterAll (occasions : List Occasion) : Session := occasions.foldl after session

def Occasion.KeepsHost : Occasion → Prop
  | .replace _ => False
  | _ => True

def Occasion.Idle (request : Request) : Occasion → Prop
  | .use wanted => ¬wanted.Needs request
  | .change _ => True
  | .replace _ => False

theorem afterAll_idle {session : Session} {occasions : List Occasion}
    (idle : ∀ occasion ∈ occasions, occasion.Idle session.compilation.request) :
    (session.afterAll occasions).compilation = session.compilation := by
  induction occasions generalizing session with
  | nil => rfl
  | cons occasion rest ih =>
    have ⟨first, others⟩ := List.forall_mem_cons.mp idle
    have still : (session.after occasion).compilation = session.compilation := by
      cases occasion with
      | use use => exact (session.performs use).idle first
      | change machine => rfl
      | replace resolver => exact first.elim
    rw [← still] at others
    exact (ih others).trans still

theorem afterAll_kept {session : Session} {archives : ResolvedArchives} {occasions : List Occasion}
    (kept : session.compilation.resolved = some archives)
    (keeps : ∀ occasion ∈ occasions, occasion.KeepsHost) :
    (session.afterAll occasions).compilation.resolved = some archives := by
  induction occasions generalizing session with
  | nil => exact kept
  | cons occasion rest ih =>
    have ⟨first, others⟩ := List.forall_mem_cons.mp keeps
    refine ih ?_ others
    cases occasion with
    | use use => exact (session.performs_kept kept use).2
    | change machine => exact kept
    | replace resolver => exact first.elim

/-- The archives are resolved once, against this resolver: for the first use that needs them, on the
machine as it is then. That use goes by them, and so do all later ones; and those before it would
give back the same with any. -/
structure ResolvesOnce (session : Session) (resolver : Resolver) : Prop where
  before : ∀ earlier use archives,
    (∀ occasion ∈ earlier, occasion.Idle session.compilation.request) →
    ¬use.Needs session.compilation.request → (session.afterAll earlier).GoesBy archives use
  once : ∀ earlier first between later,
    (∀ occasion ∈ earlier, occasion.Idle session.compilation.request) →
    first.Needs session.compilation.request → (∀ occasion ∈ between, occasion.KeepsHost) →
    let reached := session.afterAll earlier
    let options := session.compilation.request.options
    let archives := ResolvedArchives.resolve reached.machine options.archives
      (resolver.locating reached.machine).1 options.jdkHome
    reached.GoesBy archives first ∧
      ((reached.after (.use first)).afterAll between).GoesBy archives later

theorem resolvesOnce_of_unresolved (unresolved : session.compilation.resolved = none) :
    session.ResolvesOnce session.compilation.resolver where
  before := by
    intro earlier use archives idle needless
    have still := afterAll_idle idle
    rw [← still] at needless
    rw [GoesBy, ((session.afterAll earlier).performs use).goesBy]
    exact (session.afterAll earlier).answerFrom_idle needless _ _
  once := by
    intro earlier first between later idle needs keeps reached options archives
    have still : reached.compilation = session.compilation := afterAll_idle idle
    have resolved : (reached.compilation.archives reached.machine).1 = archives := by
      rw [still]
      exact archives_unresolved unresolved reached.machine
    have performs := reached.performs first
    have kept : (reached.after (.use first)).compilation.resolved = some archives :=
      (performs.needed (still ▸ needs)).trans (congrArg some resolved)
    refine ⟨resolved ▸ performs.goesBy, ?_⟩
    exact (performs_kept _ (afterAll_kept kept keeps) later).1

/-- A compilation resolves its archives once, and once more after every replacement of its host
classpath, then against the new one only. -/
theorem resolves_once (request : Request) (backend : Backend) (rules : List FailureRule)
    (resolver : Resolver) (machine : Machine) :
    let made : Session := ⟨{ request, backend, resolver, rules }, machine⟩
    made.ResolvesOnce resolver ∧ ∀ occasions other,
      (made.afterAll (occasions ++ [.replace other])).ResolvesOnce other := by
  intro made
  refine ⟨made.resolvesOnce_of_unresolved rfl, fun occasions other => ?_⟩
  rw [afterAll, List.foldl_append]
  exact resolvesOnce_of_unresolved _ rfl

def Answer.kaptArchives? : Answer → Option (List Path)
  | .kapt (.ok (some wiring)) => some wiring.classpath
  | _ => none

def Answer.received? : Answer → Option Bytes
  | .ran (.ok _) _ stream _ => some stream.received
  | _ => none

/-- One archive in a Kotlin home, and one that a variable names. -/
def stocked : Machine :=
  ⟨⟨[(["kotlin"], .directory), (["kotlin", "lib"], .directory),
    (["kotlin", "lib", "kotlin-annotation-processing.jar"], .file (.bytes []) false),
    (["kotlin-stdlib.jar"], .file (.bytes []) false)]⟩, [], [("CLASSPATH", "/kotlin-stdlib.jar")]⟩

def emptied : Machine := ⟨.empty, [], []⟩

/-- A request with services that looks for the standard library and the archives of kapt. -/
def searching : Request where
  layout := ⟨⟨"/work"⟩⟩
  services := [⟨"api.Plugin", "impl.First"⟩]
  options :=
    { jdkHome := some ⟨"/jdk"⟩
      archives :=
        { stdlibCommon := .skip, stdlibJdk := .skip, reflect := .skip, scriptRuntime := .skip } }

/-- Archives that are gone when they are used are still on the classpath and in the wiring of kapt, and
no run says that they are missing, unless the host classpath was replaced, if only by one that lists
the same. -/
theorem emptied_still_supplied :
    let host : Resolver := .host { home := some ⟨"/kotlin"⟩ }
    let made : Session :=
      ⟨{ request := searching, backend := .scripted [] (.ok .ok), resolver := host }, stocked⟩
    let kept := made.afterAll [.use .archives, .change emptied]
    let replaced := made.afterAll [.use .archives, .change emptied, .replace host]
    (kept.perform .classpath).1 = .classpath ⟨[⟨"/kotlin-stdlib.jar"⟩]⟩ ∧
    (kept.perform .kapt).1.kaptArchives? =
      some [⟨"/kotlin/lib/kotlin-annotation-processing.jar"⟩] ∧
    (kept.perform (.run {})).1.received? =
      some (Compilation.marked "logging: " [Compilation.searched .tools]) ∧
    (replaced.perform .classpath).1 = .classpath ⟨[]⟩ ∧
    (replaced.perform .kapt).1 = .kapt (.error .missingKaptArchive) := by
  intro host made kept replaced
  obtain ⟨once, anew⟩ := resolves_once made.compilation.request made.compilation.backend
    made.compilation.rules host stocked
  have still (use : Use) := (once.once [] .archives [.change emptied] use
    (fun _ member => absurd member List.not_mem_nil) trivial
    (fun _ member => List.mem_singleton.mp member ▸ trivial)).2
  have again (use : Use) (needs : use.Needs searching) :=
    ((anew [.use .archives, .change emptied] host).once [] use [] use
      (fun _ member => absurd member List.not_mem_nil) needs
      (fun _ member => absurd member List.not_mem_nil)).1
  refine ⟨?_, ?_, ?_, ?_, ?_⟩
  · exact (still .classpath).trans (congrArg Answer.classpath (by decide +kernel))
  · exact (congrArg Answer.kaptArchives? (still .kapt)).trans (by decide +kernel)
  · exact (congrArg Answer.received? (still (.run {}))).trans (by decide +kernel)
  · exact (again .classpath trivial).trans (congrArg Answer.classpath (by decide +kernel))
  · exact (again .kapt (show searching.hasServices = true by decide)).trans
      (congrArg Answer.kapt (by decide +kernel))

end Session
end KotlinCompile
