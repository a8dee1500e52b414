import KotlinCompile.Proofs.Compiler.Steps
import KotlinCompile.Proofs.Composition

/-! What a run that reaches its end leaves on the stream, and what it reports. The advisories before
the call of the compiler and the warnings behind it go to the stream alone; only what the compiler
itself writes passes through the tee and is shown to the rules. -/
namespace KotlinCompile.Compilation
open Fallible

/-- The archives that are wanted and were not found, in the order of the catalog; those for
annotation processing only where there are services. -/
def unfound (compilation : Compilation) (machine : Machine) : List Archive :=
  Archive.all.filter fun archive =>
    compilation.request.options.archives.of archive != .skip &&
      ((compilation.archives machine).1.found archive).isNone &&
      (archive.onClasspath || compilation.request.hasServices)

/-- A quiet request has no advisories; otherwise those about archives come first. -/
theorem advisories_eq {compilation : Compilation} {classpath : Classpath}
    {kapt : Option Kapt.Wiring} (settled : compilation.Settled)
    (machine : Machine) {later : Machine} {composition : Composition}
    (composed : Composition.compose later compilation.request classpath kapt = .ok composition) :
    advisories compilation.request (compilation.archives machine).1 composition =
      if compilation.request.options.verbose then
        (compilation.unfound machine).map searched ++ composition.advisories
      else [] := by
  unfold advisories unfound
  split
  · rw [settled.missing, List.filter_filter]
    simp only [Bool.and_comm]
  · next quiet =>
    rw [Composition.advisories_of_compose composed, Composition.advisoriesFor, if_neg quiet]
    rfl

/-- A run that reaches its end leaves on the stream, one after the other: where the request is
verbose, a line for each archive that was looked for in vain, of which those for annotation
processing count only with services, and one for each advisory of the composition; what the compiler
wrote on its arguments and the machine as they were prepared, and behind that the front of a write
which the stream refused, if the compiler got over it; and a line for each warning. The exit is the
compiler's, the messages are what it wrote and nothing else, and the warnings are what the rules
answer to these two in their order. -/
theorem run_output {bench : Bench} {result : CompilationResult} (settled : bench.compilation.Settled)
    (ended : (run bench).1 = .ok result) :
    let request := bench.compilation.request
    let options := request.options
    ∃ kapt classpath checked invocation prepared composition,
      check bench = (.ok (kapt, classpath), checked) ∧
      prepare request checked = (.ok invocation, prepared) ∧
      Composition.compose prepared.machine request classpath kapt = .ok composition ∧
      let logged := marked "logging: " (if options.verbose then
        (bench.compilation.unfound bench.machine).map searched ++ composition.advisories else [])
      let writing := bench.compilation.backend composition.arguments.commandLine prepared.machine
      let stream := (bench.stream.write logged).2
      let pieces := writing.pieces stream
      (run bench).2.stream.received = bench.stream.received ++ logged ++ Piece.written pieces ++
        Piece.cut pieces ++ marked "warning: " result.warnings ∧
      (bench.stream.room = none → ∀ piece ∈ pieces, piece.isWhole = true) ∧
      (writing.on ⟨stream, []⟩).1.1 = .ok result.exit ∧
      result.messages = Text.lossy (Piece.written pieces) ∧
      (result.warnings = bench.compilation.rules.filterMap fun rule =>
        rule ⟨result.exit, result.messages, options.inheritClasspath⟩) ∧
      (run bench).2.compilation.Settled := by
  cases whole : run bench with
  | mk answer after =>
    rw [whole] at ended
    cases ended
    obtain ⟨kapt, classpath, compilation, passed, asked, kept, carried⟩ := run_ok whole
    obtain ⟨invocation, prepared, composition, ready, composed, logs, exits, messages, warnings,
      warned, same⟩ := carryOut_ok kept carried
    have advised := advisories_eq settled bench.machine composed
    dsimp only at logs exits messages warnings warned same
    rw [advised] at logs exits messages warned
    rw [asked.backend] at exits messages warned
    rw [asked.rules] at warnings
    refine ⟨kapt, classpath, _, invocation, prepared, composition, passed, ready, composed, ?_⟩
    intro logged writing stream pieces
    refine ⟨writing.received_between logs warned, ?_, exits, ?_, warnings, ?_⟩
    · intro endless
      exact writing.pieces_whole (Stream.write_endless endless logged)
    · rw [messages]
      exact congrArg Text.lossy (writing.on_received _).2
    · rw [same]
      exact asked.settled settled

/-- A verbose run without services, whose compiler does not succeed; of the archives that are not
there, the one for annotation processing does not count. -/
def narrated : Bench where
  compilation :=
    { request :=
        { layout := ⟨⟨"/work"⟩⟩
          options :=
            { jdkHome := some ⟨"/jdk"⟩
              archives := { ArchiveSelections.none with stdlib := .discover, kapt := .discover } } }
      backend := .scripted [Text.utf8 "e: failed\n"] (.ok .compilationError)
      resolver := .fixed []
      rules := [FailureRule.legacyToolsJar, fun outcome => some outcome.diagnostics] }
  machine := ⟨.empty, [], []⟩
  stream := {}

theorem run_narrated : (run narrated).1 = .ok
    ⟨.compilationError, ⟨"/work/classes"⟩, "e: failed\n", ["e: failed\n"]⟩ :=
  toOption_eq_some.mp (by decide +kernel)

theorem narrated_output :
    (run narrated).1 = .ok
      ⟨.compilationError, ⟨"/work/classes"⟩, "e: failed\n", ["e: failed\n"]⟩ ∧
    (run narrated).2.stream.received =
      marked "logging: " [searched .stdlib, Composition.withoutServices] ++
        Text.utf8 "e: failed\n" ++ marked "warning: " ["e: failed\n"] := by
  have settled : narrated.compilation.Settled := settled_of_unresolved rfl
  obtain ⟨_, _, _, _, prepared, composition, _, _, composed, received, whole, _⟩ :=
    run_output settled run_narrated
  have unfound : narrated.compilation.unfound narrated.machine = [.stdlib] := by
    decide +kernel
  have written (logged : Bytes) := Backend.scripted_written [Text.utf8 "e: failed\n"]
    (.ok .compilationError) composition.arguments.commandLine prepared.machine
    (Stream.write_endless rfl logged : (narrated.stream.write logged).2.room = none)
  refine ⟨run_narrated, received.trans ?_⟩
  rw [Piece.cut_of_whole (whole rfl), unfound, Composition.advisories_of_compose composed,
    List.append_nil]
  exact congrArg₂ (· ++ ·) (congrArg₂ (· ++ ·) rfl (written _)) rfl

/-- A quiet run on a stream with room for five bytes, whose compiler pays no heed to whether what it
writes is taken. -/
def heedless : Bench where
  compilation :=
    { request := { layout := ⟨⟨"/work"⟩⟩, options := { verbose := false, archives := .none } }
      backend := fun _ machine =>
        .write (Text.utf8 "hello world") fun _ => .finished (.ok .ok, machine)
      resolver := .fixed []
      rules := [] }
  machine := ⟨.empty, [], []⟩
  stream := { room := some 5 }

/-- What the stream takes of a write that it refuses is in no message. -/
theorem heedless_output :
    (run heedless).1 = .ok ⟨.ok, ⟨"/work/classes"⟩, "", []⟩ ∧
    (run heedless).2.stream.received = Text.utf8 "hello" := by
  constructor
  · exact toOption_eq_some.mp (by decide +kernel)
  · decide +kernel

end KotlinCompile.Compilation
