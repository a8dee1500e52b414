import KotlinCompile.Proofs.Compiler.Again
import KotlinCompile.Proofs.Text.Utf8

/-! The rules that a compilation has by default, on whatever bytes the compiler writes. They read
them as text, but it is the bytes that decide: the signature is ASCII, so no bytes around it hide it
and none look like it, and the copy of a tee does not show where one write ended and the next one
began. -/
namespace KotlinCompile
open Fallible

namespace FailureRule

theorem signature_ascii : ∀ c ∈ legacySignature.toList, c.toNat < 0x80 := by
  have each : legacySignature.toList.all (·.toNat < 0x80) = true := by decide +kernel
  simpa using each

theorem warned_iff (outcome : Outcome) : warnings defaults outcome ≠ [] ↔
    outcome.exit = .internalError ∧
      Text.hasRun legacySignature.toList outcome.diagnostics.toList = true := by
  simp [warnings, defaults, legacyToolsJar]

/-- The rules are shown the bytes that went through a tee, as one text. -/
theorem warned_iff_written {α : Type} (writing : Writing α) (stream : Stream) (exit : ExitCode)
    (inheritClasspath : Bool) :
    warnings defaults ⟨exit, (writing.on ⟨stream, []⟩).2.text, inheritClasspath⟩ ≠ [] ↔
      exit = .internalError ∧
        Text.utf8 legacySignature <:+: Piece.written (writing.pieces stream) := by
  have captured : (writing.on ⟨stream, []⟩).2.captured = Piece.written (writing.pieces stream) :=
    (writing.on_received ⟨stream, []⟩).2
  simp [warned_iff, Tee.text, captured, Text.hasRun_lossy signature_ascii]

end FailureRule

namespace Compilation

theorem Reaches.endless {bench ready : Bench} {composition : Composition}
    (reached : Reaches bench composition ready) (endless : bench.stream.room = none) :
    ready.stream.room = none := by
  obtain ⟨_, _, announces⟩ := reaches_iff.mp reached
  have room := Stream.write_endless endless (marked "logging: " (advisories
    bench.compilation.request (bench.compilation.archives bench.machine).1 composition))
  rwa [announces.said] at room

/-- Whatever is written through a tee, in whatever pieces, and however the compiler ends: the default
rules warn exactly if it ends with an internal error and the bytes that went through hold those of
the signature in one run. So does every run of a compilation with these rules that is over, by what
its compiler wrote; and where the stream takes everything, that is all the compiler gave it. -/
theorem warned_iff_signature :
    (∀ {α : Type} (writing : Writing α) (stream : Stream) (exit : ExitCode)
      (inheritClasspath : Bool),
      FailureRule.warnings FailureRule.defaults
          ⟨exit, (writing.on ⟨stream, []⟩).2.text, inheritClasspath⟩ ≠ [] ↔
        exit = .internalError ∧
          Text.utf8 FailureRule.legacySignature <:+: Piece.written (writing.pieces stream)) ∧
    ∀ {bench : Bench} {result : CompilationResult},
      bench.compilation.rules = FailureRule.defaults → (run bench).1 = .ok result →
      ∃ composition ready, Reaches bench composition ready ∧
        let pieces := (bench.compilation.backend composition.arguments.commandLine
          ready.machine).pieces ready.stream
        (result.warnings ≠ [] ↔ result.exit = .internalError ∧
          Text.utf8 FailureRule.legacySignature <:+: Piece.written pieces) ∧
        (bench.stream.room = none → Piece.written pieces = pieces.flatMap (·.data)) := by
  refine ⟨FailureRule.warned_iff_written, ?_⟩
  intro bench result standard ended
  obtain ⟨composition, ready, reached, concludes⟩ := reaches_of_ended (Prod.ext ended rfl)
  obtain ⟨_, _, announces⟩ := reaches_iff.mp reached
  have asked := announces.asked
  have rules : ready.compilation.rules = FailureRule.defaults := asked.rules.trans standard
  refine ⟨composition, ready, reached, ?_, ?_⟩
  · have reported := congrArg CompilationResult.warnings concludes.reported
    dsimp only at reported
    rw [reported, rules, answer, asked.backend]
    exact FailureRule.warned_iff_written ..
  · intro endless
    exact Piece.written_of_whole (Writing.pieces_whole _ (reached.endless endless))

/-- The signature in two writes, between the front of a character that does not go on and a byte
that begins none. -/
def torn : List Bytes :=
  let signature := Text.utf8 FailureRule.legacySignature
  [0xE2 :: 0x82 :: signature.take 30, signature.drop 30 ++ [0xFF]]

def tornBench : Bench where
  compilation :=
    { request :=
        { layout := ⟨⟨"/work"⟩⟩
          options := { jdkHome := some ⟨"/jdk"⟩, archives := .none, inheritClasspath := true } }
      backend := .scripted torn (.ok .internalError)
      resolver := .fixed [] }
  machine := ⟨.empty, [], []⟩
  stream := {}

theorem run_torn : (run tornBench).1 = .ok
    ⟨.internalError, ⟨"/work/classes"⟩, "\uFFFD" ++ FailureRule.legacySignature ++ "\uFFFD",
      [FailureRule.legacyWarning ++ FailureRule.inheritedWarning]⟩ :=
  toOption_eq_some.mp (by decide +kernel)

theorem torn_warned : ∃ result, (run tornBench).1 = .ok result ∧ result.warnings ≠ [] ∧
    result.exit = .internalError ∧ Text.utf8 FailureRule.legacySignature <:+: torn.flatten := by
  obtain ⟨composition, ready, reached, warned, _⟩ := warned_iff_signature.2 rfl run_torn
  refine ⟨_, run_torn, List.cons_ne_nil _ [], ?_⟩
  have written := Backend.scripted_written torn (.ok .internalError)
    composition.arguments.commandLine ready.machine (reached.endless rfl)
  rw [← written]
  exact warned.mp (List.cons_ne_nil _ [])

end Compilation
end KotlinCompile
