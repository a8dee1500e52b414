import KotlinCompile.Compiler.Process
import KotlinCompile.Proofs.Compiler.Watching
import KotlinCompile.Proofs.Text.Line
import Mathlib.Logic.Relation

/-! What a compiler that runs as a process leaves on the stream that it is forwarded to. Its two
readers send their lines over one channel, so the lines come whole and in some interleaving, and
each interleaving may come about. A line that breaks off at the end of one stream is passed on as it
is. -/
namespace KotlinCompile
variable {α : Type}

/-- The third list is the other two, item by item from the front of one or the other. -/
inductive Interleaved : List α → List α → List α → Prop
  | nil : Interleaved [] [] []
  | first {x : α} {xs ys zs : List α} (later : Interleaved xs ys zs) :
    Interleaved (x :: xs) ys (x :: zs)
  | second {y : α} {xs ys zs : List α} (later : Interleaved xs ys zs) :
    Interleaved xs (y :: ys) (y :: zs)

namespace Interleaved
variable {xs ys zs : List α}

theorem only_second (ys : List α) : Interleaved [] ys ys := by
  induction ys with
  | nil => exact nil
  | cons y rest ih => exact ih.second

theorem append (xs ys : List α) : Interleaved xs ys (xs ++ ys) := by
  induction xs with
  | nil => exact only_second ys
  | cons x rest ih => exact ih.first

theorem symm (merge : Interleaved xs ys zs) : Interleaved ys xs zs := by
  induction merge with
  | nil => exact nil
  | first later ih => exact ih.second
  | second later ih => exact ih.first

theorem eq_second (merge : Interleaved xs ys zs) (empty : xs = []) : zs = ys := by
  induction merge with
  | nil => rfl
  | first later ih => cases empty
  | second later ih => rw [ih empty]

theorem perm (merge : Interleaved xs ys zs) : zs.Perm (xs ++ ys) := by
  induction merge with
  | nil => exact List.Perm.refl []
  | first later ih => exact ih.cons _
  | second later ih => exact (ih.cons _).trans List.perm_middle.symm

end Interleaved

namespace ProcessCompiler

theorem merged_interleaved (turns : List Bool) (first second : List Bytes) :
    Interleaved first second (merged turns first second) := by
  induction turns generalizing first second with
  | nil => exact Interleaved.append first second
  | cons turn rest ih =>
    cases turn with
    | true =>
      cases first with
      | nil => exact ih [] second
      | cons line others => exact (ih others second).first
    | false =>
      cases second with
      | nil => exact ih first []
      | cons line others => exact (ih first others).second

theorem exists_turns {first second lines : List Bytes} (merge : Interleaved first second lines) :
    ∃ turns, merged turns first second = lines := by
  induction merge with
  | nil => exact ⟨[], rfl⟩
  | first later ih =>
    obtain ⟨turns, same⟩ := ih
    exact ⟨true :: turns, congrArg (_ :: ·) same⟩
  | second later ih =>
    obtain ⟨turns, same⟩ := ih
    exact ⟨false :: turns, congrArg (_ :: ·) same⟩

end ProcessCompiler
open ProcessCompiler Relation

/-- What the readers have not read yet, the lines that are on their way, and those received. -/
structure Channel where
  stdout : Bytes
  stderr : Bytes
  sent : List Bytes
  received : List Bytes

namespace Channel

inductive Step : Channel → Channel → Prop
  | sendStdout {stdout stderr line rest : Bytes} {sent received : List Bytes}
      (read : Text.Reads Byte.lineFeed stdout line rest) :
    Step ⟨stdout, stderr, sent, received⟩ ⟨rest, stderr, sent ++ [line], received⟩
  | sendStderr {stdout stderr line rest : Bytes} {sent received : List Bytes}
      (read : Text.Reads Byte.lineFeed stderr line rest) :
    Step ⟨stdout, stderr, sent, received⟩ ⟨stdout, rest, sent ++ [line], received⟩
  | receive {stdout stderr line : Bytes} {sent received : List Bytes} :
    Step ⟨stdout, stderr, line :: sent, received⟩ ⟨stdout, stderr, sent, received ++ [line]⟩

/-- Both streams were read to their ends, and every line that was sent is received. -/
def Delivers (stdout stderr : Bytes) (lines : List Bytes) : Prop :=
  ReflTransGen Step ⟨stdout, stderr, [], []⟩ ⟨[], [], [], lines⟩

/-- What is received, what is on its way and any merge of what is still to be read make up, in this
order, an interleaving of all lines. -/
def Merges (first second : List Bytes) (channel : Channel) : Prop :=
  ∀ later, Interleaved (linesOf channel.stdout) (linesOf channel.stderr) later →
    Interleaved first second (channel.received ++ channel.sent ++ later)

theorem merges_step {first second : List Bytes} {channel next : Channel} (step : Step channel next)
    (merges : Merges first second channel) : Merges first second next := by
  intro later merge
  cases step with
  | sendStdout read =>
    have whole := merges _ (read.pieces ▸ merge.first)
    simpa using whole
  | sendStderr read =>
    have whole := merges _ (read.pieces ▸ merge.second)
    simpa using whole
  | receive => simpa using merges later merge

theorem merges_steps {first second : List Bytes} {channel next : Channel}
    (steps : ReflTransGen Step channel next) (merges : Merges first second channel) :
    Merges first second next := by
  induction steps with
  | refl => exact merges
  | tail _ step ih => exact merges_step step ih

theorem delivers_of_interleaved {first second lines : List Bytes}
    (merge : Interleaved first second lines) {stdout stderr : Bytes}
    (cutStdout : Text.CutThrough Byte.lineFeed stdout first)
    (cutStderr : Text.CutThrough Byte.lineFeed stderr second) (received : List Bytes) :
    ReflTransGen Step ⟨stdout, stderr, [], received⟩ ⟨[], [], [], received ++ lines⟩ := by
  induction merge generalizing stdout stderr received with
  | nil =>
    cases cutStdout
    cases cutStderr
    rw [List.append_nil]
  | @first line _ _ lines _ ih =>
    cases cutStdout with
    | cons read others =>
      have rest := ih others cutStderr (received ++ [line])
      rw [List.append_assoc, List.singleton_append] at rest
      exact .head (.sendStdout read) (.head .receive rest)
  | @second line _ _ lines _ ih =>
    cases cutStderr with
    | cons read others =>
      have rest := ih cutStdout others (received ++ [line])
      rw [List.append_assoc, List.singleton_append] at rest
      exact .head (.sendStderr read) (.head .receive rest)

/-- The lines are delivered in the orders that interleave those of the two streams. -/
theorem delivers_iff {stdout stderr : Bytes} {lines : List Bytes} :
    Delivers stdout stderr lines ↔ Interleaved (linesOf stdout) (linesOf stderr) lines := by
  constructor
  · intro delivered
    have start : Merges (linesOf stdout) (linesOf stderr) ⟨stdout, stderr, [], []⟩ :=
      fun _ merge => merge
    simpa using merges_steps delivered start [] .nil
  · intro merge
    have steps := delivers_of_interleaved merge (Text.cutThrough_iff.mpr rfl)
      (Text.cutThrough_iff.mpr rfl) []
    exact steps

/-- The turns stand for the orders in which lines are delivered. -/
theorem delivers_iff_merged {stdout stderr : Bytes} {lines : List Bytes} :
    Delivers stdout stderr lines ↔
      ∃ turns, merged turns (linesOf stdout) (linesOf stderr) = lines := by
  rw [delivers_iff]
  constructor
  · exact exists_turns
  · rintro ⟨turns, rfl⟩
    exact merged_interleaved turns _ _

end Channel
end KotlinCompile

namespace KotlinCompile.ProcessCompiler

section Forwarding
variable {compiler : ProcessCompiler} {arguments : List String} {machine after : Machine}
  {ended : Ended}

theorem backend_started
    (ran : (Machine.run compiler.program (compiler.leading ++ arguments.map Text.utf8)).run machine =
      (.ok ended, after)) (turns : List Bool) :
    compiler.backend turns arguments machine =
      (forward (merged turns (linesOf ended.stdout) (linesOf ended.stderr))).writing
        ended.status after := by
  rw [backend, ran]

/-- What is received in addition on a stream that refuses nothing. -/
theorem received_forward {chunks : List Bytes} {status : Option Int} {tee : Tee}
    (whole : ∀ piece ∈ ((forward chunks).writing status machine).pieces tee.sink,
      piece.isWhole = true) :
    (((forward chunks).writing status machine).on tee).2.sink.received =
      tee.sink.received ++ chunks.flatten := by
  have passes := passes_of_whole whole
  rw [Watching.writing_on, run_forward_passed status passes]
  exact Stream.received_of_write (Prod.ext passes rfl)

/-- Whatever order the lines are delivered in, where no write and no flush fails they are written
as they are, one by one and each of them once, and the exit is that of the process. -/
theorem lines_forwarded
    (ran : (Machine.run compiler.program (compiler.leading ++ arguments.map Text.utf8)).run machine =
      (.ok ended, after)) :
    (∀ lines, Channel.Delivers ended.stdout ended.stderr lines →
      ∃ turns, merged turns (linesOf ended.stdout) (linesOf ended.stderr) = lines) ∧
    ∀ (turns : List Bool) (tee : Tee),
      let writing := compiler.backend turns arguments machine
      (∀ piece ∈ writing.pieces tee.sink, piece.isWhole = true) → tee.sink.flushFails = false →
      ∃ first second,
        Text.CutThrough Byte.lineFeed ended.stdout first ∧
        Text.CutThrough Byte.lineFeed ended.stderr second ∧
        let lines := merged turns first second
        Channel.Delivers ended.stdout ended.stderr lines ∧
        Interleaved first second lines ∧
        (writing.pieces tee.sink).map (·.data) = lines ∧
        (writing.on tee).2.sink.received = tee.sink.received ++ lines.flatten ∧
        (writing.on tee).1 = (.ok (ExitCode.ofStatus ended.status), after) := by
  constructor
  · exact fun lines delivered => Channel.delivers_iff_merged.mp delivered
  · intro turns tee writing whole flushes
    have same : writing = _ := backend_started ran turns
    rw [same] at whole ⊢
    have passes := passes_of_whole whole
    refine ⟨linesOf ended.stdout, linesOf ended.stderr, Text.cutThrough_iff.mpr rfl,
      Text.cutThrough_iff.mpr rfl, Channel.delivers_iff_merged.mpr ⟨turns, rfl⟩,
      merged_interleaved turns _ _, pieces_forward passes, received_forward whole, ?_⟩
    have flushed : tee.flush = .ok () := by
      rw [Tee.flush, Stream.flush, flushes]
      rfl
    rw [Watching.writing_on, run_forward_passed ended.status passes, flushed]
    rfl

end Forwarding

/-- A machine with one program, which prints to both of its streams and ends with a status. -/
def printing (stdout stderr : Bytes) (status : Option Int) : Machine :=
  ⟨⟨[(["kotlinc"], .file (.program ⟨stdout, stderr, status, none⟩) true)]⟩, [], []⟩

theorem run_printing (stdout stderr : Bytes) (status : Option Int) :
    (Machine.run (launcher ⟨"/kotlinc"⟩).program
        ((launcher ⟨"/kotlinc"⟩).leading ++ ([] : List String).map Text.utf8)).run
        (printing stdout stderr status) =
      (.ok ⟨stdout, stderr, status⟩, printing stdout stderr status) :=
  rfl

/-- A line that comes in between, and one that breaks off. -/
theorem broken_line_forwarded :
    let found := printing (Text.utf8 "out\nlast") (Text.utf8 "err\n") (some 1)
    let writing := (launcher ⟨"/kotlinc"⟩).backend [true, false] [] found
    (writing.on ⟨{}, []⟩).2.sink.received = Text.utf8 "out\nerr\nlast" ∧
      (writing.on ⟨{}, []⟩).1.1 = .ok .compilationError := by
  intro found writing
  have endless : (⟨{}, []⟩ : Tee).sink.room = none := rfl
  obtain ⟨first, second, cutFirst, cutSecond, _, _, _, received, ended⟩ :=
    (lines_forwarded (run_printing (Text.utf8 "out\nlast") (Text.utf8 "err\n") (some 1))).2
      [true, false] ⟨{}, []⟩ (writing.pieces_whole endless) rfl
  rw [← Text.cutThrough_iff.mp cutFirst, ← Text.cutThrough_iff.mp cutSecond] at received
  constructor
  · exact received.trans (by decide +kernel)
  · exact congrArg Prod.fst ended

section Lines
variable {compiler : ProcessCompiler} {arguments : List String} {machine after : Machine}
  {ended : Ended} {stdout stderr : Bytes} {lines : List Bytes}

/-- On a stream that refuses nothing the lines of the two streams are found again in what is
received, and no others. -/
def LinesKept (compiler : ProcessCompiler) (arguments : List String) (machine : Machine)
    (ended : Ended) (turns : List Bool) : Prop :=
  ∀ (tee : Tee) (text : Bytes),
    let writing := compiler.backend turns arguments machine
    (∀ piece ∈ writing.pieces tee.sink, piece.isWhole = true) →
    (writing.on tee).2.sink.received = tee.sink.received ++ text →
    (linesOf text).Perm (linesOf ended.stdout ++ linesOf ended.stderr)

/-- No line breaks off in front of another. -/
def NoneGlued (lines : List Bytes) : Prop :=
  ∀ line ∈ lines.dropLast, Text.isClosed Byte.lineFeed line = true

instance (lines : List Bytes) : Decidable (NoneGlued lines) :=
  inferInstanceAs (Decidable (∀ line ∈ lines.dropLast, Text.isClosed Byte.lineFeed line = true))

theorem lines_alone (merge : Interleaved (linesOf stdout) (linesOf stderr) lines) :
    ∀ line ∈ lines, linesOf line = [line] := by
  intro line member
  rcases List.mem_append.mp (merge.perm.mem_iff.mp member) with first | second
  · exact Text.alone_of_mem first
  · exact Text.alone_of_mem second

theorem linesKept_iff
    (ran : (Machine.run compiler.program (compiler.leading ++ arguments.map Text.utf8)).run machine =
      (.ok ended, after)) (turns : List Bool) :
    LinesKept compiler arguments machine ended turns ↔
      NoneGlued (merged turns (linesOf ended.stdout) (linesOf ended.stderr)) := by
  have merge := merged_interleaved turns (linesOf ended.stdout) (linesOf ended.stderr)
  have found := Text.perm_piecesThrough_flatten (lines_alone merge)
  unfold LinesKept
  rw [backend_started ran turns]
  constructor
  · intro kept
    -- a stream that takes everything shows what is received
    have endless : (⟨{}, []⟩ : Tee).sink.room = none := rfl
    have whole := Writing.pieces_whole ((forward (merged turns (linesOf ended.stdout)
      (linesOf ended.stderr))).writing ended.status after) endless
    have same := kept ⟨{}, []⟩ _ whole (received_forward whole)
    exact found.mp (same.trans merge.perm.symm)
  · intro unglued tee text writing whole received
    rw [received_forward whole] at received
    rw [← List.append_cancel_left received]
    exact (found.mpr unglued).trans merge.perm

theorem linesOf_eq_nil (empty : linesOf stdout = []) : stdout = [] := by
  rw [← Text.flatten_piecesThrough Byte.lineFeed stdout]
  exact congrArg List.flatten empty

/-- What comes in front of anything else does not break off. -/
theorem isClosed_of_noneGlued (unglued : NoneGlued (linesOf stdout ++ linesOf stderr))
    (nonempty : stderr ≠ []) : Text.isClosed Byte.lineFeed stdout = true := by
  apply Text.isClosed_iff.mpr
  intro line member
  apply unglued line
  rw [List.dropLast_append_of_ne_nil fun empty => nonempty (linesOf_eq_nil empty)]
  exact List.mem_append_left _ member

theorem noneGlued_all_iff (stdout stderr : Bytes) :
    (∀ turns, NoneGlued (merged turns (linesOf stdout) (linesOf stderr))) ↔
      stdout = [] ∨ stderr = [] ∨
        (Text.isClosed Byte.lineFeed stdout = true ∧ Text.isClosed Byte.lineFeed stderr = true) := by
  constructor
  · intro unglued
    by_cases noStdout : stdout = []
    · exact Or.inl noStdout
    by_cases noStderr : stderr = []
    · exact Or.inr (Or.inl noStderr)
    -- either stream may come first as a whole
    obtain ⟨turns, same⟩ := exists_turns (Interleaved.append (linesOf stdout) (linesOf stderr))
    obtain ⟨others, swapped⟩ :=
      exists_turns (Interleaved.append (linesOf stderr) (linesOf stdout)).symm
    exact Or.inr (Or.inr ⟨isClosed_of_noneGlued (same ▸ unglued turns) noStderr,
      isClosed_of_noneGlued (swapped ▸ unglued others) noStdout⟩)
  · rintro (rfl | rfl | ⟨closedStdout, closedStderr⟩) turns
    · have merge := merged_interleaved turns (linesOf []) (linesOf stderr)
      rw [merge.eq_second rfl]
      exact fun line member => Text.isClosed_of_mem_dropLast member
    · have merge := merged_interleaved turns (linesOf stdout) (linesOf [])
      rw [merge.symm.eq_second rfl]
      exact fun line member => Text.isClosed_of_mem_dropLast member
    · have merge := merged_interleaved turns (linesOf stdout) (linesOf stderr)
      intro line member
      have inside := List.mem_append.mp (merge.perm.mem_iff.mp (List.dropLast_subset _ member))
      rcases inside with first | second
      · exact Text.isClosed_iff.mp closedStdout line first
      · exact Text.isClosed_iff.mp closedStderr line second

/-- The lines of the two streams are kept in an order exactly if none of them breaks off in front of
another; and they are in every order exactly if one stream is empty or neither breaks off. -/
theorem lines_kept_iff
    (ran : (Machine.run compiler.program (compiler.leading ++ arguments.map Text.utf8)).run machine =
      (.ok ended, after)) :
    (∀ turns, LinesKept compiler arguments machine ended turns ↔
      NoneGlued (merged turns (linesOf ended.stdout) (linesOf ended.stderr))) ∧
    ((∀ turns, LinesKept compiler arguments machine ended turns) ↔
      ended.stdout = [] ∨ ended.stderr = [] ∨
        (Text.isClosed Byte.lineFeed ended.stdout = true ∧
          Text.isClosed Byte.lineFeed ended.stderr = true)) := by
  refine ⟨linesKept_iff ran, ?_⟩
  rw [← noneGlued_all_iff]
  exact forall_congr' (linesKept_iff ran)

end Lines

/-- A line that breaks off stays a line by itself as long as nothing comes behind it. -/
theorem unbroken_order_kept :
    let output : Ended := ⟨Text.utf8 "half", Text.utf8 "err\n", some 0⟩
    let found := printing output.stdout output.stderr output.status
    LinesKept (launcher ⟨"/kotlinc"⟩) [] found output [false] ∧
      ¬ LinesKept (launcher ⟨"/kotlinc"⟩) [] found output [true] := by
  intro output found
  have kept :=
    (lines_kept_iff (run_printing output.stdout output.stderr output.status)).1
  constructor
  · apply (kept [false]).mpr
    decide +kernel
  · intro broken
    have unglued := (kept [true]).mp broken
    revert unglued
    decide +kernel

/-- Two streams without a line feed, one line each: what is received is a single line. -/
theorem half_lines_glued :
    let output : Ended := ⟨Text.utf8 "a", Text.utf8 "a", some 0⟩
    let found := printing output.stdout output.stderr output.status
    let writing := (launcher ⟨"/kotlinc"⟩).backend [true] [] found
    linesOf (writing.on ⟨{}, []⟩).2.sink.received = [Text.utf8 "aa"] ∧
      linesOf output.stdout ++ linesOf output.stderr = [Text.utf8 "a", Text.utf8 "a"] ∧
      ¬ LinesKept (launcher ⟨"/kotlinc"⟩) [] found output [true] := by
  intro output found writing
  refine ⟨by decide +kernel, by decide +kernel, fun kept => ?_⟩
  have unglued :=
    (linesKept_iff (run_printing output.stdout output.stderr output.status) [true]).mp kept
  revert unglued
  decide +kernel

end KotlinCompile.ProcessCompiler
