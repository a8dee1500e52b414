import KotlinCompile.Proofs.Fallible
import KotlinCompile.Proofs.Text.Cut
import KotlinCompile.Proofs.Text.Line
import KotlinCompile.Proofs.Text.Utf8
import KotlinCompile.Toolchain

/-! The version that a compiler says it has. It is looked for line by line, and lines that name none
are passed over; but what the compiler writes to its output counts only if it has nothing to say
among its errors, not even anything else. -/
namespace KotlinCompile.Toolchain
open Fallible

/-- A line that names a version: the first word behind the first mark, if it starts with a digit. -/
def Names (line : List Char) (version : String) : Prop :=
  ∃ rest, Text.BehindFirst versionMark line rest ∧ Text.FirstWord rest version.toList ∧
    ∃ c ∈ version.toList.head?, c.isDigit = true

/-- The version that the first line names that names any. -/
inductive FirstNamed : List (List Char) → String → Prop where
  | here {line : List Char} {rest : List (List Char)} {version : String}
      (names : Names line version) : FirstNamed (line :: rest) version
  | later {line : List Char} {rest : List (List Char)} {version : String}
      (silent : ∀ other, ¬Names line other) (first : FirstNamed rest version) :
      FirstNamed (line :: rest) version

/-- The same lines, but for some that name no version. -/
inductive AlikeInVersions : List (List Char) → List (List Char) → Prop where
  | done : AlikeInVersions [] []
  | both {lines others : List (List Char)} (line : List Char)
      (alike : AlikeInVersions lines others) : AlikeInVersions (line :: lines) (line :: others)
  | left {line : List Char} {lines others : List (List Char)}
      (silent : ∀ version, ¬Names line version) (alike : AlikeInVersions lines others) :
      AlikeInVersions (line :: lines) others
  | right {line : List Char} {lines others : List (List Char)}
      (silent : ∀ version, ¬Names line version) (alike : AlikeInVersions lines others) :
      AlikeInVersions lines (line :: others)

theorem versionInLine_eq_some {line : List Char} {version : String} :
    versionInLine? line = some version ↔ Names line version := by
  simp only [versionInLine?, Option.bind_eq_bind, Option.bind_eq_some_iff, Text.behindRun_eq_some,
    Names, Text.firstWord_iff]
  refine exists_congr fun rest => and_congr_right fun _ => ?_
  constructor
  · intro named
    split at named
    · cases named
    · next first others word =>
      rw [Option.ite_none_right_eq_some] at named
      obtain ⟨digit, ⟨⟩⟩ := named
      rw [String.toList_ofList]
      exact ⟨⟨word, List.cons_ne_nil first others⟩, first, rfl, digit⟩
  · rintro ⟨⟨word, _⟩, first, starts, digit⟩
    obtain ⟨others, spelled⟩ := List.head?_eq_some_iff.mp starts
    rw [word, spelled]
    show (if first.isDigit = true then some (String.ofList (first :: others)) else none) = _
    rw [if_pos digit, ← spelled, String.ofList_toList]

theorem firstNamed_cons {line : List Char} {rest : List (List Char)} {version : String} :
    FirstNamed (line :: rest) version ↔
      Names line version ∨ (∀ other, ¬Names line other) ∧ FirstNamed rest version := by
  constructor
  · intro first
    cases first with
    | here names => exact Or.inl names
    | later silent first => exact Or.inr ⟨silent, first⟩
  · rintro (names | ⟨silent, first⟩)
    · exact .here names
    · exact .later silent first

theorem findSome_eq_some {lines : List (List Char)} {version : String} :
    lines.findSome? versionInLine? = some version ↔ FirstNamed lines version := by
  induction lines with
  | nil => exact ⟨nofun, nofun⟩
  | cons line rest ih =>
    rw [List.findSome?_cons, firstNamed_cons, ← ih]
    simp only [← versionInLine_eq_some]
    cases versionInLine? line <;> simp

theorem versionIn_eq_some {text version : String} :
    versionIn? text = some version ↔ FirstNamed (Text.lines text.toList) version :=
  findSome_eq_some

theorem exists_firstNamed {lines : List (List Char)} :
    (∃ version, FirstNamed lines version) ↔ ∃ line ∈ lines, ∃ version, Names line version := by
  simp only [← findSome_eq_some, ← versionInLine_eq_some, ← Option.isSome_iff_exists,
    List.findSome?_isSome_iff]

/-- Lines that name no version make no difference, wherever they stand and however many. -/
theorem AlikeInVersions.firstNamed {lines others : List (List Char)}
    (alike : AlikeInVersions lines others) {version : String} :
    FirstNamed lines version ↔ FirstNamed others version := by
  have passed {line : List Char} {rest : List (List Char)}
      (silent : ∀ version, ¬Names line version) :
      FirstNamed (line :: rest) version ↔ FirstNamed rest version := by
    rw [firstNamed_cons, or_iff_right (silent version), and_iff_right silent]
  induction alike with
  | done => rfl
  | both line _ ih =>
    rw [firstNamed_cons, firstNamed_cons]
    exact or_congr_right (and_congr_right fun _ => ih)
  | left silent _ ih => exact (passed silent).trans ih
  | right silent _ ih => exact ih.trans (passed silent).symm

def IsBlank (text : String) : Prop := ∀ c ∈ text.toList, Text.isBlank c = true

theorem not_names_of_blank {text : String} (blank : IsBlank text) :
    ∀ line ∈ Text.lines text.toList, ∀ version, ¬Names line version := by
  rintro line inside version ⟨rest, ⟨before, rfl, _⟩, _⟩
  have mark : 'k' ∈ versionMark := by decide +kernel
  have marked : 'k' ∈ before ++ versionMark ++ rest := by simp [mark]
  exact absurd (blank 'k' (Text.mem_of_mem_lines inside marked)) (by decide)

theorem versionText_eq (stdout stderr : Bytes) :
    (IsBlank (Text.lossy stderr) ∧ versionText stdout stderr = Text.lossy stdout) ∨
      (¬IsBlank (Text.lossy stderr) ∧ versionText stdout stderr = Text.lossy stderr) := by
  unfold versionText IsBlank
  rw [← Text.trim_eq_nil_iff]
  split
  · next blank => exact Or.inl ⟨blank, rfl⟩
  · next filled => exact Or.inr ⟨filled, rfl⟩

/-- The version is looked for among the errors, or in the output of a compiler without errors. -/
theorem versionIn_versionText {stdout stderr : Bytes} {version : String} :
    versionIn? (versionText stdout stderr) = some version ↔
      FirstNamed (Text.lines (Text.lossy stderr).toList) version ∨
      IsBlank (Text.lossy stderr) ∧ FirstNamed (Text.lines (Text.lossy stdout).toList) version := by
  rw [versionIn_eq_some]
  rcases versionText_eq stdout stderr with ⟨blank, same⟩ | ⟨filled, same⟩
  · rw [same, and_iff_right blank, or_iff_right]
    intro first
    obtain ⟨line, inside, named⟩ := exists_firstNamed.mp ⟨version, first⟩
    exact named.elim (not_names_of_blank blank line inside)
  · rw [same, or_iff_left fun said => filled said.1]

section Asked
variable {machine : Machine} {toolchain : Toolchain} {ended : Ended}

/-- What becomes of the question for its version when the compiler could be run. -/
theorem version_apply
    (ran : (Machine.run toolchain.launcher ["-version"] machine).1 = .ok ended) :
    (toolchain.version machine).1 = match versionIn? (versionText ended.stdout ended.stderr) with
      | some version => .ok version
      | none => .error (.compilerNotFound
          (.unrecognisedVersion toolchain.launcher (versionText ended.stdout ended.stderr))) := by
  unfold version
  rw [bind_apply, failingWith]
  dsimp only [ExceptT.run]
  cases whole : Machine.run toolchain.launcher ["-version"] machine with
  | mk result after =>
    rw [whole] at ran
    cases ran
    dsimp only [Except.mapError]
    cases versionIn? (versionText ended.stdout ended.stderr) <;> rfl

theorem version_eq_ok
    (ran : (Machine.run toolchain.launcher ["-version"] machine).1 = .ok ended) {version : String} :
    (toolchain.version machine).1 = .ok version ↔
      FirstNamed (Text.lines (Text.lossy ended.stderr).toList) version ∨
      IsBlank (Text.lossy ended.stderr) ∧
        FirstNamed (Text.lines (Text.lossy ended.stdout).toList) version := by
  rw [← versionIn_versionText, version_apply ran]
  cases versionIn? (versionText ended.stdout ended.stderr) <;> simp

end Asked

/-- A compiler has the version that the first line among its errors names, or, if there is nothing
but blanks among its errors, the first line of its output; it has none if no line there names one.
Other lines around it make no difference, in either place, if only they leave the errors blank where
they are blank. -/
theorem version_exact {machine : Machine} {toolchain : Toolchain} {ended : Ended}
    (ran : (Machine.run toolchain.launcher ["-version"] machine).1 = .ok ended) :
    let lines (data : Bytes) := Text.lines (Text.lossy data).toList
    let Has (data : Bytes) := ∃ line ∈ lines data, ∃ version, Names line version
    let Silent (data : Bytes) := IsBlank (Text.lossy data)
    (∀ version, (toolchain.version machine).1 = .ok version ↔
      FirstNamed (lines ended.stderr) version ∨
      Silent ended.stderr ∧ FirstNamed (lines ended.stdout) version) ∧
    ((∃ version, (toolchain.version machine).1 = .ok version) ↔
      Has ended.stderr ∨ Silent ended.stderr ∧ Has ended.stdout) ∧
    ∀ (machine' : Machine) (toolchain' : Toolchain) (ended' : Ended),
      (Machine.run toolchain'.launcher ["-version"] machine').1 = .ok ended' →
      AlikeInVersions (lines ended.stderr) (lines ended'.stderr) →
      AlikeInVersions (lines ended.stdout) (lines ended'.stdout) →
      (Silent ended.stderr ↔ Silent ended'.stderr) →
      ∀ version, (toolchain.version machine).1 = .ok version ↔
        (toolchain'.version machine').1 = .ok version := by
  intro lines Has Silent
  refine ⟨fun version => version_eq_ok ran, ?_, ?_⟩
  · simp only [version_eq_ok ran, exists_or, exists_and_left, exists_firstNamed]
    rfl
  · intro machine' toolchain' ended' ran' errors output silent version
    rw [version_eq_ok ran, version_eq_ok ran']
    exact or_congr errors.firstNamed (and_congr silent output.firstNamed)

def answering (stdout stderr : String) : Machine where
  tree := ⟨[(["kotlin"], .directory), (["kotlin", "bin"], .directory),
    (["kotlin", "bin", "kotlinc"],
      .file (.program ⟨Text.utf8 stdout, Text.utf8 stderr, some 0, none⟩) true)]⟩
  here := []
  environment := []

def answeringToolchain : Toolchain := ⟨⟨"/kotlin/bin/kotlinc"⟩, ⟨"/kotlin"⟩⟩

theorem run_answering (stdout stderr : String) :
    (Machine.run answeringToolchain.launcher ["-version"] (answering stdout stderr)).1 =
      .ok ⟨Text.utf8 stdout, Text.utf8 stderr, some 0⟩ := by
  rfl

theorem version_answering {stdout stderr version : String} :
    (answeringToolchain.version (answering stdout stderr)).1 = .ok version ↔
      FirstNamed (Text.lines stderr.toList) version ∨
      IsBlank stderr ∧ FirstNamed (Text.lines stdout.toList) version := by
  rw [version_eq_ok (run_answering stdout stderr), Text.lossy_utf8, Text.lossy_utf8]

/-- A notice in front of the version makes no difference where both are output. -/
theorem output_version_found :
    let said := "Picked up JAVA_TOOL_OPTIONS: -Xmx1g\r\ninfo: kotlinc-jvm 2.0.0-RC1\n"
    (Machine.run answeringToolchain.launcher ["-version"] (answering said " \n")).1 =
      .ok ⟨Text.utf8 said, Text.utf8 " \n", some 0⟩ ∧
    (answeringToolchain.version (answering said " \n")).1 = .ok "2.0.0-RC1" := by
  intro said
  have ran := run_answering said " \n"
  refine ⟨ran, ((version_exact ran).1 "2.0.0-RC1").mpr (Or.inr ?_)⟩
  dsimp only
  rw [Text.lossy_utf8, Text.lossy_utf8]
  exact ⟨List.all_eq_true.mp (by decide), versionIn_eq_some.mp (by decide +kernel)⟩

/-- The same notice among the errors keeps the version that is output from being found, which it is
without the notice. -/
theorem notice_masks_version :
    let said := "info: kotlinc-jvm 1.9.22 (JRE 17.0.9+9)\n"
    let noticed := answering said "Picked up JAVA_TOOL_OPTIONS: -Xmx1g\n"
    (∃ ended, (Machine.run answeringToolchain.launcher ["-version"] noticed).1 = .ok ended ∧
      FirstNamed (Text.lines (Text.lossy ended.stdout).toList) "1.9.22" ∧
      ∀ line ∈ Text.lines (Text.lossy ended.stderr).toList, ∀ version, ¬Names line version) ∧
    (∀ version, (answeringToolchain.version noticed).1 ≠ .ok version) ∧
    (answeringToolchain.version (answering said "")).1 = .ok "1.9.22" := by
  intro said noticed
  have named : FirstNamed (Text.lines said.toList) "1.9.22" :=
    versionIn_eq_some.mp (by decide +kernel)
  have silent : ∀ line ∈ Text.lines "Picked up JAVA_TOOL_OPTIONS: -Xmx1g\n".toList,
      ∀ version, ¬Names line version := by
    have unread : ∀ line ∈ Text.lines "Picked up JAVA_TOOL_OPTIONS: -Xmx1g\n".toList,
        versionInLine? line = none := by decide +kernel
    intro line inside version names
    cases (unread line inside).symm.trans (versionInLine_eq_some.mpr names)
  refine ⟨⟨_, run_answering said _, ?_, ?_⟩, fun version found => ?_, ?_⟩
  · rwa [Text.lossy_utf8]
  · rwa [Text.lossy_utf8]
  · rcases version_answering.mp found with first | ⟨blank, _⟩
    · obtain ⟨line, inside, version, names⟩ := exists_firstNamed.mp ⟨version, first⟩
      exact silent line inside version names
    · exact absurd (List.all_eq_true.mpr blank) (by decide)
  · exact version_answering.mpr (Or.inr ⟨fun c inside => absurd inside List.not_mem_nil, named⟩)

end KotlinCompile.Toolchain
