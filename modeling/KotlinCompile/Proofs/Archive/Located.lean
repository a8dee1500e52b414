import KotlinCompile.Classpath
import KotlinCompile.Proofs.Archive.Name
import KotlinCompile.Proofs.Classpath
import KotlinCompile.Proofs.Text.Utf8
import Mathlib.Data.List.DropRight

/-! An archive looked for among paths by its file names: the first that is named like it is taken.
No name is taken for two archives: the stems hold no digits of their own, and what follows a stem is
digits, or a hyphen with digits behind it, so a name can be read back to its stem. -/
namespace KotlinCompile

theorem Path.fileName_of_same {path other : Path} (same : path.components = other.components) :
    path.fileName? = other.fileName? := by
  simp [fileName?, same]

namespace Archive

theorem mem_all (archive : Archive) : archive ∈ all := by
  cases archive <;> decide

/-- A path whose file name is text, and one of the archive's. -/
def Names (archive : Archive) (path : Path) : Prop :=
  ∃ name : String, path.fileName? = some (Text.utf8 name) ∧ archive.matchesName name = true

theorem names_iff {archive : Archive} {path : Path} :
    (path.fileName?.bind Text.strict?).any archive.matchesName = true ↔ archive.Names path := by
  simp only [Option.any_eq_true, Option.bind_eq_some_iff, Text.strict_eq_some, Names]
  constructor
  · rintro ⟨name, ⟨_, found, rfl⟩, named⟩
    exact ⟨name, found, named⟩
  · rintro ⟨name, found, named⟩
    exact ⟨name, ⟨_, found, rfl⟩, named⟩

theorem Names.of_same {archive : Archive} {path other : Path} (named : archive.Names path)
    (same : path.components = other.components) : archive.Names other := by
  unfold Names at named ⊢
  rwa [← Path.fileName_of_same same]

/-- The first of some paths that is named like the archive. -/
def FirstNamed (archive : Archive) (paths : List Path) (place : Path) : Prop :=
  archive.Names place ∧ ∃ front back, paths = front ++ place :: back ∧
    ∀ entry ∈ front, ¬archive.Names entry

variable {archive : Archive} {paths : List Path}

theorem locate_eq_some {place : Path} :
    archive.locate paths = some place ↔ archive.FirstNamed paths place := by
  simp only [locate, List.find?_eq_some_iff_append, names_iff, FirstNamed, Bool.not_eq_true',
    ← Bool.not_eq_true]

theorem locate_eq_none :
    archive.locate paths = none ↔ ∀ entry ∈ paths, ¬archive.Names entry := by
  simp only [locate, List.find?_eq_none, names_iff]

theorem locate_distinct (archive : Archive) (paths : List Path) :
    archive.locate (Path.distinct paths) = archive.locate paths := by
  rw [Path.distinct_eq_firsts]
  apply Occurrences.find_firsts
  intro path other same named
  exact names_iff.mpr ((names_iff.mp named).of_same same)

/-- Whether repetitions are dropped makes no difference to what is found: a fixed host classpath has
for every archive the entry, in the very spelling, that stands first among the absolute forms of all
candidates. -/
theorem located_despite_repetition (archive : Archive) (candidates : List Path) :
    (∀ directory, archive.locate (Classpath.absoluteDistinct directory candidates) =
      archive.locate (candidates.map (Path.absoluteFrom directory))) ∧
    (∀ made asked : Machine,
      ((Resolver.ofEntries made candidates).locating asked).1 archive =
        archive.locate (candidates.map made.absolute)) := by
  have each (directory : Path) :
      archive.locate (Classpath.absoluteDistinct directory candidates) =
        archive.locate (candidates.map (Path.absoluteFrom directory)) :=
    locate_distinct archive _
  exact ⟨each, fun made _ => each made.currentDirectory⟩

-- The second candidate repeats the first, which ends in a dot and keeps its spelling.
example : Archive.tools.locate (Classpath.absoluteDistinct ⟨"/jdk"⟩
    [⟨"lib/tools.jar/."⟩, ⟨"/jdk//lib/tools.jar"⟩]) = some ⟨"/jdk/lib/tools.jar/."⟩ := by
  decide +kernel

/-- A text up to its first digit, without hyphens at its end. -/
def wording (text : List Char) : List Char :=
  (text.takeWhile fun c => !Text.isDigit c).rdropWhile (· == '-')

/-- A text that is nothing but wording. -/
def IsWorded (text : List Char) : Prop :=
  text.any Text.isDigit = false ∧ text.getLast? ≠ some '-'

instance (text : List Char) : Decidable (IsWorded text) :=
  inferInstanceAs (Decidable (_ ∧ _))

theorem wording_append {text rest : List Char} (worded : IsWorded text)
    (stops : rest.takeWhile (fun c => !Text.isDigit c) = [] ∨
      rest.takeWhile (fun c => !Text.isDigit c) = ['-']) : wording (text ++ rest) = text := by
  have taken : (text ++ rest).takeWhile (fun c => !Text.isDigit c) =
      text ++ rest.takeWhile fun c => !Text.isDigit c := by
    apply List.takeWhile_append_of_pos
    intro c member
    simp [List.any_eq_false.mp worded.1 c member]
  have kept : text.rdropWhile (· == '-') = text := by
    rw [List.rdropWhile_eq_self_iff]
    intro nonempty hyphen
    apply worded.2
    rw [List.getLast?_eq_some_getLast nonempty, eq_of_beq hyphen]
  rcases stops with none | hyphen
  · simp [wording, taken, none, kept]
  · simp [wording, taken, hyphen, kept]

theorem IsNumber.starts {text : List Char} (number : IsNumber text) :
    ∃ digit rest, text = digit :: rest ∧ Text.isDigit digit = true := by
  obtain ⟨groups, nonempty, digits, rfl⟩ := number
  obtain ⟨group, others, rfl⟩ := List.exists_cons_of_ne_nil nonempty
  obtain ⟨filled, between⟩ := digits group List.mem_cons_self
  obtain ⟨digit, rest, rfl⟩ := List.exists_cons_of_ne_nil filled
  have isDigit := isDigit_iff.mpr (between digit List.mem_cons_self)
  cases others with
  | nil => exact ⟨digit, rest, by simp, isDigit⟩
  | cons next more =>
    refine ⟨digit, rest ++ (['.'] ++ ['.'].intercalate (next :: more)), ?_, isDigit⟩
    simp [List.intercalate_cons_cons]

theorem IsSuffix.stops {suffix : List Char} (isSuffix : IsSuffix suffix) :
    suffix.takeWhile (fun c => !Text.isDigit c) = [] ∨
      suffix.takeWhile (fun c => !Text.isDigit c) = ['-'] := by
  have hyphen : Text.isDigit '-' = false := by decide
  cases isSuffix with
  | unversioned => exact Or.inl rfl
  | versioned number | qualified number _ =>
    obtain ⟨digit, rest, rfl, isDigit⟩ := number.starts
    exact Or.inr (by simp [hyphen, isDigit])

/-- The wordings of an archive's stems. -/
def wordings : Archive → List String
  | stdlib => ["kotlin-stdlib", "kotlin-runtime"]
  | stdlibCommon => ["kotlin-stdlib-common"]
  | stdlibJdk => ["kotlin-stdlib-jdk"]
  | reflect => ["kotlin-reflect"]
  | scriptRuntime => ["kotlin-script-runtime"]
  | kapt => ["kotlin-annotation-processing", "kotlin-annotation-processing-embeddable"]
  | tools => ["tools"]

theorem HasStem.wording {archive : Archive} {stem suffix : List Char}
    (hasStem : HasStem archive stem) (isSuffix : IsSuffix suffix) :
    ∃ text ∈ archive.wordings, Archive.wording (stem ++ suffix) = text.toList := by
  cases hasStem with
  | runtime | kaptEmbeddable =>
    exact ⟨_, List.mem_cons_of_mem _ List.mem_cons_self, wording_append (by decide) isSuffix.stops⟩
  | stdlibJdk digits =>
    refine ⟨_, List.mem_cons_self, ?_⟩
    obtain ⟨digit, rest, rfl⟩ := List.exists_cons_of_ne_nil digits.1
    have isDigit := isDigit_iff.mpr (digits.2 digit List.mem_cons_self)
    rw [List.append_assoc]
    exact wording_append (by decide) (Or.inl (by simp [isDigit]))
  | _ => exact ⟨_, List.mem_cons_self, wording_append (by decide) isSuffix.stops⟩

theorem wordings_apart : ∀ a ∈ all, ∀ b ∈ all, ∀ text ∈ a.wordings, text ∈ b.wordings → a = b := by
  decide

theorem wording_of_name {archive : Archive} {name : String}
    (named : archive.matchesName name = true) : ∃ text ∈ archive.wordings, ∃ body,
      name.toList = body ++ ".jar".toList ∧ wording body = text.toList := by
  obtain ⟨stem, suffix, hasStem, isSuffix, whole⟩ := matchesName_iff.mp named
  obtain ⟨text, member, worded⟩ := hasStem.wording isSuffix
  exact ⟨text, member, stem ++ suffix, whole, worded⟩

theorem eq_of_matchesName {a b : Archive} {name : String} (first : a.matchesName name = true)
    (second : b.matchesName name = true) : a = b := by
  obtain ⟨text, member, body, whole, worded⟩ := wording_of_name first
  obtain ⟨other, member', body', whole', worded'⟩ := wording_of_name second
  have sameBody : body = body' := List.append_cancel_right (whole.symm.trans whole')
  have same : text = other := by
    apply String.toList_inj.mp
    rw [← worded, ← worded', sameBody]
  exact wordings_apart a (mem_all a) b (mem_all b) text member (same ▸ member')

theorem Names.unique {a b : Archive} {path other : Path} (first : a.Names path)
    (second : b.Names other) (same : path.fileName? = other.fileName?) : a = b := by
  obtain ⟨name, spelled, named⟩ := first
  obtain ⟨name', spelled', named'⟩ := second
  have alike : Text.utf8 name = Text.utf8 name' :=
    Option.some.inj (spelled.symm.trans (same.trans spelled'))
  cases (Text.lossy_utf8 name).symm.trans ((congrArg Text.lossy alike).trans (Text.lossy_utf8 name'))
  exact eq_of_matchesName named named'

/-- No name is taken for two archives. So what is found for two of them never has one file name, and
what is found for one is the same without the candidates for the other. -/
theorem archives_apart {a b : Archive} (differ : a ≠ b) :
    (∀ name, ¬(a.matchesName name = true ∧ b.matchesName name = true)) ∧
    (∀ candidates place other, a.locate candidates = some place →
      b.locate candidates = some other → place.fileName? ≠ other.fileName?) ∧
    (∀ candidates, b.locate (candidates.filter fun candidate =>
      !(candidate.fileName?.bind Text.strict?).any a.matchesName) = b.locate candidates) := by
  refine ⟨?_, ?_, ?_⟩
  · rintro name ⟨first, second⟩
    exact differ (eq_of_matchesName first second)
  · intro candidates place other first second same
    have named := (locate_eq_some.mp first).1
    have named' := (locate_eq_some.mp second).1
    exact differ (named.unique named' same)
  · intro candidates
    apply Occurrences.find_filter_of_imp
    intro candidate named
    rw [Bool.not_eq_true', ← Bool.not_eq_true]
    intro taken
    exact differ ((names_iff.mp taken).unique (names_iff.mp named) rfl)

/-- The plain standard library, with the qualifier jdk8, between two of its variants. -/
def variants : List Path :=
  [⟨"/repo/kotlin-stdlib-jdk8-1.9.22.jar"⟩, ⟨"/repo/kotlin-stdlib-1.9.22-jdk8.jar"⟩,
    ⟨"/repo/kotlin-stdlib-common-1.9.22.jar"⟩]

theorem variants_apart :
    stdlibJdk ≠ stdlib ∧
    stdlibJdk.locate variants = some ⟨"/repo/kotlin-stdlib-jdk8-1.9.22.jar"⟩ ∧
    stdlib.locate variants = some ⟨"/repo/kotlin-stdlib-1.9.22-jdk8.jar"⟩ ∧
    (⟨"/repo/kotlin-stdlib-jdk8-1.9.22.jar"⟩ : Path).fileName? ≠
      (⟨"/repo/kotlin-stdlib-1.9.22-jdk8.jar"⟩ : Path).fileName? ∧
    stdlib.locate (variants.filter fun candidate =>
      !(candidate.fileName?.bind Text.strict?).any stdlibJdk.matchesName) =
        some ⟨"/repo/kotlin-stdlib-1.9.22-jdk8.jar"⟩ := by
  have first : stdlibJdk.locate variants = some ⟨"/repo/kotlin-stdlib-jdk8-1.9.22.jar"⟩ := by
    decide +kernel
  have second : stdlib.locate variants = some ⟨"/repo/kotlin-stdlib-1.9.22-jdk8.jar"⟩ := by
    decide +kernel
  have differ : stdlibJdk ≠ stdlib := by decide
  have ⟨_, apart, kept⟩ := archives_apart differ
  exact ⟨differ, first, second, apart variants _ _ first second, (kept variants).trans second⟩

end Archive
end KotlinCompile
