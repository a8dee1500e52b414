import KotlinCompile.Classpath
import KotlinCompile.Proofs.Occurrences
import KotlinCompile.Proofs.Path
import KotlinCompile.Proofs.Path.Text

/-! The entries of a classpath: what its sources name, each place once and in the spelling and at
the rank of its first mention. They are joined exactly if no entry holds the separator, and then
their texts are read again as they were; otherwise the error names the first that holds it. -/
namespace KotlinCompile
open Occurrences

namespace Path

theorem same_iff {path other : Path} :
    path.same other = true ↔ path.components = other.components := beq_iff_eq

theorem same_eq (path : Path) :
    (fun other : Path => other.same path) =
      fun other => decide (other.components = path.components) :=
  funext fun _ => Bool.eq_iff_iff.mpr (same_iff.trans decide_eq_true_iff.symm)

theorem distinct_eq_firsts (paths : List Path) : distinct paths = firsts components paths := by
  induction paths with
  | nil => rfl
  | cons first rest ih =>
    rw [distinct, firsts, ih]
    refine congrArg (first :: ·) (List.filter_congr fun path _ => ?_)
    by_cases equal : path.components = first.components <;> simp [same, equal]

theorem absoluteFrom_of_absolute (directory : Path) {path : Path}
    (absolute : path.isAbsolute = true) : absoluteFrom directory path = path := by
  rw [absoluteFrom, join, if_pos absolute]

theorem absoluteFrom_isAbsolute {directory : Path} (absolute : directory.isAbsolute = true)
    (path : Path) : (absoluteFrom directory path).isAbsolute = true := by
  cases relative : path.isAbsolute with
  | true => rw [absoluteFrom_of_absolute directory relative, relative]
  | false =>
    have based : directory.spelling ≠ "" := by
      intro empty
      obtain ⟨spelling⟩ := directory
      cases empty
      cases absolute
    rw [← root_mem_components, absoluteFrom, components_join relative based]
    exact List.mem_append_left _ ((root_mem_components directory).mpr absolute)

end Path

namespace Classpath

theorem build_entries (directory : Path) (explicit supporting inherited : List Path) :
    (build directory explicit supporting inherited).entries = firsts Path.components
      ((explicit ++ supporting ++ inherited).map (Path.absoluteFrom directory)) :=
  Path.distinct_eq_firsts _

-- Absolute entries without repetitions are a classpath already, in whatever lists they are given.
theorem build_of_settled {entries : List Path}
    (absolute : ∀ entry ∈ entries, entry.isAbsolute = true)
    (apart : entries.Pairwise fun entry other => entry.components ≠ other.components)
    (directory : Path) {first second third : List Path}
    (whole : first ++ second ++ third = entries) :
    build directory first second third = ⟨entries⟩ := by
  have unchanged : entries.map (Path.absoluteFrom directory) = entries.map id :=
    List.map_congr_left fun entry member =>
      Path.absoluteFrom_of_absolute directory (absolute entry member)
  rw [build, absoluteDistinct, whole, unchanged, List.map_id, Path.distinct_eq_firsts,
    firsts_of_apart apart]

/-- The entries of a classpath are absolute and name no place twice; each source has an entry for its
place, spelled and ranked as the first source for it; the inherited sources only add to the end; and
the entries are their own classpath again, from whatever directory. -/
theorem build_keeps_first {directory : Path} (absolute : directory.isAbsolute = true)
    (explicit supporting : List Path) (inherited : Option (List Path)) :
    let sources :=
      (explicit ++ supporting ++ inherited.getD []).map (Path.absoluteFrom directory)
    let classpath := build directory explicit supporting (inherited.getD [])
    (∀ entry ∈ classpath.entries, entry.isAbsolute = true) ∧
    (classpath.entries.Pairwise fun entry other => ¬ entry.same other = true) ∧
    (∀ source ∈ sources, ∃ entry ∈ classpath.entries, entry.same source = true) ∧
    (∀ entry ∈ classpath.entries, sources.find? (·.same entry) = some entry) ∧
    (classpath.entries.Pairwise fun entry other =>
      sources.findIdx (·.same entry) < sources.findIdx (·.same other)) ∧
    (build directory explicit supporting []).entries <+: classpath.entries ∧
    (∀ elsewhere first second third, first ++ second ++ third = classpath.entries →
      build elsewhere first second third = classpath) := by
  intro sources classpath
  have kept : classpath.entries = firsts Path.components sources := build_entries ..
  have apart : classpath.entries.Pairwise fun entry other =>
      entry.components ≠ other.components := kept ▸ firsts_apart Path.components sources
  have rooted : ∀ entry ∈ classpath.entries, entry.isAbsolute = true := by
    intro entry member
    rw [kept] at member
    obtain ⟨source, _, rfl⟩ := List.mem_map.mp (mem_of_mem_firsts member)
    exact Path.absoluteFrom_isAbsolute absolute source
  simp only [Path.same_eq, Path.same_iff]
  refine ⟨rooted, apart, ?_, ?_, ?_, ?_, ?_⟩
  · intro source member
    rw [kept]
    exact key_mem_firsts member
  · intro entry member
    rw [kept] at member
    exact find_of_mem_firsts member
  · rw [kept]
    exact firsts_ascending Path.components sources
  · have longer : sources = (explicit ++ supporting ++ []).map (Path.absoluteFrom directory) ++
        (inherited.getD []).map (Path.absoluteFrom directory) := by
      rw [List.append_nil, ← List.map_append]
    rw [kept, build_entries, longer]
    exact firsts_prefix ..
  · intro elsewhere first second third whole
    exact build_of_settled rooted apart elsewhere whole

/-- One archive in two spellings, and one more that is inherited. -/
def respelled : Classpath :=
  build ⟨"/home"⟩ [⟨"libs/a.jar"⟩] [⟨"/home/./libs//a.jar"⟩] [⟨"/lib/b.jar"⟩]

theorem respelled_keeps_first :
    (⟨"/home"⟩ : Path).isAbsolute = true ∧
    respelled.entries = [⟨"/home/libs/a.jar"⟩, ⟨"/lib/b.jar"⟩] ∧
    (build ⟨"/home"⟩ [⟨"libs/a.jar"⟩] [⟨"/home/./libs//a.jar"⟩] []).entries <+:
      respelled.entries ∧
    ∀ elsewhere, build elsewhere respelled.entries [] [] = respelled := by
  have absolute : (⟨"/home"⟩ : Path).isAbsolute = true := by decide
  have ⟨_, _, _, _, _, shorter, again⟩ := build_keeps_first absolute [⟨"libs/a.jar"⟩]
    [⟨"/home/./libs//a.jar"⟩] (some [⟨"/lib/b.jar"⟩])
  refine ⟨absolute, by decide, shorter, fun elsewhere => ?_⟩
  exact again elsewhere respelled.entries [] [] (by rw [List.append_nil, List.append_nil]; rfl)

theorem joined_of_plain {paths : List Path} (plain : ∀ path ∈ paths, separator ∉ path.spelling) :
    joined? paths = some ([separator].intercalate (paths.map (·.spelling))) :=
  if_neg (by simpa using plain)

/-- The texts between the colons of a joined text. -/
def textsIn (text : String) : List String := (Text.pieces ':' text.toList).map String.ofList

/-- The entries that a joined text names. -/
def entriesIn (text : String) : List Path := (textsIn text).map fun (entry : String) => ⟨entry⟩

/-- An entry alone is refused for what a list with it is refused for. -/
theorem alone_isNone (entry : Path) :
    (joined? [entry]).isNone = decide (separator ∈ entry.spelling) := by
  unfold joined?
  by_cases holds : separator ∈ entry.spelling <;> simp [holds]

-- Where each entry can be joined alone, all of them can be joined together.
theorem join_eq (classpath : Classpath) : classpath.join =
    match classpath.entries.find? fun entry => separator ∈ entry.spelling with
    | some entry => .error (.invalidClasspathEntry entry)
    | none => .ok (Text.lossy ([separator].intercalate (classpath.entries.map (·.spelling)))) := by
  unfold join
  simp only [alone_isNone]
  cases found : classpath.entries.find? fun entry => separator ∈ entry.spelling with
  | some entry => rfl
  | none =>
    have plain : ∀ entry ∈ classpath.entries, separator ∉ entry.spelling := by
      simpa using List.find?_eq_none.mp found
    simp only [joined_of_plain plain]

theorem join_eq_ok {classpath : Classpath} {text : String} :
    classpath.join = .ok text ↔ (∀ entry ∈ classpath.entries, separator ∉ entry.spelling) ∧
      text = Text.lossy ([separator].intercalate (classpath.entries.map (·.spelling))) := by
  rw [join_eq]
  cases found : classpath.entries.find? fun entry => separator ∈ entry.spelling with
  | some entry =>
    have holds : separator ∈ entry.spelling := by simpa using List.find?_some found
    exact iff_of_false nofun fun joined => joined.1 entry (List.mem_of_find?_eq_some found) holds
  | none =>
    have plain : ∀ entry ∈ classpath.entries, separator ∉ entry.spelling := by
      simpa using List.find?_eq_none.mp found
    rw [and_iff_right plain, Except.ok.injEq, eq_comm]

theorem first_of_join_error {classpath : Classpath} {error : BuildError}
    (failed : classpath.join = .error error) : ∃ before entry after,
      classpath.entries = before ++ entry :: after ∧
        (∀ earlier ∈ before, separator ∉ earlier.spelling) ∧ separator ∈ entry.spelling ∧
        error = .invalidClasspathEntry entry := by
  rw [join_eq] at failed
  cases found : classpath.entries.find? fun entry => separator ∈ entry.spelling with
  | some entry =>
    rw [found] at failed
    cases failed
    obtain ⟨holds, before, after, split, passed⟩ := List.find?_eq_some_iff_append.mp found
    exact ⟨before, entry, after, split, by simpa using passed, by simpa using holds, rfl⟩
  | none =>
    rw [found] at failed
    cases failed

theorem textsIn_joined {paths : List Path} (nonempty : paths ≠ [])
    (plain : ∀ path ∈ paths, separator ∉ path.spelling) :
    textsIn (Text.lossy ([separator].intercalate (paths.map (·.spelling)))) =
      paths.map (·.text) := by
  have colon : separator < 0x80 ∧ separator.toNat = ':'.toNat := by decide
  have texts : paths.map (Text.characters ∘ Path.spelling) ≠ [] := mt List.map_eq_nil_iff.mp nonempty
  have whole : (Text.lossy ([separator].intercalate (paths.map (·.spelling)))).toList =
      [':'].intercalate (paths.map (Text.characters ∘ Path.spelling)) := by
    rw [Text.lossy, String.toList_ofList, ← List.map_map]
    exact Text.characters_intercalate colon.1 colon.2 _
  have apart : ∀ text ∈ paths.map (Text.characters ∘ Path.spelling), ':' ∉ text := by
    rw [List.forall_mem_map]
    exact fun path member =>
      mt (Text.mem_characters_iff colon.1 colon.2 path.spelling).mp (plain path member)
  rw [textsIn, whole, (Text.pieces_intercalate_iff ':' texts).mpr apart, List.map_map]
  rfl

/-- The entries are read from their texts exactly if all of them are UTF-8. -/
theorem entries_of_texts_iff {paths : List Path} :
    (paths.map (·.text)).map (fun (entry : String) => (⟨entry⟩ : Path)) = paths ↔
      ∀ path ∈ paths, path.IsText := by
  have read := List.map_inj_left (l := paths) (f := fun path => (⟨path.text⟩ : Path)) (g := id)
  rw [List.map_id] at read
  rw [List.map_map]
  refine read.trans (forall₂_congr fun path _ => ?_)
  constructor
  · exact fun same => ⟨path.text, (congrArg Path.spelling same).symm⟩
  · exact fun isText => congrArg Path.mk isText.utf8_text

theorem build_absolute {directory : Path} (absolute : directory.isAbsolute = true)
    (explicit supporting inherited : List Path) :
    ∀ entry ∈ (build directory explicit supporting inherited).entries, entry.isAbsolute = true := by
  intro entry member
  rw [build_entries] at member
  obtain ⟨source, _, rfl⟩ := List.mem_map.mp (Occurrences.mem_of_mem_firsts member)
  exact Path.absoluteFrom_isAbsolute absolute source

/-- The entries of a classpath are joined exactly if none of them holds a colon, whether it is
spelled there or comes from the current directory. At its colons the text comes apart into the texts
of the entries, unless there are none, and these are the entries exactly if all of them are UTF-8.
Otherwise the error names the first entry that holds a colon: an absolute path, and so never an empty
one. -/
theorem build_joined {directory : Path} (absolute : directory.isAbsolute = true)
    (explicit supporting : List Path) (inherited : Option (List Path)) :
    let classpath := build directory explicit supporting (inherited.getD [])
    ((∃ text, classpath.join = .ok text) ↔
      ∀ entry ∈ classpath.entries, Byte.colon ∉ entry.spelling) ∧
    (∀ text, classpath.join = .ok text → classpath.entries ≠ [] →
      textsIn text = classpath.entries.map (·.text) ∧
        (entriesIn text = classpath.entries ↔ ∀ entry ∈ classpath.entries, entry.IsText)) ∧
    (∀ error, classpath.join = .error error → ∃ before entry after,
      classpath.entries = before ++ entry :: after ∧
        (∀ earlier ∈ before, Byte.colon ∉ earlier.spelling) ∧
        Byte.colon ∈ entry.spelling ∧ entry.isAbsolute = true ∧
          error = .invalidClasspathEntry entry) ∧
    classpath.join ≠ .error (.invalidClasspathEntry ⟨""⟩) := by
  intro classpath
  have named : ∀ error, classpath.join = .error error → ∃ before entry after,
      classpath.entries = before ++ entry :: after ∧
        (∀ earlier ∈ before, Byte.colon ∉ earlier.spelling) ∧
        Byte.colon ∈ entry.spelling ∧ entry.isAbsolute = true ∧
          error = .invalidClasspathEntry entry := by
    intro error failed
    obtain ⟨before, entry, after, split, plain, holds, rfl⟩ := first_of_join_error failed
    have member : entry ∈ classpath.entries :=
      split ▸ List.mem_append_right before List.mem_cons_self
    exact ⟨before, entry, after, split, plain, holds, build_absolute absolute _ _ _ entry member, rfl⟩
  refine ⟨?_, ?_, named, fun failed => ?_⟩
  · constructor
    · rintro ⟨text, joined⟩
      exact (join_eq_ok.mp joined).1
    · intro plain
      exact ⟨_, join_eq_ok.mpr ⟨plain, rfl⟩⟩
  · intro text joined nonempty
    obtain ⟨plain, rfl⟩ := join_eq_ok.mp joined
    have texts := textsIn_joined nonempty plain
    exact ⟨texts, by rw [entriesIn, texts, entries_of_texts_iff]⟩
  · obtain ⟨_, entry, _, _, _, _, rooted, same⟩ := named _ failed
    cases same
    cases rooted

/-- The empty path stands for the current directory, and that is where the colon comes from. -/
def underColon : Classpath := build ⟨"/a:b"⟩ [⟨"/c.jar"⟩, ⟨""⟩] [⟨"d.jar"⟩] []

theorem under_colon_refused :
    (⟨"/a:b"⟩ : Path).isAbsolute = true ∧
    underColon.entries = [⟨"/c.jar"⟩, ⟨"/a:b/"⟩, ⟨"/a:b/d.jar"⟩] ∧
    underColon.join = .error (.invalidClasspathEntry ⟨"/a:b/"⟩) ∧
    ¬∃ text, underColon.join = .ok text := by
  have absolute : (⟨"/a:b"⟩ : Path).isAbsolute = true := by decide
  obtain ⟨joins, _⟩ := build_joined absolute [⟨"/c.jar"⟩, ⟨""⟩] [⟨"d.jar"⟩] none
  refine ⟨absolute, by decide, by decide, fun joined => ?_⟩
  exact absurd (joins.mp joined ⟨"/a:b/"⟩ (by decide)) (by decide)

/-- What is no UTF-8 is lost in the text, and another entry is read from it. -/
theorem mangled_entry :
    let classpath := build ⟨"/"⟩ [⟨[Byte.slash, 0xFF]⟩] [] []
    (⟨"/"⟩ : Path).isAbsolute = true ∧ classpath.entries = [⟨[Byte.slash, 0xFF]⟩] ∧
    classpath.join = .ok "/\uFFFD" ∧ textsIn "/\uFFFD" = ["/\uFFFD"] ∧
    entriesIn "/\uFFFD" ≠ classpath.entries := by
  decide +kernel

end Classpath
end KotlinCompile
