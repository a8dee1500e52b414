import KotlinCompile.Proofs.Path.Below
import KotlinCompile.Proofs.Text.Utf8

/-! Paths shown as text. A path that is UTF-8 is told by its text, and from any other it is still
told which ASCII characters stand where: what is glued with one of these comes apart at it again. -/
namespace KotlinCompile

namespace Text
variable {c : Char} {x : UInt8} (ascii : x < 0x80) (value : x.toNat = c.toNat)
include ascii value

theorem characters_ascii (rest : Bytes) : characters (x :: rest) = c :: characters rest := by
  rw [characters_cons, ← (first_iff ascii value x rest).mpr rfl, firstChar_of_ascii ascii]

theorem mem_characters_iff (bytes : Bytes) : c ∈ characters bytes ↔ x ∈ bytes := by
  constructor
  · fun_induction scalars bytes with
    | case1 => simp [characters]
    | case2 b rest ih =>
      rw [characters_cons, List.mem_cons, first_iff ascii value]
      rintro (rfl | later)
      · exact List.mem_cons_self
      · exact List.mem_cons_of_mem b ((firstChar_suffix b rest).subset (ih later))
  · intro member
    obtain ⟨before, after, rfl⟩ := List.append_of_mem member
    rw [characters_append ascii, characters_ascii ascii value]
    simp

theorem characters_intercalate (texts : List Bytes) :
    characters ([x].intercalate texts) = [c].intercalate (texts.map characters) := by
  induction texts with
  | nil => simp [characters]
  | cons text rest ih =>
    cases rest with
    | nil => simp
    | cons next more =>
      rw [List.intercalate_cons_cons, List.map_cons, List.map_cons, List.intercalate_cons_cons,
        List.append_assoc, List.append_assoc, List.singleton_append, List.singleton_append,
        characters_append ascii, characters_ascii ascii value, ih, List.map_cons]

omit ascii value in
theorem characters_utf8 (text : String) : characters (utf8 text) = text.toList :=
  String.toList_ofList.symm.trans (congrArg String.toList (lossy_utf8 text))

theorem mem_utf8_iff (text : String) : x ∈ utf8 text ↔ c ∈ text.toList := by
  rw [← characters_utf8, mem_characters_iff ascii value]

/-- The bytes are those of a text. -/
def IsUtf8 (bytes : Bytes) : Prop := ∃ text, bytes = utf8 text

omit ascii value in
theorem isUtf8_iff {bytes : Bytes} : IsUtf8 bytes ↔ (scalars bytes).all (·.isSome) = true := by
  simp only [IsUtf8, ← strict_eq_some, strict?]
  split <;> simp_all

omit value in
theorem isUtf8_append (before after : Bytes) :
    IsUtf8 (before ++ x :: after) ↔ IsUtf8 before ∧ IsUtf8 after := by
  rw [isUtf8_iff, isUtf8_iff, isUtf8_iff, scalars_append ascii, scalars_cons,
    firstChar_of_ascii ascii]
  simp

omit value in
/-- Between ASCII bytes all pieces are text if the whole is. -/
theorem isUtf8_of_mem_pieces {bytes : Bytes} (whole : IsUtf8 bytes) :
    ∀ piece ∈ pieces x bytes, IsUtf8 piece := by
  have glued (texts : List Bytes) (isText : IsUtf8 ([x].intercalate texts)) :
      ∀ text ∈ texts, IsUtf8 text := by
    induction texts with
    | nil => exact fun _ member => absurd member List.not_mem_nil
    | cons text rest ih =>
      cases rest with
      | nil => simpa using isText
      | cons next more =>
        rw [List.intercalate_cons_cons, List.append_assoc, List.singleton_append,
          isUtf8_append ascii] at isText
        exact List.forall_mem_cons.mpr ⟨isText.1, ih isText.2⟩
  apply glued
  rwa [pieces_eq_splitOn, List.intercalate_splitOn]

end Text

namespace Path

@[simp] theorem text_utf8 (text : String) : Path.text ⟨Text.utf8 text⟩ = text :=
  Text.lossy_utf8 text

theorem toList_text (path : Path) : path.text.toList = Text.characters path.spelling :=
  String.toList_ofList

/-- A path that is UTF-8, so that its text has all of it. -/
def IsText (path : Path) : Prop := Text.IsUtf8 path.spelling

theorem IsText.join {base path : Path} (first : base.IsText) (second : path.IsText) :
    (base.join path).IsText := by
  obtain ⟨start, spelled⟩ := first
  obtain ⟨rest, spelled'⟩ := second
  have slash : String.utf8EncodeChar '/' = [Byte.slash] := by decide
  unfold Path.join IsText
  split
  · exact ⟨rest, spelled'⟩
  · split
    · exact ⟨start ++ rest, by simp [spelled, spelled', Text.utf8]⟩
    · exact ⟨start ++ "/" ++ rest, by simp [spelled, spelled', Text.utf8, slash]⟩

theorem IsText.names {path : Path} (isText : path.IsText) :
    ∀ name ∈ path.names, Path.IsText ⟨name⟩ := by
  intro name member
  rw [mem_names, components_eq, List.mem_append] at member
  rcases member with first | inside
  · rcases mem_lead first with same | same <;> cases same
  · obtain ⟨segment, piece, read⟩ := List.mem_filterMap.mp inside
    have named : segmentName? segment = some name := by rw [segmentName?, read]; rfl
    rw [← spelled_of_segmentName named]
    exact Text.isUtf8_of_mem_pieces (by decide) isText segment piece

theorem IsText.below {directory : Path} (isText : directory.IsText) {names : List Bytes}
    (named : ∀ name ∈ names, Path.IsText ⟨name⟩) : (directory.below names).IsText := by
  induction names generalizing directory with
  | nil => exact isText
  | cons name rest ih =>
    obtain ⟨first, others⟩ := List.forall_mem_cons.mp named
    exact ih (isText.join first) others

theorem IsText.utf8_text {path : Path} (isText : path.IsText) :
    Text.utf8 path.text = path.spelling := by
  obtain ⟨spelling⟩ := path
  obtain ⟨text, rfl⟩ := isText
  rw [text_utf8]

end Path
end KotlinCompile
