import KotlinCompile.Proofs.Text.Cut
import KotlinCompile.Request
import KotlinCompile.Text.Character

/-! The grammar of binary class names. The separators of packages and of member classes cut a name
alike, and each piece is an identifier. No character of a name ends a word or a line. -/
namespace KotlinCompile

namespace Text

/-- No code point is in both tables. -/
def CodePoints.isApart (table other : CodePoints) : Bool :=
  table.all fun range => other.all fun gap => decide (range.2 < gap.1) || decide (gap.2 < range.1)

theorem CodePoints.not_has_of_isApart {table other : CodePoints}
    (apart : table.isApart other = true) {c : Char} (found : table.has c = true) :
    other.has c = false := by
  rw [← Bool.not_eq_true, other.has_iff]
  rintro ⟨gap, listed, low, high⟩
  obtain ⟨range, member, above, below⟩ := (table.has_iff c).mp found
  have beside := List.all_eq_true.mp (List.all_eq_true.mp apart range member) gap listed
  rw [Bool.or_eq_true, decide_eq_true_iff, decide_eq_true_iff] at beside
  omega

/-- Blanks and control characters, the slash, and the mark of a comment. -/
def reserved : CodePoints := [(0x0, 0x20), (0x23, 0x23), (0x2F, 0x2F)] ++ blanks

theorem letters_apart_reserved : letters.isApart reserved = true := by decide +kernel

theorem numbers_apart_reserved : numbers.isApart reserved = true := by decide +kernel

end Text

namespace ClassName

def isNameChar (c : Char) : Bool := Text.isAlphanumeric c || c == '_' || c == '$' || c == '.'

theorem not_reserved_of_nameChar {c : Char} (named : isNameChar c = true) :
    Text.reserved.has c = false := by
  simp only [isNameChar, Text.isAlphanumeric, Bool.or_eq_true, beq_iff_eq] at named
  rcases named with (((letter | number) | rfl) | rfl) | rfl
  · exact Text.CodePoints.not_has_of_isApart Text.letters_apart_reserved letter
  · exact Text.CodePoints.not_has_of_isApart Text.numbers_apart_reserved number
  · decide
  · decide
  · decide

theorem nameChar_of_isIdentifier {text : List Char} (identifier : isIdentifier text = true) :
    ∀ c ∈ text, isNameChar c = true := by
  cases text with
  | nil => exact fun _ member => absurd member List.not_mem_nil
  | cons first rest =>
    simp only [isIdentifier, Bool.and_eq_true, Bool.or_eq_true, List.all_eq_true] at identifier
    obtain ⟨start, others⟩ := identifier
    intro c member
    rcases List.mem_cons.mp member with rfl | later
    · rcases start with letter | underscore
      · simp [isNameChar, Text.isAlphanumeric, letter]
      · simp [isNameChar, underscore]
    · rcases others c later with letter | underscore
      · simp [isNameChar, letter]
      · simp [isNameChar, underscore]

theorem isIdentifier_of_isMember {text : List Char} (member : isMember text = true) :
    isIdentifier text = true := by
  cases text with
  | nil => cases member
  | cons first rest => exact (Bool.and_eq_true_iff.mp member).2

theorem nameChar_of_isPart {part : List Char} (named : isPart part = true) :
    ∀ c ∈ part, isNameChar c = true := by
  have pieces : ∀ piece ∈ Text.pieces '$' part, isIdentifier piece = true := by
    unfold isPart at named
    split at named
    · cases named
    · next outer members found =>
      rw [Bool.and_eq_true, List.all_eq_true] at named
      rw [found, List.forall_mem_cons]
      exact ⟨named.1, fun piece member => isIdentifier_of_isMember (named.2 piece member)⟩
  intro c member
  rcases Text.mem_piece_of_mem '$' member with rfl | ⟨piece, kept, inside⟩
  · simp [isNameChar]
  · exact nameChar_of_isIdentifier (pieces piece kept) c inside

/-- A resolvable name is not empty, and each of its characters is one that names are made of. -/
theorem nameChar_of_isResolvable {name : String} (resolvable : isResolvable name = true) :
    name ≠ "" ∧ ∀ c ∈ name.toList, isNameChar c = true := by
  rw [isResolvable, Bool.and_eq_true, List.all_eq_true, bne_iff_ne] at resolvable
  refine ⟨resolvable.1, fun c member => ?_⟩
  rcases Text.mem_piece_of_mem '.' member with rfl | ⟨part, kept, inside⟩
  · simp [isNameChar]
  · exact nameChar_of_isPart (resolvable.2 part kept) c inside

end ClassName

namespace Text
variable {α : Type}

-- Pieces that are cut once more are the pieces that both kinds of separators leave at once.
theorem flatMap_splitOnP (first second : α → Bool) (text : List α) :
    (text.splitOnP first).flatMap (List.splitOnP second) =
      text.splitOnP fun x => first x || second x := by
  induction text with
  | nil => rfl
  | cons x rest ih =>
    obtain ⟨piece, others, cut⟩ := List.exists_cons_of_ne_nil (List.splitOnP_ne_nil first rest)
    obtain ⟨front, more, again⟩ := List.exists_cons_of_ne_nil (List.splitOnP_ne_nil second piece)
    rw [cut, List.flatMap_cons, again] at ih
    simp only [List.splitOnP_cons_eq_if_modifyHead, cut, ← ih]
    by_cases outer : first x = true
    · simp [outer, again]
    · by_cases inner : second x = true <;>
        simp [outer, inner, again, List.splitOnP_cons_eq_if_modifyHead]

theorem isDigit_iff_has (c : Char) : isDigit c = CodePoints.has [(0x30, 0x39)] c :=
  (Bool.or_false _).symm

theorem letters_apart_digits : letters.isApart [(0x30, 0x39)] = true := by decide +kernel

theorem not_isAlphabetic_of_isDigit {c : Char} (digit : isDigit c = true) :
    isAlphabetic c = false := by
  rw [← Bool.not_eq_true]
  intro letter
  have apart := CodePoints.not_has_of_isApart letters_apart_digits letter
  rw [← isDigit_iff_has, digit] at apart
  cases apart

end Text

namespace ClassName

def isSeparator (c : Char) : Bool := c == '.' || c == '$'

/-- The pieces of a name, whichever separator they stand at. -/
def flatPieces (name : String) : List (List Char) := name.toList.splitOnP isSeparator

/-- A letter or an underscore, and behind it letters, numbers and underscores. -/
def Identifies (piece : List Char) : Prop :=
  ∃ first rest, piece = first :: rest ∧ (Text.isAlphabetic first = true ∨ first = '_') ∧
    ∀ c ∈ rest, Text.isAlphanumeric c = true ∨ c = '_'

/-- A name all of whose pieces are identifiers. -/
def Resolvable (name : String) : Prop := ∀ piece ∈ flatPieces name, Identifies piece

theorem isIdentifier_iff {piece : List Char} : isIdentifier piece = true ↔ Identifies piece := by
  cases piece with
  | nil => exact ⟨nofun, nofun⟩
  | cons first rest =>
    simp only [isIdentifier, Bool.and_eq_true, Bool.or_eq_true, List.all_eq_true, beq_iff_eq]
    constructor
    · rintro ⟨start, others⟩
      exact ⟨first, rest, rfl, start, others⟩
    · rintro ⟨_, _, ⟨⟩, start, others⟩
      exact ⟨start, others⟩

/-- No identifier starts with a digit, so a member's name is like any other. -/
theorem isMember_eq (text : List Char) : isMember text = isIdentifier text := by
  cases text with
  | nil => rfl
  | cons first rest =>
    cases digit : Text.isDigit first with
    | false => rw [isMember, digit, Bool.not_false, Bool.true_and]
    | true =>
      have letterless := Text.not_isAlphabetic_of_isDigit digit
      have other : (first == '_') = false := by
        rw [beq_eq_false_iff_ne]
        rintro rfl
        cases digit
      rw [isMember, isIdentifier, digit, letterless, other]
      rfl

theorem isPart_eq (part : List Char) : isPart part = (Text.pieces '$' part).all isIdentifier := by
  have members : isMember = isIdentifier := funext isMember_eq
  rw [isPart, members]
  obtain ⟨outer, others, cut⟩ := List.exists_cons_of_ne_nil (Text.pieces_ne_nil '$' part)
  rw [cut, List.all_cons]

theorem flatMap_pieces (name : String) :
    (Text.pieces '.' name.toList).flatMap (Text.pieces '$') = flatPieces name := by
  have outer : Text.pieces '.' = List.splitOnP (· == '.') := funext (Text.pieces_eq_splitOn '.')
  have inner : Text.pieces '$' = List.splitOnP (· == '$') := funext (Text.pieces_eq_splitOn '$')
  rw [outer, inner, Text.flatMap_splitOnP]
  rfl

theorem isResolvable_iff {name : String} : isResolvable name = true ↔ Resolvable name := by
  have parts : isPart = fun part => (Text.pieces '$' part).all isIdentifier := funext isPart_eq
  rw [isResolvable, Resolvable, ← flatMap_pieces, parts, ← List.all_flatMap, Bool.and_eq_true,
    List.all_eq_true, bne_iff_ne]
  simp only [isIdentifier_iff]
  constructor
  · exact fun resolvable => resolvable.2
  · refine fun pieces => ⟨?_, pieces⟩
    -- the empty name is its only piece, and an empty piece is no identifier
    rintro rfl
    obtain ⟨_, _, ⟨⟩, _⟩ := pieces [] (by decide)

instance (name : String) : Decidable (Resolvable name) := decidable_of_iff _ isResolvable_iff

section Append
variable {separator : String} {mark : Char} (single : separator.toList = [mark])
  (cuts : isSeparator mark = true)
include single cuts

theorem flatPieces_append (a b : String) :
    flatPieces (a ++ separator ++ b) = flatPieces a ++ flatPieces b := by
  have spelled : (a ++ separator ++ b).toList = a.toList ++ mark :: b.toList := by
    simp [String.toList_append, single]
  rw [flatPieces, spelled, List.splitOnP_append_cons _ _ cuts]
  rfl

theorem isResolvable_append (a b : String) :
    isResolvable (a ++ separator ++ b) = (isResolvable a && isResolvable b) := by
  rw [Bool.eq_iff_iff, Bool.and_eq_true, isResolvable_iff, isResolvable_iff, isResolvable_iff]
  unfold Resolvable
  rw [flatPieces_append single cuts, List.forall_mem_append]

end Append

/-- A piece that starts with a digit of any script names an anonymous or a local class. -/
def Numbered (piece : List Char) : Prop :=
  ∃ first rest, piece = first :: rest ∧ (Text.isDigit first = true ∨
    Text.isNumeric first = true ∧ Text.isAlphabetic first = false)

theorem not_identifies_of_numbered {piece : List Char} (numbered : Numbered piece) :
    ¬Identifies piece := by
  obtain ⟨first, rest, rfl, number⟩ := numbered
  have letterless : Text.isAlphabetic first = false :=
    number.elim Text.not_isAlphabetic_of_isDigit And.right
  rintro ⟨_, _, ⟨⟩, letter | underscore, _⟩
  · rw [letterless] at letter
    cases letter
  · rw [underscore] at number
    exact absurd number (by decide +kernel)

/-- A name is resolvable exactly if all its pieces are identifiers, so a name that is put together
from two is resolvable exactly if both are, and one with an anonymous or local class in it, at any
depth, is not. -/
theorem isResolvable_piecewise :
    (∀ name, isResolvable name = true ↔ ∀ piece ∈ flatPieces name, Identifies piece) ∧
    (∀ a b, isResolvable (a ++ "." ++ b) = (isResolvable a && isResolvable b)) ∧
    (∀ a b, isResolvable (a ++ "$" ++ b) = (isResolvable a && isResolvable b)) ∧
    ∀ name, (∃ piece ∈ flatPieces name, Numbered piece) → isResolvable name = false := by
  have dot : ".".toList = ['.'] := by simp
  have dollar : "$".toList = ['$'] := by simp
  refine ⟨fun _ => isResolvable_iff, isResolvable_append dot rfl, isResolvable_append dollar rfl, ?_⟩
  rintro name ⟨piece, member, numbered⟩
  rw [← Bool.not_eq_true, isResolvable_iff]
  exact fun resolvable => not_identifies_of_numbered numbered (resolvable piece member)

example : isResolvable "com.example.Outer$Inner" = true ∧
    isResolvable "com.example.Outer$1$Inner" = false := by decide +kernel

end ClassName
end KotlinCompile
