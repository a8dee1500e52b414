import KotlinCompile.Archive.Catalog
import KotlinCompile.Proofs.Text.Cut
import KotlinCompile.Text.Character
import Mathlib.Computability.Language

/-! The language of a pattern, of which the pattern accepts every text and no other, and the file
names of an archive, said by the parts that they are put together from. -/
namespace KotlinCompile.Pattern
open Computability

/-- The texts a pattern stands for. -/
def language : Pattern → Language Char
  | never => 0
  | empty => 1
  | oneOf ranges => {text | ∃ c, inRanges ranges c = true ∧ text = [c]}
  | seq first second => first.language * second.language
  | either left right => left.language + right.language
  | many pattern => pattern.language∗

variable {pattern first second left right : Pattern} {ranges : List (Char × Char)}
variable {text rest : List Char} {c : Char}

theorem inRanges_iff : inRanges ranges c = true ↔ ∃ range ∈ ranges, range.1 ≤ c ∧ c ≤ range.2 := by
  simp [inRanges]

theorem not_mem_never : text ∉ never.language := Language.notMem_zero text

theorem mem_empty : text ∈ empty.language ↔ text = [] := Language.mem_one text

theorem mem_oneOf : text ∈ (oneOf ranges).language ↔ ∃ c, inRanges ranges c = true ∧ text = [c] :=
  Iff.rfl

theorem mem_seq : text ∈ (seq first second).language ↔
    ∃ front ∈ first.language, ∃ back ∈ second.language, front ++ back = text :=
  Language.mem_mul

theorem mem_either : text ∈ (either left right).language ↔
    text ∈ left.language ∨ text ∈ right.language := Language.mem_add ..

theorem mem_many : text ∈ (many pattern).language ↔
    ∃ parts : List (List Char), text = parts.flatten ∧ ∀ part ∈ parts, part ∈ pattern.language :=
  Language.mem_kstar

theorem nil_mem_many : [] ∈ (many pattern).language := Language.nil_mem_kstar _

theorem nullable_iff : pattern.nullable = true ↔ [] ∈ pattern.language := by
  induction pattern with
  | never => exact iff_of_false Bool.false_ne_true not_mem_never
  | empty => exact iff_of_true rfl (mem_empty.mpr rfl)
  | oneOf ranges =>
    refine iff_of_false Bool.false_ne_true fun member => ?_
    obtain ⟨_, _, whole⟩ := mem_oneOf.mp member
    cases whole
  | seq first second ih ih' =>
    rw [nullable, Bool.and_eq_true, ih, ih', mem_seq]
    constructor
    · rintro ⟨front, back⟩
      exact ⟨[], front, [], back, rfl⟩
    · rintro ⟨_, front, _, back, whole⟩
      obtain ⟨rfl, rfl⟩ := List.append_eq_nil_iff.mp whole
      exact ⟨front, back⟩
  | either left right ih ih' => rw [nullable, Bool.or_eq_true, ih, ih', mem_either]
  | many pattern _ => exact iff_of_true rfl nil_mem_many

theorem language_followed : (first.followed second).language = (seq first second).language := by
  cases first with
  | never => exact (zero_mul second.language).symm
  | empty => exact (one_mul second.language).symm
  | _ => rfl

theorem language_orElse : (left.orElse right).language = (either left right).language := by
  cases left with
  | never => exact (zero_add right.language).symm
  | _ =>
    cases right with
    | never => exact (add_zero _).symm
    | _ => rfl

theorem cons_mem_many : c :: rest ∈ (many pattern).language ↔
    ∃ front, c :: front ∈ pattern.language ∧ ∃ back ∈ (many pattern).language,
      front ++ back = rest := by
  constructor
  · intro member
    obtain ⟨parts, whole, inside⟩ := Language.mem_kstar_iff_exists_nonempty.mp member
    cases parts with
    | nil => cases whole
    | cons part others =>
      obtain ⟨listed, filled⟩ := inside part List.mem_cons_self
      obtain ⟨d, front, rfl⟩ := List.exists_cons_of_ne_nil filled
      rw [List.flatten_cons, List.cons_append] at whole
      obtain ⟨rfl, rfl⟩ := List.cons.inj whole
      refine ⟨front, listed, others.flatten, mem_many.mpr ⟨others, rfl, fun other among => ?_⟩, rfl⟩
      exact (inside other (List.mem_cons_of_mem _ among)).1
  · rintro ⟨front, listed, back, others, rfl⟩
    obtain ⟨parts, rfl, inside⟩ := mem_many.mp others
    refine mem_many.mpr ⟨(c :: front) :: parts, rfl, fun part among => ?_⟩
    rcases List.mem_cons.mp among with rfl | among
    · exact listed
    · exact inside part among

theorem cons_mem_seq : c :: rest ∈ (seq first second).language ↔
    (∃ front, c :: front ∈ first.language ∧ ∃ back ∈ second.language, front ++ back = rest) ∨
      ([] ∈ first.language ∧ c :: rest ∈ second.language) := by
  rw [mem_seq]
  constructor
  · rintro ⟨front, inside, back, behind, whole⟩
    cases front with
    | nil => exact .inr ⟨inside, whole ▸ behind⟩
    | cons d front =>
      obtain ⟨rfl, rfl⟩ := List.cons.inj whole
      exact .inl ⟨front, inside, back, behind, rfl⟩
  · rintro (⟨front, inside, back, behind, rfl⟩ | ⟨inside, behind⟩)
    · exact ⟨c :: front, inside, back, behind, rfl⟩
    · exact ⟨[], inside, c :: rest, behind, rfl⟩

/-- What may follow behind a first character is what, with that character, the pattern stands for. -/
theorem mem_behind : rest ∈ (pattern.behind c).language ↔ c :: rest ∈ pattern.language := by
  induction pattern generalizing rest with
  | never => exact iff_of_false not_mem_never not_mem_never
  | empty =>
    refine iff_of_false not_mem_never fun member => ?_
    cases mem_empty.mp member
  | oneOf ranges =>
    rw [behind, mem_oneOf]
    split
    · next within =>
      rw [mem_empty]
      constructor
      · rintro rfl
        exact ⟨c, within, rfl⟩
      · rintro ⟨_, _, whole⟩
        exact (List.cons.inj whole).2
    · next outside =>
      refine iff_of_false not_mem_never ?_
      rintro ⟨d, within, whole⟩
      obtain ⟨rfl, _⟩ := List.cons.inj whole
      exact outside within
  | seq first second ih ih' =>
    have front : rest ∈ ((first.behind c).followed second).language ↔ ∃ front,
        c :: front ∈ first.language ∧ ∃ back ∈ second.language, front ++ back = rest := by
      rw [language_followed, mem_seq]
      simp only [ih]
    rw [behind, cons_mem_seq, ← nullable_iff]
    split
    · next nullable => rw [language_orElse, mem_either, front, ih', and_iff_right nullable]
    · next filled => rw [front, or_iff_left fun back => filled back.1]
  | either left right ih ih' => rw [behind, language_orElse, mem_either, mem_either, ih, ih']
  | many pattern ih =>
    rw [behind, language_followed, mem_seq, cons_mem_many]
    simp only [ih]

theorem accepts_iff : pattern.accepts text = true ↔ text ∈ pattern.language := by
  induction text generalizing pattern with
  | nil => exact nullable_iff
  | cons c rest ih => rw [accepts, ih, mem_behind]

theorem mem_word {spelled : String} : text ∈ (word spelled).language ↔ text = spelled.toList := by
  unfold word
  induction spelled.toList generalizing text with
  | nil => exact mem_empty
  | cons c rest ih =>
    rw [List.foldr_cons, mem_seq]
    constructor
    · rintro ⟨_, ⟨d, within, rfl⟩, _, others, rfl⟩
      obtain ⟨_, only, above, below⟩ := inRanges_iff.mp within
      obtain rfl := List.mem_singleton.mp only
      obtain rfl : c = d := Char.le_antisymm above below
      rw [ih.mp others]
      rfl
    · rintro rfl
      exact ⟨[c], ⟨c, by simp [inRanges], rfl⟩, rest, ih.mpr rfl, rfl⟩

theorem toList_mem_word (spelled : String) : spelled.toList ∈ (word spelled).language :=
  mem_word.mpr rfl

theorem mem_optional : text ∈ (optional pattern).language ↔
    text ∈ pattern.language ∨ text = [] := by
  rw [optional, mem_either, mem_empty]

/-- A run of characters, at least one. -/
theorem mem_repeated_oneOf : text ∈ (repeated (oneOf ranges)).language ↔
    text ≠ [] ∧ ∀ c ∈ text, inRanges ranges c = true := by
  have run : ∀ text, text ∈ (many (oneOf ranges)).language ↔
      ∀ c ∈ text, inRanges ranges c = true := by
    intro text
    induction text with
    | nil => exact iff_of_true nil_mem_many (by simp)
    | cons c rest ih =>
      rw [cons_mem_many, List.forall_mem_cons, ← ih]
      constructor
      · rintro ⟨front, ⟨d, within, whole⟩, back, others, rfl⟩
        obtain ⟨rfl, rfl⟩ := List.cons.inj whole
        exact ⟨within, others⟩
      · rintro ⟨within, others⟩
        exact ⟨[], ⟨c, within, rfl⟩, rest, others, rfl⟩
  rw [repeated, mem_seq]
  constructor
  · rintro ⟨_, ⟨c, within, rfl⟩, back, others, rfl⟩
    exact ⟨by simp, List.forall_mem_cons.mpr ⟨within, (run back).mp others⟩⟩
  · rintro ⟨filled, within⟩
    obtain ⟨c, rest, rfl⟩ := List.exists_cons_of_ne_nil filled
    obtain ⟨first, others⟩ := List.forall_mem_cons.mp within
    exact ⟨[c], ⟨c, first, rfl⟩, rest, (run rest).mpr others, rfl⟩

end KotlinCompile.Pattern

namespace KotlinCompile.Archive

def AreDigits (text : List Char) : Prop := text ≠ [] ∧ ∀ c ∈ text, '0' ≤ c ∧ c ≤ '9'

/-- Groups of digits between dots. -/
def IsNumber (text : List Char) : Prop :=
  ∃ groups, groups ≠ [] ∧ (∀ group ∈ groups, AreDigits group) ∧ text = ['.'].intercalate groups

def IsQualifier (text : List Char) : Prop :=
  text ≠ [] ∧ ∀ c ∈ text,
    ('A' ≤ c ∧ c ≤ 'Z') ∨ ('a' ≤ c ∧ c ≤ 'z') ∨ ('0' ≤ c ∧ c ≤ '9') ∨ c = '.'

/-- What may stand between the stem of a name and its ending. -/
inductive IsSuffix : List Char → Prop where
  | unversioned : IsSuffix []
  | versioned {number : List Char} : IsNumber number → IsSuffix ('-' :: number)
  | qualified {number qualifier : List Char} :
      IsNumber number → IsQualifier qualifier → IsSuffix ('-' :: number ++ '-' :: qualifier)

/-- What the names of an archive begin with. -/
inductive HasStem : Archive → List Char → Prop where
  | stdlib : HasStem .stdlib "kotlin-stdlib".toList
  | runtime : HasStem .stdlib "kotlin-runtime".toList
  | stdlibCommon : HasStem .stdlibCommon "kotlin-stdlib-common".toList
  | stdlibJdk {digits : List Char} :
      AreDigits digits → HasStem .stdlibJdk ("kotlin-stdlib-jdk".toList ++ digits)
  | reflect : HasStem .reflect "kotlin-reflect".toList
  | scriptRuntime : HasStem .scriptRuntime "kotlin-script-runtime".toList
  | kapt : HasStem .kapt "kotlin-annotation-processing".toList
  | kaptEmbeddable : HasStem .kapt "kotlin-annotation-processing-embeddable".toList
  | tools : HasStem .tools "tools".toList

theorem isDigit_iff {c : Char} : Text.isDigit c = true ↔ '0' ≤ c ∧ c ≤ '9' := by
  simp [Text.isDigit]

theorem mem_digits {text : List Char} : text ∈ digits.language ↔ AreDigits text := by
  rw [digits, Pattern.mem_repeated_oneOf]
  simp [AreDigits, Pattern.inRanges]

theorem mem_qualifier {text : List Char} : text ∈ qualifier.language ↔ IsQualifier text := by
  have dot {c : Char} : '.' ≤ c ∧ c ≤ '.' ↔ c = '.' :=
    ⟨fun within => Char.le_antisymm within.2 within.1, by rintro rfl; decide⟩
  rw [qualifier, Pattern.mem_repeated_oneOf]
  simp [IsQualifier, Pattern.inRanges, dot]

theorem AreDigits.plain {text : List Char} (digits : AreDigits text) {c : Char}
    (other : Text.isDigit c = false) : c ∉ text := fun member => by
  rw [isDigit_iff.mpr (digits.2 c member)] at other
  cases other

theorem intercalate_groups (first : List Char) (others : List (List Char)) :
    ['.'].intercalate (first :: others) = first ++ (others.map ('.' :: ·)).flatten := by
  induction others generalizing first with
  | nil => simp
  | cons next rest ih =>
    rw [List.intercalate_cons_cons, ih]
    simp

theorem mem_dotted {text : List Char} :
    text ∈ (Pattern.many ((Pattern.word ".").seq digits)).language ↔
      ∃ groups : List (List Char), (∀ group ∈ groups, AreDigits group) ∧
        text = (groups.map ('.' :: ·)).flatten := by
  have dotted (part : List Char) : part ∈ ((Pattern.word ".").seq digits).language ↔
      ∃ group, AreDigits group ∧ '.' :: group = part := by
    simp [Pattern.mem_seq, Pattern.mem_word, mem_digits]
  rw [Pattern.mem_many]
  simp only [dotted]
  constructor
  · rintro ⟨parts, rfl, inside⟩
    induction parts with
    | nil => exact ⟨[], by simp, rfl⟩
    | cons part rest ih =>
      obtain ⟨⟨group, digits, rfl⟩, others⟩ := List.forall_mem_cons.mp inside
      obtain ⟨groups, each, whole⟩ := ih others
      exact ⟨group :: groups, List.forall_mem_cons.mpr ⟨digits, each⟩, by simp [whole]⟩
  · rintro ⟨groups, each, rfl⟩
    exact ⟨_, rfl, List.forall_mem_map.mpr fun group member => ⟨group, each group member, rfl⟩⟩

theorem mem_number {text : List Char} : text ∈ number.language ↔ IsNumber text := by
  rw [number, Pattern.mem_seq]
  simp only [mem_digits, mem_dotted]
  constructor
  · rintro ⟨first, digits, _, ⟨others, each, rfl⟩, rfl⟩
    exact ⟨first :: others, List.cons_ne_nil _ _, List.forall_mem_cons.mpr ⟨digits, each⟩,
      (intercalate_groups first others).symm⟩
  · rintro ⟨groups, nonempty, each, rfl⟩
    obtain ⟨first, others, rfl⟩ := List.exists_cons_of_ne_nil nonempty
    obtain ⟨digits, each⟩ := List.forall_mem_cons.mp each
    exact ⟨first, digits, _, ⟨others, each, rfl⟩, (intercalate_groups first others).symm⟩

theorem mem_version {text : List Char} : text ∈ version.language ↔ IsSuffix text := by
  simp only [version, Pattern.mem_optional, Pattern.mem_seq, Pattern.mem_word, mem_number,
    mem_qualifier]
  constructor
  · rintro (⟨_, rfl, _, ⟨number, isNumber, _, ⟨_, rfl, qualifier, isQualifier, rfl⟩ | rfl, rfl⟩,
      rfl⟩ | rfl)
    · exact .qualified isNumber isQualifier
    · rw [List.append_nil]
      exact .versioned isNumber
    · exact .unversioned
  · intro suffix
    cases suffix with
    | unversioned => exact .inr rfl
    | versioned number => exact .inl ⟨_, rfl, _, ⟨_, number, _, .inr rfl, List.append_nil _⟩, rfl⟩
    | qualified number qualifier =>
      exact .inl ⟨_, rfl, _, ⟨_, number, _, .inl ⟨_, rfl, _, qualifier, rfl⟩, rfl⟩, rfl⟩

theorem mem_stem {archive : Archive} {text : List Char} :
    text ∈ archive.stem.language ↔ HasStem archive text := by
  constructor
  · intro member
    cases archive with
    | stdlib =>
      rcases Pattern.mem_either.mp member with plain | runtime
      · exact Pattern.mem_word.mp plain ▸ .stdlib
      · exact Pattern.mem_word.mp runtime ▸ .runtime
    | stdlibJdk =>
      obtain ⟨_, plain, digits, areDigits, rfl⟩ := Pattern.mem_seq.mp member
      exact Pattern.mem_word.mp plain ▸ .stdlibJdk (mem_digits.mp areDigits)
    | kapt =>
      obtain ⟨_, plain, _, embeddable, rfl⟩ := Pattern.mem_seq.mp member
      obtain rfl := Pattern.mem_word.mp plain
      rcases Pattern.mem_optional.mp embeddable with embeddable | rfl
      · exact Pattern.mem_word.mp embeddable ▸ .kaptEmbeddable
      · exact .kapt
    | stdlibCommon => exact Pattern.mem_word.mp member ▸ .stdlibCommon
    | reflect => exact Pattern.mem_word.mp member ▸ .reflect
    | scriptRuntime => exact Pattern.mem_word.mp member ▸ .scriptRuntime
    | tools => exact Pattern.mem_word.mp member ▸ .tools
  · intro hasStem
    have word := Pattern.toList_mem_word
    cases hasStem with
    | stdlib => exact Pattern.mem_either.mpr (.inl (word _))
    | runtime => exact Pattern.mem_either.mpr (.inr (word _))
    | stdlibJdk digits => exact Pattern.mem_seq.mpr ⟨_, word _, _, mem_digits.mpr digits, rfl⟩
    | kapt => exact Pattern.mem_seq.mpr ⟨_, word _, [], Pattern.mem_optional.mpr (.inr rfl), rfl⟩
    | kaptEmbeddable =>
      exact Pattern.mem_seq.mpr ⟨_, word _, _, Pattern.mem_optional.mpr (.inl (word _)), rfl⟩
    | _ => exact word _

/-- The pattern of an archive stands for its stems, each with a version behind it, and the ending. -/
theorem mem_pattern {archive : Archive} {text : List Char} :
    text ∈ archive.pattern.language ↔ ∃ stem suffix,
      HasStem archive stem ∧ IsSuffix suffix ∧ text = stem ++ suffix ++ ".jar".toList := by
  simp only [pattern, Pattern.mem_seq, Pattern.mem_word, mem_stem, mem_version]
  constructor
  · rintro ⟨stem, hasStem, _, ⟨suffix, isSuffix, _, rfl, rfl⟩, rfl⟩
    exact ⟨stem, suffix, hasStem, isSuffix, (List.append_assoc ..).symm⟩
  · rintro ⟨stem, suffix, hasStem, isSuffix, rfl⟩
    exact ⟨stem, hasStem, _, ⟨suffix, isSuffix, _, rfl, rfl⟩, (List.append_assoc ..).symm⟩

/-- The characters that names of archives are spelled with. -/
def isNameChar : Char → Bool :=
  Pattern.inRanges [('A', 'Z'), ('a', 'z'), ('0', '9'), ('.', '.'), ('-', '-')]

theorem AreDigits.nameChars {text : List Char} (digits : AreDigits text) :
    text.all isNameChar = true := by
  refine List.all_eq_true.mpr fun c member => Pattern.inRanges_iff.mpr ?_
  exact ⟨('0', '9'), by simp, digits.2 c member⟩

theorem IsNumber.nameChars {text : List Char} (number : IsNumber text) :
    text.all isNameChar = true := by
  obtain ⟨groups, _, digits, rfl⟩ := number
  refine List.all_eq_true.mpr fun c member => ?_
  rcases Text.mem_intercalate member with dot | ⟨group, inside, digit⟩
  · rw [List.mem_singleton.mp dot]
    decide
  · exact List.all_eq_true.mp (digits group inside).nameChars c digit

theorem IsQualifier.nameChars {text : List Char} (qualifier : IsQualifier text) :
    text.all isNameChar = true := by
  refine List.all_eq_true.mpr fun c member => Pattern.inRanges_iff.mpr ?_
  rcases qualifier.2 c member with upper | lower | digit | rfl
  · exact ⟨('A', 'Z'), by simp, upper⟩
  · exact ⟨('a', 'z'), by simp, lower⟩
  · exact ⟨('0', '9'), by simp, digit⟩
  · exact ⟨('.', '.'), by simp, by decide⟩

theorem IsSuffix.nameChars {text : List Char} (suffix : IsSuffix text) :
    text.all isNameChar = true := by
  have hyphen : isNameChar '-' = true := by decide
  cases suffix with
  | unversioned => rfl
  | versioned number => rw [List.all_cons, hyphen, number.nameChars, Bool.and_self]
  | qualified number qualifier =>
    rw [List.all_append, List.all_cons, List.all_cons, hyphen, number.nameChars,
      qualifier.nameChars]
    rfl

theorem HasStem.nameChars {archive : Archive} {text : List Char} (hasStem : HasStem archive text) :
    text.all isNameChar = true := by
  cases hasStem with
  | stdlibJdk digits =>
    rw [List.all_append, digits.nameChars]
    decide
  | _ => decide

theorem matchesName_iff {archive : Archive} {name : String} :
    archive.matchesName name = true ↔ ∃ stem suffix,
      HasStem archive stem ∧ IsSuffix suffix ∧ name.toList = stem ++ suffix ++ ".jar".toList := by
  rw [matchesName, Pattern.accepts_iff, mem_pattern]

/-- A name is taken for an archive exactly if all of it is a stem of the archive, perhaps a version,
and the ending. So no directory stands before it, and no line end behind it. -/
theorem matchesName_exact (archive : Archive) (name : String) :
    (archive.matchesName name = true ↔ ∃ stem suffix,
      HasStem archive stem ∧ IsSuffix suffix ∧ name.toList = stem ++ suffix ++ ".jar".toList) ∧
    (archive.matchesName name = true → '/' ∉ name.toList ∧ '\n' ∉ name.toList) := by
  refine ⟨matchesName_iff, fun named => ?_⟩
  obtain ⟨stem, suffix, hasStem, isSuffix, whole⟩ := matchesName_iff.mp named
  have chars : name.toList.all isNameChar = true := by
    rw [whole, List.all_append, List.all_append, hasStem.nameChars, isSuffix.nameChars]
    decide
  have plain {c : Char} (other : isNameChar c = false) : c ∉ name.toList := fun member => by
    rw [List.all_eq_true.mp chars c member] at other
    cases other
  exact ⟨plain (by decide), plain (by decide)⟩

-- What looks like a number or an ending may be part of the qualifier.
example : matchesName .stdlibJdk "kotlin-stdlib-jdk17-2.0-3.4.jar.jar" = true := by decide

end KotlinCompile.Archive
