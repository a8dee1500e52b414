import KotlinCompile.Machine.Tree
import KotlinCompile.Proofs.Path.Parent
import Mathlib.Data.List.Flatten

/-! Paths below a directory. Whatever is joined to a path is walked behind it, step by step, and
what can be reached by names alone has one spelling with these names in it. -/
namespace KotlinCompile

/-- What names one thing in a directory. -/
structure IsName (name : Bytes) : Prop where
  filled : name ≠ []
  still : name ≠ [Byte.dot]
  level : name ≠ [Byte.dot, Byte.dot]
  undivided : Byte.slash ∉ name

theorem isName_iff {name : Bytes} :
    IsName name ↔
      name ≠ [] ∧ name ≠ [Byte.dot] ∧ name ≠ [Byte.dot, Byte.dot] ∧ Byte.slash ∉ name :=
  ⟨fun ⟨filled, still, level, undivided⟩ => ⟨filled, still, level, undivided⟩,
    fun ⟨filled, still, level, undivided⟩ => ⟨filled, still, level, undivided⟩⟩

instance (name : Bytes) : Decidable (IsName name) := decidable_of_iff _ isName_iff.symm

namespace Path

/-- A path that is continued behind a slash. -/
structure TakesSlash (path : Path) : Prop where
  spelled : path.spelling ≠ []
  unended : path.spelling.getLast? ≠ some Byte.slash

/-- The path from a directory down along some names. -/
def below (directory : Path) (names : List Bytes) : Path := names.foldl child directory

theorem below_append (directory : Path) (names more : List Bytes) :
    directory.below (names ++ more) = (directory.below names).below more :=
  List.foldl_append

section Join
variable {base path : Path} {rest : Bytes}

theorem segments_append (spelled : base.spelling ≠ [])
    (whole : path.spelling = base.spelling ++ Byte.slash :: rest) :
    path.segments = base.segments ++ Text.pieces Byte.slash rest ∧
      path.isAbsolute = base.isAbsolute := by
  obtain ⟨b, bs, shape⟩ := List.exists_cons_of_ne_nil spelled
  have same : path.isAbsolute = base.isAbsolute := by
    rw [isAbsolute, isAbsolute, whole, shape]
    rfl
  refine ⟨?_, same⟩
  rw [segments, segments, same, whole, shape]
  split
  · exact Text.pieces_append Byte.slash bs rest
  · exact Text.pieces_append Byte.slash (b :: bs) rest

theorem segments_relative (relative : path.isAbsolute = false) :
    path.segments = Text.pieces Byte.slash path.spelling := by
  rw [segments, relative, if_neg Bool.false_ne_true]

theorem join_spelling (takes : base.TakesSlash) (relative : path.isAbsolute = false) :
    (base.join path).spelling = base.spelling ++ Byte.slash :: path.spelling := by
  unfold join
  rw [if_neg (by simp [relative]), if_neg (by simp [takes.spelled, takes.unended])]

/-- What is joined to a path is walked behind it. -/
theorem steps_join (takes : base.TakesSlash) (relative : path.isAbsolute = false) :
    Tree.steps (base.join path) = Tree.steps base ++ Tree.steps path ∧
      (base.join path).isAbsolute = base.isAbsolute := by
  have ⟨segments, spelled⟩ := segments_append takes.spelled (join_spelling takes relative)
  refine ⟨?_, spelled⟩
  rw [Tree.steps, segments, ← segments_relative relative]
  rfl

end Join

end Path

namespace IsName
variable {name : Bytes} (isName : IsName name)
include isName

theorem relative : (⟨name⟩ : Path).isAbsolute = false := by
  have first : name.head? ≠ some Byte.slash := fun slash =>
    isName.undivided (List.mem_of_mem_head? slash)
  simpa [Path.isAbsolute] using first

theorem segments : (⟨name⟩ : Path).segments = [name] := by
  rw [Path.segments_relative isName.relative]
  exact Text.pieces_of_not_mem isName.undivided

theorem component : Path.segmentComponent? name = some (.name name) := by
  unfold Path.segmentComponent?
  rw [if_neg (not_or.mpr ⟨isName.filled, isName.still⟩), if_neg isName.level]

theorem components : (⟨name⟩ : Path).components = [.name name] := by
  have starts : (⟨name⟩ : Path).start = [] := by
    rw [Path.start, isName.relative, isName.segments]
    simp [isName.still]
  rw [Path.components, starts, isName.segments, List.filterMap_cons_some isName.component]
  rfl

end IsName

theorem isName_of_mem_names {path : Path} {name : Bytes} (member : name ∈ path.names) :
    IsName name := by
  have counted := (Path.mem_names path name).mp member
  rw [Path.components_eq_startOf, List.mem_append] at counted
  rcases counted with first | inside
  · unfold Path.startOf at first
    split at first
    · cases List.mem_singleton.mp first
    · split at first
      · cases List.mem_singleton.mp first
      · cases first
  · obtain ⟨segment, among, read⟩ := List.mem_filterMap.mp inside
    have plain := path.segments_plain segment among
    unfold Path.segmentComponent? at read
    split at read
    · cases read
    next busy =>
    split at read
    · cases read
    next level =>
    cases read
    have ⟨filled, still⟩ := not_or.mp busy
    exact ⟨filled, still, level, plain⟩

namespace Path
variable {directory : Path}

theorem takesSlash_child {name : Bytes} (isName : IsName name) (base : Path) :
    (base.child name).TakesSlash := by
  obtain ⟨front, whole⟩ : ∃ front, (base.child name).spelling = front ++ name := by
    unfold child join
    rw [if_neg (by simp [isName.relative])]
    split
    · exact ⟨_, rfl⟩
    · exact ⟨base.spelling ++ [Byte.slash], by simp⟩
  refine ⟨fun empty => isName.filled (List.append_eq_nil_iff.mp (whole ▸ empty)).2, fun slash => ?_⟩
  rw [whole, List.getLast?_append_of_ne_nil _ isName.filled] at slash
  exact isName.undivided (List.mem_of_getLast? slash)

/-- All children of a path are walked to in the same way, up to their names. -/
theorem steps_child (base : Path) : ∃ way, ∀ name, IsName name →
    Tree.steps (base.child name) = way ++ [name] ∧
      (base.child name).isAbsolute = base.isAbsolute := by
  have alone {name : Bytes} (isName : IsName name) : Tree.steps ⟨name⟩ = [name] := isName.segments
  by_cases takes : base.TakesSlash
  · refine ⟨Tree.steps base, fun name isName => ?_⟩
    obtain ⟨steps, spelled⟩ := steps_join takes isName.relative
    exact ⟨by rw [child, steps, alone isName], spelled⟩
  -- a base that is empty or ends in a slash is continued by the name itself
  have glued {name : Bytes} (isName : IsName name) :
      (base.child name).spelling = base.spelling ++ name := by
    have ends : (base.spelling = [] || base.spelling.getLast? == some Byte.slash) = true := by
      rw [Bool.or_eq_true, decide_eq_true_iff, beq_iff_eq]
      by_contra neither
      rw [not_or] at neither
      exact takes ⟨neither.1, neither.2⟩
    rw [child, join, if_neg (by simp [isName.relative]), if_pos ends]
  cases shape : base.spelling using List.reverseRecOn with
  | nil =>
    refine ⟨[], fun name isName => ?_⟩
    have same : base.child name = ⟨name⟩ := by
      have whole := glued isName
      rw [shape, List.nil_append] at whole
      exact congrArg Path.mk whole
    have empty : base.isAbsolute = false := by rw [isAbsolute, shape]; rfl
    rw [same, empty]
    exact ⟨alone isName, isName.relative⟩
  | append_singleton before last =>
    have slash : last = Byte.slash := by
      by_contra other
      refine takes ⟨by simp [shape], by simp [shape, other]⟩
    subst slash
    cases before with
    | nil =>
      refine ⟨[], fun name isName => ?_⟩
      have whole : (base.child name).spelling = Byte.slash :: name := by
        rw [glued isName, shape]
        rfl
      have absolute : (base.child name).isAbsolute = true := by simp [isAbsolute, whole]
      refine ⟨?_, absolute.trans (by simp [isAbsolute, shape])⟩
      rw [Tree.steps, segments, absolute, if_pos rfl, whole]
      exact Text.pieces_of_not_mem isName.undivided
    | cons b bs =>
      let front : Path := ⟨b :: bs⟩
      have spelled : front.spelling = b :: bs := rfl
      refine ⟨Tree.steps front, fun name isName => ?_⟩
      have whole : (base.child name).spelling = front.spelling ++ Byte.slash :: name := by
        rw [glued isName, shape, spelled, List.append_assoc]
        rfl
      obtain ⟨segments, absolute⟩ := segments_append (by simp [spelled]) whole
      refine ⟨?_, absolute.trans ?_⟩
      · rw [Tree.steps, segments, Text.pieces_of_not_mem isName.undivided]
        rfl
      · rw [isAbsolute, isAbsolute, spelled, shape]
        rfl

theorem takesSlash_below (takes : directory.TakesSlash) {names : List Bytes}
    (named : ∀ name ∈ names, IsName name) : (directory.below names).TakesSlash := by
  induction names generalizing directory with
  | nil => exact takes
  | cons name rest ih =>
    have ⟨first, others⟩ := List.forall_mem_cons.mp named
    exact ih (takesSlash_child first directory) others

theorem below_spelling (takes : directory.TakesSlash) {names : List Bytes}
    (named : ∀ name ∈ names, IsName name) : (directory.below names).spelling =
      directory.spelling ++ names.flatMap fun name => Byte.slash :: name := by
  induction names generalizing directory with
  | nil => exact (List.append_nil _).symm
  | cons name rest ih =>
    have ⟨first, others⟩ := List.forall_mem_cons.mp named
    have step : (directory.below (name :: rest)) = (directory.child name).below rest := rfl
    rw [step, ih (takesSlash_child first directory) others, child,
      join_spelling takes first.relative, List.flatMap_cons, List.append_assoc]

theorem steps_below (takes : directory.TakesSlash) {names : List Bytes}
    (named : ∀ name ∈ names, IsName name) :
    Tree.steps (directory.below names) = Tree.steps directory ++ names ∧
      (directory.below names).isAbsolute = directory.isAbsolute := by
  induction names generalizing directory with
  | nil => exact ⟨(List.append_nil _).symm, rfl⟩
  | cons name rest ih =>
    have ⟨first, others⟩ := List.forall_mem_cons.mp named
    have ⟨steps, spelled⟩ := ih (takesSlash_child first directory) others
    have ⟨way, starts⟩ := steps_join takes first.relative
    have one : Tree.steps ⟨name⟩ = [name] := first.segments
    refine ⟨?_, spelled.trans starts⟩
    rw [one] at way
    show Tree.steps ((directory.child name).below rest) = _
    rw [steps, child, way, List.append_assoc]
    rfl

theorem components_below (directory : Path) {names : List Bytes}
    (named : ∀ name ∈ names, IsName name) :
    (directory.below names).components = directory.components ++ names.map .name := by
  induction names generalizing directory with
  | nil => exact (List.append_nil _).symm
  | cons name rest ih =>
    have ⟨first, others⟩ := List.forall_mem_cons.mp named
    show ((directory.child name).below rest).components = _
    rw [ih _ others, components_child first.components, List.append_assoc]
    rfl

theorem below_injective {names others : List Bytes} (named : ∀ name ∈ names, IsName name)
    (named' : ∀ name ∈ others, IsName name)
    (same : (directory.below names).components = (directory.below others).components) :
    names = others := by
  rw [components_below directory named, components_below directory named'] at same
  exact List.map_injective_iff.mpr (fun _ _ => Component.name.inj) (List.append_cancel_left same)

/-- The name that a segment is, if it is one. -/
def segmentName? (segment : Bytes) : Option Bytes :=
  (segmentComponent? segment).bind Component.name?

theorem names_eq_segments (path : Path) : path.names = path.segments.filterMap segmentName? := by
  have starts : path.start.filterMap Component.name? = [] := by
    unfold start
    split
    · rfl
    · split <;> rfl
  rw [names_eq, components, List.filterMap_append, starts, List.nil_append, List.filterMap_filterMap]
  rfl

theorem spelled_of_segmentName {segment name : Bytes} (named : segmentName? segment = some name) :
    segment = name := by
  unfold segmentName? segmentComponent? at named
  split at named
  · cases named
  · split at named
    · cases named
    · exact Option.some.inj named

theorem slash_intercalate {segments : List Bytes} (filled : segments ≠ []) :
    Byte.slash :: [Byte.slash].intercalate segments = segments.flatMap (Byte.slash :: ·) := by
  induction segments with
  | nil => exact absurd rfl filled
  | cons first rest ih =>
    cases rest with
    | nil => simp
    | cons next more =>
      rw [List.intercalate_cons_cons, List.flatMap_cons, ← ih (List.cons_ne_nil next more)]
      simp

/-- The plain spelling along the names of a path is what is left of any spelling of it. -/
theorem below_names_sublist (takes : directory.TakesSlash) {path : Path}
    (relative : path.isAbsolute = false) :
    (directory.below path.names).spelling.Sublist (directory.join path).spelling := by
  have named : ∀ name ∈ path.names, IsName name := fun _ member => isName_of_mem_names member
  have some := Text.pieces_ne_nil Byte.slash path.spelling
  have whole : Byte.slash :: path.spelling = path.segments.flatMap (Byte.slash :: ·) := by
    rw [segments_relative relative, ← slash_intercalate some, Text.pieces_eq_splitOn,
      List.intercalate_splitOn]
  rw [below_spelling takes named, join_spelling takes relative, whole, names_eq_segments]
  refine List.Sublist.append_left ?_ _
  induction path.segments with
  | nil => exact List.Sublist.refl _
  | cons segment rest ih =>
    cases found : segmentName? segment with
    | none =>
      rw [List.filterMap_cons_none found]
      exact ih.trans (List.sublist_append_right _ _)
    | some name =>
      rw [List.filterMap_cons_some found, List.flatMap_cons, List.flatMap_cons,
        spelled_of_segmentName found]
      exact (List.Sublist.refl _).append ih

-- What a machine refuses, it refuses for the text of the path alone.
theorem refusal_of_sublist {path other : Path} (part : path.spelling.Sublist other.spelling)
    (spelled : path.spelling ≠ []) (fine : Tree.refusal? other = none) :
    Tree.refusal? path = none := by
  have shorter := part.length_le
  unfold Tree.refusal? at fine ⊢
  split at fine
  · cases fine
  next nul =>
  split at fine
  · cases fine
  split at fine
  · cases fine
  next fits =>
  have clean : ¬ path.spelling.contains Byte.nul = true := by
    rw [List.contains_iff_mem] at nul ⊢
    exact fun inside => nul (part.subset inside)
  rw [if_neg clean, if_neg spelled, if_neg]
  omega

end Path
end KotlinCompile
