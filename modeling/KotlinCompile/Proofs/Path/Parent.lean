import KotlinCompile.Proofs.Path
import Mathlib.Data.List.DropRight

/-! The parent of a path: what is left without its last component. It does not matter whether a file
is named from the current directory or by its absolute path: what is resolved against its parent has
the same components, once it is made absolute. -/
namespace KotlinCompile.Path

theorem segmentComponent_of_idle {segment : Bytes} (idle : segment = [] ∨ segment = [Byte.dot]) :
    segmentComponent? segment = none := by
  rcases idle with rfl | rfl <;> rfl

theorem segmentComponent_isSome {segment : Bytes} (busy : ¬(segment = [] ∨ segment = [Byte.dot])) :
    ∃ component, segmentComponent? segment = some component := by
  unfold segmentComponent?
  rw [if_neg busy]
  split <;> exact ⟨_, rfl⟩

def isIdle (segment : Bytes) : Bool := segment == [] || segment == [Byte.dot]

theorem isIdle_iff {segment : Bytes} :
    isIdle segment = true ↔ segment = [] ∨ segment = [Byte.dot] := by
  simp [isIdle]

theorem withoutIdleEnd_eq (segments : List Bytes) :
    withoutIdleEnd segments = segments.rdropWhile isIdle := rfl

theorem filterMap_withoutIdleEnd (segments : List Bytes) :
    (withoutIdleEnd segments).filterMap segmentComponent? =
      segments.filterMap segmentComponent? := by
  rw [withoutIdleEnd_eq]
  induction segments using List.reverseRecOn with
  | nil => rfl
  | append_singleton before last ih =>
    rw [List.rdropWhile_concat]
    split
    · next idle =>
      have nothing := segmentComponent_of_idle (isIdle_iff.mp idle)
      rw [ih, List.filterMap_append, List.filterMap_cons_none nothing, List.filterMap_nil,
        List.append_nil]
    · rfl

theorem withoutIdleEnd_front (segments : List Bytes) : withoutIdleEnd segments <+: segments :=
  List.rdropWhile_prefix isIdle segments

theorem component_of_withoutIdleEnd {segments before : List Bytes} {last : Bytes}
    (ends : withoutIdleEnd segments = before ++ [last]) :
    ∃ component, segmentComponent? last = some component := by
  have filled : withoutIdleEnd segments ≠ [] := by simp [ends]
  have busy : ¬ isIdle ((withoutIdleEnd segments).getLast filled) :=
    List.rdropWhile_last_not isIdle segments filled
  simp only [ends, List.getLast_concat] at busy
  exact segmentComponent_isSome fun idle => busy (isIdle_iff.mpr idle)

/-- What the components of a path with some segments begin with. -/
def startOf (absolute : Bool) (segments : List Bytes) : List Component :=
  if absolute then [.root] else if segments.head? == some [Byte.dot] then [.here] else []

theorem components_eq_startOf (path : Path) : path.components =
    startOf path.isAbsolute path.segments ++ path.segments.filterMap segmentComponent? := rfl

theorem intercalate_append {separator : Bytes} {texts others : List Bytes}
    (left : texts ≠ []) (right : others ≠ []) : separator.intercalate (texts ++ others) =
      separator.intercalate texts ++ separator ++ separator.intercalate others := by
  induction texts with
  | nil => exact absurd rfl left
  | cons text rest ih =>
    cases rest with
    | nil =>
      obtain ⟨other, more, rfl⟩ := List.exists_cons_of_ne_nil right
      rw [List.singleton_append, List.intercalate_cons_cons, List.intercalate_singleton]
    | cons next more =>
      have later := ih (List.cons_ne_nil next more)
      rw [List.cons_append, List.cons_append, List.intercalate_cons_cons, ← List.cons_append, later,
        List.intercalate_cons_cons]
      simp only [List.append_assoc]

theorem segments_plain (path : Path) : ∀ segment ∈ path.segments, Byte.slash ∉ segment := by
  intro segment member
  exact Text.not_mem_of_mem_pieces member

/-- A path is its segments with slashes between them, behind the slash that makes it absolute. -/
theorem spelling_eq (path : Path) : path.spelling =
    (if path.isAbsolute then [Byte.slash] else []) ++ [Byte.slash].intercalate path.segments := by
  have glue (text : Bytes) : [Byte.slash].intercalate (Text.pieces Byte.slash text) = text := by
    rw [Text.pieces_eq_splitOn]
    exact List.intercalate_splitOn Byte.slash
  cases slash : path.isAbsolute with
  | true =>
    have first : path.spelling.head? = some Byte.slash := by simpa [isAbsolute] using slash
    obtain ⟨rest, same⟩ := List.head?_eq_some_iff.mp first
    rw [segments, slash, if_pos rfl, if_pos rfl, glue, same]
    rfl
  | false =>
    rw [segments, slash, if_neg Bool.false_ne_true, if_neg Bool.false_ne_true, glue]
    rfl

theorem ofSegments_spelling (absolute : Bool) (segments : List Bytes) :
    (ofSegments absolute segments).spelling =
      (if absolute then [Byte.slash] else []) ++ [Byte.slash].intercalate segments := rfl

/-- Segments that a path can be made of: an empty one in front would make a relative path absolute. -/
def Begins (absolute : Bool) (segments : List Bytes) : Prop :=
  absolute = true ∨ segments.head? ≠ some []

theorem Begins.of_front {absolute : Bool} {front segments : List Bytes}
    (begins : Begins absolute segments) (within : front <+: segments) : Begins absolute front := by
  obtain ⟨more, rfl⟩ := within
  refine begins.imp_right fun other empty => other ?_
  obtain ⟨rest, rfl⟩ := List.head?_eq_some_iff.mp empty
  rfl

/-- The segments that a path is made of are read from it again. -/
theorem segments_ofSegments {absolute : Bool} {segments : List Bytes}
    (filled : segments ≠ []) (plain : ∀ segment ∈ segments, Byte.slash ∉ segment)
    (begins : Begins absolute segments) :
    (ofSegments absolute segments).segments = segments ∧
      (ofSegments absolute segments).isAbsolute = absolute := by
  have cut : Text.pieces Byte.slash ([Byte.slash].intercalate segments) = segments :=
    (Text.pieces_intercalate_iff Byte.slash filled).mpr plain
  cases absolute with
  | true =>
    have whole := ofSegments_spelling true segments
    rw [if_pos rfl, List.singleton_append] at whole
    have spelled : (ofSegments true segments).isAbsolute = true := by simp [isAbsolute, whole]
    rw [Path.segments, spelled, if_pos rfl, whole]
    exact ⟨cut, rfl⟩
  | false =>
    have whole := ofSegments_spelling false segments
    rw [if_neg Bool.false_ne_true, List.nil_append] at whole
    have first : ∀ rest, [Byte.slash].intercalate segments ≠ Byte.slash :: rest := by
      intro rest slash
      rw [slash] at cut
      refine (begins.resolve_left Bool.false_ne_true) ?_
      rw [← cut]
      rfl
    have spelled : (ofSegments false segments).isAbsolute = false := by
      cases shape : [Byte.slash].intercalate segments with
      | nil => simp [isAbsolute, whole, shape]
      | cons c rest =>
        have other : c ≠ Byte.slash := fun same => first rest (by rw [shape, same])
        simpa [isAbsolute, whole, shape] using other
    rw [Path.segments, spelled, if_neg Bool.false_ne_true, whole]
    exact ⟨cut, rfl⟩

theorem components_ofSegments {absolute : Bool} {segments : List Bytes}
    (plain : ∀ segment ∈ segments, Byte.slash ∉ segment)
    (begins : Begins absolute segments) :
    (ofSegments absolute segments).components =
      startOf absolute segments ++ segments.filterMap segmentComponent? := by
  by_cases empty : segments = []
  · subst empty
    cases absolute <;> decide
  · have ⟨same, spelled⟩ := segments_ofSegments empty plain begins
    rw [components_eq_startOf, same, spelled]

/-- The segments up to the last that is a component begin all of them, but for the empty segment of
the empty path. -/
theorem significant_front {absolute : Bool} {segments : List Bytes}
    (begins : Begins absolute segments) :
    significant absolute segments <+: segments := by
  unfold significant
  split
  · exact List.prefix_refl []
  · next first rest =>
    split
    · exact withoutIdleEnd_front _
    · next relative =>
      have filled : first ≠ [] := fun empty => (begins.resolve_left relative) (by rw [empty]; rfl)
      rw [if_neg (by simpa using filled)]
      exact (List.prefix_cons_inj first).mpr (withoutIdleEnd_front rest)

theorem filterMap_significant (absolute : Bool) (segments : List Bytes) :
    (significant absolute segments).filterMap segmentComponent? =
      segments.filterMap segmentComponent? := by
  unfold significant
  split
  · rfl
  · next first rest =>
    split
    · exact filterMap_withoutIdleEnd _
    · split
      · next empty =>
        rw [filterMap_withoutIdleEnd, beq_iff_eq.mp empty]
        rfl
      · simp only [List.filterMap_cons, filterMap_withoutIdleEnd]

theorem startOf_significant {absolute : Bool} {segments : List Bytes}
    (begins : Begins absolute segments) :
    startOf absolute (significant absolute segments) = startOf absolute segments := by
  cases absolute with
  | true => rfl
  | false =>
    cases segments with
    | nil => rfl
    | cons first rest =>
      have filled : first ≠ [] := fun empty =>
        (begins.resolve_left Bool.false_ne_true) (by rw [empty]; rfl)
      simp [significant, filled, startOf]

-- Only the dot that a relative path begins with may be its last segment and yet no component.
theorem component_of_significant {absolute : Bool} {segments above : List Bytes}
    {last : Bytes} (ends : significant absolute segments = above ++ [last])
    (inside : absolute = true ∨ above ≠ []) :
    ∃ component, segmentComponent? last = some component := by
  unfold significant at ends
  split at ends
  · exact absurd ends.symm (List.append_ne_nil_of_right_ne_nil _ (List.cons_ne_nil _ _))
  · next first rest =>
    split at ends
    · exact component_of_withoutIdleEnd ends
    · next relative =>
      split at ends
      · exact component_of_withoutIdleEnd ends
      · obtain ⟨other, more, rfl⟩ := List.exists_cons_of_ne_nil (inside.resolve_left relative)
        exact component_of_withoutIdleEnd (List.cons.inj ends).2

theorem begins_segments {path : Path} (spelled : path.spelling ≠ []) :
    Begins path.isAbsolute path.segments := by
  cases absolute : path.isAbsolute with
  | true => exact Or.inl rfl
  | false =>
    refine Or.inr fun empty => ?_
    obtain ⟨rest, same⟩ := List.head?_eq_some_iff.mp empty
    have whole := path.spelling_eq
    rw [absolute, same, if_neg Bool.false_ne_true, List.nil_append] at whole
    cases rest with
    | nil => exact spelled whole
    | cons next more =>
      rw [List.intercalate_cons_cons] at whole
      have slash : path.isAbsolute = true := by rw [isAbsolute, whole]; rfl
      exact Bool.false_ne_true (absolute.symm.trans slash)

theorem startOf_append {absolute : Bool} {front : List Bytes} (more : List Bytes)
    (inside : absolute = true ∨ front ≠ []) :
    startOf absolute (front ++ more) = startOf absolute front := by
  rcases inside with rfl | filled
  · rfl
  · obtain ⟨first, rest, rfl⟩ := List.exists_cons_of_ne_nil filled
    rfl

/-- A path with a parent has a last segment that counts, and the parent is made of those before. -/
theorem parent_eq_some {path parent : Path} (above : path.parent? = some parent) :
    ∃ front last, significant path.isAbsolute path.segments = front ++ [last] ∧
      parent = ofSegments path.isAbsolute (significant path.isAbsolute front) ∧
      front ++ [last] <+: path.segments ∧ Begins path.isAbsolute front := by
  unfold parent? at above
  split at above
  · cases above
  next last before ends =>
  cases above
  have whole : significant path.isAbsolute path.segments = before.reverse ++ [last] := by
    rw [← List.reverse_reverse (significant _ _), ends, List.reverse_cons]
  have spelled : path.spelling ≠ [] := by
    intro empty
    obtain ⟨spelling⟩ := path
    cases empty
    exact absurd whole.symm (List.append_ne_nil_of_right_ne_nil _ (List.cons_ne_nil _ _))
  have begins := begins_segments spelled
  have within : before.reverse ++ [last] <+: path.segments := whole ▸ significant_front begins
  exact ⟨_, last, whole, rfl, within,
    begins.of_front ((List.prefix_append _ [last]).trans within)⟩

theorem components_parent {path parent : Path} (above : path.parent? = some parent) :
    parent.components = path.components.dropLast := by
  obtain ⟨front, last, whole, rfl, within, begins⟩ := parent_eq_some above
  have inner := significant_front begins
  have plain : ∀ segment ∈ significant path.isAbsolute front, Byte.slash ∉ segment := by
    intro segment member
    have among := List.mem_append_left [last] (inner.subset member)
    exact path.segments_plain segment (within.subset among)
  have ends : path.components = startOf path.isAbsolute (front ++ [last]) ++
      (front.filterMap segmentComponent? ++ [last].filterMap segmentComponent?) := by
    obtain ⟨more, same⟩ := within
    have starts : startOf path.isAbsolute path.segments =
        startOf path.isAbsolute (front ++ [last]) := by
      rw [← same, startOf_append more (Or.inr (by simp))]
    rw [components_eq_startOf, starts, ← filterMap_significant path.isAbsolute, whole,
      List.filterMap_append]
  rw [components_ofSegments plain (begins.of_front inner), filterMap_significant, ends,
    startOf_significant begins]
  by_cases inside : path.isAbsolute = true ∨ front ≠ []
  · obtain ⟨component, counts⟩ := component_of_significant whole inside
    rw [startOf_append _ inside, List.filterMap_cons_some counts, List.filterMap_nil,
      ← List.append_assoc, List.dropLast_concat]
  · -- the last segment is the first one, so it is all that there is
    simp only [not_or, not_not, Bool.not_eq_true] at inside
    rw [inside.1, inside.2, List.nil_append]
    by_cases dot : last = [Byte.dot]
    · rw [dot]
      rfl
    · have alone : startOf false [last] = [] := by simp [startOf, dot]
      rw [alone]
      cases counts : segmentComponent? last with
      | none => rw [List.filterMap_cons_none counts]; rfl
      | some component => rw [List.filterMap_cons_some counts]; rfl

/-- A path is spelled with its parent in front, unless that is empty or the root. -/
theorem spelled_parent {path parent : Path} (above : path.parent? = some parent) :
    parent.spelling = [] ∨ parent.spelling = [Byte.slash] ∨
      ∃ rest, path.spelling = parent.spelling ++ Byte.slash :: rest := by
  obtain ⟨front, last, _, rfl, within, begins⟩ := parent_eq_some above
  rw [ofSegments_spelling]
  by_cases none : significant path.isAbsolute front = []
  · rw [none]
    split
    · exact Or.inr (Or.inl rfl)
    · exact Or.inl rfl
  · obtain ⟨more, joined⟩ := significant_front begins
    obtain ⟨others, same⟩ := within
    have whole : path.segments = significant path.isAbsolute front ++ (more ++ last :: others) := by
      rw [← same, ← List.append_assoc, joined]
      simp
    refine Or.inr (Or.inr ⟨[Byte.slash].intercalate (more ++ last :: others), ?_⟩)
    rw [path.spelling_eq, whole, intercalate_append none (by simp)]
    simp only [List.append_assoc, List.singleton_append]

end KotlinCompile.Path

namespace KotlinCompile

/-- Whether the component may stand anywhere in a path, and not only at its beginning. -/
def Component.isInner : Component → Bool
  | up | name _ => true
  | _ => false

namespace Path
variable {base path parent : Path}

theorem inner_eq_filter (path : Path) :
    inner path.spelling = path.components.filter Component.isInner := by
  have beginning : (lead path.spelling).filter Component.isInner = [] := by
    rw [List.filter_eq_nil_iff]
    intro component member
    rcases mem_lead member with rfl | rfl <;> decide
  have others : (inner path.spelling).filter Component.isInner = inner path.spelling := by
    rw [List.filter_eq_self]
    intro component member
    rcases mem_inner member with rfl | ⟨name, rfl⟩ <;> rfl
  rw [components_eq, List.filter_append, beginning, others, List.nil_append]

/-- An empty base adds nothing to what is joined to it. -/
theorem join_of_empty (empty : base.spelling = []) (path : Path) : base.join path = path := by
  unfold join
  split
  · rfl
  · rw [empty]
    simp

theorem inner_join (relative : path.isAbsolute = false) :
    inner (base.join path).spelling = inner base.spelling ++ inner path.spelling := by
  by_cases based : base.spelling = []
  · have nothing : inner base.spelling = [] := by
      rw [based]
      rfl
    rw [join_of_empty based, nothing, List.nil_append]
  · have again : (inner path.spelling).filter Component.isInner = inner path.spelling := by
      rw [inner_eq_filter, List.filter_filter]
      simp
    rw [inner_eq_filter, components_join relative based, List.filter_append, again,
      ← inner_eq_filter]

theorem isAbsolute_join (relative : path.isAbsolute = false) :
    (base.join path).isAbsolute = base.isAbsolute := by
  by_cases based : base.spelling = []
  · obtain ⟨spelling⟩ := base
    cases based
    rw [join_of_empty rfl, relative]
    rfl
  · have rootless : .root ∉ inner path.spelling := by
      intro member
      rcases mem_inner member with up | ⟨name, named⟩
      · cases up
      · cases named
    rw [Bool.eq_iff_iff, ← root_mem_components, ← root_mem_components,
      components_join relative based, List.mem_append]
    exact ⟨fun member => member.resolve_right rootless, Or.inl⟩

theorem spelled_of_isAbsolute (absolute : path.isAbsolute = true) : path.spelling ≠ [] := by
  intro empty
  obtain ⟨spelling⟩ := path
  cases empty
  cases absolute

section Parent
variable (busy : inner path.spelling ≠ [])
include busy

theorem exists_parent : ∃ parent, path.parent? = some parent := by
  have counted : path.segments.filterMap segmentComponent? ≠ [] := by
    intro none
    have whole := path.components_eq_startOf
    rw [none, List.append_nil] at whole
    rw [inner_eq_filter, whole] at busy
    refine busy (List.filter_eq_nil_iff.mpr fun component member => ?_)
    unfold startOf at member
    split at member
    · rw [List.mem_singleton.mp member]
      decide
    · split at member
      · rw [List.mem_singleton.mp member]
        decide
      · cases member
  unfold parent?
  split
  · next none =>
    rw [← filterMap_significant path.isAbsolute, List.reverse_eq_nil_iff.mp none] at counted
    exact absurd rfl counted
  · exact ⟨_, rfl⟩

variable (above : path.parent? = some parent)
include above

theorem components_split : ∃ last, last.isInner = true ∧
    path.components = parent.components ++ [last] ∧
      inner path.spelling = inner parent.spelling ++ [last] := by
  obtain ⟨front, last, ends⟩ : ∃ front last, inner path.spelling = front ++ [last] :=
    ⟨_, _, (List.dropLast_append_getLast busy).symm⟩
  have counts : last.isInner = true := by
    have member : last ∈ inner path.spelling := by simp [ends]
    rcases mem_inner member with rfl | ⟨name, rfl⟩ <;> rfl
  have whole : path.components = parent.components ++ [last] := by
    rw [components_parent above, components_eq, ends, ← List.append_assoc, List.dropLast_concat]
  refine ⟨last, counts, whole, ?_⟩
  rw [inner_eq_filter, whole, List.filter_append, ← inner_eq_filter]
  exact congrArg (_ ++ ·) (List.filter_cons_of_pos counts)

theorem isAbsolute_parent : parent.isAbsolute = path.isAbsolute := by
  obtain ⟨last, counts, whole, _⟩ := components_split busy above
  have other : Component.root ≠ last := by
    rintro rfl
    cases counts
  rw [Bool.eq_iff_iff, ← root_mem_components, ← root_mem_components, whole, List.mem_append,
    List.mem_singleton, or_iff_left other]

end Parent

/-- What a relative path comes to from the directory of a file is the same, whether the file is named
from a directory or by its absolute path. -/
theorem components_resolved {directory file near far : Path}
    (absolute : directory.isAbsolute = true) (relative : file.isAbsolute = false)
    (busy : inner file.spelling ≠ []) (above : file.parent? = some near)
    (above' : (directory.join file).parent? = some far) (within : path.isAbsolute = false) :
    (directory.join (near.join path)).components = (far.join path).components := by
  have based := spelled_of_isAbsolute absolute
  have joined := components_join relative based
  obtain ⟨last, _, _, ends⟩ := components_split busy above
  have farther : far.components = directory.components ++ inner near.spelling := by
    rw [components_parent above', joined, ends, ← List.append_assoc, List.dropLast_concat]
  have spelled : far.spelling ≠ [] := by
    apply spelled_of_isAbsolute
    rw [← root_mem_components, farther, List.mem_append, root_mem_components]
    exact Or.inl absolute
  have between : (near.join path).isAbsolute = false := by
    rw [isAbsolute_join within, isAbsolute_parent busy above, relative]
  rw [components_join between based, inner_join within, components_join within spelled, farther,
    List.append_assoc]

end Path
end KotlinCompile
