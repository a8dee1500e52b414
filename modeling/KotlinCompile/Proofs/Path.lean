import KotlinCompile.Path
import KotlinCompile.Proofs.Text.Cut
import Mathlib.Data.List.Perm.Basic
import Mathlib.Order.Compare

/-! The components of a path that is put together from others, and paths in the order of their
components. What they begin with is decided by the base, and every segment of either part stays a
segment of the whole. -/
namespace KotlinCompile

/-- The name that a component is, if it is one. -/
def Component.name? : Component → Option Bytes
  | name bytes => some bytes
  | _ => none

theorem Component.map_name_filterMap {components : List Component}
    (named : ∀ component ∈ components, ∃ bytes, component = .name bytes) :
    (components.filterMap name?).map name = components := by
  induction components with
  | nil => rfl
  | cons component rest ih =>
    obtain ⟨⟨bytes, rfl⟩, others⟩ := List.forall_mem_cons.mp named
    exact congrArg (name bytes :: ·) (ih others)

namespace Path

/-- What the components of a spelling begin with. -/
def lead (text : Bytes) : List Component :=
  if text.head? = some Byte.slash then [.root]
  else if (Text.pieces Byte.slash text).head? = some [Byte.dot] then [.here]
  else []

/-- The components of a spelling that any of its segments may give. -/
def inner (text : Bytes) : List Component :=
  (Text.pieces Byte.slash text).filterMap segmentComponent?

-- The slash that makes a path absolute ends an empty segment, which adds no component.
theorem components_eq (path : Path) : path.components = lead path.spelling ++ inner path.spelling := by
  unfold components start isAbsolute segments lead inner
  by_cases slash : path.spelling.head? = some Byte.slash
  · obtain ⟨rest, whole⟩ := List.head?_eq_some_iff.mp slash
    have idle : segmentComponent? [] = none := rfl
    simp [isAbsolute, whole, Text.pieces, List.filterMap_cons_none idle]
  · simp [isAbsolute, slash]

theorem inner_append (before after : Bytes) :
    inner (before ++ Byte.slash :: after) = inner before ++ inner after := by
  rw [inner, Text.pieces_append, List.filterMap_append]
  rfl

theorem inner_nil : inner [] = [] := rfl

theorem lead_append {before : Bytes} (spelled : before ≠ []) (after : Bytes) :
    lead (before ++ Byte.slash :: after) = lead before := by
  obtain ⟨c, rest, rfl⟩ := List.exists_cons_of_ne_nil spelled
  obtain ⟨piece, others, pieces⟩ :=
    List.exists_cons_of_ne_nil (Text.pieces_ne_nil Byte.slash (c :: rest))
  unfold lead
  rw [Text.pieces_append, pieces]
  rfl

theorem lead_of_relative {path : Path} (relative : path.isAbsolute = false) :
    lead path.spelling = [] ∨ lead path.spelling = [.here] := by
  have first : path.spelling.head? ≠ some Byte.slash := by simpa [isAbsolute] using relative
  unfold lead
  rw [if_neg first]
  split
  · exact Or.inr rfl
  · exact Or.inl rfl

/-- A relative path that is joined to a base adds what its segments give, and no more. -/
theorem components_join {base path : Path} (relative : path.isAbsolute = false)
    (based : base.spelling ≠ []) :
    (base.join path).components = base.components ++ inner path.spelling := by
  rw [components_eq, components_eq base]
  unfold join
  rw [if_neg (by simp [relative])]
  by_cases ends : base.spelling.getLast? = some Byte.slash
  · obtain ⟨before, same⟩ := List.getLast?_eq_some_iff.mp ends
    have joined : base.spelling ++ path.spelling = before ++ Byte.slash :: path.spelling := by
      rw [same, List.append_assoc, List.singleton_append]
    rw [if_pos (by simp [ends]), joined, same, inner_append, inner_append, inner_nil,
      List.append_nil, ← List.append_assoc]
    congr 2
    cases before with
    | nil => rfl
    | cons c rest => rw [lead_append (by simp), lead_append (by simp)]
  · rw [if_neg (by simp [ends, based]), inner_append, lead_append based, List.append_assoc]

-- Behind the beginning there are only names and steps up.
theorem mem_inner {text : Bytes} {component : Component} (member : component ∈ inner text) :
    component = .up ∨ ∃ name, component = .name name := by
  obtain ⟨segment, _, read⟩ := List.mem_filterMap.mp member
  unfold segmentComponent? at read
  split at read
  · cases read
  · split at read
    · exact Or.inl (Option.some.inj read).symm
    · exact Or.inr ⟨segment, (Option.some.inj read).symm⟩

theorem mem_lead {text : Bytes} {component : Component} (member : component ∈ lead text) :
    component = .root ∨ component = .here := by
  unfold lead at member
  split at member
  · exact Or.inl (List.mem_singleton.mp member)
  · split at member
    · exact Or.inr (List.mem_singleton.mp member)
    · cases member

theorem root_mem_components (path : Path) :
    .root ∈ path.components ↔ path.isAbsolute = true := by
  rw [components_eq, List.mem_append]
  constructor
  · rintro (first | inside)
    · cases absolute : path.isAbsolute with
      | true => rfl
      | false =>
        rcases lead_of_relative absolute with none | here
        · rw [none] at first
          cases first
        · rw [here] at first
          cases List.mem_singleton.mp first
    · rcases mem_inner inside with up | ⟨name, named⟩
      · cases up
      · cases named
  · intro absolute
    have first : path.spelling.head? = some Byte.slash := by simpa [isAbsolute] using absolute
    rw [lead, if_pos first]
    exact Or.inl (List.mem_singleton.mpr rfl)

theorem names_eq (path : Path) : path.names = path.components.filterMap Component.name? := rfl

theorem mem_names (path : Path) (name : Bytes) :
    name ∈ path.names ↔ .name name ∈ path.components := by
  rw [names_eq, List.mem_filterMap]
  constructor
  · rintro ⟨component, member, named⟩
    cases component <;> cases named
    exact member
  · exact fun member => ⟨_, member, rfl⟩

/-- Without steps up, the names are all that there is behind the beginning. -/
theorem inner_eq_names {path : Path} (level : .up ∉ path.components) :
    inner path.spelling = path.names.map .name := by
  rw [components_eq, List.mem_append, not_or] at level
  have beginning : (lead path.spelling).filterMap Component.name? = [] := by
    rw [List.filterMap_eq_nil_iff]
    intro component member
    rcases mem_lead member with rfl | rfl <;> rfl
  rw [names_eq, components_eq, List.filterMap_append, beginning, List.nil_append]
  refine (Component.map_name_filterMap fun component member => ?_).symm
  rcases mem_inner member with rfl | named
  · exact absurd member level.2
  · exact named

/-- A child's name is the last component of its path, whatever the path of its parent. -/
theorem components_child {name : Bytes} (single : (⟨name⟩ : Path).components = [.name name])
    (base : Path) : (base.child name).components = base.components ++ [.name name] := by
  have relative : (⟨name⟩ : Path).isAbsolute = false := by
    rw [← Bool.not_eq_true, ← root_mem_components, single]
    simp
  by_cases based : base.spelling = []
  · have nothing : base.components = [] := by
      obtain ⟨spelling⟩ := base
      cases based
      rfl
    have alone : base.child name = ⟨name⟩ := by
      rw [child, join, relative, based]
      simp
    rw [nothing, alone, single]
    rfl
  · rw [child, components_join relative based, inner_eq_names (by rw [single]; simp), names_eq,
      single]
    rfl

-- Joined paths come apart again at the separator if none of them holds it, and only then.
theorem pieces_joined_iff (separator : UInt8) {paths : List Path} (nonempty : paths ≠ []) :
    (Text.pieces separator ([separator].intercalate (paths.map spelling))).map Path.mk = paths ↔
      ∀ path ∈ paths, separator ∉ path.spelling := by
  have texts : paths.map spelling ≠ [] := fun none => nonempty (List.map_eq_nil_iff.mp none)
  rw [← List.forall_mem_map (f := spelling) (P := (separator ∉ ·)),
    ← Text.pieces_intercalate_iff separator texts]
  constructor
  · intro same
    have spelled := congrArg (List.map spelling) same
    exact (List.map_map ..).symm.trans spelled |> (List.map_id _).symm.trans
  · intro same
    rw [same, List.map_map]
    exact List.map_id'' (fun _ => rfl) _

end Path

namespace Component

theorem order_eq : order = compareLex (compareOn rank) (compareOn bytes) := rfl

instance : Std.TransCmp order := by
  rw [order_eq]
  infer_instance

instance : Std.LawfulEqCmp order where
  compare_self := Std.ReflCmp.compare_self
  eq_of_compare {a b} same := by
    have ⟨ranks, names⟩ := Ordering.then_eq_eq.mp same
    have names := Std.LawfulEqCmp.eq_of_compare names
    have ranks := Std.LawfulEqCmp.eq_of_compare ranks
    cases a <;> cases b
    case name.name bytes other => exact congrArg name names
    all_goals first | rfl | cases ranks

end Component

namespace Path

theorem order_isLE_trans {p q r : Path} (first : (p.order q).isLE = true)
    (second : (q.order r).isLE = true) : (p.order r).isLE = true :=
  show (List.compareLex Component.order _ _).isLE = true from Std.TransCmp.isLE_trans first second

theorem order_swap (p q : Path) : p.order q = (q.order p).swap :=
  show List.compareLex Component.order _ _ = _ from Std.OrientedCmp.eq_swap

theorem order_eq_iff {p q : Path} : p.order q = .eq ↔ p.components = q.components :=
  show List.compareLex Component.order _ _ = .eq ↔ _ from Std.LawfulEqCmp.compare_eq_iff_eq

/-- Strictly ascending, so no two of the paths have the same components. -/
def Ascending (paths : List Path) : Prop := paths.Pairwise fun p q => p.order q = .lt

theorem mem_sorted {paths : List Path} {path : Path} : path ∈ sorted paths ↔ path ∈ paths :=
  (List.mergeSort_perm paths _).mem_iff

theorem ascending_sorted {paths : List Path}
    (apart : paths.Pairwise fun p q => p.components ≠ q.components) : Ascending (sorted paths) := by
  have total (p q : Path) : ((p.order q).isLE || (q.order p).isLE) = true := by
    rw [order_swap q p]
    cases p.order q <;> rfl
  have ordered : (sorted paths).Pairwise fun p q => (p.order q).isLE = true :=
    List.pairwise_mergeSort (fun p q r => order_isLE_trans (p := p) (q := q) (r := r)) total paths
  have still : (sorted paths).Pairwise fun p q => p.components ≠ q.components :=
    (List.mergeSort_perm paths _).symm.pairwise apart fun differ => differ.symm
  refine (ordered.and still).imp fun {p q} ⟨within, differ⟩ => ?_
  cases comparison : p.order q with
  | lt => rfl
  | eq => exact absurd (order_eq_iff.mp comparison) differ
  | gt =>
    rw [comparison] at within
    cases within

/-- Ascending lists of the same paths are the same list. -/
theorem Ascending.eq_of_mem_iff {paths others : List Path} (first : Ascending paths)
    (second : Ascending others) (same : ∀ path, path ∈ paths ↔ path ∈ others) : paths = others := by
  have irreflexive {p q : Path} (before : p.order q = .lt) : p ≠ q := by
    rintro rfl
    rw [order_eq_iff.mpr rfl] at before
    cases before
  have perm : paths.Perm others :=
    (List.perm_ext_iff_of_nodup (first.imp irreflexive) (second.imp irreflexive)).mpr same
  refine perm.eq_of_pairwise (fun p q _ _ before after => ?_) first second
  rw [order_swap, after] at before
  cases before

end Path
end KotlinCompile
