import KotlinCompile.Proofs.Machine.Growth
import KotlinCompile.Proofs.Machine.Onward
import KotlinCompile.Proofs.Path.Parent
import KotlinCompile.Proofs.Text.Utf8

/-! The current directory. A path leads to the same node from there and from the root, behind the
absolute path of the current directory, unless the longer spelling is too long for the machine. -/
namespace KotlinCompile

/-- What occurs in a joined path occurs in one of its parts, or is the slash between them. -/
theorem Path.mem_join {base path : Path} {b : UInt8} (member : b ∈ (base.join path).spelling) :
    b ∈ base.spelling ∨ b = Byte.slash ∨ b ∈ path.spelling := by
  unfold join at member
  split at member
  · exact Or.inr (Or.inr member)
  · split at member
    · exact (List.mem_append.mp member).imp_right Or.inr
    · exact (List.mem_append.mp member).imp_right List.mem_cons.mp

/-- Behind a directory that is reached without a link, a walk goes on as it does from there. -/
theorem Tree.walk_unlinked {tree : Tree} {here place : Location} {steps more : List Bytes}
    (leads : tree.walk true 0 here steps = .ok (.occupied place .directory)) (filled : more ≠ [])
    (follow : Bool) (links : Nat) :
    tree.walk follow links here (steps ++ more) = tree.walk follow links place more := by
  rcases Tree.walkUntilLink_append leads with same | ⟨_, _, refused, _⟩
  · cases links <;> exact same follow _ more filled
  · cases refused

namespace Machine
variable {machine : Machine} {path : Path} {location : Location}

/-- The current directory is where its absolute path leads, and no link is on the way. -/
structure Settled (machine : Machine) : Prop where
  named : ∀ name ∈ machine.here, IsName name ∧ Byte.nul ∉ name
  leads : machine.tree.walk true 0 [] machine.here = .ok (.occupied machine.here .directory)

theorem pathOf_spelling (location : Location) :
    (pathOf location).spelling = Byte.slash :: [Byte.slash].intercalate location := rfl

theorem takesSlash_pathOf {front : Location} {name : Bytes} (isName : IsName name) :
    (pathOf (front ++ [name])).TakesSlash := by
  have filled : front ++ [name] ≠ [] := by simp
  obtain ⟨before, whole⟩ : ∃ before, (pathOf (front ++ [name])).spelling = before ++ name := by
    rw [pathOf_spelling, Path.slash_intercalate filled, List.flatMap_append]
    exact ⟨front.flatMap (Byte.slash :: ·) ++ [Byte.slash], by simp⟩
  refine ⟨by simp [pathOf_spelling], fun slash => ?_⟩
  rw [whole, List.getLast?_append_of_ne_nil _ isName.filled] at slash
  exact isName.undivided (List.mem_of_getLast? slash)

/-- A relative path behind that of a location goes on with its own segments. -/
theorem pathOf_join (named : ∀ name ∈ location, IsName name) (relative : path.isAbsolute = false) :
    (pathOf location).join path = Path.ofSegments true (location ++ path.segments) := by
  have own : path.spelling = [Byte.slash].intercalate path.segments := by
    rw [path.spelling_eq, relative]
    rfl
  suffices same : ((pathOf location).join path).spelling =
      Byte.slash :: [Byte.slash].intercalate (location ++ path.segments) from congrArg Path.mk same
  cases location using List.reverseRecOn with
  | nil =>
    have joined : (pathOf []).join path = ⟨Byte.slash :: path.spelling⟩ := by
      unfold Path.join
      rw [if_neg (by simp [relative])]
      rfl
    rw [joined, List.nil_append, ← own]
  | append_singleton front name =>
    have takes : (pathOf (front ++ [name])).TakesSlash := takesSlash_pathOf (named name (by simp))
    have filled : front ++ [name] ≠ [] := by simp
    have more : path.segments ≠ [] := by
      rw [Path.segments_relative relative]
      exact Text.pieces_ne_nil Byte.slash path.spelling
    rw [Path.join_spelling takes relative, pathOf_spelling, Path.intercalate_append filled more, own]
    simp

namespace Settled
variable (settled : machine.Settled) (relative : path.isAbsolute = false)
include settled relative

theorem steps_absolute : Tree.steps (machine.absolute path) = machine.here ++ Tree.steps path ∧
    (machine.absolute path).isAbsolute = true := by
  have joined : machine.absolute path = _ :=
    pathOf_join (fun name member => (settled.named name member).1) relative
  have more : machine.here ++ path.segments ≠ [] := by
    rw [Path.segments_relative relative]
    exact List.append_ne_nil_of_right_ne_nil _ (Text.pieces_ne_nil Byte.slash path.spelling)
  have plain : ∀ segment ∈ machine.here ++ path.segments, Byte.slash ∉ segment := by
    rw [List.forall_mem_append]
    exact ⟨fun name member => (settled.named name member).1.undivided, path.segments_plain⟩
  have ⟨segments, absolute⟩ := Path.segments_ofSegments more plain (Or.inl rfl)
  rw [joined]
  exact ⟨segments, absolute⟩

/-- A path that is not refused stays so behind the current directory, but for its length. -/
theorem refusal_absolute (fine : Tree.refusal? path = none) :
    Tree.refusal? (machine.absolute path) =
      if Tree.longestPath < (machine.absolute path).spelling.length then some .nameTooLong
      else none := by
  have spelled := Path.spelled_of_isAbsolute (settled.steps_absolute relative).2
  have clean : ¬(machine.absolute path).spelling.contains Byte.nul = true := by
    rw [List.contains_iff_mem]
    intro member
    rcases Path.mem_join member with above | slash | own
    · rw [currentDirectory, pathOf_spelling, List.mem_cons] at above
      rcases above.resolve_left (by decide) |> Text.mem_intercalate with slash | ⟨name, listed, inside⟩
      · exact absurd slash (by decide)
      · exact (settled.named name listed).2 inside
    · exact absurd slash (by decide)
    · rw [Tree.refusal?, if_pos (List.contains_iff_mem.mpr own)] at fine
      cases fine
  rw [Tree.refusal?, if_neg clean, if_neg spelled]

/-- What a path leads to from the current directory is what its absolute path leads to. -/
theorem status_absolute (fine : Tree.refusal? path = none)
    (fits : (machine.absolute path).spelling.length ≤ Tree.longestPath) :
    machine.status (machine.absolute path) = machine.status path := by
  have ⟨steps, absolute⟩ := settled.steps_absolute relative
  have refused := settled.refusal_absolute relative fine
  rw [if_neg (Nat.not_lt.mpr fits)] at refused
  have more : Tree.steps path ≠ [] := by
    rw [Tree.steps, Path.segments_relative relative]
    exact Text.pieces_ne_nil Byte.slash path.spelling
  unfold status Tree.find
  rw [refused, fine, Tree.origin, Tree.origin, absolute, relative, steps]
  dsimp only
  rw [if_pos rfl, if_neg Bool.false_ne_true, Tree.walk_unlinked settled.leads more]

theorem status_tooLong (fine : Tree.refusal? path = none)
    (long : Tree.longestPath < (machine.absolute path).spelling.length) :
    machine.status (machine.absolute path) = .error .nameTooLong := by
  have refused := settled.refusal_absolute relative fine
  rw [if_pos long] at refused
  unfold status Tree.find
  rw [refused]

end Settled
end Machine

theorem Tree.steps_ne_nil (path : Path) : Tree.steps path ≠ [] := Text.pieces_ne_nil Byte.slash _

namespace Machine
variable {machine : Machine} {path : Path}

theorem status_of_read {contents : Contents} (read : machine.read path = .ok contents) :
    ∃ location executable, machine.status path = .ok (location, .file contents executable) := by
  unfold Machine.read at read
  cases found : machine.status path with
  | error cause =>
    rw [found] at read
    cases read
  | ok place =>
    obtain ⟨location, node⟩ := place
    rw [found] at read
    cases node <;> cases read
    exact ⟨location, _, rfl⟩

def Holds (machine : Machine) (path : Path) (text : String) : Prop :=
  ∃ location executable,
    machine.status path = .ok (location, .file (.bytes (Text.utf8 text)) executable)

theorem readText_eq_ok {text : String} : machine.readText path = .ok text ↔
    machine.Holds path text := by
  rw [readText, Fallible.bind_eq_ok]
  constructor
  · rintro ⟨contents, read, decoded⟩
    obtain ⟨location, executable, found⟩ := status_of_read read
    cases contents with
    | bytes data =>
      dsimp only at decoded
      split at decoded
      · next strict =>
        cases decoded
        rw [Text.strict_eq_some.mp strict] at found
        exact ⟨location, executable, found⟩
      · cases decoded
    | archive entries => cases decoded
    | program script => cases decoded
  · rintro ⟨location, executable, found⟩
    refine ⟨_, read_of_status found, ?_⟩
    dsimp only
    rw [Text.strict_eq_some.mpr rfl]
    rfl

/-- A path at which a file is read names something, and does not only stay in a directory. -/
theorem busy_of_read {contents : Contents} (read : machine.read path = .ok contents) :
    Path.inner path.spelling ≠ [] := by
  intro nothing
  obtain ⟨location, executable, found⟩ := status_of_read read
  have stays : path.track = [] := by
    rw [Path.track, Path.components_eq, nothing, List.append_nil, List.filterMap_eq_nil_iff]
    intro component member
    rcases Path.mem_lead member with rfl | rfl <;> rfl
  have routes : machine.Routes path location := status_routes found (by simp)
  rw [Routes, stays] at routes
  cases routes
  have walked := (Tree.find_eq_ok.mp (status_eq_ok.mp found)).2
  cases (Tree.directory_of_walk (Tree.steps_ne_nil path) walked).symm.trans (node_of_status found)

theorem exists_directory {text : String} (read : machine.readText path = .ok text) :
    ∃ directory, path.parent? = some directory := by
  obtain ⟨_, found, _⟩ := Fallible.bind_eq_ok.mp read
  exact Path.exists_parent (busy_of_read found)

end Machine
end KotlinCompile
