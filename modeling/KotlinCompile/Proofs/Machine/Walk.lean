import KotlinCompile.Machine.Files
import KotlinCompile.Machine.Tree
import KotlinCompile.Proofs.Fallible

/-! Walks through a tree that grows. No walk leads through a file or a free name, so as long as
directories and links stay, a walk takes the same way as before, and it ends at whatever is there
now. -/
namespace KotlinCompile

/-- The tree has what a walk says it found. -/
def Place.IsIn (tree : Tree) : Place → Prop
  | .occupied location node => tree.node? location = some node
  | .free location _ => tree.node? location = none

/-- The location at which a walk ends. -/
def Place.location : Place → Location
  | occupied location _ => location
  | free location _ => location

/-- What may stand at a place so that the same walk finds it: no link, and where a slash follows
a name that was free, a directory only. -/
def Place.Admits : Place → Node → Prop
  | _, .link _ => False
  | .free _ true, .file .. | .free _ true, .socket => False
  | _, _ => True

theorem Place.unlinked_of_admits {place : Place} {node : Node} (admits : place.Admits node) :
    ∀ target, node ≠ .link target := by
  rintro target rfl
  cases place <;> exact admits

/-- Where a file can be put: where there is one, or at a free name. -/
def Place.fileLocation? : Place → Option Location
  | .occupied location (.file ..) => some location
  | .free location false => some location
  | _ => none

theorem Place.takes_cases {place : Place} {location : Location}
    (takes : place.fileLocation? = some location) :
    (∃ contents executable, place = .occupied location (.file contents executable)) ∨
      place = .free location false := by
  unfold fileLocation? at takes
  split at takes <;> cases takes
  · exact Or.inl ⟨_, _, rfl⟩
  · exact Or.inr rfl

def Node.IsFile : Node → Prop
  | .file .. => True
  | _ => False

namespace Tree
variable {tree : Tree} {location other : Location}

theorem node?_put_self (below : location ≠ []) (node : Node) :
    (tree.put location node).node? location = some node := by
  rw [put, if_neg below, node?, if_neg below]
  exact lookup_putNode_self location node tree.nodes

theorem node?_put_of_ne (differ : other ≠ location) (node : Node) :
    (tree.put location node).node? other = tree.node? other := by
  unfold put node?
  split
  · rfl
  · split
    · rfl
    · exact lookup_putNode_of_ne differ node tree.nodes

section Places
variable {follow : Bool} {jump : Location → List Bytes → Except Cause Place} {place : Place}

theorem walkUntilLink_isIn
    (jumps : ∀ here steps place, jump here steps = .ok place → place.IsIn tree)
    {here : Location} {steps : List Bytes}
    (found : tree.walkUntilLink follow jump here steps = .ok place) : place.IsIn tree := by
  fun_induction walkUntilLink tree follow jump here steps with
  | case1 here node occupied =>
    cases found
    exact occupied
  | case2 | case3 | case6 | case8 => cases found
  | case4 here step rest directory idle ih => exact ih found
  | case5 here rest directory named ih => exact ih found
  | case7 here step rest directory named down short free last =>
    cases found
    exact free
  | case9 here step rest directory named down short target linked last =>
    cases found
    exact linked
  | case10 => exact jumps _ _ _ found
  | case11 here step rest directory named down short node other occupied ih => exact ih found

theorem walk_isIn {links : Nat} {here : Location} {steps : List Bytes}
    (found : tree.walk follow links here steps = .ok place) : place.IsIn tree := by
  induction links generalizing here steps place with
  | zero => exact walkUntilLink_isIn (fun _ _ _ refused => by cases refused) found
  | succ links ih => exact walkUntilLink_isIn (fun _ _ _ jumped => ih jumped) found

end Places

-- The root is a directory, so it is neither a file nor a free name.
theorem takes_file {place : Place} (inside : place.IsIn tree)
    (takes : place.fileLocation? = some location) :
    location ≠ [] ∧ ∀ node, tree.node? location = some node → node.IsFile := by
  have only : ∀ node, tree.node? location = some node → node.IsFile := by
    intro node found
    rcases Place.takes_cases takes with ⟨contents, executable, rfl⟩ | rfl <;>
      cases inside.symm.trans found
    trivial
  refine ⟨?_, only⟩
  rintro rfl
  exact only .directory rfl

/-- Whatever a walk leads through in the one tree is in the other as well. -/
structure Keeps (tree after : Tree) : Prop where
  directory : ∀ location, tree.node? location = some .directory →
    after.node? location = some .directory
  link : ∀ location target, tree.node? location = some (.link target) →
    after.node? location = some (.link target)

theorem walkUntilLink_step {follow : Bool} {jump : Location → List Bytes → Except Cause Place}
    {here : Location} {step : Bytes} {rest : List Bytes}
    (directory : tree.node? here = some .directory) (named : ¬(step = [] ∨ step = [Byte.dot]))
    (down : ¬step = [Byte.dot, Byte.dot]) (short : ¬longestName < step.length) {node : Node}
    (other : ∀ target, node ≠ .link target) (found : tree.node? (here ++ [step]) = some node) :
    tree.walkUntilLink follow jump here (step :: rest) =
      tree.walkUntilLink follow jump (here ++ [step]) rest := by
  rw [walkUntilLink, if_neg (not_not_intro directory), if_neg named, if_neg down, if_neg short,
    found]
  cases node with
  | link target => exact absurd rfl (other target)
  | directory => rfl
  | file contents executable => rfl
  | socket => rfl

section Grown
variable {after : Tree} {follow follow' : Bool} {node : Node}
  {jump jump' : Location → List Bytes → Except Cause Place}

theorem walkUntilLink_idle {here : Location} (directory : tree.node? here = some .directory)
    {steps : List Bytes} (idle : steps.all (· = []) = true) :
    tree.walkUntilLink follow jump here steps = .ok (.occupied here .directory) := by
  induction steps with
  | nil => rw [walkUntilLink, directory]
  | cons step rest ih =>
    rw [List.all_cons, Bool.and_eq_true, decide_eq_true_iff] at idle
    rw [walkUntilLink, if_neg (not_not_intro directory), if_pos (Or.inl idle.1)]
    exact ih idle.2

theorem directory_of_walk {here : Location} {steps : List Bytes} (more : steps ≠ []) {place : Place}
    (found : tree.walkUntilLink follow jump here steps = .ok place) :
    tree.node? here = some .directory := by
  obtain ⟨step, rest, rfl⟩ := List.exists_cons_of_ne_nil more
  rw [walkUntilLink] at found
  split at found
  · cases found
  · next directory => exact Decidable.not_not.mp directory

theorem walkUntilLink_grown (keeps : Keeps tree after) (follows : follow = true → follow' = true)
    (jumps : ∀ here steps place, jump here steps = .ok place →
      after.node? place.location = some node → place.Admits node →
      jump' here steps = .ok (.occupied place.location node))
    {here : Location} {steps : List Bytes} {place : Place}
    (found : tree.walkUntilLink follow jump here steps = .ok place)
    (now : after.node? place.location = some node) (admits : place.Admits node) :
    after.walkUntilLink follow' jump' here steps = .ok (.occupied place.location node) := by
  fun_induction walkUntilLink tree follow jump here steps with
  | case1 here old occupied =>
    cases found
    rw [walkUntilLink]
    exact now ▸ rfl
  | case2 | case3 | case6 | case8 => cases found
  | case4 here step rest directory idle ih =>
    have kept := keeps.directory _ (Decidable.not_not.mp directory)
    rw [walkUntilLink, if_neg (not_not_intro kept), if_pos idle]
    exact ih found
  | case5 here rest directory named ih =>
    have kept := keeps.directory _ (Decidable.not_not.mp directory)
    rw [walkUntilLink, if_neg (not_not_intro kept), if_neg named, if_pos rfl]
    exact ih found
  | case7 here step rest directory named down short free last =>
    cases found
    have kept := keeps.directory _ (Decidable.not_not.mp directory)
    rw [walkUntilLink_step kept named down short (Place.unlinked_of_admits admits) now]
    cases rest with
    | nil =>
      rw [walkUntilLink]
      exact now ▸ rfl
    | cons slash others =>
      -- behind a slash there can only be a directory
      cases node with
      | directory => exact walkUntilLink_idle now last
      | file => cases admits
      | link => cases admits
      | socket => cases admits
  | case9 here step rest directory named down short target linked last =>
    cases found
    cases (keeps.link _ _ linked).symm.trans now
    cases admits
  | case10 here step rest directory named down short target linked more =>
    have kept := keeps.directory _ (Decidable.not_not.mp directory)
    have onward : ¬(rest.isEmpty && !follow') = true := by
      cases follow' <;> simp_all
    rw [walkUntilLink, if_neg (not_not_intro kept), if_neg named, if_neg down, if_neg short,
      keeps.link _ _ linked]
    dsimp only
    rw [if_neg onward]
    exact jumps _ _ _ found now admits
  | case11 here step rest directory named down short old plain occupied ih =>
    have kept := keeps.directory _ (Decidable.not_not.mp directory)
    by_cases ends : rest = []
    · subst ends
      rw [walkUntilLink, occupied] at found
      cases found
      rw [walkUntilLink_step kept named down short (Place.unlinked_of_admits admits) now,
        walkUntilLink]
      exact now ▸ rfl
    · have through := directory_of_walk ends found
      rw [walkUntilLink_step kept named down short (fun _ same => by cases same)
        (keeps.directory _ through)]
      exact ih found

/-- A walk through a tree that grew ends where it ended, at what is there now. -/
theorem walk_grown (keeps : Keeps tree after) (follows : follow = true → follow' = true)
    {links : Nat} {here : Location} {steps : List Bytes} {place : Place}
    (found : tree.walk follow links here steps = .ok place)
    (now : after.node? place.location = some node) (admits : place.Admits node) :
    after.walk follow' links here steps = .ok (.occupied place.location node) := by
  induction links generalizing here steps place with
  | zero =>
    exact walkUntilLink_grown keeps follows (fun _ _ _ refused => by cases refused) found now admits
  | succ links ih =>
    exact walkUntilLink_grown keeps follows (fun _ _ _ jumped now admits => ih jumped now admits)
      found now admits

theorem find_grown (keeps : Keeps tree after) (follows : follow = true → follow' = true)
    {here : Location} {path : Path} {place : Place} (found : tree.find follow here path = .ok place)
    (now : after.node? place.location = some node) (admits : place.Admits node) :
    after.find follow' here path = .ok (.occupied place.location node) := by
  unfold find at found ⊢
  split at found
  · cases found
  · exact walk_grown keeps follows found now admits

end Grown

theorem keeps_put (below : location ≠ [])
    (before : ∀ node, tree.node? location = some node → node.IsFile) (node : Node) :
    Keeps tree (tree.put location node) := by
  have kept {other : Location} {old : Node} (plain : ¬old.IsFile)
      (found : tree.node? other = some old) : (tree.put location node).node? other = some old := by
    have differ : other ≠ location := by
      rintro rfl
      exact plain (before _ found)
    rw [node?_put_of_ne differ, found]
  exact ⟨fun _ found => kept id found, fun _ _ found => kept id found⟩

/-- What is put where a file can be put is found there. -/
theorem find_put {follow : Bool} {here : Location} {path : Path} {place : Place}
    (found : tree.find follow here path = .ok place) (takes : place.fileLocation? = some location)
    {file : Node} (isFile : file.IsFile) :
    (tree.put location file).find follow here path = .ok (.occupied location file) := by
  have inside : place.IsIn tree := by
    unfold find at found
    split at found
    · cases found
    · exact walk_isIn found
  have ⟨below, before⟩ := takes_file inside takes
  have now : (tree.put location file).node? location = some file := node?_put_self below file
  have ends : place.location = location ∧ place.Admits file := by
    cases file with
    | file =>
      rcases Place.takes_cases takes with ⟨contents, executable, rfl⟩ | rfl <;> exact ⟨rfl, trivial⟩
    | directory => cases isFile
    | link => cases isFile
    | socket => cases isFile
  obtain ⟨rfl, admits⟩ := ends
  exact find_grown (keeps_put below before file) id found now admits

end Tree

theorem failingWith_ok {ε ε' α : Type} (change : ε → ε') {work : OnMachine ε α}
    {machine after : Machine} {a : α} (done : work machine = (.ok a, after)) :
    failingWith change work machine = (.ok a, after) := by
  have ran : work.run machine = (.ok a, after) := done
  rw [failingWith, ran]
  rfl

namespace Machine
open Fallible

/-- The path leads to a file or to a free name. -/
def TakesFile (machine : Machine) (path : Path) : Prop :=
  ∃ place location, machine.tree.find true machine.here path = .ok place ∧
    place.fileLocation? = some location

/-- Creates the directories that a path leads through. -/
def makeWay (path : Path) : OnMachine Cause Unit :=
  match path.parent? with
  | some parent => createDirectories parent
  | none => pure ()

/-- The path takes a file once the directories that it leads through are made. -/
def Writable (machine : Machine) (path : Path) : Prop :=
  ∃ ready, makeWay path machine = (.ok (), ready) ∧ ready.TakesFile path

theorem write_apply (path : Path) (contents : Contents) (machine : Machine) :
    write path contents machine = match machine.tree.find true machine.here path with
      | .ok (.occupied location (.file _ executable)) =>
        (.ok (), { machine with tree := machine.tree.put location (.file contents executable) })
      | .ok (.free location false) =>
        (.ok (), { machine with tree := machine.tree.put location (.file contents false) })
      | .ok (.occupied _ .socket) => (.error .noSuchDevice, machine)
      | .ok _ => (.error .isDirectory, machine)
      | .error cause =>
        (.error (if slashEnded path && machine.isThere (withoutSlashEnd path) then .isDirectory
          else cause), machine) := by
  have got : (get : OnMachine Cause Machine) machine = (.ok machine, machine) := rfl
  rw [write, bind_apply, got]
  dsimp only
  cases machine.tree.find true machine.here path with
  | error cause =>
    dsimp only
    split <;> rfl
  | ok place =>
    cases place with
    | occupied location node => cases node <;> rfl
    | free location slash => cases slash <;> rfl

/-- Writing succeeds where the path takes a file, and changes the tree there alone. -/
theorem write_of_takesFile {machine : Machine} {path : Path} {place : Place} {location : Location}
    (found : machine.tree.find true machine.here path = .ok place)
    (takes : place.fileLocation? = some location) (contents : Contents) :
    ∃ executable, write path contents machine =
      (.ok (), { machine with tree := machine.tree.put location (.file contents executable) }) := by
  rw [write_apply, found]
  rcases Place.takes_cases takes with ⟨old, executable, rfl⟩ | rfl
  · exact ⟨executable, rfl⟩
  · exact ⟨false, rfl⟩

theorem takesFile_of_write {machine after : Machine} {path : Path} {contents : Contents}
    (written : write path contents machine = (.ok (), after)) : machine.TakesFile path := by
  rw [write_apply] at written
  split at written
  · next location old executable found => exact ⟨_, location, found, rfl⟩
  · next location found => exact ⟨_, location, found, rfl⟩
  · cases written
  · cases written
  · cases written

/-- What is written at a path is what is read there. -/
theorem read_of_write {machine after : Machine} {path : Path} {contents : Contents}
    (written : write path contents machine = (.ok (), after)) :
    after.read path = .ok contents := by
  obtain ⟨place, location, found, takes⟩ := takesFile_of_write written
  obtain ⟨executable, put⟩ := write_of_takesFile found takes contents
  rw [put] at written
  cases written
  have isFile : (Node.file contents executable).IsFile := trivial
  have again := Tree.find_put found takes isFile
  unfold read status
  rw [again]
  rfl

end Machine
end KotlinCompile
