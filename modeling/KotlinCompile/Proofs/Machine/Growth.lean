import KotlinCompile.Error
import KotlinCompile.Proofs.Fallible
import KotlinCompile.Proofs.Machine.Onward
import KotlinCompile.Proofs.Machine.Walk
import KotlinCompile.Proofs.Machine.WellFormed

/-! What a program may do to a machine by making directories and writing files: a directory appears
where nothing was, a file appears or is written over, and all else stays, the links above all. -/
namespace KotlinCompile.Machine
open Fallible

/-- What may become of a location: it is kept, or some path that leads to it is made or written. A
file that is written over stays as executable as it was. -/
inductive Change (makes writes : Path → Prop) (before : Machine) (location : Location) :
    Option Node → Option Node → Prop
  | kept (node : Option Node) : Change makes writes before location node node
  | made {path : Path} : makes path → before.Routes path location →
      Change makes writes before location none (some .directory)
  | written {path : Path} {old : Option Node} {contents : Contents} {executable : Bool} :
      writes path → before.Routes path location →
      (∀ node, old = some node → ∃ former, node = .file former executable) →
      Change makes writes before location old (some (.file contents executable))

/-- Some directories are made and some files are written, and nothing else changes. -/
structure Grows (makes writes : Path → Prop) (before after : Machine) : Prop where
  here : after.here = before.here
  environment : after.environment = before.environment
  change : ∀ location, Change makes writes before location (before.tree.node? location)
    (after.tree.node? location)
  wellFormed : before.tree.WellFormed → after.tree.WellFormed

namespace Grows
variable {makes writes makes' writes' : Path → Prop} {before middle after : Machine}
  {path : Path} {location : Location}

theorem refl (machine : Machine) : Grows makes writes machine machine :=
  ⟨rfl, rfl, fun _ => .kept _, id⟩

theorem sameLinks (grows : Grows makes writes before after) :
    Tree.SameLinks before.tree after.tree := by
  intro location target
  have change := grows.change location
  generalize before.tree.node? location = old at change
  generalize after.tree.node? location = new at change
  cases change with
  | kept => exact Iff.rfl
  | made => simp
  | written _ _ file =>
    constructor
    · intro linked
      obtain ⟨_, ⟨⟩⟩ := file _ linked
    · intro linked
      cases linked

theorem routes_iff (grows : Grows makes writes before after) :
    after.Routes path location ↔ before.Routes path location := by
  unfold Routes
  rw [grows.here]
  exact ⟨.transfer grows.sameLinks.symm, .transfer grows.sameLinks⟩

theorem linkFree (grows : Grows makes writes before after) (free : before.tree.LinkFree location) :
    after.tree.LinkFree location :=
  free.transfer grows.sameLinks

theorem linkFreeBelow (grows : Grows makes writes before after) (free : before.LinkFreeBelow path) :
    after.LinkFreeBelow path :=
  fun place leads => grows.linkFree (free place (grows.routes_iff.mp leads))

theorem mono (grows : Grows makes writes before after)
    (more : ∀ path, makes path → makes' path) (more' : ∀ path, writes path → writes' path) :
    Grows makes' writes' before after := by
  refine ⟨grows.here, grows.environment, fun location => ?_, grows.wellFormed⟩
  have change := grows.change location
  generalize before.tree.node? location = old at change
  generalize after.tree.node? location = new at change
  cases change with
  | kept => exact .kept _
  | made makes leads => exact .made (more _ makes) leads
  | written writes leads file => exact .written (more' _ writes) leads file

theorem trans (first : Grows makes writes before middle)
    (second : Grows makes writes middle after) : Grows makes writes before after := by
  refine ⟨second.here.trans first.here, second.environment.trans first.environment,
    fun location => ?_, second.wellFormed ∘ first.wellFormed⟩
  have change := first.change location
  have change' := second.change location
  generalize before.tree.node? location = old at change
  generalize middle.tree.node? location = between at change change'
  generalize after.tree.node? location = new at change'
  cases change' with
  | kept => exact change
  | made makes leads =>
    cases change with
    | kept => exact .made makes (first.routes_iff.mp leads)
  | written writes leads file =>
    have leads := first.routes_iff.mp leads
    cases change with
    | kept => exact .written writes leads file
    | made => obtain ⟨_, ⟨⟩⟩ := file _ rfl
    | written _ _ file' =>
      obtain ⟨_, same⟩ := file _ rfl
      cases same
      exact .written writes leads file'

/-- What a path leads through stays. -/
theorem keeps (grows : Grows makes writes before after) :
    Tree.Keeps before.tree after.tree := by
  have stays {node : Node} (plain : ¬node.IsFile) (location : Location)
      (found : before.tree.node? location = some node) :
      after.tree.node? location = some node := by
    have change := grows.change location
    rw [found] at change
    generalize after.tree.node? location = new at change
    cases change with
    | kept => rfl
    | written _ _ file =>
      obtain ⟨_, rfl⟩ := file _ rfl
      exact absurd trivial plain
  exact ⟨stays id, fun location target => stays id location⟩

/-- Nothing is deleted, and what was a file is a file. -/
theorem there (grows : Grows makes writes before after) {node : Node}
    (found : before.tree.node? location = some node) : ∃ now,
      after.tree.node? location = some now ∧ (now = node ∨ ∃ former contents executable,
        node = .file former executable ∧ now = .file contents executable) := by
  have change := grows.change location
  rw [found] at change
  generalize after.tree.node? location = new at change
  cases change with
  | kept => exact ⟨node, rfl, Or.inl rfl⟩
  | written _ _ file =>
    obtain ⟨former, same⟩ := file _ rfl
    exact ⟨_, rfl, Or.inr ⟨former, _, _, same, rfl⟩⟩

/-- Where no path that is made or written leads to, nothing changes. -/
theorem untouched (grows : Grows makes writes before after)
    (unmade : before.tree.node? location = none → ∀ path, makes path →
      ¬before.Routes path location)
    (unwritten : ∀ path, writes path → ¬before.Routes path location) :
    after.tree.node? location = before.tree.node? location := by
  have change := grows.change location
  generalize before.tree.node? location = old at change unmade
  generalize after.tree.node? location = new at change
  cases change with
  | kept => rfl
  | made makes leads => exact absurd leads (unmade rfl _ makes)
  | written writes leads => exact absurd leads (unwritten _ writes)

theorem status (grows : Grows makes writes before after) {node now : Node}
    (found : before.status path = .ok (location, node))
    (there : after.tree.node? location = some now) (plain : ∀ target, now ≠ .link target) :
    after.status path = .ok (location, now) := by
  have admits : (Place.occupied location node).Admits now := by
    cases now with
    | link target => exact absurd rfl (plain target)
    | directory => trivial
    | file => trivial
    | socket => trivial
  have again := Tree.find_grown grows.keeps id (status_eq_ok.mp found) there admits
  rw [← grows.here] at again
  exact status_eq_ok.mpr again

theorem status_directory (grows : Grows makes writes before after)
    (found : before.status path = .ok (location, .directory)) :
    after.status path = .ok (location, .directory) :=
  grows.status found (grows.keeps.directory _ (node_of_status found)) nofun

theorem status_file (grows : Grows makes writes before after) {contents : Contents}
    {executable : Bool} (found : before.status path = .ok (location, .file contents executable)) :
    ∃ contents' executable', after.status path = .ok (location, .file contents' executable') := by
  obtain ⟨_, there, rfl | ⟨_, _, _, _, rfl⟩⟩ := grows.there (node_of_status found)
  · exact ⟨_, _, grows.status found there nofun⟩
  · exact ⟨_, _, grows.status found there nofun⟩

end Grows

/-- Work that makes and writes only what it may, wherever it starts and however it ends. -/
def GrowsBy {ε α : Type} (makes writes : Path → Prop) (work : OnMachine ε α) : Prop :=
  ∀ machine, Grows makes writes machine (work machine).2

section GrowsBy
variable {ε ε' α β : Type} {makes writes makes' writes' : Path → Prop}

theorem growsBy_pure (a : α) : GrowsBy makes writes (pure a : OnMachine ε α) := Grows.refl

theorem growsBy_liftExcept (result : Except ε α) : GrowsBy makes writes (liftExcept result) :=
  Grows.refl

theorem growsBy_bind {work : OnMachine ε α} {next : α → OnMachine ε β}
    (first : GrowsBy makes writes work) (second : ∀ a, GrowsBy makes writes (next a)) :
    GrowsBy makes writes (work >>= next) := by
  intro machine
  have grows := first machine
  rw [bind_apply]
  cases ended : work machine with
  | mk result after =>
    rw [ended] at grows
    cases result with
    | error error => exact grows
    | ok a => exact grows.trans (second a after)

theorem growsBy_mapM {work : α → OnMachine ε β} {items : List α}
    (each : ∀ item ∈ items, GrowsBy makes writes (work item)) :
    GrowsBy makes writes (items.mapM work) := by
  induction items with
  | nil => exact growsBy_pure []
  | cons item rest ih =>
    rw [List.mapM_cons]
    have ⟨first, others⟩ := List.forall_mem_cons.mp each
    exact growsBy_bind first fun _ => growsBy_bind (ih others) fun _ => growsBy_pure _

theorem GrowsBy.mono {work : OnMachine ε α} (grows : GrowsBy makes writes work)
    (more : ∀ path, makes path → makes' path) (more' : ∀ path, writes path → writes' path) :
    GrowsBy makes' writes' work :=
  fun machine => (grows machine).mono more more'

end GrowsBy

section Operations
variable {machine after : Machine} {path : Path} {location : Location} {node : Node}

theorem grows_put {makes writes : Path → Prop} {follow : Bool} {place : Place}
    (found : machine.tree.find follow machine.here path = .ok place)
    (change : Change makes writes machine place.location (machine.tree.node? place.location)
      (some node)) (below : place.location ≠ []) :
    Grows makes writes machine
      { machine with tree := machine.tree.put place.location node } where
  here := rfl
  environment := rfl
  change other := by
    by_cases same : other = place.location
    · subst same
      rw [Tree.node?_put_self below]
      exact change
    · rw [Tree.node?_put_of_ne same]
      exact .kept _
  wellFormed wellFormed := wellFormed.put (wellFormed.find_named found) node

theorem find_isIn {follow : Bool} {place : Place}
    (found : machine.tree.find follow machine.here path = .ok place) : place.IsIn machine.tree :=
  Tree.walk_isIn (Tree.find_eq_ok.mp found).2

theorem find_routes {follow : Bool} {place : Place}
    (found : machine.tree.find follow machine.here path = .ok place) (plain : place.Unlinked) :
    machine.Routes path place.location := by
  have route := Tree.walk_route (Tree.find_eq_ok.mp found).2 plain
  rwa [← Tree.track_eq] at route

theorem below_of_free {slash : Bool} {place : Location}
    (inside : (Place.free place slash).IsIn machine.tree) : place ≠ [] := by
  rintro rfl
  cases inside

theorem createDirectory_apply (path : Path) (machine : Machine) :
    createDirectory path machine = match machine.tree.find false machine.here path with
      | .ok (.free location _) =>
        (.ok (), { machine with tree := machine.tree.put location .directory })
      | .ok (.occupied ..) => (.error .alreadyExists, machine)
      | .error cause =>
        (.error (if slashEnded path && machine.isThere (withoutSlashEnd path) then .alreadyExists
          else cause), machine) := by
  have got : (get : OnMachine Cause Machine) machine = (.ok machine, machine) := rfl
  rw [createDirectory, bind_apply, got]
  dsimp only
  cases machine.tree.find false machine.here path with
  | error cause =>
    dsimp only
    split <;> rfl
  | ok place => cases place <;> rfl

theorem growsBy_createDirectory (path : Path) :
    GrowsBy (· = path) (fun _ => False) (createDirectory path) := by
  intro machine
  rw [createDirectory_apply]
  split
  · next location slash found =>
    have free := find_isIn found
    have nothing : machine.tree.node? location = none := free
    refine grows_put found ?_ (below_of_free free)
    show Change _ _ machine location (machine.tree.node? location) _
    rw [nothing]
    exact .made rfl (find_routes found trivial)
  · exact Grows.refl machine
  · exact Grows.refl machine

theorem growsBy_write (path : Path) (contents : Contents) :
    GrowsBy (fun _ => False) (· = path) (write path contents) := by
  intro machine
  rw [write_apply]
  split
  · next location old executable found =>
    have there : machine.tree.node? location = some (.file old executable) := find_isIn found
    have ⟨below, _⟩ := Tree.takes_file (find_isIn found) rfl
    refine grows_put found (.written rfl (find_routes found nofun) fun node same => ?_) below
    exact ⟨old, Option.some.inj (same.symm.trans there)⟩
  · next location found =>
    have nothing : machine.tree.node? location = none := find_isIn found
    have ⟨below, _⟩ := Tree.takes_file (find_isIn found) rfl
    refine grows_put found (.written rfl (find_routes found trivial) fun node same => ?_) below
    cases nothing.symm.trans same
  · exact Grows.refl machine
  · exact Grows.refl machine
  · exact Grows.refl machine

theorem settle_snd (result : Except Cause Unit × Machine) :
    (settle path result).2 = result.2 := by
  obtain ⟨answer, machine⟩ := result
  cases answer with
  | ok => rfl
  | error cause =>
    rw [settle]
    split <;> rfl

theorem grows_createAlong (paths : List Path) (machine : Machine) :
    Grows (· ∈ paths) (fun _ => False) machine (createAlong paths machine).2 := by
  induction paths generalizing machine with
  | nil => exact Grows.refl machine
  | cons path above ih =>
    have creates (machine : Machine) : Grows (· ∈ path :: above) (fun _ => False) machine
        (settle path (createDirectory path machine)).2 := by
      rw [settle_snd]
      refine (growsBy_createDirectory path machine).mono ?_ fun _ => id
      rintro _ rfl
      exact List.mem_cons_self
    rw [createAlong]
    split
    · exact Grows.refl machine
    split
    · have upper : Grows (· ∈ path :: above) (fun _ => False) machine (createAlong above machine).2 :=
        (ih machine).mono (fun _ => List.mem_cons_of_mem path) fun _ => id
      cases made : createAlong above machine with
      | mk answer middle =>
        rw [made] at upper
        cases answer with
        | ok => exact upper.trans (creates middle)
        | error => exact upper
    · exact creates machine

theorem components_of_mem_ancestors {more : Nat} {path other : Path}
    (member : other ∈ ancestors more path) : other.components <+: path.components := by
  induction more generalizing path with
  | zero =>
    cases List.mem_singleton.mp member
    exact List.prefix_refl _
  | succ more ih =>
    rw [ancestors] at member
    split at member
    · next parent above =>
      rcases List.mem_cons.mp member with rfl | higher
      · exact List.prefix_refl _
      · have upper := ih higher
        rw [Path.components_parent above] at upper
        exact upper.trans (List.dropLast_prefix _)
    · cases List.mem_singleton.mp member
      exact List.prefix_refl _

/-- The path and those it lies below are made, and no others. -/
theorem growsBy_createDirectories (path : Path) :
    GrowsBy (·.components <+: path.components) (fun _ => False) (createDirectories path) :=
  fun machine => (grows_createAlong _ machine).mono (fun _ => components_of_mem_ancestors) fun _ => id

theorem growsBy_makeWay (path : Path) :
    GrowsBy (·.components <+: path.components.dropLast) (fun _ => False) (makeWay path) := by
  unfold makeWay
  split
  · next parent above =>
    rw [← Path.components_parent above]
    exact growsBy_createDirectories parent
  · exact growsBy_pure ()

theorem isDirectory_iff :
    machine.isDirectory path = true ↔ ∃ place, machine.status path = .ok (place, .directory) := by
  unfold isDirectory
  split
  · next place found => exact ⟨fun _ => ⟨place, found⟩, fun _ => rfl⟩
  · next other =>
    exact ⟨fun refused => Bool.noConfusion refused, fun ⟨place, found⟩ => absurd found (other place)⟩

/-- A directory that was created is found at its path. -/
theorem isDirectory_of_createDirectory
    (created : createDirectory path machine = (.ok (), after)) : after.isDirectory path = true := by
  rw [createDirectory_apply] at created
  split at created
  · next location slash found =>
    cases created
    have free := find_isIn found
    have below := below_of_free free
    have nothing : machine.tree.node? location = none := free
    have keeps := Tree.keeps_put below (fun node there => by cases nothing.symm.trans there) .directory
    have admits : (Place.free location slash).Admits .directory := by
      cases slash <;> trivial
    have again := Tree.find_grown keeps (fun _ => rfl) found (Tree.node?_put_self below _) admits
    exact isDirectory_iff.mpr ⟨location, status_eq_ok.mpr again⟩
  · cases created
  · cases created

theorem isDirectory_of_settle {result : Except Cause Unit × Machine}
    (created : ∀ after, result = (.ok (), after) → after.isDirectory path = true)
    (settled : settle path result = (.ok (), after)) : after.isDirectory path = true := by
  obtain ⟨answer, machine⟩ := result
  cases answer with
  | ok =>
    cases settled
    exact created _ rfl
  | error cause =>
    rw [settle] at settled
    split at settled
    · next there =>
      cases settled
      exact there
    · cases settled

theorem ancestors_cons (more : Nat) (path : Path) : ∃ above, ancestors more path = path :: above := by
  cases more with
  | zero => exact ⟨[], rfl⟩
  | succ more =>
    rw [ancestors]
    split
    · exact ⟨_, rfl⟩
    · exact ⟨[], rfl⟩

theorem isDirectory_of_createDirectories (spelled : path.spelling ≠ [])
    (created : createDirectories path machine = (.ok (), after)) :
    after.isDirectory path = true := by
  obtain ⟨above, same⟩ := ancestors_cons path.segments.length path
  rw [createDirectories, same, createAlong, if_neg spelled] at created
  have settled {start : Machine} (done : settle path (createDirectory path start) = (.ok (), after)) :
      after.isDirectory path = true :=
    isDirectory_of_settle (fun _ => isDirectory_of_createDirectory) done
  split at created
  · split at created
    · exact settled created
    · next refused => exact absurd created (refused after)
  · exact settled created

/-- Where the directory is already there is nothing to create. -/
theorem createDirectories_of_isDirectory (there : machine.isDirectory path = true) :
    createDirectories path machine = (.ok (), machine) := by
  obtain ⟨place, found⟩ := isDirectory_iff.mp there
  have ⟨fine, walked⟩ := Tree.find_eq_ok.mp (status_eq_ok.mp found)
  obtain ⟨place', node, occupied⟩ := Tree.walk_unfollowed ⟨_, _, walked⟩
  have already : createDirectory path machine = (.error .alreadyExists, machine) := by
    rw [createDirectory_apply, Tree.find_eq_ok.mpr ⟨fine, occupied⟩]
  have spelled : path.spelling ≠ [] := by
    intro empty
    rw [Tree.refusal?, if_neg (by simp [empty]), if_pos empty] at fine
    cases fine
  obtain ⟨above, same⟩ := ancestors_cons path.segments.length path
  have ran : (createDirectory path).run machine = (.error .alreadyExists, machine) := already
  rw [createDirectories, same, createAlong, if_neg spelled, ran]
  show settle path (.error .alreadyExists, machine) = _
  rw [settle, if_pos there]

/-- Where something is at a path, the directories that it leads through are there. -/
theorem makeWay_of_status (found : machine.status path = .ok (location, node)) :
    makeWay path machine = (.ok (), machine) := by
  unfold makeWay
  cases above : path.parent? with
  | none => rfl
  | some parent =>
    by_cases empty : parent.spelling = []
    · obtain ⟨more, same⟩ := ancestors_cons parent.segments.length parent
      dsimp only
      rw [createDirectories, same, createAlong, if_pos empty]
    refine createDirectories_of_isDirectory (isDirectory_iff.mpr ?_)
    rcases (Path.spelled_parent above).resolve_left empty with root | ⟨rest, whole⟩
    · have same : parent = ⟨"/"⟩ := congrArg Path.mk root
      rw [same]
      exact ⟨[], status_eq_ok.mpr (Tree.find_eq_ok.mpr ⟨by decide, rfl⟩)⟩
    · have ⟨segments, absolute⟩ := Path.segments_append empty whole
      have on : GoesOn path parent (Text.pieces Byte.slash rest) := ⟨segments, absolute⟩
      have part : parent.spelling.Sublist path.spelling := by
        rw [whole]
        exact List.sublist_append_left _ _
      have fine := Path.refusal_of_sublist part empty (status_refusal found)
      exact status_front found on (Text.pieces_ne_nil Byte.slash rest) fine

theorem read_of_status {contents : Contents} {executable : Bool}
    (found : machine.status path = .ok (location, .file contents executable)) :
    machine.read path = .ok contents := by
  unfold read
  rw [found]
  rfl

/-- What was written is found at its path. -/
theorem status_of_write {contents : Contents}
    (written : write path contents machine = (.ok (), after)) : ∃ location executable,
      machine.Routes path location ∧
        after.status path = .ok (location, .file contents executable) := by
  obtain ⟨place, location, found, takes⟩ := takesFile_of_write written
  obtain ⟨executable, put⟩ := write_of_takesFile found takes contents
  rw [put] at written
  cases written
  have isFile : (Node.file contents executable).IsFile := trivial
  refine ⟨location, executable, ?_, status_eq_ok.mpr (Tree.find_put found takes isFile)⟩
  rcases Place.takes_cases takes with ⟨old, executable, rfl⟩ | rfl
  · exact find_routes found nofun
  · exact find_routes found trivial

end Operations

section Delivery
variable {machine after : Machine} {path : Path} {location : Location} {contents : Contents}

/-- Writes a file after the directories that lead to it, and names what could not be made. -/
def deliver (path : Path) (contents : Contents) : OnMachine BuildError Unit := do
  match path.parent? with
  | some parent => failingWith (.io parent) (createDirectories parent)
  | none => pure ()
  failingWith (.io path) (write path contents)

theorem failingWith_eq_ok {ε ε' α : Type} {change : ε → ε'} {work : OnMachine ε α} {a : α} :
    failingWith change work machine = (.ok a, after) ↔ work machine = (.ok a, after) := by
  constructor
  · intro done
    have answer : (work machine).1 = .ok a := mapError_eq_ok.mp (congrArg Prod.fst done)
    have left : (work machine).2 = after := congrArg (·.2) done
    exact Prod.ext answer left
  · exact failingWith_ok change

theorem liftExcept_eq_ok {ε α : Type} {result : Except ε α} {a : α} :
    liftExcept result machine = (.ok a, after) ↔ result = .ok a ∧ machine = after :=
  Prod.ext_iff

theorem deliver_eq_ok : deliver path contents machine = (.ok (), after) ↔ ∃ ready,
    makeWay path machine = (.ok (), ready) ∧ write path contents ready = (.ok (), after) := by
  unfold deliver makeWay
  cases path.parent? with
  | some parent =>
    constructor
    · intro delivered
      obtain ⟨_, ready, made, written⟩ := bind_apply_ok.mp delivered
      exact ⟨ready, failingWith_eq_ok.mp made, failingWith_eq_ok.mp written⟩
    · rintro ⟨ready, made, written⟩
      exact bind_apply_ok.mpr
        ⟨(), ready, failingWith_eq_ok.mpr made, failingWith_eq_ok.mpr written⟩
  | none =>
    constructor
    · exact fun written => ⟨machine, rfl, failingWith_eq_ok.mp written⟩
    · rintro ⟨_, ⟨⟩, written⟩
      exact failingWith_eq_ok.mpr written

/-- What lies above the path is made, and the path is written. -/
theorem growsBy_deliver (path : Path) (contents : Contents) :
    GrowsBy (·.components <+: path.components.dropLast) (· = path) (deliver path contents) := by
  have writes : GrowsBy (·.components <+: path.components.dropLast) (· = path) _ :=
    (growsBy_write path contents).mono (fun _ => False.elim) fun _ => id
  unfold deliver
  cases above : path.parent? with
  | some parent =>
    have creates : GrowsBy (·.components <+: parent.components) (· = path) _ :=
      (growsBy_createDirectories parent).mono (fun _ => id) fun _ => False.elim
    rw [Path.components_parent above] at creates
    exact growsBy_bind creates fun _ => writes
  | none => exact writes

theorem status_of_deliver (delivered : deliver path contents machine = (.ok (), after)) :
    ∃ location executable, machine.Routes path location ∧
      after.status path = .ok (location, .file contents executable) := by
  obtain ⟨ready, made, written⟩ := deliver_eq_ok.mp delivered
  obtain ⟨location, executable, leads, found⟩ := status_of_write written
  have grows := growsBy_makeWay path machine
  rw [made] at grows
  exact ⟨location, executable, grows.routes_iff.mp leads, found⟩

/-- Where a file is already there it is written over, and nothing else happens. -/
theorem deliver_again {old : Contents} {executable : Bool}
    (there : machine.status path = .ok (location, .file old executable)) (contents : Contents) :
    ∃ after, deliver path contents machine = (.ok (), after) ∧
      Grows (fun _ => False) (· = path) machine after := by
  obtain ⟨_, written⟩ := write_of_takesFile (status_eq_ok.mp there) rfl contents
  have grows := growsBy_write path contents machine
  rw [written] at grows
  exact ⟨_, deliver_eq_ok.mpr ⟨machine, makeWay_of_status there, written⟩, grows⟩

end Delivery

end KotlinCompile.Machine
