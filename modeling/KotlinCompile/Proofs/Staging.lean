import KotlinCompile.Compiler.Compilation
import KotlinCompile.Path
import KotlinCompile.Proofs.Listing
import KotlinCompile.Proofs.Machine.Growth
import KotlinCompile.Proofs.Path
import KotlinCompile.Request

/-! Where source files are staged. Whatever spelling a path has, it is staged strictly below the
directory of the sources and apart from all else in the working directory, or it is rejected. Of
several sources with one place the last is found there. -/
namespace KotlinCompile

namespace Path

/-- Going by components, the path leads through the directory and on from there. -/
def StrictlyBelow (path directory : Path) : Prop :=
  directory.components <+: path.components ∧ path.components ≠ directory.components

/-- Going by components, neither path is the other, leads into it or is led into by it. -/
def Apart (path other : Path) : Prop :=
  ¬ other.components <+: path.components ∧ ¬ path.components <+: other.components

theorem strictlyBelow_of_append {path directory : Path} {added : List Component}
    (whole : path.components = directory.components ++ added) (some : added ≠ []) :
    path.StrictlyBelow directory := by
  constructor
  · exact ⟨added, whole.symm⟩
  · rw [whole]
    exact fun same => some (List.append_right_eq_self.mp same)

-- Two ways from one directory that part at their first step do not meet again.
theorem apart_of_append {path other base : Path} {first second : Component}
    {added further : List Component} (differ : first ≠ second)
    (left : path.components = base.components ++ first :: added)
    (right : other.components = base.components ++ second :: further) : path.Apart other := by
  unfold Apart
  rw [left, right, List.prefix_append_right_inj, List.prefix_append_right_inj,
    List.cons_prefix_cons, List.cons_prefix_cons]
  exact ⟨fun within => differ within.1.symm, fun within => differ within.1⟩

end Path

namespace Layout

theorem components_sources (layout : Layout) :
    layout.sources.components = layout.root.components ++ [.name Layout.sourcesName] :=
  Path.components_child (by decide) layout.root

theorem sources_spelled (layout : Layout) : layout.sources.spelling ≠ "" := by
  intro empty
  have whole := layout.components_sources
  rw [show layout.sources = ⟨""⟩ from congrArg Path.mk empty] at whole
  exact List.append_ne_nil_of_right_ne_nil _ (List.cons_ne_nil _ _) whole.symm

end Layout

namespace SourceFile

theorem check_iff (source : SourceFile) :
    source.check = .ok () ↔ source.path.isAbsolute = false ∧ .up ∉ source.path.components ∧
      ∃ name, .name name ∈ source.path.components := by
  have below : source.path.components.all staysBelow = true ↔
      source.path.isAbsolute = false ∧ .up ∉ source.path.components := by
    rw [← Bool.not_eq_true, ← Path.root_mem_components, List.all_eq_true]
    constructor
    · intro all
      exact ⟨fun root => Bool.noConfusion (all _ root), fun up => Bool.noConfusion (all _ up)⟩
    · rintro ⟨noRoot, noUp⟩ component member
      cases component with
      | root => exact absurd member noRoot
      | up => exact absurd member noUp
      | here => rfl
      | name name => rfl
  have named : (!source.path.names.isEmpty) = true ↔
      ∃ name, .name name ∈ source.path.components := by
    simp only [← Path.mem_names, Bool.not_eq_true', List.isEmpty_eq_false_iff]
    exact ⟨List.exists_mem_of_ne_nil _, fun ⟨_, member⟩ => List.ne_nil_of_mem member⟩
  rw [← and_assoc, ← below, ← named, ← Bool.and_eq_true]
  unfold check isStageable
  split <;> simp_all

theorem names_of_check {source : SourceFile} (accepted : source.check = .ok ()) :
    source.path.names ≠ [] := by
  obtain ⟨_, _, name, member⟩ := source.check_iff.mp accepted
  exact List.ne_nil_of_mem ((Path.mem_names _ name).mpr member)

theorem components_target {source : SourceFile} (accepted : source.check = .ok ())
    {directory : Path} (spelled : directory.spelling ≠ "") :
    (source.target directory).components =
      directory.components ++ source.path.names.map .name := by
  obtain ⟨relative, level, _⟩ := source.check_iff.mp accepted
  rw [target, Path.components_join relative spelled, Path.inner_eq_names level]

theorem stage_rejected {source : SourceFile} (rejected : source.check ≠ .ok ())
    (directory : Path) (machine : Machine) :
    source.stage directory machine = (.error (.invalidSourcePath source.path), machine) := by
  have failed : source.check = .error (.invalidSourcePath source.path) := by
    unfold check at rejected ⊢
    split
    · next stageable => exact absurd (if_pos stageable) rejected
    · rfl
  unfold stage
  rw [failed]
  rfl

/-- A path is accepted exactly if it is relative, never steps up and has a name in it, and then the
file is staged along its names: strictly below the directory of the sources and apart from whatever
else is in the working directory. Any other path is rejected before the machine is touched. -/
theorem staged_below_sources (layout : Layout) (source : SourceFile) :
    (source.check = .ok () ↔ source.path.isAbsolute = false ∧ .up ∉ source.path.components ∧
      ∃ name, .name name ∈ source.path.components) ∧
    (source.check = .ok () →
      (source.target layout.sources).components =
        layout.sources.components ++ source.path.names.map .name ∧
      (source.target layout.sources).StrictlyBelow layout.sources ∧
      ∀ place ∈ [layout.classes, layout.servicesJar, layout.kapt],
        (source.target layout.sources).Apart place) ∧
    (source.check ≠ .ok () → ∀ directory machine,
      source.stage directory machine = (.error (.invalidSourcePath source.path), machine)) := by
  refine ⟨source.check_iff, ?_, stage_rejected⟩
  intro accepted
  have whole := components_target accepted (Layout.sources_spelled layout)
  have added : source.path.names.map Component.name ≠ [] := by
    simpa using names_of_check accepted
  have below := whole
  rw [layout.components_sources, List.append_assoc] at below
  refine ⟨whole, Path.strictlyBelow_of_append whole added, ?_⟩
  intro place member
  simp only [List.mem_cons, List.not_mem_nil, or_false] at member
  rcases member with rfl | rfl | rfl <;>
    exact Path.apart_of_append (by decide) below (Path.components_child (by decide) layout.root)

-- A dot at either end, a repeated slash and a name that only begins with dots.
example : (target ⟨⟨"./com//..example/Main.kt/."⟩, ""⟩ ⟨"/work/sources"⟩).components =
    [.root, .name "work", .name "sources", .name "com", .name "..example", .name "Main.kt"] := by
  decide

end SourceFile

open Fallible

namespace Layout
variable {layout : Layout} {machine : Machine} {location : Location}

theorem isName_sources : IsName sourcesName := by decide

theorem takesSlash_sources (layout : Layout) : layout.sources.TakesSlash :=
  Path.takesSlash_child isName_sources layout.root

/-- A path that is spelled along names in the working directory leads along these names. -/
theorem routes_iff {path : Path} {names : List Bytes}
    (whole : path.components = layout.root.components ++ names.map .name)
    (named : ∀ name ∈ names, IsName name) (free : machine.LinkFreeBelow layout.root) :
    machine.Routes path location ↔
      ∃ place, machine.Routes layout.root place ∧ location = place ++ names :=
  Machine.routes_below whole free fun member => (named _ member).level rfl

theorem routes_sources (free : machine.LinkFreeBelow layout.root) :
    machine.Routes layout.sources location ↔
      ∃ place, machine.Routes layout.root place ∧ location = place ++ [Layout.sourcesName] :=
  routes_iff layout.components_sources (List.forall_mem_singleton.mpr isName_sources) free

theorem linkFreeBelow_sources (free : machine.LinkFreeBelow layout.root) :
    machine.LinkFreeBelow layout.sources := by
  intro location leads
  obtain ⟨place, root, rfl⟩ := (routes_sources free).mp leads
  exact (free place root).below [Layout.sourcesName]

end Layout

namespace SourceFile
variable {machine after : Machine} {source : SourceFile} {directory target : Path} {layout : Layout}
  {location place : Location}

theorem named_names (source : SourceFile) : ∀ name ∈ source.path.names, IsName name :=
  fun _ member => isName_of_mem_names member

theorem stage_eq (source : SourceFile) (directory : Path) : source.stage directory =
    liftExcept source.check >>= fun _ =>
      Machine.deliver (source.target directory) (.bytes (Text.utf8 source.contents)) >>= fun _ =>
        pure (source.target directory) := by
  unfold stage Machine.deliver
  cases above : (source.target directory).parent? <;> simp only [above, bind_assoc]

theorem stage_eq_ok : source.stage directory machine = (.ok target, after) ↔
    source.check = .ok () ∧ target = source.target directory ∧
      Machine.deliver (source.target directory) (.bytes (Text.utf8 source.contents)) machine =
        (.ok (), after) := by
  rw [stage_eq, bind_apply_ok]
  constructor
  · rintro ⟨_, ready, checked, done⟩
    obtain ⟨_, last, delivered, ⟨⟩⟩ := bind_apply_ok.mp done
    obtain ⟨accepted, rfl⟩ := Machine.liftExcept_eq_ok.mp checked
    exact ⟨accepted, rfl, delivered⟩
  · rintro ⟨accepted, rfl, delivered⟩
    exact ⟨(), machine, Machine.liftExcept_eq_ok.mpr ⟨accepted, rfl⟩,
      bind_apply_ok.mpr ⟨(), after, delivered, rfl⟩⟩

/-- A source that is accepted is written, below directories that are made. -/
theorem growsBy_stage (source : SourceFile) (directory : Path) : Machine.GrowsBy
    (fun path => source.check = .ok () ∧
      path.components <+: (source.target directory).components.dropLast)
    (fun path => source.check = .ok () ∧ path = source.target directory)
    (source.stage directory) := by
  by_cases accepted : source.check = .ok ()
  · rw [stage_eq]
    have delivers := (Machine.growsBy_deliver (source.target directory)
      (.bytes (Text.utf8 source.contents))).mono (fun _ within => And.intro accepted within)
      fun _ same => And.intro accepted same
    exact Machine.growsBy_bind (Machine.growsBy_liftExcept _) fun _ =>
      Machine.growsBy_bind delivers fun _ => Machine.growsBy_pure _
  · intro machine
    rw [stage_rejected accepted]
    exact Machine.Grows.refl machine

/-- Whatever spelling a source has, it leads to its names below the directory of the sources. -/
theorem routes_below (accepted : source.check = .ok ())
    (free : machine.LinkFreeBelow layout.sources) :
    machine.Routes (source.target layout.sources) location ↔ ∃ place,
      machine.Routes layout.sources place ∧ location = place ++ source.path.names :=
  Machine.routes_below (components_target accepted layout.sources_spelled) free
    fun member => (source.named_names _ member).level rfl

theorem routes_target (accepted : source.check = .ok ())
    (free : machine.LinkFreeBelow layout.root) :
    machine.Routes (source.target layout.sources) location ↔ ∃ place,
      machine.Routes layout.root place ∧ location = place ++ Layout.sourcesName :: source.path.names := by
  rw [routes_below accepted (Layout.linkFreeBelow_sources free)]
  constructor
  · rintro ⟨_, leads, rfl⟩
    obtain ⟨place, root, rfl⟩ := (Layout.routes_sources free).mp leads
    exact ⟨place, root, by simp⟩
  · rintro ⟨place, root, rfl⟩
    exact ⟨_, (Layout.routes_sources free).mpr ⟨place, root, rfl⟩, by simp⟩

theorem moves_steps (accepted : source.check = .ok ()) :
    Tree.moves (Tree.steps source.path) = source.path.names := by
  obtain ⟨_, level, _⟩ := source.check_iff.mp accepted
  rw [← Tree.track_eq, Path.track, Path.names_eq]
  refine List.filterMap_congr fun component member => ?_
  cases component with
  | up => exact absurd member level
  | _ => rfl

theorem level_steps (accepted : source.check = .ok ()) : [Byte.dot, Byte.dot] ∉ Tree.steps source.path := by
  intro member
  have moves : [Byte.dot, Byte.dot] ∈ Tree.moves (Tree.steps source.path) :=
    List.mem_filter.mpr ⟨member, by decide⟩
  rw [moves_steps accepted] at moves
  exact (source.named_names _ moves).level rfl

/-- What is found where a source is staged is found under the plain spelling too. -/
theorem status_plain (accepted : source.check = .ok ()) (takes : directory.TakesSlash)
    (there : machine.status directory = .ok (place, .directory)) (free : machine.tree.LinkFree place)
    {node : Node} (found : machine.status (source.target directory) = .ok (location, node)) :
    location = place ++ source.path.names ∧
      machine.status (directory.below source.path.names) = .ok (location, node) := by
  obtain ⟨relative, _, _⟩ := source.check_iff.mp accepted
  have plain : (Tree.steps source.path).filter (fun step => step ≠ [] ∧ step ≠ [Byte.dot]) =
      source.path.names := moves_steps accepted
  have fine := Path.refusal_of_sublist (Path.below_names_sublist takes relative)
    (Path.takesSlash_below takes source.named_names).spelled
    (Machine.status_refusal found)
  have onward := Machine.status_onward (fun step busy => by simpa [not_or] using busy) there there
    free (fun _ _ => id) (Machine.goesOn_join takes relative)
    (plain.symm ▸ Machine.goesOn_below takes source.named_names)
    (plain.symm ▸ names_of_check accepted) (level_steps accepted) fine found
  rw [moves_steps accepted] at onward
  exact onward

/-- In the same nodes below its directory, a source is found in the same place. -/
theorem status_target_transfer {other : Machine} (accepted : source.check = .ok ())
    (takes : directory.TakesSlash)
    (there : machine.status directory = .ok (place, .directory))
    (there' : other.status directory = .ok (place, .directory)) (free : machine.tree.LinkFree place)
    (same : ∀ names node, machine.tree.node? (place ++ names) = some node →
      other.tree.node? (place ++ names) = some node)
    {node : Node} (found : machine.status (source.target directory) = .ok (location, node)) :
    other.status (source.target directory) = .ok (location, node) := by
  obtain ⟨relative, _, _⟩ := source.check_iff.mp accepted
  have every : (Tree.steps source.path).filter (fun _ => true) = Tree.steps source.path :=
    List.filter_true _
  have on := Machine.goesOn_join takes relative
  have filled : Tree.steps source.path ≠ [] := fun empty =>
    names_of_check accepted (by rw [← moves_steps accepted, empty]; rfl)
  exact (Machine.status_onward (fun _ _ => rfl) there there' free same on (every.symm ▸ on)
    (every.symm ▸ filled) (level_steps accepted) (Machine.status_refusal found) found).2

end SourceFile

namespace Request

/-- A source of the request that is staged. -/
def Stages (request : Request) (source : SourceFile) : Prop :=
  source ∈ request.sources ∧ source.check = .ok ()

/-- The place of a source that is staged. -/
def IsTarget (request : Request) (path : Path) : Prop :=
  ∃ source, request.Stages source ∧ path = source.target request.layout.sources

/-- The directory of the sources, or one that leads to it or to a source. -/
def LeadsToSources (request : Request) (path : Path) : Prop :=
  path.components <+: request.layout.sources.components ∨ ∃ source, request.Stages source ∧
    path.components <+: (source.target request.layout.sources).components.dropLast

end Request

namespace Invocation
variable {request : Request} {machine after : Machine} {targets : List Path} {place : Location}

theorem growsBy_stageAll (sources : List SourceFile) (directory : Path) : Machine.GrowsBy
    (fun path => ∃ source ∈ sources, source.check = .ok () ∧
      path.components <+: (source.target directory).components.dropLast)
    (fun path => ∃ source ∈ sources, source.check = .ok () ∧ path = source.target directory)
    (sources.mapM (SourceFile.stage directory)) :=
  Machine.growsBy_mapM fun source member => (source.growsBy_stage directory).mono
    (fun _ within => ⟨source, member, within⟩) fun _ same => ⟨source, member, same⟩

theorem growsBy_stageSources (request : Request) :
    Machine.GrowsBy request.LeadsToSources request.IsTarget (stageSources request) := by
  have directory : Machine.GrowsBy request.LeadsToSources request.IsTarget _ :=
    (Machine.growsBy_createDirectories request.layout.sources).mono (fun _ => Or.inl)
      fun _ => False.elim
  refine Machine.growsBy_bind directory fun _ =>
    (growsBy_stageAll request.sources request.layout.sources).mono ?_ ?_
  · rintro path ⟨source, member, accepted, within⟩
    exact Or.inr ⟨source, ⟨member, accepted⟩, within⟩
  · rintro path ⟨source, member, accepted, same⟩
    exact ⟨source, ⟨member, accepted⟩, same⟩

theorem stageSources_eq_ok : stageSources request machine = (.ok targets, after) ↔ ∃ ready,
    Machine.createDirectories request.layout.sources machine = (.ok (), ready) ∧
      request.sources.mapM (SourceFile.stage request.layout.sources) ready = (.ok targets, after) := by
  unfold stageSources
  rw [bind_apply_ok]
  constructor
  · rintro ⟨_, ready, created, staged⟩
    exact ⟨ready, Machine.failingWith_eq_ok.mp created, staged⟩
  · rintro ⟨ready, created, staged⟩
    exact ⟨(), ready, Machine.failingWith_eq_ok.mpr created, staged⟩

/-- The directory of the sources is made where the working directory leads. -/
theorem directory_of_create {layout : Layout} (free : machine.LinkFreeBelow layout.root)
    (created : Machine.createDirectories layout.sources machine = (.ok (), after)) :
    ∃ place, machine.Routes layout.root place ∧
      after.status layout.sources = .ok (place ++ [Layout.sourcesName], .directory) := by
  have grows := Machine.growsBy_createDirectories layout.sources machine
  rw [created] at grows
  have there := Machine.isDirectory_of_createDirectories layout.sources_spelled created
  obtain ⟨location, found⟩ := Machine.isDirectory_iff.mp there
  have leads := grows.routes_iff.mp (Machine.status_routes found nofun)
  obtain ⟨place, root, rfl⟩ := (Layout.routes_sources free).mp leads
  exact ⟨place, root, found⟩

/-- After the staging the directory of the sources is there, and so is each source: of several that
have one place, the one that was staged last. -/
structure Staged (request : Request) (place : Location) (machine : Machine) : Prop where
  directory : machine.status request.layout.sources = .ok (place ++ [Layout.sourcesName], .directory)
  accepted : ∀ source ∈ request.sources, source.check = .ok ()
  placed : ∀ source ∈ request.sources, ∃ contents executable,
    machine.status (source.target request.layout.sources) =
      .ok (place ++ Layout.sourcesName :: source.path.names, .file contents executable)
  file : ∀ before source later, request.sources = before ++ source :: later →
    (∀ other ∈ later, other.path.names ≠ source.path.names) → ∃ executable,
      machine.status (source.target request.layout.sources) =
        .ok (place ++ Layout.sourcesName :: source.path.names,
          .file (.bytes (Text.utf8 source.contents)) executable)

/-- One of the sources is staged, and what comes behind it writes the places of the others only. -/
theorem staged_one {layout : Layout} {before later : List SourceFile} {source : SourceFile}
    (free : machine.LinkFreeBelow layout.sources)
    (there : machine.status layout.sources = .ok (place ++ [Layout.sourcesName], .directory))
    (all : (before ++ source :: later).mapM (SourceFile.stage layout.sources) machine =
      (.ok targets, after)) :
    source.check = .ok () ∧ ∃ next executable,
      next.status (source.target layout.sources) =
        .ok (place ++ Layout.sourcesName :: source.path.names,
          .file (.bytes (Text.utf8 source.contents)) executable) ∧
      Machine.Grows (fun _ => True) (fun path => ∃ other ∈ later, other.check = .ok () ∧
        path = other.target layout.sources) next after ∧
      ∀ other : SourceFile, other.check = .ok () → ∀ location,
        next.Routes (other.target layout.sources) location →
          location = place ++ Layout.sourcesName :: other.path.names := by
  obtain ⟨_, middle, _, next, _, front, here, behind⟩ := mapM_apply_ok all
  obtain ⟨accepted, rfl, delivered⟩ := SourceFile.stage_eq_ok.mp here
  obtain ⟨location, executable, leads, found⟩ := Machine.status_of_deliver delivered
  have first := growsBy_stageAll before layout.sources machine
  rw [front] at first
  have second := source.growsBy_stage layout.sources middle
  rw [here] at second
  have third := growsBy_stageAll later layout.sources next
  rw [behind] at third
  have along {other : SourceFile} (accepted : other.check = .ok ()) {location : Location}
      (leads : machine.Routes (other.target layout.sources) location) :
      location = place ++ Layout.sourcesName :: other.path.names := by
    obtain ⟨_, again, rfl⟩ := (SourceFile.routes_below accepted free).mp leads
    cases (Machine.status_routes there nofun).unique again
    simp
  cases along accepted (first.routes_iff.mp leads)
  exact ⟨accepted, next, executable, found, third.mono (fun _ _ => trivial) (fun _ => id),
    fun other accepted location leads =>
      along accepted (first.routes_iff.mp (second.routes_iff.mp leads))⟩

theorem staged_of_stageAll (free : machine.LinkFreeBelow request.layout.sources)
    (there : machine.status request.layout.sources = .ok (place ++ [Layout.sourcesName], .directory))
    (all : request.sources.mapM (SourceFile.stage request.layout.sources) machine =
      (.ok targets, after)) : Staged request place after := by
  have grows := growsBy_stageAll request.sources request.layout.sources machine
  rw [all] at grows
  refine ⟨grows.status_directory there, fun source member => ?_, fun source member => ?_, ?_⟩
  · obtain ⟨before, later, whole⟩ := List.append_of_mem member
    rw [whole] at all
    exact (staged_one free there all).1
  · obtain ⟨before, later, whole⟩ := List.append_of_mem member
    rw [whole] at all
    obtain ⟨_, next, executable, found, behind, _⟩ := staged_one free there all
    exact behind.status_file found
  · intro before source later whole others
    rw [whole] at all
    obtain ⟨_, next, executable, found, behind, along⟩ := staged_one free there all
    have old := Machine.node_of_status found
    -- the sources behind it are written elsewhere
    have kept := behind.untouched (fun nothing => by cases nothing.symm.trans old) ?_
    · exact ⟨executable, behind.status found (kept.trans old) nofun⟩
    · rintro _ ⟨other, member, accepted, rfl⟩ leads
      have same := along other accepted _ leads
      exact others other member (Location.below_inj same).2.symm

theorem staged_of_stageSources (free : machine.LinkFreeBelow request.layout.root)
    (done : stageSources request machine = (.ok targets, after)) :
    ∃ place, machine.Routes request.layout.root place ∧ Staged request place after := by
  obtain ⟨ready, created, all⟩ := stageSources_eq_ok.mp done
  obtain ⟨place, root, there⟩ := directory_of_create free created
  have grows := Machine.growsBy_createDirectories request.layout.sources machine
  rw [created] at grows
  have free' := Layout.linkFreeBelow_sources (grows.linkFreeBelow free)
  exact ⟨place, root, staged_of_stageAll free' there all⟩

section Staged
variable {other : Machine} (staged : Staged request place machine)
include staged

/-- What is staged stays when nothing is written among the sources. -/
theorem Staged.grows {makes writes : Path → Prop}
    (grows : Machine.Grows makes writes machine after)
    (elsewhere : ∀ path, writes path → ∀ names,
      ¬machine.Routes path (place ++ Layout.sourcesName :: names)) : Staged request place after := by
  have still {path : Path} {names : List Bytes} {contents : Contents} {executable : Bool}
      (found : machine.status path =
        .ok (place ++ Layout.sourcesName :: names, .file contents executable)) :
      after.status path = .ok (place ++ Layout.sourcesName :: names, .file contents executable) := by
    have there := Machine.node_of_status found
    have kept := grows.untouched (fun nothing => by cases nothing.symm.trans there)
      fun path writes => elsewhere path writes _
    exact grows.status found (kept.trans there) nofun
  refine ⟨grows.status_directory staged.directory, staged.accepted, fun source member => ?_, ?_⟩
  · obtain ⟨contents, executable, found⟩ := staged.placed source member
    exact ⟨contents, executable, still found⟩
  · intro before source later whole others
    obtain ⟨executable, found⟩ := staged.file before source later whole others
    exact ⟨executable, still found⟩

/-- What is staged is staged on any machine that has the same nodes among the sources. -/
theorem Staged.transfer (free : machine.tree.LinkFree (place ++ [Layout.sourcesName]))
    (there : other.status request.layout.sources = .ok (place ++ [Layout.sourcesName], .directory))
    (same : ∀ names, other.tree.node? (place ++ Layout.sourcesName :: names) =
      machine.tree.node? (place ++ Layout.sourcesName :: names)) : Staged request place other := by
  have transfer {source : SourceFile} (accepted : source.check = .ok ()) {location : Location}
      {node : Node}
      (found : machine.status (source.target request.layout.sources) = .ok (location, node)) :
      other.status (source.target request.layout.sources) = .ok (location, node) := by
    refine SourceFile.status_target_transfer accepted request.layout.takesSlash_sources
      staged.directory there free (fun names node inside => ?_) found
    rw [List.append_assoc, List.singleton_append] at inside ⊢
    exact (same names).trans inside
  refine ⟨there, staged.accepted, fun source member => ?_, ?_⟩
  · obtain ⟨contents, executable, found⟩ := staged.placed source member
    exact ⟨contents, executable, transfer (staged.accepted source member) found⟩
  · intro before source later whole others
    obtain ⟨executable, found⟩ := staged.file before source later whole others
    exact ⟨executable, transfer (staged.accepted source (by simp [whole])) found⟩

/-- Every source has its place under the plain spelling, and of several the last is found there. -/
theorem Staged.plain (free : machine.tree.LinkFree (place ++ [Layout.sourcesName]))
    {before later : List SourceFile} {source : SourceFile}
    (whole : request.sources = before ++ source :: later)
    (others : ∀ other ∈ later, other.path.names ≠ source.path.names) : ∃ executable,
      machine.status (request.layout.sources.below source.path.names) =
        .ok (place ++ Layout.sourcesName :: source.path.names,
          .file (.bytes (Text.utf8 source.contents)) executable) := by
  obtain ⟨executable, found⟩ := staged.file before source later whole others
  have accepted := staged.accepted source (by simp [whole])
  exact ⟨executable, (SourceFile.status_plain accepted request.layout.takesSlash_sources
    staged.directory free found).2⟩

/-- What is staged can be staged again, which writes over the sources and does nothing else. -/
theorem Staged.again (free : machine.LinkFreeBelow request.layout.sources) :
    ∃ targets after, stageSources request machine = (.ok targets, after) ∧
      Machine.Grows (fun _ => False) request.IsTarget machine after ∧
      Staged request place after := by
  have each : FailsWithin (Machine.Grows (fun _ => False) request.IsTarget machine)
      (fun _ => False) (request.sources.mapM (SourceFile.stage request.layout.sources)) := by
    refine failsWithin_mapM fun source member now grows => ?_
    obtain ⟨contents, executable, found⟩ := staged.placed source member
    have accepted := staged.accepted source member
    obtain ⟨_, _, there⟩ := grows.status_file found
    obtain ⟨after, delivered, writes⟩ := Machine.deliver_again there
      (.bytes (Text.utf8 source.contents))
    rw [SourceFile.stage_eq_ok.mpr ⟨accepted, rfl, delivered⟩]
    refine grows.trans (writes.mono (fun _ => id) ?_)
    rintro _ rfl
    exact ⟨source, ⟨member, accepted⟩, rfl⟩
  have ended := each machine (Machine.Grows.refl machine)
  cases all : request.sources.mapM (SourceFile.stage request.layout.sources) machine with
  | mk answer after =>
    rw [all] at ended
    cases answer with
    | error error => exact ended.elim
    | ok targets =>
      have inside := Machine.isDirectory_iff.mpr ⟨_, staged.directory⟩
      exact ⟨targets, after, stageSources_eq_ok.mpr
        ⟨machine, Machine.createDirectories_of_isDirectory inside, all⟩, ended,
        staged_of_stageAll free staged.directory all⟩

end Staged

end Invocation
end KotlinCompile
