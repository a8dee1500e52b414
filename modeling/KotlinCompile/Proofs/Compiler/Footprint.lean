import KotlinCompile.Proofs.Compiler.Reach

/-! What a run leaves behind in the file tree, whatever it ends with: its own directories and files
below the working directory, and no others. -/
namespace KotlinCompile

-- What begins a path along names below a base stops above the base or goes along its first names.
theorem Path.prefix_names {front base : List Component} {names : Location}
    (within : front <+: base ++ names.map .name) :
    front <+: base ∨
      ∃ name rest, name :: rest <+: names ∧ front = base ++ (name :: rest).map .name := by
  rcases List.prefix_or_prefix_of_prefix within (List.prefix_append base _) with above | ⟨more, rfl⟩
  · exact Or.inl above
  · rw [List.prefix_append_right_inj] at within
    obtain ⟨first, begins, rfl⟩ := List.prefix_map_iff.mp within
    cases first with
    | nil => exact Or.inl (by simp)
    | cons name rest => exact Or.inr ⟨name, rest, begins, rfl⟩

namespace Request
variable {request : Request} {before after : Machine} {location place : Location}

/-- What a run may do to a location of the tree. -/
inductive Touches (request : Request) (before : Machine) (location : Location) :
    Option Node → Option Node → Prop
  | ancestor {path : Path} : path.components <+: request.layout.root.components →
      before.Routes path location → Touches request before location none (some .directory)
  | sources {place : Location} {old new : Option Node} : before.Routes request.layout.root place →
      place ++ [Layout.sourcesName] <+: location → Touches request before location old new
  | classes {place : Location} : before.Routes request.layout.root place →
      location = place ++ [Layout.classesName] → Touches request before location none (some .directory)
  | archive {place : Location} {old : Option Node} {contents : Contents} {executable : Bool} :
      request.hasServices = true → before.Routes request.layout.root place →
      location = place ++ [Layout.servicesName] →
      Touches request before location old (some (.file contents executable))

/-- What is left behind: nothing is touched that may not be, nothing is deleted, and a file below
the directory of the sources that is no target of a source stays as it is. -/
structure Footprint (request : Request) (before after : Machine) : Prop where
  here : after.here = before.here
  environment : after.environment = before.environment
  touched : ∀ location, after.tree.node? location ≠ before.tree.node? location →
    request.Touches before location (before.tree.node? location) (after.tree.node? location)
  kept : ∀ location node, before.tree.node? location = some node → ∃ now,
    after.tree.node? location = some now ∧ (now = node ∨ ∃ former contents executable,
      node = .file former executable ∧ now = .file contents executable)
  untargeted : ∀ (path : Path) (names : Location) location contents executable,
    path.components = request.layout.sources.components ++ names.map .name →
    before.Routes path location →
    before.tree.node? location = some (.file contents executable) →
    (∀ source ∈ request.sources, (source.target request.layout.sources).same path = false) →
    after.tree.node? location = some (.file contents executable)

/-- A directory that a run makes leads to its working directory or is its own. -/
theorem touches_of_makes (free : before.LinkFreeBelow request.layout.root) {path : Path}
    (makes : request.Makes path) (leads : before.Routes path location) :
    request.Touches before location none (some .directory) := by
  have along (names : Location) (named : ∀ name ∈ names, IsName name)
      (within : path.components <+: request.layout.root.components ++ names.map .name) :
      path.components <+: request.layout.root.components ∨ ∃ place name rest,
        before.Routes request.layout.root place ∧ name :: rest <+: names ∧
          location = place ++ name :: rest := by
    refine (Path.prefix_names within).imp_right fun ⟨name, rest, begins, whole⟩ => ?_
    obtain ⟨place, root, same⟩ := (Layout.routes_iff whole
      (fun name member => named name (begins.subset member)) free).mp leads
    exact ⟨place, name, rest, root, begins, same⟩
  have below (names : Location) (named : ∀ name ∈ names, IsName name)
      (within : path.components <+: request.layout.sources.components ++ names.map .name) :
      request.Touches before location none (some .directory) := by
    rw [request.layout.components_sources, List.append_assoc] at within
    rcases along (Layout.sourcesName :: names)
      (List.forall_mem_cons.mpr ⟨Layout.isName_sources, named⟩) within with
      above | ⟨place, name, rest, root, begins, rfl⟩
    · exact .ancestor above leads
    · obtain ⟨rfl, _⟩ := List.cons_prefix_cons.mp begins
      exact .sources root ⟨rest, by simp⟩
  rcases makes with (directory | ⟨source, ⟨_, accepted⟩, within⟩) | classes
  · exact below [] (fun _ member => absurd member List.not_mem_nil)
      (directory.trans (List.prefix_append _ _))
  · have whole := SourceFile.components_target accepted request.layout.sources_spelled
    exact below _ source.named_names (whole ▸ within.trans (List.dropLast_prefix _))
  · rw [request.layout.components_classes] at classes
    rcases along [Layout.classesName] (List.forall_mem_singleton.mpr Layout.isName_classes) classes
      with above | ⟨place, name, rest, root, begins, rfl⟩
    · exact .ancestor above leads
    · obtain ⟨rfl, ends⟩ := List.cons_prefix_cons.mp begins
      cases List.prefix_nil.mp ends
      exact .classes root rfl

theorem footprint_of_grows (free : before.LinkFreeBelow request.layout.root)
    (grows : Machine.Grows request.Makes request.Writes before after) :
    request.Footprint before after where
  here := grows.here
  environment := grows.environment
  touched location differ := by
    have change := grows.change location
    generalize before.tree.node? location = old at change differ
    generalize after.tree.node? location = new at change differ
    cases change with
    | kept => exact absurd rfl differ
    | made makes leads => exact touches_of_makes free makes leads
    | written writes leads =>
      rcases writes with ⟨source, ⟨_, accepted⟩, rfl⟩ | ⟨services, rfl⟩
      · obtain ⟨place, root, rfl⟩ := (SourceFile.routes_target accepted free).mp leads
        exact .sources root ⟨source.path.names, by simp⟩
      · obtain ⟨place, root, rfl⟩ := (Layout.routes_servicesJar free).mp leads
        exact .archive services root rfl
  kept location node found := grows.there found
  untargeted path names location contents executable whole leads found others := by
    have below : path.components =
        request.layout.root.components ++ (Layout.sourcesName :: names).map .name := by
      rw [whole, request.layout.components_sources, List.append_assoc]
      rfl
    have named : ∀ name ∈ Layout.sourcesName :: names, IsName name := by
      intro name member
      have counted : name ∈ path.names := by
        rw [Path.mem_names, below]
        exact List.mem_append_right _ (List.mem_map_of_mem member)
      exact isName_of_mem_names counted
    obtain ⟨place, root, rfl⟩ := (Layout.routes_iff below named free).mp leads
    refine (grows.untouched (fun nothing => by cases nothing.symm.trans found) ?_).trans found
    intro target writes leads'
    rcases writes.location free root leads' with ⟨source, member, accepted, same⟩ | ⟨_, same⟩
    · have apart := others source member
      rw [Path.same, beq_eq_false_iff_ne, whole, (Location.below_inj same).2,
        SourceFile.components_target accepted request.layout.sources_spelled] at apart
      exact apart rfl
    · exact absurd (Location.below_inj same).1 (by decide)

end Request

namespace Compilation
open Fallible

/-- However a run ends, what it did to the machine before the compiler was called has its footprint,
and the compiler was handed that machine or never called. -/
theorem run_footprint (bench : Bench)
    (free : bench.machine.LinkFreeBelow bench.compilation.request.layout.root) :
    ∃ ready, bench.compilation.request.Footprint bench.machine ready ∧
      ((run bench).2.calls = bench.calls ∧ (run bench).2.machine = ready ∨
        ∃ arguments tee, (run bench).2.calls = bench.calls ++ [arguments] ∧
          (run bench).2.machine =
            ((bench.compilation.backend arguments ready).on tee).1.2) := by
  have grows := growsBy_announce bench.compilation.request bench
  refine ⟨_, Request.footprint_of_grows free grows, ?_⟩
  have quiet := calls_announce bench.compilation.request bench
  rw [run_eq_conclude, bind_apply]
  cases ended : announce bench.compilation.request bench with
  | mk answer ready =>
    rw [ended] at quiet
    cases answer with
    | error error => exact Or.inl ⟨quiet, rfl⟩
    | ok announced =>
      obtain ⟨invocation, composition⟩ := announced
      obtain ⟨rfl, kapt, classpath, announces⟩ := announces_of_announce ended
      refine Or.inr ⟨composition.arguments.commandLine, ⟨ready.stream, []⟩, ?_, ?_⟩
      · exact (calls_conclude _ composition ready).trans (by rw [announces.calls])
      · have same : ready.compilation.backend = bench.compilation.backend := by
          obtain ⟨_, same, asked, _⟩ := check_ok announces.checked
          cases same
          exact asked.backend
        rw [← same]
        exact machine_conclude _ composition ready

/-- A file of an earlier run is among the sources, and services are packaged. -/
def usedBench : Bench :=
  linkedBench [(["home", "project", "sources"], .directory),
    (["home", "project", "sources", "Old.kt"], .file (.bytes [0]) false)] [⟨"api.Plugin", "impl.First"⟩]

theorem linked_footprint :
    let after := (run usedBench).2.machine
    usedBench.machine.LinkFreeBelow ⟨"/work"⟩ ∧ (run usedBench).2.calls ≠ [] ∧
    usedBench.compilation.request.Footprint usedBench.machine after ∧
    after.tree.node? ["home", "project", "sources", "Old.kt"] = some (.file (.bytes [0]) false) ∧
    after.tree.node? ["work"] = some (.link ⟨"home/project"⟩) := by
  have free : usedBench.machine.LinkFreeBelow ⟨"/work"⟩ := linkFreeBelow_linked (by simp)
  have called : (run usedBench).2.calls ≠ [] := by decide +kernel
  obtain ⟨ready, footprint, left⟩ := run_footprint usedBench free
  -- The compiler of this bench leaves the machine as it finds it.
  have left : (run usedBench).2.machine = ready := left.elim (·.2) fun ⟨_, _, _, same⟩ => same
  rw [left]
  refine ⟨free, called, footprint, ?_, ?_⟩
  · have whole : (⟨"/work/sources/Old.kt"⟩ : Path).components =
        (⟨"/work"⟩ : Path).components ++ (["sources", "Old.kt"] : Location).map .name := by decide
    have leads := (Layout.routes_iff whole (by decide) free).mpr ⟨_, routes_linked _, rfl⟩
    exact footprint.untargeted _ ["Old.kt"] _ _ _ (by decide) leads rfl (by decide)
  · obtain ⟨now, there, same⟩ := footprint.kept ["work"] _ rfl
    rcases same with rfl | ⟨_, _, _, file, _⟩
    · exact there
    · cases file

end Compilation
end KotlinCompile
