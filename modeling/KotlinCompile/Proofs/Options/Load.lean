import KotlinCompile.Proofs.Classpath
import KotlinCompile.Proofs.Fallible
import KotlinCompile.Proofs.Machine.Here
import KotlinCompile.Request
import Mathlib.Data.List.Forall2

/-! Profiles and the directory they are in. What a profile says does not depend on how it is named:
its paths lead from its own directory to the same places, and all else is the same. -/
namespace KotlinCompile

/-- The same way to obtain an archive, with related files where a file is used. -/
inductive ArchiveSelection.Matches (related : Path → Path → Prop) :
    ArchiveSelection → ArchiveSelection → Prop
  | discover : Matches related .discover .discover
  | use {path other : Path} : related path other → Matches related (.use path) (.use other)
  | skip : Matches related .skip .skip

namespace CompilerOptions

def withoutPaths (options : CompilerOptions) : CompilerOptions :=
  { options with
    jdkHome := none
    classpaths := []
    pluginClasspaths := []
    processorClasspath := []
    archives := {} }

/-- The same options but for their paths, which are related one by one and in their order. -/
structure Matches (related : Path → Path → Prop) (options others : CompilerOptions) : Prop where
  pathless : options.withoutPaths = others.withoutPaths
  jdkHome : Option.Rel related options.jdkHome others.jdkHome
  classpaths : List.Forall₂ related options.classpaths others.classpaths
  pluginClasspaths : List.Forall₂ related options.pluginClasspaths others.pluginClasspaths
  processorClasspath : List.Forall₂ related options.processorClasspath others.processorClasspath
  archives : ∀ archive,
    (options.archives.of archive).Matches related (others.archives.of archive)

def mapPaths (change : Path → Path) (options : CompilerOptions) : CompilerOptions :=
  { options with
    jdkHome := options.jdkHome.map change
    classpaths := options.classpaths.map change
    pluginClasspaths := options.pluginClasspaths.map change
    processorClasspath := options.processorClasspath.map change
    archives := options.archives.mapPaths change }

theorem rebase_eq (options : CompilerOptions) (directory : Path) :
    options.rebase directory = options.mapPaths (Path.absoluteFrom directory) := rfl

section Matches
variable {related : Path → Path → Prop} {f g : Path → Path}

theorem matches_selection (each : ∀ path, related (f path) (g path))
    (selection : ArchiveSelection) :
    (selection.mapPath f).Matches related (selection.mapPath g) := by
  cases selection with
  | discover => exact .discover
  | use path => exact .use (each path)
  | skip => exact .skip

theorem of_mapPaths (change : Path → Path) (selections : ArchiveSelections) (archive : Archive) :
    (selections.mapPaths change).of archive = (selections.of archive).mapPath change := by
  cases archive <;> rfl

theorem matches_map (each : ∀ path, related (f path) (g path)) (paths : List Path) :
    List.Forall₂ related (paths.map f) (paths.map g) :=
  List.forall₂_map_left_iff.mpr
    (List.forall₂_map_right_iff.mpr (List.forall₂_same.mpr fun path _ => each path))

/-- Whatever is done to all paths is done to each of them, and to nothing else. -/
theorem matches_mapPaths (each : ∀ path, related (f path) (g path)) (options : CompilerOptions) :
    (options.mapPaths f).Matches related (options.mapPaths g) where
  pathless := rfl
  jdkHome := by
    show Option.Rel related (options.jdkHome.map f) (options.jdkHome.map g)
    cases options.jdkHome with
    | none => exact .none
    | some home => exact .some (each home)
  classpaths := matches_map each _
  pluginClasspaths := matches_map each _
  processorClasspath := matches_map each _
  archives archive := by
    show ArchiveSelection.Matches related ((options.archives.mapPaths f).of archive)
      ((options.archives.mapPaths g).of archive)
    rw [of_mapPaths, of_mapPaths]
    exact matches_selection each _

theorem mapPaths_id (options : CompilerOptions) : options.mapPaths id = options := by
  have selections : options.archives.mapPaths id = options.archives := by
    have same (selection : ArchiveSelection) : selection.mapPath id = selection := by
      cases selection <;> rfl
    simp only [ArchiveSelections.mapPaths, same]
  simp only [mapPaths, Option.map_id, List.map_id, id_eq, selections]

theorem matches_changed (each : ∀ path, related path (g path)) (options : CompilerOptions) :
    options.Matches related (options.mapPaths g) := by
  have changed := matches_mapPaths (f := id) each options
  rwa [mapPaths_id] at changed

end Matches

/-- What a path in a profile becomes: itself if it is absolute, and else a path to where it leads
from the directory. -/
def IsMeantFrom (machine : Machine) (directory written path : Path) : Prop :=
  (written.isAbsolute = true → path = written) ∧
  (written.isAbsolute = false →
    (machine.absolute path).components = (directory.join written).components)

theorem load_eq {machine : Machine} {profile directory : Path} {text : String}
    {written : CompilerOptions} (read : machine.readText profile = .ok text)
    (accepted : parse text = .ok written) (above : profile.parent? = some directory) :
    load machine profile = .ok (written.mapPaths (Path.absoluteFrom directory)) := by
  rw [load, read, above, ← rebase_eq]
  show (parse text >>= _) = _
  rw [accepted]
  rfl

section Named
variable {machine : Machine} (settled : machine.Settled) {profile : Path}
  (relative : profile.isAbsolute = false)
include settled relative

/-- A text that is read from the current directory is read by its absolute path, too, unless that is
too long. -/
theorem readText_absolute {text : String} (read : machine.readText profile = .ok text) :
    Path.inner profile.spelling ≠ [] ∧ machine.readText (machine.absolute profile) =
      if Tree.longestPath < (machine.absolute profile).spelling.length then
        .error .nameTooLong
      else .ok text := by
  obtain ⟨contents, found, _⟩ := Fallible.bind_eq_ok.mp read
  obtain ⟨location, executable, there⟩ := Machine.status_of_read found
  have fine := Machine.status_refusal there
  refine ⟨Machine.busy_of_read found, ?_⟩
  split
  · next long =>
    unfold Machine.readText Machine.read
    rw [settled.status_tooLong relative fine long]
    rfl
  · next fits =>
    rw [← read]
    unfold Machine.readText Machine.read
    rw [settled.status_absolute relative fine (Nat.not_lt.mp fits)]

/-- The directory of a file under either name, and what relative paths come to from there. -/
theorem exists_directories (busy : Path.inner profile.spelling ≠ []) : ∃ near far,
    profile.parent? = some near ∧ (machine.absolute profile).parent? = some far ∧
      far.isAbsolute = true ∧ ∀ path : Path, path.isAbsolute = false →
        (machine.absolute (near.join path)).components = (far.join path).components := by
  have rooted : (machine.absolute profile).isAbsolute = true :=
    (settled.steps_absolute relative).2
  have based : machine.currentDirectory.isAbsolute = true := by
    rw [← Path.isAbsolute_join relative]
    exact rooted
  have busy' : Path.inner (machine.absolute profile).spelling ≠ [] := by
    rw [Machine.absolute, Path.absoluteFrom, Path.inner_join relative]
    exact List.append_ne_nil_of_right_ne_nil _ busy
  obtain ⟨near, above⟩ := Path.exists_parent busy
  obtain ⟨far, above'⟩ := Path.exists_parent busy'
  exact ⟨near, far, above, above', (Path.isAbsolute_parent busy' above').trans rooted,
    fun path within => Path.components_resolved based relative busy above above' within⟩

end Named

/-- A profile means the same whether it is named from the current directory or by its absolute path,
unless that is too long for the machine: what is in it is the same but for the paths, and each of
these stays if it is absolute, and else leads on from the directory that the profile is in. -/
theorem load_however_named {machine : Machine} (settled : machine.Settled) {profile : Path}
    (relative : profile.isAbsolute = false) {text : String}
    (read : machine.readText profile = .ok text) {written : CompilerOptions}
    (accepted : parse text = .ok written) :
    ∃ directory options, (machine.absolute profile).parent? = some directory ∧
      load machine profile = .ok options ∧
      written.Matches (IsMeantFrom machine directory) options ∧
      if Tree.longestPath < (machine.absolute profile).spelling.length then
        load machine (machine.absolute profile) =
          .error (.io (machine.absolute profile) .nameTooLong)
      else ∃ others, load machine (machine.absolute profile) = .ok others ∧
        written.Matches (IsMeantFrom machine directory) others ∧
        options.Matches (fun path other =>
          (machine.absolute path).components = (machine.absolute other).components) others := by
  have ⟨busy, again⟩ := readText_absolute settled relative read
  obtain ⟨near, far, above, above', farther, nearby⟩ := exists_directories settled relative busy
  have keeps (directory path : Path) (absolute : path.isAbsolute = true) :
      Path.absoluteFrom directory path = path := Path.absoluteFrom_of_absolute directory absolute
  have distant (path : Path) :
      machine.absolute (Path.absoluteFrom far path) = Path.absoluteFrom far path :=
    Path.absoluteFrom_of_absolute _ (Path.absoluteFrom_isAbsolute farther path)
  refine ⟨far, _, above', load_eq read accepted above, ?_, ?_⟩
  · exact matches_changed (fun path => ⟨keeps near path, nearby path⟩) written
  split
  · next long =>
    rw [if_pos long] at again
    rw [load, again]
    rfl
  · next fits =>
    rw [if_neg fits] at again
    refine ⟨_, load_eq again accepted above', ?_, ?_⟩
    · refine matches_changed (fun path => ⟨keeps far path, fun _ => ?_⟩) written
      rw [distant, Path.absoluteFrom]
    · refine matches_mapPaths (fun path => ?_) written
      cases within : path.isAbsolute with
      | true => rw [keeps near path within, keeps far path within]
      | false => exact (nearby path within).trans (congrArg Path.components (distant path).symm)

def profileText : String :=
  "classpaths = ['libs/foo.jar', '/abs/bar.jar']\n[archives]\nstdlib = \x7b use = 'lib/s.jar' \x7d\n"

def configured : Machine where
  tree := ⟨[(["work"], .directory), (["work", "conf"], .directory),
    (["work", "conf", "kct.toml"], .file (.bytes (Text.utf8 profileText)) false)]⟩
  here := ["work"]
  environment := []

/-- The profile is named by a detour, and its absolute path has the detour in it, too. -/
theorem detour_loaded :
    configured.Settled ∧ (⟨"./conf/../conf/kct.toml"⟩ : Path).isAbsolute = false ∧
    (∃ written, configured.readText ⟨"./conf/../conf/kct.toml"⟩ = .ok profileText ∧
      parse profileText = .ok written) ∧
    ∃ options others, load configured ⟨"./conf/../conf/kct.toml"⟩ = .ok options ∧
      load configured ⟨"/work/./conf/../conf/kct.toml"⟩ = .ok others ∧
      options.Matches (fun path other =>
        (configured.absolute path).components = (configured.absolute other).components) others := by
  have settled : configured.Settled := ⟨by decide, rfl⟩
  have read : configured.readText ⟨"./conf/../conf/kct.toml"⟩ = .ok profileText := by
    decide +kernel
  have accepted : parse profileText = .ok
      { classpaths := [⟨"libs/foo.jar"⟩, ⟨"/abs/bar.jar"⟩]
        archives := { stdlib := .use ⟨"lib/s.jar"⟩ } } := by decide +kernel
  have absolute : configured.absolute ⟨"./conf/../conf/kct.toml"⟩ =
      ⟨"/work/./conf/../conf/kct.toml"⟩ := by decide +kernel
  obtain ⟨_, options, _, loaded, _, again⟩ := load_however_named settled rfl read accepted
  rw [absolute, if_neg (by decide +kernel)] at again
  obtain ⟨others, loaded', _, same⟩ := again
  exact ⟨settled, rfl, ⟨_, read, accepted⟩, options, others, loaded, loaded', same⟩

/-- A profile in the current directory, named as long as a path may be. -/
def dotted : Path := ⟨(List.replicate 2044 [Byte.dot, Byte.slash]).flatten ++ Text.utf8 "p.toml"⟩

def emptyProfile : Machine where
  tree := ⟨[(["work"], .directory), (["work", "p.toml"], .file (.bytes []) false)]⟩
  here := ["work"]
  environment := []

/-- Behind the current directory its name is too long. -/
theorem dotted_refused :
    emptyProfile.Settled ∧ dotted.isAbsolute = false ∧
    emptyProfile.readText dotted = .ok "" ∧ parse "" = .ok {} ∧
    load emptyProfile dotted = .ok {} ∧
    load emptyProfile (emptyProfile.absolute dotted) =
      .error (.io (emptyProfile.absolute dotted) .nameTooLong) := by
  have settled : emptyProfile.Settled := ⟨by decide, rfl⟩
  have relative : dotted.isAbsolute = false := by decide +kernel
  have read : emptyProfile.readText dotted = .ok "" := by decide +kernel
  refine ⟨settled, relative, read, by decide +kernel, by decide +kernel, ?_⟩
  obtain ⟨_, again⟩ := readText_absolute settled relative read
  rw [if_pos (by decide +kernel)] at again
  rw [load, again]
  rfl

end CompilerOptions
end KotlinCompile
