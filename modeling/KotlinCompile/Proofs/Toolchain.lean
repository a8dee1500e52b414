import KotlinCompile.Proofs.Classpath
import KotlinCompile.Proofs.Fallible
import KotlinCompile.Proofs.Listing
import KotlinCompile.Proofs.Path.Parent
import KotlinCompile.Toolchain

/-! The two ways to a Kotlin distribution: by a path, and by discovery, for which there is an order
of places to look in. Where a path is named by the environment both find the same launcher, but the
home is the path itself the one way, and the directory above the launcher's the other way. -/
namespace KotlinCompile.Toolchain
open Fallible

variable {machine : Machine} {home launcher : Path} {opened discovered : Toolchain}

theorem ofHome_eq_ok : ofHome machine home = .ok opened ↔
    launcherAt? machine home = some opened.launcher ∧ opened.home = home := by
  unfold ofHome
  cases launcherAt? machine home with
  | none => exact ⟨nofun, nofun⟩
  | some launcher =>
    constructor
    · rintro ⟨⟩
      exact ⟨rfl, rfl⟩
    · obtain ⟨_, _⟩ := opened
      rintro ⟨⟨⟩, rfl⟩
      rfl

theorem discover_eq_ok : discover machine = .ok discovered ↔
    findLauncher? machine = some discovered.launcher ∧
      homeOf? machine discovered.launcher = some discovered.home := by
  unfold discover
  cases findLauncher? machine with
  | none => exact ⟨nofun, nofun⟩
  | some launcher =>
    dsimp only
    cases derived : homeOf? machine launcher with
    | none =>
      refine ⟨nofun, ?_⟩
      rintro ⟨⟨⟩, same⟩
      rw [derived] at same
      cases same
    | some home =>
      constructor
      · rintro ⟨⟩
        exact ⟨rfl, derived⟩
      · obtain ⟨_, _⟩ := discovered
        rintro ⟨⟨⟩, same⟩
        rw [derived] at same
        cases same
        rfl

/-- The environment is asked first, so what it leads to is the launcher that is found. -/
theorem findLauncher_of_environment (named : machine.valueOf? "KOTLIN_HOME" = some home.spelling)
    (found : launcherAt? machine home = some launcher) :
    findLauncher? machine = some launcher := by
  rw [findLauncher?, ofEnvironment?, named, Option.bind_some, found, Option.some_or]

/-- Where the launcher of a distribution lies, seen from its root. -/
def rootLauncher (home : Path) : Path := (home.child "bin").child launcherName

theorem components_rootLauncher (home : Path) :
    (rootLauncher home).components = home.components ++ [.name "bin"] ++ [.name launcherName] := by
  rw [rootLauncher, Path.components_child (by decide), Path.components_child (by decide)]

/-- A path that is not the root of a distribution ends in a name, and its launcher lies right in it
or is it. -/
theorem launcherAt_elsewhere (found : launcherAt? machine home = some launcher)
    (elsewhere : machine.isFile (rootLauncher home) = false) :
    home.components ≠ [] ∧ (launcher = home.child launcherName ∨ launcher = home) := by
  have named {name : String} (ends : home.endsWith name = true) : home.components ≠ [] := by
    intro none
    rw [Path.endsWith, Path.fileName?, none] at ends
    cases ends
  unfold launcherAt? at found
  rw [rootLauncher] at elsewhere
  simp only [elsewhere, Bool.false_eq_true, if_false] at found
  split at found
  · next inside =>
    cases found
    exact ⟨named (Bool.and_eq_true_iff.mp inside).1, Or.inl rfl⟩
  · split at found
    · next itself =>
      cases found
      exact ⟨named (Bool.and_eq_true_iff.mp itself).1, Or.inr rfl⟩
    · cases found

theorem launcherAt_root (root : machine.isFile (rootLauncher home) = true) :
    launcherAt? machine home = some (rootLauncher home) := by
  rw [rootLauncher] at root
  simp only [launcherAt?, root, if_true]
  rfl

theorem components_homeOf (derived : homeOf? machine launcher = some home) :
    home.components = launcher.components.dropLast.dropLast := by
  obtain ⟨bin, inBin, derived⟩ := Option.bind_eq_some_iff.mp derived
  obtain ⟨above, inHome, derived⟩ := Option.bind_eq_some_iff.mp derived
  split at derived <;> cases derived
  rw [Path.components_parent inHome, Path.components_parent inBin]

theorem ne_of_front {components front : List Component} (filled : components ≠ [])
    (within : front <+: components.dropLast) : components ≠ front := by
  intro same
  have most := within.length_le
  have some := List.length_pos_iff.mpr filled
  rw [List.length_dropLast, ← same] at most
  omega

/-- The home that is derived from the launcher is the path itself exactly if that is the root. -/
theorem homeOf_same_iff {derived : Path} (found : launcherAt? machine home = some launcher)
    (derives : homeOf? machine launcher = some derived) :
    home.same derived = true ↔ machine.isFile (rootLauncher home) = true := by
  have above := components_homeOf derives
  rw [Path.same_iff, above]
  cases root : machine.isFile (rootLauncher home) with
  | true =>
    rw [launcherAt_root root] at found
    cases found
    rw [components_rootLauncher, List.dropLast_concat, List.dropLast_concat]
    exact iff_of_true rfl rfl
  | false =>
    obtain ⟨filled, rfl | rfl⟩ := launcherAt_elsewhere found root
    · rw [Path.components_child (by decide), List.dropLast_concat]
      exact iff_of_false (ne_of_front filled (List.prefix_refl _)) Bool.false_ne_true
    · exact iff_of_false (ne_of_front filled (List.dropLast_prefix _)) Bool.false_ne_true

theorem same_child_iff {name : String} (single : (⟨name⟩ : Path).components = [.name name])
    (path other : Path) : (path.child name).same (other.child name) = true ↔
      path.same other = true := by
  rw [Path.same_iff, Path.same_iff, Path.components_child single, Path.components_child single,
    List.append_cancel_right_eq]

/-- A distribution that is opened by the path which the environment names is discovered with the
same launcher. Its home, and so its archives and its compiler, are found at the same place exactly
if the path is that of the root of the distribution; from the path of the directory of the launcher,
or of the launcher itself, the home is derived in discovering alone. -/
theorem openings_agree_iff (machine : Machine) (home : Path) (opened discovered : Toolchain)
    (named : machine.valueOf? "KOTLIN_HOME" = some home.spelling)
    (opens : ofHome machine home = .ok opened) (discovers : discover machine = .ok discovered) :
    opened.launcher = discovered.launcher ∧
    (opened.home.same discovered.home = true ↔ machine.isFile (rootLauncher home) = true) ∧
    (opened.lib.same discovered.lib = true ↔ machine.isFile (rootLauncher home) = true) ∧
    (opened.compilerJar.same discovered.compilerJar = true ↔
      machine.isFile (rootLauncher home) = true) := by
  obtain ⟨found, rfl⟩ := ofHome_eq_ok.mp opens
  obtain ⟨first, derives⟩ := discover_eq_ok.mp discovers
  have launcher : opened.launcher = discovered.launcher :=
    Option.some.inj ((findLauncher_of_environment named found).symm.trans first)
  have homes := homeOf_same_iff found (launcher ▸ derives)
  have libs : opened.lib.same discovered.lib = true ↔
      machine.isFile (rootLauncher opened.home) = true :=
    (same_child_iff (by decide) _ _).trans homes
  exact ⟨launcher, homes, libs, (same_child_iff (by decide) _ _).trans libs⟩

/-- A machine with a distribution in /kotlin, and a path to it in the environment. -/
def installed (path : String) : Machine where
  tree := ⟨[(["kotlin"], .directory), (["kotlin", "bin"], .directory),
    (["kotlin", "bin", "kotlinc"], .file (.bytes []) true), (["kotlin", "lib"], .directory)]⟩
  here := []
  environment := [("KOTLIN_HOME", path)]

theorem root_opened :
    ofHome (installed "/kotlin/.") ⟨"/kotlin/."⟩ =
      .ok ⟨⟨"/kotlin/./bin/kotlinc"⟩, ⟨"/kotlin/."⟩⟩ ∧
    discover (installed "/kotlin/.") = .ok ⟨⟨"/kotlin/./bin/kotlinc"⟩, ⟨"/kotlin"⟩⟩ ∧
    Path.same ⟨"/kotlin/./lib"⟩ ⟨"/kotlin/lib"⟩ = true := by
  have opens : ofHome (installed "/kotlin/.") ⟨"/kotlin/."⟩ =
      .ok ⟨⟨"/kotlin/./bin/kotlinc"⟩, ⟨"/kotlin/."⟩⟩ := toOption_eq_some.mp (by decide +kernel)
  have discovers : discover (installed "/kotlin/.") =
      .ok ⟨⟨"/kotlin/./bin/kotlinc"⟩, ⟨"/kotlin"⟩⟩ := toOption_eq_some.mp (by decide +kernel)
  have agree := openings_agree_iff _ _ _ _ rfl opens discovers
  exact ⟨opens, discovers, agree.2.2.1.mpr (by decide +kernel)⟩

theorem bin_taken_for_home :
    (installed "/kotlin/bin").valueOf? "KOTLIN_HOME" = some "/kotlin/bin" ∧
    ofHome (installed "/kotlin/bin") ⟨"/kotlin/bin"⟩ =
      .ok ⟨⟨"/kotlin/bin/kotlinc"⟩, ⟨"/kotlin/bin"⟩⟩ ∧
    discover (installed "/kotlin/bin") = .ok ⟨⟨"/kotlin/bin/kotlinc"⟩, ⟨"/kotlin"⟩⟩ ∧
    Path.same ⟨"/kotlin/bin"⟩ ⟨"/kotlin"⟩ = false :=
  ⟨rfl, toOption_eq_some.mp (by decide +kernel), toOption_eq_some.mp (by decide +kernel),
    by decide +kernel⟩

end KotlinCompile.Toolchain

namespace KotlinCompile

section Precedence
variable {α β : Type} {first second : β → Prop} {gives : α → β → Prop} {f : α → Option β}
variable {things : List α} {value : β}

/-- What the first of two sources gives, or what the second gives if the first has nothing. -/
def OrElse (first second : β → Prop) (value : β) : Prop :=
  first value ∨ (∀ other, ¬first other) ∧ second value

/-- What is given by the first of some things that gives anything. -/
def FirstOf (gives : α → β → Prop) : List α → β → Prop
  | [], _ => False
  | thing :: rest, value => OrElse (gives thing) (FirstOf gives rest) value

theorem orElse_iff {left right : Option β} (first_iff : ∀ value, first value ↔ left = some value)
    (second_iff : ∀ value, second value ↔ right = some value) :
    OrElse first second value ↔ left.or right = some value := by
  unfold OrElse
  simp only [first_iff, second_iff]
  cases left with
  | none => simp
  | some found => simp

theorem firstOf_iff (gives_iff : ∀ thing value, gives thing value ↔ f thing = some value) :
    FirstOf gives things value ↔ things.findSome? f = some value := by
  induction things generalizing value with
  | nil => simp [FirstOf]
  | cons thing rest ih =>
    rw [FirstOf, orElse_iff (gives_iff thing) fun _ => ih, List.findSome?_cons]
    cases f thing <;> rfl

end Precedence

namespace Toolchain
variable {machine : Machine} {home launcher found : Path} {name : String}

/-- The launcher that a path leads to: the one of the distribution with this root, the one in this
directory if that is called bin, or the path itself if it is called like a launcher. -/
inductive Launches (machine : Machine) (home : Path) : Path → Prop where
  | root (file : machine.isFile (rootLauncher home) = true) :
      Launches machine home (rootLauncher home)
  | bin (elsewhere : machine.isFile (rootLauncher home) = false)
      (named : home.fileName? = some "bin")
      (file : machine.isFile (home.child launcherName) = true) :
      Launches machine home (home.child launcherName)
  | itself (elsewhere : machine.isFile (rootLauncher home) = false)
      (named : home.fileName? = some launcherName)
      (file : machine.isFile home = true) : Launches machine home home

theorem launches_iff : Launches machine home launcher ↔
    launcherAt? machine home = some launcher := by
  have ends (name : Bytes) : home.endsWith name = true ↔ home.fileName? = some name := beq_iff_eq
  constructor
  · intro launches
    cases launches with
    | root file => exact launcherAt_root file
    | bin elsewhere named file =>
      rw [rootLauncher] at elsewhere
      simp [launcherAt?, elsewhere, (ends _).mpr named, file]
    | itself elsewhere named file =>
      have outside : home.endsWith "bin" = false := by
        rw [Path.endsWith, named]
        decide +kernel
      rw [rootLauncher] at elsewhere
      simp [launcherAt?, elsewhere, outside, (ends _).mpr named, file]
  · intro launches
    cases root : machine.isFile (rootLauncher home) with
    | true =>
      rw [launcherAt_root root] at launches
      cases launches
      exact .root root
    | false =>
      have elsewhere := root
      rw [rootLauncher] at elsewhere
      simp only [launcherAt?, elsewhere, Bool.false_eq_true, if_false, Bool.and_eq_true] at launches
      split at launches
      · next inside =>
        cases launches
        exact .bin root ((ends _).mp inside.1) inside.2
      · split at launches
        · next itself =>
          cases launches
          exact .itself root ((ends _).mp itself.1) itself.2
        · cases launches

/-- The program that the search path leads to: the executable file in the first of its directories
that has one of that name, by the place of the file and not by that of a link to it. -/
def OnSearchPath (machine : Machine) (name : String) (program : Path) : Prop :=
  ∃ value found location contents, machine.valueOf? "PATH" = some value ∧
    FirstOf (fun directory place => place = (machine.expanded directory).child name ∧
      machine.isExecutable place = true) (Machine.searchPath value) found ∧
    machine.status found = .ok (location, .file contents true) ∧
    program = Machine.pathOf location

theorem isExecutable_iff : machine.isExecutable found = true ↔ ∃ location contents,
    machine.status found = .ok (location, .file contents true) := by
  unfold Machine.isExecutable
  constructor
  · intro executable
    split at executable
    · next location contents runs there =>
      rw [executable] at there
      exact ⟨location, contents, there⟩
    · cases executable
  · rintro ⟨location, contents, there⟩
    rw [there]

theorem which_iff : machine.which? name = some found ↔ ∃ value,
    machine.valueOf? "PATH" = some value ∧
    FirstOf (fun directory place => place = (machine.expanded directory).child name ∧
      machine.isExecutable place = true) (Machine.searchPath value) found := by
  rw [Machine.which?, Option.bind_eq_some_iff]
  refine exists_congr fun value => and_congr_right fun _ => ?_
  rw [List.find?_eq_findSome?_guard, List.findSome?_map]
  refine (firstOf_iff fun directory place => ?_).symm
  rw [Function.comp_apply, Option.guard_eq_some_iff]
  constructor
  · rintro ⟨rfl, executable⟩
    exact ⟨rfl, executable⟩
  · rintro ⟨rfl, executable⟩
    exact ⟨rfl, executable⟩

theorem onSearchPath_iff {program : Path} :
    OnSearchPath machine name program ↔ onSearchPath? machine name = some program := by
  rw [onSearchPath?, Option.map_eq_some_iff]
  constructor
  · rintro ⟨value, found, location, contents, named, first, there, rfl⟩
    refine ⟨found, which_iff.mpr ⟨value, named, first⟩, ?_⟩
    rw [Machine.canonical, there]
    rfl
  · rintro ⟨found, first, rfl⟩
    have executable : machine.isExecutable found = true := by
      obtain ⟨value, _, finds⟩ := Option.bind_eq_some_iff.mp first
      exact List.find?_some finds
    obtain ⟨location, contents, there⟩ := isExecutable_iff.mp executable
    obtain ⟨value, named, first⟩ := which_iff.mp first
    refine ⟨value, found, location, contents, named, first, there, ?_⟩
    rw [Machine.canonical, there]
    rfl

/-- The launcher below a root: that of the root itself, or that of the first directory in it that
leads to one, in the order in which the machine lists them. -/
def LaunchesBelow (machine : Machine) (root launcher : Path) : Prop :=
  ∃ place, machine.status root = .ok (place, .directory) ∧
    OrElse (Launches machine root)
      (FirstOf (fun entry found => machine.isDirectory entry = true ∧ Launches machine entry found)
        ((machine.tree.namesIn place).map root.child)) launcher

theorem launchesBelow_iff {root : Path} :
    LaunchesBelow machine root launcher ↔ launcherBelow? machine root = some launcher := by
  have within : ∀ entry found, machine.isDirectory entry = true ∧ Launches machine entry found ↔
      (if machine.isDirectory entry then launcherAt? machine entry else none) = some found := by
    intro entry found
    rw [launches_iff]
    cases machine.isDirectory entry <;> simp
  have listed {place : Location} (there : machine.status root = .ok (place, .directory)) :
      (machine.list root).toOption.getD [] = (machine.tree.namesIn place).map root.child := by
    rw [Machine.list_of_status there]
    rfl
  unfold LaunchesBelow launcherBelow?
  constructor
  · rintro ⟨place, there, below⟩
    rw [if_pos (Machine.isDirectory_iff.mpr ⟨place, there⟩), listed there]
    exact (orElse_iff (fun _ => launches_iff) fun _ => firstOf_iff within).mp below
  · intro below
    split at below
    · next directory =>
      obtain ⟨place, there⟩ := Machine.isDirectory_iff.mp directory
      rw [listed there] at below
      exact ⟨place, there, (orElse_iff (fun _ => launches_iff) fun _ => firstOf_iff within).mpr below⟩
    · cases below

/-- The launcher that is found: through the environment, else on the search path, else below the
first of the usual roots that has one. -/
def Finds (machine : Machine) : Path → Prop :=
  OrElse (fun launcher => ∃ value, machine.valueOf? "KOTLIN_HOME" = some value ∧
      Launches machine ⟨value⟩ launcher) <|
    OrElse (OnSearchPath machine launcherName) (FirstOf (LaunchesBelow machine) (knownRoots machine))

theorem finds_iff : Finds machine launcher ↔ findLauncher? machine = some launcher := by
  have named (found : Path) : (∃ value, machine.valueOf? "KOTLIN_HOME" = some value ∧
      Launches machine ⟨value⟩ found) ↔ ofEnvironment? machine = some found := by
    rw [ofEnvironment?, Option.bind_eq_some_iff]
    simp only [launches_iff]
  exact orElse_iff named fun _ =>
    orElse_iff (fun _ => onSearchPath_iff) fun _ => firstOf_iff fun _ _ => launchesBelow_iff

/-- The home that a program belongs to: the directory above the program's, with a lib directory. -/
def HomeOf (machine : Machine) (program home : Path) : Prop :=
  ∃ bin, program.parent? = some bin ∧ bin.parent? = some home ∧
    machine.isDirectory (home.child "lib") = true

theorem homeOf_iff {program : Path} :
    HomeOf machine program home ↔ homeOf? machine program = some home := by
  unfold HomeOf homeOf?
  simp only [Option.bind_eq_bind, Option.bind_eq_some_iff]
  refine exists_congr fun bin => and_congr_right fun _ => ?_
  constructor
  · rintro ⟨above, library⟩
    exact ⟨home, above, by rw [if_pos library]⟩
  · rintro ⟨other, above, library⟩
    split at library <;> cases library
    exact ⟨above, ‹_›⟩

/-- A distribution is discovered exactly if its launcher is the one that is found and its home the one
that the launcher belongs to. -/
theorem discover_exact {toolchain : Toolchain} : discover machine = .ok toolchain ↔
    Finds machine toolchain.launcher ∧ HomeOf machine toolchain.launcher toolchain.home := by
  rw [discover_eq_ok, finds_iff, homeOf_iff]

/-- The JDK is that of JAVA_HOME, else that of JDK_HOME, if there is a java in its bin directory, and
else the home of the java on the search path. -/
theorem javaHome_exact : javaHome? machine = some home ↔
    OrElse (FirstOf (fun name place => machine.valueOf? name = some place.spelling ∧
        machine.isFile ((place.child "bin").child "java") = true) ["JAVA_HOME", "JDK_HOME"])
      (fun place => ∃ java, OnSearchPath machine "java" java ∧ HomeOf machine java place) home := by
  refine (orElse_iff (fun place => firstOf_iff fun name found => ?_) fun place => ?_).symm
  · rw [Option.bind_eq_some_iff]
    constructor
    · rintro ⟨named, java⟩
      exact ⟨found.spelling, named, if_pos java⟩
    · rintro ⟨value, named, java⟩
      split at java <;> cases java
      exact ⟨named, ‹_›⟩
  · rw [Option.bind_eq_some_iff]
    simp only [onSearchPath_iff, homeOf_iff]

end Toolchain
end KotlinCompile
