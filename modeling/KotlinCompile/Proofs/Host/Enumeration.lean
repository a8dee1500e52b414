import KotlinCompile.Classpath
import KotlinCompile.Proofs.Classpath
import KotlinCompile.Proofs.Listing
import KotlinCompile.Proofs.Machine.WellFormed
import KotlinCompile.Proofs.Toolchain

/-! What a host classpath sees when it is asked for the first time: the entries of two variables,
and behind them the archives of the Kotlin home. What is not there is left out, the rest is made
absolute, and of the mentions of one place the first stays. -/
namespace KotlinCompile

theorem Path.extension_eq_some {path : Path} {name extension : Bytes}
    (named : path.fileName? = some name) : path.extension? = some extension ↔
      Byte.dot ∉ extension ∧ ∃ stem, stem ≠ [] ∧ name = stem ++ Byte.dot :: extension := by
  simp only [extension?, named, Option.bind_eq_bind, Option.bind_some]
  constructor
  · intro read
    split at read
    · cases read
    · next after before filled cut =>
      cases read
      obtain ⟨plain, whole⟩ := Text.cutAt_eq_some.mp cut
      have spelled : name = before.reverse ++ Byte.dot :: after.reverse := by
        simpa using congrArg List.reverse whole
      exact ⟨by simpa using plain, before.reverse, by simpa using filled, spelled⟩
    · cases read
  · rintro ⟨plain, stem, filled, rfl⟩
    have cut : Text.cutAt? Byte.dot (stem ++ Byte.dot :: extension).reverse =
        some (extension.reverse, stem.reverse) :=
      Text.cutAt_eq_some.mpr ⟨by simpa using plain, by simp⟩
    rw [cut]
    split
    · next empty => simp_all
    · next same =>
      cases same
      simp
    · next none => cases none

namespace Classpath

theorem split_ne_nil (value : Bytes) : split value ≠ [] := by
  simp [split, Text.pieces_ne_nil]

theorem split_plain (value : Bytes) : ∀ path ∈ split value, separator ∉ path.spelling := by
  intro path member
  obtain ⟨piece, inside, rfl⟩ := List.mem_map.mp member
  exact Text.not_mem_of_mem_pieces inside

theorem joined_split (value : Bytes) :
    [separator].intercalate ((split value).map (·.spelling)) = value := by
  have spelled : (split value).map (·.spelling) = Text.pieces separator value := by
    rw [split, List.map_map]
    exact List.map_id'' (fun _ => rfl) _
  rw [spelled, Text.pieces_eq_splitOn]
  exact List.intercalate_splitOn separator

end Classpath

namespace HostClasspath
variable {machine other : Machine} {directory : Path} {order : Location → List Bytes}

/-- What a variable names: what stands between its colons, unless it is empty. -/
inductive NamedBy : Option Bytes → List Path → Prop where
  | unset : NamedBy none []
  | set {paths : List Path} (nonempty : paths ≠ [])
      (plain : ∀ path ∈ paths, Byte.colon ∉ path.spelling) :
      NamedBy (some ([Byte.colon].intercalate (paths.map (·.spelling))))
        (paths.filter fun path => path.spelling != [])

theorem namedBy_iff {name : String} {entries : List Path} :
    NamedBy (machine.valueOf? name) entries ↔ entriesOf machine name = entries := by
  unfold entriesOf
  constructor
  · intro named
    cases value : machine.valueOf? name with
    | none =>
      rw [value] at named
      cases named
      rfl
    | some spelling =>
      rw [value] at named
      cases named with
      | set nonempty plain =>
        have read := (Path.pieces_joined_iff Byte.colon nonempty).mpr plain
        exact congrArg (List.filter _) read
  · rintro rfl
    cases machine.valueOf? name with
    | none => exact .unset
    | some value =>
      have named := NamedBy.set (Classpath.split_ne_nil value) (Classpath.split_plain value)
      have whole : [Byte.colon].intercalate ((Classpath.split value).map (·.spelling)) = value :=
        Classpath.joined_split value
      rw [whole] at named
      exact named

/-- A name with a stem and, in any letter case, the extension of an archive. -/
def IsJarName (name : Bytes) : Prop :=
  ∃ (stem : Bytes) (extension : String), stem ≠ [] ∧ extension.toLower = "jar" ∧
    name = stem ++ Byte.dot :: Text.utf8 extension

theorem isJar_child_iff {name : Bytes} (isName : IsName name) (base : Path) :
    isJar (base.child name) = true ↔ IsJarName name := by
  have named : (base.child name).fileName? = some name := by
    unfold Path.fileName?
    rw [Path.components_child isName.components, List.getLast?_concat]
  simp only [isJar, Option.any_eq_true, Option.bind_eq_some_iff, Text.strict_eq_some]
  constructor
  · rintro ⟨extension, ⟨_, found, rfl⟩, jar⟩
    obtain ⟨_, stem, filled, whole⟩ := (Path.extension_eq_some named).mp found
    exact ⟨stem, extension, filled, beq_iff_eq.mp jar, whole⟩
  · rintro ⟨stem, extension, filled, jar, whole⟩
    have plain : Byte.dot ∉ Text.utf8 extension := by
      intro found
      have dot : '.' ∈ extension.toList :=
        (Text.mem_utf8_iff (by decide) (by decide) extension).mp found
      have inside : '.'.toLower ∈ extension.toLower.toList := by
        show '.'.toLower ∈ (extension.map Char.toLower).toList
        rw [String.toList_map]
        exact List.mem_map_of_mem dot
      rw [jar] at inside
      exact absurd inside (by decide)
    have found := (Path.extension_eq_some named).mpr ⟨plain, stem, filled, whole⟩
    exact ⟨extension, ⟨_, found, rfl⟩, beq_iff_eq.mpr jar⟩

/-- The archives of a directory in path order. -/
structure Archives (machine : Machine) (directory : Path) (archives : List Path) : Prop where
  ascending : Path.Ascending archives
  mem_iff : ∀ path, path ∈ archives ↔ ∃ place name,
    machine.status directory = .ok (place, .directory) ∧
    (∃ node, machine.tree.node? (place ++ [name]) = some node) ∧
    IsJarName name ∧ path = directory.child name

theorem archives_of_directory (wellFormed : machine.tree.WellFormed) {place : Location}
    (there : machine.status directory = .ok (place, .directory)) :
    Archives machine directory (archivesIn machine directory) := by
  have named {name : Bytes} (member : name ∈ machine.tree.namesIn place) : IsName name :=
    wellFormed.isName_of_mem_namesIn member
  have listed : (machine.list directory).toOption.getD [] =
      (machine.tree.namesIn place).map directory.child := by
    rw [Machine.list_of_status there]
    rfl
  rw [archivesIn, listed]
  constructor
  · apply Path.ascending_sorted
    apply List.Pairwise.filter
    apply List.pairwise_map.mpr
    apply (wellFormed.nodup_namesIn place).imp_of_mem
    intro first second left right differ same
    apply differ
    rw [Path.components_child (named left).components,
      Path.components_child (named right).components] at same
    simpa using same
  · intro path
    rw [Path.mem_sorted, List.mem_filter]
    constructor
    · rintro ⟨member, jar⟩
      obtain ⟨name, inside, rfl⟩ := List.mem_map.mp member
      exact ⟨place, name, there, (wellFormed.mem_namesIn place name).mp inside,
        (isJar_child_iff (named inside) directory).mp jar, rfl⟩
    · rintro ⟨_, name, again, found, jar, rfl⟩
      cases there.symm.trans again
      have inside := (wellFormed.mem_namesIn place name).mpr found
      exact ⟨List.mem_map.mpr ⟨name, inside, rfl⟩,
        (isJar_child_iff (named inside) directory).mpr jar⟩

theorem archives_of_missing (missing : machine.isDirectory directory = false) :
    Archives machine directory (archivesIn machine directory) := by
  have elsewhere (place : Location) : machine.status directory ≠ .ok (place, .directory) := by
    intro there
    rw [Machine.isDirectory_iff.mpr ⟨place, there⟩] at missing
    cases missing
  have nothing : (machine.list directory).toOption.getD [] = [] := by
    unfold Machine.list
    cases found : machine.status directory with
    | error => rfl
    | ok entry =>
      obtain ⟨place, node⟩ := entry
      cases node with
      | directory => exact absurd found (elsewhere place)
      | file => rfl
      | link => rfl
      | socket => rfl
  rw [archivesIn, nothing]
  constructor
  · exact Path.ascending_sorted .nil
  · intro path
    rw [Path.mem_sorted]
    constructor
    · nofun
    · rintro ⟨place, _, there, _⟩
      exact absurd there (elsewhere place)

theorem archives_archivesIn (wellFormed : machine.tree.WellFormed) :
    Archives machine directory (archivesIn machine directory) := by
  cases found : machine.isDirectory directory with
  | false => exact archives_of_missing found
  | true =>
    obtain ⟨place, there⟩ := Machine.isDirectory_iff.mp found
    exact archives_of_directory wellFormed there

theorem archives_iff (wellFormed : machine.tree.WellFormed) {archives : List Path} :
    Archives machine directory archives ↔ archivesIn machine directory = archives := by
  have found : Archives machine directory (archivesIn machine directory) :=
    archives_archivesIn wellFormed
  constructor
  · intro given
    apply found.ascending.eq_of_mem_iff given.ascending
    intro path
    rw [found.mem_iff, given.mem_iff]
  · rintro rfl
    exact found

/-- What is left of some paths if each is dropped that was mentioned before, by a path with the same
components: an earlier one of them, or one that came before all of them. -/
inductive Kept : List Path → List Path → List Path → Prop where
  | done {before : List Path} : Kept before [] []
  | first {before rest kept : List Path} {path : Path}
      (new : path.components ∉ before.map (·.components))
      (later : Kept (before ++ [path]) rest kept) : Kept before (path :: rest) (path :: kept)
  | again {before rest kept : List Path} {path : Path}
      (mentioned : path.components ∈ before.map (·.components))
      (later : Kept (before ++ [path]) rest kept) : Kept before (path :: rest) kept

/-- The distinct paths among some that were not mentioned before. -/
def unmentioned (before paths : List Path) : List Path :=
  (Path.distinct paths).filter fun path => path.components ∉ before.map (·.components)

theorem unmentioned_nil (paths : List Path) : unmentioned [] paths = Path.distinct paths :=
  List.filter_eq_self.mpr (by simp)

theorem unmentioned_cons (before rest : List Path) (path : Path) :
    unmentioned before (path :: rest) =
      if path.components ∈ before.map (·.components) then unmentioned (before ++ [path]) rest
      else path :: unmentioned (before ++ [path]) rest := by
  have others : ((Path.distinct rest).filter fun other => !other.same path).filter
      (fun other => other.components ∉ before.map (·.components)) =
        unmentioned (before ++ [path]) rest := by
    rw [List.filter_filter]
    apply List.filter_congr
    intro other _
    by_cases same : other.components = path.components <;> simp [Path.same, same]
  unfold unmentioned at others ⊢
  rw [Path.distinct, List.filter_cons, others]
  by_cases mentioned : path.components ∈ before.map (·.components) <;> simp [mentioned]

-- Of two lists, the second is left what neither came before nor is in the first.
theorem unmentioned_append (before first second : List Path) :
    unmentioned before (first ++ second) =
      unmentioned before first ++ unmentioned (before ++ first) second := by
  induction first generalizing before with
  | nil => simp [unmentioned, Path.distinct]
  | cons path rest ih =>
    rw [List.cons_append, unmentioned_cons, unmentioned_cons, ih, List.append_assoc,
      List.singleton_append]
    split <;> rfl

theorem kept_iff {before paths kept : List Path} :
    Kept before paths kept ↔ unmentioned before paths = kept := by
  constructor
  · intro keeps
    induction keeps with
    | done => rfl
    | first new _ ih => rw [unmentioned_cons, if_neg new, ih]
    | again mentioned _ ih => rw [unmentioned_cons, if_pos mentioned, ih]
  · rintro rfl
    induction paths generalizing before with
    | nil => exact .done
    | cons path rest ih =>
      rw [unmentioned_cons]
      split
      · next mentioned => exact .again mentioned ih
      · next new => exact .first new ih

/-- What a machine offers to a host classpath with a given Kotlin home. -/
def Offers (machine : Machine) (home : Path) (entries : List Path) : Prop :=
  ∃ own inherited archives, NamedBy (machine.valueOf? "CLASSPATH") own ∧
    NamedBy (machine.valueOf? "KCT_HOST_CLASSPATH") inherited ∧
    Archives machine (home.child "lib") archives ∧
    Kept [] (((own ++ inherited ++ archives).filter machine.isThere).map machine.absolute) entries

theorem flatMap_variableNames : variableNames.flatMap (entriesOf machine) =
    entriesOf machine "CLASSPATH" ++ entriesOf machine "KCT_HOST_CLASSPATH" := by
  simp [variableNames]

theorem offers_iff (wellFormed : machine.tree.WellFormed) {home : Path} {entries : List Path} :
    Offers machine home entries ↔
      (({ home := some home } : HostClasspath).entries machine).1 = entries := by
  have all : (({ home := some home } : HostClasspath).entries machine).1 = unmentioned []
      (((entriesOf machine "CLASSPATH" ++ entriesOf machine "KCT_HOST_CLASSPATH" ++
        archivesIn machine (home.child "lib")).filter machine.isThere).map machine.absolute) := by
    rw [unmentioned_nil, ← flatMap_variableNames]
    rfl
  rw [all]
  constructor
  · rintro ⟨own, inherited, archives, first, second, third, kept⟩
    rw [namedBy_iff.mp first, namedBy_iff.mp second, (archives_iff wellFormed).mp third]
    exact kept_iff.mp kept
  · intro kept
    exact ⟨_, _, _, namedBy_iff.mpr rfl, namedBy_iff.mpr rfl, archives_archivesIn wellFormed,
      kept_iff.mpr kept⟩

/-- The Kotlin home that a host classpath goes by: the one it is given, or else that of the
distribution which is discovered. -/
def GoesBy (machine : Machine) (given : Option Path) : Path → Prop :=
  OrElse (given = some ·) fun home => ∃ launcher,
    Toolchain.Finds machine launcher ∧ Toolchain.HomeOf machine launcher home

theorem goesBy_iff (host : HostClasspath) {home : Path} :
    GoesBy machine host.home home ↔ host.homeOn machine = some home := by
  refine orElse_iff (fun _ => Iff.rfl) fun found => ?_
  rw [Option.map_eq_some_iff]
  constructor
  · rintro ⟨launcher, finds, above⟩
    have discovered : Toolchain.discover machine = .ok ⟨launcher, found⟩ :=
      Toolchain.discover_exact.mpr ⟨finds, above⟩
    exact ⟨⟨launcher, found⟩, by rw [discovered]; rfl, rfl⟩
  · rintro ⟨toolchain, discovered, rfl⟩
    exact ⟨toolchain.launcher,
      Toolchain.discover_exact.mp (Fallible.toOption_eq_some.mp discovered)⟩

/-- What a machine offers to a host classpath, be it given a Kotlin home or not. Where none is given
and none is discovered it offers what the variables name. -/
inductive OffersTo (machine : Machine) (given : Option Path) (entries : List Path) : Prop where
  | home {home : Path} (goes : GoesBy machine given home) (offers : Offers machine home entries)
  | homeless {own inherited : List Path} (none : ∀ home, ¬GoesBy machine given home)
      (first : NamedBy (machine.valueOf? "CLASSPATH") own)
      (second : NamedBy (machine.valueOf? "KCT_HOST_CLASSPATH") inherited)
      (kept : Kept [] (((own ++ inherited).filter machine.isThere).map machine.absolute) entries)

theorem offersTo_iff (wellFormed : machine.tree.WellFormed) {given : Option Path}
    {entries : List Path} : OffersTo machine given entries ↔
      ({ home := given } : HostClasspath).enumerate machine = entries := by
  let host : HostClasspath := { home := given }
  have goes {home : Path} : GoesBy machine given home ↔ host.homeOn machine = some home :=
    goesBy_iff host
  cases gone : host.homeOn machine with
  | some home =>
    have same : host.enumerate machine =
        (({ home := some home } : HostClasspath).entries machine).1 := by
      rw [enumerate, gone]
      rfl
    rw [same, ← offers_iff wellFormed]
    constructor
    · rintro (⟨follows, offers⟩ | ⟨none, _, _, _⟩)
      · rw [goes, gone] at follows
        cases follows
        exact offers
      · exact absurd (goes.mpr gone) (none home)
    · exact .home (goes.mpr gone)
  | none =>
    have all : host.enumerate machine = unmentioned []
        (((entriesOf machine "CLASSPATH" ++ entriesOf machine "KCT_HOST_CLASSPATH").filter
          machine.isThere).map machine.absolute) := by
      rw [enumerate, gone, unmentioned_nil, ← flatMap_variableNames, Option.elim_none,
        List.append_nil]
      rfl
    rw [all]
    constructor
    · rintro (⟨follows, _⟩ | ⟨_, first, second, kept⟩)
      · rw [goes, gone] at follows
        cases follows
      · rw [namedBy_iff.mp first, namedBy_iff.mp second]
        exact kept_iff.mp kept
    · intro kept
      refine .homeless (fun home found => ?_) (namedBy_iff.mpr rfl) (namedBy_iff.mpr rfl)
        (kept_iff.mpr kept)
      rw [goes, gone] at found
      cases found

theorem archives_relists (relists : machine.Relists order other) {archives : List Path} :
    Archives other directory archives ↔ Archives machine directory archives := by
  constructor
  · rintro ⟨ascending, members⟩
    exact ⟨ascending, by simpa only [relists.status, relists.nodes] using members⟩
  · rintro ⟨ascending, members⟩
    exact ⟨ascending, by simpa only [relists.status, relists.nodes] using members⟩

theorem offers_relists (relists : machine.Relists order other) {home : Path} {entries : List Path} :
    Offers other home entries ↔ Offers machine home entries := by
  have there : other.isThere = machine.isThere := funext relists.isThere
  have absolute : other.absolute = machine.absolute := by
    unfold Machine.absolute
    rw [relists.currentDirectory]
  unfold Offers
  simp only [relists.valueOf?, there, absolute, archives_relists relists]

/-- A host classpath that is given a Kotlin home, and is asked for the first time, has what the
variables name, one after the other, and behind it the archives of the home; of these only what is
there, made absolute, and of the mentions of one place the first. In which order the machine lists
its directories makes no difference. -/
theorem first_entries_offered (wellFormed : machine.tree.WellFormed) (home : Path) :
    let host : HostClasspath := { home := some home }
    (∀ entries, (host.entries machine).1 = entries ↔ Offers machine home entries) ∧
    ∀ order, (∀ directory, (order directory).Perm (machine.tree.namesIn directory)) →
      (∃ other, machine.Relists order other) ∧ ∀ other, machine.Relists order other →
        (host.entries other).1 = (host.entries machine).1 := by
  intro host
  constructor
  · intro entries
    exact (offers_iff wellFormed).symm
  · intro order permutes
    refine ⟨Machine.exists_relists wellFormed permutes, fun other relists => ?_⟩
    have offered : Offers machine home (host.entries machine).1 := (offers_iff wellFormed).mpr rfl
    exact (offers_iff relists.wellFormed).mp ((offers_relists relists).mpr offered)

/-- Two archives of a Kotlin home that are listed backwards, and a third one in the current
directory. Both variables name an archive in another spelling than it is found in otherwise. -/
def offeringMachine : Machine :=
  ⟨⟨[(["k"], .directory), (["k", "lib"], .directory),
    (["k", "lib", "c.Jar"], .file (.bytes []) false),
    (["k", "lib", "a.txt"], .file (.bytes []) false),
    (["k", "lib", "b.jar"], .file (.bytes []) false), (["w"], .directory),
    (["w", "own.jar"], .file (.bytes []) false)]⟩, ["w"],
    [("CLASSPATH", "own.jar::/gone.jar"), ("KCT_HOST_CLASSPATH", "/k/lib/./c.Jar:/w//own.jar")]⟩

theorem archives_offered_once :
    let host : HostClasspath := { home := some ⟨"/k"⟩ }
    let entries : List Path := [⟨"/w/own.jar"⟩, ⟨"/k/lib/./c.Jar"⟩, ⟨"/k/lib/b.jar"⟩]
    offeringMachine.tree.WellFormed ∧ (host.entries offeringMachine).1 = entries ∧
    ∃ other, offeringMachine.Relists offeringMachine.backwards other ∧
      (host.entries other).1 = entries := by
  intro host entries
  have wellFormed : offeringMachine.tree.WellFormed := ⟨by decide, by decide⟩
  have archives : Archives offeringMachine ⟨"/k/lib"⟩ [⟨"/k/lib/b.jar"⟩, ⟨"/k/lib/c.Jar"⟩] := by
    have listed : ((offeringMachine.list ⟨"/k/lib"⟩).toOption.getD []).filter isJar =
        [⟨"/k/lib/c.Jar"⟩, ⟨"/k/lib/b.jar"⟩] := by decide +kernel
    apply (archives_iff wellFormed).mpr
    rw [archivesIn, listed]
    apply (Path.ascending_sorted (by decide)).eq_of_mem_iff
    · unfold Path.Ascending
      decide
    · simp [Path.mem_sorted, or_comm]
  have offered : Offers offeringMachine ⟨"/k"⟩ entries :=
    ⟨[⟨"own.jar"⟩, ⟨"/gone.jar"⟩], [⟨"/k/lib/./c.Jar"⟩, ⟨"/w//own.jar"⟩], _,
      namedBy_iff.mpr (by decide), namedBy_iff.mpr (by decide), archives, kept_iff.mpr (by decide)⟩
  obtain ⟨exactly, orders⟩ := first_entries_offered wellFormed ⟨"/k"⟩
  have found := (exactly entries).mpr offered
  obtain ⟨⟨other, relists⟩, same⟩ := orders _ offeringMachine.backwards_perm
  exact ⟨wellFormed, found, other, relists, (same other relists).trans found⟩

end HostClasspath
end KotlinCompile
