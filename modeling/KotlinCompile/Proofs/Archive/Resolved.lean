import KotlinCompile.Classpath
import KotlinCompile.Proofs.Archive.Located
import KotlinCompile.Proofs.Machine.Here
import Mathlib.Logic.ExistsUnique

/-! What becomes of each archive when the archives of a compilation are resolved. It depends on the
selection of that archive alone, and on what the host and a JDK have to offer for it. One that a JDK
brings along is found at a path that is absolute only if the JDK's is. -/
namespace KotlinCompile.ResolvedArchives

/-- How an archive is to be obtained, by the selection under its own name. -/
inductive Selected (selections : ArchiveSelections) : Archive → ArchiveSelection → Prop where
  | stdlib : Selected selections .stdlib selections.stdlib
  | stdlibCommon : Selected selections .stdlibCommon selections.stdlibCommon
  | stdlibJdk : Selected selections .stdlibJdk selections.stdlibJdk
  | reflect : Selected selections .reflect selections.reflect
  | scriptRuntime : Selected selections .scriptRuntime selections.scriptRuntime
  | kapt : Selected selections .kapt selections.kapt
  | tools : Selected selections .tools selections.tools

/-- What may become of an archive. -/
inductive Standing where
  | skipped
  | found (place : Path)
  | missing

section Standing
variable (machine : Machine) (host : List Path) (jdkHome : Option Path)

/-- A JDK that has an archive of its own, and where. -/
inductive Brings : Archive → Path → Prop where
  | tools {home : Path} (given : jdkHome = some home)
      (there : machine.isFile ((home.child "lib").child "tools.jar") = true) :
      Brings .tools ((home.child "lib").child "tools.jar")

/-- What becomes of an archive that is to be obtained in a certain way. -/
inductive Stands (archive : Archive) : ArchiveSelection → Standing → Prop where
  | skipped : Stands archive .skip .skipped
  | given (path : Path) : Stands archive (.use path) (.found (machine.absolute path))
  | onHost {place : Path} (first : archive.FirstNamed host place) :
      Stands archive .discover (.found place)
  | inJdk {place : Path} (unnamed : ∀ entry ∈ host, ¬archive.Names entry)
      (brought : Brings machine jdkHome archive place) : Stands archive .discover (.found place)
  | nowhere (unnamed : ∀ entry ∈ host, ¬archive.Names entry)
      (lacking : ∀ place, ¬Brings machine jdkHome archive place) : Stands archive .discover .missing

end Standing

variable {machine : Machine} {selections : ArchiveSelections} {host : List Path}
  {jdkHome : Option Path} {archive : Archive}

theorem fallback_eq_some {place : Path} :
    place?.fallback? machine archive jdkHome = some place ↔
      Brings machine jdkHome archive place := by
  constructor
  · intro back
    unfold place?.fallback? at back
    split at back
    · dsimp only at back
      split at back
      · next there =>
        cases back
        exact .tools rfl there
      · cases back
    · cases back
  · rintro ⟨rfl, there⟩
    simp [place?.fallback?, there]

theorem fallback_eq_none :
    place?.fallback? machine archive jdkHome = none ↔
      ∀ place, ¬Brings machine jdkHome archive place := by
  simp [Option.eq_none_iff_forall_ne_some, fallback_eq_some]

theorem stands_found {place : Path} :
    Stands machine host jdkHome archive .discover (.found place) ↔
      (archive.locate host).or (place?.fallback? machine archive jdkHome) = some place := by
  simp only [Option.or_eq_some_iff, Archive.locate_eq_some, Archive.locate_eq_none,
    fallback_eq_some]
  constructor
  · intro stands
    cases stands with
    | onHost first => exact Or.inl first
    | inJdk unnamed brought => exact Or.inr ⟨unnamed, brought⟩
  · rintro (first | ⟨unnamed, brought⟩)
    · exact .onHost first
    · exact .inJdk unnamed brought

theorem stands_missing :
    Stands machine host jdkHome archive .discover .missing ↔
      (archive.locate host).or (place?.fallback? machine archive jdkHome) = none := by
  simp only [Option.or_eq_none_iff, Archive.locate_eq_none, fallback_eq_none]
  constructor
  · intro stands
    cases stands with
    | nowhere unnamed lacking => exact ⟨unnamed, lacking⟩
  · rintro ⟨unnamed, lacking⟩
    exact .nowhere unnamed lacking

/-- Whatever its selection is, just one thing becomes of an archive. -/
theorem stands_unique (archive : Archive) (selection : ArchiveSelection) :
    ∃! standing, Stands machine host jdkHome archive selection standing := by
  cases selection with
  | skip =>
    refine ⟨.skipped, .skipped, ?_⟩
    rintro _ ⟨⟩
    rfl
  | use path =>
    refine ⟨_, .given path, ?_⟩
    rintro _ ⟨⟩
    rfl
  | discover =>
    cases discovered : (archive.locate host).or (place?.fallback? machine archive jdkHome) with
    | some place =>
      refine ⟨.found place, stands_found.mpr discovered, ?_⟩
      intro standing stands
      cases standing with
      | skipped => cases stands
      | found other => simpa [discovered] using (stands_found.mp stands).symm
      | missing =>
        have nowhere := stands_missing.mp stands
        simp [discovered] at nowhere
    | none =>
      refine ⟨.missing, stands_missing.mpr discovered, ?_⟩
      intro standing stands
      cases standing with
      | skipped => cases stands
      | found other =>
        have somewhere := stands_found.mp stands
        simp [discovered] at somewhere
      | missing => rfl

theorem found_iff {place : Path} :
    (resolve machine selections (·.locate host) jdkHome).found archive = some place ↔
      Stands machine host jdkHome archive (selections.of archive) (.found place) := by
  simp only [resolve, place?]
  cases selections.of archive with
  | skip => exact ⟨nofun, nofun⟩
  | use path =>
    constructor
    · rintro ⟨⟩
      exact .given path
    · rintro ⟨⟩
      rfl
  | discover => exact stands_found.symm

theorem missing_iff :
    archive ∈ (resolve machine selections (·.locate host) jdkHome).missing ↔
      Stands machine host jdkHome archive (selections.of archive) .missing := by
  simp only [resolve, List.mem_filter, Archive.mem_all, true_and, place?]
  cases selections.of archive with
  | skip => exact ⟨by simp, nofun⟩
  | use path => exact ⟨by simp, nofun⟩
  | discover => simp [stands_missing]

theorem selected_iff {selection : ArchiveSelection} :
    Selected selections archive selection ↔ selections.of archive = selection := by
  constructor
  · rintro ⟨⟩ <;> rfl
  · rintro rfl
    cases archive <;> constructor

/-- An archive is skipped, found or missing by the selection of its own, whatever the others are: a
skipped one is neither found nor missing, a given one is found at its absolute path, and one to be
discovered is found at the first path of the host that is named like it, or else in the JDK, or else
it is missing. The missing ones are listed in the order of the catalog, and so are the found ones
that belong on the classpath. -/
theorem resolve_exact (machine : Machine) (selections : ArchiveSelections) (host : List Path)
    (jdkHome : Option Path) :
    let archives := resolve machine selections ((Resolver.fixed host).locating machine).1 jdkHome
    let StandsAs (archive : Archive) (standing : Standing) := ∃ selection,
      Selected selections archive selection ∧ Stands machine host jdkHome archive selection standing
    (∀ archive, ∃! standing, StandsAs archive standing) ∧
    (∀ archive place, archives.found archive = some place ↔ StandsAs archive (.found place)) ∧
    (∀ archive, archive ∈ archives.missing ↔ StandsAs archive .missing) ∧
    (∀ others archive selection, Selected selections archive selection →
      Selected others archive selection →
      let instead := resolve machine others ((Resolver.fixed host).locating machine).1 jdkHome
      instead.found archive = archives.found archive ∧
        (archive ∈ instead.missing ↔ archive ∈ archives.missing)) ∧
    archives.missing.Sublist Archive.all ∧ archives.missing.Nodup ∧
    archives.classpath =
      [.stdlib, .stdlibCommon, .stdlibJdk, .reflect, .scriptRuntime].filterMap archives.found := by
  intro archives StandsAs
  have stands (archive : Archive) (standing : Standing) : StandsAs archive standing ↔
      Stands machine host jdkHome archive (selections.of archive) standing := by
    simp [StandsAs, selected_iff]
  have inOrder : archives.missing.Sublist Archive.all := List.filter_sublist
  have distinct : Archive.all.Nodup := by decide
  simp only [stands]
  refine ⟨?_, fun _ _ => found_iff, fun _ => missing_iff, ?_, inOrder, distinct.sublist inOrder, rfl⟩
  · intro archive
    exact stands_unique archive _
  · intro others archive selection own same
    have alike : others.of archive = selections.of archive :=
      (selected_iff.mp same).trans (selected_iff.mp own).symm
    constructor
    · apply Option.ext
      intro place
      have theirs : (resolve machine others (·.locate host) jdkHome).found archive = some place ↔
          Stands machine host jdkHome archive (others.of archive) (.found place) := found_iff
      exact theirs.trans (alike ▸ found_iff.symm)
    · have theirs : archive ∈ (resolve machine others (·.locate host) jdkHome).missing ↔
          Stands machine host jdkHome archive (others.of archive) .missing := missing_iff
      exact theirs.trans (alike ▸ missing_iff.symm)

end KotlinCompile.ResolvedArchives

namespace KotlinCompile

theorem Machine.isAbsolute_currentDirectory (machine : Machine) :
    machine.currentDirectory.isAbsolute = true := by
  unfold Path.isAbsolute Machine.currentDirectory
  rw [pathOf_spelling]
  rfl

theorem Machine.isAbsolute_absolute (machine : Machine) (path : Path) :
    (machine.absolute path).isAbsolute = true :=
  Path.absoluteFrom_isAbsolute machine.isAbsolute_currentDirectory path

theorem Path.isAbsolute_child {name : Bytes} (relative : (⟨name⟩ : Path).isAbsolute = false)
    (base : Path) : (base.child name).isAbsolute = base.isAbsolute :=
  isAbsolute_join relative

theorem Classpath.isAbsolute_of_mem_absoluteDistinct {machine : Machine} {paths : List Path}
    {entry : Path} (member : entry ∈ absoluteDistinct machine.currentDirectory paths) :
    entry.isAbsolute = true := by
  rw [absoluteDistinct, Path.distinct_eq_firsts] at member
  obtain ⟨path, _, rfl⟩ := List.mem_map.mp (Occurrences.mem_of_mem_firsts member)
  exact machine.isAbsolute_absolute path

namespace Resolver

/-- A host classpath as it is made, from paths of any kind, and as it is left by being asked. -/
inductive Made : Resolver → Prop where
  | fixed (machine : Machine) (paths : List Path) : Made (ofEntries machine paths)
  | host (home : Option Path) : Made (.host { home })
  | asked {resolver : Resolver} (made : Made resolver) (machine : Machine) :
      Made (resolver.entries machine).2

/-- A host classpath that holds absolute paths only, as far as it holds any. -/
inductive Rooted : Resolver → Prop where
  | fixed {entries : List Path} (absolute : ∀ entry ∈ entries, entry.isAbsolute = true) :
      Rooted (.fixed entries)
  | unasked (home : Option Path) : Rooted (.host ⟨home, none⟩)
  | asked (home : Option Path) {entries : List Path}
      (absolute : ∀ entry ∈ entries, entry.isAbsolute = true) : Rooted (.host ⟨home, some entries⟩)

-- Asking is all that can happen to a host classpath.
theorem Rooted.entries {resolver : Resolver} (rooted : Rooted resolver) (machine : Machine) :
    (∀ entry ∈ (resolver.entries machine).1, entry.isAbsolute = true) ∧
      Rooted (resolver.entries machine).2 := by
  cases rooted with
  | fixed absolute => exact ⟨absolute, .fixed absolute⟩
  | unasked home =>
    have absolute : ∀ entry ∈ ({ home } : HostClasspath).enumerate machine,
        entry.isAbsolute = true :=
      fun _ member => Classpath.isAbsolute_of_mem_absoluteDistinct member
    exact ⟨absolute, .asked home absolute⟩
  | asked home absolute => exact ⟨absolute, .asked home absolute⟩

/-- It locates archives among its own entries. -/
theorem Rooted.locating {resolver : Resolver} (rooted : Rooted resolver) (machine : Machine) :
    (resolver.locating machine).1 = fun archive => archive.locate (resolver.entries machine).1 := by
  cases rooted <;> rfl

theorem Made.rooted {resolver : Resolver} (made : Made resolver) : Rooted resolver := by
  induction made with
  | fixed machine paths => exact .fixed fun _ => Classpath.isAbsolute_of_mem_absoluteDistinct
  | host home => exact .unasked home
  | asked _ machine ih => exact (ih.entries machine).2

end Resolver

namespace ResolvedArchives
variable {machine : Machine} {host : List Path} {jdkHome : Option Path}

theorem isAbsolute_of_brings {archive : Archive} {place : Path}
    (brings : Brings machine jdkHome archive place) :
    ∃ home, jdkHome = some home ∧ place.isAbsolute = home.isAbsolute := by
  cases brings with
  | @tools home given _ =>
    refine ⟨home, given, ?_⟩
    rw [Path.isAbsolute_child (by decide), Path.isAbsolute_child (by decide)]

/-- An archive is found at a relative path exactly if it is to be discovered, but not on the host,
and the JDK that brings it along is named by a relative path. -/
theorem relative_iff (absolute : ∀ entry ∈ host, entry.isAbsolute = true) {archive : Archive}
    {selection : ArchiveSelection} {place : Path}
    (stands : Stands machine host jdkHome archive selection (.found place)) :
    place.isAbsolute = false ↔ selection = .discover ∧ (∀ entry ∈ host, ¬archive.Names entry) ∧
      Brings machine jdkHome archive place ∧
        ∃ home, jdkHome = some home ∧ home.isAbsolute = false := by
  cases stands with
  | given path =>
    rw [machine.isAbsolute_absolute]
    exact ⟨nofun, nofun⟩
  | onHost first =>
    obtain ⟨named, front, back, rfl, _⟩ := first
    have inside : place ∈ front ++ place :: back := by simp
    rw [absolute place inside]
    exact ⟨nofun, fun ⟨_, unnamed, _⟩ => absurd named (unnamed place inside)⟩
  | inJdk unnamed brought =>
    obtain ⟨home, given, same⟩ := isAbsolute_of_brings brought
    rw [same]
    constructor
    · exact fun relative => ⟨rfl, unnamed, brought, home, given, relative⟩
    · rintro ⟨_, _, _, other, given', relative⟩
      cases given.symm.trans given'
      exact relative

/-- Whatever was selected, and whichever host classpath is searched, an archive is found at an
absolute path but for one case: the tools, where they are to be discovered, are not on the host, and
are in a JDK that is named by a relative path. So all paths are absolute exactly if that is not the
case, and those on the classpath always are. -/
theorem absolute_iff {resolver : Resolver} (made : resolver.Made) (machine : Machine)
    (selections : ArchiveSelections) (jdkHome : Option Path) :
    let host := (resolver.entries machine).1
    let archives := resolve machine selections (resolver.locating machine).1 jdkHome
    (∀ archive place, archives.found archive = some place → (place.isAbsolute = false ↔
      Selected selections archive .discover ∧ (∀ entry ∈ host, ¬archive.Names entry) ∧
        Brings machine jdkHome archive place ∧
          ∃ home, jdkHome = some home ∧ home.isAbsolute = false)) ∧
    (∀ place ∈ archives.classpath, place.isAbsolute = true) ∧
    ((∀ archive place, archives.found archive = some place → place.isAbsolute = true) ↔
      ¬(Selected selections .tools .discover ∧ (∀ entry ∈ host, ¬Archive.tools.Names entry) ∧
        ∃ home, jdkHome = some home ∧ home.isAbsolute = false ∧
          machine.isFile ((home.child "lib").child "tools.jar") = true)) := by
  intro host archives
  have absolute : ∀ entry ∈ host, entry.isAbsolute = true := (made.rooted.entries machine).1
  have searched : archives = resolve machine selections (·.locate host) jdkHome :=
    congrArg (resolve machine selections · jdkHome) (made.rooted.locating machine)
  have foundIff {archive : Archive} {place : Path} : archives.found archive = some place ↔
      Stands machine host jdkHome archive (selections.of archive) (.found place) := by
    rw [searched, found_iff]
  have relative {archive : Archive} {place : Path} (found : archives.found archive = some place) :=
    relative_iff absolute (foundIff.mp found)
  simp only [selected_iff]
  refine ⟨fun archive place found => relative found, ?_, ?_⟩
  · intro place member
    obtain ⟨archive, listed, found⟩ := List.mem_filterMap.mp member
    cases spelled : place.isAbsolute with
    | true => rfl
    | false =>
      obtain ⟨_, _, brought, _⟩ := (relative found).mp spelled
      cases brought
      exact absurd (List.mem_filter.mp listed).2 (by decide)
  · constructor
    · rintro all ⟨discover, unnamed, home, given, within, there⟩
      have brought : Brings machine jdkHome .tools ((home.child "lib").child "tools.jar") :=
        .tools given there
      have stands : Stands machine host jdkHome .tools (selections.of .tools)
          (.found ((home.child "lib").child "tools.jar")) := by
        rw [discover]
        exact .inJdk unnamed brought
      have found := foundIff.mpr stands
      have outside := (relative found).mpr ⟨discover, unnamed, brought, home, given, within⟩
      rw [all _ _ found] at outside
      cases outside
    · intro excluded archive place found
      cases spelled : place.isAbsolute with
      | true => rfl
      | false =>
        obtain ⟨discover, unnamed, ⟨given, there⟩, _, given', within⟩ := (relative found).mp spelled
        cases given.symm.trans given'
        exact absurd ⟨discover, unnamed, _, given, within, there⟩ excluded

/-- A machine with a JDK of its own below its current directory. -/
def jdkBelow : Machine where
  tree := ⟨[(["work"], .directory), (["work", "jdk"], .directory),
    (["work", "jdk", "lib"], .directory),
    (["work", "jdk", "lib", "tools.jar"], .file (.bytes []) false)]⟩
  here := ["work"]
  environment := []

/-- The JDK is named by its absolute path, and an archive by a relative one. -/
theorem absolute_jdk_archives :
    let selections : ArchiveSelections := { kapt := .use ⟨"kapt.jar"⟩ }
    let archives := resolve jdkBelow selections
      ((Resolver.ofEntries jdkBelow [⟨"s.jar"⟩]).locating jdkBelow).1 (some ⟨"/work/jdk"⟩)
    (Resolver.ofEntries jdkBelow [⟨"s.jar"⟩]).Made ∧
    archives.found .kapt = some ⟨"/work/kapt.jar"⟩ ∧
    archives.found .tools = some ⟨"/work/jdk/lib/tools.jar"⟩ ∧
    ∀ archive place, archives.found archive = some place → place.isAbsolute = true := by
  intro selections archives
  have made : (Resolver.ofEntries jdkBelow [⟨"s.jar"⟩]).Made := .fixed jdkBelow _
  refine ⟨made, by decide +kernel, by decide +kernel, ?_⟩
  refine (absolute_iff made jdkBelow selections (some ⟨"/work/jdk"⟩)).2.2.mpr ?_
  rintro ⟨_, _, _, ⟨⟩, relative, _⟩
  exact absurd relative (by decide)

/-- From the current directory, the same JDK brings its archive along at a relative path. -/
theorem relative_jdk_archive :
    jdkBelow.currentDirectory.isAbsolute = true ∧
    (Resolver.ofEntries jdkBelow []).Made ∧
    (resolve jdkBelow {} ((Resolver.ofEntries jdkBelow []).locating jdkBelow).1 (some ⟨"jdk"⟩)).found
      .tools = some ⟨"jdk/lib/tools.jar"⟩ ∧
    (⟨"jdk/lib/tools.jar"⟩ : Path).isAbsolute = false :=
  ⟨jdkBelow.isAbsolute_currentDirectory, .fixed jdkBelow [], by decide +kernel, by decide⟩

end ResolvedArchives
end KotlinCompile
