import KotlinCompile.CommandLine.Compile
import KotlinCompile.Proofs.Compiler.Supplied
import KotlinCompile.Proofs.Host.Enumeration
import KotlinCompile.Proofs.Options.Load

/-! The request that a command makes: the options of its profile, with what the command line says
besides, and the texts of its sources. The paths of the profile are meant from where the profile is,
those of the command line from the current directory, and in this order they come on the classpath,
before all that the request does not name. -/
namespace KotlinCompile

namespace CompilerOptions

/-- The options without those that a command line has a say in. -/
def besides (options : CompilerOptions) : CompilerOptions :=
  { options with
    verbose := false
    jdkHome := none
    classpaths := []
    annotationProcessors := []
    processorClasspath := [] }

theorem eq_of_besides {options others : CompilerOptions}
    (verbose : options.verbose = others.verbose) (jdkHome : options.jdkHome = others.jdkHome)
    (classpaths : options.classpaths = others.classpaths)
    (processors : options.annotationProcessors = others.annotationProcessors)
    (processorClasspath : options.processorClasspath = others.processorClasspath)
    (same : options.besides = others.besides) : options = others := by
  calc options = { options.besides with
        verbose := options.verbose
        jdkHome := options.jdkHome
        classpaths := options.classpaths
        annotationProcessors := options.annotationProcessors
        processorClasspath := options.processorClasspath } := rfl
    _ = others := by
      rw [verbose, jdkHome, classpaths, processors, processorClasspath, same]
      rfl

end CompilerOptions

namespace Compilation

/-- The entries of a classpath by where they are from: the first ones, others behind them and the
rest at the end, all made absolute, and each left out if it was mentioned before. -/
def Ranked (machine : Machine) (first second third entries : List Path) : Prop :=
  ∃ front middle back, entries = front ++ middle ++ back ∧
    HostClasspath.Kept [] (first.map machine.absolute) front ∧
    HostClasspath.Kept (first.map machine.absolute) (second.map machine.absolute) middle ∧
    HostClasspath.Kept ((first ++ second).map machine.absolute) (third.map machine.absolute) back

theorem ranked_iff {machine : Machine} {first second third entries : List Path} :
    Ranked machine first second third entries ↔
      Path.distinct ((first ++ second ++ third).map machine.absolute) = entries := by
  have parts : Path.distinct ((first ++ second ++ third).map machine.absolute) =
      HostClasspath.unmentioned [] (first.map machine.absolute) ++
        HostClasspath.unmentioned (first.map machine.absolute) (second.map machine.absolute) ++
        HostClasspath.unmentioned ((first ++ second).map machine.absolute)
          (third.map machine.absolute) := by
    rw [← HostClasspath.unmentioned_nil, List.map_append, HostClasspath.unmentioned_append,
      List.map_append, HostClasspath.unmentioned_append, List.nil_append, List.nil_append]
  simp only [Ranked, HostClasspath.kept_iff]
  rw [parts]
  constructor
  · rintro ⟨_, _, _, rfl, rfl, rfl, rfl⟩
    rfl
  · rintro rfl
    exact ⟨_, _, _, rfl, rfl, rfl, rfl⟩

/-- Behind what the request names come the supporting archives and what is inherited. -/
theorem classpath_ranked {compilation : Compilation} {first second : List Path}
    (named : compilation.request.options.classpaths = first ++ second) (machine : Machine) :
    Ranked machine first second
      ((compilation.archives machine).1.classpath ++ compilation.inherited machine)
      (compilation.classpath machine).1.entries := by
  rw [ranked_iff, classpath_supplied, ← List.append_assoc, ← named]
  rfl

end Compilation

namespace CommandLine.CompileCommand
open Fallible
variable {command : CompileCommand} {machine : Machine}

/-- What the profile of a command says, and the directory that it is in. Without one there are the
defaults, which name no path. -/
inductive Profiled (machine : Machine) : Option Path → CompilerOptions → Path → Prop
  | absent {directory : Path} : Profiled machine none {} directory
  | read {profile directory : Path} {text : String} {written : CompilerOptions}
      (holds : machine.Holds profile text) (accepted : CompilerOptions.parse text = .ok written)
      (above : profile.parent? = some directory) : Profiled machine (some profile) written directory

theorem profileOptions_eq_ok {options : CompilerOptions} :
    command.profileOptions machine = .ok options ↔ ∃ written directory,
      Profiled machine command.profile written directory ∧
        written.mapPaths directory.join = options := by
  unfold profileOptions
  cases command.profile with
  | none =>
    constructor
    · rintro ⟨⟩
      exact ⟨{}, ⟨""⟩, .absent, rfl⟩
    · rintro ⟨_, _, ⟨⟩, rfl⟩
      rfl
  | some profile =>
    dsimp only
    rw [mapError_eq_ok]
    constructor
    · intro loaded
      obtain ⟨text, readable, loaded'⟩ := bind_eq_ok.mp loaded
      obtain ⟨written, accepted, _⟩ := bind_eq_ok.mp loaded'
      have read := mapError_eq_ok.mp readable
      obtain ⟨directory, above⟩ := Machine.exists_directory read
      refine ⟨written, directory, .read (Machine.readText_eq_ok.mp read) accepted above, ?_⟩
      exact Except.ok.inj ((CompilerOptions.load_eq read accepted above).symm.trans loaded)
    · rintro ⟨written, directory, ⟨⟩ | ⟨holds, accepted, above⟩, rfl⟩
      exact CompilerOptions.load_eq (Machine.readText_eq_ok.mpr holds) accepted above

/-- The options of a command with a profile in a directory: what both say is in the order of profile
and command line, the JDK is that of the command line or else of the profile or else the one that
was detected, and the rest is the profile's, unless the command is to be quiet. -/
structure Follows (command : CompileCommand) (detected : Option Path) (written : CompilerOptions)
    (directory : Path) (options : CompilerOptions) : Prop where
  classpaths : options.classpaths = written.classpaths.map directory.join ++ command.classpath
  annotationProcessors :
    options.annotationProcessors = written.annotationProcessors ++ command.processors
  processorClasspath : options.processorClasspath =
    written.processorClasspath.map directory.join ++ command.processorClasspath
  jdkHome : options.jdkHome =
    command.jdkHome.or ((written.jdkHome.map directory.join).or detected)
  verbose : options.verbose = true ↔ written.verbose = true ∧ command.quiet = false
  besides : options.besides = (written.mapPaths directory.join).besides

theorem follows_iff {detected : Option Path} {written options : CompilerOptions}
    {directory : Path} :
    command.Follows detected written directory options ↔
      command.merged detected (written.mapPaths directory.join) = options := by
  have spoken : (written.verbose && !command.quiet) = true ↔
      written.verbose = true ∧ command.quiet = false := by simp
  constructor
  · intro follows
    exact CompilerOptions.eq_of_besides
      (Bool.eq_iff_iff.mpr (spoken.trans follows.verbose.symm)) follows.jdkHome.symm
      follows.classpaths.symm follows.annotationProcessors.symm follows.processorClasspath.symm
      follows.besides.symm
  · rintro rfl
    exact ⟨rfl, rfl, rfl, rfl, spoken, rfl⟩

theorem readSource_eq (command : CompileCommand) (machine : Machine) (path : Path) :
    command.readSource machine path =
      match machine.readText (command.sourceRoot.join path) with
      | .ok contents => .ok ⟨path, contents⟩
      | .error cause => .error (.source (command.sourceRoot.join path) cause) := by
  unfold readSource
  rfl

theorem readSource_eq_ok {path : Path} {source : SourceFile} :
    command.readSource machine path = .ok source ↔ source.path = path ∧
      machine.Holds (command.sourceRoot.join path) source.contents := by
  rw [readSource_eq, ← Machine.readText_eq_ok]
  generalize machine.readText (command.sourceRoot.join path) = read
  obtain ⟨name, text⟩ := source
  cases read <;> simp [eq_comm]

theorem readSource_eq_error {path : Path} {failure : Failure} :
    command.readSource machine path = .error failure ↔
      ∃ cause, machine.readText (command.sourceRoot.join path) = .error cause ∧
        failure = .source (command.sourceRoot.join path) cause := by
  rw [readSource_eq]
  generalize machine.readText (command.sourceRoot.join path) = read
  cases read <;> simp [eq_comm]

/-- The request of a command with a profile in a directory: each source that it names has the text
that its path leads to from the source root. -/
structure Makes (command : CompileCommand) (machine : Machine) (workingDirectory : Path)
    (written : CompilerOptions) (directory : Path) (request : Request) : Prop where
  root : request.layout.root = workingDirectory
  sources : List.Forall₂
    (fun path source => source.path = path ∧
      machine.Holds (command.sourceRoot.join path) source.contents)
    command.sources request.sources
  services : request.services = []
  options : command.Follows (Toolchain.javaHome? machine) written directory request.options

/-- What a command fails with: with its profile, or else with the first of its sources that is not a
text. -/
inductive Fails (command : CompileCommand) (machine : Machine) : Failure → Prop
  | profile {profile : Path} {error : BuildError} (given : command.profile = some profile)
      (refused : CompilerOptions.load machine profile = .error error) :
      Fails command machine (.profile profile error)
  | source {written : CompilerOptions} {directory path : Path} {front back : List Path}
      {cause : Cause} (profiled : Profiled machine command.profile written directory)
      (listed : command.sources = front ++ path :: back)
      (fine : ∀ earlier ∈ front, ∃ text, machine.Holds (command.sourceRoot.join earlier) text)
      (unread : ∀ text, ¬machine.Holds (command.sourceRoot.join path) text)
      (refused : machine.readText (command.sourceRoot.join path) = .error cause) :
      Fails command machine (.source (command.sourceRoot.join path) cause)

theorem request_eq_ok {workingDirectory : Path} {request : Request} :
    command.request machine workingDirectory = .ok request ↔ ∃ written directory,
      Profiled machine command.profile written directory ∧
        command.Makes machine workingDirectory written directory request := by
  simp only [CompileCommand.request, bind_eq_ok, pure_eq_ok, mapM_eq_ok, readSource_eq_ok]
  constructor
  · rintro ⟨options, profiled, sources, each, rfl⟩
    obtain ⟨written, directory, profile, rfl⟩ := profileOptions_eq_ok.mp profiled
    exact ⟨written, directory, profile, rfl, each, rfl, follows_iff.mpr rfl⟩
  · rintro ⟨written, directory, profile, made⟩
    obtain ⟨⟨root⟩, sources, services, options⟩ := request
    refine ⟨_, profileOptions_eq_ok.mpr ⟨written, directory, profile, rfl⟩, sources,
      made.sources, ?_⟩
    rw [follows_iff.mp made.options, ← made.root, ← made.services]

theorem profileOptions_eq_error {failure : Failure} :
    command.profileOptions machine = .error failure ↔ ∃ profile error,
      command.profile = some profile ∧ CompilerOptions.load machine profile = .error error ∧
        failure = .profile profile error := by
  unfold profileOptions
  cases command.profile with
  | none => simp
  | some profile =>
    cases loaded : CompilerOptions.load machine profile <;>
      simp [loaded, Except.mapError, eq_comm]

theorem request_eq_error {workingDirectory : Path} {failure : Failure} :
    command.request machine workingDirectory = .error failure ↔ command.Fails machine failure := by
  have readable (path : Path) : (∃ source, command.readSource machine path = .ok source) ↔
      ∃ text, machine.Holds (command.sourceRoot.join path) text := by
    simp only [readSource_eq_ok]
    constructor
    · rintro ⟨source, _, holds⟩
      exact ⟨source.contents, holds⟩
    · rintro ⟨text, holds⟩
      exact ⟨⟨path, text⟩, rfl, holds⟩
  simp only [CompileCommand.request, bind_eq_error, profileOptions_eq_error, profileOptions_eq_ok,
    mapM_eq_error, readable, readSource_eq_error, pure_ne_error, and_false, exists_false, or_false]
  constructor
  · rintro (⟨profile, error, given, refused, rfl⟩ |
      ⟨_, ⟨written, directory, profiled, _⟩, front, path, back, listed, fine, cause, refused, rfl⟩)
    · exact .profile given refused
    · refine .source profiled listed fine (fun text holds => ?_) refused
      cases refused.symm.trans (Machine.readText_eq_ok.mpr holds)
  · rintro (⟨given, refused⟩ | ⟨profiled, listed, fine, _, refused⟩)
    · exact Or.inl ⟨_, _, given, refused, rfl⟩
    · exact Or.inr ⟨_, ⟨_, _, profiled, rfl⟩, _, _, _, listed, fine, _, refused, rfl⟩

/-- A command makes exactly the request that its profile and its own words come to, with the texts
of its sources, and fails with its profile or with the first source that is not a text. In whatever
compilation the request is then, the classpath begins with the entries of the profile, which are
meant from where the profile is; those of the command line follow, meant from the current directory;
and only then come the supporting and the inherited ones. -/
theorem request_exact (command : CompileCommand) (machine : Machine) (workingDirectory : Path) :
    (∀ request, command.request machine workingDirectory = .ok request ↔ ∃ written directory,
      Profiled machine command.profile written directory ∧
        command.Makes machine workingDirectory written directory request) ∧
    (∀ failure, command.request machine workingDirectory = .error failure ↔
      command.Fails machine failure) ∧
    ∀ request written directory, command.Makes machine workingDirectory written directory request →
      ∀ (compilation : Compilation) (later : Machine), compilation.request = request →
        Compilation.Ranked later (written.classpaths.map directory.join) command.classpath
          ((compilation.archives later).1.classpath ++ compilation.inherited later)
          (compilation.classpath later).1.entries := by
  refine ⟨fun _ => request_eq_ok, fun _ => request_eq_error, ?_⟩
  rintro _ written directory made compilation later rfl
  exact Compilation.classpath_ranked made.options.classpaths later

/-- A project with a profile in a directory of its own, a source in another, and one more file there
that is not a text; and a Kotlin home. -/
def project : Machine where
  tree := ⟨[(["work"], .directory), (["work", "conf"], .directory),
    (["work", "conf", "kct.toml"],
      .file (.bytes (Text.utf8 "classpaths = ['libs/base.jar', '/abs/x.jar']\n")) false),
    (["work", "src"], .directory),
    (["work", "src", "Main.kt"], .file (.bytes (Text.utf8 "fun main() \x7b\x7d\n")) false),
    (["work", "src", "Icon.kt"], .file (.bytes [0xFF]) false),
    (["k"], .directory), (["k", "lib"], .directory),
    (["k", "lib", "kotlin-stdlib.jar"], .file (.bytes []) false)]⟩
  here := ["work"]
  environment := []

/-- The command line names an archive of the profile again, in another spelling. -/
def projectCommand (sources : List Path) : CompileCommand where
  sources
  profile := some ⟨"conf/kct.toml"⟩
  classpath := [⟨"extra.jar"⟩, ⟨"/abs/./x.jar"⟩]
  sourceRoot := ⟨"src"⟩
  quiet := true

theorem project_compiled :
    (∃ request written directory,
      (projectCommand [⟨"Main.kt"⟩]).request project ⟨"/out"⟩ = .ok request ∧
      Profiled project (some ⟨"conf/kct.toml"⟩) written directory ∧
      (projectCommand [⟨"Main.kt"⟩]).Makes project ⟨"/out"⟩ written directory request ∧
      request.sources = [⟨⟨"Main.kt"⟩, "fun main() \x7b\x7d\n"⟩] ∧
      let compilation := compilation request ⟨⟨"/k/bin/kotlinc"⟩, ⟨"/k"⟩⟩ []
      Compilation.Ranked project (written.classpaths.map directory.join)
        [⟨"extra.jar"⟩, ⟨"/abs/./x.jar"⟩]
        ((compilation.archives project).1.classpath ++ compilation.inherited project)
        [⟨"/work/conf/libs/base.jar"⟩, ⟨"/abs/x.jar"⟩, ⟨"/work/extra.jar"⟩,
          ⟨"/k/lib/kotlin-stdlib.jar"⟩]) ∧
    (projectCommand [⟨"Main.kt"⟩, ⟨"Icon.kt"⟩, ⟨"Gone.kt"⟩]).Fails project
      (.source ⟨"src/Icon.kt"⟩ .notUtf8) := by
  obtain ⟨made, _, ranked⟩ := request_exact (projectCommand [⟨"Main.kt"⟩]) project ⟨"/out"⟩
  obtain ⟨_, failed, _⟩ := request_exact
    (projectCommand [⟨"Main.kt"⟩, ⟨"Icon.kt"⟩, ⟨"Gone.kt"⟩]) project ⟨"/out"⟩
  let request : Request :=
    { layout := ⟨⟨"/out"⟩⟩
      sources := [⟨⟨"Main.kt"⟩, "fun main() \x7b\x7d\n"⟩]
      options :=
        { verbose := false
          classpaths :=
            [⟨"conf/libs/base.jar"⟩, ⟨"/abs/x.jar"⟩, ⟨"extra.jar"⟩, ⟨"/abs/./x.jar"⟩] } }
  have done : (projectCommand [⟨"Main.kt"⟩]).request project ⟨"/out"⟩ = .ok request := by
    decide +kernel
  obtain ⟨written, directory, profiled, makes⟩ := (made request).mp done
  let compilation := compilation request ⟨⟨"/k/bin/kotlinc"⟩, ⟨"/k"⟩⟩ []
  have entries : (compilation.classpath project).1.entries = [⟨"/work/conf/libs/base.jar"⟩,
      ⟨"/abs/x.jar"⟩, ⟨"/work/extra.jar"⟩, ⟨"/k/lib/kotlin-stdlib.jar"⟩] := by decide +kernel
  refine ⟨⟨request, written, directory, done, profiled, makes, rfl, ?_⟩, ?_⟩
  · exact entries ▸ ranked request written directory makes compilation project rfl
  · exact (failed _).mp (by decide +kernel)

end CommandLine.CompileCommand
end KotlinCompile
