import KotlinCompile.Compiler.Compilation

/-! The supporting archives and the host classpath are kept once they were asked for, so what a
compilation answers on one machine does not depend on what it was asked before. -/
namespace KotlinCompile

theorem HostClasspath.entries_kept (machine later : Machine) (host : HostClasspath) :
    (host.entries machine).2.entries later = host.entries machine := by
  cases host with
  | mk home known => cases known <;> rfl

namespace Resolver

theorem entries_kept (machine later : Machine) (resolver : Resolver) :
    (resolver.entries machine).2.entries later = resolver.entries machine := by
  cases resolver with
  | own entries locate => rfl
  | host known => simp only [Resolver.entries, HostClasspath.entries_kept machine later known]

-- Whichever of the two a resolver is asked for, it is left the same.
theorem locating_after (machine : Machine) (resolver : Resolver) :
    (resolver.locating machine).2 = (resolver.entries machine).2 := by
  cases resolver <;> rfl

theorem locating_kept (machine later : Machine) (resolver : Resolver) :
    (resolver.entries machine).2.locating later = resolver.locating machine := by
  cases resolver with
  | own entries locate => rfl
  | host known =>
    simp only [Resolver.entries, Resolver.locating, HostClasspath.entries_kept machine later known]

end Resolver

namespace Compilation

/-- Where the host locates archives, if the search for them asks the host at all. -/
def locating (compilation : Compilation) (machine : Machine) : Archive → Option Path :=
  if compilation.asksHost then (compilation.resolver.locating machine).1 else fun _ => none

/-- What the host classpath adds to the classpath of the request. -/
def inherited (compilation : Compilation) (machine : Machine) : List Path :=
  if compilation.request.options.inheritClasspath then (compilation.resolver.entries machine).1
  else []

/-- The same request for the same compiler with the same rules. -/
structure SameTask (compilation other : Compilation) : Prop where
  request : other.request = compilation.request
  backend : other.backend = compilation.backend
  rules : other.rules = compilation.rules

/-- A compilation that was asked something is the same task, has the host's answers for the machine
it was asked on, and keeps the archives if they were resolved. -/
structure Asked (machine : Machine) (compilation other : Compilation) : Prop
    extends SameTask compilation other where
  entries : (other.resolver.entries machine).1 = (compilation.resolver.entries machine).1
  located : (other.resolver.locating machine).1 = (compilation.resolver.locating machine).1
  resolved : other.resolved = compilation.resolved ∨
    other.resolved = some (compilation.archives machine).1

theorem archives_answer (compilation : Compilation) (machine : Machine) :
    (compilation.archives machine).1 = compilation.resolved.getD
      (ResolvedArchives.resolve machine compilation.request.options.archives
        (compilation.locating machine) compilation.request.options.jdkHome) := by
  unfold archives locating
  cases compilation.resolved with
  | some archives => rfl
  | none => by_cases asks : compilation.asksHost = true <;> simp [asks]

theorem archives_resolved (compilation : Compilation) (machine : Machine) :
    (compilation.archives machine).2.resolved = some (compilation.archives machine).1 := by
  unfold archives
  cases resolved : compilation.resolved with
  | some archives => exact resolved
  | none => rfl

namespace Asked
variable {machine : Machine} {compilation middle other : Compilation}

theorem refl (machine : Machine) (compilation : Compilation) :
    Asked machine compilation compilation :=
  ⟨⟨rfl, rfl, rfl⟩, rfl, rfl, Or.inl rfl⟩

theorem asksHost (asked : Asked machine compilation other) :
    other.asksHost = compilation.asksHost := by
  unfold Compilation.asksHost
  rw [asked.request]

theorem archives (asked : Asked machine compilation other) :
    (other.archives machine).1 = (compilation.archives machine).1 := by
  rcases asked.resolved with same | kept
  · rw [archives_answer, archives_answer, same, locating, locating, asked.asksHost, asked.located,
      asked.request]
  · rw [archives_answer, kept, Option.getD_some]

theorem trans (first : Asked machine compilation middle) (second : Asked machine middle other) :
    Asked machine compilation other := by
  refine ⟨⟨second.request.trans first.request, second.backend.trans first.backend,
    second.rules.trans first.rules⟩, second.entries.trans first.entries,
    second.located.trans first.located, ?_⟩
  rcases second.resolved with same | kept
  · rw [same]
    exact first.resolved
  · rw [kept, first.archives]
    exact Or.inr rfl

end Asked

theorem asked_archives (compilation : Compilation) (machine : Machine) :
    Asked machine compilation (compilation.archives machine).2 := by
  have resolver : (compilation.archives machine).2.resolver = compilation.resolver ∨
      (compilation.archives machine).2.resolver = (compilation.resolver.entries machine).2 := by
    unfold archives
    cases compilation.resolved with
    | some archives => exact Or.inl rfl
    | none =>
      by_cases asks : compilation.asksHost = true
      · simp only [asks, if_true, Resolver.locating_after, or_true]
      · simp only [asks, if_false, Bool.false_eq_true, true_or]
  refine ⟨?_, ?_, ?_, Or.inr (archives_resolved compilation machine)⟩
  · unfold archives
    cases compilation.resolved with
    | some archives => exact ⟨rfl, rfl, rfl⟩
    | none => exact ⟨rfl, rfl, rfl⟩
  · rcases resolver with same | asked
    · rw [same]
    · rw [asked, Resolver.entries_kept]
  · rcases resolver with same | asked
    · rw [same]
    · rw [asked, Resolver.locating_kept]

/-- The compilation after the host was asked for what the classpath inherits. -/
def afterInheriting (compilation : Compilation) (machine : Machine) : Compilation :=
  if compilation.request.options.inheritClasspath then
    { compilation with resolver := (compilation.resolver.entries machine).2 }
  else compilation

theorem classpath_eq (compilation : Compilation) (machine : Machine) :
    compilation.classpath machine =
      (.build machine.currentDirectory compilation.request.options.classpaths
        ((compilation.afterInheriting machine).archives machine).1.classpath
        (compilation.inherited machine),
        ((compilation.afterInheriting machine).archives machine).2) := by
  unfold classpath afterInheriting inherited
  by_cases inherits : compilation.request.options.inheritClasspath = true <;> simp [inherits]

theorem asked_afterInheriting (compilation : Compilation) (machine : Machine) :
    Asked machine compilation (compilation.afterInheriting machine) := by
  unfold afterInheriting
  split
  · exact ⟨⟨rfl, rfl, rfl⟩, by rw [Resolver.entries_kept], by rw [Resolver.locating_kept],
      Or.inl rfl⟩
  · exact Asked.refl machine compilation

theorem asked_classpath (compilation : Compilation) (machine : Machine) :
    Asked machine compilation (compilation.classpath machine).2 := by
  rw [classpath_eq]
  exact (asked_afterInheriting compilation machine).trans (asked_archives _ machine)

theorem asked_kapt (compilation : Compilation) (machine : Machine) :
    Asked machine compilation (compilation.kapt machine).2 := by
  unfold kapt
  split
  · exact asked_archives compilation machine
  · exact Asked.refl machine compilation

theorem Asked.classpath {machine : Machine} {compilation other : Compilation}
    (asked : Asked machine compilation other) :
    (other.classpath machine).1 = (compilation.classpath machine).1 := by
  rw [classpath_eq, classpath_eq, (asked_afterInheriting other machine).archives, asked.archives,
    (asked_afterInheriting compilation machine).archives, inherited, inherited, asked.entries,
    asked.request]

theorem kapt_answer (compilation : Compilation) (machine : Machine) :
    (compilation.kapt machine).1 = if compilation.request.hasServices then
      some <$> Kapt.wire (wiringInputs compilation.request (compilation.archives machine).1)
    else .ok none := by
  unfold kapt
  split
  · simp only [(asked_archives compilation machine).request]
  · rfl

theorem asked_compose (compilation : Compilation) (machine : Machine) :
    Asked machine compilation (compilation.compose machine).2 := by
  have asked := asked_kapt compilation machine
  unfold compose
  cases answer : compilation.kapt machine with
  | mk wired after =>
    rw [answer] at asked
    cases wired with
    | error error => exact asked
    | ok kapt => exact asked.trans (asked_classpath after machine)

theorem resolved_classpath (compilation : Compilation) (machine : Machine) :
    (compilation.classpath machine).2.resolved = some (compilation.archives machine).1 := by
  rw [classpath_eq, archives_resolved, (asked_afterInheriting compilation machine).archives]

theorem resolved_kapt (compilation : Compilation) (machine : Machine)
    (services : compilation.request.hasServices = true) :
    (compilation.kapt machine).2.resolved = some (compilation.archives machine).1 := by
  rw [kapt, if_pos services]
  exact archives_resolved compilation machine

theorem kapt_idle (compilation : Compilation) (machine : Machine)
    (services : compilation.request.hasServices ≠ true) :
    compilation.kapt machine = (.ok none, compilation) := by
  rw [kapt, if_neg services]

-- Only services can make the wiring fail, and then the archives were resolved for it.
theorem resolved_compose (compilation : Compilation) (machine : Machine) :
    (compilation.compose machine).2.resolved = some (compilation.archives machine).1 := by
  have asked := asked_kapt compilation machine
  unfold compose
  by_cases services : compilation.request.hasServices = true
  · have kept := resolved_kapt compilation machine services
    cases answer : compilation.kapt machine with
    | mk wired after =>
      rw [answer] at asked kept
      cases wired with
      | error error => exact kept
      | ok kapt => exact (resolved_classpath after machine).trans (congrArg some asked.archives)
  · rw [kapt_idle compilation machine services]
    exact resolved_classpath compilation machine

/-- The archives that are kept, if any are, were resolved for this request on some machine. So it is
for a new compilation, and so it stays. -/
def Settled (compilation : Compilation) : Prop :=
  ∀ archives, compilation.resolved = some archives → ∃ machine locate,
    archives = ResolvedArchives.resolve machine compilation.request.options.archives locate
      compilation.request.options.jdkHome

theorem settled_of_unresolved {compilation : Compilation} (new : compilation.resolved = none) :
    compilation.Settled := by
  intro archives kept
  rw [new] at kept
  cases kept

theorem Settled.resolved {compilation : Compilation} (settled : compilation.Settled)
    (machine : Machine) : ∃ found locate, (compilation.archives machine).1 =
      ResolvedArchives.resolve found compilation.request.options.archives locate
        compilation.request.options.jdkHome := by
  rw [archives_answer]
  cases kept : compilation.resolved with
  | some archives => exact settled archives kept
  | none => exact ⟨machine, _, rfl⟩

theorem Asked.settled {machine : Machine} {compilation other : Compilation}
    (asked : Asked machine compilation other) (settled : compilation.Settled) :
    other.Settled := by
  intro archives kept
  rw [asked.request]
  rcases asked.resolved with same | resolved
  · exact settled archives (same ▸ kept)
  · rw [resolved] at kept
    cases kept
    exact settled.resolved machine

-- Nothing that a compilation is asked, and nothing that it is given, unsettles it.
theorem Settled.kept {compilation : Compilation} (settled : compilation.Settled)
    (machine : Machine) (resolver : Resolver) (rule : FailureRule) (rules : List FailureRule) :
    (compilation.withResolver resolver).Settled ∧ (compilation.withRule rule).Settled ∧
      (compilation.withRules rules).Settled ∧ (compilation.archives machine).2.Settled ∧
      (compilation.classpath machine).2.Settled ∧ (compilation.kapt machine).2.Settled ∧
      (compilation.compose machine).2.Settled :=
  ⟨settled_of_unresolved rfl, settled, settled, (asked_archives compilation machine).settled settled,
    (asked_classpath compilation machine).settled settled,
    (asked_kapt compilation machine).settled settled,
    (asked_compose compilation machine).settled settled⟩

/-- The archives that are missing, in their order, are those that are wanted and were not found. -/
theorem Settled.missing {compilation : Compilation} (settled : compilation.Settled)
    (machine : Machine) : (compilation.archives machine).1.missing =
      Archive.all.filter fun archive =>
        compilation.request.options.archives.of archive != .skip &&
          ((compilation.archives machine).1.found archive).isNone := by
  obtain ⟨found, locate, resolved⟩ := settled.resolved machine
  rw [resolved]
  rfl

end Compilation
end KotlinCompile
