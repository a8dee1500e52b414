import KotlinCompile.Proofs.Options.Fields
import KotlinCompile.Request

/-! What a profile says. It is read exactly if every name in it is known and every value means
something under its name, and then the options are what it says, with the defaults for the rest. So
the order of its keys is of no account. -/
namespace KotlinCompile.Profile
variable {entries other inner inner' : Toml.Entries} {origin : Toml.Origin}
  {options : CompilerOptions} {selections : ArchiveSelections} {archive : Archive}

/-- A table of options. Where it has archives, they are a table too. -/
structure IsProfile (entries : Toml.Entries) : Prop where
  regular : entries.Regular
  tabular : ∀ value, ("archives", value) ∈ entries → ∃ origin inner, value = .table origin inner

theorem IsProfile.archives (isProfile : IsProfile entries)
    (member : ("archives", .table origin inner) ∈ entries) : inner.Distinct :=
  (Toml.Entries.regular_table.mp (isProfile.regular.values _ member)).distinct

theorem ofEntries_eq_ok (isProfile : IsProfile entries) :
    ofEntries entries = .ok options ↔ fields.Reads entries {} options := by
  apply Toml.Fields.foldlM_eq_ok _ _ isProfile.regular.distinct
  · intro start key value result member
    apply withField_named
    rintro rfl
    obtain ⟨origin, inner, rfl⟩ := isProfile.tabular value member
    exact ⟨origin, inner, rfl, isProfile.archives member⟩
  · exact fun _ _ _ _ done => withField_known done

/-- The keys of a profile, or of its archives, are in another order. -/
inductive Rearranged : Toml.Entries → Toml.Entries → Prop
  | keys {entries other : Toml.Entries} : entries.Perm other → Rearranged entries other
  | archives {before inner inner' after : Toml.Entries} {origin : Toml.Origin} : inner.Perm inner' →
      Rearranged (before ++ ("archives", .table origin inner) :: after)
        (before ++ ("archives", .table origin inner') :: after)
  | trans {entries middle other : Toml.Entries} :
      Rearranged entries middle → Rearranged middle other → Rearranged entries other

theorem isArchives_perm (distinct : inner.Distinct) (order : inner.Perm inner') :
    IsArchives (.table origin inner') selections ↔ IsArchives (.table origin inner) selections := by
  constructor
  · rintro ⟨_, _, ⟨⟩, reads⟩
    exact ⟨origin, inner, rfl, (Toml.Fields.reads_perm distinct order).mp reads⟩
  · rintro ⟨_, _, ⟨⟩, reads⟩
    exact ⟨origin, inner', rfl, (Toml.Fields.reads_perm distinct order).mpr reads⟩

theorem Rearranged.isProfile (rearranged : Rearranged entries other)
    (isProfile : IsProfile entries) : IsProfile other := by
  induction rearranged with
  | keys order =>
    exact ⟨isProfile.regular.perm order,
      fun value member => isProfile.tabular value (order.mem_iff.mpr member)⟩
  | trans _ _ first second => exact second (first isProfile)
  | @archives before inner inner' after origin order =>
    have held := Toml.Entries.regular_table.mp
      (isProfile.regular.values _ List.mem_append_cons_self)
    refine ⟨isProfile.regular.respelled (Toml.Entries.regular_table.mpr (held.perm order)), ?_⟩
    intro value member
    rcases List.mem_append.mp member with front | back
    · exact isProfile.tabular value (List.mem_append_left _ front)
    · rcases List.mem_cons.mp back with same | later
      · cases same
        exact ⟨origin, inner', rfl⟩
      · exact isProfile.tabular value (List.mem_append_right _ (List.mem_cons_of_mem _ later))

theorem Rearranged.reads (rearranged : Rearranged entries other) (isProfile : IsProfile entries) :
    fields.Reads other {} options ↔ fields.Reads entries {} options := by
  induction rearranged with
  | keys order => exact Toml.Fields.reads_perm isProfile.regular.distinct order
  | trans before _ first second =>
    exact (second (before.isProfile isProfile)).trans (first isProfile)
  | archives order =>
    have distinct := isProfile.archives List.mem_append_cons_self
    exact fields.reads_respelled Key.archives (fun _ => isArchives_perm distinct order)
      isProfile.regular.distinct

/-- Some key is the name of no option, or of no archive. -/
def HasUnknown (entries : Toml.Entries) : Prop :=
  (∃ entry ∈ entries, entry.1 ∉ fieldNames) ∨
    ∃ origin inner, ("archives", .table origin inner) ∈ entries ∧
      ∃ entry ∈ inner, entry.1 ∉ archiveNames

theorem not_hasUnknown (isProfile : IsProfile entries) (reads : fields.Reads entries {} options) :
    ¬HasUnknown entries := by
  rintro (⟨entry, member, unknown⟩ | ⟨origin, inner, member, entry, inside, unknown⟩)
  · exact unknown (mem_fieldNames.mpr (reads.known entry member))
  · have found := isProfile.regular.distinct.lookup_eq_some.mpr member
    obtain ⟨_, _, ⟨⟩, selected⟩ := reads.given Key.archives _ found
    exact unknown (mem_archiveNames.mpr (selected.known entry inside))

theorem discover_of_unnamed (isProfile : IsProfile entries)
    (reads : fields.Reads entries {} options)
    (unnamed : ∀ origin inner, ("archives", .table origin inner) ∈ entries →
      archiveName archive ∉ inner.map (·.1)) : options.archives.of archive = .discover := by
  have held : options.archives.of archive = ArchiveSelections.of {} archive := by
    cases found : entries.lookup "archives" with
    | none =>
      have whole : options.archives = {} := reads.otherwise Key.archives found
      rw [whole]
    | some value =>
      obtain ⟨origin, inner, rfl, selected⟩ := reads.given Key.archives value found
      have member := isProfile.regular.distinct.lookup_eq_some.mp found
      have missing := SortedMap.lookup_eq_none.mpr (unnamed origin inner member)
      exact selected.otherwise archive missing
  rw [held]
  cases archive <;> rfl

end KotlinCompile.Profile

namespace KotlinCompile.CompilerOptions
open Profile
variable {entries : Toml.Entries} {options : CompilerOptions}

/-- The options of a document once it is taken apart into its entries. -/
def ofEntries (entries : Toml.Entries) : Except BuildError CompilerOptions :=
  (Profile.ofEntries entries).mapError .config

theorem parse_eq_ofEntries {text : String} (parsed : Toml.parse? text = some entries) :
    parse text = ofEntries entries := by
  simp only [parse, Profile.parse, parsed, ofEntries]

theorem ofEntries_eq_ok (isProfile : IsProfile entries) :
    ofEntries entries = .ok options ↔ fields.Reads entries {} options := by
  rw [ofEntries, Fallible.mapError_eq_ok, Profile.ofEntries_eq_ok isProfile]

/-- A document is a table as soon as it is read, so only its archives can be in another form. -/
theorem parse_eq_ok {text : String} (parsed : Toml.parse? text = some entries)
    (tabular : ∀ value, ("archives", value) ∈ entries →
      ∃ origin inner, value = .table origin inner) :
    parse text = .ok options ↔ fields.Reads entries {} options := by
  rw [parse_eq_ofEntries parsed, ofEntries_eq_ok ⟨Toml.parse_regular parsed, tabular⟩]

/-- A profile is accepted for the options that it says and for no others, with the defaults where it
says nothing. An unknown key is refused, and the order of the keys is of no account. -/
theorem ofEntries_exact (isProfile : IsProfile entries) :
    (∀ options, ofEntries entries = .ok options ↔ fields.Reads entries {} options) ∧
    (∀ options archive, ofEntries entries = .ok options →
      (∀ origin inner, ("archives", .table origin inner) ∈ entries →
        archiveName archive ∉ inner.map (·.1)) → options.archives.of archive = .discover) ∧
    (HasUnknown entries → ∃ fault, ofEntries entries = .error (.config fault)) ∧
    (∀ other, Rearranged entries other →
      ∀ options, ofEntries other = .ok options ↔ ofEntries entries = .ok options) ∧
    ∀ text, Toml.parse? text = some entries → parse text = ofEntries entries := by
  have accepts (options : CompilerOptions) :
      ofEntries entries = .ok options ↔ fields.Reads entries {} options := ofEntries_eq_ok isProfile
  refine ⟨accepts, ?_, ?_, ?_, fun text => parse_eq_ofEntries⟩
  · intro options archive accepted unnamed
    exact discover_of_unnamed isProfile ((accepts options).mp accepted) unnamed
  · intro unknown
    rcases Fallible.mapError_cases BuildError.config (Profile.ofEntries entries) with
      ⟨options, accepted⟩ | refused
    · exact absurd unknown (not_hasUnknown isProfile ((accepts options).mp accepted))
    · exact refused
  · intro other rearranged options
    rw [ofEntries_eq_ok (rearranged.isProfile isProfile), accepts, rearranged.reads isProfile]

/-- Both the options and the archives are in another order. -/
theorem reordered_accepted :
    IsProfile [("verbose", .boolean false), ("archives", .table .header
      [("kapt", .table .braces [("use", .text "/k.jar")]), ("tools", .text "skip")])] ∧
    ofEntries [("archives", .table .header
      [("tools", .text "skip"), ("kapt", .table .braces [("use", .text "/k.jar")])]),
      ("verbose", .boolean false)] =
        .ok { verbose := false, archives := { kapt := .use ⟨"/k.jar"⟩, tools := .skip } } := by
  have path : Toml.Entries.Regular [("use", .text "/k.jar")] :=
    ⟨by decide, List.forall_mem_singleton.mpr (.text _)⟩
  have archives : Toml.Entries.Regular
      [("kapt", .table .braces [("use", .text "/k.jar")]), ("tools", .text "skip")] :=
    ⟨by decide, List.forall_mem_cons.mpr
      ⟨Toml.Entries.regular_table.mpr path, List.forall_mem_singleton.mpr (.text _)⟩⟩
  have isProfile : IsProfile [("verbose", .boolean false), ("archives", .table .header
      [("kapt", .table .braces [("use", .text "/k.jar")]), ("tools", .text "skip")])] := by
    refine ⟨⟨by decide, List.forall_mem_cons.mpr ⟨.boolean _, List.forall_mem_singleton.mpr
      (Toml.Entries.regular_table.mpr archives)⟩⟩, ?_⟩
    simp
  refine ⟨isProfile, ((ofEntries_exact isProfile).2.2.2.1 _ ?_ _).mpr rfl⟩
  exact .trans (@Rearranged.archives [_] _ _ [] _ (.swap _ _ _)) (.keys (.swap _ _ _))

end KotlinCompile.CompilerOptions
