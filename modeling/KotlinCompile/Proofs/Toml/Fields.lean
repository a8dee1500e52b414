import KotlinCompile.Proofs.Fallible
import KotlinCompile.Proofs.Toml.Regular

/-! Records that are read from tables. Each entry of a table changes the one field that it names, and
an entry that names no field is a fault. So a field holds what the table says under its name, or
else what it held at the start, and the order of the entries means nothing. -/
namespace KotlinCompile.Toml

/-- What a record holds under one name in a table. -/
structure Field (σ : Type) where
  name : String
  Held : Type
  get : σ → Held
  set : Held → σ → σ
  /-- Which values in a table mean what. -/
  Means : Value → Held → Prop

structure Fields (σ : Type) where
  Key : Type
  field : Key → Field σ
  name_injective : ∀ key other, (field key).name = (field other).name → key = other
  get_set : ∀ key x s, (field key).get ((field key).set x s) = x
  get_set_of_ne : ∀ key other x s, other ≠ key →
    (field other).get ((field key).set x s) = (field other).get s
  ext : ∀ s t, (∀ key, (field key).get s = (field key).get t) → s = t

instance {σ : Type} : CoeFun (Fields σ) fun fields => fields.Key → Field σ := ⟨Fields.field⟩

namespace Fields
variable {σ ε : Type} {fields : Fields σ} {key : fields.Key} {value : Value}
  {entries before rest other : Entries} {start result : σ}

/-- The record holds what the table says, and for the rest what it held at the start. -/
structure Reads (fields : Fields σ) (entries : Entries) (start result : σ) : Prop where
  known : ∀ entry ∈ entries, ∃ key, (fields key).name = entry.1
  given : ∀ key value, entries.lookup (fields key).name = some value →
    (fields key).Means value ((fields key).get result)
  otherwise : ∀ key, entries.lookup (fields key).name = none →
    (fields key).get result = (fields key).get start

theorem Reads.perm (reads : fields.Reads entries start result) (distinct : entries.Distinct)
    (order : entries.Perm other) : fields.Reads other start result := by
  have same := distinct.lookup_perm order
  constructor
  · exact fun entry member => reads.known entry (order.mem_iff.mpr member)
  · exact fun key value found => reads.given key value (same _ ▸ found)
  · exact fun key missing => reads.otherwise key (same _ ▸ missing)

theorem reads_perm (distinct : entries.Distinct) (order : entries.Perm other) :
    fields.Reads other start result ↔ fields.Reads entries start result :=
  ⟨fun reads => reads.perm (distinct.perm order) order.symm, fun reads => reads.perm distinct order⟩

theorem reads_nil : fields.Reads [] start result ↔ start = result := by
  constructor
  · exact fun reads => fields.ext start result fun key => (reads.otherwise key rfl).symm
  · rintro rfl
    exact ⟨nofun, nofun, fun _ _ => rfl⟩

theorem reads_cons (distinct : Entries.Distinct (((fields key).name, value) :: rest)) :
    fields.Reads (((fields key).name, value) :: rest) start result ↔
      ∃ x, (fields key).Means value x ∧ fields.Reads rest ((fields key).set x start) result := by
  have fresh : rest.lookup (fields key).name = none :=
    SortedMap.lookup_eq_none.mpr (List.nodup_cons.mp distinct).1
  have here : (((fields key).name, value) :: rest).lookup (fields key).name = some value := by
    rw [SortedMap.lookup_cons_entry, if_pos rfl]
  have elsewhere : ∀ other, other ≠ key →
      (((fields key).name, value) :: rest).lookup (fields other).name =
        rest.lookup (fields other).name := by
    intro other differ
    rw [SortedMap.lookup_cons_entry, if_neg (mt (fields.name_injective other key) differ)]
  constructor
  · intro reads
    refine ⟨_, reads.given key value here, ?_, ?_, ?_⟩
    · exact fun entry member => reads.known entry (List.mem_cons_of_mem _ member)
    · intro other held found
      have differ : other ≠ key := by
        rintro rfl
        cases fresh.symm.trans found
      exact reads.given other held ((elsewhere other differ).trans found)
    · intro other missing
      by_cases same : other = key
      · rw [same, fields.get_set]
      · rw [fields.get_set_of_ne key other _ _ same]
        exact reads.otherwise other ((elsewhere other same).trans missing)
  · rintro ⟨x, said, reads⟩
    -- what is set here is still there in the end, since no later entry has the name
    have held : (fields key).get result = x := by
      rw [reads.otherwise key fresh, fields.get_set]
    refine ⟨List.forall_mem_cons.mpr ⟨⟨key, rfl⟩, reads.known⟩, ?_, ?_⟩
    · intro other value' found
      by_cases same : other = key
      · subst same
        cases here.symm.trans found
        exact held ▸ said
      · exact reads.given other value' ((elsewhere other same).symm.trans found)
    · intro other missing
      have differ : other ≠ key := by
        rintro rfl
        cases here.symm.trans missing
      rw [reads.otherwise other ((elsewhere other differ).symm.trans missing),
        fields.get_set_of_ne key other x start differ]

/-- An entry may be written in another way that means the same. -/
theorem reads_respelled (fields : Fields σ) (key : fields.Key) {value' : Value}
    (same : ∀ x, (fields key).Means value' x ↔ (fields key).Means value x)
    (distinct : Entries.Distinct (before ++ ((fields key).name, value) :: rest)) :
    fields.Reads (before ++ ((fields key).name, value') :: rest) start result ↔
      fields.Reads (before ++ ((fields key).name, value) :: rest) start result := by
  have distinct' : Entries.Distinct (before ++ ((fields key).name, value') :: rest) := by
    simpa [Entries.Distinct] using distinct
  rw [← reads_perm distinct List.perm_middle, ← reads_perm distinct' List.perm_middle,
    reads_cons (distinct.perm List.perm_middle), reads_cons (distinct'.perm List.perm_middle)]
  simp only [same]

/-- Taking the entries of a table one by one gives the record that holds what the table says. -/
theorem foldlM_eq_ok {update : σ → String → Value → Except ε σ}
    (known : ∀ s key value t, ((fields key).name, value) ∈ entries →
      (update s (fields key).name value = .ok t ↔
        ∃ x, (fields key).Means value x ∧ (fields key).set x s = t))
    (unknown : ∀ s name value t, update s name value = .ok t → ∃ key, (fields key).name = name)
    (distinct : entries.Distinct) :
    entries.foldlM (fun s entry => update s entry.1 entry.2) start = .ok result ↔
      fields.Reads entries start result := by
  induction entries generalizing start with
  | nil =>
    rw [List.foldlM_nil, Fallible.pure_eq_ok]
    exact reads_nil.symm
  | cons entry rest ih =>
    obtain ⟨name, value⟩ := entry
    have later (start : σ) :
        rest.foldlM (fun s entry => update s entry.1 entry.2) start = .ok result ↔
          fields.Reads rest start result :=
      ih (fun s key value t member => known s key value t (List.mem_cons_of_mem _ member))
        (List.nodup_cons.mp distinct).2
    rw [List.foldlM_cons, Fallible.bind_eq_ok]
    simp only [later]
    constructor
    · rintro ⟨middle, first, others⟩
      obtain ⟨key, rfl⟩ := unknown _ _ _ _ first
      obtain ⟨x, said, rfl⟩ := (known _ _ _ _ List.mem_cons_self).mp first
      exact (reads_cons distinct).mpr ⟨x, said, others⟩
    · intro reads
      obtain ⟨key, rfl⟩ := reads.known _ List.mem_cons_self
      obtain ⟨x, said, others⟩ := (reads_cons distinct).mp reads
      exact ⟨_, (known _ _ _ _ List.mem_cons_self).mpr ⟨x, said, rfl⟩, others⟩

end Fields
end KotlinCompile.Toml
