import KotlinCompile.Proofs.SortedMap
import KotlinCompile.Toml.Document
import Mathlib.Data.List.Nodup

/-! No table of a document gives a name twice: every way in which a line may add to the tables that
are there looks for the name before it adds one. -/
namespace KotlinCompile.Toml

namespace Entries
variable {entries other : Entries} {key : String} {value : Value} {origin : Origin}

/-- No name is given twice. -/
def Distinct (entries : Entries) : Prop := (entries.map (·.1)).Nodup

instance : Decidable entries.Distinct := inferInstanceAs (Decidable (entries.map (·.1)).Nodup)

theorem Distinct.lookup_eq_some (distinct : Distinct entries) :
    entries.lookup key = some value ↔ (key, value) ∈ entries :=
  SortedMap.lookup_eq_some distinct

theorem Distinct.perm (distinct : Distinct entries) (order : entries.Perm other) :
    Distinct other :=
  (order.map _).nodup_iff.mp distinct

theorem Distinct.nodup_append (distinct : Distinct entries) (fresh : key ∉ entries.map (·.1)) :
    (entries.map (·.1) ++ [key]).Nodup :=
  List.Nodup.append distinct (List.nodup_singleton key) (List.disjoint_singleton.mpr fresh)

/-- Tables with the same entries in another order say the same. -/
theorem Distinct.lookup_perm (distinct : Distinct entries) (order : entries.Perm other)
    (key : String) : other.lookup key = entries.lookup key := by
  apply Option.ext
  intro value
  rw [(distinct.perm order).lookup_eq_some, distinct.lookup_eq_some, order.mem_iff]

end Entries

/-- At no depth does a table give a name twice. -/
inductive Value.Regular : Value → Prop
  | boolean (value : Bool) : Regular (.boolean value)
  | integer (value : Int) : Regular (.integer value)
  | float (value : Decimal.Binary64) : Regular (.float value)
  | text (value : String) : Regular (.text value)
  | moment (value : String) : Regular (.moment value)
  | list {items : List Value} : (∀ item ∈ items, Regular item) → Regular (.list items)
  | tables {items : List Value} : (∀ item ∈ items, Regular item) → Regular (.tables items)
  | table {origin : Origin} {entries : Entries} : entries.Distinct →
      (∀ entry ∈ entries, Regular entry.2) → Regular (.table origin entries)

structure Entries.Regular (entries : Entries) : Prop where
  distinct : entries.Distinct
  values : ∀ entry ∈ entries, entry.2.Regular

variable {entries other before after result table document : Entries} {key : String}
  {value : Value} {origin : Origin} {path : List String}

namespace Entries

theorem regular_nil : Regular [] := ⟨List.nodup_nil, nofun⟩

theorem regular_table : (Value.table origin entries).Regular ↔ entries.Regular := by
  constructor
  · rintro (_ | _ | _ | _ | _ | _ | _ | ⟨distinct, values⟩)
    exact ⟨distinct, values⟩
  · exact fun regular => .table regular.distinct regular.values

theorem regular_tables {items : List Value} :
    (Value.tables items).Regular ↔ ∀ item ∈ items, item.Regular := by
  constructor
  · rintro (_ | _ | _ | _ | _ | _ | each | _)
    exact each
  · exact .tables

theorem Regular.perm (regular : entries.Regular) (order : entries.Perm other) : other.Regular :=
  ⟨regular.distinct.perm order, fun entry member => regular.values entry (order.mem_iff.mpr member)⟩

/-- The value under a key may become another one. -/
theorem Regular.respelled {value' : Value} (regular : Regular (before ++ (key, value) :: after))
    (fine : value'.Regular) : Regular (before ++ (key, value') :: after) := by
  obtain ⟨distinct, values⟩ := regular
  obtain ⟨front, back⟩ := List.forall_mem_append.mp values
  refine ⟨by simpa [Distinct] using distinct, List.forall_mem_append.mpr ⟨front, ?_⟩⟩
  exact List.forall_mem_cons.mpr ⟨fine, (List.forall_mem_cons.mp back).2⟩

theorem Regular.of_lookup (regular : entries.Regular) (found : entries.lookup key = some value) :
    value.Regular :=
  regular.values _ (regular.distinct.lookup_eq_some.mp found)

theorem Regular.filter (regular : entries.Regular) (keep : String × Value → Bool) :
    Regular (entries.filter keep) :=
  ⟨regular.distinct.sublist (List.filter_sublist.map _),
    fun entry member => regular.values entry (List.mem_of_mem_filter member)⟩

theorem Regular.map {change : String × Value → String × Value} (regular : entries.Regular)
    (names : ∀ entry, (change entry).1 = entry.1)
    (values : ∀ entry, entry.2.Regular → (change entry).2.Regular) :
    Regular (entries.map change) := by
  constructor
  · simpa [Distinct, Function.comp_def, names] using regular.distinct
  · exact List.forall_mem_map.mpr fun entry member => values entry (regular.values entry member)

/-- A name that is missing may be added. -/
theorem Regular.append (regular : entries.Regular) (missing : entries.lookup key = none)
    (fine : value.Regular) : Regular (entries ++ [(key, value)]) := by
  constructor
  · rw [Distinct, List.map_append]
    exact regular.distinct.nodup_append (SortedMap.lookup_eq_none.mp missing)
  · intro entry member
    rcases List.mem_append.mp member with old | new
    · exact regular.values entry old
    · rw [List.mem_singleton.mp new]
      exact fine

end Entries

theorem addEntry_regular (regular : entries.Regular) (fine : value.Regular)
    (added : addEntry key value entries = some result) : result.Regular := by
  unfold addEntry at added
  split at added
  · cases added
  · next missing =>
    cases added
    exact regular.append (Option.not_isSome_iff_eq_none.mp missing) fine

theorem names_adjust {change : Option Value → Option Value}
    (adjusted : adjust key change entries = some result) :
    result.map (·.1) =
      if key ∈ entries.map (·.1) then entries.map (·.1) else entries.map (·.1) ++ [key] := by
  induction entries generalizing result with
  | nil =>
    obtain ⟨value, -, rfl⟩ := Option.map_eq_some_iff.mp adjusted
    rfl
  | cons entry rest ih =>
    obtain ⟨name, value⟩ := entry
    unfold adjust at adjusted
    split at adjusted
    · next same =>
      obtain ⟨value, -, rfl⟩ := Option.map_eq_some_iff.mp adjusted
      simp [same]
    · next differ =>
      obtain ⟨changed, later, rfl⟩ := Option.map_eq_some_iff.mp adjusted
      have other : key ≠ name := fun same => differ same.symm
      simp only [List.map_cons, List.mem_cons, other, false_or, ih later]
      split <;> rfl

/-- What a table holds after a change is what it held, or what came of the change. -/
theorem mem_adjust {change : Option Value → Option Value}
    (adjusted : adjust key change entries = some result) {entry : String × Value}
    (member : entry ∈ result) : entry ∈ entries ∨ ∃ old value, change old = some value ∧
      entry = (key, value) ∧ ∀ v ∈ old, (key, v) ∈ entries := by
  induction entries generalizing result with
  | nil =>
    obtain ⟨value, made, rfl⟩ := Option.map_eq_some_iff.mp adjusted
    exact Or.inr ⟨none, value, made, List.mem_singleton.mp member, nofun⟩
  | cons first rest ih =>
    obtain ⟨name, held⟩ := first
    unfold adjust at adjusted
    split at adjusted
    · next same =>
      subst same
      obtain ⟨value, made, rfl⟩ := Option.map_eq_some_iff.mp adjusted
      rcases List.mem_cons.mp member with rfl | later
      · exact Or.inr ⟨some held, value, made, rfl, by simp⟩
      · exact Or.inl (List.mem_cons_of_mem _ later)
    · next differ =>
      obtain ⟨changed, later, rfl⟩ := Option.map_eq_some_iff.mp adjusted
      rcases List.mem_cons.mp member with rfl | inside
      · exact Or.inl List.mem_cons_self
      · rcases ih later inside with old | ⟨old, value, made, rfl, before⟩
        · exact Or.inl (List.mem_cons_of_mem _ old)
        · exact Or.inr ⟨old, value, made, rfl, fun v held => List.mem_cons_of_mem _ (before v held)⟩

theorem adjust_regular {change : Option Value → Option Value} (regular : entries.Regular)
    (kept : ∀ old value, (∀ v ∈ old, v.Regular) → change old = some value → value.Regular)
    (adjusted : adjust key change entries = some result) : result.Regular := by
  constructor
  · rw [Entries.Distinct, names_adjust adjusted]
    split
    · exact regular.distinct
    · next fresh => exact regular.distinct.nodup_append fresh
  · intro entry member
    rcases mem_adjust adjusted member with old | ⟨old, value, made, rfl, before⟩
    · exact regular.values entry old
    · exact kept old value (fun v held => regular.values _ (before v held)) made

/-- A change that keeps to the rule at the end of a path keeps to it in the whole table. -/
theorem within_regular {inKey : Bool} {change : Origin → Entries → Option Entries}
    (kept : ∀ origin inner result, inner.Regular → change origin inner = some result →
      result.Regular)
    (regular : entries.Regular) (changed : within inKey change origin path entries = some result) :
    result.Regular := by
  induction path generalizing origin entries result with
  | nil => exact kept origin entries result regular changed
  | cons key rest ih =>
    unfold within at changed
    refine adjust_regular regular ?_ changed
    intro old value before made
    split at made
    · obtain ⟨inner, deeper, rfl⟩ := Option.map_eq_some_iff.mp made
      exact Entries.regular_table.mpr (ih Entries.regular_nil deeper)
    · next found inner =>
      split at made
      · obtain ⟨changed, deeper, rfl⟩ := Option.map_eq_some_iff.mp made
        exact Entries.regular_table.mpr (ih (Entries.regular_table.mp (before _ rfl)) deeper)
      · cases made
    · next items =>
      split at made
      · next found inner front reversed =>
        obtain ⟨changed, deeper, rfl⟩ := Option.map_eq_some_iff.mp made
        -- the others in the list stay, and the last one is changed
        have whole : items = front.reverse ++ [.table found inner] := by
          simpa using congrArg List.reverse reversed
        have each := Entries.regular_tables.mp (before _ rfl)
        rw [whole] at each
        obtain ⟨others, last⟩ := List.forall_mem_append.mp each
        refine .tables (List.forall_mem_append.mpr ⟨others, List.forall_mem_singleton.mpr ?_⟩)
        have regular := Entries.regular_table.mp (List.forall_mem_singleton.mp last)
        exact Entries.regular_table.mpr (ih regular deeper)
      · cases made
    · cases made

theorem addKey_regular (regular : entries.Regular) (fine : value.Regular)
    (added : addKey path key value entries = some result) : result.Regular := by
  refine within_regular ?_ regular added
  intro origin inner result regular added
  split at added
  · cases added
  · exact addEntry_regular regular fine added

theorem entriesAt_regular (regular : entries.Regular)
    (found : openTable.entriesAt path entries = some result) : result.Regular := by
  induction path generalizing entries with
  | nil =>
    cases found
    exact regular
  | cons key rest ih =>
    unfold openTable.entriesAt at found
    split at found
    · next inner held =>
      exact ih (Entries.regular_table.mp (regular.of_lookup held)) found
    · next items held =>
      split at found
      · next inner last =>
        have each := Entries.regular_tables.mp (regular.of_lookup held)
        exact ih (Entries.regular_table.mp (each _ (List.mem_of_getLast? last))) found
      · cases found
    · cases found

theorem openTable_regular (regular : document.Regular)
    (opened : openTable path key document = some (table, result)) :
    table.Regular ∧ result.Regular := by
  simp only [openTable, Option.bind_eq_bind, Option.bind_eq_some_iff] at opened
  obtain ⟨middle, reached, inner, found, opened⟩ := opened
  have kept : middle.Regular := by
    refine within_regular ?_ regular reached
    rintro _ _ _ regular ⟨⟩
    exact regular
  have inside := entriesAt_regular kept found
  split at opened
  · cases opened
    exact ⟨Entries.regular_nil, kept⟩
  · next held =>
    obtain ⟨rest, removed, done⟩ := Option.bind_eq_some_iff.mp opened
    cases done
    refine ⟨Entries.regular_table.mp (inside.of_lookup held), within_regular ?_ kept removed⟩
    rintro _ _ _ regular ⟨⟩
    exact regular.filter _
  · cases opened

theorem closeTable_regular (fine : table.Regular) (regular : document.Regular)
    (closed : closeTable path key table document = some result) : result.Regular := by
  refine within_regular ?_ regular closed
  intro _ inner result regular added
  exact addEntry_regular regular (Entries.regular_table.mpr fine) added

theorem openList_regular (regular : document.Regular)
    (opened : openList path key document = some result) : result.Regular := by
  refine within_regular ?_ regular opened
  intro _ inner result regular made
  split at made
  · next missing =>
    cases made
    exact regular.append missing (.tables nofun)
  · cases made
    exact regular
  · cases made

theorem closeList_regular (fine : table.Regular) (regular : document.Regular)
    (closed : closeList path key table document = some result) : result.Regular := by
  refine within_regular ?_ regular closed
  rintro _ inner _ regular ⟨⟩
  refine regular.map (fun entry => ?_) fun entry held => ?_
  · split
    · split <;> rfl
    · rfl
  · split
    · split
      · refine .tables (List.forall_mem_append.mpr ⟨Entries.regular_tables.mp held, ?_⟩)
        exact List.forall_mem_singleton.mpr (Entries.regular_table.mpr fine)
      · exact held
    · exact held

/-- Whatever value is read with this fuel keeps to the rule. -/
def ValuesRegular (fuel : Nat) : Prop :=
  ∀ depth text value rest, value? fuel depth text = some (value, rest) → value.Regular

def ItemsRegular (fuel : Nat) : Prop :=
  ∀ depth text items rest, items? fuel depth text = some (items, rest) →
    ∀ item ∈ items, item.Regular

def FieldsRegular (fuel : Nat) : Prop :=
  ∀ depth before text entries rest, before.Regular →
    fields? fuel depth before text = some (entries, rest) → entries.Regular

variable {fuel : Nat}

theorem ItemsRegular.values (items : ItemsRegular fuel) (fields : FieldsRegular fuel) :
    ValuesRegular (fuel + 1) := by
  intro depth text value rest read
  unfold value? at read
  split at read
  · obtain ⟨_, -, ⟨⟩⟩ := Option.map_eq_some_iff.mp read
    exact .text _
  · obtain ⟨_, -, ⟨⟩⟩ := Option.map_eq_some_iff.mp read
    exact .text _
  · split at read
    · cases read
    · obtain ⟨_, inside, ⟨⟩⟩ := Option.map_eq_some_iff.mp read
      exact .list (items _ _ _ _ inside)
  · split at read
    · cases read
    · split at read
      · cases read
        exact Entries.regular_table.mpr Entries.regular_nil
      · obtain ⟨_, inside, ⟨⟩⟩ := Option.map_eq_some_iff.mp read
        exact Entries.regular_table.mpr (fields _ _ _ _ _ Entries.regular_nil inside)
  · cases read
    exact .boolean _
  · cases read
    exact .boolean _
  · split at read
    · cases read
      exact .moment _
    · split at read
      · cases read
        exact .float _
      · obtain ⟨_, -, ⟨⟩⟩ := Option.map_eq_some_iff.mp read
        exact .integer _

theorem ValuesRegular.items (values : ValuesRegular fuel) (items : ItemsRegular fuel) :
    ItemsRegular (fuel + 1) := by
  intro depth text list rest read
  unfold items? at read
  split at read
  · cases read
    exact nofun
  · obtain ⟨⟨item, behind⟩, first, read⟩ := Option.bind_eq_some_iff.mp read
    have fine := values _ _ _ _ first
    dsimp only at read
    split at read
    · cases read
      exact List.forall_mem_singleton.mpr fine
    · obtain ⟨⟨others, _⟩, later, ⟨⟩⟩ := Option.bind_eq_some_iff.mp read
      exact List.forall_mem_cons.mpr ⟨fine, items _ _ _ _ later⟩
    · cases read

theorem ValuesRegular.fields (values : ValuesRegular fuel) (fields : FieldsRegular fuel) :
    FieldsRegular (fuel + 1) := by
  intro depth before text entries rest regular read
  unfold fields? at read
  obtain ⟨⟨⟨path, key⟩, behind⟩, -, read⟩ := Option.bind_eq_some_iff.mp read
  dsimp only at read
  split at read
  · obtain ⟨⟨value, behind⟩, held, read⟩ := Option.bind_eq_some_iff.mp read
    obtain ⟨more, added, read⟩ := Option.bind_eq_some_iff.mp read
    have grown := addKey_regular regular (values _ _ _ _ held) added
    dsimp only at read
    split at read
    · cases read
      exact grown
    · exact fields _ _ _ _ _ grown read
    · cases read
  · cases read

/-- The three readers call each other with less fuel, so the rule is shown for all at once. -/
theorem readers_regular (fuel : Nat) :
    ValuesRegular fuel ∧ ItemsRegular fuel ∧ FieldsRegular fuel := by
  induction fuel with
  | zero => exact ⟨nofun, nofun, nofun⟩
  | succ fuel ih =>
    obtain ⟨values, items, fields⟩ := ih
    exact ⟨items.values fields, values.items items, values.fields fields⟩

structure Draft.Regular (draft : Draft) : Prop where
  document : draft.document.Regular
  current : draft.current.Regular

variable {draft next : Draft} {text rest : List Char}

theorem Draft.Regular.close (regular : draft.Regular) (closed : draft.close = some result) :
    result.Regular := by
  unfold Draft.close at closed
  split at closed
  · cases closed
    exact regular.current
  · exact closeTable_regular regular.current regular.document closed
  · exact closeList_regular regular.current regular.document closed

theorem header_regular (regular : draft.Regular) (read : header? draft text = some (next, rest)) :
    next.Regular := by
  obtain ⟨document, closed, read⟩ := Option.bind_eq_some_iff.mp read
  have whole := regular.close closed
  dsimp only at read
  split at read
  · obtain ⟨⟨⟨path, key⟩, behind⟩, -, read⟩ := Option.bind_eq_some_iff.mp read
    dsimp only at read
    split at read
    · obtain ⟨made, opened, ⟨⟩⟩ := Option.bind_eq_some_iff.mp read
      exact ⟨openList_regular whole opened, Entries.regular_nil⟩
    · cases read
  · obtain ⟨⟨⟨path, key⟩, behind⟩, -, read⟩ := Option.bind_eq_some_iff.mp read
    dsimp only at read
    split at read
    · obtain ⟨⟨table, made⟩, opened, ⟨⟩⟩ := Option.bind_eq_some_iff.mp read
      obtain ⟨inner, others⟩ := openTable_regular whole opened
      exact ⟨others, inner⟩
    · cases read

theorem keyValue_regular (regular : draft.Regular)
    (read : keyValue? draft text = some (next, rest)) : next.Regular := by
  obtain ⟨⟨⟨path, key⟩, behind⟩, -, read⟩ := Option.bind_eq_some_iff.mp read
  dsimp only at read
  split at read
  · obtain ⟨⟨value, behind⟩, held, read⟩ := Option.bind_eq_some_iff.mp read
    obtain ⟨more, added, ⟨⟩⟩ := Option.bind_eq_some_iff.mp read
    exact ⟨regular.document,
      addKey_regular regular.current ((readers_regular _).1 _ _ _ _ held) added⟩
  · cases read

theorem lines_regular (regular : draft.Regular) (read : lines? fuel draft text = some result) :
    result.Regular := by
  induction fuel generalizing draft text with
  | zero => cases read
  | succ fuel ih =>
    unfold lines? at read
    split at read
    · exact regular.close read
    · obtain ⟨⟨next, behind⟩, header, read⟩ := Option.bind_eq_some_iff.mp read
      obtain ⟨line, -, read⟩ := Option.bind_eq_some_iff.mp read
      exact ih (header_regular regular header) read
    · split at read
      · obtain ⟨line, -, read⟩ := Option.bind_eq_some_iff.mp read
        exact ih regular read
      · obtain ⟨⟨next, behind⟩, added, read⟩ := Option.bind_eq_some_iff.mp read
        obtain ⟨line, -, read⟩ := Option.bind_eq_some_iff.mp read
        exact ih (keyValue_regular regular added) read

/-- No table of a document that is read gives a name twice. -/
theorem parse_regular {text : String} (parsed : parse? text = some entries) : entries.Regular :=
  lines_regular ⟨Entries.regular_nil, Entries.regular_nil⟩ parsed

end KotlinCompile.Toml
