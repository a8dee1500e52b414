import KotlinCompile.SortedMap

namespace KotlinCompile.SortedMap
variable {β : Type}

theorem lookup_cons_entry (name other : String) (value : β) (rest : List (String × β)) :
    ((name, value) :: rest).lookup other =
      if other = name then some value else rest.lookup other := by
  by_cases same : other = name
  · simp [same]
  · simp [List.lookup_cons, beq_eq_false_iff_ne.mpr same, same]

theorem lookup_put (key other : String) (value : β) (entries : List (String × β)) :
    (put key value entries).lookup other =
      if other = key then some value else entries.lookup other := by
  induction entries with
  | nil => exact lookup_cons_entry key other value []
  | cons entry rest ih =>
    obtain ⟨name, old⟩ := entry
    simp only [put]
    split
    · rw [lookup_cons_entry]
    · split
      · next found =>
        subst found
        by_cases same : other = key <;> simp [lookup_cons_entry, same]
      · next differ =>
        rw [lookup_cons_entry, ih, lookup_cons_entry]
        by_cases same : other = key
        · subst same
          simp [differ]
        · simp [same]

theorem get_insert (map : SortedMap β) (key other : String) (value : β) :
    (map.insert key value).get? other = if other = key then some value else map.get? other :=
  lookup_put key other value map.entries

theorem get_foldl_insert (pairs : List (String × β)) (map : SortedMap β) (key : String) :
    (pairs.foldl (fun map pair => map.insert pair.1 pair.2) map).get? key =
      (pairs.reverse.lookup key).or (map.get? key) := by
  induction pairs generalizing map with
  | nil => simp
  | cons pair rest ih =>
    rw [List.foldl_cons, ih, get_insert, List.reverse_cons, List.lookup_append, lookup_cons_entry]
    cases rest.reverse.lookup key <;> by_cases same : key = pair.1 <;> simp [same]

/-- Of the pairs with one name, the last is the one that a map made from them keeps. -/
theorem get_ofList (pairs : List (String × β)) (key : String) :
    (ofList pairs).get? key = pairs.reverse.lookup key := by
  rw [ofList, get_foldl_insert]
  exact Option.or_none

theorem put_above {key : String} (value : β) {entries : List (String × β)}
    (above : ∀ entry ∈ entries, entry.1 < key) :
    put key value entries = entries ++ [(key, value)] := by
  induction entries with
  | nil => rfl
  | cons entry rest ih =>
    have before : entry.1 < key := above entry List.mem_cons_self
    have notBelow : ¬key < entry.1 := String.lt_asymm before
    have differ : key ≠ entry.1 := fun same => String.lt_irrefl key (same ▸ before)
    simp only [put, notBelow, differ, if_false, List.cons_append]
    rw [ih fun other member => above other (List.mem_cons_of_mem entry member)]

theorem entries_foldl_insert (pairs : List (String × β)) (map : SortedMap β)
    (ascending : (map.entries ++ pairs).Pairwise (·.1 < ·.1)) :
    (pairs.foldl (fun map pair => map.insert pair.1 pair.2) map).entries =
      map.entries ++ pairs := by
  induction pairs generalizing map with
  | nil => simp
  | cons pair rest ih =>
    have above : ∀ entry ∈ map.entries, entry.1 < pair.1 := fun entry member =>
      (List.pairwise_append.mp ascending).2.2 entry member pair List.mem_cons_self
    have last : (map.insert pair.1 pair.2).entries = map.entries ++ [pair] := put_above pair.2 above
    have regrouped : map.entries ++ [pair] ++ rest = map.entries ++ pair :: rest := by simp
    rw [List.foldl_cons, ih _ (by rw [last, regrouped]; exact ascending), last, regrouped]

/-- A map is the one made from its own entries. -/
theorem ofList_entries (map : SortedMap β) : ofList map.entries = map := by
  have same : (ofList map.entries).entries = map.entries :=
    entries_foldl_insert map.entries empty map.ascending
  cases made : ofList map.entries with
  | mk entries ascending =>
    rw [made] at same
    cases map
    cases same
    rfl

theorem lookup_eq_none {entries : List (String × β)} {name : String} :
    entries.lookup name = none ↔ name ∉ entries.map (·.1) := by
  rw [List.lookup_eq_none_iff, List.mem_map]
  constructor
  · rintro missing ⟨entry, member, rfl⟩
    exact absurd (missing entry member) (by simp)
  · intro missing entry member
    exact bne_iff_ne.mpr fun same => missing ⟨entry, member, same.symm⟩

theorem lookup_eq_some {entries : List (String × β)} (distinct : (entries.map (·.1)).Nodup)
    {name : String} {value : β} : entries.lookup name = some value ↔ (name, value) ∈ entries := by
  induction entries with
  | nil => simp
  | cons entry rest ih =>
    obtain ⟨first, held⟩ := entry
    obtain ⟨fresh, others⟩ := List.nodup_cons.mp distinct
    rw [lookup_cons_entry, List.mem_cons, Prod.mk.injEq]
    by_cases same : name = first
    · subst same
      have once : (name, value) ∉ rest := fun member => fresh (List.mem_map.mpr ⟨_, member, rfl⟩)
      simp [once, eq_comm]
    · simp [same, ih others]

theorem nodup_names (map : SortedMap β) : (map.entries.map (·.1)).Nodup := by
  apply List.pairwise_map.mpr
  apply map.ascending.imp
  intro first second before same
  exact String.lt_irrefl first.1 (same.symm ▸ before)

/-- The entries of a map are what it holds. -/
theorem mem_entries (map : SortedMap β) (name : String) (value : β) :
    (name, value) ∈ map.entries ↔ map.get? name = some value :=
  (lookup_eq_some map.nodup_names).symm

end KotlinCompile.SortedMap
