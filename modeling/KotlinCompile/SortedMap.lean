/-! Finite maps from names, kept as their entries in ascending order of the names. The order on
names is that of their code points, which is also the order of their UTF-8 bytes. An entry list
determines its map and is determined by it, so equal maps are equal values. -/
namespace KotlinCompile
variable {β : Type}

structure SortedMap (β : Type) where
  entries : List (String × β)
  ascending : entries.Pairwise (·.1 < ·.1)
deriving DecidableEq

namespace SortedMap

def empty : SortedMap β := ⟨[], .nil⟩

instance : EmptyCollection (SortedMap β) := ⟨empty⟩
instance : Inhabited (SortedMap β) := ⟨empty⟩

def put (key : String) (value : β) : List (String × β) → List (String × β)
  | [] => [(key, value)]
  | entry :: rest =>
    if key < entry.1 then (key, value) :: entry :: rest
    else if key = entry.1 then (key, value) :: rest
    else entry :: put key value rest

theorem name_of_mem_put {key : String} {value : β} {entries : List (String × β)}
    {entry : String × β} (h : entry ∈ put key value entries) :
    entry.1 = key ∨ entry ∈ entries := by
  induction entries with
  | nil => simp_all [put]
  | cons head rest ih =>
    simp only [put] at h
    split at h
    · rcases List.mem_cons.mp h with rfl | h <;> simp_all
    · split at h
      · rcases List.mem_cons.mp h with rfl | h <;> simp_all
      · rcases List.mem_cons.mp h with rfl | h
        · simp
        · rcases ih h with h | h <;> simp [h]

theorem ascending_put (key : String) (value : β) {entries : List (String × β)}
    (h : entries.Pairwise (·.1 < ·.1)) : (put key value entries).Pairwise (·.1 < ·.1) := by
  induction entries with
  | nil => simp [put]
  | cons head rest ih =>
    have ⟨above, tail⟩ := List.pairwise_cons.mp h
    simp only [put]
    split
    · next before =>
      refine List.pairwise_cons.mpr ⟨fun entry mem => ?_, h⟩
      rcases List.mem_cons.mp mem with rfl | mem
      · exact before
      · exact String.lt_trans before (above entry mem)
    · next notBefore =>
      split
      · next same => exact List.pairwise_cons.mpr ⟨fun entry mem => same ▸ above entry mem, tail⟩
      · next differ =>
        refine List.pairwise_cons.mpr ⟨fun entry mem => ?_, ih tail⟩
        rcases name_of_mem_put mem with equal | mem
        · exact equal ▸ Std.lt_of_le_of_ne (String.not_lt.mp notBefore) (Ne.symm differ)
        · exact above entry mem

def insert (map : SortedMap β) (key : String) (value : β) : SortedMap β :=
  ⟨put key value map.entries, ascending_put key value map.ascending⟩

/-- Later entries replace earlier ones of the same name. -/
def ofList (pairs : List (String × β)) : SortedMap β :=
  pairs.foldl (fun map pair => map.insert pair.1 pair.2) empty

def get? (map : SortedMap β) (key : String) : Option β := map.entries.lookup key

def isEmpty (map : SortedMap β) : Bool := map.entries.isEmpty

end SortedMap
end KotlinCompile
