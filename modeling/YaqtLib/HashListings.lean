import YaqtLib.Containers

/-! The entries of a hash map in one of the orders in which it may be walked. Nothing fixes the order, so what is
said of a walk is said of every listing. -/

namespace Containers

namespace QHash

variable {κ α : Type}

/-- A list that holds every entry of the hash once. -/
def ListedBy (m : QHash κ α) (entries : List (κ × α)) : Prop :=
  (entries.map Prod.fst).Nodup ∧ ∀ k v, (k, v) ∈ entries ↔ m.value k = some v

/-- The hash holds the value under some key. -/
def Holds (m : QHash κ α) (v : α) : Prop := ∃ k, m.value k = some v

variable {m : QHash κ α} {entries entries' : List (κ × α)}

theorem ListedBy.perm (h : m.ListedBy entries) (h' : m.ListedBy entries') : entries.Perm entries' := by
  refine (List.perm_ext_iff_of_nodup h.1.of_map h'.1.of_map).mpr ?_
  rintro ⟨k, v⟩
  exact (h.2 k v).trans (h'.2 k v).symm

theorem ListedBy.mem_values (h : m.ListedBy entries) (v : α) : v ∈ entries.map Prod.snd ↔ m.Holds v := by
  rw [List.mem_map]
  constructor
  · rintro ⟨⟨k, v'⟩, hmem, rfl⟩
    exact ⟨k, (h.2 k v').mp hmem⟩
  · rintro ⟨k, hk⟩
    exact ⟨(k, v), (h.2 k v).mpr hk, rfl⟩

theorem listedBy_empty : (empty : QHash κ α).ListedBy [] := by
  refine ⟨List.nodup_nil, fun k v => ?_⟩
  simp

variable [DecidableEq κ]

theorem ListedBy.remove (h : m.ListedBy entries) (k : κ) :
    (m.remove k).ListedBy (entries.filter fun entry => entry.1 ≠ k) := by
  constructor
  · exact h.1.sublist (List.filter_sublist.map Prod.fst)
  · intro k' v
    rw [List.mem_filter, h.2, value_remove]
    by_cases hk : k' = k <;> simp [hk]

theorem ListedBy.insert (h : m.ListedBy entries) (k : κ) (v : α) :
    (m.insert k v).ListedBy ((k, v) :: entries.filter fun entry => entry.1 ≠ k) := by
  constructor
  · rw [List.map_cons, List.nodup_cons]
    refine ⟨fun hmem => ?_, (h.remove k).1⟩
    obtain ⟨entry, hentry, hkey⟩ := List.mem_map.mp hmem
    exact absurd hkey (by simpa using (List.mem_filter.mp hentry).2)
  · intro k' v'
    rw [List.mem_cons, (h.remove k).2, value_remove, value_insert]
    by_cases hk : k' = k
    · simp [hk, eq_comm]
    · simp [hk]

end QHash

end Containers
