import YaqtLib.Containers
import Mathlib.Data.List.Nodup
import Mathlib.Data.List.Count

/-! Entries in the order in which they were added latest, and lists of keys that are only appended to, and from which
one occurrence is removed at a time: when the second are the keys of the first. -/

namespace Containers

/-- Inserting every entry of a list, in its order. -/
def QHash.insertAll {κ α : Type} [DecidableEq κ] (m : QHash κ α) (es : List (κ × α)) : QHash κ α :=
  es.foldl (fun m e => m.insert e.1 e.2) m

/-- The entries that are present, the one that was added latest last. -/
abbrev Latest (κ α : Type) := List (κ × α)

namespace Latest

variable {κ α : Type}

def keys (l : Latest κ α) : List κ := l.map Prod.fst

/-- The value that was added latest. -/
def last (l : Latest κ α) : Option α := l.getLast?.map Prod.snd

/-- The entries are those of a map. -/
structure Entries (l : Latest κ α) (m : QHash κ α) : Prop where
  nodup : l.keys.Nodup
  mem : ∀ k v, (k, v) ∈ l ↔ m.value k = some v

variable {l : Latest κ α} {m : QHash κ α}

theorem Entries.nil : Entries ([] : Latest κ α) QHash.empty :=
  ⟨List.nodup_nil, fun _ _ => iff_of_false List.not_mem_nil fun h => nomatch h⟩

theorem Entries.mem_keys (h : l.Entries m) (k : κ) : k ∈ l.keys ↔ m.contains k = true := by
  rw [keys, List.mem_map, QHash.contains_iff]
  constructor
  · rintro ⟨⟨k', v⟩, hmem, rfl⟩
    exact ⟨v, (h.mem k' v).mp hmem⟩
  · rintro ⟨v, hv⟩
    exact ⟨(k, v), (h.mem k v).mpr hv, rfl⟩

/-- The value of the last key is the one that was added latest. -/
theorem Entries.last_eq (h : l.Entries m) : l.keys.getLast?.bind m.value = l.last := by
  rw [keys, List.getLast?_map, Latest.last]
  cases hlast : l.getLast? with
  | none => rfl
  | some e => exact (h.mem e.1 e.2).mp (List.mem_of_getLast? hlast)

variable [DecidableEq κ]

def remove (l : Latest κ α) (k : κ) : Latest κ α := l.filter fun e => e.1 ≠ k

def add (l : Latest κ α) (e : κ × α) : Latest κ α := l.remove e.1 ++ [e]

/-- The entry of the key, if there is one, with another value. -/
def update (l : Latest κ α) (k : κ) (v : α) : Latest κ α := l.map fun e => if e.1 = k then (k, v) else e

def addAll (l : Latest κ α) (es : List (κ × α)) : Latest κ α := es.foldl add l

def removeAll (l : Latest κ α) (ks : List κ) : Latest κ α := ks.foldl remove l

theorem keys_remove (l : Latest κ α) (k : κ) : (l.remove k).keys = l.keys.filter (· ≠ k) := by
  rw [keys, keys, List.filter_map]
  rfl

theorem keys_add (l : Latest κ α) (e : κ × α) : (l.add e).keys = l.keys.filter (· ≠ e.1) ++ [e.1] := by
  rw [add, keys, List.map_append, ← keys, keys_remove]
  rfl

theorem keys_update (l : Latest κ α) (k : κ) (v : α) : (l.update k v).keys = l.keys := by
  rw [keys, keys, update, List.map_map]
  refine List.map_congr_left fun e _ => ?_
  change (if e.1 = k then (k, v) else e).1 = e.1
  split_ifs with h
  · exact h.symm
  · rfl

theorem Entries.remove (h : l.Entries m) (k : κ) : (l.remove k).Entries (m.remove k) := by
  refine ⟨?_, fun k' v => ?_⟩
  · rw [keys_remove]
    exact h.nodup.filter _
  · rw [Latest.remove, List.mem_filter, h.mem, QHash.value_remove]
    by_cases hk : k' = k
    · rw [if_pos hk]
      simp [hk]
    · rw [if_neg hk]
      simp [hk]

theorem Entries.add (h : l.Entries m) (e : κ × α) : (l.add e).Entries (m.insert e.1 e.2) := by
  obtain ⟨k, a⟩ := e
  refine ⟨?_, fun k' v => ?_⟩
  · rw [keys_add, List.nodup_append]
    refine ⟨h.nodup.filter _, List.nodup_singleton _, fun x hx y hy => ?_⟩
    rw [List.mem_singleton.mp hy]
    exact of_decide_eq_true (List.mem_filter.mp hx).2
  · rw [Latest.add, Latest.remove, List.mem_append, List.mem_filter, h.mem, List.mem_singleton, QHash.value_insert]
    by_cases hk : k' = k
    · rw [if_pos hk]
      simp [hk, eq_comm]
    · rw [if_neg hk]
      simp [hk]

theorem Entries.update (h : l.Entries m) {k : κ} (hk : m.contains k = true) (v : α) :
    (l.update k v).Entries (m.insert k v) := by
  refine ⟨?_, fun k' v' => ?_⟩
  · rw [keys_update]
    exact h.nodup
  · rw [Latest.update, List.mem_map, QHash.value_insert]
    constructor
    · rintro ⟨⟨k'', v''⟩, hmem, heq⟩
      dsimp only at heq
      by_cases hk'' : k'' = k
      · rw [if_pos hk''] at heq
        obtain ⟨rfl, rfl⟩ := Prod.mk.inj heq
        exact if_pos rfl
      · rw [if_neg hk''] at heq
        obtain ⟨rfl, rfl⟩ := Prod.mk.inj heq
        rw [if_neg hk'']
        exact (h.mem _ _).mp hmem
    · intro hv
      split_ifs at hv with hk'
      · obtain ⟨old, hold⟩ := (QHash.contains_iff m k).mp hk
        refine ⟨(k, old), (h.mem k old).mpr hold, ?_⟩
        rw [if_pos rfl, hk', Option.some.inj hv]
      · exact ⟨(k', v'), (h.mem k' v').mpr hv, if_neg hk'⟩

theorem update_of_not_mem {k : κ} (hk : k ∉ l.keys) (v : α) : l.update k v = l := by
  rw [update]
  refine (List.map_congr_left fun e he => if_neg fun heq => hk ?_).trans (List.map_id l)
  rw [← heq]
  exact List.mem_map_of_mem he

theorem Entries.addAll (h : l.Entries m) (es : List (κ × α)) : (l.addAll es).Entries (m.insertAll es) := by
  induction es generalizing l m with
  | nil => exact h
  | cons e es ih => exact ih (h.add e)

theorem Entries.removeAll (h : l.Entries m) (ks : List κ) : (l.removeAll ks).Entries (m.removeAll ks) := by
  induction ks generalizing l m with
  | nil => exact h
  | cons k ks ih => exact ih (h.remove k)

end Latest

/-! ### Lists of keys -/

section Keys

variable {κ α : Type} [DecidableEq κ]

/-- Keys of which there are no more occurrences than are removed are removed altogether. -/
theorem diff_eq_filter {ks removed : List κ} (h : ∀ k ∈ removed, ks.count k ≤ removed.count k) :
    ks.diff removed = ks.filter (· ∉ removed) := by
  induction ks generalizing removed with
  | nil => exact List.nil_diff _
  | cons a ks ih =>
      by_cases ha : a ∈ removed
      · have hcount : ∀ k ∈ removed.erase a, ks.count k ≤ (removed.erase a).count k := by
          intro k hk
          have hle := h k (List.mem_of_mem_erase hk)
          rw [List.count_cons] at hle
          rw [List.count_erase]
          omega
        have hsame : ks.filter (· ∉ removed.erase a) = ks.filter (· ∉ removed) := by
          refine List.filter_congr fun k hk => decide_eq_decide.mpr (not_congr ?_)
          refine ⟨List.mem_of_mem_erase, fun hmem => ?_⟩
          have hle := h k hmem
          have hpos := List.count_pos_iff.mpr hk
          rw [List.count_cons] at hle
          rw [← List.count_pos_iff, List.count_erase]
          split_ifs at hle ⊢ <;> omega
        rw [List.cons_diff_of_mem ha, ih hcount, hsame, List.filter_cons_of_neg (by simpa using ha)]
      · have hcount : ∀ k ∈ removed, ks.count k ≤ removed.count k := fun k hk =>
          (List.count_le_count_cons).trans (h k hk)
        rw [List.cons_diff_of_not_mem ha, ih hcount, List.filter_cons_of_pos (by simpa using ha)]

theorem count_diff (ks removed : List κ) (k : κ) : (ks.diff removed).count k = ks.count k - removed.count k := by
  induction removed generalizing ks with
  | nil => rfl
  | cons a removed ih =>
      rw [List.diff_cons, ih, List.count_erase, List.count_cons]
      omega

/-- Keys that are moved to the end, where they are counted at all, are appended where none occurs twice. -/
theorem filter_keys_addAll {P : κ → Bool} {l : Latest κ α} {es : List (κ × α)}
    (h : ∀ k, P k = true → (l.keys ++ es.map Prod.fst).count k ≤ 1) :
    (l.addAll es).keys.filter P = (l.keys ++ es.map Prod.fst).filter P := by
  induction es generalizing l with
  | nil => rw [List.map_nil, List.append_nil]; rfl
  | cons e es ih =>
      have hadd : (l.add e).keys.filter P = (l.keys ++ [e.1]).filter P := by
        rw [Latest.keys_add, List.filter_append, List.filter_append, List.filter_filter]
        congr 1
        refine List.filter_congr fun k hk => ?_
        cases hP : P k with
        | false => rfl
        | true =>
            have hle := h k hP
            have hpos := List.count_pos_iff.mpr hk
            rw [List.count_append, List.map_cons, List.count_cons] at hle
            have hne : k ≠ e.1 := by
              rintro rfl
              simp at hle
              omega
            simpa using hne
      have hcount : ∀ k, P k = true → ((l.add e).keys ++ es.map Prod.fst).count k ≤ 1 := by
        intro k hP
        refine le_trans ?_ (h k hP)
        rw [Latest.keys_add, List.count_append, List.count_append, List.count_append, List.map_cons]
        have hle : (l.keys.filter (· ≠ e.1)).count k ≤ l.keys.count k := (List.filter_sublist).count_le k
        rw [List.count_cons, List.count_cons, List.count_nil]
        omega
      rw [Latest.addAll, List.foldl_cons, ← Latest.addAll, ih hcount, List.filter_append, hadd, ← List.filter_append,
        List.map_cons, List.append_assoc]
      rfl

theorem keys_removeAll (l : Latest κ α) (ks : List κ) : (l.removeAll ks).keys = l.keys.filter (· ∉ ks) := by
  induction ks generalizing l with
  | nil => simp [Latest.removeAll]
  | cons k ks ih =>
      rw [Latest.removeAll, List.foldl_cons, ← Latest.removeAll, ih, Latest.keys_remove, List.filter_filter]
      refine List.filter_congr fun k' _ => ?_
      rw [← Bool.decide_and]
      exact decide_eq_decide.mpr (by rw [List.mem_cons, not_or, and_comm])

/-- No key occurs twice, unless it is removed as often as it occurs. -/
def NoneTwice (ks removed : List κ) : Prop :=
  ∀ k, ks.count k ≤ if k ∈ removed then removed.count k else 1

/-- **Appending and removing.** The keys of the entries that were added and removed are the keys that were appended, of
which one occurrence was removed at a time, if no key occurs twice. -/
theorem diff_keys_eq {l : Latest κ α} {es : List (κ × α)} {removed : List κ}
    (h : NoneTwice (l.keys ++ es.map Prod.fst) removed) :
    (l.keys ++ es.map Prod.fst).diff removed = ((l.addAll es).removeAll removed).keys := by
  have hremoved : ∀ k ∈ removed, (l.keys ++ es.map Prod.fst).count k ≤ removed.count k := by
    intro k hk
    have hle := h k
    rwa [if_pos hk] at hle
  have honce : ∀ k, decide (k ∉ removed) = true → (l.keys ++ es.map Prod.fst).count k ≤ 1 := by
    intro k hk
    have hle := h k
    rwa [if_neg (of_decide_eq_true hk)] at hle
  rw [diff_eq_filter hremoved, keys_removeAll, filter_keys_addAll honce]

/-- If no key is left twice, and none that was removed, then no key occurred twice. -/
theorem noneTwice_of_nodup {ks removed : List κ} (hnodup : (ks.diff removed).Nodup)
    (hremoved : ∀ k ∈ removed, k ∉ ks.diff removed) : NoneTwice ks removed := by
  intro k
  split_ifs with hk
  · have hzero := List.count_eq_zero.mpr (hremoved k hk)
    rw [count_diff] at hzero
    omega
  · have hle := List.nodup_iff_count_le_one.mp hnodup k
    rw [count_diff, List.count_eq_zero.mpr hk] at hle
    omega

end Keys

end Containers
