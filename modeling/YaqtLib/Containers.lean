import Mathlib.Data.List.Basic
import Mathlib.Data.List.InsertIdx
import Mathlib.Data.List.Perm.Basic
import Mathlib.Data.List.Sort
import Mathlib.Tactic.SplitIfs

/-! Hash maps and lists with the operations a Qt container has. A hash is the function of its lookups;
a list operation outside its range has the result the container documents, or is kept apart by a
range predicate where the container documents none. -/

namespace Containers

/-- A hash map, as the function that looks a key up. -/
def QHash (κ α : Type) := κ → Option α

namespace QHash

variable {κ α : Type}

def empty : QHash κ α := fun _ => none

/-- The lookup of a key; `none` stands for the default the caller supplies. -/
def value (m : QHash κ α) (k : κ) : Option α := m k

def contains (m : QHash κ α) (k : κ) : Bool := (m.value k).isSome

@[simp] theorem value_empty (k : κ) : (empty : QHash κ α).value k = none := rfl

theorem contains_iff (m : QHash κ α) (k : κ) : m.contains k = true ↔ ∃ v, m.value k = some v :=
  Option.isSome_iff_exists

theorem contains_eq_false_iff (m : QHash κ α) (k : κ) : m.contains k = false ↔ m.value k = none := by
  rw [contains, Option.isSome_eq_false_iff, Option.isNone_iff_eq_none]

variable [DecidableEq κ]

def insert (m : QHash κ α) (k : κ) (v : α) : QHash κ α := fun k' => if k' = k then some v else m k'

def remove (m : QHash κ α) (k : κ) : QHash κ α := fun k' => if k' = k then none else m k'

/-- Removing every key of a list, in its order. -/
def removeAll (m : QHash κ α) (ks : List κ) : QHash κ α := ks.foldl remove m

theorem value_insert (m : QHash κ α) (k k' : κ) (v : α) :
    (m.insert k v).value k' = if k' = k then some v else m.value k' := rfl

theorem value_remove (m : QHash κ α) (k k' : κ) :
    (m.remove k).value k' = if k' = k then none else m.value k' := rfl

@[simp] theorem value_insert_self (m : QHash κ α) (k : κ) (v : α) : (m.insert k v).value k = some v :=
  if_pos rfl

theorem value_insert_of_ne (m : QHash κ α) {k k' : κ} (v : α) (h : k' ≠ k) :
    (m.insert k v).value k' = m.value k' :=
  if_neg h

@[simp] theorem value_remove_self (m : QHash κ α) (k : κ) : (m.remove k).value k = none :=
  if_pos rfl

theorem value_remove_of_ne (m : QHash κ α) {k k' : κ} (h : k' ≠ k) :
    (m.remove k).value k' = m.value k' :=
  if_neg h

theorem insert_insert_self (m : QHash κ α) (k : κ) (v v' : α) : (m.insert k v).insert k v' = m.insert k v' := by
  funext k'
  simp only [insert]
  split_ifs <;> rfl

theorem remove_insert_self (m : QHash κ α) (k : κ) (v : α) : (m.insert k v).remove k = m.remove k := by
  funext k'
  simp only [remove, insert]
  split_ifs <;> rfl

theorem remove_insert_of_ne (m : QHash κ α) {k k' : κ} (v : α) (h : k' ≠ k) :
    (m.insert k' v).remove k = (m.remove k).insert k' v := by
  funext k''
  simp only [remove, insert]
  split_ifs with h1 h2
  · exact absurd (h2.symm.trans h1) h
  · rfl
  · rfl
  · rfl

theorem value_removeAll (m : QHash κ α) (ks : List κ) (k : κ) :
    (m.removeAll ks).value k = if k ∈ ks then none else m.value k := by
  induction ks generalizing m with
  | nil => rfl
  | cons k' ks ih =>
      rw [removeAll, List.foldl_cons, ← removeAll, ih, value_remove]
      by_cases hk : k ∈ ks <;> by_cases hk' : k = k' <;> simp [hk, hk']

/-- The keys that are not there are inserted. -/
def insertMissing (m : QHash κ α) (ks : List κ) (v : α) : QHash κ α :=
  ks.foldl (fun m k => if m.contains k then m else m.insert k v) m

theorem value_insertMissing (m : QHash κ α) (ks : List κ) (v : α) (k : κ) :
    (m.insertMissing ks v).value k = (m.value k).or (if k ∈ ks then some v else none) := by
  induction ks generalizing m with
  | nil => exact Option.or_none.symm
  | cons k' ks ih =>
      rw [insertMissing, List.foldl_cons, ← insertMissing, ih]
      by_cases hk : k = k'
      · subst hk
        rw [if_pos (List.mem_cons_self ..)]
        by_cases hcontains : m.contains k = true
        · obtain ⟨v', hv'⟩ := (contains_iff m k).mp hcontains
          rw [if_pos hcontains, hv', Option.some_or, Option.some_or]
        · rw [if_neg hcontains, value_insert_self, Option.some_or,
            (contains_eq_false_iff m k).mp (by simpa using hcontains), Option.none_or]
      · have hvalue : (if m.contains k' = true then m else m.insert k' v).value k = m.value k := by
          split_ifs
          · rfl
          · exact m.value_insert_of_ne v hk
        rw [hvalue]
        exact congrArg _ (if_congr ⟨List.mem_cons_of_mem k', fun h => (List.mem_cons.mp h).resolve_left hk⟩ rfl rfl)

end QHash

variable {α : Type}

/-- `list.erase(begin + first, begin + last + 1)`. -/
def eraseRange (l : List α) (first last : Nat) : List α := l.take first ++ l.drop (last + 1)

/-- `list.insert(i, x)`: an index below the list prepends, one beyond it appends. -/
def insertAt (l : List α) (i : Int) (x : α) : List α := l.insertIdx (min i.toNat l.length) x

/-- The indices for which `list.move(source, target)` is defined. -/
def MoveInRange (l : List α) (source target : Nat) : Prop := source < l.length ∧ target < l.length

instance (l : List α) (source target : Nat) : Decidable (MoveInRange l source target) :=
  inferInstanceAs (Decidable (_ ∧ _))

/-- `list.move(source, target)` within its range; outside of it the list stays as it is. -/
def move (l : List α) (source target : Nat) : List α :=
  if h : MoveInRange l source target then (l.eraseIdx source).insertIdx target (l.get ⟨source, h.1⟩) else l

theorem insertAt_of_le (l : List α) {i : Nat} (hi : i ≤ l.length) (x : α) :
    insertAt l i x = l.insertIdx i x := by
  rw [insertAt, Int.toNat_natCast, Nat.min_eq_left hi]

theorem insertIdx_append_add (pre post : List α) (j : Nat) (x : α) :
    (pre ++ post).insertIdx (pre.length + j) x = pre ++ post.insertIdx j x := by
  induction pre with
  | nil => rw [List.length_nil, Nat.zero_add, List.nil_append, List.nil_append]
  | cons a pre ih => rw [List.length_cons, Nat.add_right_comm, List.cons_append, List.insertIdx_succ_cons, ih]; rfl

theorem insertIdx_append_length (pre post : List α) (x : α) :
    (pre ++ post).insertIdx pre.length x = pre ++ x :: post :=
  insertIdx_append_add pre post 0 x

theorem eraseIdx_append_cons (pre post : List α) (x : α) :
    (pre ++ x :: post).eraseIdx pre.length = pre ++ post := by
  induction pre with
  | nil => rfl
  | cons a pre ih => simpa using ih

theorem drop_append_cons (pre post : List α) (x : α) : (pre ++ x :: post).drop (pre.length + 1) = post := by
  rw [← List.drop_drop, List.drop_left, List.drop_one, List.tail_cons]

theorem modify_append_cons (pre post : List α) (x : α) (f : α → α) :
    (pre ++ x :: post).modify pre.length f = pre ++ f x :: post := by
  induction pre with
  | nil => rfl
  | cons a pre ih => simpa using ih

theorem exists_split_of_le {l : List α} {i : Nat} (hi : i ≤ l.length) :
    ∃ pre post, l = pre ++ post ∧ pre.length = i :=
  ⟨l.take i, l.drop i, (List.take_append_drop i l).symm, List.length_take_of_le hi⟩

theorem exists_split_of_lt {l : List α} {i : Nat} (hi : i < l.length) :
    ∃ pre x post, l = pre ++ x :: post ∧ pre.length = i ∧ l[i]? = some x := by
  refine ⟨l.take i, l[i], l.drop (i + 1), ?_, List.length_take_of_le (Nat.le_of_lt hi), List.getElem?_eq_getElem hi⟩
  rw [← List.drop_eq_getElem_cons hi, List.take_append_drop]

theorem exists_split_of_getElem? {l : List α} {i : Nat} {x : α} (hx : l[i]? = some x) :
    ∃ pre post, l = pre ++ x :: post ∧ pre.length = i := by
  obtain ⟨pre, x', post, hl, hi, hx'⟩ := exists_split_of_lt (List.getElem?_eq_some_iff.mp hx).1
  obtain rfl : x' = x := Option.some.inj (hx'.symm.trans hx)
  exact ⟨pre, post, hl, hi⟩

theorem set_append_cons (pre post : List α) (x y : α) :
    (pre ++ x :: post).set pre.length y = pre ++ y :: post := by
  simp

/-- A row is replaced by one with the same image. -/
theorem map_set_of_eq {β : Type} {f : α → β} {l : List α} {i : Nat} {x y : α} (hx : l[i]? = some x) (h : f y = f x) :
    (l.set i y).map f = l.map f := by
  obtain ⟨pre, post, rfl, rfl⟩ := exists_split_of_getElem? hx
  rw [set_append_cons, List.map_append, List.map_append, List.map_cons, List.map_cons, h]

/-- A list is what is before a range, the range, and what is behind it. -/
theorem eq_append_range (l : List α) {first last : Nat} (h : first ≤ last) :
    l = l.take first ++ ((l.drop first).take (last + 1 - first) ++ l.drop (last + 1)) := by
  have hdrop : l.drop (last + 1) = (l.drop first).drop (last + 1 - first) := by
    rw [List.drop_drop]
    congr 1
    omega
  rw [hdrop, List.take_append_drop, List.take_append_drop]

theorem eraseRange_sublist (l : List α) {first last : Nat} (h : first ≤ last) :
    (eraseRange l first last).Sublist l := by
  have hdrop : (l.drop (last + 1)).Sublist (l.drop first) := by
    have : last + 1 = first + (last + 1 - first) := by omega
    rw [this, ← List.drop_drop]
    exact List.drop_sublist _ _
  have := (List.Sublist.refl (l.take first)).append hdrop
  rwa [List.take_append_drop] at this

/-- A move takes one element out of its place and puts it at the target. -/
theorem move_append (pre mid post : List α) (x : α) :
    move (pre ++ x :: (mid ++ post)) pre.length (pre.length + mid.length) = pre ++ mid ++ x :: post := by
  have hrange : MoveInRange (pre ++ x :: (mid ++ post)) pre.length (pre.length + mid.length) := by
    constructor <;> simp only [List.length_append, List.length_cons] <;> omega
  have hget : (pre ++ x :: (mid ++ post)).get ⟨pre.length, hrange.1⟩ = x := by simp
  rw [move, dif_pos hrange, hget, eraseIdx_append_cons, ← List.append_assoc, ← List.length_append,
    insertIdx_append_length]

theorem move_append_back (pre mid post : List α) (x : α) :
    move (pre ++ mid ++ x :: post) (pre.length + mid.length) pre.length = pre ++ x :: (mid ++ post) := by
  have hrange : MoveInRange (pre ++ mid ++ x :: post) (pre.length + mid.length) pre.length := by
    constructor <;> simp only [List.length_append, List.length_cons] <;> omega
  have hget : (pre ++ mid ++ x :: post).get ⟨pre.length + mid.length, hrange.1⟩ = x := by
    simp [List.getElem_append_right]
  rw [move, dif_pos hrange, hget, ← List.length_append, eraseIdx_append_cons, List.append_assoc,
    insertIdx_append_length]

theorem move_append_cons {pre post : List α} {target : Nat} (h : target ≤ pre.length + post.length) (x : α) :
    move (pre ++ x :: post) pre.length target = (pre ++ post).insertIdx target x := by
  have hrange : MoveInRange (pre ++ x :: post) pre.length target := by
    constructor <;> simp only [List.length_append, List.length_cons] <;> omega
  have hget : (pre ++ x :: post).get ⟨pre.length, hrange.1⟩ = x := by simp
  rw [move, dif_pos hrange, hget, eraseIdx_append_cons]

theorem move_perm (l : List α) (source target : Nat) : (move l source target).Perm l := by
  unfold move
  split_ifs with h
  · have herase : target ≤ (l.eraseIdx source).length := by
      have := h.1; have := h.2
      rw [List.length_eraseIdx_of_lt h.1]; omega
    exact (List.perm_insertIdx _ _ herase).trans (List.getElem_cons_eraseIdx_perm h.1)
  · exact List.Perm.refl l

theorem map_move {β : Type} (f : α → β) (l : List α) (source target : Nat) :
    (move l source target).map f = move (l.map f) source target := by
  have hrange : MoveInRange (l.map f) source target ↔ MoveInRange l source target := by
    simp only [MoveInRange, List.length_map]
  unfold move
  split_ifs with h h' h'
  · rw [List.map_insertIdx, ← List.eraseIdx_map]
    simp
  · exact absurd (hrange.mpr h) h'
  · exact absurd (hrange.mp h') h
  · rfl

theorem map_eraseRange {β : Type} (f : α → β) (l : List α) (first last : Nat) :
    (eraseRange l first last).map f = eraseRange (l.map f) first last := by
  rw [eraseRange, eraseRange, List.map_append, List.map_take, List.map_drop]

theorem eraseRange_eq_eraseIdx (l : List α) (i : Nat) : eraseRange l i i = l.eraseIdx i :=
  (List.eraseIdx_eq_take_drop_succ l i).symm

theorem getElem?_move {l : List α} {source target : Nat} (h : MoveInRange l source target) {x : α}
    (hx : l[source]? = some x) : (move l source target)[target]? = some x := by
  obtain ⟨hsource, htarget⟩ := h
  have herase : target ≤ (l.eraseIdx source).length := by
    rw [List.length_eraseIdx_of_lt hsource]
    omega
  rw [move, dif_pos ⟨hsource, htarget⟩, List.getElem?_insertIdx_self, if_pos herase, List.get_eq_getElem,
    ← List.getElem?_eq_getElem hsource, hx]

section Sorting

variable (r : α → α → Prop) [DecidableRel r] [IsTrans α r]

theorem pairwise_orderedInsert {a : α} {l : List α} (hl : l.Pairwise r) (h : ∀ b ∈ l, r a b ∨ r b a) :
    (l.orderedInsert r a).Pairwise r := by
  induction l with
  | nil => exact List.pairwise_singleton r a
  | cons b l ih =>
      obtain ⟨hb, htail⟩ := List.pairwise_cons.mp hl
      rw [List.orderedInsert]
      split_ifs with hab
      · refine List.pairwise_cons.mpr ⟨fun c hc => ?_, hl⟩
        rcases List.mem_cons.mp hc with rfl | hc
        · exact hab
        · exact IsTrans.trans _ _ _ hab (hb c hc)
      · refine List.pairwise_cons.mpr ⟨fun c hc => ?_, ih htail fun c hc => h c (List.mem_cons_of_mem _ hc)⟩
        rcases (List.mem_orderedInsert r).mp hc with rfl | hc
        · exact (h b (List.mem_cons_self ..)).resolve_left hab
        · exact hb c hc

omit [IsTrans α r] in
/-- An element goes in before its equals, whichever class `p` of equals is looked at. -/
theorem filter_orderedInsert {p : α → Bool} {a : α} (h : ∀ b, p a = true → p b = true → r a b) (l : List α) :
    (l.orderedInsert r a).filter p = (a :: l).filter p := by
  induction l with
  | nil => rfl
  | cons b l ih =>
      rw [List.orderedInsert_cons]
      split_ifs with hab
      · rfl
      · by_cases hb : p b = true
        · have ha : ¬ p a = true := fun ha => hab (h b ha hb)
          simp only [List.filter_cons, ih, if_neg ha, if_pos hb]
        · simp only [List.filter_cons, ih, if_neg hb]

/-- A sort by a relation that compares the elements of this list, if not all there are. -/
theorem pairwise_insertionSort {l : List α} (h : l.Pairwise fun a b => r a b ∨ r b a) :
    (l.insertionSort r).Pairwise r := by
  induction l with
  | nil => exact List.Pairwise.nil
  | cons a l ih =>
      obtain ⟨ha, htail⟩ := List.pairwise_cons.mp h
      exact pairwise_orderedInsert r (ih htail) fun b hb => ha b ((List.mem_insertionSort r).mp hb)

end Sorting

/-- An element that lies between two parts of a sorted list. -/
theorem pairwise_splice {r : α → α → Prop} {pre post : List α} {c : α} (h : (pre ++ post).Pairwise r)
    (hpre : ∀ x ∈ pre, r x c)
    (hpost : ∀ x ∈ post, r c x) : (pre ++ c :: post).Pairwise r := by
  obtain ⟨h1, h2, hcross⟩ := List.pairwise_append.mp h
  refine List.pairwise_append.mpr ⟨h1, List.pairwise_cons.mpr ⟨hpost, h2⟩, fun x hx y hy => ?_⟩
  rcases List.mem_cons.mp hy with rfl | hy
  · exact hpre x hx
  · exact hcross x hx y hy

/-- What is left of a sorted list after a scan over the elements before `c` lies behind `c`. -/
theorem behind_of_mem_dropWhile {r : α → α → Prop} (htrans : ∀ {x y z}, r x y → r y z → r x z) {l : List α}
    {c : α} {p : α → Bool} (hl : l.Pairwise r) (hp : ∀ x ∈ l, p x = true ↔ r x c)
    (htotal : ∀ x ∈ l, r x c ∨ r c x) : ∀ x ∈ l.dropWhile p, r c x := by
  induction l with
  | nil => simp
  | cons a l ih =>
      obtain ⟨ha, htail⟩ := List.pairwise_cons.mp hl
      rw [List.dropWhile_cons]
      split_ifs with hpa
      · exact ih htail (fun x hx => hp x (List.mem_cons_of_mem _ hx))
          fun x hx => htotal x (List.mem_cons_of_mem _ hx)
      · have hca : r c a := (htotal a (List.mem_cons_self ..)).resolve_left fun hac =>
          hpa ((hp a (List.mem_cons_self ..)).mpr hac)
        intro x hx
        rcases List.mem_cons.mp hx with rfl | hx
        · exact hca
        · exact htrans hca (ha x hx)

theorem before_of_mem_takeWhile {r : α → α → Prop} {l : List α} {c : α} {p : α → Bool}
    (hp : ∀ x ∈ l, p x = true ↔ r x c) : ∀ x ∈ l.takeWhile p, r x c := fun x hx =>
  (hp x ((List.takeWhile_sublist p).subset hx)).mp (List.all_eq_true.mp List.all_takeWhile x hx)

end Containers
