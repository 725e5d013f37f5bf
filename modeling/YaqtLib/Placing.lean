import YaqtLib.Containers

/-! Putting the elements of a list into a given order one at a time: each is taken out of its place, if it
has one, and put in at its target index. An element that is not placed itself, the slot, is to end at an
index the targets leave out; it does exactly if the elements before it at the start are placed before it,
except that the first one placed behind it may be the only other. -/

namespace Placing

variable {α : Type} [DecidableEq α]

/-- The element is put in at the index, wherever it was. -/
def placeAt (i : Nat) (a : α) (l : List α) : List α := (l.filter (· ≠ a)).insertIdx i a

/-- The elements are placed in their order, the first one at index `i`. -/
def placeFrom : Nat → List α → List α → List α
  | _, [], l => l
  | i, a :: as, l => placeFrom (i + 1) as (placeAt i a l)

/-- The elements are placed in their order, but the index `p` is left out: the slot's. -/
def placeAround (p : Nat) : Nat → List α → List α → List α
  | _, [], l => l
  | i, a :: as, l => placeAround p (i + 1) as (placeAt (if p ≤ i then i + 1 else i) a l)

theorem placeAround_append (p i : Nat) (as bs l : List α) :
    placeAround p i (as ++ bs) l = placeAround p (i + as.length) bs (placeAround p i as l) := by
  induction as generalizing i l with
  | nil => rfl
  | cons a as ih =>
      rw [List.cons_append, placeAround, placeAround, ih, List.length_cons, Nat.add_assoc, Nat.add_comm 1]

theorem placeAround_before {p i : Nat} {as : List α} (h : i + as.length ≤ p) (l : List α) :
    placeAround p i as l = placeFrom i as l := by
  induction as generalizing i l with
  | nil => rfl
  | cons a as ih =>
      rw [List.length_cons] at h
      rw [placeAround, placeFrom, if_neg (by omega), ih (by omega)]

theorem placeAround_behind {p i : Nat} (h : p ≤ i) (as l : List α) :
    placeAround p i as l = placeFrom (i + 1) as l := by
  induction as generalizing i l with
  | nil => rfl
  | cons a as ih => rw [placeAround, placeFrom, if_pos h, ih (by omega)]

theorem placeAround_eq (p : Nat) {as : List α} (h : p ≤ as.length) (l : List α) :
    placeAround p 0 as l = placeFrom (p + 1) (as.drop p) (placeFrom 0 (as.take p) l) := by
  have hlen : (as.take p).length = p := List.length_take_of_le h
  calc placeAround p 0 as l
      = placeAround p 0 (as.take p ++ as.drop p) l := by rw [List.take_append_drop]
    _ = placeAround p (0 + p) (as.drop p) (placeAround p 0 (as.take p) l) := by rw [placeAround_append, hlen]
    _ = placeFrom (p + 1) (as.drop p) (placeFrom 0 (as.take p) l) := by
        rw [Nat.zero_add, placeAround_behind (Nat.le_refl p), placeAround_before (by omega)]

theorem filter_ne_of_not_mem {a : α} {l : List α} (h : a ∉ l) : l.filter (· ≠ a) = l :=
  List.filter_eq_self.mpr fun b hb => by
    rw [decide_eq_true_iff]
    exact fun heq => h (heq ▸ hb)

/-- An element placed behind a part it is not in. -/
theorem placeAt_append {D : List α} {a : α} (ha : a ∉ D) (X : List α) :
    placeAt D.length a (D ++ X) = D ++ a :: X.filter (· ≠ a) := by
  rw [placeAt, List.filter_append, filter_ne_of_not_mem ha, Containers.insertIdx_append_length]

theorem placeAt_append_succ {D : List α} {a b : α} (ha : a ∉ D) (hb : b ≠ a) (X : List α) :
    placeAt (D.length + 1) a (D ++ b :: X) = D ++ b :: a :: X.filter (· ≠ a) := by
  have hmem : a ∉ D ++ [b] := by simp [ha, hb.symm]
  have := placeAt_append hmem X
  simpa using this

/-- The placed elements follow the part they are put behind, and what is left follows them. -/
theorem placeFrom_append {D as : List α} (hd : ∀ a ∈ as, a ∉ D) (has : as.Nodup) (X : List α) :
    placeFrom D.length as (D ++ X) = D ++ as ++ X.filter (· ∉ as) := by
  induction as generalizing D X with
  | nil => simp [placeFrom]
  | cons a as ih =>
      obtain ⟨hnot, hnodup⟩ := List.nodup_cons.mp has
      have hd' : ∀ b ∈ as, b ∉ D ++ [a] := by
        intro b hb hmem
        rcases List.mem_append.mp hmem with hmem | hmem
        · exact hd b (List.mem_cons_of_mem _ hb) hmem
        · exact hnot (List.mem_singleton.mp hmem ▸ hb)
      have hnext : D ++ a :: X.filter (· ≠ a) = D ++ [a] ++ X.filter (· ≠ a) := by simp
      have hrest : (X.filter (· ≠ a)).filter (· ∉ as) = X.filter (· ∉ a :: as) := by
        rw [List.filter_filter]
        refine List.filter_congr fun b _ => ?_
        simp [Bool.and_comm]
      have hlen : D.length + 1 = (D ++ [a]).length := by simp
      rw [placeFrom, placeAt_append (hd a (List.mem_cons_self ..)), hnext, hlen, ih hd' hnodup, hrest]
      simp

/-! ### The slot -/

/-- Behind two elements of which neither is the slot, no placing brings the slot to the first one's index. -/
theorem placeFrom_ne_slot {D as : List α} {c e : α} {i : Nat} {l : List α} (hi : D.length + 2 ≤ i)
    (hd : ∀ a ∈ as, a ∉ D) (he : e ∉ as) (hec : e ≠ c)
    (hl : (∃ Z, l = D ++ e :: Z) ∨ ∃ y Z, y ≠ c ∧ l = D ++ y :: e :: Z) (W : List α) :
    placeFrom i as l ≠ D ++ c :: W := by
  induction as generalizing i l with
  | nil =>
      rw [placeFrom]
      rcases hl with ⟨Z, rfl⟩ | ⟨y, Z, hy, rfl⟩
      · simp [hec]
      · simp [hy]
  | cons a as ih =>
      have hae : e ≠ a := fun heq => he (heq ▸ List.mem_cons_self ..)
      have hfilter : D.filter (· ≠ a) = D := filter_ne_of_not_mem (hd a (List.mem_cons_self ..))
      refine ih (by omega) (fun b hb => hd b (List.mem_cons_of_mem _ hb))
        (fun hmem => he (List.mem_cons_of_mem _ hmem)) ?_
      rcases hl with ⟨Z, rfl⟩ | ⟨y, Z, hy, rfl⟩
      · left
        obtain ⟨j, rfl⟩ : ∃ j, i = D.length + (j + 1) := ⟨i - D.length - 1, by omega⟩
        refine ⟨(Z.filter (· ≠ a)).insertIdx j a, ?_⟩
        rw [placeAt, List.filter_append, hfilter, List.filter_cons_of_pos (by simpa using hae),
          Containers.insertIdx_append_add, List.insertIdx_succ_cons]
      · obtain ⟨j, rfl⟩ : ∃ j, i = D.length + (j + 2) := ⟨i - D.length - 2, by omega⟩
        by_cases hya : y = a
        · left
          refine ⟨(Z.filter (· ≠ a)).insertIdx (j + 1) a, ?_⟩
          rw [placeAt, List.filter_append, hfilter, List.filter_cons_of_neg (by simpa using hya),
            List.filter_cons_of_pos (by simpa using hae), Containers.insertIdx_append_add,
            List.insertIdx_succ_cons]
        · right
          refine ⟨y, (Z.filter (· ≠ a)).insertIdx j a, hy, ?_⟩
          rw [placeAt, List.filter_append, hfilter, List.filter_cons_of_pos (by simpa using hya),
            List.filter_cons_of_pos (by simpa using hae), Containers.insertIdx_append_add,
            List.insertIdx_succ_cons, List.insertIdx_succ_cons]

/-- The elements that stand before the slot and are not placed before it. -/
def strays (p : Nat) (as A : List α) : List α := A.filter (· ∉ as.take p)

/-- All elements are placed before the slot but for what strays before it. -/
theorem placeFrom_take {p : Nat} {as A B : List α} {c : α} (has : as.Nodup) (hc : c ∉ as) :
    placeFrom 0 (as.take p) (A ++ c :: B) =
      as.take p ++ (strays p as A ++ c :: B.filter (· ∉ as.take p)) := by
  have hc' : c ∉ as.take p := fun hmem => hc (List.mem_of_mem_take hmem)
  have := @placeFrom_append _ _ [] (as.take p) (by simp) (has.sublist (List.take_sublist p as))
    (A ++ c :: B)
  rw [List.filter_append, List.filter_cons_of_pos (by simpa using hc')] at this
  simpa [strays] using this

/-- The slot is at its place, and the elements behind it follow in their order. -/
theorem placeFrom_drop {p : Nat} {as B : List α} {c : α} (hp : p ≤ as.length) (has : as.Nodup) (hc : c ∉ as)
    (hall : ∀ a ∈ B, a ∈ as) :
    placeFrom (p + 1) (as.drop p) (as.take p ++ c :: B.filter (· ∉ as.take p)) = as.take p ++ c :: as.drop p := by
  have hlen : p + 1 = (as.take p ++ [c]).length := by
    rw [List.length_append, List.length_take_of_le hp, List.length_singleton]
  have hsplit := has
  rw [← List.take_append_drop p as, List.nodup_append] at hsplit
  obtain ⟨-, hdrop, hdisjoint⟩ := hsplit
  have hd : ∀ a ∈ as.drop p, a ∉ as.take p ++ [c] := by
    intro a ha hmem
    rcases List.mem_append.mp hmem with hmem | hmem
    · exact hdisjoint a hmem a ha rfl
    · exact hc (List.mem_singleton.mp hmem ▸ List.mem_of_mem_drop ha)
  have hnone : (B.filter (· ∉ as.take p)).filter (· ∉ as.drop p) = [] := by
    refine List.filter_eq_nil_iff.mpr fun a ha => ?_
    obtain ⟨ha, htake⟩ := List.mem_filter.mp ha
    have hmem := hall a ha
    rw [← List.take_append_drop p as, List.mem_append] at hmem
    simpa using hmem.resolve_left (by simpa using htake)
  have := placeFrom_append hd hdrop (B.filter (· ∉ as.take p))
  rw [← hlen, hnone] at this
  simpa using this

/-- **Placing around a slot.** All other elements being placed, the slot ends at its index with the placed
elements around it exactly if no element strays before it, or only the one that is placed next. -/
theorem placeAround_slot_iff {p : Nat} {as A B : List α} {c : α} (hp : p ≤ as.length) (has : as.Nodup)
    (hc : c ∉ as) (hnodup : (A ++ B).Nodup) (hall : ∀ a ∈ A ++ B, a ∈ as) :
    placeAround p 0 as (A ++ c :: B) = as.take p ++ c :: as.drop p ↔
      strays p as A = [] ∨ ∃ e, strays p as A = [e] ∧ as[p]? = some e := by
  have hallB : ∀ a ∈ B, a ∈ as := fun a ha => hall a (List.mem_append_right _ ha)
  have hlen : (as.take p).length = p := List.length_take_of_le hp
  rw [placeAround_eq p hp, placeFrom_take has hc]
  cases hstrays : strays p as A with
  | nil => simpa using placeFrom_drop hp has hc hallB
  | cons x rest =>
      have hmemStrays : ∀ a ∈ x :: rest, a ∈ A ∧ a ∉ as.take p := by
        intro a ha
        rw [← hstrays, strays, List.mem_filter] at ha
        simpa using ha
      obtain ⟨hxA, hxtake⟩ := hmemStrays x (List.mem_cons_self ..)
      have hxc : x ≠ c := fun heq => hc (heq ▸ hall x (List.mem_append_left _ hxA))
      have hstraysNodup : (x :: rest).Nodup := by
        rw [← hstrays]
        exact (hnodup.sublist (List.sublist_append_left A B)).sublist List.filter_sublist
      -- an element strays, so an element is placed next
      have hxdrop : x ∈ as.drop p := by
        have hmem := hall x (List.mem_append_left _ hxA)
        rw [← List.take_append_drop p as, List.mem_append] at hmem
        exact hmem.resolve_left hxtake
      cases hdrop : as.drop p with
      | nil => rw [hdrop] at hxdrop; simp at hxdrop
      | cons e later =>
          have hget : as[p]? = some e := by
            rw [← List.head?_drop, hdrop, List.head?_cons]
          have hsplit := has
          rw [← List.take_append_drop p as, hdrop, List.nodup_append] at hsplit
          obtain ⟨-, hlater, hdisjoint⟩ := hsplit
          obtain ⟨helater, hlaterNodup⟩ := List.nodup_cons.mp hlater
          have hetake : e ∉ as.take p := fun hmem => hdisjoint e hmem e (List.mem_cons_self ..) rfl
          have hec : e ≠ c := fun heq => hc (heq ▸ List.mem_of_getElem? hget)
          have hd : ∀ a ∈ later, a ∉ as.take p := fun a ha hmem =>
            hdisjoint a hmem a (List.mem_cons_of_mem _ ha) rfl
          have hstuck : ∀ y Z, y ≠ c → placeFrom (p + 1 + 1) later (as.take p ++ y :: e :: Z) ≠
              as.take p ++ c :: e :: later := fun y Z hy =>
            placeFrom_ne_slot (by omega) hd helater hec (Or.inr ⟨y, Z, hy, rfl⟩) _
          rw [hget, placeFrom, List.cons_append]
          by_cases hex : e = x
          · subst hex
            cases rest with
            | nil =>
                -- the stray is placed behind the slot, as if it had not been before it
                have hplace := placeFrom_drop hp has hc hallB
                rw [hdrop, placeFrom] at hplace
                have heq : placeAt (p + 1) e (as.take p ++ e :: c :: B.filter (· ∉ as.take p)) =
                    placeAt (p + 1) e (as.take p ++ c :: B.filter (· ∉ as.take p)) := by
                  rw [placeAt, placeAt, List.filter_append, List.filter_cons_of_neg (by simp),
                    ← List.filter_append]
                rw [List.nil_append, heq, hplace]
                simp
            | cons y rest =>
                have hye : y ≠ e := fun heq => (List.nodup_cons.mp hstraysNodup).1 (heq ▸ List.mem_cons_self ..)
                have hyc : y ≠ c := fun heq => hc (heq ▸ hall y (List.mem_append_left _
                  (hmemStrays y (List.mem_cons_of_mem _ (List.mem_cons_self ..))).1))
                have heq : placeAt (p + 1) e (as.take p ++ e :: (y :: rest ++ c :: B.filter (· ∉ as.take p))) =
                    placeAt (p + 1) e (as.take p ++ y :: (rest ++ c :: B.filter (· ∉ as.take p))) := by
                  rw [placeAt, placeAt, List.filter_append, List.filter_cons_of_neg (by simp),
                    ← List.filter_append]
                  rfl
                have hplace := placeAt_append_succ hetake hye (rest ++ c :: B.filter (· ∉ as.take p))
                rw [hlen] at hplace
                rw [heq, hplace]
                simpa using hstuck y _ hyc
          · have hplace := placeAt_append_succ hetake (Ne.symm hex) (rest ++ c :: B.filter (· ∉ as.take p))
            rw [hlen] at hplace
            rw [hplace]
            simp only [hstuck x _ hxc, false_iff, not_or]
            refine ⟨List.cons_ne_nil _ _, ?_⟩
            rintro ⟨e', he', hee'⟩
            exact hex ((Option.some.inj hee').trans (List.cons.inj he').1.symm)

end Placing
