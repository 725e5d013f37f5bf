import YaqtLib.Containers

/-! Keys are taken out of a list of different keys by ranges of neighbouring places. The keys to take out come
one by one, and the range collected so far is removed when the next key has its place further in front. One
number stands for a place that is not set yet, and may be the number of a place all the same. -/

namespace Containers

variable {κ : Type} [DecidableEq κ]

/-- The places of keys, in the order of the keys; keys that are not in the rows have none. -/
def places (rows keys : List κ) : List Nat := keys.filterMap rows.idxOf?

/-- A range may be empty. -/
def dropRange (rows : List κ) (first last : Nat) : List κ :=
  if first ≤ last then eraseRange rows first last else rows

/-- The loop over the keys with the range collected so far; `unset` stands for a place not set yet. -/
def sweep (unset : Nat) : List κ → List κ → Nat → Nat → List κ
  | rows, [], first, last => if first ≠ unset ∧ last ≠ unset then dropRange rows first last else rows
  | rows, key :: rest, first, last =>
      match rows.idxOf? key with
      | none => sweep unset rows rest first last
      | some place =>
          let last := if last = unset then place else last
          let first := if first = unset then place else first
          if place + 1 < first then sweep unset (dropRange rows first last) rest place place
          else sweep unset rows rest place last

omit [DecidableEq κ] in
/-- Two lists of members of a third whose images are the same, where no two members have the same image. -/
theorem eq_of_map_eq {α : Type} {f : α → κ} {l l₁ l₂ : List α} (hd : (l.map f).Nodup) (h₁ : l₁ ⊆ l) (h₂ : l₂ ⊆ l)
    (h : l₁.map f = l₂.map f) : l₁ = l₂ := by
  have hlen : l₁.length = l₂.length := by simpa using congrArg List.length h
  refine List.ext_getElem hlen fun i hi hi' => ?_
  have hf : f l₁[i] = f l₂[i] := by
    have hget := congrArg (fun image => image[i]?) h
    simpa [List.getElem?_map, hi, hi'] using hget
  exact List.inj_on_of_nodup_map hd (h₁ (List.getElem_mem hi)) (h₂ (List.getElem_mem hi')) hf

/-! ### Places -/

theorem idxOf?_eq_some_iff_of_nodup {rows : List κ} (hd : rows.Nodup) {key : κ} {place : Nat} :
    rows.idxOf? key = some place ↔ rows[place]? = some key := by
  rw [List.idxOf?_eq_some_iff]
  constructor
  · rintro ⟨hlt, hkey, -⟩
    rw [List.getElem?_eq_getElem hlt, hkey]
  · intro hget
    obtain ⟨hlt, hkey⟩ := List.getElem?_eq_some_iff.mp hget
    refine ⟨hlt, hkey, fun j hj heq => ?_⟩
    have := (List.getElem_inj hd).mp (heq.trans hkey.symm)
    omega

theorem mem_places {rows keys : List κ} (hd : rows.Nodup) {place : Nat} :
    place ∈ places rows keys ↔ ∃ key ∈ keys, rows[place]? = some key := by
  rw [places, List.mem_filterMap]
  exact exists_congr fun key => and_congr_right fun _ => idxOf?_eq_some_iff_of_nodup hd

theorem places_cons_none {rows rest : List κ} {key : κ} (h : rows.idxOf? key = none) :
    places rows (key :: rest) = places rows rest :=
  List.filterMap_cons_none h

theorem places_cons_some {rows rest : List κ} {key : κ} {place : Nat} (h : rows.idxOf? key = some place) :
    places rows (key :: rest) = place :: places rows rest :=
  List.filterMap_cons_some h

/-- A key of the rows is one of the keys if its place is one of theirs. -/
theorem mem_keys_iff {rows keys : List κ} (hd : rows.Nodup) {place : Nat} {x : κ} (hx : rows[place]? = some x) :
    x ∈ keys ↔ place ∈ places rows keys := by
  rw [mem_places hd]
  constructor
  · exact fun hmem => ⟨x, hmem, hx⟩
  · rintro ⟨key, hmem, hkey⟩
    rwa [Option.some.inj (hx.symm.trans hkey)]

/-! ### Ranges -/

/-- The rows of a range. -/
def rangeOf (rows : List κ) (first last : Nat) : List κ := (rows.drop first).take (last + 1 - first)

omit [DecidableEq κ] in
theorem mem_rangeOf {rows : List κ} (hd : rows.Nodup) {first last place : Nat} {x : κ} (hx : rows[place]? = some x) :
    x ∈ rangeOf rows first last ↔ first ≤ place ∧ place ≤ last := by
  obtain ⟨hlt, hget⟩ := List.getElem?_eq_some_iff.mp hx
  rw [rangeOf, List.mem_iff_getElem?]
  constructor
  · rintro ⟨i, hi⟩
    rw [List.getElem?_take] at hi
    split_ifs at hi with hin
    rw [List.getElem?_drop] at hi
    obtain ⟨hlt', hget'⟩ := List.getElem?_eq_some_iff.mp hi
    have := (List.getElem_inj hd).mp (hget.trans hget'.symm)
    omega
  · rintro ⟨hfirst, hlast⟩
    refine ⟨place - first, ?_⟩
    rw [List.getElem?_take, if_pos (by omega), List.getElem?_drop, show first + (place - first) = place by omega, hx]

theorem eraseRange_eq_filter {rows : List κ} (hd : rows.Nodup) {first last : Nat} (h : first ≤ last) :
    eraseRange rows first last = rows.filter fun x => x ∉ rangeOf rows first last := by
  have hsplit : rows = rows.take first ++ (rangeOf rows first last ++ rows.drop (last + 1)) := eq_append_range rows h
  have hd' := hd
  rw [hsplit] at hd'
  obtain ⟨-, hrest, hfront⟩ := List.nodup_append.mp hd'
  obtain ⟨-, -, hback⟩ := List.nodup_append.mp hrest
  have hpre : (rows.take first).filter (fun x => x ∉ rangeOf rows first last) = rows.take first := by
    refine List.filter_eq_self.mpr fun x hx => decide_eq_true fun hmem => ?_
    exact hfront x hx x (List.mem_append_left _ hmem) rfl
  have hpost : (rows.drop (last + 1)).filter (fun x => x ∉ rangeOf rows first last) = rows.drop (last + 1) :=
    List.filter_eq_self.mpr fun x hx => decide_eq_true fun hmem => hback x hmem x hx rfl
  have hmid : (rangeOf rows first last).filter (fun x => x ∉ rangeOf rows first last) = [] :=
    List.filter_eq_nil_iff.mpr fun x hx => by simpa using hx
  calc eraseRange rows first last
      = (rows.take first ++ (rangeOf rows first last ++ rows.drop (last + 1))).filter
          (fun x => x ∉ rangeOf rows first last) := by
        rw [List.filter_append, List.filter_append, hpre, hmid, hpost, List.nil_append, eraseRange]
    _ = rows.filter (fun x => x ∉ rangeOf rows first last) := congrArg _ hsplit.symm

theorem mem_eraseRange {rows : List κ} (hd : rows.Nodup) {first last place : Nat} (h : first ≤ last) {x : κ}
    (hx : rows[place]? = some x) : x ∈ eraseRange rows first last ↔ ¬(first ≤ place ∧ place ≤ last) := by
  rw [eraseRange_eq_filter hd h, List.mem_filter, decide_eq_true_iff, mem_rangeOf hd hx,
    and_iff_right (List.mem_of_getElem? hx)]

omit [DecidableEq κ] in
theorem rangeOf_self {rows : List κ} {place : Nat} {key : κ} (h : rows[place]? = some key) :
    rangeOf rows place place = [key] := by
  obtain ⟨hlt, hget⟩ := List.getElem?_eq_some_iff.mp h
  rw [rangeOf, List.drop_eq_getElem_cons hlt, hget, Nat.add_sub_cancel_left, List.take_one]
  rfl

/-- What is left of the rows when a range and the keys to come are gone. -/
def remains (rows keys : List κ) (first last : Nat) : List κ :=
  (eraseRange rows first last).filter fun x => x ∉ keys

theorem remains_eq_filter {rows : List κ} (hd : rows.Nodup) (keys : List κ) {first last : Nat} (h : first ≤ last) :
    remains rows keys first last = rows.filter fun x => x ∉ rangeOf rows first last ∧ x ∉ keys := by
  rw [remains, eraseRange_eq_filter hd h, List.filter_filter]
  refine List.filter_congr fun x _ => ?_
  rw [Bool.and_comm, ← Bool.decide_and]

theorem mem_remains {rows : List κ} (hd : rows.Nodup) (keys : List κ) {first last place : Nat} (h : first ≤ last)
    {x : κ} (hx : rows[place]? = some x) :
    x ∈ remains rows keys first last ↔ ¬(first ≤ place ∧ place ≤ last) ∧ place ∉ places rows keys := by
  rw [remains_eq_filter hd keys h, List.mem_filter, decide_eq_true_iff, mem_rangeOf hd hx,
    and_iff_right (List.mem_of_getElem? hx), mem_keys_iff hd hx]

/-- Two ways to say what remains are compared place by place. -/
theorem remains_eq_iff {rows : List κ} (hd : rows.Nodup) {keys keys' : List κ} {first last first' last' : Nat}
    (h : first ≤ last) (h' : first' ≤ last') :
    remains rows keys first last = remains rows keys' first' last' ↔
      ∀ place < rows.length, (first ≤ place ∧ place ≤ last ∨ place ∈ places rows keys) ↔
        (first' ≤ place ∧ place ≤ last' ∨ place ∈ places rows keys') := by
  constructor
  · intro heq place hlt
    have hx : rows[place]? = some rows[place] := List.getElem?_eq_getElem hlt
    have hmem := mem_remains hd keys h hx
    rw [heq, mem_remains hd keys' h' hx] at hmem
    tauto
  · intro heq
    rw [remains_eq_filter hd keys h, remains_eq_filter hd keys' h']
    refine List.filter_congr fun x hx => decide_eq_decide.mpr ?_
    obtain ⟨place, hplace⟩ := List.mem_iff_getElem?.mp hx
    have := heq place (List.getElem?_eq_some_iff.mp hplace).1
    rw [mem_rangeOf hd hplace, mem_rangeOf hd hplace, mem_keys_iff hd hplace, mem_keys_iff hd hplace]
    tauto

/-- A range of one row is a key. -/
theorem remains_self {rows : List κ} (hd : rows.Nodup) (keys : List κ) {place : Nat} {key : κ}
    (h : rows[place]? = some key) : remains rows keys place place = rows.filter fun x => x ∉ key :: keys := by
  rw [remains_eq_filter hd keys (Nat.le_refl _), rangeOf_self h]
  refine List.filter_congr fun x _ => decide_eq_decide.mpr ?_
  rw [List.mem_singleton, List.mem_cons, not_or]

omit [DecidableEq κ] in
theorem getElem?_eraseRange {rows : List κ} {first last place : Nat} (hplace : place < first)
    (hlen : first ≤ rows.length) : (eraseRange rows first last)[place]? = rows[place]? := by
  rw [eraseRange, List.getElem?_append_left (by rw [List.length_take]; omega), List.getElem?_take, if_pos hplace]

/-- The keys in front of a range keep their places when it is removed. -/
theorem places_eraseRange {rows keys : List κ} (hd : rows.Nodup) {first last : Nat} (h : first ≤ last)
    (hlen : first ≤ rows.length) (hfront : ∀ place ∈ places rows keys, place < first) :
    places (eraseRange rows first last) keys = places rows keys := by
  have hd' : (eraseRange rows first last).Nodup := hd.sublist (eraseRange_sublist rows h)
  refine List.filterMap_congr fun key hkey => ?_
  cases hplace : rows.idxOf? key with
  | none =>
      rw [List.idxOf?_eq_none_iff] at hplace ⊢
      exact fun hmem => hplace ((eraseRange_sublist rows h).subset hmem)
  | some place =>
      have hlt := hfront place (List.mem_filterMap.mpr ⟨key, hkey, hplace⟩)
      rw [idxOf?_eq_some_iff_of_nodup hd']
      rw [idxOf?_eq_some_iff_of_nodup hd] at hplace
      rw [getElem?_eraseRange hlt hlen, hplace]

/-! ### Keys in the order of the rows, from the end -/

section Descending

variable {unset : Nat} {rows keys : List κ} {first last : Nat}

/-- One step of the loop at a key of the rows, with a range collected so far. -/
theorem sweep_cons {key : κ} {place : Nat} (hkey : rows.idxOf? key = some place) (rest : List κ)
    (hfirst : first ≠ unset) (hlast : last ≠ unset) (hle : first ≤ last) :
    sweep unset rows (key :: rest) first last =
      if place + 1 < first then sweep unset (eraseRange rows first last) rest place place
      else sweep unset rows rest place last := by
  rw [sweep, hkey]
  dsimp only
  rw [if_neg hlast, if_neg hfirst, dropRange, if_pos hle]

theorem sweep_cons_none {key : κ} (hkey : rows.idxOf? key = none) (rest : List κ) (first last : Nat) :
    sweep unset rows (key :: rest) first last = sweep unset rows rest first last := by
  rw [sweep, hkey]

theorem remains_cons_none {key : κ} (hkey : rows.idxOf? key = none) (hd : rows.Nodup) (rest : List κ)
    (hle : first ≤ last) : remains rows (key :: rest) first last = remains rows rest first last := by
  rw [remains_eq_iff hd hle hle, places_cons_none hkey]
  exact fun _ _ => Iff.rfl

/-- A key of the range changes nothing. -/
theorem remains_cons_same {key : κ} {place : Nat} (hkey : rows.idxOf? key = some place) (hd : rows.Nodup)
    (rest : List κ) (hle : first ≤ last) (hfirst : first ≤ place) (hlast : place ≤ last) :
    remains rows (key :: rest) first last = remains rows rest first last := by
  rw [remains_eq_iff hd hle hle, places_cons_some hkey]
  intro p _
  rw [List.mem_cons, ← or_assoc]
  exact or_congr_left (by omega)

/-- A key just in front of the range joins it. -/
theorem remains_cons_next {key : κ} {place : Nat} (hkey : rows.idxOf? key = some place) (hd : rows.Nodup)
    (rest : List κ) (hle : first ≤ last) (hplace : place ≤ first) (hnext : first ≤ place + 1) :
    remains rows (key :: rest) first last = remains rows rest place last := by
  rw [remains_eq_iff hd hle (by omega), places_cons_some hkey]
  intro p _
  rw [List.mem_cons, ← or_assoc]
  exact or_congr_left (by omega)

/-- The range that is collected goes, and the key begins the next one. -/
theorem remains_cons_gap {key : κ} {place : Nat} (hkey : rows.idxOf? key = some place) (hd : rows.Nodup)
    (rest : List κ) (hle : first ≤ last) (hlast : last < rows.length) (hgap : place < first) :
    remains (eraseRange rows first last) rest place place = remains rows (key :: rest) first last := by
  have hd' : (eraseRange rows first last).Nodup := hd.sublist (eraseRange_sublist rows hle)
  refine remains_self hd' rest ?_
  rw [getElem?_eraseRange hgap (by omega)]
  exact (idxOf?_eq_some_iff_of_nodup hd).mp hkey

/-- While no key has its place at the number that stands for no place, the loop is right. -/
theorem sweep_eq_remains (hd : rows.Nodup) (hunset : unset ∉ first :: places rows keys) (hlast : last ≠ unset)
    (hle : first ≤ last) (hlen : last < rows.length) (hdesc : (first :: places rows keys).Pairwise (· ≥ ·)) :
    sweep unset rows keys first last = remains rows keys first last := by
  induction keys generalizing rows first last with
  | nil =>
      have hfirst : first ≠ unset := fun heq => hunset (heq ▸ List.mem_cons_self ..)
      rw [sweep, if_pos ⟨hfirst, hlast⟩, dropRange, if_pos hle, remains, List.filter_eq_self.mpr fun _ _ => by simp]
  | cons key rest ih =>
      cases hkey : rows.idxOf? key with
      | none =>
          rw [places_cons_none hkey] at hunset hdesc
          rw [sweep_cons_none hkey, remains_cons_none hkey hd rest hle]
          exact ih hd hunset hlast hle hlen hdesc
      | some place =>
          rw [places_cons_some hkey] at hunset hdesc
          obtain ⟨hfirst, hunset'⟩ := not_or.mp (List.mem_cons.not.mp hunset)
          obtain ⟨hhead, hdesc'⟩ := List.pairwise_cons.mp hdesc
          obtain ⟨hplace, hrest⟩ := List.pairwise_cons.mp hdesc'
          have hplacefirst : place ≤ first := hhead place (List.mem_cons_self ..)
          have hne : place ≠ unset := fun heq => hunset' (heq ▸ List.mem_cons_self ..)
          rw [sweep_cons hkey rest (Ne.symm hfirst) hlast hle]
          split_ifs with hgap
          · have hplaces : places (eraseRange rows first last) rest = places rows rest :=
              places_eraseRange hd hle (by omega) fun p hp => Nat.lt_of_le_of_lt (hplace p hp) (by omega)
            have hlt : place < (eraseRange rows first last).length := by
              rw [eraseRange, List.length_append, List.length_take]
              omega
            rw [← remains_cons_gap hkey hd rest hle hlen (by omega)]
            refine ih (hd.sublist (eraseRange_sublist rows hle)) ?_ hne (Nat.le_refl _) hlt ?_
            · rwa [hplaces]
            · rwa [hplaces]
          · rw [ih hd hunset' hlast (by omega) hlen hdesc', remains_cons_next hkey hd rest hle hplacefirst (by omega)]

/-- A place whose number stands for no place is forgotten where the range consists of it alone. -/
theorem mem_sweep_unset (hd : rows.Nodup) {x : κ} (hx : rows[unset]? = some x)
    (hdesc : (unset :: places rows keys).Pairwise (· ≥ ·)) : x ∈ sweep unset rows keys unset unset := by
  induction keys with
  | nil =>
      rw [sweep, if_neg fun h => h.1 rfl]
      exact List.mem_of_getElem? hx
  | cons key rest ih =>
      cases hkey : rows.idxOf? key with
      | none =>
          rw [places_cons_none hkey] at hdesc
          rw [sweep_cons_none hkey]
          exact ih hdesc
      | some place =>
          rw [places_cons_some hkey] at hdesc
          obtain ⟨hhead, hdesc'⟩ := List.pairwise_cons.mp hdesc
          have hle : place ≤ unset := hhead place (List.mem_cons_self ..)
          rw [sweep, hkey]
          dsimp only
          rw [if_pos rfl, if_neg (by omega)]
          rcases Nat.lt_or_eq_of_le hle with hlt | rfl
          · have hunset : unset ∉ place :: places rows rest := by
              rintro (_ | ⟨_, hmem⟩)
              · exact Nat.lt_irrefl _ hlt
              · exact Nat.not_le.mpr hlt ((List.pairwise_cons.mp hdesc').1 unset hmem)
            have hlen := (List.getElem?_eq_some_iff.mp hx).1
            rw [sweep_eq_remains hd hunset (Nat.ne_of_lt hlt) (Nat.le_refl _) (by omega) hdesc',
              mem_remains hd _ (Nat.le_refl _) hx]
            exact ⟨by omega, fun hmem => hunset (List.mem_cons_of_mem _ hmem)⟩
          · exact ih hdesc'

/-- A range whose front has reached the number that stands for no place: the next row must be a key as well, for the
range is then continued at the next key whatever lies between. -/
theorem sweep_at_unset (hd : rows.Nodup) (hlast : unset < last) (hlen : last < rows.length)
    (hdesc : (unset :: places rows keys).Pairwise (· ≥ ·)) :
    sweep unset rows keys unset last = remains rows keys unset last ↔ ∃ place ∈ places rows keys, place + 1 = unset := by
  induction keys with
  | nil =>
      rw [sweep, if_neg fun h => h.1 rfl]
      refine iff_of_false (fun heq => ?_) (by simp [places])
      have hx : rows[unset]? = some rows[unset] := List.getElem?_eq_getElem (by omega)
      have hmem := (mem_remains hd [] (Nat.le_of_lt hlast) hx).not.mpr fun h => h.1 ⟨Nat.le_refl _, Nat.le_of_lt hlast⟩
      rw [← heq] at hmem
      exact hmem (List.mem_of_getElem? hx)
  | cons key rest ih =>
      cases hkey : rows.idxOf? key with
      | none =>
          rw [places_cons_none hkey] at hdesc ⊢
          rw [sweep_cons_none hkey, remains_cons_none hkey hd rest (Nat.le_of_lt hlast)]
          exact ih hdesc
      | some place =>
          rw [places_cons_some hkey] at hdesc ⊢
          obtain ⟨hhead, hdesc'⟩ := List.pairwise_cons.mp hdesc
          have hle : place ≤ unset := hhead place (List.mem_cons_self ..)
          have hrest := (List.pairwise_cons.mp hdesc').1
          rw [sweep, hkey]
          dsimp only
          rw [if_pos rfl, if_neg (Nat.ne_of_gt hlast), if_neg (by omega)]
          rcases Nat.lt_or_eq_of_le hle with hlt | rfl
          · have hunset : unset ∉ place :: places rows rest := by
              rintro (_ | ⟨_, hmem⟩)
              · exact Nat.lt_irrefl _ hlt
              · exact Nat.not_le.mpr hlt (hrest unset hmem)
            rw [sweep_eq_remains hd hunset (by omega) (by omega) hlen hdesc',
              remains_eq_iff hd (by omega) (Nat.le_of_lt hlast), places_cons_some hkey]
            constructor
            · intro heq
              by_contra hnext
              have hgap : place + 1 < unset := by
                have : place + 1 ≠ unset := fun h => hnext ⟨place, List.mem_cons_self .., h⟩
                omega
              have hmem := (heq (place + 1) (by omega)).mp (Or.inl (by omega))
              rcases hmem with hin | hin
              · omega
              · rcases List.mem_cons.mp hin with heq' | hin
                · omega
                · exact absurd (hrest _ hin) (by omega)
            · rintro ⟨next, hnext, hsucc⟩ p _
              have : next = place := by
                rcases List.mem_cons.mp hnext with heq | hin
                · exact heq
                · have := hrest next hin
                  omega
              rw [List.mem_cons, ← or_assoc]
              exact or_congr_left (by omega)
          · rw [remains_cons_same hkey hd rest (Nat.le_of_lt hlast) (Nat.le_refl _) (Nat.le_of_lt hlast), ih hdesc']
            refine exists_congr fun next => and_congr_left fun hnext => ?_
            rw [List.mem_cons]
            exact (or_iff_right (by omega)).symm

/-- Both neighbours of the number that stands for no place are among the places if it is one of them itself. -/
def UnsetAmongNeighbours (unset : Nat) (ps : List Nat) : Prop :=
  unset ∈ ps → unset + 1 ∈ ps ∧ ∃ place ∈ ps, place + 1 = unset

/-- A place behind another one that is not the number in question. -/
theorem unsetAmongNeighbours_cons {place : Nat} {ps : List Nat} (hfirst : first ≠ unset) (hplace : place ≠ unset)
    (hdesc : (first :: place :: ps).Pairwise (· ≥ ·)) :
    UnsetAmongNeighbours unset (first :: place :: ps) ↔ UnsetAmongNeighbours unset (place :: ps) := by
  obtain ⟨hhead, hdesc'⟩ := List.pairwise_cons.mp hdesc
  have hle : place ≤ first := hhead place (List.mem_cons_self ..)
  have hps := (List.pairwise_cons.mp hdesc').1
  rw [UnsetAmongNeighbours, UnsetAmongNeighbours, List.mem_cons, or_iff_right (Ne.symm hfirst)]
  refine imp_congr_right fun hmem => ?_
  have hlt : unset < place := by
    rcases List.mem_cons.mp hmem with heq | hin
    · exact absurd heq.symm hplace
    · exact Nat.lt_of_le_of_ne (hps unset hin) (Ne.symm hplace)
  refine and_congr ?_ ?_
  · rw [List.mem_cons, or_iff_right_of_imp]
    intro heq
    rw [show unset + 1 = place by omega]
    exact List.mem_cons_self
  · refine exists_congr fun next => and_congr_left fun hnext => ?_
    rw [List.mem_cons, or_iff_right (by omega)]

/-- With a range collected, its front counts as a place. -/
theorem sweep_eq_remains_iff (hd : rows.Nodup) (hfirst : first ≠ unset) (hlast : last ≠ unset) (hle : first ≤ last)
    (hlen : last < rows.length) (hdesc : (first :: places rows keys).Pairwise (· ≥ ·)) :
    sweep unset rows keys first last = remains rows keys first last ↔
      UnsetAmongNeighbours unset (first :: places rows keys) := by
  induction keys generalizing rows first last with
  | nil =>
      have hunset : unset ∉ first :: places rows [] := by simpa [places] using Ne.symm hfirst
      exact iff_of_true (sweep_eq_remains hd hunset hlast hle hlen hdesc) fun h => absurd h hunset
  | cons key rest ih =>
      cases hkey : rows.idxOf? key with
      | none =>
          rw [places_cons_none hkey] at hdesc ⊢
          rw [sweep_cons_none hkey, remains_cons_none hkey hd rest hle]
          exact ih hd hfirst hlast hle hlen hdesc
      | some place =>
          rw [places_cons_some hkey] at hdesc ⊢
          obtain ⟨hhead, hdesc'⟩ := List.pairwise_cons.mp hdesc
          obtain ⟨hplace, hrest⟩ := List.pairwise_cons.mp hdesc'
          have hplacefirst : place ≤ first := hhead place (List.mem_cons_self ..)
          have hget : rows[place]? = some key := (idxOf?_eq_some_iff_of_nodup hd).mp hkey
          rw [sweep_cons hkey rest hfirst hlast hle]
          by_cases hgap : place + 1 < first
          · have hd' := hd.sublist (eraseRange_sublist rows hle)
            have hplaces : places (eraseRange rows first last) rest = places rows rest :=
              places_eraseRange hd hle (by omega) fun p hp => Nat.lt_of_le_of_lt (hplace p hp) (by omega)
            have hget' : (eraseRange rows first last)[place]? = some key := by
              rw [getElem?_eraseRange (by omega) (by omega), hget]
            rw [if_pos hgap, ← remains_cons_gap hkey hd rest hle hlen (by omega)]
            rcases eq_or_ne place unset with rfl | hne
            · refine iff_of_false (fun heq => ?_) fun hcond => ?_
              · -- the new range is forgotten
                have hkept := @mem_sweep_unset _ _ _ _ rest hd' _ hget' (by rwa [hplaces])
                rw [heq, mem_remains hd' rest (Nat.le_refl _) hget'] at hkept
                omega
              · have hnext := (hcond (List.mem_cons_of_mem _ (List.mem_cons_self ..))).1
                rcases List.mem_cons.mp hnext with heq | hin
                · omega
                · rcases List.mem_cons.mp hin with heq | hin
                  · omega
                  · exact absurd (hplace _ hin) (by omega)
            · rw [ih hd' hne hne (Nat.le_refl _) (List.getElem?_eq_some_iff.mp hget').1 (by rwa [hplaces]), hplaces,
                unsetAmongNeighbours_cons hfirst hne hdesc]
          · rw [if_neg hgap, remains_cons_next hkey hd rest hle hplacefirst (by omega)]
            rcases eq_or_ne place unset with rfl | hne
            · rw [sweep_at_unset hd (by omega) hlen hdesc', UnsetAmongNeighbours]
              have hnext : first = place + 1 := by omega
              subst hnext
              constructor
              · rintro ⟨p, hp, hsucc⟩ _
                exact ⟨List.mem_cons_self, p, List.mem_cons_of_mem _ (List.mem_cons_of_mem _ hp), hsucc⟩
              · intro hcond
                obtain ⟨-, p, hp, hsucc⟩ := hcond (List.mem_cons_of_mem _ (List.mem_cons_self ..))
                rw [List.mem_cons, List.mem_cons, or_iff_right (by omega), or_iff_right (by omega)] at hp
                exact ⟨p, hp, hsucc⟩
            · rw [ih hd hne hlast (by omega) hlen hdesc', unsetAmongNeighbours_cons hfirst hne hdesc]

/-- Nothing is collected at first. -/
theorem sweep_eq_filter_iff (hd : rows.Nodup) (hdesc : (places rows keys).Pairwise (· ≥ ·)) :
    sweep unset rows keys unset unset = rows.filter (fun x => x ∉ keys) ↔
      UnsetAmongNeighbours unset (places rows keys) := by
  induction keys with
  | nil =>
      rw [sweep, if_neg fun h => h.1 rfl, List.filter_eq_self.mpr fun _ _ => by simp]
      exact iff_of_true rfl fun h => absurd h (by simp [places])
  | cons key rest ih =>
      cases hkey : rows.idxOf? key with
      | none =>
          rw [places_cons_none hkey] at hdesc ⊢
          have hfilter : rows.filter (fun x => x ∉ key :: rest) = rows.filter (fun x => x ∉ rest) := by
            refine List.filter_congr fun x hx => decide_eq_decide.mpr ?_
            have hne : x ≠ key := fun heq => List.idxOf?_eq_none_iff.mp hkey (heq ▸ hx)
            rw [List.mem_cons, or_iff_right hne]
          rw [sweep_cons_none hkey, hfilter]
          exact ih hdesc
      | some place =>
          rw [places_cons_some hkey] at hdesc ⊢
          have hget : rows[place]? = some key := (idxOf?_eq_some_iff_of_nodup hd).mp hkey
          have hlen := (List.getElem?_eq_some_iff.mp hget).1
          have hrest := (List.pairwise_cons.mp hdesc).1
          rw [sweep, hkey]
          dsimp only
          rw [if_pos rfl, if_neg (by omega), ← remains_self hd rest hget]
          rcases eq_or_ne place unset with rfl | hne
          · refine iff_of_false (fun heq => ?_) fun hcond => ?_
            · have hkept := mem_sweep_unset hd hget hdesc
              rw [heq, mem_remains hd rest (Nat.le_refl _) hget] at hkept
              omega
            · have hnext := (hcond (List.mem_cons_self ..)).1
              rcases List.mem_cons.mp hnext with heq | hin
              · omega
              · exact absurd (hrest _ hin) (by omega)
          · exact sweep_eq_remains_iff hd hne hne (Nat.le_refl _) hlen hdesc

end Descending

/-! ### Keys out of order -/

section Ascent

variable {unset : Nat} {rows keys : List κ} {first last : Nat}

/-- No place is the number that stands for no place, and none becomes it while at most `budget` rows go. -/
def FarFromUnset (unset budget : Nat) (ps : List Nat) : Prop := ∀ place ∈ ps, place < unset ∨ unset + budget ≤ place

/-- A removed range moves the places of the keys at most by its length. -/
theorem exists_place_before {place : Nat} (hd : rows.Nodup) (hle : first ≤ last) (hlen : first ≤ rows.length)
    (h : place ∈ places (eraseRange rows first last) keys) :
    ∃ before ∈ places rows keys, place ≤ before ∧ before ≤ place + (last + 1 - first) := by
  have hd' := hd.sublist (eraseRange_sublist rows hle)
  obtain ⟨key, hkey, hget⟩ := (mem_places hd').mp h
  rcases Nat.lt_or_ge place first with hlt | hge
  · rw [getElem?_eraseRange hlt hlen] at hget
    exact ⟨place, (mem_places hd).mpr ⟨key, hkey, hget⟩, by omega, by omega⟩
  · refine ⟨place + (last + 1 - first), (mem_places hd).mpr ⟨key, hkey, ?_⟩, by omega, Nat.le_refl _⟩
    rw [eraseRange, List.getElem?_append_right (by rw [List.length_take]; omega), List.getElem?_drop,
      List.length_take_of_le hlen] at hget
    rw [← hget]
    congr 1
    omega

theorem FarFromUnset.eraseRange {budget : Nat} (h : FarFromUnset unset budget (places rows keys)) (hd : rows.Nodup)
    (hle : first ≤ last) (hlen : first ≤ rows.length) :
    FarFromUnset unset (budget - (last + 1 - first)) (places (eraseRange rows first last) keys) := by
  intro place hplace
  obtain ⟨before, hbefore, hlow, hhigh⟩ := exists_place_before hd hle hlen hplace
  have := h before hbefore
  omega

/-- A row outside of the range that is collected stays, if its key does not come any more. -/
theorem mem_sweep_outside {budget place : Nat} (hd : rows.Nodup) (hfar : FarFromUnset unset budget (places rows keys))
    (hbudget : last + 1 - first + keys.length ≤ budget) (hfirst : first ≠ unset) (hlast : last ≠ unset)
    (hlen : last < rows.length) {x : κ} (hx : rows[place]? = some x) (hout : ¬(first ≤ place ∧ place ≤ last))
    (hkeys : x ∉ keys) : x ∈ sweep unset rows keys first last := by
  induction keys generalizing rows first last budget place with
  | nil =>
      rw [sweep, if_pos ⟨hfirst, hlast⟩, dropRange]
      split_ifs with hle
      · exact (mem_eraseRange hd hle hx).mpr hout
      · exact List.mem_of_getElem? hx
  | cons key rest ih =>
      obtain ⟨hxkey, hxrest⟩ := not_or.mp (List.mem_cons.not.mp hkeys)
      rw [List.length_cons] at hbudget
      cases hkey : rows.idxOf? key with
      | none =>
          rw [places_cons_none hkey] at hfar
          rw [sweep_cons_none hkey]
          exact ih hd hfar (by omega) hfirst hlast hlen hx hout hxrest
      | some p =>
          rw [places_cons_some hkey] at hfar
          have hget : rows[p]? = some key := (idxOf?_eq_some_iff_of_nodup hd).mp hkey
          have hp := hfar p (List.mem_cons_self ..)
          have hfar' : FarFromUnset unset budget (places rows rest) := fun q hq => hfar q (List.mem_cons_of_mem _ hq)
          have hpx : p ≠ place := fun heq => hxkey (Option.some.inj (hx.symm.trans (heq ▸ hget)))
          rw [sweep, hkey]
          dsimp only
          rw [if_neg hlast, if_neg hfirst]
          split_ifs with hgap
          · rw [dropRange]
            split_ifs with hle
            · have hd' := hd.sublist (eraseRange_sublist rows hle)
              have hget' : (eraseRange rows first last)[p]? = some key := by
                rw [getElem?_eraseRange (by omega) (by omega), hget]
              obtain ⟨q, hq⟩ := List.mem_iff_getElem?.mp ((mem_eraseRange hd hle hx).mpr hout)
              have hpq : p ≠ q := fun heq => hxkey (Option.some.inj (hq.symm.trans (heq ▸ hget')))
              refine ih hd' (hfar'.eraseRange hd hle (by omega)) (by omega) (by omega) (by omega) ?_ hq (by omega) hxrest
              exact (List.getElem?_eq_some_iff.mp hget').1
            · refine ih hd hfar' (by omega) (by omega) (by omega) ?_ hx (by omega) hxrest
              exact (List.getElem?_eq_some_iff.mp hget).1
          · exact ih hd hfar' (by omega) (by omega) hlast hlen hx (by omega) hxrest

/-- The keys behind a range do not come before it when it is removed. -/
theorem places_of_eraseRange_le {place : Nat} (hd : rows.Nodup) (hle : first ≤ last) (hlen : first ≤ rows.length)
    (hplace : place < first) (hrange : ∀ x ∈ rangeOf rows first last, x ∉ keys)
    (hbelow : ∀ p ∈ places (eraseRange rows first last) keys, p ≤ place) :
    places (eraseRange rows first last) keys = places rows keys := by
  have hd' := hd.sublist (eraseRange_sublist rows hle)
  refine places_eraseRange hd hle hlen fun p hp => ?_
  obtain ⟨key, hkey, hget⟩ := (mem_places hd).mp hp
  by_contra hge
  have hout : ¬(first ≤ p ∧ p ≤ last) := fun hin => hrange key ((mem_rangeOf hd hget).mpr hin) hkey
  obtain ⟨q, hq⟩ := List.mem_iff_getElem?.mp ((mem_eraseRange hd hle hget).mpr hout)
  have hqlt : q < first := Nat.lt_of_le_of_lt (hbelow q ((mem_places hd').mpr ⟨key, hkey, hq⟩)) hplace
  rw [getElem?_eraseRange hqlt hlen] at hq
  have := (@List.Nodup.getElem_inj_iff _ _ hd _ (List.getElem?_eq_some_iff.mp hq).1 _
    (List.getElem?_eq_some_iff.mp hget).1).mp
    ((List.getElem?_eq_some_iff.mp hq).2.trans (List.getElem?_eq_some_iff.mp hget).2.symm)
  omega

/-- If the loop takes out the range it has collected and all keys to come, they come in the order of the rows. -/
theorem places_descending {budget : Nat} (hd : rows.Nodup) (hfar : FarFromUnset unset budget (places rows keys))
    (hbudget : last + 1 - first + keys.length ≤ budget) (hfirst : first ≠ unset) (hlast : last ≠ unset)
    (hle : first ≤ last) (hlen : last < rows.length) (hkeys : keys.Nodup)
    (hrange : ∀ x ∈ rangeOf rows first last, x ∉ keys)
    (hgone : ∀ x ∈ sweep unset rows keys first last, x ∉ rangeOf rows first last ∧ x ∉ keys) :
    (first :: places rows keys).Pairwise (· ≥ ·) := by
  induction keys generalizing rows first last budget with
  | nil => exact List.pairwise_singleton _ _
  | cons key rest ih =>
      obtain ⟨hkeyrest, hkeys'⟩ := List.nodup_cons.mp hkeys
      have hrange' : ∀ x ∈ rangeOf rows first last, x ∉ rest := fun x hx hmem => hrange x hx (List.mem_cons_of_mem _ hmem)
      rw [List.length_cons] at hbudget
      cases hkey : rows.idxOf? key with
      | none =>
          rw [places_cons_none hkey] at hfar ⊢
          rw [sweep_cons_none hkey] at hgone
          exact ih hd hfar (by omega) hfirst hlast hle hlen hkeys' hrange' fun x hx =>
            ⟨(hgone x hx).1, fun hmem => (hgone x hx).2 (List.mem_cons_of_mem _ hmem)⟩
      | some place =>
          rw [places_cons_some hkey] at hfar ⊢
          have hget : rows[place]? = some key := (idxOf?_eq_some_iff_of_nodup hd).mp hkey
          have hp := hfar place (List.mem_cons_self ..)
          have hfar' : FarFromUnset unset budget (places rows rest) := fun q hq => hfar q (List.mem_cons_of_mem _ hq)
          rw [sweep_cons hkey rest hfirst hlast hle] at hgone
          have hplace : place ≤ first := by
            by_contra hascent
            rw [if_neg (by omega)] at hgone
            -- the row at the old front of the range is lost
            obtain ⟨x, hx⟩ : ∃ x, rows[first]? = some x := ⟨_, List.getElem?_eq_getElem (by omega)⟩
            have hin := (mem_rangeOf hd hx).mpr ⟨Nat.le_refl first, hle⟩
            have hbudget' : last + 1 - place + rest.length ≤ budget := by omega
            have hkept := mem_sweep_outside hd hfar' hbudget' (by omega) hlast hlen hx (by omega) (hrange' x hin)
            exact (hgone x hkept).1 hin
          suffices hrest : (place :: places rows rest).Pairwise (· ≥ ·) by
            refine List.pairwise_cons.mpr ⟨fun p hmem => ?_, hrest⟩
            rcases List.mem_cons.mp hmem with rfl | hin
            · exact hplace
            · exact Nat.le_trans ((List.pairwise_cons.mp hrest).1 p hin) hplace
          by_cases hgap : place + 1 < first
          · rw [if_pos hgap] at hgone
            have hd' := hd.sublist (eraseRange_sublist rows hle)
            have hget' : (eraseRange rows first last)[place]? = some key := by
              rw [getElem?_eraseRange (by omega) (by omega), hget]
            have hself := rangeOf_self hget'
            have hfar'' := hfar'.eraseRange hd hle (by omega)
            have hbudget' : place + 1 - place + rest.length ≤ budget - (last + 1 - first) := by omega
            have hdesc := ih hd' hfar'' hbudget' (by omega) (by omega) (Nat.le_refl _)
              (List.getElem?_eq_some_iff.mp hget').1 hkeys' (by rw [hself]; simpa using hkeyrest) fun x hx => by
                rw [hself, List.mem_singleton, ← not_or, ← List.mem_cons]
                exact (hgone x hx).2
            rwa [places_of_eraseRange_le hd hle (by omega) (by omega) hrange' (List.pairwise_cons.mp hdesc).1] at hdesc
          · rw [if_neg hgap] at hgone
            have hwider : ∀ x ∈ rangeOf rows place last, x = key ∨ x ∈ rangeOf rows first last := by
              intro x hx
              obtain ⟨p, hxp⟩ := List.mem_iff_getElem?.mp (List.mem_of_mem_drop (List.mem_of_mem_take hx))
              rw [mem_rangeOf hd hxp] at hx ⊢
              rcases eq_or_ne p place with rfl | hne
              · exact Or.inl (Option.some.inj (hxp.symm.trans hget))
              · exact Or.inr (by omega)
            refine ih hd hfar' (by omega) (by omega) hlast (by omega) hlen hkeys' (fun x hx => ?_) fun x hx => ?_
            · rcases hwider x hx with rfl | hin
              · exact hkeyrest
              · exact hrange' x hin
            · obtain ⟨hnotrange, hnotkeys⟩ := hgone x hx
              refine ⟨fun hin => ?_, fun hmem => hnotkeys (List.mem_cons_of_mem _ hmem)⟩
              rcases hwider x hin with rfl | hin
              · exact hnotkeys (List.mem_cons_self ..)
              · exact hnotrange hin

/-- If the loop takes out all keys and nothing else, they come in the order of the rows. -/
theorem places_descending_of_sweep (hd : rows.Nodup) (hkeys : keys.Nodup)
    (hfar : FarFromUnset unset keys.length (places rows keys))
    (hgone : ∀ x ∈ sweep unset rows keys unset unset, x ∉ keys) : (places rows keys).Pairwise (· ≥ ·) := by
  induction keys with
  | nil => exact List.Pairwise.nil
  | cons key rest ih =>
      obtain ⟨hkeyrest, hkeys'⟩ := List.nodup_cons.mp hkeys
      cases hkey : rows.idxOf? key with
      | none =>
          rw [places_cons_none hkey] at hfar ⊢
          rw [sweep_cons_none hkey] at hgone
          refine ih hkeys' (fun p hp => ?_) fun x hx hmem => hgone x hx (List.mem_cons_of_mem _ hmem)
          have := hfar p hp
          rw [List.length_cons] at this
          omega
      | some place =>
          rw [places_cons_some hkey] at hfar ⊢
          have hget : rows[place]? = some key := (idxOf?_eq_some_iff_of_nodup hd).mp hkey
          have hself := rangeOf_self hget
          have hp := hfar place (List.mem_cons_self ..)
          rw [List.length_cons] at hp
          rw [sweep, hkey] at hgone
          dsimp only at hgone
          rw [if_pos rfl, if_neg (by omega)] at hgone
          refine places_descending hd (fun p hp => hfar p (List.mem_cons_of_mem _ hp)) ?_ (by omega) (by omega)
            (Nat.le_refl _) (List.getElem?_eq_some_iff.mp hget).1 hkeys' (by rw [hself]; simpa using hkeyrest)
            fun x hx => ?_
          · rw [List.length_cons]
            omega
          · rw [hself, List.mem_singleton, ← not_or, ← List.mem_cons]
            exact hgone x hx

end Ascent

end Containers
