import Mathlib.Data.List.Pairwise
import YaqtLib.Splices

/-! Elements over a text: each encloses the part from a place to a later one between an opening and a closing tag. A
text with nested elements is written from pieces of it and from elements; what is written shows at each place between
two pieces the tags of the elements that end and of those that start there, and elements that nest can be put in an
order from which these are read. -/

namespace NestedElements

variable {α : Type}

structure Element (α : Type) where
  start : Nat
  stop : Nat
  opening : List α
  closing : List α
  lt : start < stop

/-- The opening tags at a place, of elements from the outer to the inner ones. -/
def openings (es : List (Element α)) (place : Nat) : List α :=
  (es.filter fun e => e.start = place).flatMap Element.opening

/-- The closing tags at a place, those of the inner elements first. -/
def closings (es : List (Element α)) (place : Nat) : List α :=
  (es.reverse.filter fun e => e.stop = place).flatMap Element.closing

def tags (es : List (Element α)) (place : Nat) : List α := closings es place ++ openings es place

/-- The elements lie between two places. -/
def Within (p r : Nat) (es : List (Element α)) : Prop := ∀ e ∈ es, p ≤ e.start ∧ e.stop ≤ r

/-- The second element starts no earlier, and it lies in the first one or behind it. -/
def Follows (d e : Element α) : Prop := d.start ≤ e.start ∧ (e.stop ≤ d.stop ∨ d.stop ≤ e.start)

/-- The part of a text between two places, written from pieces and from elements with what they enclose. The elements
are listed as they start. -/
inductive Written (Piece : Nat → Nat → List α → Prop) : Nat → Nat → List (Element α) → List α → Prop where
  | nil (p : Nat) : Written Piece p p [] []
  | piece {p q r : Nat} {es : List (Element α)} {s s' : List α} :
      Piece p q s → Written Piece q r es s' → Written Piece p r es (s ++ s')
  | element {e : Element α} {r : Nat} {inner after : List (Element α)} {s s' : List α} :
      Written Piece e.start e.stop inner s → Written Piece e.stop r after s' →
        Written Piece e.start r (e :: (inner ++ after)) (e.opening ++ s ++ e.closing ++ s')

/-! ### The tags at a place -/

theorem openings_append (es es' : List (Element α)) (place : Nat) :
    openings (es ++ es') place = openings es place ++ openings es' place := by
  rw [openings, List.filter_append, List.flatMap_append, openings, openings]

theorem closings_append (es es' : List (Element α)) (place : Nat) :
    closings (es ++ es') place = closings es' place ++ closings es place := by
  rw [closings, List.reverse_append, List.filter_append, List.flatMap_append, closings, closings]

theorem openings_eq_nil {es : List (Element α)} {place : Nat} (h : ∀ e ∈ es, e.start ≠ place) :
    openings es place = [] := by
  rw [openings, List.filter_eq_nil_iff.mpr fun e he => by simpa using h e he, List.flatMap_nil]

theorem closings_eq_nil {es : List (Element α)} {place : Nat} (h : ∀ e ∈ es, e.stop ≠ place) :
    closings es place = [] := by
  have hnone : ∀ e ∈ es.reverse, ¬ decide (e.stop = place) = true := fun e he => by
    simpa using h e (List.mem_reverse.mp he)
  rw [closings, List.filter_eq_nil_iff.mpr hnone, List.flatMap_nil]

variable {p q r m : Nat} {es es' : List (Element α)}

theorem Within.openings_eq_nil (h : Within p r es) {place : Nat} (hplace : place < p ∨ r ≤ place) :
    openings es place = [] := by
  refine NestedElements.openings_eq_nil fun e he => ?_
  have hin := h e he
  have hlt := e.lt
  omega

theorem Within.closings_eq_nil (h : Within p r es) {place : Nat} (hplace : place ≤ p ∨ r < place) :
    closings es place = [] := by
  refine NestedElements.closings_eq_nil fun e he => ?_
  have hin := h e he
  have hlt := e.lt
  omega

theorem Within.tags_eq_nil (h : Within p r es) {place : Nat} (hplace : place < p ∨ r < place) : tags es place = [] := by
  rw [tags, h.closings_eq_nil (by omega), h.openings_eq_nil (by omega), List.append_nil]

/-- Elements in front of a place and behind it: there the closing tags of the first stand in front of the opening tags
of the second. -/
theorem tags_append (h : Within p m es) (h' : Within m r es') (place : Nat) :
    tags (es ++ es') place = tags es place ++ tags es' place := by
  rw [tags, openings_append, closings_append, tags, tags]
  rcases lt_trichotomy place m with hlt | rfl | hlt
  · rw [h'.closings_eq_nil (Or.inl hlt.le), h'.openings_eq_nil (Or.inl hlt)]
    simp only [List.nil_append, List.append_nil]
  · rw [h'.closings_eq_nil (Or.inl le_rfl), h.openings_eq_nil (Or.inr le_rfl)]
    simp only [List.nil_append, List.append_nil]
  · rw [h.closings_eq_nil (Or.inr hlt), h.openings_eq_nil (Or.inr hlt.le)]
    simp only [List.nil_append, List.append_nil]

theorem openings_singleton (e : Element α) (place : Nat) :
    openings [e] place = if place = e.start then e.opening else [] := by
  rw [openings, List.filter_singleton]
  by_cases hplace : place = e.start
  · simp [hplace]
  · simp [hplace, Ne.symm hplace]

theorem closings_singleton (e : Element α) (place : Nat) :
    closings [e] place = if place = e.stop then e.closing else [] := by
  rw [closings, List.reverse_singleton, List.filter_singleton]
  by_cases hplace : place = e.stop
  · simp [hplace]
  · simp [hplace, Ne.symm hplace]

/-- An element around others: its opening tag stands in front of the tags at its start, its closing tag behind those at
its end. -/
theorem tags_cons {e : Element α} (h : Within e.start e.stop es) (place : Nat) :
    tags (e :: es) place =
      (if place = e.start then e.opening else []) ++ tags es place ++ if place = e.stop then e.closing else [] := by
  have hlt := e.lt
  rw [tags, ← List.singleton_append, openings_append, closings_append, openings_singleton, closings_singleton, tags]
  by_cases hstart : place = e.start
  · rw [if_pos hstart, if_neg (by omega), h.closings_eq_nil (Or.inl hstart.le)]
    simp only [List.nil_append, List.append_nil]
  · rw [if_neg hstart]
    by_cases hstop : place = e.stop
    · rw [if_pos hstop, h.openings_eq_nil (Or.inr hstop.ge)]
      simp only [List.nil_append, List.append_nil]
    · rw [if_neg hstop]
      simp only [List.nil_append, List.append_nil]

/-- The members of a list, those with the same key side by side. -/
theorem perm_flatMap_filter {β : Type} {l : List β} (key : β → Nat) {n : Nat} (h : ∀ a ∈ l, key a < n) :
    ((List.range n).flatMap fun place => l.filter fun a => key a = place).Perm l := by
  have hbelow (n : Nat) :
      ((List.range n).flatMap fun place => l.filter fun a => key a = place).Perm (l.filter fun a => key a < n) := by
    induction n with
    | zero => simp
    | succ n ih =>
        have hparts := List.filter_append_perm (fun a => decide (key a < n)) (l.filter fun a => key a < n + 1)
        rw [List.filter_filter, List.filter_filter] at hparts
        have hfront : (l.filter fun a => decide (key a < n) && decide (key a < n + 1)) = l.filter fun a => key a < n :=
          List.filter_congr fun a _ => by
            rw [Bool.eq_iff_iff, Bool.and_eq_true, decide_eq_true_eq, decide_eq_true_eq]
            omega
        have hback : (l.filter fun a => (!decide (key a < n)) && decide (key a < n + 1)) = l.filter fun a => key a = n :=
          List.filter_congr fun a _ => by
            rw [Bool.eq_iff_iff, Bool.and_eq_true, Bool.not_eq_true', decide_eq_false_iff_not, decide_eq_true_eq,
              decide_eq_true_eq]
            omega
        rw [hfront, hback] at hparts
        rw [List.range_succ, List.flatMap_append, List.flatMap_singleton]
        exact (ih.append_right _).trans hparts
  have hall := hbelow n
  rwa [List.filter_eq_self.mpr fun a ha => decide_eq_true (h a ha)] at hall

/-- A rearranged list of values comes from a rearranged list. -/
theorem exists_perm_map {β γ : Type} {f : β → γ} {l : List β} {l' : List γ} (h : l'.Perm (l.map f)) :
    ∃ arranged : List β, arranged.Perm l ∧ arranged.map f = l' := by
  induction l' generalizing l with
  | nil =>
      obtain rfl := List.map_eq_nil_iff.mp h.nil_eq.symm
      exact ⟨[], List.Perm.refl [], rfl⟩
  | cons a l' ih =>
      obtain ⟨front, back, hl⟩ := List.append_of_mem (h.mem_iff.mp List.mem_cons_self)
      obtain ⟨front', b, back', rfl, rfl, rfl, rfl⟩ : ∃ front' b back', l = front' ++ b :: back' ∧
          front'.map f = front ∧ f b = a ∧ back'.map f = back := by
        obtain ⟨front', rest, rfl, hfront, hrest⟩ := List.map_eq_append_iff.mp hl
        obtain ⟨b, back', rfl, hb, hback⟩ := List.map_eq_cons_iff.mp hrest
        exact ⟨front', b, back', rfl, hfront, hb, hback⟩
      rw [List.map_append, List.map_cons] at h
      have hrest := (h.trans List.perm_middle).cons_inv
      rw [← List.map_append] at hrest
      obtain ⟨arranged, hperm, rfl⟩ := ih hrest
      exact ⟨b :: arranged, (hperm.cons b).trans List.perm_middle.symm, rfl⟩

/-! ### Pieces one after the other -/

/-- The pieces from a place to another one, each with its end. -/
def IsCut (Piece : Nat → Nat → List α → Prop) : Nat → List (Nat × List α) → Nat → Prop
  | p, [], r => p = r
  | p, (q, s) :: cut, r => Piece p q s ∧ IsCut Piece q cut r

/-- The places between the pieces. -/
def places (p : Nat) (cut : List (Nat × List α)) : List Nat := p :: cut.map Prod.fst

/-- The pieces with what stands between them. -/
def woven (T : Nat → List α) : Nat → List (Nat × List α) → List α
  | p, [] => T p
  | p, (q, s) :: cut => T p ++ s ++ woven T q cut

section Cuts

variable {Piece : Nat → Nat → List α → Prop} (hpiece : ∀ p q s, Piece p q s → p < q) {cut cut' : List (Nat × List α)}

theorem isCut_append (h : IsCut Piece p cut m) (h' : IsCut Piece m cut' r) : IsCut Piece p (cut ++ cut') r := by
  induction cut generalizing p with
  | nil =>
      cases h
      exact h'
  | cons c cut ih => exact ⟨h.1, ih h.2⟩

theorem exists_cons_of_isCut (h : IsCut Piece p cut r) (hne : p ≠ r) :
    ∃ q s back, cut = (q, s) :: back ∧ Piece p q s ∧ IsCut Piece q back r := by
  cases cut with
  | nil => exact absurd h hne
  | cons c back => exact ⟨c.1, c.2, back, rfl, h⟩

/-- Pieces can be parted at each of their places. -/
theorem exists_isCut_of_mem (h : IsCut Piece p cut r) (hmem : m ∈ places p cut) :
    ∃ front back, cut = front ++ back ∧ IsCut Piece p front m ∧ IsCut Piece m back r := by
  induction cut generalizing p with
  | nil =>
      cases List.mem_singleton.mp hmem
      exact ⟨[], [], rfl, rfl, h⟩
  | cons c cut ih =>
      rcases List.mem_cons.mp hmem with rfl | hmem
      · exact ⟨[], c :: cut, rfl, rfl, h⟩
      · obtain ⟨front, back, rfl, hfront, hback⟩ := ih h.2 hmem
        exact ⟨c :: front, back, rfl, ⟨h.1, hfront⟩, hback⟩

theorem mem_places_append (h : IsCut Piece p cut m) {place : Nat} :
    place ∈ places p (cut ++ cut') ↔ place ∈ places p cut ∨ place ∈ places m cut' := by
  induction cut generalizing p with
  | nil =>
      cases h
      simp [places]
  | cons c cut ih =>
      have hrest := ih h.2
      simp only [places, List.cons_append, List.map_cons, List.mem_cons] at hrest ⊢
      rw [hrest, ← or_assoc]

theorem stop_mem_places (h : IsCut Piece p cut m) : m ∈ places p cut := by
  induction cut generalizing p with
  | nil => exact List.mem_singleton.mpr h.symm
  | cons c cut ih => exact List.mem_cons_of_mem p (ih h.2)

/-- The elements start and end at places between pieces. -/
def Rest (es : List (Element α)) (p : Nat) (cut : List (Nat × List α)) : Prop :=
  ∀ e ∈ es, e.start ∈ places p cut ∧ e.stop ∈ places p cut

theorem Rest.append (h : Rest es p cut) (h' : Rest es' m cut') (hcut : IsCut Piece p cut m) :
    Rest (es ++ es') p (cut ++ cut') := by
  intro e he
  rw [mem_places_append hcut, mem_places_append hcut]
  rcases List.mem_append.mp he with he | he
  · exact ⟨Or.inl (h e he).1, Or.inl (h e he).2⟩
  · exact ⟨Or.inr (h' e he).1, Or.inr (h' e he).2⟩

include hpiece

theorem IsCut.le (h : IsCut Piece p cut r) : p ≤ r := by
  induction cut generalizing p with
  | nil => exact Eq.le h
  | cons c cut ih => exact (hpiece _ _ _ h.1).le.trans (ih h.2)

theorem IsCut.bounds (h : IsCut Piece p cut r) {place : Nat} (hmem : place ∈ places p cut) : p ≤ place ∧ place ≤ r := by
  obtain ⟨front, back, -, hfront, hback⟩ := exists_isCut_of_mem h hmem
  exact ⟨IsCut.le hpiece hfront, IsCut.le hpiece hback⟩

/-- What is woven depends on what stands at the places of the pieces. -/
theorem woven_congr {T T' : Nat → List α} (h : IsCut Piece p cut r)
    (hT : ∀ place, p ≤ place → place ≤ r → T place = T' place) :
    woven T p cut = woven T' p cut := by
  induction cut generalizing p with
  | nil => exact hT p le_rfl (Eq.le h)
  | cons c cut ih =>
      obtain ⟨q, s⟩ := c
      have hlt := hpiece _ _ _ h.1
      have hle := IsCut.le hpiece h.2
      rw [woven, woven, hT p le_rfl (by omega), ih h.2 fun place hp hr => hT place (by omega) hr]

/-- Where two rows of pieces meet stands what ends the first and what begins the second. -/
theorem woven_append {T T₁ T₂ : Nat → List α} (h : IsCut Piece p cut m) (h' : IsCut Piece m cut' r)
    (hfront : ∀ place, p ≤ place → place < m → T place = T₁ place) (hat : T m = T₁ m ++ T₂ m)
    (hback : ∀ place, m < place → place ≤ r → T place = T₂ place) :
    woven T p (cut ++ cut') = woven T₁ p cut ++ woven T₂ m cut' := by
  induction cut generalizing p with
  | nil =>
      cases h
      cases cut' with
      | nil => exact hat
      | cons c cut' =>
          obtain ⟨q, s⟩ := c
          have hlt := hpiece _ _ _ h'.1
          rw [List.nil_append, woven, woven, woven, hat,
            woven_congr hpiece h'.2 fun place hp hr => hback place (by omega) hr]
          simp only [List.append_assoc]
  | cons c cut ih =>
      obtain ⟨q, s⟩ := c
      have hlt := hpiece _ _ _ h.1
      have hle := IsCut.le hpiece h.2
      rw [List.cons_append, woven, hfront p le_rfl (by omega), woven,
        ih h.2 fun place hp hm => hfront place (by omega) hm]
      simp only [List.append_assoc]

theorem woven_tags_append (h : IsCut Piece p cut m) (h' : IsCut Piece m cut' r) (hes : Within p m es)
    (hes' : Within m r es') :
    woven (tags (es ++ es')) p (cut ++ cut') = woven (tags es) p cut ++ woven (tags es') m cut' := by
  refine woven_append hpiece h h' (fun place _ hlt => ?_) (tags_append hes hes' m) fun place hlt _ => ?_
  · rw [tags_append hes hes', hes'.tags_eq_nil (Or.inl hlt), List.append_nil]
  · rw [tags_append hes hes', hes.tags_eq_nil (Or.inr hlt), List.nil_append]

/-- The tags of an element stand around what the elements in it are woven into. -/
theorem woven_tags_cons {e : Element α} (h : IsCut Piece e.start cut e.stop) (hes : Within e.start e.stop es) :
    woven (tags (e :: es)) e.start cut = e.opening ++ woven (tags es) e.start cut ++ e.closing := by
  have hlt := e.lt
  let T (place : Nat) : List α := (if place = e.start then e.opening else []) ++ tags es place
  have hopen : woven T e.start ([] ++ cut) = woven (fun _ => e.opening) e.start [] ++ woven (tags es) e.start cut := by
    refine woven_append hpiece rfl h (fun place hp hm => by omega) ?_ fun place hp hm => ?_
    · exact congrArg (· ++ tags es e.start) (if_pos rfl)
    · exact congrArg (· ++ tags es place) (if_neg (by omega : ¬ place = e.start))
  have hclose : woven (tags (e :: es)) e.start (cut ++ []) =
      woven T e.start cut ++ woven (fun _ => e.closing) e.stop [] := by
    refine woven_append hpiece h rfl (fun place hp hm => ?_) ?_ fun place hp hm => by omega
    · rw [tags_cons hes, if_neg (by omega : ¬ place = e.stop), List.append_nil]
    · rw [tags_cons hes, if_pos (rfl : e.stop = e.stop)]
  rw [List.append_nil] at hclose
  rw [List.nil_append] at hopen
  rw [hclose, hopen]
  rfl

theorem Rest.within (h : Rest es p cut) (hcut : IsCut Piece p cut r) : Within p r es := fun e he =>
  ⟨(IsCut.bounds hpiece hcut (h e he).1).1, (IsCut.bounds hpiece hcut (h e he).2).2⟩

/-- The elements in front of a place rest on the pieces in front of it. -/
theorem Rest.front (h : Rest es p (cut ++ cut')) (hcut : IsCut Piece p cut m) (hcut' : IsCut Piece m cut' r)
    (hes : ∀ e ∈ es, e.stop ≤ m) : Rest es p cut := by
  have hin (place : Nat) (hplace : place ∈ places p (cut ++ cut')) (hle : place ≤ m) : place ∈ places p cut := by
    rcases (mem_places_append hcut).mp hplace with hplace | hplace
    · exact hplace
    · rw [le_antisymm hle (IsCut.bounds hpiece hcut' hplace).1]
      exact stop_mem_places hcut
  intro e he
  have hlt := e.lt
  have hle := hes e he
  exact ⟨hin _ (h e he).1 (by omega), hin _ (h e he).2 hle⟩

/-- The elements behind a place rest on the pieces behind it. -/
theorem Rest.back (h : Rest es p (cut ++ cut')) (hcut : IsCut Piece p cut m) (hes : ∀ e ∈ es, m ≤ e.start) :
    Rest es m cut' := by
  have hin (place : Nat) (hplace : place ∈ places p (cut ++ cut')) (hle : m ≤ place) : place ∈ places m cut' := by
    rcases (mem_places_append hcut).mp hplace with hplace | hplace
    · rw [le_antisymm (IsCut.bounds hpiece hcut hplace).2 hle]
      exact List.mem_cons_self
    · exact hplace
  intro e he
  have hlt := e.lt
  have hle := hes e he
  exact ⟨hin _ (h e he).1 hle, hin _ (h e he).2 (by omega)⟩

/-! ### What is written -/

/-- The elements follow one another and rest on pieces, and their tags are woven into these. -/
def Reads (Piece : Nat → Nat → List α → Prop) (p r : Nat) (es : List (Element α)) (s : List α) : Prop :=
  ∃ cut, IsCut Piece p cut r ∧ Rest es p cut ∧ s = woven (tags es) p cut

theorem Written.reads {s : List α} (h : Written Piece p r es s) : es.Pairwise Follows ∧ Reads Piece p r es s := by
  induction h with
  | nil p => exact ⟨List.Pairwise.nil, [], rfl, fun e he => absurd he List.not_mem_nil, rfl⟩
  | @piece p q r es s s' hpq _ ih =>
      obtain ⟨hfollows, cut, hcut, hrest, rfl⟩ := ih
      have hlt := hpiece _ _ _ hpq
      have hwithin := Rest.within hpiece hrest hcut
      refine ⟨hfollows, (q, s) :: cut, ⟨hpq, hcut⟩, fun e he => ?_, ?_⟩
      · exact ⟨List.mem_cons_of_mem p (hrest e he).1, List.mem_cons_of_mem p (hrest e he).2⟩
      · rw [woven, hwithin.tags_eq_nil (Or.inl hlt), List.nil_append]
  | @element e r inner after s s' _ _ ih ih' =>
      obtain ⟨hfollows, cut, hcut, hrest, rfl⟩ := ih
      obtain ⟨hfollows', cut', hcut', hrest', rfl⟩ := ih'
      have hwithin := Rest.within hpiece hrest hcut
      have hwithin' := Rest.within hpiece hrest' hcut'
      have hlt := e.lt
      have hrestE : Rest (e :: inner) e.start cut :=
        List.forall_mem_cons.mpr ⟨⟨List.mem_cons_self, stop_mem_places hcut⟩, hrest⟩
      refine ⟨?_, cut ++ cut', isCut_append hcut hcut', ?_, ?_⟩
      · refine List.Pairwise.cons (fun d hd => ?_) (List.pairwise_append.mpr ⟨hfollows, hfollows', fun c hc d hd => ?_⟩)
        · rcases List.mem_append.mp hd with hd | hd
          · have hin := hwithin d hd
            exact ⟨hin.1, Or.inl hin.2⟩
          · have hin := hwithin' d hd
            exact ⟨by omega, Or.inr hin.1⟩
        · have hin := hwithin c hc
          have hin' := hwithin' d hd
          have hlt' := c.lt
          exact ⟨by omega, Or.inr (by omega)⟩
      · exact Rest.append hrestE hrest' hcut
      · rw [← woven_tags_cons hpiece hcut hwithin, ← List.cons_append]
        refine (woven_tags_append hpiece hcut hcut' (fun d hd => ?_) hwithin').symm
        exact (Rest.within hpiece hrestE hcut) d hd

omit hpiece in
/-- Of the elements behind another one, those in it come first. -/
theorem exists_inner_after {e : Element α} (h : (e :: es).Pairwise Follows) :
    ∃ inner after, es = inner ++ after ∧ Within e.start e.stop inner ∧ ∀ d ∈ after, e.stop ≤ d.start := by
  obtain ⟨he, hes⟩ := List.pairwise_cons.mp h
  refine ⟨_, _, Splices.eq_filter_append_filter_of_pairwise (p := fun d => decide (d.start < e.stop)) hes ?_, ?_, ?_⟩
  · intro a b hab hb
    have hle := hab.1
    simp only [decide_eq_true_eq] at hb ⊢
    omega
  · intro d hd
    obtain ⟨hmem, hlt⟩ := List.mem_filter.mp hd
    have hfollows := he d hmem
    simp only [decide_eq_true_eq] at hlt
    exact ⟨hfollows.1, hfollows.2.resolve_right (by omega)⟩
  · intro d hd
    simpa using (List.mem_filter.mp hd).2

/-- What is read from an element on is the element and what is behind it. -/
theorem Reads.exists_element {e : Element α} {inner after : List (Element α)} {s : List α}
    (h : Reads Piece e.start r (e :: (inner ++ after)) s) (hinner : Within e.start e.stop inner)
    (hafter : ∀ d ∈ after, e.stop ≤ d.start) :
    ∃ s₁ s₂, Reads Piece e.start e.stop inner s₁ ∧ Reads Piece e.stop r after s₂ ∧
      s = e.opening ++ s₁ ++ e.closing ++ s₂ := by
  obtain ⟨cut, hcut, hrest, rfl⟩ := h
  obtain ⟨front, back, rfl, hfront, hback⟩ := exists_isCut_of_mem hcut (hrest e List.mem_cons_self).2
  have hrest' := (List.forall_mem_cons.mp hrest).2
  have hrestInner := Rest.front hpiece
    (fun d hd => hrest' d (List.mem_append_left after hd)) hfront hback fun d hd => (hinner d hd).2
  have hrestAfter := Rest.back hpiece (fun d hd => hrest' d (List.mem_append_right inner hd)) hfront hafter
  have hwithin : Within e.start e.stop (e :: inner) := List.forall_mem_cons.mpr ⟨⟨le_rfl, le_rfl⟩, hinner⟩
  refine ⟨_, _, ⟨front, hfront, hrestInner, rfl⟩, ⟨back, hback, hrestAfter, rfl⟩, ?_⟩
  rw [← List.cons_append, woven_tags_append hpiece hfront hback hwithin (Rest.within hpiece hrestAfter hback),
    woven_tags_cons hpiece hfront hinner]

/-- What is read from a place on at which no element starts begins with a piece. -/
theorem Reads.exists_piece {s : List α} (h : Reads Piece p r es s) (hes : ∀ e ∈ es, p < e.start) :
    (p = r ∧ es = [] ∧ s = []) ∨ ∃ q s₁ s₂, Piece p q s₁ ∧ Reads Piece q r es s₂ ∧ s = s₁ ++ s₂ := by
  obtain ⟨cut, hcut, hrest, rfl⟩ := h
  cases cut with
  | nil =>
      have hnil : es = [] := List.eq_nil_iff_forall_not_mem.mpr fun e he =>
        (hes e he).ne' (List.mem_singleton.mp (hrest e he).1)
      subst hnil
      exact Or.inl ⟨hcut, rfl, rfl⟩
  | cons c cut =>
      obtain ⟨q, s⟩ := c
      have hbehind (e : Element α) (he : e ∈ es) : q ≤ e.start :=
        (IsCut.bounds hpiece hcut.2 (List.mem_of_ne_of_mem (hes e he).ne' (hrest e he).1)).1
      have hone : IsCut Piece p [(q, s)] q := ⟨hcut.1, rfl⟩
      have hrest : Rest es p ([(q, s)] ++ cut) := hrest
      have hrest' : Rest es q cut := Rest.back hpiece hrest hone hbehind
      refine Or.inr ⟨q, s, _, hcut.1, ⟨cut, hcut.2, hrest', rfl⟩, ?_⟩
      rw [woven, (Rest.within hpiece hrest' hcut.2).tags_eq_nil (Or.inl (hpiece _ _ _ hcut.1)), List.nil_append]

theorem Reads.le {s : List α} (h : Reads Piece p r es s) : p ≤ r := by
  obtain ⟨cut, hcut, -, -⟩ := h
  exact IsCut.le hpiece hcut

/-- Elements that follow one another are written from the pieces they rest on. -/
theorem written_of_reads {s : List α} (hfollows : es.Pairwise Follows) (h : Reads Piece p r es s) :
    Written Piece p r es s := by
  -- an element leaves fewer of them, a piece a shorter part of the text
  obtain ⟨n, hn⟩ : ∃ n, es.length + (r - p) = n := ⟨_, rfl⟩
  induction n using Nat.strong_induction_on generalizing p r es s with
  | _ n ih =>
      by_cases hstart : ∃ e ∈ es.head?, e.start = p
      · obtain ⟨e, he, rfl⟩ := hstart
        obtain ⟨es, rfl⟩ := List.head?_eq_some_iff.mp he
        obtain ⟨inner, after, rfl, hinner, hafter⟩ := exists_inner_after hfollows
        obtain ⟨hpairwise, hpairwise', -⟩ := List.pairwise_append.mp hfollows.of_cons
        obtain ⟨s₁, s₂, hs₁, hs₂, rfl⟩ := Reads.exists_element hpiece h hinner hafter
        have hlt := e.lt
        have hle := Reads.le hpiece hs₂
        rw [List.length_cons, List.length_append] at hn
        exact Written.element (ih _ (by omega) hpairwise hs₁ rfl) (ih _ (by omega) hpairwise' hs₂ rfl)
      · have hbehind : ∀ e ∈ es, p < e.start := by
          obtain ⟨cut, hcut, hrest, -⟩ := h
          have hwithin := Rest.within hpiece hrest hcut
          cases es with
          | nil => exact fun e he => absurd he List.not_mem_nil
          | cons e es =>
              have hne : e.start ≠ p := fun heq => hstart ⟨e, rfl, heq⟩
              have hlt : p < e.start := lt_of_le_of_ne (hwithin e List.mem_cons_self).1 hne.symm
              exact List.forall_mem_cons.mpr
                ⟨hlt, fun d hd => hlt.trans_le (List.rel_of_pairwise_cons hfollows hd).1⟩
        rcases Reads.exists_piece hpiece h hbehind with ⟨rfl, rfl, rfl⟩ | ⟨q, s₁, s₂, hpq, hs₂, rfl⟩
        · exact Written.nil p
        · have hlt := hpiece _ _ _ hpq
          have hle := Reads.le hpiece hs₂
          exact Written.piece hpq (ih _ (by omega) hfollows hs₂ rfl)

/-- A part of a text is written with elements in the order they are listed in where they follow one another and their
tags stand between the pieces. -/
theorem written_iff {s : List α} :
    Written Piece p r es s ↔ es.Pairwise Follows ∧ Reads Piece p r es s :=
  ⟨Written.reads hpiece, fun h => written_of_reads hpiece h.1 h.2⟩

end Cuts

/-! ### Elements in order -/

/-- One element lies in the other, or one behind the other. -/
def Element.NestsWith (d e : Element α) : Prop :=
  d.stop ≤ e.start ∨ e.stop ≤ d.start ∨ d.start ≤ e.start ∧ e.stop ≤ d.stop ∨ e.start ≤ d.start ∧ d.stop ≤ e.stop

theorem Element.NestsWith.symm {d e : Element α} (h : d.NestsWith e) : e.NestsWith d := by
  unfold Element.NestsWith at h ⊢
  omega

/-- The first element ends no earlier. -/
def Element.Outer (d e : Element α) : Prop := e.stop ≤ d.stop

instance : DecidableRel (Element.Outer (α := α)) := fun d e => inferInstanceAs (Decidable (e.stop ≤ d.stop))

instance : Std.Total (Element.Outer (α := α)) := ⟨fun d e => le_total e.stop d.stop⟩

instance : IsTrans (Element α) Element.Outer := ⟨fun _ _ _ hab hbc => le_trans hbc hab⟩

/-- The elements by their starts and the outer ones first; of those with one range it is given which comes first. -/
def inOrder (front : Nat → List (Element α)) (n : Nat) : List (Element α) :=
  (List.range n).flatMap fun place => (front place).insertionSort Element.Outer

section InOrder

variable {front : Nat → List (Element α)} {n : Nat}
  (hfront : ∀ place, (front place).Perm (es.filter fun e => e.start = place))

include hfront

theorem sorted_front_perm (place : Nat) :
    ((front place).insertionSort Element.Outer).Perm (es.filter fun e => e.start = place) :=
  (List.perm_insertionSort _ _).trans (hfront place)

theorem inOrder_perm (hn : ∀ e ∈ es, e.start < n) : (inOrder front n).Perm es :=
  (List.Perm.flatMap_left _ fun place _ => sorted_front_perm hfront place).trans (perm_flatMap_filter Element.start hn)

theorem start_eq_of_mem_front {place : Nat} {e : Element α} (he : e ∈ (front place).insertionSort Element.Outer) :
    e ∈ es ∧ e.start = place := by
  obtain ⟨hmem, hstart⟩ := List.mem_filter.mp ((sorted_front_perm hfront place).mem_iff.mp he)
  exact ⟨hmem, of_decide_eq_true hstart⟩

/-- Elements that nest follow one another in this order. -/
theorem follows_inOrder (hnests : es.Pairwise Element.NestsWith) : (inOrder front n).Pairwise Follows := by
  have hsymm : Std.Symm (Element.NestsWith (α := α)) := ⟨fun _ _ h => h.symm⟩
  refine List.pairwise_flatMap.mpr ⟨fun place _ => ?_, List.pairwise_lt_range.imp fun {p q} hpq d hd e he => ?_⟩
  · refine (List.pairwise_insertionSort Element.Outer (front place)).imp_of_mem fun {d e} hd he houter => ?_
    have hd := (start_eq_of_mem_front hfront hd).2
    have he := (start_eq_of_mem_front hfront he).2
    exact ⟨by omega, Or.inl houter⟩
  · obtain ⟨hd, hdp⟩ := start_eq_of_mem_front hfront hd
    obtain ⟨he, heq⟩ := start_eq_of_mem_front hfront he
    have hne : d ≠ e := fun h => by
      rw [h] at hdp
      omega
    have hlt := d.lt
    have hlt' := e.lt
    have hnest := hnests.forall hd he hne
    unfold Element.NestsWith at hnest
    exact ⟨by omega, by omega⟩

theorem filter_inOrder {place : Nat} (hlt : place < n) :
    (inOrder front n).filter (fun e => e.start = place) = (front place).insertionSort Element.Outer := by
  have hparts (q : Nat) : ((front q).insertionSort Element.Outer).filter (fun e => e.start = place) =
      if q = place then (front q).insertionSort Element.Outer else [] := by
    split_ifs with h
    · exact List.filter_eq_self.mpr fun e he => decide_eq_true ((start_eq_of_mem_front hfront he).2.trans h)
    · refine List.filter_eq_nil_iff.mpr fun e he => ?_
      simpa using fun heq => h ((start_eq_of_mem_front hfront he).2.symm.trans heq)
  have hbelow (m : Nat) : ((List.range m).flatMap fun q =>
      if q = place then (front q).insertionSort Element.Outer else []) =
        if place < m then (front place).insertionSort Element.Outer else [] := by
    induction m with
    | zero => rfl
    | succ m ih =>
        rw [List.range_succ, List.flatMap_append, ih, List.flatMap_singleton]
        rcases lt_trichotomy place m with h | h | h
        · rw [if_pos h, if_neg h.ne', if_pos (by omega), List.append_nil]
        · rw [if_neg (by omega), if_pos h.symm, if_pos (by omega), h, List.nil_append]
        · rw [if_neg (by omega), if_neg (by omega), if_neg (by omega), List.nil_append]
  rw [inOrder, List.filter_flatMap]
  simp only [hparts]
  rw [hbelow, if_pos hlt]

end InOrder

end NestedElements
