import YaqtLib.WellFormedMarkup

/-! When a text with nested entities is parsed to well-formed markup by every sort: where the tags at a place read the
same in each order, and no tag stands in a line break. -/

namespace YaqtLib

open QString Splices NestedElements Words

/-- One range lies in the other, or they have no unit in common. -/
def PositionedFormattedTextEntity.NestsWith (a b : PositionedFormattedTextEntity) : Prop :=
  a.offset + a.length ≤ b.offset ∨ b.offset + b.length ≤ a.offset ∨
    a.offset ≤ b.offset ∧ b.offset + b.length ≤ a.offset + a.length ∨
      b.offset ≤ a.offset ∧ a.offset + a.length ≤ b.offset + b.length

instance (a b : PositionedFormattedTextEntity) : Decidable (a.NestsWith b) := inferInstanceAs (Decidable (_ ∨ _))

namespace FormattedText

structure NestedEntities (F : FormattedText) : Prop extends F.TagsOnly where
  nested : F.entities.Pairwise PositionedFormattedTextEntity.NestsWith

/-- The tags of the elements agree: none stands in a line break, no element ends where another one starts, the opening
tags at one place of elements with different ends commute, and elements with one end have one closing tag. -/
structure TagsAgree (F : FormattedText) : Prop where
  unsplit : ∀ e ∈ F.elements, ¬ SplitsBreak F.plainText e.start ∧ ¬ SplitsBreak F.plainText e.stop
  apart : F.Apart
  openings : ∀ d ∈ F.elements, ∀ e ∈ F.elements,
    d.start = e.start → d.stop ≠ e.stop → Commutes d.opening e.opening
  closings : ∀ d ∈ F.elements, ∀ e ∈ F.elements, d.stop = e.stop → d.closing = e.closing

/-! ### The text in atoms -/

/-- The atoms from a place on as pieces. -/
def atomsCut : Nat → List QString → List (Nat × QString)
  | _, [] => []
  | i, atom :: as => (i + atom.length, escapeAtom atom) :: atomsCut (i + atom.length) as

theorem isCut_atomsCut {text : QString} {i : Nat} (h : i ≤ text.length) :
    IsCut (Piece text) i (atomsCut i (atoms (text.drop i))) text.length := by
  obtain ⟨rest, hdrop⟩ : ∃ rest, text.drop i = rest := ⟨_, rfl⟩
  rw [hdrop]
  induction rest using atoms_induction generalizing i with
  | nil => exact le_antisymm h (List.drop_eq_nil_iff.mp hdrop)
  | lineBreak rest ih =>
      have hlen := congrArg List.length hdrop
      rw [List.length_drop, List.length_cons, List.length_cons] at hlen
      rw [atoms_break]
      refine ⟨⟨[cr, lf], Or.inl rfl, ?_, rfl, rfl⟩, ih (by simp only [List.length_cons, List.length_nil]; omega) ?_⟩
      · rw [hdrop]
        exact ⟨rest, rfl⟩
      · rw [← List.drop_drop, hdrop]
        rfl
  | unit c rest hc ih =>
      have hlen := congrArg List.length hdrop
      rw [List.length_drop, List.length_cons] at hlen
      rw [atoms_cons hc]
      refine ⟨⟨[c], Or.inr ⟨c, rfl⟩, ?_, rfl, rfl⟩, ih (by simp only [List.length_cons, List.length_nil]; omega) ?_⟩
      · rw [hdrop]
        exact ⟨rest, rfl⟩
      · rw [← List.drop_drop, hdrop]
        rfl

/-- Every place that does not split a line break is between two atoms. -/
theorem mem_places_atomsCut {text : QString} {i p : Nat} (hi : i ≤ p) (hp : p ≤ text.length)
    (hsplit : ¬ SplitsBreak text p) : p ∈ places i (atomsCut i (atoms (text.drop i))) := by
  obtain ⟨rest, hdrop⟩ : ∃ rest, text.drop i = rest := ⟨_, rfl⟩
  rw [hdrop]
  induction rest using atoms_induction generalizing i with
  | nil =>
      have hle := List.drop_eq_nil_iff.mp hdrop
      rw [le_antisymm (hp.trans hle) hi]
      exact List.mem_cons_self
  | lineBreak rest ih =>
      rcases (by omega : p = i ∨ p = i + 1 ∨ i + 2 ≤ p) with rfl | rfl | hle
      · exact List.mem_cons_self
      · rw [splitsBreak_succ_iff hdrop] at hsplit
        exact absurd ⟨rfl, rfl⟩ hsplit
      · rw [atoms_break]
        refine List.mem_cons_of_mem i (ih hle ?_)
        rw [← List.drop_drop, hdrop]
        rfl
  | unit c rest hc ih =>
      rcases hi.eq_or_lt with rfl | hlt
      · exact List.mem_cons_self
      · rw [atoms_cons hc]
        refine List.mem_cons_of_mem i (ih hlt ?_)
        rw [← List.drop_drop, hdrop]
        rfl

/-- Where no tags stand in line breaks, the atoms are woven with them as pieces are. -/
theorem wovenAtoms_eq {text : QString} {T : Nat → QString} (hT : ∀ p, SplitsBreak text p → T p = []) (i : Nat) :
    wovenAtoms T i (atoms (text.drop i)) = woven T i (atomsCut i (atoms (text.drop i))) := by
  obtain ⟨rest, hdrop⟩ : ∃ rest, text.drop i = rest := ⟨_, rfl⟩
  rw [hdrop]
  induction rest using atoms_induction generalizing i with
  | nil => rfl
  | lineBreak rest ih =>
      have hnone := hT (i + 1) ((splitsBreak_succ_iff hdrop).mpr ⟨rfl, rfl⟩)
      rw [atoms_break, wovenAtoms, hnone, breakAtom_nil, atomsCut, woven, ih]
      rw [← List.drop_drop, hdrop]
      rfl
  | unit c rest hc ih =>
      have hbreak : breakAtom (T (i + 1)) [c] = escapeAtom [c] := if_neg fun heq => by cases heq
      rw [atoms_cons hc, wovenAtoms, hbreak, atomsCut, woven, ih]
      rw [← List.drop_drop, hdrop]
      rfl

/-! ### Elements in order -/

theorem nestsWith_elements {F : FormattedText} (hF : F.NestedEntities) : F.elements.Pairwise Element.NestsWith := by
  have hentities : F.entities.zipIdx.Pairwise fun a b => a.1.NestsWith b.1 := by
    rw [← List.pairwise_map, List.zipIdx_map_fst]
    exact hF.nested
  refine List.pairwise_filterMap.mpr (hentities.imp_of_mem fun {a b} ha hb hnest d hd e he => ?_)
  have hrange := hF.inText a.1 (List.mem_of_getElem? (List.mem_zipIdx_iff_getElem?.mp ha))
  have hrange' := hF.inText b.1 (List.mem_of_getElem? (List.mem_zipIdx_iff_getElem?.mp hb))
  rw [elementOf] at hd he
  split_ifs at hd he
  cases hd
  cases he
  unfold PositionedFormattedTextEntity.NestsWith at hnest
  unfold Element.NestsWith
  dsimp only
  omega

/-- Words that are all the same come in one order only. -/
theorem eq_of_perm_of_forall_eq {α : Type} {l l' : List α} (hperm : l.Perm l') (h : ∀ a ∈ l', ∀ b ∈ l', a = b) :
    l = l' := by
  cases l' with
  | nil => exact hperm.eq_nil
  | cons a l' =>
      have hall := List.eq_replicate_of_mem fun b hb => h b hb a List.mem_cons_self
      rw [hall] at hperm ⊢
      exact List.perm_replicate.mp hperm

section Agree

variable {F : FormattedText} (h : F.TagsAgree) {σ : Nat → List QString} (hσ : F.Arrangement σ)

include h hσ

/-- The opening tags of a place in some order are those of the elements in some order. -/
theorem exists_front (p : Nat) :
    ∃ front : List (Element QChar), front.Perm (F.elements.filter fun e => e.start = p) ∧
      ((∃ e ∈ F.elements, e.start = p) → front.map Element.opening = σ p) := by
  by_cases hp : ∃ e ∈ F.elements, e.start = p
  · obtain ⟨e, he, rfl⟩ := hp
    have hperm := hσ e.start
    rw [h.apart.tagsAt_start he] at hperm
    obtain ⟨front, hfront, hmap⟩ := exists_perm_map hperm
    exact ⟨front, hfront, fun _ => hmap⟩
  · exact ⟨_, List.Perm.refl _, fun hstart => absurd hstart hp⟩

/-- The tags of a place in every order read as those of the elements in order. -/
theorem flatten_eq_tags {front : Nat → List (Element QChar)} {n : Nat} (hn : ∀ e ∈ F.elements, e.start < n)
    (hfront : ∀ p, (front p).Perm (F.elements.filter fun e => e.start = p))
    (hopenings : ∀ p, (∃ e ∈ F.elements, e.start = p) → (front p).map Element.opening = σ p) (p : Nat) :
    (σ p).flatten = tags (inOrder front n) p := by
  have hes := inOrder_perm hfront hn
  by_cases hp : ∃ e ∈ F.elements, e.start = p
  · have hmap := hopenings p hp
    obtain ⟨e, he, rfl⟩ := hp
    have hcommutes : ∀ c ∈ front e.start, ∀ d ∈ front e.start, ¬ c.Outer d → Commutes c.opening d.opening := by
      intro c hc d hd houter
      obtain ⟨hc, hcstart⟩ := List.mem_filter.mp ((hfront e.start).mem_iff.mp hc)
      obtain ⟨hd, hdstart⟩ := List.mem_filter.mp ((hfront e.start).mem_iff.mp hd)
      have hstart : c.start = d.start := (of_decide_eq_true hcstart).trans (of_decide_eq_true hdstart).symm
      exact h.openings c hc d hd hstart fun hstop => houter (Eq.le hstop.symm)
    rw [tags, h.apart.closings_start he hes, List.nil_append, openings, filter_inOrder hfront (hn e he),
      flatMap_insertionSort hcommutes, List.flatMap_def, hmap]
  · have hnone : ∀ e ∈ F.elements, e.start ≠ p := fun e he heq => hp ⟨e, he, heq⟩
    have htags : tagsAt F.elements p = (F.elements.filter fun e => e.stop = p).map Element.closing := by
      have hnil : F.elements.filter (fun e => e.start = p) = [] :=
        List.filter_eq_nil_iff.mpr fun e he => by simpa using hnone e he
      rw [tagsAt, hnil, List.map_nil, List.append_nil]
    have hperm := hσ p
    rw [htags] at hperm
    have hclosings := (((List.reverse_perm _).trans hes).filter fun e => decide (e.stop = p)).map Element.closing
    have hsame : ∀ a ∈ (F.elements.filter fun e => e.stop = p).map Element.closing,
        ∀ b ∈ (F.elements.filter fun e => e.stop = p).map Element.closing, a = b := by
      intro a ha b hb
      obtain ⟨c, hc, rfl⟩ := List.mem_map.mp ha
      obtain ⟨d, hd, rfl⟩ := List.mem_map.mp hb
      obtain ⟨hc, hcstop⟩ := List.mem_filter.mp hc
      obtain ⟨hd, hdstop⟩ := List.mem_filter.mp hd
      exact h.closings c hc d hd ((of_decide_eq_true hcstop).trans (of_decide_eq_true hdstop).symm)
    rw [tags, openings_eq_nil fun e he => hnone e (hes.mem_iff.mp he), List.append_nil, closings, List.flatMap_def,
      eq_of_perm_of_forall_eq hclosings hsame, eq_of_perm_of_forall_eq hperm hsame]

end Agree

/-- Where the tags agree, they make well-formed markup in every order. -/
theorem alwaysWellFormed_of_tagsAgree {F : FormattedText} (hF : F.NestedEntities) (h : F.TagsAgree) :
    F.AlwaysWellFormed := by
  intro σ hσ
  choose front hfront hopenings using exists_front h hσ
  have hn : ∀ e ∈ F.elements, e.start < F.plainText.length + 1 := fun e he => by
    have hle := stop_le_of_mem_elements hF.toTagsOnly he
    have hlt := e.lt
    omega
  have hes := inOrder_perm hfront hn
  have hsame : (fun p => (σ p).flatten) = tags (inOrder front (F.plainText.length + 1)) :=
    funext (flatten_eq_tags h hσ hn hfront hopenings)
  have hunsplit : ∀ p, SplitsBreak F.plainText p → tags (inOrder front (F.plainText.length + 1)) p = [] := by
    intro p hsplit
    have hin (e : Element QChar) (he : e ∈ inOrder front (F.plainText.length + 1)) := h.unsplit e (hes.mem_iff.mp he)
    rw [tags, closings_eq_nil fun e he heq => (hin e he).2 (heq ▸ hsplit),
      openings_eq_nil fun e he heq => (hin e he).1 (heq ▸ hsplit), List.append_nil]
  have hcut := isCut_atomsCut (Nat.zero_le F.plainText.length)
  refine ⟨_, hes, written_of_reads (fun _ _ _ => Piece.lt) (follows_inOrder hfront (nestsWith_elements hF))
    ⟨_, hcut, fun e he => ?_, ?_⟩⟩
  · have hmem := hes.mem_iff.mp he
    have hle := stop_le_of_mem_elements hF.toTagsOnly hmem
    have hlt := e.lt
    exact ⟨mem_places_atomsCut (Nat.zero_le _) (by omega) (h.unsplit e hmem).1,
      mem_places_atomsCut (Nat.zero_le _) hle (h.unsplit e hmem).2⟩
  · rw [hsame]
    exact wovenAtoms_eq hunsplit 0

/-- Only then do they. -/
theorem tagsAgree_of_alwaysWellFormed {F : FormattedText} (hF : F.TagsOnly) (hall : F.AlwaysWellFormed) :
    F.TagsAgree where
  unsplit := by
    obtain ⟨-, -, -, -, hunsplit⟩ := exists_order (arrangement_tagsAt F) (hall _ (arrangement_tagsAt F))
    exact hunsplit
  apart := apart_of_always hF hall
  openings _ hd _ he hstart hstop := commutes_opening hF hall hd he hstart hstop
  closings _ hd _ he hstop := closing_eq_of_stop_eq hF hall hd he hstop

theorem alwaysWellFormed_iff {F : FormattedText} (hF : F.TagsOnly) :
    F.AlwaysWellFormed ↔ ∀ S : StdSort, F.WellFormed (F.parse S true) := by
  constructor
  · intro hall S
    obtain ⟨σ, hσ, hout⟩ := (exists_parse_iff_woven hF _).mp ⟨S, rfl⟩
    rw [hout]
    exact hall σ hσ
  · intro hsorts σ hσ
    obtain ⟨S, hS⟩ := (exists_parse_iff_woven hF _).mpr ⟨σ, hσ, rfl⟩
    rw [← hS]
    exact hsorts S

/-- Well-formed output is woven with the tags of the elements in some order. -/
theorem exists_order_parse {F : FormattedText} (hF : F.TagsOnly) {S : StdSort} (h : F.WellFormed (F.parse S true)) :
    ∃ es : List (Element QChar), es.Perm F.elements ∧
      F.parse S true = wovenAtoms (tags es) 0 (atoms F.plainText) := by
  obtain ⟨σ, hσ, hout⟩ := (exists_parse_iff_woven hF _).mp ⟨S, rfl⟩
  rw [hout] at h
  obtain ⟨es, hes, -, hsame, -⟩ := exists_order hσ h
  refine ⟨es, hes, ?_⟩
  rw [hout, funext hsame]

/-- The output of every sort is well-formed markup, with the tags of each entity around its range, where the tags of
the entities agree, and only there. -/
theorem parse_wellFormed_iff (F : FormattedText) (hF : F.NestedEntities) :
    (∀ S : StdSort, F.WellFormed (F.parse S true)) ↔ F.TagsAgree := by
  rw [← alwaysWellFormed_iff hF.toTagsOnly]
  exact ⟨tagsAgree_of_alwaysWellFormed hF.toTagsOnly, alwaysWellFormed_of_tagsAgree hF⟩

/-- A bold text with a part in italics. -/
def innerItalic : FormattedText :=
  ofText (ofString "a < b") [⟨⟨.bold, .invalid⟩, 0, 5⟩, ⟨⟨.italic, .invalid⟩, 2, 1⟩]

theorem parse_wellFormed_innerItalic :
    innerItalic.TagsAgree ∧
      ((∀ S : StdSort, innerItalic.WellFormed (innerItalic.parse S true)) ↔ innerItalic.TagsAgree) :=
  ⟨⟨by decide, by decide, by decide, by decide⟩,
    parse_wellFormed_iff innerItalic ⟨⟨rfl, by decide, by decide⟩, by decide⟩⟩

/-- A bold part and behind it one in italics. -/
def boldThenItalic : FormattedText :=
  ofText (ofString "aabb") [⟨⟨.bold, .invalid⟩, 0, 2⟩, ⟨⟨.italic, .invalid⟩, 2, 2⟩]

/-- The part in italics starts in front of the end of the bold one. -/
theorem not_parse_wellFormed_boldThenItalic :
    boldThenItalic.NestedEntities ∧ boldThenItalic.parse stableSort true = ofString "<b>aa<i></b>bb</i>" ∧
      ¬ boldThenItalic.WellFormed (boldThenItalic.parse stableSort true) := by
  have hF : boldThenItalic.NestedEntities := ⟨⟨rfl, by decide, by decide⟩, by decide⟩
  refine ⟨hF, by decide, fun h => ?_⟩
  obtain ⟨es, hes, hout⟩ := exists_order_parse hF.toTagsOnly h
  have hnone : ∀ es ∈ boldThenItalic.elements.permutations', boldThenItalic.parse stableSort true ≠
      wovenAtoms (tags es) 0 (atoms boldThenItalic.plainText) := by decide
  exact hnone es (List.mem_permutations'.mpr hes) hout

end FormattedText

end YaqtLib
