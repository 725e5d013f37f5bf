import YaqtLib.NestedElements
import YaqtLib.ParsedText

/-! A parsed text as its atoms with tags between them. The tags at one place tie under the comparator, so they come in
any order; where a place lies in a line break of two units, the tags are written into what is put for the line break. -/

namespace YaqtLib

open QString Splices NestedElements

namespace FormattedText

/-! ### Atoms with tags between them -/

/-- An atom with tags behind its first unit. -/
def breakAtom (tags atom : QString) : QString :=
  if atom = [cr, lf] then HTML_BR_TAG.take 1 ++ tags ++ HTML_BR_TAG.drop 1 else escapeAtom atom

/-- Atoms from a place on with the tags at each place. -/
def wovenAtoms (T : Nat → QString) : Nat → List QString → QString
  | i, [] => T i
  | i, atom :: as => T i ++ breakAtom (T (i + 1)) atom ++ wovenAtoms T (i + atom.length) as

def tagInsertions (i : Nat) (tags : List QString) : List Insertion := tags.map fun tag => ⟨i, tag, 0⟩

/-- The insertions from the front to the back, given the tags at each place as they are to stand. -/
def arranged (σ : Nat → List QString) : Nat → List QString → List Insertion
  | i, [] => tagInsertions i (σ i)
  | i, atom :: as =>
      tagInsertions i (σ i) ++ ((if atom = [cr, lf] then tagInsertions (i + 1) (σ (i + 1)) else []) ++ escapeOf i atom) ++
        arranged σ (i + atom.length) as

theorem mem_tagInsertions {i : Nat} {tags : List QString} {e : Insertion} :
    e ∈ tagInsertions i tags ↔ ∃ tag ∈ tags, ⟨i, tag, 0⟩ = e := List.mem_map

theorem applyAll_tagInsertions (pre : QString) (tags : List QString) (s : QString) :
    applyAll (tagInsertions pre.length tags).reverse (pre ++ s) = pre ++ (tags.flatten ++ s) := by
  induction tags generalizing s with
  | nil => rfl
  | cons tag tags ih =>
      have hlen : (pre.length : Int) ≤ (pre ++ (tags.flatten ++ s)).length := by
        rw [List.length_append]
        omega
      rw [tagInsertions, List.map_cons, List.reverse_cons, applyAll_append, ← tagInsertions, ih, applyAll_cons,
        applyAll_nil]
      dsimp only
      rw [replace_of_mem (Int.natCast_nonneg _) hlen, Int.add_zero, Int.toNat_natCast, List.take_left, List.drop_left,
        List.flatten_cons]
      simp only [List.append_assoc]

/-- Made from the back to the front the insertions write the atoms with the tags between them. -/
theorem applyAll_arranged (σ : Nat → List QString) (pre : QString) (as : List QString) :
    applyAll (arranged σ pre.length as).reverse (pre ++ as.flatten) =
      pre ++ wovenAtoms (fun i => (σ i).flatten) pre.length as := by
  induction as generalizing pre with
  | nil =>
      rw [arranged, wovenAtoms, List.flatten_nil, applyAll_tagInsertions, List.append_nil]
  | cons atom as ih =>
      have hrest := ih (pre ++ atom)
      rw [List.length_append, List.append_assoc, List.append_assoc] at hrest
      rw [arranged, List.reverse_append, applyAll_append, List.flatten_cons, hrest, List.reverse_append,
        List.reverse_append, applyAll_append, applyAll_append, applyAll_escapeOf, wovenAtoms, breakAtom]
      split_ifs with hbreak
      · have hlen : pre.length + 1 = (pre ++ HTML_BR_TAG.take 1).length := by
          rw [List.length_append]
          rfl
        have hinside := applyAll_tagInsertions (pre ++ HTML_BR_TAG.take 1) (σ (pre.length + 1))
          (HTML_BR_TAG.drop 1 ++ wovenAtoms (fun i => (σ i).flatten) (pre.length + atom.length) as)
        rw [← hlen, List.append_assoc, ← List.append_assoc (HTML_BR_TAG.take 1), List.take_append_drop,
          List.append_assoc] at hinside
        rw [hbreak, escapeAtom_break, ← hbreak, hinside, applyAll_tagInsertions]
        simp only [List.append_assoc]
      · rw [List.reverse_nil, applyAll_nil, applyAll_tagInsertions]
        simp only [List.append_assoc]

/-! ### The order of the insertions -/

/-- Atoms as a text falls into. -/
def AreAtoms (as : List QString) : Prop := ∀ atom ∈ as, atom = [cr, lf] ∨ ∃ c, atom = [c]

theorem areAtoms_atoms (text : QString) : AreAtoms (atoms text) := fun _ h => eq_of_mem_atoms h

theorem areAtoms_cons {atom : QString} {as : List QString} (h : AreAtoms (atom :: as)) :
    (atom = [cr, lf] ∨ (∃ c, atom = [c]) ∧ atom ≠ [cr, lf]) ∧ AreAtoms as := by
  obtain ⟨hatom, has⟩ := List.forall_mem_cons.mp h
  refine ⟨hatom.imp_right ?_, has⟩
  rintro ⟨c, rfl⟩
  exact ⟨⟨c, rfl⟩, fun heq => by cases heq⟩

/-- All tags from a place on, place by place. -/
def allTags (σ : Nat → List QString) (i n : Nat) : List Insertion :=
  (List.range' i n).flatMap fun p => tagInsertions p (σ p)

theorem arranged_perm (σ : Nat → List QString) (i : Nat) {as : List QString} (h : AreAtoms as) :
    (arranged σ i as).Perm (allTags σ i (as.flatten.length + 1) ++ escapesOf i as) := by
  induction as generalizing i with
  | nil => simp [arranged, allTags, escapesOf]
  | cons atom as ih =>
      obtain ⟨hatom, has⟩ := areAtoms_cons h
      have hrest := ih (i + atom.length) has
      have hmove (tags rest escape escapes : List Insertion) :
          (tags ++ escape ++ (rest ++ escapes)).Perm (tags ++ rest ++ (escape ++ escapes)) := by
        simp only [List.append_assoc]
        refine List.Perm.append_left tags ?_
        simp only [← List.append_assoc]
        exact List.perm_append_comm.append_right escapes
      rw [arranged, escapesOf, List.flatten_cons, List.length_append]
      rcases hatom with rfl | ⟨⟨c, rfl⟩, hne⟩
      · have htags : allTags σ i (2 + as.flatten.length + 1) =
            tagInsertions i (σ i) ++ tagInsertions (i + 1) (σ (i + 1)) ++ allTags σ (i + 2) (as.flatten.length + 1) := by
          have hlen : 2 + as.flatten.length + 1 = as.flatten.length + 1 + 1 + 1 := by omega
          rw [hlen, allTags, List.range'_succ, List.range'_succ, List.flatMap_cons, List.flatMap_cons, allTags,
            List.append_assoc]
        rw [if_pos rfl, List.length_cons, List.length_singleton, htags, ← List.append_assoc]
        exact (List.Perm.append_left _ hrest).trans (hmove _ _ _ _)
      · have htags : allTags σ i (1 + as.flatten.length + 1) =
            tagInsertions i (σ i) ++ allTags σ (i + 1) (as.flatten.length + 1) := by
          have hlen : 1 + as.flatten.length + 1 = as.flatten.length + 1 + 1 := by omega
          rw [hlen, allTags, List.range'_succ, List.flatMap_cons, allTags]
        rw [if_neg hne, List.nil_append, List.length_singleton, htags]
        exact (List.Perm.append_left _ hrest).trans (hmove _ _ _ _)

/-- The insertions among atoms lie between their ends. -/
theorem bounds_of_mem_arranged {σ : Nat → List QString} {i : Nat} {as : List QString} (h : AreAtoms as) {e : Insertion}
    (he : e ∈ arranged σ i as) : (i : Int) ≤ e.offset ∧ (i : Int) ≤ e.stop := by
  rcases List.mem_append.mp ((arranged_perm σ i h).mem_iff.mp he) with he | he
  · obtain ⟨p, hp, he⟩ := List.mem_flatMap.mp he
    obtain ⟨tag, -, rfl⟩ := mem_tagInsertions.mp he
    have hle := (List.mem_range'_1.mp hp).1
    simp only [Splice.stop]
    omega
  · obtain ⟨⟨atom, -, -, -, hlen⟩, hle, -⟩ := of_mem_escapesOf he
    simp only [Splice.stop, hlen]
    omega

theorem descending_arranged (σ : Nat → List QString) (i : Nat) {as : List QString} (h : AreAtoms as) :
    Descending (arranged σ i as).reverse := by
  rw [Descending, List.pairwise_reverse]
  have htags (q : Nat) (tags : List QString) :
      (tagInsertions q tags).Pairwise fun a b => Splice.before a b = false :=
    List.pairwise_map.mpr (List.pairwise_of_forall fun a b => Splice.before_eq_false_iff.mpr (Or.inr ⟨rfl, le_rfl⟩))
  have hescape (q : Nat) (atom : QString) : (escapeOf q atom).Pairwise fun a b => Splice.before a b = false := by
    rw [escapeOf]
    split_ifs
    · exact List.Pairwise.nil
    · exact List.pairwise_singleton _ _
  induction as generalizing i with
  | nil => exact htags i (σ i)
  | cons atom as ih =>
      obtain ⟨hatom, has⟩ := areAtoms_cons h
      have hrest := ih (i + atom.length) has
      have hin : ∀ e ∈ (if atom = [cr, lf] then tagInsertions (i + 1) (σ (i + 1)) else []),
          e.offset = i + 1 ∧ e.stop = i + 1 ∧ atom.length = 2 := by
        intro e he
        split_ifs at he with hbreak
        · obtain ⟨tag, -, rfl⟩ := mem_tagInsertions.mp he
          exact ⟨rfl, by simp [Splice.stop], by rw [hbreak]; rfl⟩
        · exact absurd he List.not_mem_nil
      have hesc : ∀ e ∈ escapeOf i atom, e.offset = i ∧ e.stop = i + atom.length := by
        intro e he
        obtain ⟨-, rfl⟩ := mem_escapeOf.mp he
        exact ⟨rfl, rfl⟩
      have hbehind : ∀ e ∈ arranged σ (i + atom.length) as,
          (i + atom.length : Int) ≤ e.offset ∧ (i + atom.length : Int) ≤ e.stop := by
        intro e he
        exact_mod_cast bounds_of_mem_arranged has he
      rw [arranged]
      refine List.pairwise_append.mpr ⟨List.pairwise_append.mpr
        ⟨htags i _, List.pairwise_append.mpr ⟨?_, hescape i atom, ?_⟩, ?_⟩, hrest, ?_⟩
      · split_ifs
        · exact htags _ _
        · exact List.Pairwise.nil
      · intro a ha b hb
        have ha := hin a ha
        have hb := hesc b hb
        exact Splice.before_eq_false_iff.mpr (by omega)
      · intro a ha b hb
        obtain ⟨tag, -, rfl⟩ := mem_tagInsertions.mp ha
        rw [Splice.before_eq_false_iff]
        simp only [Splice.stop] at hin hesc ⊢
        rcases List.mem_append.mp hb with hb | hb
        · have hb := hin b hb
          omega
        · have hb := hesc b hb
          omega
      · intro a ha b hb
        have hb := hbehind b hb
        rw [Splice.before_eq_false_iff]
        rcases List.mem_append.mp ha with ha | ha
        · obtain ⟨tag, -, rfl⟩ := mem_tagInsertions.mp ha
          simp only [Splice.stop] at hb ⊢
          omega
        · rcases List.mem_append.mp ha with ha | ha
          · have ha := hin a ha
            omega
          · have ha := hesc a ha
            omega

/-- A tag at a place, in the sense of the comparator. -/
def tieAt (p : Nat) : Insertion := ⟨p, [], 0⟩

theorem filter_ties_tagInsertions (p q : Nat) (tags : List QString) :
    (tagInsertions q tags).filter (tieAt p).ties = if q = p then tagInsertions q tags else [] := by
  split_ifs with h
  · subst h
    refine List.filter_eq_self.mpr fun e he => ?_
    obtain ⟨tag, -, rfl⟩ := mem_tagInsertions.mp he
    exact decide_eq_true ⟨rfl, rfl⟩
  · refine List.filter_eq_nil_iff.mpr fun e he => ?_
    obtain ⟨tag, -, rfl⟩ := mem_tagInsertions.mp he
    simpa [Splice.ties, Splice.stop, tieAt] using h

/-- An escape takes units out, so it ties with no tag. -/
theorem filter_ties_escapesOf (p i : Nat) {as : List QString} (h : AreAtoms as) :
    (escapesOf i as).filter (tieAt p).ties = [] := by
  refine List.filter_eq_nil_iff.mpr fun e he => ?_
  obtain ⟨⟨atom, hmem, -, -, hlen⟩, -, -⟩ := of_mem_escapesOf he
  have hpos : 0 < atom.length := by
    rcases h atom hmem with rfl | ⟨c, rfl⟩
    · exact Nat.two_pos
    · exact Nat.one_pos
  simp only [Splice.ties, Splice.stop, tieAt, hlen, decide_eq_true_eq]
  omega

theorem escapesOf_singleton (i : Nat) (atom : QString) : escapesOf i [atom] = escapeOf i atom :=
  List.append_nil _

/-- The tags at a place stand in the order they are given in. -/
theorem filter_ties_arranged (σ : Nat → List QString) (p i : Nat) {as : List QString} (h : AreAtoms as) :
    (arranged σ i as).filter (tieAt p).ties =
      if i ≤ p ∧ p ≤ i + as.flatten.length then tagInsertions p (σ p) else [] := by
  induction as generalizing i with
  | nil =>
      rw [arranged, filter_ties_tagInsertions, List.flatten_nil, List.length_nil]
      by_cases hip : i = p
      · rw [if_pos hip, if_pos (by omega), hip]
      · rw [if_neg hip, if_neg (by omega)]
  | cons atom as ih =>
      obtain ⟨hatom, has⟩ := areAtoms_cons h
      have hescape : (escapeOf i atom).filter (tieAt p).ties = [] := by
        rw [← escapesOf_singleton]
        exact filter_ties_escapesOf p i fun a ha => h a ((List.mem_singleton.mp ha) ▸ List.mem_cons_self)
      rw [arranged, List.filter_append, List.filter_append, List.filter_append, hescape, List.append_nil, ih _ has,
        filter_ties_tagInsertions, List.flatten_cons, List.length_append]
      rcases hatom with rfl | ⟨⟨c, rfl⟩, hne⟩
      · rw [if_pos rfl, filter_ties_tagInsertions]
        simp only [List.length_cons, List.length_nil]
        by_cases hip : i = p
        · subst hip
          rw [if_pos rfl, if_neg (by omega), if_neg (by omega), if_pos (by omega), List.append_nil, List.append_nil]
        · by_cases hip' : i + 1 = p
          · subst hip'
            rw [if_neg hip, if_pos rfl, if_neg (by omega), if_pos (by omega), List.append_nil, List.nil_append]
          · rw [if_neg hip, if_neg hip', List.nil_append, List.nil_append]
            exact if_congr (by omega) rfl rfl
      · rw [if_neg hne, List.filter_nil]
        simp only [List.length_cons, List.length_nil]
        by_cases hip : i = p
        · subst hip
          rw [if_pos rfl, if_neg (by omega), if_pos (by omega), List.append_nil, List.append_nil]
        · rw [if_neg hip, List.nil_append, List.nil_append]
          exact if_congr (by omega) rfl rfl

/-! ### Elements -/

/-- The tags of an entity around its part of the text. -/
def elementOf (F : FormattedText) (entity : PositionedFormattedTextEntity) (i : Nat) : Option (Element QChar) :=
  let htmlTags := entity.getHtmlTags F.plainText i
  if htmlTags.1 = [] ∧ htmlTags.2 = [] then none
  else if h : entity.offset.toNat < (entity.offset + entity.length).toNat then
    some ⟨entity.offset.toNat, (entity.offset + entity.length).toNat, htmlTags.1, htmlTags.2, h⟩
  else none

/-- The entities with tags. -/
def elements (F : FormattedText) : List (Element QChar) := F.entities.zipIdx.filterMap fun e => F.elementOf e.1 e.2

/-- The text stands at its place, and its entities lie in it, have a length and are shown by tags alone. -/
structure TagsOnly (F : FormattedText) : Prop where
  prefixOffset : F.prefixOffset = 0
  inText : ∀ entity ∈ F.entities,
    0 ≤ entity.offset ∧ 0 < entity.length ∧ entity.offset + entity.length ≤ F.plainText.length
  types : ∀ entity ∈ F.entities, entity.type ≠ .spoiler ∧ entity.type ≠ .customEmoji

def tagSplices (e : Element QChar) : List Insertion := [⟨e.start, e.opening, 0⟩, ⟨e.stop, e.closing, 0⟩]

/-- The tags at a place in any order. -/
def tagsAt (es : List (Element QChar)) (p : Nat) : List QString :=
  (es.filter fun e => e.stop = p).map Element.closing ++ (es.filter fun e => e.start = p).map Element.opening

section Parse

variable {F : FormattedText} (hF : F.TagsOnly)

include hF

theorem entityInsertions_eq {entity : PositionedFormattedTextEntity} (h : entity ∈ F.entities) (i : Nat) :
    F.entityInsertions entity i = (F.elementOf entity i).toList.flatMap tagSplices := by
  have htypes := hF.types entity h
  have hrange := hF.inText entity h
  have hreplacement : entity.getReplacement F = [] := by
    unfold PositionedFormattedTextEntity.getReplacement
    split
    · exact absurd ‹entity.type = .customEmoji› htypes.2
    · exact absurd ‹entity.type = .spoiler› htypes.1
    · rfl
  rw [entityInsertions, elementOf, hreplacement]
  have hlt : entity.offset.toNat < (entity.offset + entity.length).toNat := by omega
  by_cases hempty : (entity.getHtmlTags F.plainText i).1 = [] ∧ (entity.getHtmlTags F.plainText i).2 = []
  · rw [if_pos hempty, if_pos hempty]
    rfl
  · have hstart : ((entity.offset.toNat : Nat) : Int) = entity.offset := by omega
    have hstop : (((entity.offset + entity.length).toNat : Nat) : Int) = entity.offset + entity.length := by omega
    rw [if_neg hempty, if_neg hempty, dif_pos hlt, Option.toList_some, List.flatMap_singleton, tagSplices, hstart, hstop]
    rfl

theorem entitiesInsertions_eq : F.entitiesInsertions = F.elements.flatMap tagSplices := by
  rw [entitiesInsertions, elements, List.filterMap_eq_flatMap_toList, List.flatMap_assoc]
  refine List.flatMap_congr fun e hmem => ?_
  exact entityInsertions_eq hF (List.mem_of_getElem? (List.mem_zipIdx_iff_getElem?.mp hmem)) e.2

/-- An element lies in the text. -/
theorem stop_le_of_mem_elements {e : Element QChar} (h : e ∈ F.elements) : e.stop ≤ F.plainText.length := by
  obtain ⟨⟨entity, i⟩, hmem, he⟩ := List.mem_filterMap.mp h
  have hrange := hF.inText entity (List.mem_of_getElem? (List.mem_zipIdx_iff_getElem?.mp hmem))
  rw [elementOf] at he
  dsimp only at he
  split_ifs at he
  cases he
  dsimp only
  omega

end Parse

theorem filter_ties_tagSplices (es : List (Element QChar)) (p : Nat) :
    ((es.flatMap tagSplices).filter (tieAt p).ties).Perm (tagInsertions p (tagsAt es p)) := by
  induction es with
  | nil => exact List.Perm.refl []
  | cons e es ih =>
      have hlt := e.lt
      have hone : (tagSplices e).filter (tieAt p).ties =
          if e.start = p then [⟨p, e.opening, 0⟩] else if e.stop = p then [⟨p, e.closing, 0⟩] else [] := by
        have hstart := filter_ties_tagInsertions p e.start [e.opening]
        have hstop := filter_ties_tagInsertions p e.stop [e.closing]
        have happend : tagSplices e = tagInsertions e.start [e.opening] ++ tagInsertions e.stop [e.closing] := rfl
        rw [happend, List.filter_append, hstart, hstop]
        split_ifs with h h'
        · omega
        · rw [h]
          rfl
        · rename_i h'
          rw [h']
          rfl
        · rfl
      rw [List.flatMap_cons, List.filter_append, hone]
      by_cases hstart : e.start = p
      · have htags : tagsAt (e :: es) p = (es.filter fun e => e.stop = p).map Element.closing ++
            e.opening :: (es.filter fun e => e.start = p).map Element.opening := by
          have hstop : e.stop ≠ p := by omega
          simp [tagsAt, hstart, hstop]
        rw [if_pos hstart, htags]
        exact (ih.cons _).trans (List.perm_middle.symm.map fun tag => (⟨p, tag, 0⟩ : Insertion))
      · rw [if_neg hstart]
        by_cases hstop : e.stop = p
        · have htags : tagsAt (e :: es) p = e.closing :: tagsAt es p := by simp [tagsAt, hstart, hstop]
          rw [if_pos hstop, htags]
          exact ih.cons _
        · have htags : tagsAt (e :: es) p = tagsAt es p := by simp [tagsAt, hstart, hstop]
          rw [if_neg hstop, htags]
          exact ih

/-! ### What a text is parsed to -/

/-- The tags at each place in some order. -/
def Arrangement (F : FormattedText) (σ : Nat → List QString) : Prop := ∀ p, (σ p).Perm (tagsAt F.elements p)

theorem breakAtom_nil (atom : QString) : breakAtom [] atom = escapeAtom atom := by
  rw [breakAtom]
  split_ifs with h
  · rw [h, List.append_nil, List.take_append_drop, escapeAtom_break]
  · rfl

theorem wovenAtoms_nil {T : Nat → QString} (h : ∀ p, T p = []) (i : Nat) (as : List QString) :
    wovenAtoms T i as = as.flatMap escapeAtom := by
  induction as generalizing i with
  | nil => exact h i
  | cons atom as ih => rw [wovenAtoms, h, h, breakAtom_nil, ih, List.flatMap_cons, List.nil_append]

theorem map_insertion_tagInsertions (p : Nat) (tags : List QString) :
    (tagInsertions p tags).map Splice.insertion = tags := by
  rw [tagInsertions, List.map_map]
  exact List.map_id' tags

theorem tagInsertions_map_insertion {p : Nat} {l : List Insertion} (h : ∀ e ∈ l, (tieAt p).ties e = true) :
    tagInsertions p (l.map Splice.insertion) = l := by
  rw [tagInsertions, List.map_map]
  refine List.map_congr_left (fun e he => ?_) |>.trans (List.map_id l)
  have htie := of_decide_eq_true (h e he)
  obtain ⟨offset, insertion, removeLength⟩ := e
  simp only [Splice.stop, tieAt, Int.add_zero] at htie
  obtain ⟨hstop, rfl⟩ := htie
  have hzero : removeLength = 0 := by omega
  subst hzero
  rfl

/-- No two escapes tie. -/
theorem filter_ties_escapesOf_of_perm {l l' : List Insertion} {i : Nat} {text : QString} {e : Insertion}
    (h : l.Perm ((escapesOf i (atoms text)).filter e.ties)) (h' : l'.Perm ((escapesOf i (atoms text)).filter e.ties)) :
    l = l' := by
  have hpairwise := (List.pairwise_reverse.mp (escapesOf_reverse_pairwise i text)).filter e.ties
  have hties : ∀ d ∈ (escapesOf i (atoms text)).filter e.ties, d.stop = e.stop := fun d hd =>
    (of_decide_eq_true (List.mem_filter.mp hd).2).1
  generalize (escapesOf i (atoms text)).filter e.ties = escapes at h h' hpairwise hties
  rcases escapes with _ | ⟨d, _ | ⟨d', rest⟩⟩
  · rw [h.eq_nil, h'.eq_nil]
  · rw [List.perm_singleton.mp h, List.perm_singleton.mp h']
  · have hlt := List.rel_of_pairwise_cons hpairwise List.mem_cons_self
    have hd := hties d List.mem_cons_self
    have hd' := hties d' (List.mem_cons_of_mem d List.mem_cons_self)
    omega

section Woven

variable {F : FormattedText} (hF : F.TagsOnly)

include hF

theorem arranged_perm_insertions {σ : Nat → List QString} (hσ : F.Arrangement σ) :
    (arranged σ 0 (atoms F.plainText)).Perm (F.insertions true) := by
  refine (arranged_perm σ 0 (areAtoms_atoms F.plainText)).trans (List.Perm.trans ?_ (insertions_perm F).symm)
  refine List.Perm.append_right _ ?_
  rw [entitiesInsertions_eq hF, allTags, flatten_atoms, ← List.range_eq_range']
  have hplace : ∀ e ∈ F.elements.flatMap tagSplices,
      ∃ p : Nat, p < F.plainText.length + 1 ∧ e.offset = p ∧ e.stop = p := by
    intro e he
    obtain ⟨d, hd, he⟩ := List.mem_flatMap.mp he
    have hstop := stop_le_of_mem_elements hF hd
    have hlt := d.lt
    rcases List.mem_cons.mp he with rfl | he
    · exact ⟨d.start, by omega, rfl, Int.add_zero _⟩
    · rw [List.mem_singleton.mp he]
      exact ⟨d.stop, by omega, rfl, Int.add_zero _⟩
  refine List.Perm.trans (List.Perm.flatMap_left _ fun p _ => ?_)
    (perm_flatMap_filter (fun e => e.offset.toNat) fun e he => ?_)
  · have hfilter : (F.elements.flatMap tagSplices).filter (fun e => decide (e.offset.toNat = p)) =
        (F.elements.flatMap tagSplices).filter (tieAt p).ties := by
      refine List.filter_congr fun e he => ?_
      obtain ⟨q, -, hoffset, hstop⟩ := hplace e he
      rw [Splice.ties, hoffset, hstop, tieAt, Splice.stop]
      refine decide_eq_decide.mpr ?_
      dsimp only
      omega
    rw [hfilter]
    exact ((hσ p).map _).trans (filter_ties_tagSplices F.elements p).symm
  · obtain ⟨q, hlt, hoffset, -⟩ := hplace e he
    rw [hoffset]
    exact hlt

/-- The tags at a place in the sorted insertions, as they come to stand. -/
def tagsOf (sorted : List Insertion) (p : Nat) : List QString :=
  ((sorted.filter (tieAt p).ties).map Splice.insertion).reverse

theorem arrangement_tagsOf {sorted : List Insertion} (hperm : sorted.Perm (F.insertions true)) :
    F.Arrangement (tagsOf sorted) := by
  intro p
  have hfilter := (hperm.trans (insertions_perm F)).filter (tieAt p).ties
  rw [List.filter_append, filter_ties_escapesOf p 0 (areAtoms_atoms F.plainText), List.append_nil,
    entitiesInsertions_eq hF] at hfilter
  have hmap := (hfilter.trans (filter_ties_tagSplices F.elements p)).map Splice.insertion
  rw [map_insertion_tagInsertions] at hmap
  exact (List.reverse_perm _).trans hmap

/-- An element's tags tie with those at some place only. -/
theorem filter_ties_entitiesInsertions {e : Insertion} (h : ¬ ∃ p : Nat, e.offset = p ∧ e.stop = p) :
    F.entitiesInsertions.filter e.ties = [] := by
  rw [entitiesInsertions_eq hF]
  refine List.filter_eq_nil_iff.mpr fun d hd htie => h ?_
  obtain ⟨hstop, hoffset⟩ := of_decide_eq_true htie
  obtain ⟨c, -, hd⟩ := List.mem_flatMap.mp hd
  rcases List.mem_cons.mp hd with rfl | hd
  · exact ⟨c.start, hoffset.symm, hstop.symm.trans (Int.add_zero _)⟩
  · obtain rfl := List.mem_singleton.mp hd
    exact ⟨c.stop, hoffset.symm, hstop.symm.trans (Int.add_zero _)⟩

/-- No tags stand behind the text. -/
theorem tagsAt_eq_nil {p : Nat} (hp : F.plainText.length < p) : tagsAt F.elements p = [] := by
  have hstop : ∀ e ∈ F.elements, e.stop ≠ p := fun e he => by
    have hle := stop_le_of_mem_elements hF he
    omega
  have hstart : ∀ e ∈ F.elements, e.start ≠ p := fun e he => by
    have hle := stop_le_of_mem_elements hF he
    have hlt := e.lt
    omega
  have hnostop : F.elements.filter (fun e => e.stop = p) = [] :=
    List.filter_eq_nil_iff.mpr fun e he => by simpa using hstop e he
  have hnostart : F.elements.filter (fun e => e.start = p) = [] :=
    List.filter_eq_nil_iff.mpr fun e he => by simpa using hstart e he
  rw [tagsAt, hnostop, hnostart]
  rfl

/-- A sort orders the insertions but for the tags at each place. -/
theorem eq_arranged {sorted : List Insertion} (hperm : sorted.Perm (F.insertions true)) (h : Descending sorted) :
    sorted = (arranged (tagsOf sorted) 0 (atoms F.plainText)).reverse := by
  have hσ := arrangement_tagsOf hF hperm
  have hatoms := areAtoms_atoms F.plainText
  have hperm' := arranged_perm_insertions hF hσ
  have hsame : sorted.Perm (arranged (tagsOf sorted) 0 (atoms F.plainText)).reverse :=
    calc List.Perm sorted (F.insertions true) := hperm
      List.Perm _ (arranged (tagsOf sorted) 0 (atoms F.plainText)) := hperm'.symm
      List.Perm _ (arranged (tagsOf sorted) 0 (atoms F.plainText)).reverse := (List.reverse_perm _).symm
  refine eq_of_descending_of_ties hsame h (descending_arranged _ 0 hatoms) fun e => ?_
  by_cases hplace : ∃ p : Nat, e.offset = p ∧ e.stop = p
  · obtain ⟨p, hoffset, hstop⟩ := hplace
    have hties : e.ties = (tieAt p).ties := by
      funext d
      rw [Splice.ties, Splice.ties, hoffset, hstop]
      exact decide_eq_decide.mpr (by simp only [Splice.stop, tieAt, Int.add_zero])
    rw [hties, List.filter_reverse, filter_ties_arranged _ p 0 hatoms, flatten_atoms]
    have htags : ∀ d ∈ sorted.filter (tieAt p).ties, (tieAt p).ties d = true := fun d hd => (List.mem_filter.mp hd).2
    have hself : (tagInsertions p (tagsOf sorted p)).reverse = sorted.filter (tieAt p).ties := by
      rw [tagsOf, tagInsertions, List.map_reverse, List.reverse_reverse, ← tagInsertions,
        tagInsertions_map_insertion htags]
    split_ifs with hin
    · exact hself.symm
    · have hnil : tagsOf sorted p = [] := by
        have hp := hσ p
        rw [tagsAt_eq_nil hF (by omega)] at hp
        exact hp.eq_nil
      rw [← hself, hnil]
      rfl
  · have hescapes {l : List Insertion} (hl : l.Perm (F.insertions true)) :
        (l.filter e.ties).Perm ((escapesOf 0 (atoms F.plainText)).filter e.ties) := by
      have hfilter := (hl.trans (insertions_perm F)).filter e.ties
      rwa [List.filter_append, filter_ties_entitiesInsertions hF hplace, List.nil_append] at hfilter
    exact filter_ties_escapesOf_of_perm (hescapes hperm) (hescapes ((List.reverse_perm _).trans hperm'))

/-- What a text may be parsed to: its atoms with the tags of the elements between them, those at each place in any
order. -/
theorem exists_parse_iff_woven (out : QString) :
    (∃ S : StdSort, F.parse S true = out) ↔
      ∃ σ, F.Arrangement σ ∧ out = wovenAtoms (fun p => (σ p).flatten) 0 (atoms F.plainText) := by
  by_cases hnil : F.entitiesInsertions = []
  · have helements : F.elements = [] := by
      rw [entitiesInsertions_eq hF, List.flatMap_eq_nil_iff] at hnil
      exact List.eq_nil_iff_forall_not_mem.mpr fun e he => List.cons_ne_nil _ _ (hnil e he)
    have htags (p : Nat) : tagsAt F.elements p = [] := by rw [helements]; rfl
    have hplain (σ : Nat → List QString) (hσ : F.Arrangement σ) :
        wovenAtoms (fun p => (σ p).flatten) 0 (atoms F.plainText) = getPlainEscapedFor F.plainText := by
      have hσnil (p : Nat) : (σ p).flatten = [] := by
        have hp := hσ p
        rw [htags] at hp
        rw [hp.eq_nil, List.flatten_nil]
      rw [getPlainEscapedFor_eq, wovenAtoms_nil hσnil]
    constructor
    · rintro ⟨S, rfl⟩
      have hσ : F.Arrangement (tagsAt F.elements) := fun p => List.Perm.refl _
      exact ⟨_, hσ, by rw [parse_of_nil S hnil, hplain _ hσ]⟩
    · rintro ⟨σ, hσ, rfl⟩
      exact ⟨stableSort, by rw [parse_of_nil _ hnil, hplain σ hσ]⟩
  · have happly (σ : Nat → List QString) :
        applyAll (arranged σ 0 (atoms F.plainText)).reverse F.plainText =
          wovenAtoms (fun p => (σ p).flatten) 0 (atoms F.plainText) := by
      have hall := applyAll_arranged σ [] (atoms F.plainText)
      rwa [List.length_nil, List.nil_append, List.nil_append, flatten_atoms] at hall
    rw [exists_parse_iff hnil, hF.prefixOffset]
    simp only [map_shift_zero]
    constructor
    · rintro ⟨sorted, hperm, hsorted, rfl⟩
      refine ⟨tagsOf sorted, arrangement_tagsOf hF hperm, ?_⟩
      rw [← happly, ← eq_arranged hF hperm hsorted]
    · rintro ⟨σ, hσ, rfl⟩
      exact ⟨_, (List.reverse_perm _).trans (arranged_perm_insertions hF hσ),
        descending_arranged σ 0 (areAtoms_atoms F.plainText), happly σ⟩

end Woven

end FormattedText

end YaqtLib
