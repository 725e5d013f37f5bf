import Mathlib.Data.Fintype.EquivFin
import YaqtLib.CommutingWords
import YaqtLib.WovenText

/-! Whether a parsed text is well-formed markup: a sequence of tags, nested and balanced, of which each pair encloses
the range of its entity, and which without the tags is the escaped text. The comparator looks at the ends of insertions
only, so the tags at one place come in any order, and it splits the tag of a line break at a place between its two
units. -/

namespace YaqtLib

open QString Splices NestedElements Words

instance : Finite QChar := Finite.of_injective UInt16.toFin fun _ _ h => UInt16.toFin_inj.mp h

namespace FormattedText

/-- A unit of the text as it is escaped, or the tag of a line break. -/
def Piece (text : QString) (p q : Nat) (s : QString) : Prop :=
  ∃ atom, (atom = [cr, lf] ∨ ∃ c, atom = [c]) ∧ atom <+: text.drop p ∧ q = p + atom.length ∧ s = escapeAtom atom

/-- The output is written from the pieces of the whole text and from the elements, each of them once. -/
def WellFormed (F : FormattedText) (out : QString) : Prop :=
  ∃ es : List (Element QChar), es.Perm F.elements ∧ Written (Piece F.plainText) 0 F.plainText.length es out

/-- A place between the two units of a line break. -/
def SplitsBreak (text : QString) (p : Nat) : Prop := Straddles (text.take p) (text.drop p)

instance (text : QString) (p : Nat) : Decidable (SplitsBreak text p) := inferInstanceAs (Decidable (Straddles _ _))

/-! ### Reading the output -/

theorem Piece.lt {text : QString} {p q : Nat} {s : QString} (h : Piece text p q s) : p < q := by
  obtain ⟨atom, hatom, -, rfl, -⟩ := h
  rcases hatom with rfl | ⟨c, rfl⟩
  · exact Nat.lt_add_of_pos_right Nat.two_pos
  · exact Nat.lt_succ_self p

/-- In front of a line break a piece is the break or its first unit. -/
theorem Piece.of_break {text rest : QString} {p q : Nat} {s : QString} (hrest : text.drop p = cr :: lf :: rest)
    (h : Piece text p q s) : q = p + 2 ∧ s = HTML_BR_TAG ∨ q = p + 1 ∧ s = [cr] := by
  obtain ⟨atom, hatom, hbegins, rfl, rfl⟩ := h
  rw [hrest] at hbegins
  rcases hatom with rfl | ⟨c, rfl⟩
  · exact Or.inl ⟨rfl, escapeAtom_break⟩
  · obtain ⟨rfl, -⟩ := List.cons_prefix_cons.mp hbegins
    exact Or.inr ⟨rfl, by decide⟩

/-- In front of another unit a piece is the unit. -/
theorem Piece.of_unit {text rest : QString} {c : QChar} {p q : Nat} {s : QString} (hrest : text.drop p = c :: rest)
    (hc : ¬ (c = cr ∧ rest.head? = some lf)) (h : Piece text p q s) : q = p + 1 ∧ s = escapeAtom [c] := by
  obtain ⟨atom, hatom, hbegins, rfl, rfl⟩ := h
  rw [hrest] at hbegins
  rcases hatom with rfl | ⟨d, rfl⟩
  · obtain ⟨hcr, tail, htail⟩ := List.cons_prefix_cons.mp hbegins
    exact absurd ⟨hcr.symm, htail ▸ rfl⟩ hc
  · obtain ⟨rfl, -⟩ := List.cons_prefix_cons.mp hbegins
    exact ⟨rfl, rfl⟩

theorem not_piece_of_nil {text : QString} {p q : Nat} {s : QString} (hrest : text.drop p = []) :
    ¬ Piece text p q s := by
  rintro ⟨atom, hatom, hbegins, -, -⟩
  rw [hrest, List.prefix_nil] at hbegins
  subst hbegins
  rcases hatom with hatom | ⟨c, hatom⟩
  · cases hatom
  · cases hatom

theorem lt_length_of_drop {text rest : QString} {c : QChar} {p : Nat} (hrest : text.drop p = c :: rest) :
    p < text.length := by
  have hlen := congrArg List.length hrest
  rw [List.length_drop, List.length_cons] at hlen
  omega

theorem splitsBreak_succ_iff {text rest : QString} {c : QChar} {p : Nat} (hrest : text.drop p = c :: rest) :
    SplitsBreak text (p + 1) ↔ c = cr ∧ rest.head? = some lf := by
  have hget : text[p]? = some c := by
    rw [← List.head?_drop, hrest]
    rfl
  have htail : text.drop (p + 1) = rest := by rw [← List.drop_drop, hrest]; rfl
  have hlast : (text.take (p + 1)).getLast? = some c := by
    rw [List.take_add_one, hget, Option.toList_some, List.getLast?_concat]
  rw [SplitsBreak, Straddles, hlast, htail, Option.some.injEq]

/-- From a place on the same tags stand at every place, and no place between the pieces splits a line break. -/
structure ReadsSame (text : QString) (T T' : Nat → QString) (i : Nat) (cut : List (Nat × QString)) : Prop where
  same : ∀ p, i ≤ p → p ≤ text.length → T p = T' p
  unsplit : ∀ p ∈ places i cut, i < p → ¬ SplitsBreak text p

/-- One piece more in front. -/
theorem ReadsSame.cons {text : QString} {T T' : Nat → QString} {i q : Nat} {s : QString} {cut : List (Nat × QString)}
    (h : ReadsSame text T T' q cut) (hcut : IsCut (Piece text) q cut text.length)
    (hsame : ∀ p, i ≤ p → p < q → T p = T' p) (hq : ¬ SplitsBreak text q) :
    ReadsSame text T T' i ((q, s) :: cut) where
  same p hp hp' := by
    rcases lt_or_ge p q with hlt | hle
    · exact hsame p hp hlt
    · exact h.same p hle hp'
  unsplit p hmem hlt := by
    have hmem' : p ∈ places q cut := List.mem_of_ne_of_mem hlt.ne' hmem
    rcases (IsCut.bounds (fun _ _ _ => Piece.lt) hcut hmem').1.eq_or_lt with rfl | hlt'
    · exact hq
    · exact h.unsplit p hmem' hlt'

/-- What is woven in two ways with tags of the same lengths reads the same. -/
theorem readsSame_of_wovenAtoms_eq {text : QString} {T T' : Nat → QString}
    (hlen : ∀ p, (T p).length = (T' p).length) {i : Nat} {cut : List (Nat × QString)}
    (hcut : IsCut (Piece text) i cut text.length) (hrest : ∀ p, i < p → p ∉ places i cut → T' p = [])
    (h : wovenAtoms T i (atoms (text.drop i)) = woven T' i cut) : ReadsSame text T T' i cut := by
  obtain ⟨rest, hdrop⟩ : ∃ rest, text.drop i = rest := ⟨_, rfl⟩
  rw [hdrop] at h
  induction rest using atoms_induction generalizing i cut with
  | nil =>
      cases cut with
      | nil =>
          cases hcut
          refine ⟨fun p hp hp' => ?_, fun p hmem hlt => ?_⟩
          · rw [le_antisymm hp' hp]
            exact h
          · exact absurd (List.mem_singleton.mp hmem) hlt.ne'
      | cons c cut => exact absurd hcut.1 (not_piece_of_nil hdrop)
  | lineBreak rest ih =>
      have htail : text.drop (i + 1) = lf :: rest := by rw [← List.drop_drop, hdrop]; rfl
      obtain ⟨q, s, cut, rfl, hpiece, hback⟩ := exists_cons_of_isCut hcut (lt_length_of_drop hdrop).ne
      rw [atoms_break, wovenAtoms, breakAtom, if_pos rfl, woven] at h
      simp only [List.append_assoc] at h
      obtain ⟨hi, h⟩ := List.append_inj h (hlen i)
      rcases hpiece.of_break hdrop with ⟨rfl, rfl⟩ | ⟨rfl, rfl⟩
      · have hinside : i + 1 ∉ places i ((i + 2, HTML_BR_TAG) :: cut) := by
          intro hmem
          have hmem' : i + 1 ∈ places (i + 2) cut := List.mem_of_ne_of_mem (by omega) hmem
          have hle := (IsCut.bounds (fun _ _ _ => Piece.lt) hback hmem').1
          omega
        have hnone' := hrest (i + 1) (by omega) hinside
        have hnone : T (i + 1) = [] := List.length_eq_zero_iff.mp (by rw [hlen, hnone', List.length_nil])
        rw [hnone, List.nil_append, ← List.append_assoc (HTML_BR_TAG.take 1), List.take_append_drop] at h
        have hbehind := ih hback
          (fun p hp hmem => hrest p (by omega) fun hmem' => hmem (List.mem_of_ne_of_mem (by omega) hmem'))
          (List.append_cancel_left h) (by rw [← List.drop_drop, hdrop]; rfl)
        refine hbehind.cons hback (fun p hp hlt => ?_) ?_
        · rcases (by omega : p = i ∨ p = i + 1) with rfl | rfl
          · exact hi
          · rw [hnone, hnone']
        · rw [splitsBreak_succ_iff htail]
          exact fun hsplit => absurd hsplit.1 (by decide)
      · -- the break begins with the unit of a tag, not with its own first unit
        exact absurd (List.cons.inj h).1 (by decide)
  | unit c rest hc ih =>
      have hbreak : breakAtom (T (i + 1)) [c] = escapeAtom [c] := if_neg fun heq => by cases heq
      obtain ⟨q, s, cut, rfl, hpiece, hback⟩ := exists_cons_of_isCut hcut (lt_length_of_drop hdrop).ne
      obtain ⟨rfl, rfl⟩ := hpiece.of_unit hdrop hc
      rw [atoms_cons hc, wovenAtoms, hbreak, woven] at h
      simp only [List.append_assoc] at h
      obtain ⟨hi, h⟩ := List.append_inj h (hlen i)
      have hbehind := ih hback
        (fun p hp hmem => hrest p (by omega) fun hmem' => hmem (List.mem_of_ne_of_mem (by omega) hmem'))
        (List.append_cancel_left h) (by rw [← List.drop_drop, hdrop]; rfl)
      refine hbehind.cons hback (fun p hp hlt => ?_) ?_
      · rw [(by omega : p = i)]
        exact hi
      · rw [splitsBreak_succ_iff hdrop]
        exact hc

/-! ### The tags of entities -/

/-- The names of the tags. -/
inductive TagName where
  | b
  | i
  | s
  | u
  | pre
  | a

namespace TagName

/-- The first letter of a name, which tells it from the others. -/
def letter : TagName → QChar
  | .b => 0x62
  | .i => 0x69
  | .s => 0x73
  | .u => 0x75
  | .pre => 0x70
  | .a => 0x61

def closing : TagName → QString
  | .b => ofString "</b>"
  | .i => ofString "</i>"
  | .s => ofString "</s>"
  | .u => ofString "</u>"
  | .pre => ofString "</pre>"
  | .a => ofString "</a>"

theorem letter_ne_slash (name : TagName) : name.letter ≠ 0x2F := by
  cases name <;> decide

theorem closing_eq_of_letter {name name' : TagName} (h : name.letter = name'.letter) : name.closing = name'.closing := by
  revert h
  cases name <;> cases name' <;> decide

theorem exists_closing_eq (name : TagName) : ∃ t, name.closing = lt :: 0x2F :: t := by
  cases name <;> exact ⟨_, rfl⟩

theorem eq_of_closing_prefix {name name' : TagName} (h : name.closing <+: name'.closing) :
    name.closing = name'.closing := by
  revert h
  cases name <;> cases name' <;> decide

theorem eq_of_closing_suffix {name name' : TagName} (h : name.closing <:+ name'.closing) :
    name.closing = name'.closing := by
  revert h
  cases name <;> cases name' <;> decide

end TagName

theorem exists_linkTags (scheme target : QString) :
    ∃ t, (PositionedFormattedTextEntity.linkTags scheme target).1 = lt :: TagName.a.letter :: t ∧
      (PositionedFormattedTextEntity.linkTags scheme target).2 = TagName.a.closing :=
  ⟨_, rfl, rfl⟩

/-- The letter of an opening tag tells the closing tag. -/
theorem exists_tagName {F : FormattedText} (hF : F.TagsOnly) {e : Element QChar} (h : e ∈ F.elements) :
    ∃ name : TagName, ∃ t, e.opening = lt :: name.letter :: t ∧ e.closing = name.closing := by
  obtain ⟨⟨entity, i⟩, hmem, he⟩ := List.mem_filterMap.mp h
  have htypes := hF.types entity (List.mem_of_getElem? (List.mem_zipIdx_iff_getElem?.mp hmem))
  rw [elementOf] at he
  dsimp only at he
  split_ifs at he with hempty
  cases he
  dsimp only
  revert hempty
  unfold PositionedFormattedTextEntity.getHtmlTags
  split
  case h_5 htype => exact absurd htype htypes.1
  case h_18 => exact fun hempty => absurd ⟨rfl, rfl⟩ hempty
  case h_1 => exact fun _ => ⟨.b, _, rfl, rfl⟩
  case h_2 => exact fun _ => ⟨.i, _, rfl, rfl⟩
  case h_3 => exact fun _ => ⟨.s, _, rfl, rfl⟩
  case h_4 => exact fun _ => ⟨.u, _, rfl, rfl⟩
  case h_6 => exact fun _ => ⟨.pre, _, rfl, rfl⟩
  case h_7 => exact fun _ => ⟨.pre, _, rfl, rfl⟩
  case h_8 => exact fun _ => ⟨.pre, _, rfl, rfl⟩
  -- the other entities are links
  all_goals exact fun _ => ⟨.a, exists_linkTags _ _⟩

section TagNames

variable {F : FormattedText} (hF : F.TagsOnly) {d e : Element QChar} (hd : d ∈ F.elements) (he : e ∈ F.elements)
  {s s' : QString}

include hF hd he

theorem opening_append_ne : e.opening ++ s ≠ d.closing ++ s' := by
  obtain ⟨name, t, hopening, -⟩ := exists_tagName hF he
  obtain ⟨name', -, -, hclosing⟩ := exists_tagName hF hd
  obtain ⟨t', ht'⟩ := name'.exists_closing_eq
  intro heq
  rw [hopening, hclosing, ht'] at heq
  exact name.letter_ne_slash (List.cons.inj (List.cons.inj heq).2).1

theorem closing_eq_of_opening (h : d.opening ++ s = e.opening ++ s') : d.closing = e.closing := by
  obtain ⟨name, t, hopening, hclosing⟩ := exists_tagName hF hd
  obtain ⟨name', t', hopening', hclosing'⟩ := exists_tagName hF he
  rw [hopening, hopening'] at h
  rw [hclosing, hclosing', TagName.closing_eq_of_letter (List.cons.inj (List.cons.inj h).2).1]

theorem closing_eq_of_front (h : d.closing ++ s = e.closing ++ s') : d.closing = e.closing := by
  obtain ⟨name, -, -, hclosing⟩ := exists_tagName hF hd
  obtain ⟨name', -, -, hclosing'⟩ := exists_tagName hF he
  rw [hclosing, hclosing'] at h ⊢
  rcases List.prefix_or_prefix_of_prefix (List.prefix_append _ s) (h ▸ List.prefix_append _ s') with hle | hle
  · exact TagName.eq_of_closing_prefix hle
  · exact (TagName.eq_of_closing_prefix hle).symm

theorem closing_eq_of_back (h : s ++ d.closing = s' ++ e.closing) : d.closing = e.closing := by
  obtain ⟨name, -, -, hclosing⟩ := exists_tagName hF hd
  obtain ⟨name', -, -, hclosing'⟩ := exists_tagName hF he
  rw [hclosing, hclosing'] at h ⊢
  rcases List.suffix_or_suffix_of_suffix (List.suffix_append s _) (h ▸ List.suffix_append s' _) with hle | hle
  · exact TagName.eq_of_closing_suffix hle
  · exact (TagName.eq_of_closing_suffix hle).symm

end TagNames

/-! ### Elements that do not meet -/

/-- No element ends where another one starts. -/
def Apart (F : FormattedText) : Prop := ∀ d ∈ F.elements, ∀ e ∈ F.elements, d.stop ≠ e.start

instance (F : FormattedText) : Decidable F.Apart :=
  inferInstanceAs (Decidable (∀ d ∈ F.elements, ∀ e ∈ F.elements, d.stop ≠ e.start))

section Apart

variable {F : FormattedText} (h : F.Apart) {e : Element QChar} (he : e ∈ F.elements)

include h he

theorem Apart.closings_start {es : List (Element QChar)} (hes : es.Perm F.elements) : closings es e.start = [] :=
  closings_eq_nil fun d hd => h d (hes.mem_iff.mp hd) e he

theorem Apart.openings_stop {es : List (Element QChar)} (hes : es.Perm F.elements) : openings es e.stop = [] :=
  openings_eq_nil fun d hd heq => h e he d (hes.mem_iff.mp hd) heq.symm

/-- The opening tags at the start of an element are all that stands there. -/
theorem Apart.tagsAt_start :
    tagsAt F.elements e.start = (F.elements.filter fun d => d.start = e.start).map Element.opening := by
  have hnone : F.elements.filter (fun d => d.stop = e.start) = [] :=
    List.filter_eq_nil_iff.mpr fun d hd => by simpa using h d hd e he
  rw [tagsAt, hnone, List.map_nil, List.nil_append]

theorem Apart.tagsAt_stop :
    tagsAt F.elements e.stop = (F.elements.filter fun d => d.stop = e.stop).map Element.closing := by
  have hnone : F.elements.filter (fun d => d.start = e.stop) = [] :=
    List.filter_eq_nil_iff.mpr fun d hd => by simpa using (h e he d hd).symm
  rw [tagsAt, hnone, List.map_nil, List.append_nil]

end Apart

/-! ### The order in which elements are read -/

section Order

variable {F : FormattedText}

theorem Arrangement.update {σ : Nat → List QString} (hσ : F.Arrangement σ) {p : Nat} {words : List QString}
    (h : words.Perm (tagsAt F.elements p)) : F.Arrangement (Function.update σ p words) := by
  intro q
  by_cases hq : q = p
  · subst hq
    rwa [Function.update_self]
  · rw [Function.update_of_ne hq]
    exact hσ q

theorem arrangement_tagsAt (F : FormattedText) : F.Arrangement (tagsAt F.elements) := fun _ => List.Perm.refl _

theorem length_flatten_arrangement {σ : Nat → List QString} (hσ : F.Arrangement σ) {es : List (Element QChar)}
    (hes : es.Perm F.elements) (p : Nat) : (σ p).flatten.length = (tags es p).length := by
  have hwords : tags es p = ((es.reverse.filter fun e => e.stop = p).map Element.closing ++
      (es.filter fun e => e.start = p).map Element.opening).flatten := by
    rw [tags, closings, openings, List.flatten_append, List.flatMap_def, List.flatMap_def]
  have hclosing : (es.reverse.filter fun e => e.stop = p).Perm (F.elements.filter fun e => e.stop = p) :=
    ((List.reverse_perm es).trans hes).filter _
  have hopening : (es.filter fun e => e.start = p).Perm (F.elements.filter fun e => e.start = p) := hes.filter _
  have hperm := (hσ p).trans ((hclosing.map Element.closing).append (hopening.map Element.opening)).symm
  rw [hwords, List.length_flatten, List.length_flatten]
  exact (hperm.map List.length).sum_eq

/-- An arrangement of the tags that makes well-formed markup is that of elements that follow one another. -/
theorem exists_order {σ : Nat → List QString} (hσ : F.Arrangement σ)
    (h : F.WellFormed (wovenAtoms (fun p => (σ p).flatten) 0 (atoms F.plainText))) :
    ∃ es : List (Element QChar), es.Perm F.elements ∧ es.Pairwise Follows ∧
      (∀ p, (σ p).flatten = tags es p) ∧
      ∀ e ∈ F.elements, ¬ SplitsBreak F.plainText e.start ∧ ¬ SplitsBreak F.plainText e.stop := by
  obtain ⟨es, hes, hwritten⟩ := h
  obtain ⟨hfollows, cut, hcut, hrest, hwoven⟩ := (written_iff fun _ _ _ => Piece.lt).mp hwritten
  have hnone (p : Nat) (_ : 0 < p) (hmem : p ∉ places 0 cut) : tags es p = [] := by
    have hstart : ∀ e ∈ es, e.start ≠ p := fun e he heq => hmem (heq ▸ (hrest e he).1)
    have hstop : ∀ e ∈ es, e.stop ≠ p := fun e he heq => hmem (heq ▸ (hrest e he).2)
    rw [tags, closings_eq_nil hstop, openings_eq_nil hstart, List.append_nil]
  obtain ⟨hsame, hsplits⟩ := readsSame_of_wovenAtoms_eq (length_flatten_arrangement hσ hes) hcut hnone hwoven
  have hzero (p : Nat) (hmem : p ∈ places 0 cut) : ¬ SplitsBreak F.plainText p := by
    rcases Nat.eq_zero_or_pos p with rfl | hpos
    · exact fun hsplit => by cases hsplit.1
    · exact hsplits p hmem hpos
  refine ⟨es, hes, hfollows, fun p => ?_, fun e he => ?_⟩
  · rcases le_or_gt p F.plainText.length with hle | hlt
    · exact hsame p (Nat.zero_le p) hle
    · have htags : tags es p = [] := (Rest.within (fun _ _ _ => Piece.lt) hrest hcut).tags_eq_nil (Or.inr hlt)
      have hlen := length_flatten_arrangement hσ hes p
      rw [htags] at hlen ⊢
      exact List.length_eq_zero_iff.mp hlen
  · have he' := hrest e (hes.mem_iff.mpr he)
    exact ⟨hzero _ he'.1, hzero _ he'.2⟩

/-- However the tags at each place come, they make well-formed markup. -/
def AlwaysWellFormed (F : FormattedText) : Prop :=
  ∀ σ, F.Arrangement σ → F.WellFormed (wovenAtoms (fun p => (σ p).flatten) 0 (atoms F.plainText))

/-- Tags at a place in any order read as the tags of elements that follow one another. -/
theorem exists_order_of_perm (hall : F.AlwaysWellFormed) {p : Nat} {words : List QString}
    (h : words.Perm (tagsAt F.elements p)) :
    ∃ es : List (Element QChar), es.Perm F.elements ∧ es.Pairwise Follows ∧ words.flatten = tags es p := by
  obtain ⟨es, hes, hfollows, hsame, -⟩ := exists_order ((arrangement_tagsAt F).update h)
    (hall _ ((arrangement_tagsAt F).update h))
  refine ⟨es, hes, hfollows, ?_⟩
  rw [← hsame p, Function.update_self]

variable (hF : F.TagsOnly) (hall : F.AlwaysWellFormed)

include hF hall

/-- An element that ends where another one starts may come to end behind its opening tag. -/
theorem stop_ne_start {d e : Element QChar} (hd : d ∈ F.elements) (he : e ∈ F.elements) : d.stop ≠ e.start := by
  intro hmeet
  have hmem : e.opening ∈ tagsAt F.elements e.start :=
    List.mem_append_right _ (List.mem_map_of_mem (List.mem_filter.mpr ⟨he, decide_eq_true rfl⟩))
  obtain ⟨es, hes, -, hsame⟩ := exists_order_of_perm hall (List.perm_cons_erase hmem).symm
  -- the elements that end at the place have their tags in front
  have hd' : d ∈ es.reverse.filter fun c => c.stop = e.start :=
    List.mem_filter.mpr ⟨List.mem_reverse.mpr (hes.mem_iff.mpr hd), decide_eq_true hmeet⟩
  obtain ⟨c, rest, hfilter⟩ := List.exists_cons_of_ne_nil (List.ne_nil_of_mem hd')
  have hc : c ∈ F.elements := by
    have hmem' : c ∈ es.reverse.filter fun c => c.stop = e.start := hfilter ▸ List.mem_cons_self
    exact hes.mem_iff.mp (List.mem_reverse.mp (List.mem_filter.mp hmem').1)
  rw [List.flatten_cons, tags, closings, hfilter, List.flatMap_cons, List.append_assoc] at hsame
  exact opening_append_ne hF hc he hsame

theorem apart_of_always : F.Apart := fun _ hd _ he => stop_ne_start hF hall hd he

/-- Opening tags at one place of elements with different ends commute. -/
theorem commutes_opening {d e : Element QChar} (hd : d ∈ F.elements) (he : e ∈ F.elements) (hstart : d.start = e.start)
    (hstop : d.stop ≠ e.stop) : Commutes d.opening e.opening := by
  have hranked : ReadsRanked Element.opening (fun c => -(c.stop : Int))
      (F.elements.filter fun c => c.start = e.start) := by
    intro l hl
    have hwords := hl.map Element.opening
    rw [← (apart_of_always hF hall).tagsAt_start he] at hwords
    obtain ⟨es, hes, hfollows, hsame⟩ := exists_order_of_perm hall hwords
    rw [tags, (apart_of_always hF hall).closings_start he hes, List.nil_append, openings, ← List.flatMap_def] at hsame
    refine ⟨_, hes.filter _, ?_, hsame.symm⟩
    refine (hfollows.filter _).imp_of_mem fun {a b} ha hb hab => ?_
    have ha := of_decide_eq_true (List.mem_filter.mp ha).2
    have hb := of_decide_eq_true (List.mem_filter.mp hb).2
    have hlt := a.lt
    have hin : b.stop ≤ a.stop := hab.2.resolve_right (by omega)
    exact neg_le_neg (by exact_mod_cast hin)
  have hne : ∀ c ∈ F.elements.filter (fun c => c.start = e.start), c.opening ≠ [] := by
    intro c hc
    obtain ⟨name, t, hopening, -⟩ := exists_tagName hF (List.mem_filter.mp hc).1
    rw [hopening]
    exact List.cons_ne_nil _ _
  have hd' : d ∈ F.elements.filter fun c => c.start = e.start := List.mem_filter.mpr ⟨hd, decide_eq_true hstart⟩
  have he' : e ∈ F.elements.filter fun c => c.start = e.start := List.mem_filter.mpr ⟨he, decide_eq_true rfl⟩
  rcases hstop.lt_or_gt with hlt | hlt
  · exact (commutes_of_readsRanked hne hranked he' hd' (by omega)).symm
  · exact commutes_of_readsRanked hne hranked hd' he' (by omega)

/-- Elements with one end and different starts have the same closing tag. -/
theorem closing_eq_of_start_ne {d e : Element QChar} (hd : d ∈ F.elements) (he : e ∈ F.elements)
    (hstop : d.stop = e.stop) (hstart : d.start ≠ e.start) : d.closing = e.closing := by
  have hranked : ReadsRanked Element.closing (fun c => -(c.start : Int))
      (F.elements.filter fun c => c.stop = e.stop) := by
    intro l hl
    have hwords := hl.map Element.closing
    rw [← (apart_of_always hF hall).tagsAt_stop he] at hwords
    obtain ⟨es, hes, hfollows, hsame⟩ := exists_order_of_perm hall hwords
    rw [tags, (apart_of_always hF hall).openings_stop he hes, List.append_nil, closings, ← List.flatMap_def] at hsame
    refine ⟨_, ((List.reverse_perm es).trans hes).filter _, ?_, hsame.symm⟩
    refine ((List.pairwise_reverse.mpr hfollows).filter _).imp fun {a b} hab => ?_
    exact neg_le_neg (by exact_mod_cast hab.1)
  have hne : ∀ c ∈ F.elements.filter (fun c => c.stop = e.stop), c.closing ≠ [] := by
    intro c hc
    obtain ⟨name, -, -, hclosing⟩ := exists_tagName hF (List.mem_filter.mp hc).1
    obtain ⟨t, ht⟩ := name.exists_closing_eq
    rw [hclosing, ht]
    exact List.cons_ne_nil _ _
  have hd' : d ∈ F.elements.filter fun c => c.stop = e.stop := List.mem_filter.mpr ⟨hd, decide_eq_true hstop⟩
  have he' : e ∈ F.elements.filter fun c => c.stop = e.stop := List.mem_filter.mpr ⟨he, decide_eq_true rfl⟩
  have hcommutes : Commutes d.closing e.closing := by
    rcases hstart.lt_or_gt with hlt | hlt
    · exact (commutes_of_readsRanked hne hranked he' hd' (by omega)).symm
    · exact commutes_of_readsRanked hne hranked hd' he' (by omega)
  exact closing_eq_of_front hF hd he hcommutes

/-- Elements with one end have the same closing tag. -/
theorem closing_eq_of_stop_eq {d e : Element QChar} (hd : d ∈ F.elements) (he : e ∈ F.elements)
    (hstop : d.stop = e.stop) : d.closing = e.closing := by
  by_contra hne
  have hstart : d.start = e.start := by
    by_contra hstart
    exact hne (closing_eq_of_start_ne hF hall hd he hstop hstart)
  -- then the elements at the start are those at the end, since another one would have both closing tags
  have hends (c : Element QChar) (hc : c ∈ F.elements) : c.start = e.start ↔ c.stop = e.stop := by
    constructor
    · intro hcstart
      by_contra hcstop
      have hce := closing_eq_of_opening hF hc he (commutes_opening hF hall hc he hcstart hcstop)
      have hcd := closing_eq_of_opening hF hc hd
        (commutes_opening hF hall hc hd (hcstart.trans hstart.symm) (hstop ▸ hcstop))
      exact hne (hcd.symm.trans hce)
    · intro hcstop
      by_contra hcstart
      have hce := closing_eq_of_start_ne hF hall hc he hcstop hcstart
      have hcd := closing_eq_of_start_ne hF hall hc hd (hcstop.trans hstop.symm) (hstart ▸ hcstart)
      exact hne (hcd.symm.trans hce)
  have hopen : d.opening ∈ tagsAt F.elements e.start := by
    rw [(apart_of_always hF hall).tagsAt_start he]
    exact List.mem_map_of_mem (List.mem_filter.mpr ⟨hd, decide_eq_true hstart⟩)
  have hclose : e.closing ∈ tagsAt F.elements e.stop := by
    rw [(apart_of_always hF hall).tagsAt_stop he]
    exact List.mem_map_of_mem (List.mem_filter.mpr ⟨he, decide_eq_true rfl⟩)
  -- the first opening tag is of one element, the last closing tag of the other
  have hσ := ((arrangement_tagsAt F).update (List.perm_cons_erase hopen).symm).update
    ((List.perm_append_singleton _ _).trans (List.perm_cons_erase hclose).symm)
  obtain ⟨es, hes, -, hsame, -⟩ := exists_order hσ (hall _ hσ)
  have hlt := e.lt
  have hfront := hsame e.start
  have hback := hsame e.stop
  rw [Function.update_of_ne hlt.ne, Function.update_self, List.flatten_cons, tags,
    (apart_of_always hF hall).closings_start he hes, List.nil_append, openings] at hfront
  have hfilter : es.filter (fun c => c.stop = e.stop) = es.filter fun c => c.start = e.start :=
    List.filter_congr fun c hc => decide_eq_decide.mpr (hends c (hes.mem_iff.mp hc)).symm
  rw [Function.update_self, List.flatten_append, List.flatten_singleton, tags,
    (apart_of_always hF hall).openings_stop he hes, List.append_nil, closings, List.filter_reverse, hfilter] at hback
  have hmem : e ∈ es.filter fun c => c.start = e.start :=
    List.mem_filter.mpr ⟨hes.mem_iff.mpr he, decide_eq_true rfl⟩
  obtain ⟨k, rest, hcons⟩ := List.exists_cons_of_ne_nil (List.ne_nil_of_mem hmem)
  have hk : k ∈ F.elements := by
    have hmem' : k ∈ es.filter fun c => c.start = e.start := hcons ▸ List.mem_cons_self
    exact hes.mem_iff.mp (List.mem_filter.mp hmem').1
  rw [hcons, List.flatMap_cons] at hfront
  rw [hcons, List.reverse_cons, List.flatMap_append, List.flatMap_singleton] at hback
  exact hne ((closing_eq_of_opening hF hd hk hfront).trans (closing_eq_of_back hF he hk hback).symm)

end Order

end FormattedText

end YaqtLib
