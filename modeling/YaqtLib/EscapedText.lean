import YaqtLib.FormattedText

/-! Escapes: the insertions for special units and line breaks, made in the order of the sort, write the text as
`getPlainEscapedFor` does. The text falls into atoms, its line breaks and its other units, and each atom that needs
an escape has one insertion. -/

namespace YaqtLib

namespace QString

/-- The line breaks of a text and its other units; `\r\n` is one line break. -/
def atoms : QString → List QString
  | [] => []
  | [c] => [[c]]
  | c :: d :: text => if c = cr ∧ d = lf then [c, d] :: atoms text else [c] :: atoms (d :: text)

def escapeAtom (atom : QString) : QString :=
  if atom = [cr, lf] ∨ atom = [lf] then HTML_BR_TAG else atom.flatMap escape

theorem atoms_break (text : QString) : atoms (cr :: lf :: text) = [cr, lf] :: atoms text := by
  rw [atoms, if_pos ⟨rfl, rfl⟩]

theorem atoms_cons {c : QChar} {text : QString} (h : ¬ (c = cr ∧ text.head? = some lf)) :
    atoms (c :: text) = [c] :: atoms text := by
  cases text with
  | nil => rfl
  | cons d text => rw [atoms, if_neg fun hbreak => h ⟨hbreak.1, congrArg some hbreak.2⟩]

/-- Texts by atoms: a property of the empty text that every atom in front keeps. -/
theorem atoms_induction {motive : QString → Prop} (nil : motive [])
    (lineBreak : ∀ text, motive text → motive (cr :: lf :: text))
    (unit : ∀ c text, ¬ (c = cr ∧ text.head? = some lf) → motive text → motive (c :: text)) (text : QString) :
    motive text := by
  induction text using atoms.induct with
  | case1 => exact nil
  | case2 c => exact unit c [] (fun h => nomatch h.2) nil
  | case3 c d text h ih =>
      rw [h.1, h.2]
      exact lineBreak text ih
  | case4 c d text h ih => exact unit c (d :: text) (fun hbreak => h ⟨hbreak.1, Option.some.inj hbreak.2⟩) ih

theorem flatten_atoms (text : QString) : (atoms text).flatten = text := by
  induction text using atoms_induction with
  | nil => rfl
  | lineBreak text ih => rw [atoms_break, List.flatten_cons, ih]; rfl
  | unit c text h ih => rw [atoms_cons h, List.flatten_cons, ih, List.singleton_append]

theorem eq_of_mem_atoms {text atom : QString} (h : atom ∈ atoms text) : atom = [cr, lf] ∨ ∃ c, atom = [c] := by
  induction text using atoms_induction with
  | nil => exact absurd h List.not_mem_nil
  | lineBreak text ih =>
      rw [atoms_break] at h
      exact (List.mem_cons.mp h).imp_left Or.inl |>.elim id ih
  | unit c text hunit ih =>
      rw [atoms_cons hunit] at h
      exact (List.mem_cons.mp h).elim (fun h => Or.inr ⟨c, h⟩) ih

/-- The first text ends in the middle of a line break. -/
def Straddles (text text' : QString) : Prop := text.getLast? = some cr ∧ text'.head? = some lf

instance (text text' : QString) : Decidable (Straddles text text') := inferInstanceAs (Decidable (_ ∧ _))

theorem atoms_append {text text' : QString} (h : ¬ Straddles text text') :
    atoms (text ++ text') = atoms text ++ atoms text' := by
  induction text using atoms_induction with
  | nil => rfl
  | lineBreak text ih =>
      rw [List.cons_append, List.cons_append, atoms_break, atoms_break, List.cons_append, ih]
      rintro ⟨hlast, hhead⟩
      refine h ⟨?_, hhead⟩
      cases text with
      | nil => cases hlast
      | cons d text => simpa [List.getLast?_cons_cons] using hlast
  | unit c text hunit ih =>
      cases text with
      | nil =>
          have hnot : ¬ (c = cr ∧ text'.head? = some lf) := fun hbreak => h ⟨by rw [hbreak.1]; rfl, hbreak.2⟩
          rw [List.singleton_append, atoms_cons hnot]
          rfl
      | cons d text =>
          have hnot : ¬ (c = cr ∧ ((d :: text) ++ text').head? = some lf) := hunit
          have hcons : (c :: d :: text) ++ text' = c :: ((d :: text) ++ text') := rfl
          rw [hcons, atoms_cons hnot, ih, atoms_cons hunit, List.cons_append]
          rintro ⟨hlast, hhead⟩
          exact h ⟨by rwa [List.getLast?_cons_cons], hhead⟩

/-- Where a line break lies across the end, two atoms become one. -/
theorem atoms_append_of_straddles {text text' : QString} (h : Straddles text text') :
    ∃ as bs, atoms text = as ++ [[cr]] ∧ atoms text' = [lf] :: bs ∧ atoms (text ++ text') = as ++ [cr, lf] :: bs := by
  obtain ⟨hlast, hhead⟩ := h
  obtain ⟨front, rfl⟩ := List.getLast?_eq_some_iff.mp hlast
  obtain ⟨rest, rfl⟩ := List.head?_eq_some_iff.mp hhead
  have hfront : ¬ Straddles front [cr] := fun h => absurd h.2 (by decide)
  have hfront' : ¬ Straddles front (cr :: lf :: rest) := fun h => absurd (Option.some.inj h.2) (by decide)
  refine ⟨atoms front, atoms rest, atoms_append hfront, atoms_cons fun h => absurd h.1 (by decide), ?_⟩
  rw [List.append_assoc, List.singleton_append, atoms_append hfront', atoms_break]

/-! ### The escaped text by atoms -/

/-- No line break. -/
def NoBreak (text : QString) : Prop := cr ∉ text ∧ lf ∉ text

instance (text : QString) : Decidable (NoBreak text) := inferInstanceAs (Decidable (_ ∧ _))

theorem breakLines_cons {c : QChar} {text : QString} (hlf : c ≠ lf) (h : ¬ (c = cr ∧ text.head? = some lf)) :
    breakLines (c :: text) = c :: breakLines text := by
  cases text with
  | nil => rw [breakLines, breakLines, if_neg hlf]
  | cons d text => rw [breakLines, if_neg fun hbreak => h ⟨hbreak.1, congrArg some hbreak.2⟩, if_neg hlf]

theorem breakLines_append {text : QString} (h : NoBreak text) (text' : QString) :
    breakLines (text ++ text') = text ++ breakLines text' := by
  induction text with
  | nil => rfl
  | cons c text ih =>
      obtain ⟨hcr, hlf⟩ := h
      rw [List.mem_cons, not_or] at hcr hlf
      rw [List.cons_append, breakLines_cons (Ne.symm hlf.1) fun hbreak => hcr.1 hbreak.1.symm, ih ⟨hcr.2, hlf.2⟩,
        List.cons_append]

theorem noBreak_escape {c : QChar} (hcr : c ≠ cr) (hlf : c ≠ lf) : NoBreak (escape c) := by
  unfold escape
  split_ifs
  · decide
  · decide
  · decide
  · decide
  · exact ⟨by simpa using hcr.symm, by simpa using hlf.symm⟩

theorem head?_toHtmlEscaped {text : QString} (h : text.head? ≠ some lf) : (toHtmlEscaped text).head? ≠ some lf := by
  cases text with
  | nil => exact nofun
  | cons c text =>
      have hne : c ≠ lf := fun heq => h (congrArg some heq)
      rw [toHtmlEscaped, List.flatMap_cons]
      unfold escape
      split_ifs
      · exact fun heq => absurd (Option.some.inj heq) (by decide)
      · exact fun heq => absurd (Option.some.inj heq) (by decide)
      · exact fun heq => absurd (Option.some.inj heq) (by decide)
      · exact fun heq => absurd (Option.some.inj heq) (by decide)
      · exact fun heq => hne (Option.some.inj heq)

theorem escapeAtom_break : escapeAtom [cr, lf] = HTML_BR_TAG := if_pos (Or.inl rfl)

theorem escapeAtom_lf : escapeAtom [lf] = HTML_BR_TAG := if_pos (Or.inr rfl)

theorem escapeAtom_unit {c : QChar} (h : c ≠ lf) : escapeAtom [c] = escape c := by
  have hnot : ¬ ([c] = [cr, lf] ∨ [c] = [lf]) := by simpa using h
  rw [escapeAtom, if_neg hnot, List.flatMap_singleton]

end QString

namespace FormattedText

open QString Splices

theorem getPlainEscapedFor_eq (text : QString) : getPlainEscapedFor text = (atoms text).flatMap escapeAtom := by
  induction text using atoms_induction with
  | nil => rfl
  | lineBreak text ih =>
      rw [atoms_break, List.flatMap_cons, ← ih, escapeAtom_break]
      have hescape : toHtmlEscaped (cr :: lf :: text) = cr :: lf :: toHtmlEscaped text := rfl
      rw [getPlainEscapedFor, hescape, breakLines, if_pos ⟨rfl, rfl⟩, getPlainEscapedFor]
  | unit c text h ih =>
      have hescape : toHtmlEscaped (c :: text) = escape c ++ toHtmlEscaped text := rfl
      rw [atoms_cons h, List.flatMap_cons, ← ih, getPlainEscapedFor, hescape, getPlainEscapedFor]
      by_cases hlf : c = lf
      · subst hlf
        rw [escapeAtom_lf]
        cases toHtmlEscaped text with
        | nil => rfl
        | cons d rest => rfl
      · rw [escapeAtom_unit hlf]
        by_cases hcr : c = cr
        · subst hcr
          have hhead : ¬ ((cr : QChar) = cr ∧ (toHtmlEscaped text).head? = some lf) :=
            fun hbreak => head?_toHtmlEscaped (fun hhead => h ⟨rfl, hhead⟩) hbreak.2
          exact breakLines_cons (by decide) hhead
        · exact breakLines_append (noBreak_escape hcr hlf) _

theorem getPlainEscapedFor_append {text text' : QString} (h : ¬ Straddles text text') :
    getPlainEscapedFor (text ++ text') = getPlainEscapedFor text ++ getPlainEscapedFor text' := by
  rw [getPlainEscapedFor_eq, getPlainEscapedFor_eq, getPlainEscapedFor_eq, atoms_append h, List.flatMap_append]

/-- The escaped text is shorter by one unit for a line break across the end. -/
theorem length_getPlainEscapedFor_append (text text' : QString) :
    (getPlainEscapedFor (text ++ text')).length + (if Straddles text text' then 1 else 0) =
      (getPlainEscapedFor text).length + (getPlainEscapedFor text').length := by
  split_ifs with h
  · obtain ⟨as, bs, htext, htext', happend⟩ := atoms_append_of_straddles h
    have hcr : (escapeAtom [cr]).length = 1 := by decide
    have hlf : (escapeAtom [lf]).length = 4 := by decide
    have hbreak : (escapeAtom [cr, lf]).length = 4 := by decide
    rw [getPlainEscapedFor_eq, getPlainEscapedFor_eq, getPlainEscapedFor_eq, htext, htext', happend]
    simp only [List.flatMap_append, List.flatMap_cons, List.flatMap_nil, List.length_append, List.length_nil, hcr, hlf,
      hbreak]
    omega
  · rw [getPlainEscapedFor_append h, List.length_append, Nat.add_zero]

/-! ### One insertion an atom -/

/-- The insertion of an atom at a place, if it needs one. -/
def escapeOf (i : Nat) (atom : QString) : List Insertion :=
  if escapeAtom atom = atom then [] else [⟨i, escapeAtom atom, atom.length⟩]

/-- The insertions of atoms from a place on, from the front to the back. -/
def escapesOf : Nat → List QString → List Insertion
  | _, [] => []
  | i, atom :: rest => escapeOf i atom ++ escapesOf (i + atom.length) rest

theorem escapesOf_append (i : Nat) (as bs : List QString) :
    escapesOf i (as ++ bs) = escapesOf i as ++ escapesOf (i + as.flatten.length) bs := by
  induction as generalizing i with
  | nil => rfl
  | cons a as ih =>
      rw [List.cons_append, escapesOf, ih, escapesOf, List.append_assoc, List.flatten_cons, List.length_append,
        Nat.add_assoc]

theorem addInsertionsToFor_cons (original : QChar) (replacement : QString) (i : Nat) (c : QChar) (text : QString) :
    addInsertionsToFor original replacement i (c :: text) =
      (if c = original then [⟨i, replacement, 1⟩] else []) ++ addInsertionsToFor original replacement (i + 1) text := by
  rw [addInsertionsToFor]
  split_ifs <;> rfl

theorem addInsertionsForLines_break (replacement : QString) (i : Nat) (text : QString) :
    addInsertionsForLines replacement i (cr :: lf :: text) =
      ⟨i, replacement, 2⟩ :: addInsertionsForLines replacement (i + 2) text := by
  rw [addInsertionsForLines, if_pos ⟨rfl, rfl⟩]

theorem addInsertionsForLines_cons {c : QChar} {text : QString} (h : ¬ (c = cr ∧ text.head? = some lf))
    (replacement : QString) (i : Nat) :
    addInsertionsForLines replacement i (c :: text) =
      (if c = lf then [⟨i, replacement, 1⟩] else []) ++ addInsertionsForLines replacement (i + 1) text := by
  cases text with
  | nil =>
      rw [addInsertionsForLines, addInsertionsForLines, List.append_nil]
  | cons d text =>
      rw [addInsertionsForLines, if_neg fun hbreak => h ⟨hbreak.1, congrArg some hbreak.2⟩]
      split_ifs <;> rfl

theorem perm_append_heads {α : Type} {l heads tails : List α} (h : l.Perm (heads ++ tails)) (head tail : List α) :
    (l ++ (head ++ tail)).Perm (heads ++ head ++ (tails ++ tail)) := by
  refine (h.append_right _).trans ?_
  simp only [List.append_assoc]
  refine List.Perm.append_left _ ?_
  simp only [← List.append_assoc]
  exact List.perm_append_comm.append_right _

theorem escapeOf_unit (i : Nat) (c : QChar) :
    escapeOf i [c] =
      (if c = lt then [⟨i, ofString "&lt;", 1⟩] else []) ++ (if c = gt then [⟨i, ofString "&gt;", 1⟩] else []) ++
        (if c = amp then [⟨i, ofString "&amp;", 1⟩] else []) ++ (if c = quot then [⟨i, ofString "&quot;", 1⟩] else []) ++
        if c = lf then [⟨i, HTML_BR_TAG, 1⟩] else [] := by
  by_cases hlf : c = lf
  · subst hlf
    rfl
  by_cases hlt : c = lt
  · subst hlt
    rfl
  by_cases hgt : c = gt
  · subst hgt
    rfl
  by_cases hamp : c = amp
  · subst hamp
    rfl
  by_cases hquot : c = quot
  · subst hquot
    rfl
  have hself : escapeAtom [c] = [c] := by
    rw [escapeAtom_unit hlf, escape, if_neg hlt, if_neg hgt, if_neg hamp, if_neg hquot]
  rw [escapeOf, if_pos hself, if_neg hlf, if_neg hlt, if_neg hgt, if_neg hamp, if_neg hquot]
  rfl

/-- The insertions that the loops over the text collect are those of the atoms. -/
theorem escapeInsertions_perm (i : Nat) (text : QString) :
    (escapeInsertions i text).Perm (escapesOf i (atoms text)) := by
  induction text using atoms_induction generalizing i with
  | nil => rfl
  | lineBreak text ih =>
      have hne (original : QChar) (hcr : cr ≠ original) (hlf : lf ≠ original) (replacement : QString) :
          addInsertionsToFor original replacement i (cr :: lf :: text) =
            addInsertionsToFor original replacement (i + 2) text := by
        rw [addInsertionsToFor, if_neg hcr, addInsertionsToFor, if_neg hlf]
      rw [escapeInsertions, hne lt (by decide) (by decide), hne gt (by decide) (by decide),
        hne amp (by decide) (by decide), hne quot (by decide) (by decide), addInsertionsForLines_break, atoms_break]
      exact List.perm_middle.trans ((ih (i + 2)).cons _)
  | unit c text h ih =>
      rw [atoms_cons h, escapesOf, List.length_singleton, escapeInsertions, addInsertionsForLines_cons h, escapeOf_unit]
      simp only [addInsertionsToFor_cons]
      refine (perm_append_heads (perm_append_heads (perm_append_heads (perm_append_heads (List.Perm.refl _)
        _ _) _ _) _ _) _ _).trans ?_
      exact (ih (i + 1)).append_left _

theorem length_lt_length_escapeAtom {text atom : QString} (hmem : atom ∈ atoms text) (h : escapeAtom atom ≠ atom) :
    atom.length < (escapeAtom atom).length := by
  rcases eq_of_mem_atoms hmem with rfl | ⟨c, rfl⟩
  · decide
  · by_cases hlf : c = lf
    · subst hlf
      decide
    · rw [escapeAtom_unit hlf] at h ⊢
      rw [List.length_singleton]
      unfold escape at h ⊢
      split_ifs at h ⊢
      · decide
      · decide
      · decide
      · decide
      · exact absurd rfl h

theorem mem_escapeOf {i : Nat} {atom : QString} {e : Insertion} :
    e ∈ escapeOf i atom ↔ escapeAtom atom ≠ atom ∧ e = ⟨i, escapeAtom atom, atom.length⟩ := by
  rw [escapeOf]
  split_ifs with h
  · simp [h]
  · simp [h]

/-- The escapes of a text lie in it one behind the other. -/
theorem of_mem_escapesOf {i : Nat} {as : List QString} {e : Insertion} (h : e ∈ escapesOf i as) :
    (∃ atom ∈ as, escapeAtom atom ≠ atom ∧ e.insertion = escapeAtom atom ∧ e.removeLength = atom.length) ∧
      i ≤ e.offset ∧ e.stop ≤ i + as.flatten.length := by
  induction as generalizing i with
  | nil => exact absurd h List.not_mem_nil
  | cons a as ih =>
      rw [List.flatten_cons, List.length_append]
      rcases List.mem_append.mp h with h | h
      · obtain ⟨hne, rfl⟩ := mem_escapeOf.mp h
        refine ⟨⟨a, List.mem_cons_self, hne, rfl, rfl⟩, le_rfl, ?_⟩
        simp only [Splice.stop]
        omega
      · obtain ⟨⟨atom, hmem, hatom⟩, hle, hstop⟩ := ih h
        exact ⟨⟨atom, List.mem_cons_of_mem a hmem, hatom⟩, by omega, by omega⟩

theorem grows_of_mem_escapesOf {i : Nat} {text : QString} {e : Insertion} (h : e ∈ escapesOf i (atoms text)) :
    e.Grows ∧ 0 < e.removeLength := by
  obtain ⟨⟨atom, hmem, hne, hinsertion, hlength⟩, -, -⟩ := of_mem_escapesOf h
  have hlt := length_lt_length_escapeAtom hmem hne
  have hpos : 0 < atom.length := by
    rcases eq_of_mem_atoms hmem with rfl | ⟨c, rfl⟩
    · decide
    · exact Nat.one_pos
  refine ⟨⟨?_, ?_⟩, ?_⟩
  · rw [hlength]
    omega
  · rw [hlength, hinsertion]
    omega
  · rw [hlength]
    omega

/-- The escape of an atom ends in front of the ends of those behind it. -/
theorem stop_lt_of_mem_escapeOf {i : Nat} {atom text : QString} {a b : Insertion} (ha : a ∈ escapeOf i atom)
    (hb : b ∈ escapesOf (i + atom.length) (atoms text)) : a.stop < b.stop := by
  obtain ⟨-, rfl⟩ := mem_escapeOf.mp ha
  have hgrows := grows_of_mem_escapesOf hb
  have hle := (of_mem_escapesOf hb).2.1
  simp only [Splice.stop] at hle ⊢
  omega

/-- From the back to the front each escape ends in front of the one before. -/
theorem escapesOf_reverse_pairwise (i : Nat) (text : QString) :
    (escapesOf i (atoms text)).reverse.Pairwise fun a b => b.stop < a.stop := by
  rw [List.pairwise_reverse]
  induction text using atoms_induction generalizing i with
  | nil => exact List.Pairwise.nil
  | lineBreak text ih =>
      rw [atoms_break, escapesOf]
      refine List.pairwise_append.mpr ⟨?_, ih _, ?_⟩
      · exact List.pairwise_singleton _ _
      · exact fun a ha b hb => stop_lt_of_mem_escapeOf ha hb
  | unit c text h ih =>
      rw [atoms_cons h, escapesOf]
      refine List.pairwise_append.mpr ⟨?_, ih _, ?_⟩
      · rw [escapeOf]
        split_ifs
        · exact List.Pairwise.nil
        · exact List.pairwise_singleton _ _
      · exact fun a ha b hb => stop_lt_of_mem_escapeOf ha hb

/-- The escape of an atom writes it as it is to be written. -/
theorem applyAll_escapeOf (pre atom post : QString) :
    applyAll (escapeOf pre.length atom).reverse (pre ++ (atom ++ post)) = pre ++ (escapeAtom atom ++ post) := by
  rw [escapeOf]
  split_ifs with hself
  · rw [hself]
    rfl
  · have hle : (pre.length : Int) ≤ (pre ++ (atom ++ post)).length := by
      rw [List.length_append]
      omega
    rw [List.reverse_singleton, applyAll_cons, applyAll_nil]
    dsimp only
    rw [replace_of_mem (Int.natCast_nonneg _) hle]
    have hdrop : ((pre.length : Int) + atom.length).toNat = pre.length + atom.length := by omega
    rw [Int.toNat_natCast, List.take_left, hdrop, List.drop_length_add_append, List.drop_left, List.append_assoc]

/-- The escapes made from the back to the front write each atom as it is to be written. -/
theorem applyAll_escapesOf (pre : QString) (as : List QString) :
    applyAll (escapesOf pre.length as).reverse (pre ++ as.flatten) = pre ++ as.flatMap escapeAtom := by
  induction as generalizing pre with
  | nil => rfl
  | cons a as ih =>
      have hrest := ih (pre ++ a)
      rw [List.length_append, List.append_assoc, List.append_assoc] at hrest
      rw [escapesOf, List.reverse_append, applyAll_append, List.flatten_cons, hrest, List.flatMap_cons,
        applyAll_escapeOf]

/-- The escapes make the text longer by what the escaped text is longer. -/
theorem sum_gain_escapesOf (i : Nat) (as : List QString) :
    ((escapesOf i as).map Splice.gain).sum = (as.flatMap escapeAtom).length - as.flatten.length := by
  induction as generalizing i with
  | nil => rfl
  | cons a as ih =>
      rw [escapesOf, List.map_append, List.sum_append, ih, List.flatMap_cons, List.flatten_cons, List.length_append,
        List.length_append, escapeOf]
      split_ifs with h
      · rw [h, List.map_nil, List.sum_nil]
        omega
      · simp only [List.map_singleton, List.sum_singleton, Splice.gain]
        omega

/-! ### Texts one after the other -/

/-- How many units of a text are replaced by escapes. -/
def escapedLength (text : QString) : Nat :=
  ((atoms text).map fun atom => if escapeAtom atom = atom then 0 else atom.length).sum

theorem sum_removeLength_escapesOf (i : Nat) (text : QString) :
    ((escapesOf i (atoms text)).map Splice.removeLength).sum = escapedLength text := by
  rw [escapedLength]
  induction atoms text generalizing i with
  | nil => rfl
  | cons a as ih =>
      rw [escapesOf, List.map_append, List.sum_append, ih, List.map_cons, List.sum_cons, escapeOf]
      split_ifs
      · rfl
      · rw [List.map_singleton, List.sum_singleton, Nat.cast_add]

theorem escapedLength_append (text text' : QString) :
    escapedLength (text ++ text') =
      escapedLength text + escapedLength text' + if Straddles text text' then 1 else 0 := by
  unfold escapedLength
  split_ifs with h
  · obtain ⟨as, bs, htext, htext', happend⟩ := atoms_append_of_straddles h
    have hcr : (if escapeAtom [cr] = [cr] then 0 else [cr].length) = 0 := by decide
    have hlf : (if escapeAtom [lf] = [lf] then 0 else [lf].length) = 1 := by decide
    have hbreak : (if escapeAtom [cr, lf] = [cr, lf] then 0 else [cr, lf].length) = 2 := by decide
    rw [htext, htext', happend]
    simp only [List.map_append, List.map_cons, List.map_nil, List.sum_append, List.sum_cons, List.sum_nil, hcr, hlf,
      hbreak]
    omega
  · rw [atoms_append h, List.map_append, List.sum_append, Nat.add_zero]

theorem escapesOf_text_append {text text' : QString} (h : ¬ Straddles text text') (i : Nat) :
    escapesOf i (atoms (text ++ text')) = escapesOf i (atoms text) ++ escapesOf (i + text.length) (atoms text') := by
  rw [atoms_append h, escapesOf_append, flatten_atoms]

end FormattedText

end YaqtLib
