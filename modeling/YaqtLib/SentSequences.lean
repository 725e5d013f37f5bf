import YaqtLib.SequenceRows

/-! The sequences around a message that has been sent: its row is replaced and goes behind all others, and neither
the rows it leaves nor the row it joins are announced. -/

namespace YaqtLib

open Containers IndexMap Views MessageData

namespace Sequence

variable {pre post : List MessageData} {old new row row' : MessageData}

/-- A message that is the last row and has been sent: it is together with the row in front of it as before. -/
def StaysSeamless (pre : List MessageData) (old new : MessageData) : Prop :=
  ∀ front ∈ pre.getLast?, areTogether old front = areTogether new front

/-- A message that has rows behind it, from `behind` to `last`, and has been sent: it ended its sequence, and goes
behind the last row as it came behind the row in front of it; `behind` begins its sequence as before, the last row
goes on being the last of its sequence, and the others end their sequences as before. -/
def MovesSeamless (pre : List MessageData) (old : MessageData) (post : List MessageData) (new : MessageData)
    (behind last : MessageData) : Prop :=
  areTogether old behind = false ∧
  (∀ front ∈ pre.getLast?, areTogether old front = areTogether new last ∧
    (Shows (pre ++ old :: post) behind → areTogether behind front = false)) ∧
  (pre = [] → areTogether new last = false ∧ Shows (pre ++ old :: post) behind) ∧
  Shows (pre ++ old :: post) last ∧
  Closes (pre ++ post ++ [new]) (albumEnd (pre ++ old :: post) last) ∧
  ∀ row ∈ pre ++ post, row.messageId ≠ last.messageId → Shows (pre ++ old :: post) row →
    (Closes (pre ++ old :: post) (albumEnd (pre ++ old :: post) row) ↔
      Closes (pre ++ post ++ [new]) (albumEnd (pre ++ old :: post) row))

/-- The rows around a message that has been sent say the same without being announced. -/
def SendSeamless (pre : List MessageData) (old : MessageData) (post : List MessageData) (new : MessageData) : Prop :=
  (post = [] → StaysSeamless pre old new) ∧
    ∀ behind ∈ post.head?, ∀ last ∈ post.getLast?, MovesSeamless pre old post new behind last

instance : Decidable (StaysSeamless pre old new) := inferInstanceAs (Decidable (∀ _ ∈ _, _))

instance {behind last : MessageData} : Decidable (MovesSeamless pre old post new behind last) :=
  inferInstanceAs (Decidable (_ ∧ _))

instance : Decidable (SendSeamless pre old post new) := inferInstanceAs (Decidable (_ ∧ _))

variable (hold : old.mediaAlbumId = 0) (hnew : new.mediaAlbumId = 0)

include hold hnew

/-- The albums are those of the other rows. -/
theorem albumIds_sent {albumId : Int} (ha : albumId ≠ 0) :
    albumIds (pre ++ post ++ [new]) albumId = albumIds (pre ++ old :: post) albumId := by
  have hzero : ¬ (0 : Int) = albumId := fun h => ha h.symm
  simp [albumIds, List.filter_append, hold, hnew, hzero]

theorem shows_sent : Shows (pre ++ post ++ [new]) row ↔ Shows (pre ++ old :: post) row := by
  by_cases ha : row.mediaAlbumId = 0
  · exact iff_of_true (Or.inl ha) (Or.inl ha)
  · rw [Shows, Shows, albumIds_sent hold hnew ha]

theorem albumEnd_sent : albumEnd (pre ++ post ++ [new]) row = albumEnd (pre ++ old :: post) row := by
  by_cases ha : row.mediaAlbumId = 0
  · rw [albumEnd, albumEnd, if_pos ha, if_pos ha]
  · rw [albumEnd, albumEnd, if_neg ha, if_neg ha, albumIds_sent hold hnew ha]

omit hold hnew

theorem getElem?_behind (k : Nat) : (pre ++ old :: post)[pre.length + (k + 1)]? = post[k]? := by
  rw [List.getElem?_append_right (Nat.le_add_right _ _), Nat.add_sub_cancel_left, List.getElem?_cons_succ]

theorem getElem?_between {rest : List MessageData} {k : Nat} (hk : k < post.length) :
    (pre ++ post ++ rest)[pre.length + k]? = post[k]? := by
  rw [List.append_assoc, List.getElem?_append_right (Nat.le_add_right _ _), Nat.add_sub_cancel_left,
    List.getElem?_append_left hk]

/-- The place of a row among the rows with the sent message behind all others. -/
theorem sent_index (hd : ((pre ++ old :: post).map MessageData.messageId).Nodup)
    (hd' : ((pre ++ post ++ [new]).map MessageData.messageId).Nodup) {i j : Nat}
    (hi : (pre ++ old :: post)[i]? = some row) (hj : (pre ++ post ++ [new])[j]? = some row')
    (hid : row'.messageId = if row.messageId = old.messageId then new.messageId else row.messageId) :
    (i = pre.length ∧ j = pre.length + post.length ∧ row = old ∧ row' = new) ∨
      row' = row ∧ row ∈ pre ++ post ∧ (i < pre.length ∧ j = i ∨ pre.length < i ∧ j + 1 = i) := by
  have hplace : ∀ (k : Nat) (r : MessageData), (pre ++ post ++ [new])[k]? = some r → row'.messageId = r.messageId →
      row' = r ∧ j = k := by
    intro k r hk hid
    obtain rfl := index_unique hd' hj hk hid
    exact ⟨Option.some.inj (hj.symm.trans hk), rfl⟩
  have hother : i ≠ pre.length → row.messageId ≠ old.messageId := by
    intro hne heq
    exact hne (index_unique hd hi (by rw [List.getElem?_append_right (Nat.le_refl _), Nat.sub_self]; rfl) heq)
  rcases Nat.lt_trichotomy i pre.length with hlt | rfl | hgt
  · rw [if_neg (hother (Nat.ne_of_lt hlt))] at hid
    rw [List.getElem?_append_left hlt] at hi
    obtain ⟨hrow, hj'⟩ := hplace i row (by
      rw [List.append_assoc, List.getElem?_append_left hlt]
      exact hi) hid
    exact Or.inr ⟨hrow, List.mem_append_left _ (List.mem_of_getElem? hi), Or.inl ⟨hlt, hj'⟩⟩
  · rw [List.getElem?_append_right (Nat.le_refl _), Nat.sub_self] at hi
    obtain rfl : old = row := Option.some.inj hi
    rw [if_pos rfl] at hid
    obtain ⟨hrow, hj'⟩ := hplace (pre.length + post.length) new (by
      rw [← List.length_append, List.getElem?_append_right (Nat.le_refl _), Nat.sub_self]
      rfl) hid
    exact Or.inl ⟨rfl, hj', rfl, hrow⟩
  · rw [if_neg (hother (Nat.ne_of_gt hgt))] at hid
    obtain ⟨k, rfl⟩ : ∃ k, i = pre.length + (k + 1) := ⟨i - pre.length - 1, by omega⟩
    rw [getElem?_behind] at hi
    obtain ⟨hrow, hj'⟩ := hplace (pre.length + k) row (by
      rw [getElem?_between (List.getElem?_eq_some_iff.mp hi).1]
      exact hi) hid
    exact Or.inr ⟨hrow, List.mem_append_right _ (List.mem_of_getElem? hi), Or.inr ⟨by omega, by omega⟩⟩

theorem getElem?_front (hpre : pre ≠ []) (rest : List MessageData) :
    (pre ++ rest)[pre.length - 1]? = pre.getLast? := by
  have hpos := List.length_pos_of_ne_nil hpre
  rw [List.getElem?_append_left (by omega), List.getLast?_eq_getElem?]

/-- The last message of an album is a row, and only a row without album is the last message of its own. -/
theorem exists_albumEnd {rows : List MessageData} (hrow : row ∈ rows) :
    ∃ last ∈ rows, last.messageId = albumEnd rows row ∧ (last = row ∨ last.mediaAlbumId ≠ 0) := by
  by_cases ha : row.mediaAlbumId = 0
  · exact ⟨row, hrow, by rw [albumEnd, if_pos ha], Or.inl rfl⟩
  · have hmem : row.messageId ∈ albumIds rows row.mediaAlbumId := mem_albumIds.mpr ⟨row, hrow, rfl, rfl⟩
    rw [albumEnd, if_neg ha]
    cases hmax : (albumIds rows row.mediaAlbumId).max? with
    | none =>
        rw [List.max?_eq_none_iff] at hmax
        rw [hmax] at hmem
        exact absurd hmem List.not_mem_nil
    | some k =>
        obtain ⟨last, hlast, halbum, hid⟩ := mem_albumIds.mp (List.max?_eq_some_iff.mp hmax).1
        exact ⟨last, hlast, hid, Or.inr (halbum ▸ ha)⟩

/-- The rows in front of the sent message keep the rows in front of them. -/
theorem isFirst_sent_front (hold : old.mediaAlbumId = 0) (hnew : new.mediaAlbumId = 0) {i : Nat} (hlt : i < pre.length) :
    IsFirst (pre ++ old :: post) i row ↔ IsFirst (pre ++ post ++ [new]) i row := by
  have hprevious : (pre ++ post ++ [new])[i - 1]? = (pre ++ old :: post)[i - 1]? := by
    rw [List.append_assoc, List.getElem?_append_left (by omega), List.getElem?_append_left (by omega)]
  rw [IsFirst, IsFirst, shows_sent hold hnew, hprevious]

theorem stays_values (hold : old.mediaAlbumId = 0) (hnew : new.mediaAlbumId = 0)
    (hd : ((pre ++ [old]).map MessageData.messageId).Nodup)
    (hd' : ((pre ++ [] ++ [new]).map MessageData.messageId).Nodup) (h : StaysSeamless pre old new) {i j : Nat}
    (hi : (pre ++ [old])[i]? = some row) (hj : (pre ++ [] ++ [new])[j]? = some row')
    (hid : row'.messageId = if row.messageId = old.messageId then new.messageId else row.messageId) :
    (IsFirst (pre ++ [old]) i row ↔ IsFirst (pre ++ [] ++ [new]) j row') ∧
      (IsLast (pre ++ [old]) i row ↔ IsLast (pre ++ [] ++ [new]) j row') := by
  rcases sent_index hd hd' hi hj hid with ⟨rfl, rfl, rfl, rfl⟩ | ⟨rfl, hrow, hplace⟩
  · refine ⟨?_, iff_of_true (Or.inl (by simp)) (Or.inl (by simp))⟩
    by_cases hpre : pre = []
    · exact iff_of_true (Or.inl (by rw [hpre]; rfl)) (Or.inl (by rw [hpre]; rfl))
    · have hpos := List.length_pos_of_ne_nil hpre
      rw [IsFirst, IsFirst, List.length_nil, Nat.add_zero, List.append_nil, getElem?_front hpre, getElem?_front hpre]
      refine or_congr_right (and_congr (iff_of_true (Or.inl hold) (Or.inl hnew)) (forall₂_congr fun front hfront => ?_))
      rw [h front hfront]
  · have hlt : i < pre.length := by
      have := (List.getElem?_eq_some_iff.mp hi).1
      rw [List.length_append, List.length_singleton] at this
      omega
    obtain rfl : j = i := by omega
    refine ⟨isFirst_sent_front hold hnew hlt, ?_⟩
    rw [IsLast, IsLast, shows_sent hold hnew, albumEnd_sent hold hnew, List.append_nil, List.length_append,
      List.length_append, List.length_singleton, List.length_singleton, or_iff_right (by omega),
      or_iff_right (by omega)]
    refine and_congr_right fun _ => ?_
    obtain ⟨last, hlast, hlastid, hcase⟩ := exists_albumEnd (List.mem_of_getElem? hi)
    have hlastpre : last ∈ pre := by
      rcases hcase with rfl | ha
      · rwa [List.append_nil] at hrow
      · rcases List.mem_append.mp hlast with hmem | hmem
        · exact hmem
        · rw [List.mem_singleton.mp hmem] at ha
          exact absurd hold ha
    obtain ⟨t, ht⟩ := List.mem_iff_getElem?.mp hlastpre
    have htlt := (List.getElem?_eq_some_iff.mp ht).1
    rw [List.append_nil] at hd'
    rw [← hlastid, closes_iff hd (by rw [List.getElem?_append_left htlt]; exact ht),
      closes_iff hd' (by rw [List.getElem?_append_left htlt]; exact ht)]
    rcases Nat.lt_or_ge (t + 1) pre.length with hnext | hnext
    · rw [List.getElem?_append_left hnext, List.getElem?_append_left hnext]
    · have hfront : pre.getLast? = some last := by
        rw [List.getLast?_eq_getElem?, show pre.length - 1 = t by omega, ht]
      have hend : t + 1 = pre.length := by omega
      have htogether := h last hfront
      rw [areTogether_comm old, areTogether_comm new] at htogether
      rw [hend, List.getElem?_append_right (Nat.le_refl _), List.getElem?_append_right (Nat.le_refl _), Nat.sub_self]
      simp only [List.getElem?_cons_zero, Option.some.injEq, forall_eq', htogether]

section Moves

variable {behind last : MessageData}

theorem getElem?_sent : (pre ++ old :: post)[pre.length]? = some old := by
  rw [List.getElem?_append_right (Nat.le_refl _), Nat.sub_self]
  rfl

theorem getElem?_last (hlast : post.getLast? = some last) :
    (pre ++ old :: post)[pre.length + post.length]? = some last := by
  rw [List.getLast?_eq_getElem?] at hlast
  have hlt := (List.getElem?_eq_some_iff.mp hlast).1
  rw [show pre.length + post.length = pre.length + (post.length - 1 + 1) by omega, getElem?_behind, hlast]

theorem length_sent : (pre ++ old :: post).length = pre.length + post.length + 1 := by
  rw [List.length_append, List.length_cons]
  omega

theorem length_moved : (pre ++ post ++ [new]).length = pre.length + post.length + 1 := by
  rw [List.length_append, List.length_append, List.length_singleton]

/-- The sent message itself. -/
theorem moves_sent (hold : old.mediaAlbumId = 0) (hnew : new.mediaAlbumId = 0)
    (hd : ((pre ++ old :: post).map MessageData.messageId).Nodup) (hbehind : post.head? = some behind)
    (hlast : post.getLast? = some last) (h : MovesSeamless pre old post new behind last) :
    (IsFirst (pre ++ old :: post) pre.length old ↔
        IsFirst (pre ++ post ++ [new]) (pre.length + post.length) new) ∧
      (IsLast (pre ++ old :: post) pre.length old ↔ IsLast (pre ++ post ++ [new]) (pre.length + post.length) new) := by
  obtain ⟨hleaves, hfront, hnone, -⟩ := h
  rw [List.getLast?_eq_getElem?] at hlast
  have hlt := (List.getElem?_eq_some_iff.mp hlast).1
  have hprevious : (pre ++ post ++ [new])[pre.length + post.length - 1]? = some last := by
    rw [Nat.add_sub_assoc (by omega), getElem?_between (by omega), hlast]
  constructor
  · rw [IsFirst, IsFirst, hprevious, or_iff_right (show pre.length + post.length ≠ 0 by omega)]
    by_cases hpre : pre = []
    · refine iff_of_true (Or.inl (by rw [hpre]; rfl)) ⟨Or.inl hnew, fun previous heq => ?_⟩
      rw [← Option.some.inj heq]
      exact (hnone hpre).1
    · have hpos := List.length_pos_of_ne_nil hpre
      rw [getElem?_front hpre, or_iff_right (by omega)]
      refine and_congr (iff_of_true (Or.inl hold) (Or.inl hnew)) ?_
      obtain ⟨front, hget⟩ := Option.isSome_iff_exists.mp (List.getLast?_isSome.mpr hpre)
      simp only [hget, Option.some.injEq, forall_eq', (hfront front hget).1]
  · refine iff_of_true (Or.inr ⟨Or.inl hold, ?_⟩) (Or.inl length_moved.symm)
    rw [albumEnd, if_pos hold, closes_iff hd getElem?_sent, ← Nat.zero_add 1, getElem?_behind, ← List.head?_eq_getElem?,
      hbehind]
    intro next heq
    rw [← Option.some.inj heq]
    exact hleaves

/-- The rows behind the sent message move up. -/
theorem moves_isFirst_behind (hold : old.mediaAlbumId = 0) (hnew : new.mediaAlbumId = 0)
    (hbehind : post.head? = some behind) (h : MovesSeamless pre old post new behind last) {k : Nat}
    (hk : post[k]? = some row) :
    IsFirst (pre ++ old :: post) (pre.length + (k + 1)) row ↔
      IsFirst (pre ++ post ++ [new]) (pre.length + k) row := by
  obtain ⟨hleaves, hfront, hnone, -⟩ := h
  rw [IsFirst, IsFirst, shows_sent hold hnew, or_iff_right (show pre.length + (k + 1) ≠ 0 by omega)]
  cases k with
  | zero =>
      obtain rfl : row = behind := by
        rw [← List.head?_eq_getElem?, hbehind] at hk
        exact (Option.some.inj hk).symm
      rw [Nat.zero_add, Nat.add_sub_cancel, Nat.add_zero, getElem?_sent]
      have hshown : (Shows (pre ++ old :: post) row ∧ ∀ previous, some old = some previous →
          areTogether row previous = false) ↔ Shows (pre ++ old :: post) row := by
        refine and_iff_left fun previous heq => ?_
        rw [← Option.some.inj heq, areTogether_comm]
        exact hleaves
      rw [hshown]
      by_cases hpre : pre = []
      · exact iff_of_true (hnone hpre).2 (Or.inl (by rw [hpre]; rfl))
      · have hpos := List.length_pos_of_ne_nil hpre
        rw [List.append_assoc, getElem?_front hpre, or_iff_right (by omega)]
        refine (and_iff_left_of_imp fun hshows previous heq => ?_).symm
        exact (hfront previous heq).2 hshows
  | succ k =>
      have hlt := (List.getElem?_eq_some_iff.mp hk).1
      rw [or_iff_right (by omega), show pre.length + (k + 1 + 1) - 1 = pre.length + (k + 1) by omega, getElem?_behind,
        show pre.length + (k + 1) - 1 = pre.length + k by omega, getElem?_between (by omega)]

/-- The rows that stay in front of others. -/
theorem moves_closes (hold : old.mediaAlbumId = 0) (hnew : new.mediaAlbumId = 0)
    (h : MovesSeamless pre old post new behind last) (hrow : row ∈ pre ++ post)
    (hne : row.messageId ≠ last.messageId) :
    (Shows (pre ++ old :: post) row ∧ Closes (pre ++ old :: post) (albumEnd (pre ++ old :: post) row)) ↔
      Shows (pre ++ post ++ [new]) row ∧ Closes (pre ++ post ++ [new]) (albumEnd (pre ++ post ++ [new]) row) := by
  obtain ⟨-, -, -, -, -, hothers⟩ := h
  rw [shows_sent hold hnew, albumEnd_sent hold hnew]
  exact and_congr_right (hothers row hrow hne)

theorem moves_isLast_behind (hold : old.mediaAlbumId = 0) (hnew : new.mediaAlbumId = 0)
    (hd : ((pre ++ old :: post).map MessageData.messageId).Nodup) (hlast : post.getLast? = some last)
    (h : MovesSeamless pre old post new behind last) {k : Nat} (hk : post[k]? = some row) :
    IsLast (pre ++ old :: post) (pre.length + (k + 1)) row ↔ IsLast (pre ++ post ++ [new]) (pre.length + k) row := by
  have hlt := (List.getElem?_eq_some_iff.mp hk).1
  rw [IsLast, IsLast, length_sent, length_moved, or_iff_right (show ¬ pre.length + k + 1 = _ by omega)]
  by_cases hend : k + 1 = post.length
  · obtain rfl : row = last := by
      rw [List.getLast?_eq_getElem?, show post.length - 1 = k by omega, hk] at hlast
      exact Option.some.inj hlast
    obtain ⟨-, -, -, hshown, hcloses, -⟩ := h
    refine iff_of_true (Or.inl (by omega)) ⟨(shows_sent hold hnew).mpr hshown, ?_⟩
    rw [albumEnd_sent hold hnew]
    exact hcloses
  · rw [or_iff_right (by omega)]
    refine moves_closes hold hnew h (List.mem_append_right _ (List.mem_of_getElem? hk)) fun hid => ?_
    have := index_unique hd (getElem?_behind k ▸ hk) (getElem?_last hlast) hid
    omega

theorem moves_values (hold : old.mediaAlbumId = 0) (hnew : new.mediaAlbumId = 0)
    (hd : ((pre ++ old :: post).map MessageData.messageId).Nodup)
    (hd' : ((pre ++ post ++ [new]).map MessageData.messageId).Nodup) (hbehind : post.head? = some behind)
    (hlast : post.getLast? = some last) (h : MovesSeamless pre old post new behind last) {i j : Nat}
    (hi : (pre ++ old :: post)[i]? = some row) (hj : (pre ++ post ++ [new])[j]? = some row')
    (hid : row'.messageId = if row.messageId = old.messageId then new.messageId else row.messageId) :
    (IsFirst (pre ++ old :: post) i row ↔ IsFirst (pre ++ post ++ [new]) j row') ∧
      (IsLast (pre ++ old :: post) i row ↔ IsLast (pre ++ post ++ [new]) j row') := by
  rcases sent_index hd hd' hi hj hid with ⟨rfl, rfl, rfl, rfl⟩ | ⟨rfl, hrow, ⟨hlt, rfl⟩ | ⟨hgt, rfl⟩⟩
  · exact moves_sent hold hnew hd hbehind hlast h
  · refine ⟨isFirst_sent_front hold hnew hlt, ?_⟩
    rw [IsLast, IsLast, length_sent, length_moved]
    have hpos : 0 < post.length := List.length_pos_of_ne_nil fun hnil => by simp [hnil] at hlast
    rw [or_iff_right (by omega), or_iff_right (by omega)]
    refine moves_closes hold hnew h hrow fun heq => ?_
    have := index_unique hd hi (getElem?_last hlast) heq
    omega
  · obtain ⟨k, rfl⟩ : ∃ k, j = pre.length + k := ⟨j - pre.length, by omega⟩
    rw [Nat.add_assoc, getElem?_behind] at hi
    rw [Nat.add_assoc]
    exact ⟨moves_isFirst_behind hold hnew hbehind h hi, moves_isLast_behind hold hnew hd hlast h hi⟩

end Moves

end Sequence

end YaqtLib
