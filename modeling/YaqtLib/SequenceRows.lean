import YaqtLib.Sequences

/-! What inserting rows, removing rows and replacing a sent message do to the sequences. Rows that come in or go away
change what the rows beside them say, and what the rows say whose albums end or begin there. -/

namespace YaqtLib

open Containers IndexMap Views MessageData

namespace Sequence

variable {rows rows' pre new post : List MessageData} {row row' : MessageData}

/-! ### The entries of the albums do not matter -/

theorem albumIds_body (albumId : Int) : albumIds (rows.map body) albumId = albumIds rows albumId := by
  rw [albumIds, albumIds, List.filter_map, List.map_map]
  rfl

theorem shows_body : Shows (rows.map body) row.body ↔ Shows rows row := by
  rw [Shows, Shows, albumIds_body]
  rfl

theorem albumEnd_body : albumEnd (rows.map body) row.body = albumEnd rows row := by
  rw [albumEnd, albumEnd, albumIds_body]
  rfl

theorem closes_body {k : Int} : Closes (rows.map body) k ↔ Closes rows k := by
  rw [Closes, Closes, ← List.map_tail, List.zip_map, List.forall_mem_map]
  rfl

theorem isFirst_body {i : Nat} : IsFirst (rows.map body) i row.body ↔ IsFirst rows i row := by
  rw [IsFirst, IsFirst, shows_body, List.getElem?_map]
  cases rows[i - 1]? with
  | none => simp
  | some previous => simp [areTogether_body]

theorem isLast_body {i : Nat} : IsLast (rows.map body) i row.body ↔ IsLast rows i row := by
  rw [IsLast, IsLast, shows_body, closes_body, albumEnd_body, List.length_map]

/-! ### Rows that come in or go away -/

/-- The rows that stay show their albums before and after or neither time, and behind the albums they show is a row
that is together with the last message before and after or neither time. The second part does not matter for the row
in front of the change. -/
def Seamless (rows rows' : List MessageData) (front : Option Int) : Prop :=
  ∀ row ∈ rows, row.messageId ∈ rows'.map MessageData.messageId →
    (Shows rows row ↔ Shows rows' row) ∧
    (front ≠ some row.messageId → Shows rows row →
      (Closes rows (albumEnd rows row) ↔ Closes rows' (albumEnd rows' row)))

instance (rows rows' : List MessageData) (front : Option Int) : Decidable (Seamless rows rows' front) :=
  inferInstanceAs (Decidable (∀ _ ∈ _, _ → _))

theorem seamless_body {front : Option Int} :
    Seamless (rows.map body) (rows'.map body) front ↔ Seamless rows rows' front := by
  rw [Seamless, Seamless, List.forall_mem_map, List.map_map]
  simp only [shows_body, closes_body, albumEnd_body, body_messageId]
  rfl

/-- The places of a row with and without the rows between `pre` and `post`. -/
theorem splice_index (hd : ((pre ++ new ++ post).map MessageData.messageId).Nodup) {i j : Nat}
    (hi : (pre ++ post)[i]? = some row) (hj : (pre ++ new ++ post)[j]? = some row')
    (hid : row'.messageId = row.messageId) :
    row' = row ∧ (i < pre.length ∧ j = i ∨ pre.length ≤ i ∧ j = i + new.length) := by
  have hplace : ∀ k, (pre ++ new ++ post)[k]? = some row → row' = row ∧ j = k := by
    intro k hk
    obtain rfl := index_unique hd hj hk hid
    exact ⟨Option.some.inj (hj.symm.trans hk), rfl⟩
  rcases Nat.lt_or_ge i pre.length with hlt | hge
  · obtain ⟨hrow, hj'⟩ := hplace i (by
      rw [List.append_assoc, List.getElem?_append_left hlt]
      rwa [List.getElem?_append_left hlt] at hi)
    exact ⟨hrow, Or.inl ⟨hlt, hj'⟩⟩
  · obtain ⟨hrow, hj'⟩ := hplace (i + new.length) (by
      rw [List.getElem?_append_right (by rw [List.length_append]; omega)]
      rw [List.getElem?_append_right hge] at hi
      rw [← hi]
      congr 1
      rw [List.length_append]
      omega)
    exact ⟨hrow, Or.inr ⟨hge, hj'⟩⟩

/-- Only the row behind the change has another row in front of it. -/
theorem isFirst_splice {i j : Nat} (hplace : i < pre.length ∧ j = i ∨ pre.length ≤ i ∧ j = i + new.length)
    (hne : i ≠ pre.length) (hshows : Shows (pre ++ post) row ↔ Shows (pre ++ new ++ post) row) :
    IsFirst (pre ++ post) i row ↔ IsFirst (pre ++ new ++ post) j row := by
  rw [IsFirst, IsFirst, hshows]
  rcases hplace with ⟨hlt, rfl⟩ | ⟨hge, rfl⟩
  · have hprevious : (pre ++ new ++ post)[j - 1]? = (pre ++ post)[j - 1]? := by
      rw [List.append_assoc, List.getElem?_append_left (by omega), List.getElem?_append_left (by omega)]
    rw [hprevious]
  · have hprevious : (pre ++ new ++ post)[i + new.length - 1]? = (pre ++ post)[i - 1]? := by
      rw [List.getElem?_append_right (by rw [List.length_append]; omega), List.getElem?_append_right (by omega)]
      congr 1
      rw [List.length_append]
      omega
    rw [hprevious, or_iff_right (by omega), or_iff_right (by omega)]

theorem isLast_splice {i j : Nat} (hplace : i < pre.length ∧ j = i ∨ pre.length ≤ i ∧ j = i + new.length)
    (hne : i + 1 ≠ pre.length) (hshows : Shows (pre ++ post) row ↔ Shows (pre ++ new ++ post) row)
    (hcloses : Shows (pre ++ post) row → (Closes (pre ++ post) (albumEnd (pre ++ post) row) ↔
      Closes (pre ++ new ++ post) (albumEnd (pre ++ new ++ post) row))) :
    IsLast (pre ++ post) i row ↔ IsLast (pre ++ new ++ post) j row := by
  have hend : i + 1 = (pre ++ post).length ↔ j + 1 = (pre ++ new ++ post).length := by
    simp only [List.length_append]
    rcases hplace with ⟨hlt, rfl⟩ | ⟨hge, rfl⟩
    · omega
    · omega
  rw [IsLast, IsLast, hend, ← hshows]
  exact or_congr_right (and_congr_right hcloses)

end Sequence

open Sequence

variable {Own : Type} {m m' m'' : MessagesModel Own} {signals signals' : List RowSignal}

theorem Announced.mono (hsub : signals ⊆ signals') {role : MessageRole} {messageId : Int}
    (h : Announced signals role messageId) : Announced signals' role messageId := by
  obtain ⟨signal, hmem, hannounces⟩ := h
  exact ⟨signal, hsub hmem, hannounces⟩

/-- It is enough to look at the rows without what the albums write to them. -/
theorem sequencesAnnounced_of_rows {rows rows' : List MessageData} {newId : Int → Int} (h : m.AlbumsKept)
    (h' : m'.AlbumsKept) (hrows : m.messages.map body = rows.map body) (hrows' : m'.messages.map body = rows'.map body)
    (hvalues : ∀ i i' row row', rows[i]? = some row → rows'[i']? = some row' →
      row'.messageId = newId row.messageId →
      (¬ (IsFirst rows i row ↔ IsFirst rows' i' row') → Announced signals .isFirstInSequence row'.messageId) ∧
      (¬ (IsLast rows i row ↔ IsLast rows' i' row') → Announced signals .isLastInSequence row'.messageId)) :
    SequencesAnnounced m m' newId signals := by
  have hread : ∀ {m : MessagesModel Own} {rows : List MessageData} {i : Nat} {row : MessageData}, m.AlbumsKept →
      m.messages.map body = rows.map body → m.messages[i]? = some row →
      ∃ row', rows[i]? = some row' ∧ row'.messageId = row.messageId ∧
        (m.messageIsFirstInSequence i row = true ↔ IsFirst rows i row') ∧
        (m.messageIsLastInSequence i row = true ↔ IsLast rows i row') := by
    intro m rows i row h hrows hi
    have hget : (rows.map body)[i]? = some row.body := by rw [← hrows, List.getElem?_map, hi]; rfl
    rw [List.getElem?_map, Option.map_eq_some_iff] at hget
    obtain ⟨row', hi', hbody⟩ := hget
    have hid : row'.body.messageId = row.body.messageId := congrArg MessageData.messageId hbody
    refine ⟨row', hi', hid, ?_, ?_⟩
    · rw [h.isFirst_iff hi, ← isFirst_body, hrows, ← hbody, isFirst_body]
    · rw [h.isLast_iff hi, ← isLast_body, hrows, ← hbody, isLast_body]
  intro i i' row row' hi hi' hid
  obtain ⟨r, hr, hrid, hfirst, hlast⟩ := hread h hrows hi
  obtain ⟨r', hr', hrid', hfirst', hlast'⟩ := hread h' hrows' hi'
  obtain ⟨hvfirst, hvlast⟩ := hvalues i i' r r' hr hr' (by rw [hrid', hrid, hid])
  rw [hrid'] at hvfirst hvlast
  refine ⟨fun hne => hvfirst fun hiff => hne ?_, fun hne => hvlast fun hiff => hne ?_⟩
  · rw [Bool.eq_iff_iff, hfirst, hfirst', hiff]
  · rw [Bool.eq_iff_iff, hlast, hlast', hiff]

theorem nodup_ids_body {rows : List MessageData} (hrows : m.messages.map body = rows.map body) :
    m.ids.Nodup ↔ (rows.map MessageData.messageId).Nodup := by
  have hids := congrArg (List.map MessageData.messageId) hrows
  rw [List.map_map, List.map_map] at hids
  exact iff_of_eq (congrArg List.Nodup hids)

/-- What the rows beside a change say is announced, and the others say the same. -/
theorem announced_splice {pre new post : List MessageData} {i j : Nat} {row : MessageData}
    (hi : (pre ++ post)[i]? = some row) (hplace : i < pre.length ∧ j = i ∨ pre.length ≤ i ∧ j = i + new.length)
    (hshows : Sequence.Shows (pre ++ post) row ↔ Sequence.Shows (pre ++ new ++ post) row)
    (hcloses : pre.getLast?.map MessageData.messageId ≠ some row.messageId → Sequence.Shows (pre ++ post) row →
      (Closes (pre ++ post) (albumEnd (pre ++ post) row) ↔
        Closes (pre ++ new ++ post) (albumEnd (pre ++ new ++ post) row)))
    (hd : ((pre ++ post).map MessageData.messageId).Nodup)
    (hfirst : ∀ row ∈ post.head?, Announced signals .isFirstInSequence row.messageId)
    (hlast : ∀ row ∈ pre.getLast?, Announced signals .isLastInSequence row.messageId) :
    (¬ (IsFirst (pre ++ post) i row ↔ IsFirst (pre ++ new ++ post) j row) →
      Announced signals .isFirstInSequence row.messageId) ∧
    (¬ (IsLast (pre ++ post) i row ↔ IsLast (pre ++ new ++ post) j row) →
      Announced signals .isLastInSequence row.messageId) := by
  refine ⟨fun hne => ?_, fun hne => ?_⟩
  · by_cases hbehind : i = pre.length
    · rw [hbehind, List.getElem?_append_right (Nat.le_refl _), Nat.sub_self] at hi
      exact hfirst row (by rw [List.head?_eq_getElem?]; exact hi)
    · exact absurd (isFirst_splice hplace hbehind hshows) hne
  · by_cases hfront : i + 1 = pre.length
    · rw [List.getElem?_append_left (by omega), show i = pre.length - 1 by omega] at hi
      exact hlast row (by rw [List.getLast?_eq_getElem?]; exact hi)
    · refine absurd (isLast_splice hplace hfront hshows (hcloses ?_)) hne
      intro hid
      obtain ⟨front, hget, hid⟩ := Option.map_eq_some_iff.mp hid
      rw [List.getLast?_eq_getElem?] at hget
      have hlt := (List.getElem?_eq_some_iff.mp hget).1
      rw [← @List.getElem?_append_left _ pre post _ hlt] at hget
      have := index_unique hd hi hget hid.symm
      omega

theorem sequencesAnnounced_insert {pre new post : List MessageData} (h : m.AlbumsKept) (h' : m'.AlbumsKept)
    (hrows : m.messages = pre ++ post) (hrows' : m'.messages.map body = (pre ++ new ++ post).map body)
    (hseamless : Seamless (pre ++ post) (pre ++ new ++ post) (pre.getLast?.map MessageData.messageId))
    (hfirst : ∀ row ∈ post.head?, Announced signals .isFirstInSequence row.messageId)
    (hlast : ∀ row ∈ pre.getLast?, Announced signals .isLastInSequence row.messageId) :
    SequencesAnnounced m m' id signals := by
  have hd : ((pre ++ post).map MessageData.messageId).Nodup := by
    rw [← hrows]
    exact h.indexExact.nodup
  have hd' : ((pre ++ new ++ post).map MessageData.messageId).Nodup := by
    exact (nodup_ids_body hrows').mp h'.indexExact.nodup
  refine sequencesAnnounced_of_rows h h' (by rw [hrows]) hrows' fun i i' row row' hi hi' hid => ?_
  obtain ⟨rfl, hplace⟩ := splice_index hd' hi hi' hid
  obtain ⟨hshows, hcloses⟩ := hseamless row' (List.mem_of_getElem? hi) (List.mem_map_of_mem (List.mem_of_getElem? hi'))
  exact announced_splice hi hplace hshows hcloses hd hfirst hlast

theorem sequencesAnnounced_remove {pre removed post : List MessageData} (h : m.AlbumsKept) (h' : m'.AlbumsKept)
    (hrows : m.messages = pre ++ removed ++ post) (hrows' : m'.messages.map body = (pre ++ post).map body)
    (hseamless : Seamless (pre ++ removed ++ post) (pre ++ post) (pre.getLast?.map MessageData.messageId))
    (hfirst : ∀ row ∈ post.head?, Announced signals .isFirstInSequence row.messageId)
    (hlast : ∀ row ∈ pre.getLast?, Announced signals .isLastInSequence row.messageId) :
    SequencesAnnounced m m' id signals := by
  have hd : ((pre ++ removed ++ post).map MessageData.messageId).Nodup := by
    rw [← hrows]
    exact h.indexExact.nodup
  have hd' : ((pre ++ post).map MessageData.messageId).Nodup := by
    exact (nodup_ids_body hrows').mp h'.indexExact.nodup
  refine sequencesAnnounced_of_rows h h' (by rw [hrows]) hrows' fun i i' row row' hi hi' hid => ?_
  obtain ⟨rfl, hplace⟩ := splice_index hd hi' hi hid.symm
  obtain ⟨hshows, hcloses⟩ := hseamless row (List.mem_of_getElem? hi) (List.mem_map_of_mem (List.mem_of_getElem? hi'))
  have hannounced := announced_splice hi' hplace hshows.symm
    (fun hfront hshown => (hcloses hfront (hshows.mpr hshown)).symm) hd' hfirst hlast
  rwa [iff_comm, @iff_comm (IsLast _ _ _)] at hannounced

/-- Operations one after the other. -/
theorem SequencesAnnounced.trans (h : SequencesAnnounced m m' id signals) (h' : SequencesAnnounced m' m'' id signals')
    (hids : m''.ids ⊆ m'.ids) : SequencesAnnounced m m'' id (signals ++ signals') := by
  intro i i'' row row'' hi hi'' hid
  have hmem : row''.messageId ∈ m'.ids := hids (List.mem_map_of_mem (List.mem_of_getElem? hi''))
  obtain ⟨row', hrow', hid'⟩ := List.mem_map.mp hmem
  obtain ⟨i', hi'⟩ := List.mem_iff_getElem?.mp hrow'
  obtain ⟨hfirst, hlast⟩ := h i i' row row' hi hi' (hid'.trans hid)
  obtain ⟨hfirst', hlast'⟩ := h' i' i'' row' row'' hi' hi'' hid'.symm
  rw [hid'] at hfirst hlast
  refine ⟨fun hne => ?_, fun hne => ?_⟩
  · by_cases heq : m.messageIsFirstInSequence i row = m'.messageIsFirstInSequence i' row'
    · exact (hfirst' (heq ▸ hne)).mono (List.subset_append_right _ _)
    · exact (hfirst heq).mono (List.subset_append_left _ _)
  · by_cases heq : m.messageIsLastInSequence i row = m'.messageIsLastInSequence i' row'
    · exact (hlast' (heq ▸ hne)).mono (List.subset_append_right _ _)
    · exact (hlast heq).mono (List.subset_append_left _ _)

end YaqtLib
