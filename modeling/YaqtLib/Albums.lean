import YaqtLib.MessagesIndex

/-! The albums among the rows. `albumMessageMap` lists the messages of an album, the first of which shows the whole
album while the others are filtered out of the view. Batches bring the members of an album in parts and from both
ends, and deletions take any of them away. -/

namespace YaqtLib

open Containers IndexMap Runs

namespace MessageData

/-- What the albums write to a row. -/
def entry (message : MessageData) : Bool × List Int := (message.albumEntryFilter, message.albumMessageIds)

def withEntry (message : MessageData) (entry : Bool × List Int) : MessageData :=
  { message with albumEntryFilter := entry.1, albumMessageIds := entry.2 }

@[simp] theorem withEntry_messageId (message : MessageData) (entry : Bool × List Int) :
    (message.withEntry entry).messageId = message.messageId := rfl

@[simp] theorem withEntry_mediaAlbumId (message : MessageData) (entry : Bool × List Int) :
    (message.withEntry entry).mediaAlbumId = message.mediaAlbumId := rfl

@[simp] theorem entry_withEntry (message : MessageData) (entry : Bool × List Int) :
    (message.withEntry entry).entry = entry := rfl

/-- The entry of a message in an album with the given ids: the first shows the album, the others are filtered. -/
def entryOf (albumIds : List Int) (messageId : Int) : Bool × List Int :=
  if albumIds.head? = some messageId then (false, albumIds)
  else if messageId ∈ albumIds then (true, []) else (false, [])

theorem entryOf_of_not_mem {albumIds : List Int} {messageId : Int} (h : messageId ∉ albumIds) :
    entryOf albumIds messageId = (false, []) := by
  have hhead : albumIds.head? ≠ some messageId := fun hhead => h (List.mem_of_mem_head? hhead)
  rw [entryOf, if_neg hhead, if_neg h]

end MessageData

open MessageData

namespace MessagesModel

variable {Own : Type} {m : MessagesModel Own}

/-! ### What `updateAlbumMessages` writes -/

/-- With an exact index map, a row is reached through its id. -/
theorem modify_eq_map (hm : m.IndexExact) {messageId : Int} {position : Nat}
    (hvalue : m.messageIndexMap.value messageId = some position) (f : MessageData → MessageData) :
    m.messages.modify position f = m.messages.map fun row => if row.messageId = messageId then f row else row := by
  obtain ⟨pre, row, post, hrows, rfl, hrow, hid⟩ := hm.exists_split hvalue
  have hnodup := hm.nodup
  rw [ids, hrows, List.map_append, List.map_cons, hid, List.nodup_middle, List.nodup_cons, List.mem_append] at hnodup
  have hother : ∀ rows : List MessageData, messageId ∉ rows.map MessageData.messageId →
      rows.map (fun row => if row.messageId = messageId then f row else row) = rows := by
    intro rows hnot
    refine (List.map_congr_left fun r hr => if_neg fun heq => hnot ?_).trans (List.map_id rows)
    exact heq ▸ List.mem_map_of_mem hr
  rw [hrows, modify_append_cons, List.map_append, List.map_cons, if_pos hid,
    hother pre fun h => hnodup.1 (Or.inl h), hother post fun h => hnodup.1 (Or.inr h)]

/-- The entries of the ids in `rest` are written, the first of them as the main one if it is that. -/
theorem updateAlbumEntries_eq (hm : m.IndexExact) (albumIds : List Int) {rest : List Int} (hd : rest.Nodup)
    (isMain : Bool) : updateAlbumEntries albumIds m rest isMain = { m with
      messages := m.messages.map fun row =>
        if row.messageId ∈ rest then
          row.withEntry (if isMain = true ∧ rest.head? = some row.messageId then (false, albumIds) else (true, []))
        else row } := by
  induction rest generalizing m isMain with
  | nil =>
      rw [updateAlbumEntries]
      simp
  | cons id rest ih =>
      obtain ⟨hid, hd'⟩ := List.nodup_cons.mp hd
      rw [updateAlbumEntries]
      cases hvalue : m.messageIndexMap.value id with
      | none =>
          have hnot : id ∉ m.ids := (not_mem_ids_iff hm id).mp ((QHash.contains_eq_false_iff _ _).mpr hvalue)
          dsimp only
          rw [ih hm hd' false]
          congr 1
          refine List.map_congr_left fun row hrow => ?_
          have hne : row.messageId ≠ id := fun heq => hnot (heq ▸ List.mem_map_of_mem hrow)
          simp [hne, Ne.symm hne]
      | some position =>
          have hsame := setAlbumEntry_same m position isMain albumIds
          dsimp only
          rw [ih (hsame.indexExact hm) hd' false, setAlbumEntry]
          dsimp only
          rw [modify_eq_map hm hvalue, List.map_map]
          congr 1
          refine List.map_congr_left fun row hrow => ?_
          by_cases heq : row.messageId = id
          · cases isMain <;> simp [heq, hid, withEntry]
          · simp [heq, Ne.symm heq]

/-- The list that `updateAlbumMessages` leaves. -/
def albumIdsAfter (m : MessagesModel Own) (albumIds : List Int) (checkDeleted : Bool) : List Int :=
  let sorted := albumIds.insertionSort (· ≤ ·)
  if checkDeleted then sorted.filter m.messageIndexMap.contains else sorted

/-- The rows of the listed messages get their entries, and the list is stored. -/
theorem updateAlbumMessages_eq (hm : m.IndexExact) {albumId : Int} {albumIds : List Int}
    (hvalue : m.albumMessageMap.value albumId = some albumIds) (hd : albumIds.Nodup) (checkDeleted : Bool) :
    m.updateAlbumMessages albumId checkDeleted = { m with
      messages := m.messages.map fun row =>
        if row.messageId ∈ m.albumIdsAfter albumIds checkDeleted then
          row.withEntry (entryOf (m.albumIdsAfter albumIds checkDeleted) row.messageId)
        else row
      albumMessageMap := m.albumMessageMap.insert albumId (m.albumIdsAfter albumIds checkDeleted) } := by
  have hd' : (m.albumIdsAfter albumIds checkDeleted).Nodup := by
    have hsorted : (albumIds.insertionSort (· ≤ ·)).Nodup := (List.perm_insertionSort _ _).nodup_iff.mpr hd
    rw [albumIdsAfter]
    split_ifs
    · exact hsorted.filter _
    · exact hsorted
  rw [updateAlbumMessages, hvalue]
  change (fun after : List Int =>
    let m := if after.isEmpty then { m with albumMessageMap := m.albumMessageMap.remove albumId }
      else updateAlbumEntries after m after true
    { m with albumMessageMap := m.albumMessageMap.insert albumId after }) (m.albumIdsAfter albumIds checkDeleted) = _
  generalize m.albumIdsAfter albumIds checkDeleted = after at hd'
  dsimp only
  split_ifs with hempty
  · obtain rfl := List.isEmpty_iff.mp hempty
    have hinsert : (m.albumMessageMap.remove albumId).insert albumId [] = m.albumMessageMap.insert albumId [] := by
      funext k
      rw [QHash.insert, QHash.insert, QHash.remove]
      split_ifs <;> rfl
    rw [hinsert]
    simp
  · rw [updateAlbumEntries_eq hm after hd' true]
    dsimp only
    congr 1
    refine List.map_congr_left fun row _ => ?_
    by_cases hmem : row.messageId ∈ after
    · rw [if_pos hmem, if_pos hmem, entryOf, if_pos hmem]
      simp only [true_and]
    · rw [if_neg hmem, if_neg hmem]

/-! ### The invariant -/

/-- The ids that are listed for an album; messages without one have the album id 0. -/
def listOf (m : MessagesModel Own) (albumId : Int) : List Int :=
  if albumId = 0 then [] else (m.albumMessageMap.value albumId).getD []

/-- The lists are in order and hold the rows of their albums that `listed` names, and the entries of the rows
follow the lists. -/
structure AlbumsFollow (m : MessagesModel Own) (listed : Int → Prop) : Prop where
  sorted : ∀ albumId, (m.listOf albumId).Pairwise (· < ·)
  mem : ∀ row ∈ m.messages, ∀ albumId, albumId ≠ 0 →
    (row.messageId ∈ m.listOf albumId ↔ listed row.messageId ∧ row.mediaAlbumId = albumId)
  entries : ∀ row ∈ m.messages, row.entry = entryOf (m.listOf row.mediaAlbumId) row.messageId

/-- The album lists loaded messages only. -/
def Clean (m : MessagesModel Own) (albumId : Int) : Prop := ∀ k ∈ m.listOf albumId, k ∈ m.ids

variable {listed listed' : Int → Prop}

theorem AlbumsFollow.congr (h : m.AlbumsFollow listed) (hiff : ∀ k ∈ m.ids, listed' k ↔ listed k) :
    m.AlbumsFollow listed' := by
  refine ⟨h.sorted, fun row hrow albumId ha => ?_, h.entries⟩
  rw [h.mem row hrow albumId ha, hiff _ (List.mem_map_of_mem hrow)]

/-- A list of an album is replaced, and the entries of its rows are written. -/
theorem AlbumsFollow.update (h : m.AlbumsFollow listed) {albumId : Int} (ha : albumId ≠ 0) {after : List Int}
    (hsorted : after.Pairwise (· < ·))
    (hmem : ∀ row ∈ m.messages, row.messageId ∈ after ↔ listed' row.messageId ∧ row.mediaAlbumId = albumId)
    (hgrow : ∀ k, listed k → listed' k)
    (hother : ∀ row ∈ m.messages, row.mediaAlbumId ≠ albumId → row.mediaAlbumId ≠ 0 →
      (listed' row.messageId ↔ listed row.messageId)) :
    AlbumsFollow { m with
      messages := m.messages.map fun row =>
        if row.messageId ∈ after then row.withEntry (entryOf after row.messageId) else row
      albumMessageMap := m.albumMessageMap.insert albumId after } listed' := by
  have hlist : ∀ albumId', listOf { m with
      messages := m.messages.map fun row =>
        if row.messageId ∈ after then row.withEntry (entryOf after row.messageId) else row
      albumMessageMap := m.albumMessageMap.insert albumId after } albumId' =
      if albumId' = albumId then after else m.listOf albumId' := by
    intro albumId'
    rw [listOf, listOf, QHash.value_insert]
    split_ifs <;> simp_all
  refine ⟨fun albumId' => ?_, fun row' hrow' albumId' ha' => ?_, fun row' hrow' => ?_⟩
  · rw [hlist]
    split_ifs
    · exact hsorted
    · exact h.sorted albumId'
  · obtain ⟨row, hrow, rfl⟩ := List.mem_map.mp hrow'
    have hrow'' : row.messageId ∈ (if albumId' = albumId then after else m.listOf albumId') ↔
        listed' row.messageId ∧ row.mediaAlbumId = albumId' := by
      split_ifs with heq
      · rw [heq, hmem row hrow]
      · rw [h.mem row hrow albumId' ha']
        refine and_congr_left fun halbum => (hother row hrow ?_ ?_).symm
        · exact fun heq' => heq (halbum.symm.trans heq')
        · exact fun heq' => ha' (halbum.symm.trans heq')
    rw [hlist]
    by_cases hin : row.messageId ∈ after
    · rw [if_pos hin]
      exact hrow''
    · rw [if_neg hin]
      exact hrow''
  · obtain ⟨row, hrow, rfl⟩ := List.mem_map.mp hrow'
    rw [hlist]
    by_cases hin : row.messageId ∈ after
    · have halbum := ((hmem row hrow).mp hin).2
      simp [hin, halbum]
    · rw [if_neg hin, h.entries row hrow]
      split_ifs with halbum
      · have hnot : row.messageId ∉ m.listOf albumId := fun hold =>
          hin ((hmem row hrow).mpr ((h.mem row hrow albumId ha).mp hold |>.imp_left (hgrow _)))
        rw [halbum, entryOf_of_not_mem hnot, entryOf_of_not_mem hin]
      · rfl

theorem strictSorted_insertionSort {l : List Int} (h : l.Nodup) :
    (l.insertionSort (· ≤ ·)).Pairwise (· < ·) := by
  have hsorted : (l.insertionSort (· ≤ ·)).Pairwise (· ≤ ·) :=
    pairwise_insertionSort _ (List.pairwise_of_forall fun a b => le_total a b)
  have hnodup : (l.insertionSort (· ≤ ·)).Nodup := (List.perm_insertionSort _ _).nodup_iff.mpr h
  exact (hsorted.and hnodup).imp fun h => lt_of_le_of_ne h.1 h.2

theorem AlbumsFollow.nodup (h : m.AlbumsFollow listed) (albumId : Int) : (m.listOf albumId).Nodup :=
  (h.sorted albumId).imp fun hlt => hlt.ne

/-- The message joins the list of its album. -/
theorem setMessageAlbum_eq (hm : m.IndexExact) (h : m.AlbumsFollow listed) {message : MessageData}
    (hzero : message.mediaAlbumId ≠ 0) : ∃ after : List Int, after.Pairwise (· < ·) ∧
      (∀ k, k ∈ after ↔ k ∈ m.listOf message.mediaAlbumId ∨ k = message.messageId) ∧
      m.setMessageAlbum message = { m with
        messages := m.messages.map fun row =>
          if row.messageId ∈ after then row.withEntry (entryOf after row.messageId) else row
        albumMessageMap := m.albumMessageMap.insert message.mediaAlbumId after } := by
  have hlist : m.listOf message.mediaAlbumId = (m.albumMessageMap.value message.mediaAlbumId).getD [] := if_neg hzero
  have hnodup := h.nodup message.mediaAlbumId
  have hupdate : ∀ messageIds : List Int, messageIds.Nodup →
      (∀ k, k ∈ messageIds ↔ k ∈ m.listOf message.mediaAlbumId ∨ k = message.messageId) →
      ∃ after : List Int, after.Pairwise (· < ·) ∧
        (∀ k, k ∈ after ↔ k ∈ m.listOf message.mediaAlbumId ∨ k = message.messageId) ∧
        updateAlbumMessages { m with albumMessageMap := m.albumMessageMap.insert message.mediaAlbumId messageIds }
          message.mediaAlbumId false = { m with
            messages := m.messages.map fun row =>
              if row.messageId ∈ after then row.withEntry (entryOf after row.messageId) else row
            albumMessageMap := m.albumMessageMap.insert message.mediaAlbumId after } := by
    intro messageIds hd hmem
    refine ⟨messageIds.insertionSort (· ≤ ·), strictSorted_insertionSort hd, fun k => ?_, ?_⟩
    · rw [(List.perm_insertionSort _ _).mem_iff, hmem]
    · have hm' : IndexExact { m with
          albumMessageMap := m.albumMessageMap.insert message.mediaAlbumId messageIds } := hm
      rw [updateAlbumMessages_eq hm' (QHash.value_insert_self _ _ _) hd false]
      dsimp only
      rw [QHash.insert_insert_self]
      rfl
  rw [hlist] at hnodup hupdate ⊢
  rw [setMessageAlbum]
  dsimp only
  rw [if_neg hzero]
  cases hvalue : m.albumMessageMap.value message.mediaAlbumId with
  | none =>
      rw [hvalue] at hupdate
      exact hupdate [message.messageId] (List.nodup_singleton _) fun k => by simp
  | some messageIds =>
      rw [hvalue, Option.getD_some] at hnodup hupdate
      dsimp only
      split_ifs with hmem
      · exact hupdate messageIds hnodup fun k => (or_iff_left_of_imp fun heq => heq ▸ hmem).symm
      · refine hupdate _ (hnodup.append (List.nodup_singleton _) (List.disjoint_singleton.mpr hmem)) fun k => ?_
        rw [List.mem_append, List.mem_singleton]

/-- One row of a batch is entered in its album. -/
theorem albumsFollow_setMessageAlbum (hm : m.IndexExact) (h : m.AlbumsFollow listed)
    (hclean : ∀ albumId, m.Clean albumId) {message : MessageData}
    (hrow : (message.messageId, message.mediaAlbumId) ∈
      m.messages.map fun row => (row.messageId, row.mediaAlbumId)) :
    (m.setMessageAlbum message).AlbumsFollow (fun k => listed k ∨ k = message.messageId) ∧
      ∀ albumId, (m.setMessageAlbum message).Clean albumId := by
  obtain ⟨own, hown, heq⟩ := List.mem_map.mp hrow
  obtain ⟨hid, halbum⟩ := Prod.mk.inj heq
  have hunique : ∀ row ∈ m.messages, row.messageId = message.messageId →
      row.mediaAlbumId = message.mediaAlbumId := by
    intro row hmem heq
    rw [List.inj_on_of_nodup_map hm.nodup hmem hown (heq.trans hid.symm), halbum]
  by_cases hzero : message.mediaAlbumId = 0
  · rw [setMessageAlbum]
    dsimp only
    rw [if_pos hzero]
    refine ⟨⟨h.sorted, fun row hmem albumId ha => ?_, h.entries⟩, hclean⟩
    rw [h.mem row hmem albumId ha, or_and_right]
    refine (or_iff_left_of_imp ?_).symm
    rintro ⟨heq, rfl⟩
    exact absurd ((hunique row hmem heq).trans hzero) ha
  obtain ⟨after, hsorted, hafter, heq⟩ := setMessageAlbum_eq hm h hzero
  have hids := (setMessageAlbum_same m message).ids_eq
  refine ⟨?_, fun albumId k hk => ?_⟩
  · rw [heq]
    refine h.update hzero hsorted (fun row hmem => ?_) (fun k => Or.inl) fun row hmem hne _ => ?_
    · rw [hafter, h.mem row hmem _ hzero, or_and_right]
      refine or_congr_right (and_iff_left_of_imp (hunique row hmem)).symm
    · exact or_iff_left_of_imp fun heq => absurd (hunique row hmem heq) hne
  · rw [hids]
    rw [heq, listOf] at hk
    split_ifs at hk with ha
    · exact absurd hk List.not_mem_nil
    · rw [QHash.value_insert] at hk
      split_ifs at hk with halbum'
      · rcases (hafter k).mp hk with hk | rfl
        · exact hclean _ k hk
        · exact hid ▸ List.mem_map_of_mem hown
      · exact hclean albumId k (by rwa [listOf, if_neg ha])

/-- The rows of a batch are entered in their albums. -/
theorem albumsFollow_setMessagesAlbum {newMessages : List MessageData} {m : MessagesModel Own} (hm : m.IndexExact)
    {listed : Int → Prop} (h : m.AlbumsFollow listed) (hclean : ∀ albumId, m.Clean albumId)
    (hrows : ∀ message ∈ newMessages, (message.messageId, message.mediaAlbumId) ∈
      m.messages.map fun row => (row.messageId, row.mediaAlbumId)) :
    (m.setMessagesAlbum newMessages).AlbumsFollow
        (fun k => listed k ∨ k ∈ newMessages.map MessageData.messageId) ∧
      ∀ albumId, (m.setMessagesAlbum newMessages).Clean albumId := by
  induction newMessages generalizing m listed with
  | nil => exact ⟨h.congr fun k _ => by simp, hclean⟩
  | cons message newMessages ih =>
      have hsame := setMessageAlbum_same m message
      obtain ⟨hfollow, hclean'⟩ := albumsFollow_setMessageAlbum hm h hclean (hrows message List.mem_cons_self)
      have hrest := ih (hsame.indexExact hm) hfollow hclean' fun message' hmem => by
        rw [hsame.map_eq (fun row => (row.messageId, row.mediaAlbumId)) fun _ => rfl]
        exact hrows message' (List.mem_cons_of_mem _ hmem)
      refine ⟨hrest.1.congr fun k _ => ?_, hrest.2⟩
      simp [or_assoc]

/-- An album whose messages may have been deleted is listed anew. -/
theorem albumsFollow_updateAlbumMessages (hm : m.IndexExact) (h : m.AlbumsFollow fun _ => True) {albumId : Int}
    (ha : albumId ≠ 0) :
    ((m.updateAlbumMessages albumId true).AlbumsFollow fun _ => True) ∧
      (m.updateAlbumMessages albumId true).Clean albumId ∧
      ∀ albumId', m.Clean albumId' → (m.updateAlbumMessages albumId true).Clean albumId' := by
  have hids := (updateAlbumMessages_same m albumId true).ids_eq
  cases hvalue : m.albumMessageMap.value albumId with
  | none =>
      rw [updateAlbumMessages, hvalue]
      refine ⟨h, fun k hk => ?_, fun _ hclean => hclean⟩
      rw [listOf, if_neg ha, hvalue] at hk
      exact absurd hk List.not_mem_nil
  | some albumIds =>
      have hlist : m.listOf albumId = albumIds := by rw [listOf, if_neg ha, hvalue, Option.getD_some]
      have hd : albumIds.Nodup := hlist ▸ h.nodup albumId
      have hafter : ∀ k, k ∈ m.albumIdsAfter albumIds true ↔ k ∈ albumIds ∧ k ∈ m.ids := by
        intro k
        rw [albumIdsAfter, if_pos rfl, List.mem_filter, (List.perm_insertionSort _ _).mem_iff,
          contains_iff_mem_ids hm]
      have hsorted : (m.albumIdsAfter albumIds true).Pairwise (· < ·) := by
        rw [albumIdsAfter, if_pos rfl]
        exact (strictSorted_insertionSort hd).filter _
      have heq := updateAlbumMessages_eq hm hvalue hd true
      have hlist' : ∀ albumId', (m.updateAlbumMessages albumId true).listOf albumId' =
          if albumId' = albumId then m.albumIdsAfter albumIds true else m.listOf albumId' := by
        intro albumId'
        rw [heq, listOf, listOf, QHash.value_insert]
        split_ifs <;> simp_all
      refine ⟨?_, fun k hk => ?_, fun albumId' hclean k hk => ?_⟩
      · rw [heq]
        refine h.update ha hsorted (fun row hrow => ?_) (fun _ _ => trivial) fun _ _ _ _ => Iff.rfl
        rw [hafter, ← hlist, h.mem row hrow albumId ha]
        exact and_iff_left (List.mem_map_of_mem hrow)
      · rw [hlist', if_pos rfl, hafter] at hk
        exact hids ▸ hk.2
      · rw [hids]
        rw [hlist'] at hk
        split_ifs at hk
        · exact ((hafter k).mp hk).2
        · exact hclean k hk

theorem albumsFollow_rescan {albumIds : List Int} {m : MessagesModel Own} (hm : m.IndexExact)
    (h : m.AlbumsFollow fun _ => True) (hnonzero : ∀ albumId ∈ albumIds, albumId ≠ 0)
    (hclean : ∀ albumId, albumId ∉ albumIds → m.Clean albumId) :
    ((albumIds.foldl (fun m albumId => m.updateAlbumMessages albumId true) m).AlbumsFollow fun _ => True) ∧
      ∀ albumId, (albumIds.foldl (fun m albumId => m.updateAlbumMessages albumId true) m).Clean albumId := by
  induction albumIds generalizing m with
  | nil => exact ⟨h, fun albumId => hclean albumId List.not_mem_nil⟩
  | cons first rest ih =>
      obtain ⟨hfollow, hfirst, hother⟩ := albumsFollow_updateAlbumMessages hm h (hnonzero first List.mem_cons_self)
      refine ih ((updateAlbumMessages_same m first true).indexExact hm) hfollow
        (fun albumId hmem => hnonzero albumId (List.mem_cons_of_mem _ hmem)) fun albumId hnot => ?_
      by_cases heq : albumId = first
      · exact heq ▸ hfirst
      · exact hother albumId (hclean albumId fun hmem => (List.mem_cons.mp hmem).elim heq hnot)

/-! ### The operations -/

/-- The index map is exact, and the albums list and show the loaded messages. -/
structure AlbumsKept (m : MessagesModel Own) : Prop where
  indexExact : m.IndexExact
  follow : m.AlbumsFollow fun _ => True
  clean : ∀ albumId, m.Clean albumId

theorem AlbumsKept.removeRange (h : m.AlbumsKept) {first last : Nat} (hlast : last < m.messages.length) :
    (m.removeRange first last).AlbumsKept := by
  have hexact := @indexExact_removeRange _ _ h.indexExact first last hlast
  by_cases hle : first ≤ last
  swap
  · rwa [MessagesModel.removeRange, if_neg hle]
  have hsame := removeRange_same m hle
  suffices hresult : ((m.removeRange first last).AlbumsFollow fun _ => True) ∧
      ∀ albumId, (m.removeRange first last).Clean albumId from ⟨hexact, hresult.1, hresult.2⟩
  have hindex : IndexExact { m with
      messages := eraseRange m.messages first last
      messageIndexMap := reindex MessageData.key ((eraseRange m.messages first last).drop first) first
        (m.messageIndexMap.removeAll
          (((m.messages.drop first).take (last + 1 - first)).map MessageData.messageId)) } := by
    unfold IndexExact at hexact ⊢
    rw [hsame.messageIndexMap_eq] at hexact
    exact (indexes_congr (hsame.map_eq MessageData.key fun _ => rfl)).mp hexact
  have hsub : (eraseRange m.messages first last).Sublist m.messages := eraseRange_sublist m.messages hle
  rw [MessagesModel.removeRange, if_pos hle]
  refine albumsFollow_rescan hindex ⟨h.follow.sorted, fun row hrow => h.follow.mem row (hsub.subset hrow),
    fun row hrow => h.follow.entries row (hsub.subset hrow)⟩ (fun albumId hmem => ?_) fun albumId hnot k hk => ?_
  · simp only [List.mem_filter, Bool.and_eq_true, bne_iff_ne] at hmem
    exact hmem.2.1
  · -- a listed row that went would have its album listed anew
    have hk' : k ∈ m.listOf albumId := hk
    obtain ⟨row, hrow, rfl⟩ := List.mem_map.mp (h.clean albumId k hk')
    have hzero : albumId ≠ 0 := by
      rintro rfl
      exact absurd hk' List.not_mem_nil
    have halbum := ((h.follow.mem row hrow albumId hzero).mp hk').2
    have hsplit : row ∈ eraseRange m.messages first last ∨
        row ∈ (m.messages.drop first).take (last + 1 - first) := by
      rw [eq_append_range m.messages hle, List.mem_append, List.mem_append] at hrow
      rw [eraseRange, List.mem_append]
      tauto
    rcases hsplit with hstays | hgoes
    · exact List.mem_map_of_mem hstays
    · refine absurd ?_ hnot
      refine List.mem_filter.mpr ⟨List.mem_map.mpr ⟨row, hgoes, halbum⟩, ?_⟩
      rw [Bool.and_eq_true, bne_iff_ne, QHash.contains_iff]
      refine ⟨hzero, ?_⟩
      rw [listOf, if_neg hzero] at hk'
      cases hvalue : m.albumMessageMap.value albumId with
      | none =>
          rw [hvalue] at hk'
          exact absurd hk' List.not_mem_nil
      | some albumIds => exact ⟨albumIds, rfl⟩

theorem AlbumsKept.deleteLoop (count : Nat) {m : MessagesModel Own} (h : m.AlbumsKept) (messageIds : List Int)
    {first last : Nat} (hlast : last = count ∨ last < m.messages.length) :
    (deleteLoop count m messageIds first last).1.AlbumsKept ∧
      ((MessagesModel.deleteLoop count m messageIds first last).2.2 = count ∨
        (MessagesModel.deleteLoop count m messageIds first last).2.2 <
          (MessagesModel.deleteLoop count m messageIds first last).1.messages.length) :=
  deleteLoop_invariant (fun h => Indexes.lt_length h.indexExact) (fun _ _ h => h.removeRange) count h messageIds hlast

theorem AlbumsKept.handleMessagesDeleted (h : m.AlbumsKept) (chatId : Int) (messageIds : List Int) :
    (m.handleMessagesDeleted chatId messageIds).AlbumsKept := by
  rw [MessagesModel.handleMessagesDeleted]
  split_ifs
  · exact deleteMessages_invariant (fun h => Indexes.lt_length h.indexExact) (fun _ _ h => h.removeRange) h _
  · exact h

theorem AlbumsKept.empty (h : m.messages = []) (hindex : m.messageIndexMap = QHash.empty)
    (halbums : m.albumMessageMap = QHash.empty) : m.AlbumsKept := by
  have hlist : ∀ albumId, m.listOf albumId = [] := by
    intro albumId
    rw [listOf, halbums]
    split_ifs <;> rfl
  refine ⟨?_, ⟨fun albumId => ?_, fun row hrow => ?_, fun row hrow => ?_⟩, fun albumId k hk => ?_⟩
  · unfold IndexExact
    rw [h, hindex]
    exact Indexes.empty
  · rw [hlist]
    exact List.Pairwise.nil
  · rw [h] at hrow
    exact absurd hrow List.not_mem_nil
  · rw [h] at hrow
    exact absurd hrow List.not_mem_nil
  · rw [hlist] at hk
    exact absurd hk List.not_mem_nil

theorem AlbumsKept.clear (h : m.AlbumsKept) : m.clear.AlbumsKept := by
  rw [MessagesModel.clear]
  split_ifs
  · exact h
  · exact .empty rfl rfl rfl

variable [Virtuals Own]

theorem insertMessages_albumMessageMap (h : m.InsertsAtEnds) (newMessages : List MessageData) :
    (m.insertMessages newMessages).albumMessageMap = m.albumMessageMap := by
  rcases insertMessages_cases h newMessages with heq | heq | heq <;> rw [heq]
  · rfl
  · rfl

/-- New rows join the rows and the lists of their albums. -/
theorem AlbumsKept.addMessages (h : m.AlbumsKept) (hends : m.InsertsAtEnds) {newMessages : List MessageData}
    (hd : (m.ids ++ newMessages.map MessageData.messageId).Nodup)
    (hentry : ∀ row ∈ newMessages, row.entry = (false, [])) :
    ((m.insertMessages newMessages).setMessagesAlbum newMessages).AlbumsKept := by
  have hexact := indexExact_insertMessages hends h.indexExact hd
  have hlist : ∀ albumId, (m.insertMessages newMessages).listOf albumId = m.listOf albumId := by
    intro albumId
    rw [listOf, listOf, insertMessages_albumMessageMap hends]
  have hnew : ∀ row ∈ newMessages, row.messageId ∉ m.ids := fun row hrow hmem =>
    (List.nodup_append.mp hd).2.2 _ hmem _ (List.mem_map_of_mem hrow) rfl
  have hfollow : (m.insertMessages newMessages).AlbumsFollow (· ∈ m.ids) := by
    refine ⟨fun albumId => ?_, fun row hrow albumId ha => ?_, fun row hrow => ?_⟩
    · rw [hlist]
      exact h.follow.sorted albumId
    · rw [hlist]
      rcases (mem_insertMessages hends).mp hrow with hold | hadded
      · rw [h.follow.mem row hold albumId ha, true_and]
        exact (and_iff_right (List.mem_map_of_mem hold)).symm
      · exact iff_of_false (fun hmem => hnew row hadded (h.clean albumId _ hmem)) fun hmem => hnew row hadded hmem.1
    · rw [hlist]
      rcases (mem_insertMessages hends).mp hrow with hold | hadded
      · exact h.follow.entries row hold
      · rw [hentry row hadded, entryOf_of_not_mem fun hmem => hnew row hadded (h.clean _ _ hmem)]
  have hset := albumsFollow_setMessagesAlbum hexact hfollow (fun albumId k hk => ?_) fun message hmem =>
    List.mem_map_of_mem ((mem_insertMessages hends).mpr (Or.inr hmem))
  · have hsame := setMessagesAlbum_same (m.insertMessages newMessages) newMessages
    refine ⟨hsame.indexExact hexact, hset.1.congr fun k hk => ?_, hset.2⟩
    rw [hsame.ids_eq, mem_ids_insertMessages hends] at hk
    exact iff_of_true trivial hk
  · rw [hlist] at hk
    exact (mem_ids_insertMessages hends newMessages k).mpr (Or.inl (h.clean albumId k hk))

variable [LawfulVirtuals Own]

theorem entry_processMessageData (m : MessagesModel Own) (data : QVariantMap) (messageId : Int) :
    (Virtuals.processMessageData m (MessageData.create data messageId)).entry = (false, []) := by
  obtain ⟨unread, heq⟩ := LawfulVirtuals.processMessageData_eq m (MessageData.create data messageId)
  rw [heq]
  rfl

theorem AlbumsKept.handleInsertMessages (h : m.AlbumsKept) (hends : m.InsertsAtEnds) {messages : List QVariantMap}
    (hd : (messages.map messageIdOf).Nodup) : (m.handleInsertMessages messages).1.AlbumsKept := by
  change (if (m.addedMessages messages).isEmpty then m
    else (m.insertMessages (m.addedMessages messages)).setMessagesAlbum (m.addedMessages messages)).AlbumsKept
  split_ifs
  · exact h
  · refine h.addMessages hends (nodup_ids_addedMessages h.indexExact hd) fun row hrow => ?_
    obtain ⟨messageData, -, hfresh⟩ := List.mem_filterMap.mp ((sortMessages_perm _ _).mem_iff.mp hrow)
    dsimp only at hfresh
    split_ifs at hfresh
    obtain rfl := Option.some.inj hfresh
    exact entry_processMessageData m messageData _

theorem AlbumsKept.handleNewMessageReceived (h : m.AlbumsKept) (hends : m.InsertsAtEnds) [ReadableVirtuals Own]
    (message : QVariantMap) : (ReadableMessagesModel.handleNewMessageReceived m message).AlbumsKept := by
  rw [ReadableMessagesModel.handleNewMessageReceived]
  dsimp only
  split_ifs with hcontains
  · exact h
  · refine h.addMessages hends ?_ fun row hrow => ?_
    · rw [Bool.not_eq_true, not_mem_ids_iff h.indexExact] at hcontains
      rw [List.map_singleton, processMessageData_messageId]
      exact h.indexExact.nodup.append (List.nodup_singleton _) (List.disjoint_singleton.mpr hcontains)
    · obtain rfl := List.mem_singleton.mp hrow
      exact entry_processMessageData m message _
  · exact h

omit [Virtuals Own] [LawfulVirtuals Own]

/-! ### What a view sees of the albums -/

/-- The ids of the loaded messages of an album, in ascending order. -/
def albumIdsOf (m : MessagesModel Own) (albumId : Int) : List Int :=
  ((m.messages.filter fun row => row.mediaAlbumId == albumId).map MessageData.messageId).insertionSort (· ≤ ·)

/-- The first message of each album shows the whole album and the others are filtered out, messages without an album
show nothing of one, and `albumMessageMap` lists the loaded messages of each album. -/
structure AlbumsGrouped (m : MessagesModel Own) : Prop where
  distinct : m.ids.Nodup
  main : ∀ albumId, albumId ≠ 0 → (∃ row ∈ m.messages, row.mediaAlbumId = albumId) →
    ∃ main ∈ m.messages, main.mediaAlbumId = albumId ∧ main.albumEntryFilter = false ∧
      main.albumMessageIds = m.albumIdsOf albumId ∧
      ∀ row ∈ m.messages, row.mediaAlbumId = albumId → row.messageId ≠ main.messageId →
        main.messageId < row.messageId ∧ row.albumEntryFilter = true ∧ row.albumMessageIds = []
  single : ∀ row ∈ m.messages, row.mediaAlbumId = 0 → row.albumEntryFilter = false ∧ row.albumMessageIds = []
  listed : ∀ albumId, albumId ≠ 0 → (m.albumMessageMap.value albumId).getD [] = m.albumIdsOf albumId

theorem mem_albumIdsOf {albumId k : Int} :
    k ∈ m.albumIdsOf albumId ↔ ∃ row ∈ m.messages, row.mediaAlbumId = albumId ∧ row.messageId = k := by
  rw [albumIdsOf, (List.perm_insertionSort _ _).mem_iff]
  simp [and_assoc]

theorem AlbumsKept.listOf_eq (h : m.AlbumsKept) {albumId : Int} (ha : albumId ≠ 0) :
    m.listOf albumId = m.albumIdsOf albumId := by
  have hd : ((m.messages.filter fun row => row.mediaAlbumId == albumId).map MessageData.messageId).Nodup :=
    h.indexExact.nodup.sublist (List.filter_sublist.map _)
  have hsorted : (m.albumIdsOf albumId).Pairwise (· < ·) := strictSorted_insertionSort hd
  have hperm : (m.listOf albumId).Perm (m.albumIdsOf albumId) := by
    refine (List.perm_ext_iff_of_nodup (h.follow.nodup albumId) (hsorted.imp fun hlt => hlt.ne)).mpr fun k => ?_
    rw [mem_albumIdsOf]
    constructor
    · intro hk
      obtain ⟨row, hrow, rfl⟩ := List.mem_map.mp (h.clean albumId k hk)
      exact ⟨row, hrow, ((h.follow.mem row hrow albumId ha).mp hk).2, rfl⟩
    · rintro ⟨row, hrow, halbum, rfl⟩
      exact (h.follow.mem row hrow albumId ha).mpr ⟨trivial, halbum⟩
  exact hperm.eq_of_pairwise (fun a b _ _ hab hba => absurd hba hab.asymm) (h.follow.sorted albumId) hsorted

theorem AlbumsKept.grouped (h : m.AlbumsKept) : m.AlbumsGrouped := by
  have hentry : ∀ row ∈ m.messages, row.mediaAlbumId ≠ 0 →
      row.entry = entryOf (m.albumIdsOf row.mediaAlbumId) row.messageId := fun row hrow ha => by
    rw [h.follow.entries row hrow, h.listOf_eq ha]
  refine ⟨h.indexExact.nodup, fun albumId ha hloaded => ?_, fun row hrow hzero => ?_, fun albumId ha => ?_⟩
  · obtain ⟨row, hrow, halbum⟩ := hloaded
    cases hids : m.albumIdsOf albumId with
    | nil =>
        have hmem : row.messageId ∈ m.albumIdsOf albumId := mem_albumIdsOf.mpr ⟨row, hrow, halbum, rfl⟩
        rw [hids] at hmem
        exact absurd hmem List.not_mem_nil
    | cons first rest =>
        obtain ⟨main, hmain, hmainalbum, hfirst⟩ := mem_albumIdsOf.mp (hids ▸ List.mem_cons_self)
        have hsorted := h.follow.sorted albumId
        rw [h.listOf_eq ha, hids, List.pairwise_cons] at hsorted
        have hmainentry := hentry main hmain (hmainalbum ▸ ha)
        rw [hmainalbum, hids, entryOf, hfirst, if_pos List.head?_cons] at hmainentry
        refine ⟨main, hmain, hmainalbum, congrArg Prod.fst hmainentry, congrArg Prod.snd hmainentry,
          fun other hother hotheralbum hne => ?_⟩
        have hmem : other.messageId ∈ first :: rest := hids ▸ mem_albumIdsOf.mpr ⟨other, hother, hotheralbum, rfl⟩
        have hnotfirst : first ≠ other.messageId := fun heq => hne (heq.symm.trans hfirst.symm)
        have hotherentry := hentry other hother (hotheralbum ▸ ha)
        rw [hotheralbum, hids, entryOf, List.head?_cons, if_neg fun heq => hnotfirst (Option.some.inj heq),
          if_pos hmem] at hotherentry
        refine ⟨?_, congrArg Prod.fst hotherentry, congrArg Prod.snd hotherentry⟩
        rw [hfirst]
        exact hsorted.1 _ ((List.mem_cons.mp hmem).resolve_left fun heq => hnotfirst heq.symm)
  · have hrowentry := h.follow.entries row hrow
    rw [hzero, listOf, if_pos rfl, entryOf_of_not_mem List.not_mem_nil] at hrowentry
    exact ⟨congrArg Prod.fst hrowentry, congrArg Prod.snd hrowentry⟩
  · rw [← h.listOf_eq ha, listOf, if_neg ha]

end MessagesModel

end YaqtLib
