import YaqtLib.JumpableMessagesModel

/-! What each operation on the rows does to the rows and to the index map. The index map stays the exact
inverse of the rows through appending, prepending, inserting, replacing a sent message and deleting; a
property of the rows that the flags do not touch passes through every load and every answer (`Stable`). -/

namespace YaqtLib

open Containers IndexMap

namespace MessagesModel

variable {Own : Type}

/-- The index map is the exact inverse of the rows. -/
def IndexExact (m : MessagesModel Own) : Prop := Indexes MessageData.key m.messages m.messageIndexMap

/-- The ids of the rows, in their order. -/
def ids (m : MessagesModel Own) : List Int := m.messages.map MessageData.messageId

/-- `m'` is `m`, but for the albums. -/
def SameButAlbums (m m' : MessagesModel Own) : Prop :=
  ∃ messages albumMessageMap, messages.map MessageData.body = m.messages.map MessageData.body ∧
    m' = { m with messages := messages, albumMessageMap := albumMessageMap }

/-- `m'` has the members of `m`, but for the rows and their maps. -/
structure SameMembers (m m' : MessagesModel Own) : Prop where
  chatId : m'.chatId = m.chatId
  waitingFor : m'.waitingFor = m.waitingFor
  startReached : m'.startReached = m.startReached
  endReached : m'.endReached = m.endReached
  highlightedMessageId : m'.highlightedMessageId = m.highlightedMessageId
  own : m'.own = m.own

namespace SameMembers

theorem refl (m : MessagesModel Own) : SameMembers m m := ⟨rfl, rfl, rfl, rfl, rfl, rfl⟩

theorem trans {m m' m'' : MessagesModel Own} (h : SameMembers m m') (h' : SameMembers m' m'') :
    SameMembers m m'' :=
  ⟨h'.chatId.trans h.chatId, h'.waitingFor.trans h.waitingFor, h'.startReached.trans h.startReached,
    h'.endReached.trans h.endReached, h'.highlightedMessageId.trans h.highlightedMessageId,
    h'.own.trans h.own⟩

theorem rows (m : MessagesModel Own) (messages : List MessageData) (messageIndexMap : QHash Int Nat) :
    SameMembers m { m with messages := messages, messageIndexMap := messageIndexMap } :=
  ⟨rfl, rfl, rfl, rfl, rfl, rfl⟩

end SameMembers

namespace SameButAlbums

theorem sameMembers {m m' : MessagesModel Own} (h : SameButAlbums m m') : SameMembers m m' := by
  obtain ⟨_, _, _, rfl⟩ := h
  exact ⟨rfl, rfl, rfl, rfl, rfl, rfl⟩

theorem refl (m : MessagesModel Own) : SameButAlbums m m := ⟨m.messages, m.albumMessageMap, rfl, rfl⟩

theorem trans {m m' m'' : MessagesModel Own} (h : SameButAlbums m m') (h' : SameButAlbums m' m'') :
    SameButAlbums m m'' := by
  obtain ⟨messages, albums, hbody, rfl⟩ := h
  obtain ⟨messages', albums', hbody', rfl⟩ := h'
  exact ⟨messages', albums', hbody'.trans hbody, rfl⟩

theorem albums (m : MessagesModel Own) (albumMessageMap : QHash Int (List Int)) :
    SameButAlbums m { m with albumMessageMap := albumMessageMap } := ⟨m.messages, albumMessageMap, rfl, rfl⟩

/-- What is read off the bodies of the rows is the same. -/
theorem map_eq {β : Type} {m m' : MessagesModel Own} (h : SameButAlbums m m') (f : MessageData → β)
    (hf : ∀ message, f message.body = f message) : m'.messages.map f = m.messages.map f := by
  obtain ⟨messages, albums, hbody, rfl⟩ := h
  have hcomp : f = f ∘ MessageData.body := funext fun message => (hf message).symm
  rw [hcomp, ← List.map_map, ← List.map_map]
  exact congrArg (List.map f) hbody

theorem ids_eq {m m' : MessagesModel Own} (h : SameButAlbums m m') : m'.ids = m.ids :=
  h.map_eq _ MessageData.body_messageId

theorem length_eq {m m' : MessagesModel Own} (h : SameButAlbums m m') :
    m'.messages.length = m.messages.length := by
  simpa [ids] using congrArg List.length h.ids_eq

theorem messageIndexMap_eq {m m' : MessagesModel Own} (h : SameButAlbums m m') :
    m'.messageIndexMap = m.messageIndexMap := by
  obtain ⟨_, _, _, rfl⟩ := h
  rfl

theorem indexExact {m m' : MessagesModel Own} (h : SameButAlbums m m') (hm : m.IndexExact) :
    m'.IndexExact := by
  unfold IndexExact
  rw [h.messageIndexMap_eq]
  exact (indexes_congr (h.map_eq MessageData.key fun _ => rfl)).mpr hm

end SameButAlbums

theorem setAlbumEntry_same (m : MessagesModel Own) (position : Nat) (isMain : Bool) (albumIds : List Int) :
    SameButAlbums m (m.setAlbumEntry position isMain albumIds) := by
  refine ⟨_, m.albumMessageMap, ?_, rfl⟩
  apply List.ext_getElem?
  intro i
  simp only [List.getElem?_map, List.getElem?_modify]
  cases m.messages[i]? with
  | none => rfl
  | some message => by_cases hi : position = i <;> simp [hi, MessageData.body]

theorem updateAlbumEntries_same (albumIds : List Int) (m : MessagesModel Own) (rest : List Int)
    (isMain : Bool) : SameButAlbums m (updateAlbumEntries albumIds m rest isMain) := by
  induction rest generalizing m isMain with
  | nil => exact .refl m
  | cons id rest ih =>
      rw [updateAlbumEntries]
      cases m.messageIndexMap.value id with
      | none => exact ih m false
      | some position => exact (setAlbumEntry_same m position isMain albumIds).trans (ih _ false)

theorem updateAlbumMessages_same (m : MessagesModel Own) (albumId : Int) (checkDeleted : Bool) :
    SameButAlbums m (m.updateAlbumMessages albumId checkDeleted) := by
  rw [updateAlbumMessages]
  cases m.albumMessageMap.value albumId with
  | none => exact .refl m
  | some albumIds =>
      dsimp only
      refine SameButAlbums.trans ?_ (.albums _ _)
      split_ifs
      · exact .albums m _
      · exact updateAlbumEntries_same _ m _ true
      · exact .albums m _
      · exact updateAlbumEntries_same _ m _ true

theorem foldl_updateAlbumMessages_same (m : MessagesModel Own) (albumIds : List Int) (checkDeleted : Bool) :
    SameButAlbums m (albumIds.foldl (fun m albumId => m.updateAlbumMessages albumId checkDeleted) m) := by
  induction albumIds generalizing m with
  | nil => exact .refl m
  | cons albumId albumIds ih => exact (updateAlbumMessages_same m albumId checkDeleted).trans (ih _)

theorem setMessageAlbum_same (m : MessagesModel Own) (message : MessageData) :
    SameButAlbums m (m.setMessageAlbum message) := by
  rw [setMessageAlbum]
  dsimp only
  split_ifs
  · exact .refl m
  · exact (SameButAlbums.albums m _).trans (updateAlbumMessages_same _ _ false)

theorem setMessagesAlbum_same (m : MessagesModel Own) (newMessages : List MessageData) :
    SameButAlbums m (m.setMessagesAlbum newMessages) := by
  unfold setMessagesAlbum
  induction newMessages generalizing m with
  | nil => exact .refl m
  | cons message newMessages ih => exact (setMessageAlbum_same m message).trans (ih _)

/-! ### Adding rows -/

theorem not_mem_ids_iff {m : MessagesModel Own} (hm : m.IndexExact) (k : Int) :
    m.messageIndexMap.contains k = false ↔ k ∉ m.ids := by
  rw [QHash.contains_eq_false_iff, hm.value_eq_none_iff, ids, List.mem_map]
  simp only [ne_eq, MessageData.key_eq_some, not_exists, not_and]

theorem contains_iff_mem_ids {m : MessagesModel Own} (hm : m.IndexExact) (k : Int) :
    m.messageIndexMap.contains k = true ↔ k ∈ m.ids := by
  rw [← Bool.not_eq_false, not_mem_ids_iff hm, not_not]

theorem keysDistinct_iff (rows : List MessageData) :
    KeysDistinct MessageData.key rows ↔ (rows.map MessageData.messageId).Nodup := by
  rw [keysDistinct_iff_nodup, ← List.filterMap_eq_map]
  rfl

theorem IndexExact.nodup {m : MessagesModel Own} (hm : m.IndexExact) : m.ids.Nodup :=
  (keysDistinct_iff _).mp hm.keysDistinct

/-- Every row is found under its id, no two rows share an id, and every key is the id of a row. -/
def RowsIndexed (m : MessagesModel Own) : Prop :=
  (∀ (i : Nat) (h : i < m.messages.length), m.messageIndexMap.value (m.messages[i]).messageId = some i) ∧
  m.ids.Nodup ∧
  ∀ k i, m.messageIndexMap.value k = some i → k ∈ m.ids

theorem IndexExact.rowsIndexed {m : MessagesModel Own} (hm : m.IndexExact) : m.RowsIndexed := by
  refine ⟨fun i hi => ?_, hm.nodup, fun k i hk => ?_⟩
  · exact Indexes.value_of_getElem hm (List.getElem?_eq_getElem hi) rfl
  · exact (contains_iff_mem_ids hm k).mp ((QHash.contains_iff _ _).mpr ⟨i, hk⟩)

theorem indexExact_appendMessages {m : MessagesModel Own} (hm : m.IndexExact) {newMessages : List MessageData}
    (hd : (m.ids ++ newMessages.map MessageData.messageId).Nodup) :
    (m.appendMessages newMessages).IndexExact :=
  Indexes.append hm ((keysDistinct_iff _).mpr (by rwa [List.map_append]))

theorem indexExact_prependMessages {m : MessagesModel Own} (hm : m.IndexExact)
    {newMessages : List MessageData} (hd : (m.ids ++ newMessages.map MessageData.messageId).Nodup) :
    (m.prependMessages newMessages).IndexExact := by
  have hd' : KeysDistinct MessageData.key ([] ++ (newMessages ++ m.messages)) := by
    rw [List.nil_append, keysDistinct_iff, List.map_append]
    exact (List.perm_append_comm.nodup_iff).mp hd
  have hmap : ∀ k, (∀ r ∈ newMessages ++ m.messages, MessageData.key r ≠ some k) →
      m.messageIndexMap.value k =
        if (∃ r ∈ m.messages, MessageData.key r = some k) then none else m.messageIndexMap.value k := by
    intro k hk
    rw [if_neg]
    rintro ⟨r, hr, hrk⟩
    exact hk r (List.mem_append_right _ hr) hrk
  have hm' : Indexes MessageData.key ([] ++ m.messages) m.messageIndexMap := hm
  have := Indexes.rebuild m.messageIndexMap hm' hd' hmap
  rw [reindex_append] at this
  simpa [IndexExact, prependMessages] using this

theorem insertLoop_sameMembers (m : MessagesModel Own) (i : Int) (newMessages : List MessageData) :
    SameMembers m (insertLoop m i newMessages) := by
  induction newMessages generalizing m i with
  | nil => exact .refl m
  | cons message rest ih => exact (SameMembers.rows m _ _).trans (ih _ _)

theorem insertMessagesAt_sameMembers (m : MessagesModel Own) (insertIndex : Int) (newMessages : List MessageData) :
    SameMembers m (m.insertMessagesAt insertIndex newMessages) :=
  (insertLoop_sameMembers m insertIndex newMessages).trans (.rows _ _ _)

theorem removeMessage_sameMembers (m : MessagesModel Own) (messageId : Int) :
    SameMembers m (m.removeMessage messageId) := by
  rw [removeMessage]
  cases m.messageIndexMap.value messageId with
  | none => exact .refl m
  | some index => exact .rows m _ _

theorem handleMessageFieldUpdated_sameMembers (m : MessagesModel Own) (chatId messageId : Int)
    (updater : MessageData → MessageData) :
    SameMembers m (m.handleMessageFieldUpdated chatId messageId updater).1 := by
  rw [handleMessageFieldUpdated]
  split_ifs
  · cases m.messageIndexMap.value messageId with
    | none => exact .refl m
    | some pos => exact .rows m _ m.messageIndexMap
  · exact .refl m

theorem insertLoop_eq (m : MessagesModel Own) (pre post newMessages : List MessageData)
    (hm : m.messages = pre ++ post) :
    insertLoop m pre.length newMessages =
      { m with
        messages := pre ++ newMessages ++ post
        messageIndexMap := reindex MessageData.key newMessages pre.length m.messageIndexMap } := by
  induction newMessages generalizing m pre with
  | nil => simp [insertLoop, ← hm]
  | cons message rest ih =>
      have hinsert : insertAt m.messages pre.length message = pre ++ [message] ++ post := by
        rw [insertAt_of_le m.messages (by rw [hm, List.length_append]; omega), hm, insertIdx_append_length,
          List.append_assoc, List.singleton_append]
      have hlen : ((pre.length : Int) + 1) = ((pre ++ [message]).length : Nat) := by simp
      rw [insertLoop, hlen, ih _ (pre ++ [message]) hinsert]
      simp [reindex, MessageData.key]

theorem insertMessagesAt_eq (m : MessagesModel Own) (pre post newMessages : List MessageData)
    (hm : m.messages = pre ++ post) :
    m.insertMessagesAt pre.length newMessages =
      { m with
        messages := pre ++ newMessages ++ post
        messageIndexMap := reindex MessageData.key (newMessages ++ post) pre.length m.messageIndexMap } := by
  have hlen : ((pre.length : Int) + newMessages.length).toNat = (pre ++ newMessages).length := by
    rw [List.length_append]; omega
  rw [insertMessagesAt, insertLoop_eq m pre post newMessages hm]
  dsimp only
  rw [hlen, List.drop_left, reindex_append, List.length_append]

theorem indexExact_insertMessagesAt {m : MessagesModel Own} (hm : m.IndexExact) {i : Nat}
    (hi : i ≤ m.messages.length) {newMessages : List MessageData}
    (hd : (m.ids ++ newMessages.map MessageData.messageId).Nodup) :
    (m.insertMessagesAt i newMessages).IndexExact := by
  obtain ⟨pre, post, hrows, rfl⟩ := exists_split_of_le hi
  rw [insertMessagesAt_eq m pre post newMessages hrows]
  have hperm : (m.messages ++ newMessages).Perm (pre ++ (newMessages ++ post)) := by
    rw [hrows, List.append_assoc]
    exact List.Perm.append_left _ List.perm_append_comm
  have hd' : KeysDistinct MessageData.key (pre ++ (newMessages ++ post)) := by
    refine KeysDistinct.perm ((keysDistinct_iff _).mpr ?_) hperm
    rwa [List.map_append]
  have hm' : Indexes MessageData.key (pre ++ post) m.messageIndexMap := by
    rw [← hrows]
    exact hm
  have := Indexes.rebuild m.messageIndexMap hm' hd' fun k hk => by
    rw [if_neg]
    rintro ⟨r, hr, hrk⟩
    exact hk r (List.mem_append_right _ hr) hrk
  simpa [IndexExact] using this

/-! ### Removing rows -/

theorem removeRange_same (m : MessagesModel Own) {first last : Nat} (h : first ≤ last) :
    SameButAlbums
      { m with
        messages := eraseRange m.messages first last
        messageIndexMap := reindex MessageData.key ((eraseRange m.messages first last).drop first) first
          (m.messageIndexMap.removeAll
            (((m.messages.drop first).take (last + 1 - first)).map MessageData.messageId)) }
      (m.removeRange first last) := by
  rw [removeRange, if_pos h]
  exact foldl_updateAlbumMessages_same _ _ true

theorem indexExact_removeRange {m : MessagesModel Own} (hm : m.IndexExact) {first last : Nat}
    (hlast : last < m.messages.length) : (m.removeRange first last).IndexExact := by
  rcases Nat.lt_or_ge last first with hlt | h
  · rwa [removeRange, if_neg (Nat.not_le.mpr hlt)]
  refine (removeRange_same m h).indexExact ?_
  have hlen : (m.messages.take first).length = first := List.length_take_of_le (by omega)
  have hsplit := eq_append_range m.messages h
  have hdrop : (eraseRange m.messages first last).drop first = m.messages.drop (last + 1) := by
    rw [eraseRange, List.drop_append_of_le_length (Nat.le_of_eq hlen.symm), List.drop_eq_nil_of_le
      (Nat.le_of_eq hlen), List.nil_append]
  have hd : KeysDistinct MessageData.key (m.messages.take first ++ m.messages.drop (last + 1)) :=
    hm.keysDistinct.sublist (eraseRange_sublist m.messages h)
  have hm' : Indexes MessageData.key (m.messages.take first ++
      ((m.messages.drop first).take (last + 1 - first) ++ m.messages.drop (last + 1)))
      m.messageIndexMap := by
    rw [← hsplit]
    exact hm
  have := Indexes.rebuild
    (m.messageIndexMap.removeAll
      (((m.messages.drop first).take (last + 1 - first)).map MessageData.messageId)) hm' hd fun k hk => by
    rw [QHash.value_removeAll]
    refine if_congr ?_ rfl rfl
    simp only [List.mem_map, List.mem_append]
    constructor
    · rintro ⟨r, hr, hrk⟩
      exact ⟨r, Or.inl hr, MessageData.key_eq_some.mpr hrk⟩
    · rintro ⟨r, hr | hr, hrk⟩
      · exact ⟨r, hr, MessageData.key_eq_some.mp hrk⟩
      · exact absurd hrk (hk r hr)
  rw [hlen] at this
  unfold IndexExact
  dsimp only
  rw [hdrop]
  exact this

theorem removeRange_sameMembers (m : MessagesModel Own) (first last : Nat) :
    SameMembers m (m.removeRange first last) := by
  rcases Nat.lt_or_ge last first with hlt | h
  · rw [removeRange, if_neg (Nat.not_le.mpr hlt)]
    exact .refl m
  · exact (SameMembers.rows m _ _).trans (removeRange_same m h).sameMembers

/-- What a deletion does: the rows that stay keep their order and their bodies, and nothing else changes. -/
structure Deletes (m m' : MessagesModel Own) : Prop where
  sublist : (m'.messages.map MessageData.body).Sublist (m.messages.map MessageData.body)
  sameMembers : SameMembers m m'

theorem Deletes.refl (m : MessagesModel Own) : Deletes m m := ⟨List.Sublist.refl _, .refl m⟩

theorem Deletes.trans {m m' m'' : MessagesModel Own} (h : Deletes m m') (h' : Deletes m' m'') :
    Deletes m m'' :=
  ⟨h'.sublist.trans h.sublist, h.sameMembers.trans h'.sameMembers⟩

theorem Deletes.map_sublist {β : Type} {m m' : MessagesModel Own} (h : Deletes m m') (f : MessageData → β)
    (hf : ∀ message, f message.body = f message) : (m'.messages.map f).Sublist (m.messages.map f) := by
  have hcomp : f = f ∘ MessageData.body := funext fun message => (hf message).symm
  rw [hcomp, ← List.map_map, ← List.map_map]
  exact h.sublist.map f

theorem removeRange_deletes (m : MessagesModel Own) (first last : Nat) : Deletes m (m.removeRange first last) := by
  refine ⟨?_, removeRange_sameMembers m first last⟩
  rcases Nat.lt_or_ge last first with hlt | h
  · rw [removeRange, if_neg (Nat.not_le.mpr hlt)]
  · rw [(removeRange_same m h).map_eq _ fun _ => rfl]
    exact (eraseRange_sublist _ h).map _

theorem deleteLoop_deletes (count : Nat) (m : MessagesModel Own) (messageIds : List Int) (first last : Nat) :
    Deletes m (deleteLoop count m messageIds first last).1 := by
  induction messageIds generalizing m first last with
  | nil => exact .refl m
  | cons id rest ih =>
      rw [deleteLoop]
      cases m.messageIndexMap.value id with
      | none => exact ih m first last
      | some position =>
          dsimp only
          generalize (if last = count then position else last) = last'
          generalize (if first = count then position else first) = first'
          split_ifs
          · exact (removeRange_deletes m first' last').trans (ih _ position position)
          · exact ih m position last'

theorem deleteMessages_deletes (m : MessagesModel Own) (messageIds : List Int) :
    Deletes m (m.deleteMessages messageIds) := by
  have hloop := deleteLoop_deletes messageIds.length m messageIds messageIds.length messageIds.length
  rw [deleteMessages]
  dsimp only
  split
  · exact hloop.trans (removeRange_deletes _ _ _)
  · exact hloop

theorem handleMessagesDeleted_deletes (m : MessagesModel Own) (chatId : Int) (messageIds : List Int) :
    Deletes m (m.handleMessagesDeleted chatId messageIds) := by
  rw [handleMessagesDeleted]
  split_ifs
  · exact deleteMessages_deletes m _
  · exact .refl m

/-- The upper end of the range that is being deleted, once a row has been found. -/
theorem ite_lt_of_bound {count last position length : Nat} (hlast : last = count ∨ last < length)
    (hposition : position < length) : (if last = count then position else last) < length := by
  split_ifs with h
  · exact hposition
  · exact hlast.resolve_left h

/-- The rows below a removed range stay in place. -/
theorem lt_length_removeRange {m : MessagesModel Own} {first last i : Nat} (hi : i < first)
    (hlen : i < m.messages.length) : i < (m.removeRange first last).messages.length := by
  rcases Nat.lt_or_ge last first with hlt | h
  · rwa [removeRange, if_neg (Nat.not_le.mpr hlt)]
  · rw [(removeRange_same m h).length_eq]
    simp only [eraseRange, List.length_append, List.length_take]
    omega

/-- **The loop over deleted ids.** What the removal of a range within the rows keeps, and what has its indices there,
the loop keeps; the end of the range it collects lies within the rows, or is not set yet. -/
theorem deleteLoop_invariant {P : MessagesModel Own → Prop}
    (hindex : ∀ {m id position}, P m → m.messageIndexMap.value id = some position → position < m.messages.length)
    (hremove : ∀ {m} first {last}, P m → last < m.messages.length → P (m.removeRange first last))
    (count : Nat) {m : MessagesModel Own} (hm : P m) (messageIds : List Int) {first last : Nat}
    (hlast : last = count ∨ last < m.messages.length) :
    P (deleteLoop count m messageIds first last).1 ∧
      ((deleteLoop count m messageIds first last).2.2 = count ∨
        (deleteLoop count m messageIds first last).2.2 <
          (deleteLoop count m messageIds first last).1.messages.length) := by
  induction messageIds generalizing m first last with
  | nil => exact ⟨hm, hlast⟩
  | cons id rest ih =>
      rw [deleteLoop]
      cases hid : m.messageIndexMap.value id with
      | none => exact ih hm hlast
      | some position =>
          have hposition : position < m.messages.length := hindex hm hid
          have hlast' := ite_lt_of_bound hlast hposition
          dsimp only
          generalize (if last = count then position else last) = last' at hlast' ⊢
          generalize (if first = count then position else first) = first'
          split_ifs with hgap
          · exact ih (hremove first' hm hlast') (Or.inr (lt_length_removeRange (by omega) hposition))
          · exact ih hm (Or.inr hlast')

theorem deleteMessages_invariant {P : MessagesModel Own → Prop}
    (hindex : ∀ {m id position}, P m → m.messageIndexMap.value id = some position → position < m.messages.length)
    (hremove : ∀ {m} first {last}, P m → last < m.messages.length → P (m.removeRange first last))
    {m : MessagesModel Own} (hm : P m) (messageIds : List Int) : P (m.deleteMessages messageIds) := by
  have hloop := @deleteLoop_invariant _ P hindex hremove messageIds.length m hm messageIds messageIds.length _
    (Or.inl rfl)
  rw [deleteMessages]
  dsimp only
  split_ifs with h
  · exact hremove _ hloop.1 (hloop.2.resolve_left h.2)
  · exact hloop.1

theorem indexExact_deleteMessages {m : MessagesModel Own} (hm : m.IndexExact) (messageIds : List Int) :
    (m.deleteMessages messageIds).IndexExact :=
  deleteMessages_invariant (fun h => Indexes.lt_length h) (fun _ _ h => indexExact_removeRange h) hm messageIds

theorem indexExact_handleMessagesDeleted {m : MessagesModel Own} (hm : m.IndexExact) (chatId : Int)
    (messageIds : List Int) : (m.handleMessagesDeleted chatId messageIds).IndexExact := by
  rw [handleMessagesDeleted]
  split_ifs
  · exact indexExact_deleteMessages hm _
  · exact hm

theorem indexExact_clear {m : MessagesModel Own} (hm : m.IndexExact) : m.clear.IndexExact := by
  rw [clear]
  split_ifs
  · exact hm
  · exact Indexes.empty

theorem messages_clear (m : MessagesModel Own) : m.clear.messages = [] := by
  rw [clear]
  split_ifs with h
  · exact List.isEmpty_iff.mp h
  · rfl

/-- The row of a message, with the rows before and behind it. -/
theorem IndexExact.exists_split {m : MessagesModel Own} (hm : m.IndexExact) {messageId : Int} {position : Nat}
    (hvalue : m.messageIndexMap.value messageId = some position) :
    ∃ pre row post, m.messages = pre ++ row :: post ∧ pre.length = position ∧ m.messages[position]? = some row ∧
      row.messageId = messageId := by
  obtain ⟨pre, row, post, hrows, hlen, hrow, hkey⟩ := (Indexes.leads hm).exists_split hvalue
  exact ⟨pre, row, post, hrows, hlen, hrow, MessageData.key_eq_some.mp hkey⟩

/-! ### Batches -/

section Virtual

variable [Virtuals Own]

/-- The object at hand inserts rows at its two ends only. -/
def InsertsAtEnds (m : MessagesModel Own) : Prop :=
  ∀ newMessages,
    (Virtuals.appendMessages m newMessages = m.appendMessages newMessages ∧
      Virtuals.prependMessages m newMessages = m.prependMessages newMessages) ∨
    (Virtuals.appendMessages m newMessages = m.prependMessages newMessages ∧
      Virtuals.prependMessages m newMessages = m.appendMessages newMessages)

theorem InsertsAtEnds.append_sameMembers {m : MessagesModel Own} (h : m.InsertsAtEnds)
    (newMessages : List MessageData) : SameMembers m (Virtuals.appendMessages m newMessages) := by
  rcases h newMessages with ⟨heq, -⟩ | ⟨heq, -⟩ <;> rw [heq] <;> exact .rows m _ _

theorem InsertsAtEnds.prepend_sameMembers {m : MessagesModel Own} (h : m.InsertsAtEnds)
    (newMessages : List MessageData) : SameMembers m (Virtuals.prependMessages m newMessages) := by
  rcases h newMessages with ⟨-, heq⟩ | ⟨-, heq⟩ <;> rw [heq] <;> exact .rows m _ _

/-- Processing a new row sets whether its generated content is unread, and nothing else. -/
class LawfulVirtuals (Own : Type) [Virtuals Own] : Prop where
  processMessageData_eq : ∀ (m : MessagesModel Own) (message : MessageData), ∃ unread,
    Virtuals.processMessageData m message = { message with generatedContentUnread := unread }

/-- The rows a batch adds. -/
def addedMessages (m : MessagesModel Own) (messages : List QVariantMap) : List MessageData :=
  sortMessages (Virtuals.reverseOrder m) (m.freshMessages messages)

theorem sortMessages_perm (reverseOrder : Bool) (newMessages : List MessageData) :
    (sortMessages reverseOrder newMessages).Perm newMessages := by
  rw [sortMessages]
  split_ifs <;> exact List.perm_insertionSort _ _

/-- A batch is appended or prepended, or there is nothing in it. -/
theorem insertMessages_of {P : MessagesModel Own → Prop} {m : MessagesModel Own} {newMessages : List MessageData}
    (happend : P (Virtuals.appendMessages m newMessages)) (hprepend : P (Virtuals.prependMessages m newMessages))
    (hnil : newMessages = [] → P m) : P (m.insertMessages newMessages) := by
  unfold insertMessages
  split_ifs
  · exact happend
  · cases newMessages with
    | nil => exact hnil rfl
    | cons first rest =>
        dsimp only
        split_ifs
        · exact happend
        · exact hprepend

theorem insertMessages_of_empty {m : MessagesModel Own} (h : m.messages = []) (newMessages : List MessageData) :
    m.insertMessages newMessages = Virtuals.appendMessages m newMessages := by
  unfold insertMessages
  rw [if_pos (List.isEmpty_iff.mpr h)]

theorem insertMessages_nil {m : MessagesModel Own} (h : m.messages ≠ []) : m.insertMessages [] = m := by
  unfold insertMessages
  rw [if_neg fun hempty => h (List.isEmpty_iff.mp hempty)]

theorem insertMessages_cases {m : MessagesModel Own} (h : m.InsertsAtEnds) (newMessages : List MessageData) :
    m.insertMessages newMessages = m ∨ m.insertMessages newMessages = m.appendMessages newMessages ∨
      m.insertMessages newMessages = m.prependMessages newMessages := by
  rcases h newMessages with ⟨happend, hprepend⟩ | ⟨happend, hprepend⟩
  · exact insertMessages_of (P := fun m' => m' = m ∨ m' = m.appendMessages newMessages ∨
      m' = m.prependMessages newMessages) (Or.inr (Or.inl happend)) (Or.inr (Or.inr hprepend)) fun _ => Or.inl rfl
  · exact insertMessages_of (P := fun m' => m' = m ∨ m' = m.appendMessages newMessages ∨
      m' = m.prependMessages newMessages) (Or.inr (Or.inr happend)) (Or.inr (Or.inl hprepend)) fun _ => Or.inl rfl

theorem insertMessages_sameMembers {m : MessagesModel Own} (h : m.InsertsAtEnds)
    (newMessages : List MessageData) : SameMembers m (m.insertMessages newMessages) :=
  insertMessages_of (h.append_sameMembers newMessages) (h.prepend_sameMembers newMessages) fun _ => .refl m

theorem indexExact_insertMessages {m : MessagesModel Own} (h : m.InsertsAtEnds) (hm : m.IndexExact)
    {newMessages : List MessageData} (hd : (m.ids ++ newMessages.map MessageData.messageId).Nodup) :
    (m.insertMessages newMessages).IndexExact := by
  rcases insertMessages_cases h newMessages with heq | heq | heq <;> rw [heq]
  · exact hm
  · exact indexExact_appendMessages hm hd
  · exact indexExact_prependMessages hm hd

/-- Wherever a batch is inserted, its rows join the others. -/
theorem insertMessages_perm {m : MessagesModel Own} (h : m.InsertsAtEnds) (newMessages : List MessageData) :
    (m.insertMessages newMessages).messages.Perm (m.messages ++ newMessages) := by
  apply insertMessages_of (P := fun m' => m'.messages.Perm (m.messages ++ newMessages))
  · rcases h newMessages with ⟨heq, -⟩ | ⟨heq, -⟩ <;> rw [heq]
    · exact .refl _
    · exact List.perm_append_comm
  · rcases h newMessages with ⟨-, heq⟩ | ⟨-, heq⟩ <;> rw [heq]
    · exact List.perm_append_comm
    · exact .refl _
  · rintro rfl
    rw [List.append_nil]

theorem mem_insertMessages {m : MessagesModel Own} (h : m.InsertsAtEnds) {newMessages : List MessageData}
    {row : MessageData} : row ∈ (m.insertMessages newMessages).messages ↔ row ∈ m.messages ∨ row ∈ newMessages := by
  rw [(insertMessages_perm h newMessages).mem_iff, List.mem_append]

theorem mem_ids_insertMessages {m : MessagesModel Own} (h : m.InsertsAtEnds) (newMessages : List MessageData)
    (k : Int) : k ∈ (m.insertMessages newMessages).ids ↔
      k ∈ m.ids ∨ k ∈ newMessages.map MessageData.messageId := by
  rw [ids, ((insertMessages_perm h newMessages).map _).mem_iff, List.map_append, List.mem_append, ids]

theorem handleInsertMessages_same (m : MessagesModel Own) (messages : List QVariantMap) :
    SameButAlbums (if m.addedMessages messages = [] then m else m.insertMessages (m.addedMessages messages))
      (m.handleInsertMessages messages).1 := by
  have heq : (m.handleInsertMessages messages).1 = if (m.addedMessages messages).isEmpty then m
      else (m.insertMessages (m.addedMessages messages)).setMessagesAlbum (m.addedMessages messages) := rfl
  rw [heq]
  simp only [List.isEmpty_iff]
  split_ifs
  · exact .refl m
  · exact setMessagesAlbum_same _ _

theorem handleInsertMessages_sameMembers {m : MessagesModel Own} (h : m.InsertsAtEnds)
    (messages : List QVariantMap) : SameMembers m (m.handleInsertMessages messages).1 := by
  refine SameMembers.trans ?_ (handleInsertMessages_same m messages).sameMembers
  split_ifs
  · exact .refl m
  · exact insertMessages_sameMembers h _

theorem handleMessageSendSucceeded_sameMembers (m : MessagesModel Own) (chatId oldMessageId messageId : Int)
    (message : QVariantMap) :
    SameMembers m (m.handleMessageSendSucceeded chatId oldMessageId messageId message).1 := by
  rw [handleMessageSendSucceeded]
  split_ifs
  · cases m.messageIndexMap.value oldMessageId with
    | none => exact .refl m
    | some pos =>
        dsimp only
        split_ifs <;> exact .rows m _ _
  · exact .refl m

variable [LawfulVirtuals Own]

theorem processMessageData_messageId (m : MessagesModel Own) (message : MessageData) :
    (Virtuals.processMessageData m message).messageId = message.messageId := by
  obtain ⟨unread, h⟩ := LawfulVirtuals.processMessageData_eq m message
  rw [h]

theorem processMessageData_isSponsored (m : MessagesModel Own) (message : MessageData) :
    (Virtuals.processMessageData m message).isSponsored = message.isSponsored := by
  obtain ⟨unread, h⟩ := LawfulVirtuals.processMessageData_eq m message
  rw [h]

/-- A message of a batch that becomes a row. -/
def Fresh (m : MessagesModel Own) (messageData : QVariantMap) : Prop :=
  messageIdOf messageData ≠ 0 ∧ chatIdOf messageData = m.chatId ∧
    m.messageIndexMap.contains (messageIdOf messageData) = false

instance (m : MessagesModel Own) (messageData : QVariantMap) : Decidable (m.Fresh messageData) :=
  inferInstanceAs (Decidable (_ ∧ _ ∧ _))

theorem ids_freshMessages (m : MessagesModel Own) (messages : List QVariantMap) :
    (m.freshMessages messages).map MessageData.messageId = (messages.filter m.Fresh).map messageIdOf := by
  induction messages with
  | nil => rfl
  | cons messageData messages ih =>
      rw [freshMessages, List.filterMap_cons, ← freshMessages]
      by_cases h : m.Fresh messageData
      · rw [List.filter_cons_of_pos (by simpa using h), List.map_cons, ← ih]
        simp only [Fresh] at h
        simp [h, processMessageData_messageId]
      · rw [List.filter_cons_of_neg (by simpa using h), ← ih]
        simp only [Fresh] at h
        simp [h]

theorem ids_addedMessages_perm (m : MessagesModel Own) (messages : List QVariantMap) :
    ((m.addedMessages messages).map MessageData.messageId).Perm
      ((messages.filter m.Fresh).map messageIdOf) := by
  rw [← ids_freshMessages]
  exact (sortMessages_perm _ _).map _

theorem mem_ids_addedMessages {m : MessagesModel Own} {messages : List QVariantMap} {k : Int} :
    k ∈ (m.addedMessages messages).map MessageData.messageId ↔
      ∃ messageData ∈ messages, m.Fresh messageData ∧ messageIdOf messageData = k := by
  rw [(ids_addedMessages_perm m messages).mem_iff, List.mem_map]
  simp only [List.mem_filter, decide_eq_true_eq, and_assoc]

/-- A batch of distinct messages adds rows with distinct ids that are not loaded yet. -/
theorem mem_ids_handleInsertMessages {m : MessagesModel Own} (h : m.InsertsAtEnds)
    (messages : List QVariantMap) (k : Int) : k ∈ (m.handleInsertMessages messages).1.ids ↔
      k ∈ m.ids ∨ ∃ messageData ∈ messages, m.Fresh messageData ∧ messageIdOf messageData = k := by
  rw [(handleInsertMessages_same m messages).ids_eq, ← mem_ids_addedMessages]
  split_ifs with hnil
  · rw [hnil]
    simp
  · exact mem_ids_insertMessages h _ k

theorem nodup_ids_addedMessages {m : MessagesModel Own} (hm : m.IndexExact) {messages : List QVariantMap}
    (hd : (messages.map messageIdOf).Nodup) :
    (m.ids ++ (m.addedMessages messages).map MessageData.messageId).Nodup := by
  refine List.nodup_append.mpr ⟨hm.nodup, ?_, ?_⟩
  · rw [(ids_addedMessages_perm m messages).nodup_iff]
    exact hd.sublist (List.filter_sublist.map _)
  · rintro k hk k' hk' rfl
    obtain ⟨messageData, -, hfresh, rfl⟩ := mem_ids_addedMessages.mp hk'
    exact (not_mem_ids_iff hm _).mp hfresh.2.2 hk

theorem indexExact_handleInsertMessages {m : MessagesModel Own} (h : m.InsertsAtEnds) (hm : m.IndexExact)
    {messages : List QVariantMap} (hd : (messages.map messageIdOf).Nodup) :
    (m.handleInsertMessages messages).1.IndexExact := by
  refine (handleInsertMessages_same m messages).indexExact ?_
  split_ifs
  · exact hm
  · exact indexExact_insertMessages h hm (nodup_ids_addedMessages hm hd)

/-! ### A sent message -/

/-- The row of a message that has been sent. -/
def sentMessage (m : MessagesModel Own) (messageId : Int) (message : QVariantMap) : MessageData :=
  { Virtuals.processMessageData m (MessageData.create message messageId) with generatedContentUnread := true }

theorem sentMessage_messageId (m : MessagesModel Own) (messageId : Int) (message : QVariantMap) :
    (m.sentMessage messageId message).messageId = messageId :=
  processMessageData_messageId m _

theorem sentMessage_isSponsored (m : MessagesModel Own) (messageId : Int) (message : QVariantMap) :
    (m.sentMessage messageId message).isSponsored = isSponsoredMessage message :=
  processMessageData_isSponsored m _

/-- The confirmed message takes the place of the old row and goes behind all others. -/
theorem handleMessageSendSucceeded_eq (m : MessagesModel Own) {chatId oldMessageId : Int} (messageId : Int)
    (message : QVariantMap) {pre post : List MessageData} {old : MessageData}
    (hchat : m.chatId = chatId) (hrows : m.messages = pre ++ old :: post)
    (hold : m.messageIndexMap.value oldMessageId = some pre.length) :
    (m.handleMessageSendSucceeded chatId oldMessageId messageId message).1 =
      { m with
        messages := pre ++ post ++ [m.sentMessage messageId message]
        messageIndexMap := reindex MessageData.key (post ++ [m.sentMessage messageId message]) pre.length
          ((m.messageIndexMap.remove oldMessageId).insert messageId pre.length) } := by
  have hid := m.sentMessage_messageId messageId message
  rw [handleMessageSendSucceeded, if_pos hchat, hold]
  dsimp only
  rw [← sentMessage]
  generalize m.sentMessage messageId message = newMessage at hid ⊢
  have hset : m.messages.set pre.length newMessage = pre ++ newMessage :: post := by
    rw [hrows, List.set_append_right _ _ (Nat.le_refl _), Nat.sub_self, List.set_cons_zero]
  rw [hset]
  cases post with
  | nil =>
      have hlast : ¬ pre.length < (pre ++ [newMessage]).length - 1 := by simp
      rw [if_neg hlast]
      have hinsert : ((m.messageIndexMap.remove oldMessageId).insert messageId pre.length).insert messageId
          pre.length = (m.messageIndexMap.remove oldMessageId).insert messageId pre.length := by
        funext k
        simp only [QHash.insert]
        split_ifs <;> rfl
      simp [reindex, MessageData.key, hid, hinsert]
  | cons next post =>
      have hlast : pre.length < (pre ++ newMessage :: next :: post).length - 1 := by
        simp only [List.length_append, List.length_cons]; omega
      have hmove : move (pre ++ newMessage :: next :: post) pre.length
          ((pre ++ newMessage :: next :: post).length - 1) = pre ++ (next :: post ++ [newMessage]) := by
        have htarget : (pre ++ newMessage :: next :: post).length - 1 = pre.length + (next :: post).length := by
          simp only [List.length_append, List.length_cons]; omega
        have := move_append pre (next :: post) [] newMessage
        rw [htarget]
        rwa [List.append_nil, List.append_assoc] at this
      rw [if_pos hlast, hmove]
      congr 1
      · rw [List.append_assoc]
      · congr 1
        rw [List.drop_left]
        apply List.take_of_length_le
        simp only [List.length_append, List.length_cons, List.length_nil]
        omega

end Virtual

end MessagesModel

/-- After a batch the model waits for more of it, or the object at hand is told that it is loaded. -/
theorem JumpableMessagesModel.afterInsertion_of {Own : Type} [Virtuals Own] {P : MessagesModel Own → Prop}
    {m : MessagesModel Own} {fromUpdate : UpdateType} {totalCount : Int}
    (hreload : P (m.setWaitingFor .updateReload true))
    (hnotify : P (JumpableMessagesModel.notifyMessagesLoaded m fromUpdate totalCount).1)
    (addedMessages : List MessageData) (reloadNeeded : Bool) :
    P (JumpableMessagesModel.afterInsertion m addedMessages reloadNeeded fromUpdate totalCount).1 := by
  unfold JumpableMessagesModel.afterInsertion
  cases addedMessages with
  | nil => exact hnotify
  | cons first rest =>
      dsimp only
      split_ifs
      · exact hreload
      · exact hnotify

/-- A fetched message goes to one of the ends or between the rows, or it is left out. -/
theorem JumpableMessagesModel.insertMessageInOrder_of {Own : Type} [Virtuals Own] {P : MessagesModel Own → Prop}
    {m : MessagesModel Own} {messageId : Int} {message : QVariantMap} (hm : P m)
    (happend : P (Virtuals.appendMessages m [MessageData.create message messageId]))
    (hprepend : P (Virtuals.prependMessages m [MessageData.create message messageId]))
    (hbetween : ∀ i, P (m.insertMessagesAt i [MessageData.create message messageId])) (inverted : Bool) :
    P (JumpableMessagesModel.insertMessageInOrder m messageId message inverted) := by
  rw [JumpableMessagesModel.insertMessageInOrder]
  split
  · split_ifs
    · exact happend
    · exact hm
    · exact hprepend
    · exact hm
    · split
      · exact hbetween _
      · exact hm
    · split
      · exact hbetween _
      · exact hm
  · split_ifs
    · exact happend
    · exact hm

/-! ### Properties the flags do not touch -/

/-- A property that depends neither on the flags nor on what an answer does besides inserting rows, and
that a cleared model has. -/
structure Stable {Own : Type} [Virtuals Own] (Q : MessagesModel Own → Prop) : Prop where
  members : ∀ {m : MessagesModel Own} waitingFor startReached endReached highlightedMessageId, Q m →
    Q { m with
      waitingFor := waitingFor, startReached := startReached, endReached := endReached
      highlightedMessageId := highlightedMessageId }
  clear : ∀ {m : MessagesModel Own}, Q m → Q (JumpableMessagesModel.clear m).1
  prepare : ∀ {m : MessagesModel Own} totalCount fromUpdate, Q m →
    Q (Virtuals.handlePrepareMessagesReceived m totalCount fromUpdate).1

namespace Stable

variable {Own : Type} [Virtuals Own] {Q : MessagesModel Own → Prop} {m : MessagesModel Own}

theorem setWaitingFor (h : Stable Q) (hm : Q m) (t : UpdateType) (b : Bool) : Q (m.setWaitingFor t b) :=
  h.members _ _ _ _ hm

theorem loadMoreHistory (h : Stable Q) (hm : Q m) : Q (JumpableMessagesModel.loadMoreHistory m).1 := by
  rw [JumpableMessagesModel.loadMoreHistory]
  split_ifs
  · exact h.setWaitingFor hm _ _
  · exact hm

theorem loadMoreFuture (h : Stable Q) (hm : Q m) : Q (JumpableMessagesModel.loadMoreFuture m).1 := by
  rw [JumpableMessagesModel.loadMoreFuture]
  split_ifs
  · exact h.setWaitingFor hm _ _
  · exact hm

theorem loadHistoryForMessage (h : Stable Q) (hm : Q m) (messageId : Int) :
    Q (JumpableMessagesModel.loadHistoryForMessage m messageId).1 := by
  rw [JumpableMessagesModel.loadHistoryForMessage]
  split_ifs
  · exact h.members _ _ _ messageId (h.clear hm)
  · exact hm

theorem notifyMessagesLoaded (h : Stable Q) (hm : Q m) (fromUpdate : UpdateType) (totalCount : Int) :
    Q (JumpableMessagesModel.notifyMessagesLoaded m fromUpdate totalCount).1 :=
  h.prepare _ _ (h.setWaitingFor hm _ _)

/-- An answer keeps the property if inserting its batch does. -/
theorem handleMessagesReceived (h : Stable Q) (hm : Q m) (fromUpdate : UpdateType)
    (messages : List QVariantMap) (totalCount : Int)
    (hinsert : m.waitingFor fromUpdate = true ∨ m.messages = [] → Q (m.handleInsertMessages messages).1) :
    Q (JumpableMessagesModel.handleMessagesReceived m fromUpdate messages totalCount).1 := by
  rw [JumpableMessagesModel.handleMessagesReceived]
  refine h.setWaitingFor ?_ _ _
  split_ifs with hempty haccept
  · exact h.notifyMessagesLoaded hm _ _
  · have hQ := hinsert (by simpa [List.isEmpty_iff] using haccept)
    exact JumpableMessagesModel.afterInsertion_of (h.setWaitingFor hQ _ _) (h.notifyMessagesLoaded hQ _ _) _ _
  · exact hm

end Stable

end YaqtLib
