import YaqtLib.MessageFold
import YaqtLib.SequenceModels

/-! What the readable models announce about the roles of a row. Whatever an operation or an update does, a row that is
there before and after it is announced with each of its roles that changed; rows that only make way for others need not
be, and those of an album whose members changed are written one after the other. -/

namespace YaqtLib

open Containers IndexMap Runs Views MessageData

/-- Every row that is there before and after an operation is announced with each role of its own that changed, but for
the two that no setter tells of; `newId` is the id a row has afterwards. -/
def RolesAnnounced (rows rows' : List MessageData) (newId : Int → Int) (signals : List RowSignal) : Prop :=
  ∀ row ∈ rows, ∀ row' ∈ rows', row'.messageId = newId row.messageId → ∀ role : MessageRole, role ≠ .isSponsored →
    role ≠ .messageAlbumId → row'.roleData role ≠ row.roleData role → Announced signals role row'.messageId

namespace RolesAnnounced

variable {rows rows' rows'' : List MessageData} {signals signals' : List RowSignal}

theorem mono {newId : Int → Int} (h : RolesAnnounced rows rows' newId signals) (hsubset : signals ⊆ signals') :
    RolesAnnounced rows rows' newId signals' :=
  fun row hrow row' hrow' hid role hsponsored halbum hchange =>
    (h row hrow row' hrow' hid role hsponsored halbum hchange).mono hsubset

/-- Rows that come or go, and leave the others as they are. -/
theorem of_kept (hd : (rows.map MessageData.messageId).Nodup)
    (hkept : ∀ row' ∈ rows', row'.messageId ∈ rows.map MessageData.messageId → row' ∈ rows) (signals : List RowSignal) :
    RolesAnnounced rows rows' id signals := by
  intro row hrow row' hrow' hid role _ _ hchange
  have hmem : row' ∈ rows := hkept row' hrow' (hid ▸ List.mem_map_of_mem hrow)
  obtain rfl : row' = row := List.inj_on_of_nodup_map hd hmem hrow hid
  exact absurd rfl hchange

/-- Of two operations in a row the second takes no row back in. -/
theorem trans (h : RolesAnnounced rows rows' id signals) (h' : RolesAnnounced rows' rows'' id signals')
    (hids : ∀ row ∈ rows'', row.messageId ∈ rows'.map MessageData.messageId) :
    RolesAnnounced rows rows'' id (signals ++ signals') := by
  intro row hrow row'' hrow'' hid role hsponsored halbum hchange
  obtain ⟨row', hrow', hid'⟩ := List.mem_map.mp (hids row'' hrow'')
  by_cases hfirst : row'.roleData role = row.roleData role
  · rw [← hfirst] at hchange
    exact (h' row' hrow' row'' hrow'' hid'.symm role hsponsored halbum hchange).mono (List.subset_append_right _ _)
  · have hannounced := h row hrow row' hrow' (hid'.trans hid) role hsponsored halbum hfirst
    rw [hid'] at hannounced
    exact hannounced.mono (List.subset_append_left _ _)

end RolesAnnounced

namespace MessagesModel

variable {Own : Type} {m m' m'' : MessagesModel Own} {signals signals' : List RowSignal}

theorem announced_of_dataChanged {i : Nat} {messageId : Int} (hi : m.ids[i]? = some messageId) {role : MessageRole}
    {roles : List MessageRole} (hrole : role ∈ roles) (hmem : m.dataChanged i roles ∈ signals) :
    Announced signals role messageId := by
  have hlt : i < m.messages.length := by
    have := (List.getElem?_eq_some_iff.mp hi).1
    rwa [ids, List.length_map] at this
  refine ⟨_, hmem, ?_⟩
  rw [RowSignal.announces, dataChanged, signal, index, if_pos hlt]
  simp [hi, hrole]

/-- The rows of `m'` have distinct ids, and their changed roles are announced. -/
structure RolesFollow (m m' : MessagesModel Own) (signals : List RowSignal) : Prop where
  nodup : m'.ids.Nodup
  announced : RolesAnnounced m.messages m'.messages id signals

namespace RolesFollow

theorem refl (hd : m.ids.Nodup) (signals : List RowSignal) : RolesFollow m m signals :=
  ⟨hd, .of_kept hd (fun _ hrow _ => hrow) signals⟩

theorem mono (h : RolesFollow m m' signals) (hsubset : signals ⊆ signals') : RolesFollow m m' signals' :=
  ⟨h.nodup, h.announced.mono hsubset⟩

theorem trans (h : RolesFollow m m' signals) (h' : RolesFollow m' m'' signals') (hids : m''.ids ⊆ m'.ids) :
    RolesFollow m m'' (signals ++ signals') :=
  ⟨h'.nodup, h.announced.trans h'.announced fun _ hrow => hids (List.mem_map_of_mem hrow)⟩

end RolesFollow

/-! ### Albums -/

/-- The entry of an album announces what it changes. -/
theorem albumEntryRoles_reports (message : MessageData) (isMain : Bool) (albumIds : List Int) :
    Reports message { message with albumEntryFilter := !isMain, albumMessageIds := if isMain then albumIds else [] }
      (message.albumEntryRoles isMain albumIds) := by
  have hfilter := set_reports message (.setAlbumEntryFilter !isMain)
  have hids := set_reports (message.step (.setAlbumEntryFilter !isMain))
    (.setAlbumEntryMessageIds (if isMain then albumIds else []))
  intro role hsponsored halbum hchange
  rw [albumEntryRoles_eq, List.mem_append]
  by_cases hfirst : (message.step (.setAlbumEntryFilter !isMain)).roleData role = message.roleData role
  · rw [← hfirst] at hchange
    exact Or.inr (hids role hsponsored halbum hchange)
  · exact Or.inl (hfilter role hsponsored halbum hfirst)

theorem setAlbumEntry_rolesFollow (hd : m.ids.Nodup) (position : Nat) (isMain : Bool) (albumIds : List Int) :
    RolesFollow m (m.setAlbumEntry position isMain albumIds)
      [(m.setAlbumEntry position isMain albumIds).dataChanged position
        ((m.messages[position]?.map fun message => message.albumEntryRoles isMain albumIds).getD [])] := by
  have hids := (setAlbumEntry_same m position isMain albumIds).ids_eq
  refine ⟨by rwa [hids], ?_⟩
  intro row hrow row' hrow' hid role hsponsored halbum hchange
  obtain ⟨i, hi⟩ := List.getElem?_of_mem hrow
  obtain ⟨i', hi'⟩ := List.getElem?_of_mem hrow'
  have hget : (m.setAlbumEntry position isMain albumIds).ids[i']? = some row'.messageId := by
    rw [ids, List.getElem?_map, hi']
    rfl
  change (m.messages.modify position _)[i']? = some row' at hi'
  rw [List.getElem?_modify, Option.map_eq_map, Option.map_eq_some_iff] at hi'
  obtain ⟨old, hold, heq⟩ := hi'
  have hold' : old.messageId = row.messageId := by
    rw [id_eq] at hid
    rw [← hid, ← heq]
    by_cases hposition : position = i'
    · rw [if_pos hposition]
    · rw [if_neg hposition]
  obtain rfl : i' = i := Sequence.index_unique hd hold hi hold'
  obtain rfl : old = row := Option.some.inj (hold.symm.trans hi)
  by_cases hposition : position = i'
  · obtain rfl := hposition
    rw [if_pos rfl] at heq
    rw [← heq] at hchange
    have hrole := albumEntryRoles_reports old isMain albumIds role hsponsored halbum hchange
    refine announced_of_dataChanged hget hrole ?_
    rw [hold]
    exact List.mem_singleton_self _
  · rw [if_neg hposition] at heq
    rw [heq] at hchange
    exact absurd rfl hchange

theorem updateAlbumEntries_rolesFollow (albumIds : List Int) (hd : m.ids.Nodup) (rest : List Int) (isMain : Bool) :
    RolesFollow m (updateAlbumEntries albumIds m rest isMain) (updateAlbumEntriesSignals albumIds m rest isMain) := by
  induction rest generalizing m isMain with
  | nil => exact .refl hd _
  | cons messageId rest ih =>
      rw [updateAlbumEntries, updateAlbumEntriesSignals]
      cases m.messageIndexMap.value messageId with
      | none => exact ih hd false
      | some position =>
          have hentry := setAlbumEntry_rolesFollow hd position isMain albumIds
          refine hentry.trans (ih hentry.nodup false) ?_
          rw [(updateAlbumEntries_same albumIds (m.setAlbumEntry position isMain albumIds) rest false).ids_eq]
          exact List.Subset.refl _

theorem updateAlbumMessages_rolesFollow (hd : m.ids.Nodup) (albumId : Int) (checkDeleted : Bool) :
    RolesFollow m (m.updateAlbumMessages albumId checkDeleted) (m.updateAlbumMessagesSignals albumId checkDeleted) := by
  rw [updateAlbumMessages, updateAlbumMessagesSignals]
  cases m.albumMessageMap.value albumId with
  | none => exact .refl hd _
  | some albumIds =>
      dsimp only
      generalize (if checkDeleted = true then _ else _ : List Int) = messageIds
      split_ifs
      · exact ⟨hd, (RolesFollow.refl hd _).announced⟩
      · have hentries := updateAlbumEntries_rolesFollow messageIds hd messageIds true
        exact ⟨hentries.nodup, hentries.announced⟩

theorem setMessageAlbum_rolesFollow (hd : m.ids.Nodup) (message : MessageData) :
    RolesFollow m (m.setMessageAlbum message) (m.setMessageAlbumSignals message) := by
  rw [setMessageAlbum, setMessageAlbumSignals]
  dsimp only
  split_ifs
  · exact .refl hd _
  · generalize m.albumMessageMap.insert message.mediaAlbumId _ = albumMessageMap
    have hupdate := updateAlbumMessages_rolesFollow (m := { m with albumMessageMap := albumMessageMap }) hd
      message.mediaAlbumId false
    exact ⟨hupdate.nodup, hupdate.announced⟩

/-- Folds of operations that leave the ids as they are. -/
theorem rolesFollow_foldl {α : Type} {f : MessagesModel Own → α → MessagesModel Own}
    {signals : MessagesModel Own → α → List RowSignal}
    (h : ∀ {m : MessagesModel Own}, m.ids.Nodup → ∀ a, RolesFollow m (f m a) (signals m a))
    (hsame : ∀ (m : MessagesModel Own) (l : List α), (l.foldl f m).ids = m.ids) (hd : m.ids.Nodup) (l : List α) :
    RolesFollow m (l.foldl f m) (announced f signals m l) := by
  induction l generalizing m with
  | nil => exact .refl hd _
  | cons a l ih =>
      have hfirst := h hd a
      refine hfirst.trans (ih hfirst.nodup) ?_
      rw [List.foldl_cons, hsame]
      exact List.Subset.refl _

theorem setMessagesAlbum_rolesFollow (hd : m.ids.Nodup) (newMessages : List MessageData) :
    RolesFollow m (m.setMessagesAlbum newMessages) (m.setMessagesAlbumSignals newMessages) :=
  rolesFollow_foldl setMessageAlbum_rolesFollow (fun m l => (setMessagesAlbum_same m l).ids_eq) hd newMessages

/-! ### Removing rows -/

theorem rolesFollow_of_kept (hd : m.ids.Nodup) (hd' : m'.ids.Nodup)
    (hkept : ∀ row ∈ m'.messages, row.messageId ∈ m.ids → row ∈ m.messages) (signals : List RowSignal) :
    RolesFollow m m' signals :=
  ⟨hd', .of_kept hd hkept signals⟩

theorem eraseRows_rolesFollow (hd : m.ids.Nodup) {first last : Nat} (h : first ≤ last) (signals : List RowSignal) :
    RolesFollow m (m.eraseRows first last) signals := by
  have hsublist : (m.eraseRows first last).messages.Sublist m.messages := eraseRange_sublist m.messages h
  exact rolesFollow_of_kept hd (hd.sublist (hsublist.map _)) (fun row hrow _ => hsublist.subset hrow) signals

theorem removeRange_rolesFollow (hd : m.ids.Nodup) (first last : Nat) :
    RolesFollow m (m.removeRange first last) (m.removeRangeSignals first last) := by
  by_cases hle : first ≤ last
  · have herased := eraseRows_rolesFollow hd hle [(m.eraseRows first last).signal (.rowsRemoved first last)]
    have hsame := fun (m : MessagesModel Own) albumIds => (foldl_updateAlbumMessages_same m albumIds true).ids_eq
    have halbums := @rolesFollow_foldl _ _ _ (fun m albumId => updateAlbumMessages m albumId true)
      (fun m albumId => updateAlbumMessagesSignals m albumId true)
      (fun hd albumId => updateAlbumMessages_rolesFollow hd albumId true) hsame herased.nodup
      (m.rescanAlbumIds first last)
    have hremoved := herased.trans halbums (by rw [hsame]; exact List.Subset.refl _)
    rw [← removeRange_eq m hle] at hremoved
    rw [removeRangeSignals, if_pos hle]
    refine hremoved.mono ?_
    dsimp only
    rw [List.append_assoc]
    exact List.subset_append_left _ _
  · rw [removeRangeSignals, if_neg hle, removeRange, if_neg hle]
    exact .refl hd _

theorem ids_subset_of_deletes (h : Deletes m m') : m'.ids ⊆ m.ids :=
  (h.map_sublist MessageData.messageId MessageData.body_messageId).subset

theorem deleteLoop_rolesFollow (count : Nat) (hd : m.ids.Nodup) (messageIds : List Int) (first last : Nat) :
    RolesFollow m (deleteLoop count m messageIds first last).1 (deleteLoopSignals count m messageIds first last) := by
  induction messageIds generalizing m first last with
  | nil => exact .refl hd _
  | cons messageId rest ih =>
      rw [deleteLoop, deleteLoopSignals]
      cases m.messageIndexMap.value messageId with
      | none => exact ih hd first last
      | some position =>
          dsimp only
          generalize (if last = count then position else last) = last'
          generalize (if first = count then position else first) = first'
          split_ifs
          · have hremove := removeRange_rolesFollow hd first' last'
            refine hremove.trans (ih hremove.nodup position position) ?_
            exact ids_subset_of_deletes (deleteLoop_deletes count _ rest position position)
          · exact ih hd position last'

theorem handleMessagesDeleted_rolesFollow (hd : m.ids.Nodup) (chatId : Int) (messageIds : List Int) :
    RolesFollow m (m.handleMessagesDeleted chatId messageIds) (m.handleMessagesDeletedSignals chatId messageIds) := by
  rw [handleMessagesDeleted, handleMessagesDeletedSignals]
  split_ifs
  · generalize messageIds.reverse = messageIds
    have hloop := deleteLoop_rolesFollow messageIds.length hd messageIds messageIds.length messageIds.length
    rw [deleteMessages, deleteMessagesSignals]
    dsimp only
    split_ifs
    · exact hloop.trans (removeRange_rolesFollow hloop.nodup _ _) (ids_subset_of_deletes (removeRange_deletes _ _ _))
    · rw [List.append_nil]
      exact hloop
  · exact .refl hd _

/-! ### New rows -/

section Virtual

variable [Virtuals Own]

/-- A batch comes in, and its albums are written. -/
theorem insertMessages_rolesFollow (hends : m.InsertsAtEnds) {newMessages : List MessageData}
    (hd : (m.ids ++ newMessages.map MessageData.messageId).Nodup) :
    RolesFollow m ((m.insertMessages newMessages).setMessagesAlbum newMessages)
      (m.insertMessagesSignals newMessages ++ (m.insertMessages newMessages).setMessagesAlbumSignals newMessages) := by
  have hperm := (insertMessages_perm hends newMessages).map MessageData.messageId
  rw [List.map_append] at hperm
  have hd' : (m.insertMessages newMessages).ids.Nodup := hperm.nodup_iff.mpr hd
  have hkept : ∀ row ∈ (m.insertMessages newMessages).messages, row.messageId ∈ m.ids → row ∈ m.messages := by
    intro row hrow hid
    refine ((mem_insertMessages hends).mp hrow).resolve_right fun hnew => ?_
    exact (List.nodup_append.mp hd).2.2 _ hid _ (List.mem_map_of_mem hnew) rfl
  have hinserted := rolesFollow_of_kept (List.nodup_append.mp hd).1 hd' hkept (m.insertMessagesSignals newMessages)
  refine hinserted.trans (setMessagesAlbum_rolesFollow hd' newMessages) ?_
  rw [(setMessagesAlbum_same _ _).ids_eq]
  exact List.Subset.refl _

variable [LawfulVirtuals Own]

theorem handleInsertMessages_rolesFollow (hends : m.InsertsAtEnds) (hm : m.IndexExact) {messages : List QVariantMap}
    (hd : (messages.map messageIdOf).Nodup) :
    RolesFollow m (m.handleInsertMessages messages).1 (m.handleInsertMessagesSignals messages) := by
  have heq : (m.handleInsertMessages messages).1 = if (m.addedMessages messages).isEmpty then m
      else (m.insertMessages (m.addedMessages messages)).setMessagesAlbum (m.addedMessages messages) := rfl
  rw [heq, handleInsertMessagesSignals]
  split_ifs
  · exact .refl hm.nodup _
  · exact insertMessages_rolesFollow hends (nodup_ids_addedMessages hm hd)

theorem handleNewMessageReceived_rolesFollow (hends : m.InsertsAtEnds) (hm : m.IndexExact) (message : QVariantMap) :
    RolesFollow m (ReadableMessagesModel.handleNewMessageReceived m message)
      (ReadableMessagesModel.handleNewMessageReceivedSignals m message) := by
  rw [ReadableMessagesModel.handleNewMessageReceived, ReadableMessagesModel.handleNewMessageReceivedSignals]
  dsimp only
  split_ifs with hcontains
  · exact .refl hm.nodup _
  · refine insertMessages_rolesFollow hends ?_
    rw [Bool.not_eq_true, not_mem_ids_iff hm] at hcontains
    rw [List.map_singleton, processMessageData_messageId]
    exact hm.nodup.append (List.nodup_singleton _) (List.disjoint_singleton.mpr hcontains)
  · exact .refl hm.nodup _

/-! ### A sent message -/

/-- `diff` tells what differs from the replaced object. -/
theorem diff_reports (message old : MessageData) : Reports old message (message.diff old) := by
  intro role _ halbum hchange
  cases role with
  | messageAlbumId => exact absurd rfl halbum
  | messageAlbumMessages | isFirstInSequence | isLastInSequence => exact absurd rfl hchange
  | display => simp [MessageData.diff]
  | _ =>
      simp only [roleData, ne_eq, QVariant.longLong.injEq, QVariant.bool.injEq, QVariant.string.injEq,
        QVariant.list.injEq] at hchange
      simp [MessageData.diff]
      grind

theorem handleMessageSendSucceeded_rolesAnnounced (hm : m.IndexExact) (chatId oldMessageId : Int) {messageId : Int}
    (message : QVariantMap) (hnew : m.messageIndexMap.contains messageId = false) :
    RolesAnnounced m.messages (m.handleMessageSendSucceeded chatId oldMessageId messageId message).1.messages
      (m.sentId chatId oldMessageId messageId)
      (m.handleMessageSendSucceededSignals chatId oldMessageId messageId message) := by
  have hnotin : messageId ∉ m.ids := (not_mem_ids_iff hm _).mp hnew
  have hmem : ∀ {row : MessageData}, row ∈ m.messages → row.messageId ∈ m.ids := fun hrow => List.mem_map_of_mem hrow
  have hkept : ∀ row ∈ m.messages, ∀ row' ∈ m.messages, row'.messageId = m.sentId chatId oldMessageId messageId
      row.messageId → row' = row := by
    intro row hrow row' hrow' hid
    rw [sentId] at hid
    split_ifs at hid
    · exact absurd (hid ▸ hmem hrow') hnotin
    · exact List.inj_on_of_nodup_map hm.nodup hrow' hrow hid
  have hsame : ∀ signals, RolesAnnounced m.messages m.messages (m.sentId chatId oldMessageId messageId) signals := by
    intro signals row hrow row' hrow' hid role _ _ hchange
    exact absurd (congrArg (MessageData.roleData · role) (hkept row hrow row' hrow' hid)) hchange
  by_cases hchat : m.chatId = chatId
  swap
  · rw [handleMessageSendSucceeded, if_neg hchat]
    exact hsame _
  cases hold : m.messageIndexMap.value oldMessageId with
  | none =>
      rw [handleMessageSendSucceeded, if_pos hchat, hold]
      exact hsame _
  | some pos =>
      obtain ⟨pre, old, post, hrows, rfl, hget, rfl⟩ := hm.exists_split hold
      rw [handleMessageSendSucceeded_eq m messageId message hchat hrows hold]
      have holdmem : old ∈ m.messages := List.mem_of_getElem? hget
      intro row hrow row' hrow' hid role hsponsored halbum hchange
      rcases List.mem_append.mp hrow' with hstay | hsent
      · have hrow'' : row' ∈ m.messages := by
          rw [hrows]
          exact ((List.Sublist.refl pre).append (List.sublist_cons_self old post)).subset hstay
        exact absurd (congrArg (MessageData.roleData · role) (hkept row hrow row' hrow'' hid)) hchange
      · obtain rfl := List.mem_singleton.mp hsent
        have hsentid := m.sentMessage_messageId messageId message
        have hrowold : row = old := by
          rw [hsentid, sentId] at hid
          split_ifs at hid with hcond
          · exact List.inj_on_of_nodup_map hm.nodup hrow holdmem hcond.2
          · exact absurd (hid ▸ hmem hrow) hnotin
        subst hrowold
        have hrole := diff_reports (m.sentMessage messageId message) row role hsponsored halbum hchange
        rw [handleMessageSendSucceededSignals, if_pos hchat, hold]
        dsimp only
        rw [hget]
        refine announced_of_dataChanged ?_ hrole (List.mem_append_left _ (List.mem_singleton_self _))
        have hlt : pre.length < m.messages.length := (List.getElem?_eq_some_iff.mp hget).1
        rw [ids, List.getElem?_map, List.getElem?_set_self hlt]
        rfl

end Virtual

/-! ### The slots -/

theorem filterMap_key (rows : List MessageData) :
    (rows.map MessageData.key).filterMap (fun k => k) = rows.map MessageData.messageId := by
  induction rows with
  | nil => rfl
  | cons row rest ih => exact congrArg (row.messageId :: ·) ih

theorem SameKeys.ids_eq (h : SameKeys m m') : m'.ids = m.ids := by
  obtain ⟨messages, hkeys, rfl⟩ := h
  have hids := congrArg (List.filterMap fun k => k) hkeys
  rw [filterMap_key, filterMap_key] at hids
  exact hids

/-- A slot announces the row it writes over, by its place. -/
theorem rolesFollow_of_sameKeys (hd : m.ids.Nodup) (h : SameKeys m m')
    (hannounced : ∀ {i : Nat} {row row' : MessageData}, m.messages[i]? = some row → m'.messages[i]? = some row' →
      ∀ {role : MessageRole}, role ≠ .isSponsored → role ≠ .messageAlbumId → row'.roleData role ≠ row.roleData role →
      ∃ roles, role ∈ roles ∧ m'.dataChanged i roles ∈ signals) : RolesFollow m m' signals := by
  refine ⟨by rwa [h.ids_eq], ?_⟩
  intro row hrow row' hrow' hid role hsponsored halbum hchange
  obtain ⟨i, hi⟩ := List.getElem?_of_mem hrow
  obtain ⟨i', hi'⟩ := List.getElem?_of_mem hrow'
  have hget' : m'.ids[i']? = some row'.messageId := by
    rw [ids, List.getElem?_map, hi']
    rfl
  have hget : m.ids[i]? = some row.messageId := by
    rw [ids, List.getElem?_map, hi]
    rfl
  have hlt : i < m.ids.length := (List.getElem?_eq_some_iff.mp hget).1
  obtain rfl : i = i' := by
    rw [h.ids_eq, hid] at hget'
    exact (List.getElem?_inj hlt hd).mp (hget.trans hget'.symm)
  obtain ⟨roles, hrole, hmem⟩ := hannounced hi hi' hsponsored halbum hchange
  exact announced_of_dataChanged hget' hrole hmem

theorem handleMessageUpdate_rolesFollow (hd : m.ids.Nodup) (chatId messageId : Int) (setter : MessageData.Setter) :
    RolesFollow m (m.handleMessageUpdate chatId messageId setter).1 (m.handleMessageUpdate chatId messageId setter).2 :=
  rolesFollow_of_sameKeys hd (handleMessageUpdate_sameKeys m chatId messageId setter)
    fun hrow hrow' _ hsponsored halbum hchange => handleMessageUpdate_announced hrow hrow' hsponsored halbum hchange

theorem markGeneratedContentAsRead_rolesFollow (hd : m.ids.Nodup) (i : Int) :
    RolesFollow m (m.markGeneratedContentAsRead i).1 (m.markGeneratedContentAsRead i).2 := by
  refine rolesFollow_of_sameKeys hd (markGeneratedContentAsRead_sameKeys m i) ?_
  intro position row row' hrow hrow' role _ _ hchange
  have hsame : row' ≠ row := by
    rintro rfl
    exact hchange rfl
  rw [markGeneratedContentAsRead] at hrow' ⊢
  split_ifs at hrow' ⊢
  · cases hget : m.messages[i.toNat]? with
    | none =>
        rw [hget] at hrow'
        exact absurd (Option.some.inj (hrow'.symm.trans hrow)) hsame
    | some message =>
        rw [hget] at hrow'
        dsimp only at hrow' ⊢
        split_ifs at hrow' ⊢
        · dsimp only at hrow'
          rw [List.getElem?_modify, hrow, Option.map_eq_map, Option.map_some] at hrow'
          by_cases hposition : i.toNat = position
          · obtain rfl := hposition
            rw [if_pos rfl] at hrow'
            obtain rfl := Option.some.inj hrow'
            have hrole : role = .generatedContentUnread := by
              cases role <;> first | rfl | exact absurd rfl hchange
            exact ⟨_, by rw [hrole]; exact List.mem_singleton_self _, List.mem_singleton_self _⟩
          · rw [if_neg hposition] at hrow'
            exact absurd (Option.some.inj hrow').symm hsame
        · exact absurd (Option.some.inj (hrow'.symm.trans hrow)) hsame
  · exact absurd (Option.some.inj (hrow'.symm.trans hrow)) hsame

/-! ### Runs -/

section Runs

variable {ε : Type} (signals : MessagesModel Own → ε → List RowSignal) (rowId : MessagesModel Own → ε → Int → Int)

/-- What is announced during an input. -/
def rowSignals (m : MessagesModel Own) : RowInput ε → List RowSignal
  | .event e => signals m e
  | .messageUpdated chatId messageId setter => (m.handleMessageUpdate chatId messageId setter).2
  | .markGeneratedContentAsRead i => (m.markGeneratedContentAsRead i).2

/-- The id a row has after an input. -/
def rowIdAfter (m : MessagesModel Own) : RowInput ε → Int → Int
  | .event e => rowId m e
  | _ => id

variable {signals rowId} {handle : MessagesModel Own → ε → MessagesModel Own × List Output}
  {given : ε → List (Int × QVariantMap)} {I : MessagesModel Own → Prop} {P : MessagesModel Own → ε → Prop}

/-- After any run, the next input announces the roles it changes. -/
def AnnouncesRoles (handle : MessagesModel Own → ε → MessagesModel Own × List Output)
    (signals : MessagesModel Own → ε → List RowSignal) (rowId : MessagesModel Own → ε → Int → Int)
    (m : MessagesModel Own) (inputs : List (RowInput ε)) (i : RowInput ε) : Prop :=
  let m' := run (stepRow handle) m inputs
  RolesAnnounced m'.messages (m'.stepRow handle i).messages (rowIdAfter rowId m' i) (rowSignals signals m' i)

theorem CarriesMessages.announcesRoles (h : CarriesMessages handle given I P)
    (hevent : ∀ {m e}, I m → P m e →
      RolesAnnounced m.messages (handle m e).1.messages (rowId m e) (signals m e)) {m : MessagesModel Own} (hm : I m)
    {inputs : List (RowInput ε)} {i : RowInput ε} (hinputs : Along (MessagesModel.stepRow handle) (RowStep P) m (inputs ++ [i])) :
    AnnouncesRoles handle signals rowId m inputs i := by
  obtain ⟨hbefore, hi, -⟩ := (along_append m inputs [i]).mp hinputs
  have hreached : I (run (MessagesModel.stepRow handle) m inputs) :=
    Along.invariant (I := I) (fun m' i hm' hi => (h.stepRow i hm' hi).1) hm hbefore
  have hd := (h.exact hreached).nodup
  rw [AnnouncesRoles]
  cases i with
  | event e => exact hevent hreached hi
  | messageUpdated chatId messageId setter => exact (handleMessageUpdate_rolesFollow hd chatId messageId setter).announced
  | markGeneratedContentAsRead i => exact (markGeneratedContentAsRead_rolesFollow hd i).announced

end Runs

end MessagesModel

open MessagesModel PlainReadable

namespace PlainReadable

variable {Own : Type} [Virtuals Own] [ReadableVirtuals Own] [PlainReadable Own]

/-- What is announced of an operation covers what else it does to the flags, or by clearing. -/
theorem stable_roles (m : MessagesModel Own) (signals : List RowSignal) :
    Stable fun m' : MessagesModel Own => RolesAnnounced m.messages m'.messages id signals ∧ Plain m'.own := by
  refine PlainReadable.stable (fun messages _ => RolesAnnounced m.messages messages id signals) ?_
  intro row _ row' hrow'
  exact absurd hrow' List.not_mem_nil

theorem roles_refl {m : MessagesModel Own} (hm : m.IndexExact) (hplain : Plain m.own) (signals : List RowSignal) :
    RolesAnnounced m.messages m.messages id signals ∧ Plain m.own :=
  ⟨(RolesFollow.refl hm.nodup signals).announced, hplain⟩

theorem handleMessagesReceived_roles {m : MessagesModel Own} (hm : m.IndexExact) (hplain : Plain m.own)
    (fromUpdate : UpdateType) {messages : List QVariantMap} (totalCount : Int)
    (hd : (messages.map messageIdOf).Nodup) :
    RolesAnnounced m.messages (JumpableMessagesModel.handleMessagesReceived m fromUpdate messages totalCount).1.messages
      id (JumpableMessagesModel.handleMessagesReceivedSignals m fromUpdate messages) := by
  refine ((stable_roles m _).handleMessagesReceived (roles_refl hm hplain _) fromUpdate messages totalCount
    fun haccepts => ⟨?_, ?_⟩).1
  · cases messages with
    | nil =>
        rw [JumpableMessagesModel.handleInsertMessages_nil]
        exact (roles_refl hm hplain _).1
    | cons message rest =>
        have haccepts' : (m.waitingFor fromUpdate || m.messages.isEmpty) = true := by
          simpa [List.isEmpty_iff] using haccepts
        rw [JumpableMessagesModel.handleMessagesReceivedSignals, List.isEmpty_cons, if_neg Bool.false_ne_true,
          if_pos haccepts']
        exact (handleInsertMessages_rolesFollow (insertsAtEnds hplain) hm hd).announced
  · rw [(handleInsertMessages_sameMembers (insertsAtEnds hplain) messages).own]
    exact hplain

end PlainReadable

/-! ### Chats -/

namespace ChatMessagesModel

theorem roles_step (m : ChatMessagesModel) (e : Event) (hm : Indexed m) (he : IndexStep m e) :
    RolesAnnounced m.messages (step m e).messages (rowId m e) (signals m e) := by
  have hplain : PlainReadable.Plain m.own := hm.2
  have hrows : ∀ signals,
      RowsOnly fun m' => RolesAnnounced m.messages m'.messages id signals ∧ PlainReadable.Plain m'.own :=
    fun signals => ⟨stable_roles m signals, fun _ _ _ h => h⟩
  have hrefl := roles_refl hm.1 hplain
  cases e with
  | handleInsertMessages messages => exact (handleInsertMessages_rolesFollow (insertsAtEnds hplain) hm.1 he).announced
  | messagesReceived chatId extra messages totalCount =>
      rw [step, handle, handleMessagesReceived, signals]
      split_ifs
      · exact handleMessagesReceived_roles hm.1 hplain extra totalCount he
      · exact (hrefl _).1
  | foundChatMessagesReceived chatId filter extra messages totalCount =>
      rw [step, handle, handleFoundChatMessagesReceived, signals]
      split_ifs
      · exact handleMessagesReceived_roles hm.1 hplain extra totalCount he
      · exact (hrefl _).1
  | newMessageReceived chatId message =>
      rw [step, handle, handleNewMessageReceived, signals]
      split_ifs
      · exact (handleNewMessageReceived_rolesFollow (insertsAtEnds hplain) hm.1 message).announced
      · exact (hrefl _).1
  | messageSendSucceeded chatId oldMessageId messageId message =>
      exact handleMessageSendSucceeded_rolesAnnounced hm.1 chatId oldMessageId message he
  | messagesDeleted chatId messageIds => exact (handleMessagesDeleted_rolesFollow hm.1.nodup chatId messageIds).announced
  | sponsoredMessagesReceived => exact he.elim
  | _ => exact ((hrows _).call (hrefl _) rfl).1

end ChatMessagesModel

/-! ### Forum topics -/

namespace ForumTopicMessagesModel

theorem roles_step (m : ForumTopicMessagesModel) (e : Event) (hm : m.IndexExact) (he : IndexStep m e) :
    RolesAnnounced m.messages (step m e).messages (rowId m e) (signals m e) := by
  have hplain : PlainReadable.Plain m.own := trivial
  have hrows : ∀ signals,
      RowsOnly fun m' => RolesAnnounced m.messages m'.messages id signals ∧ PlainReadable.Plain m'.own :=
    fun signals => ⟨stable_roles m signals, fun _ h => ⟨h.1, trivial⟩⟩
  have hrefl := roles_refl hm hplain
  cases e with
  | handleInsertMessages messages => exact (handleInsertMessages_rolesFollow (insertsAtEnds m) hm he).announced
  | forumTopicMessagesReceived chatId forumTopicId extra messages totalCount =>
      rw [step, handle, handleForumTopicMessagesReceived, signals]
      split_ifs
      · exact handleMessagesReceived_roles hm hplain extra totalCount he
      · exact (hrefl _).1
  | newMessageReceived chatId message =>
      rw [step, handle, handleNewMessageReceived, signals]
      split_ifs
      · exact (handleNewMessageReceived_rolesFollow (insertsAtEnds m) hm message).announced
      · exact (hrefl _).1
  | messageSendSucceeded chatId oldMessageId messageId message =>
      exact handleMessageSendSucceeded_rolesAnnounced hm chatId oldMessageId message he
  | messagesDeleted chatId messageIds => exact (handleMessagesDeleted_rolesFollow hm.nodup chatId messageIds).announced
  | _ => exact ((hrows _).call (hrefl _) rfl).1

end ForumTopicMessagesModel

end YaqtLib
