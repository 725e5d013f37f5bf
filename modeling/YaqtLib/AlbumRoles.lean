import YaqtLib.AlbumsModels
import YaqtLib.FilteredRows

/-! The album roles of a media model. Batches and deletions of ranges keep the albums; new messages, fetched messages
and `removeMessage` leave them alone, so that the roles of the rows may depend on the way on which the messages were
loaded. -/

namespace YaqtLib

open Containers IndexMap Runs TdConst

namespace MessagesModel

variable {Own : Type} {m m' : MessagesModel Own}

/-- `getMessages`; `none` stands for a read behind the last row. -/
def getMessages (m : MessagesModel Own) (messageIds : List Int) : List (Option QVariantMap) :=
  messageIds.filterMap fun messageId => (m.messageIndexMap.value messageId).map fun position =>
    (m.messages[position]?).map MessageData.messageData

/-- The roles `album_entry_filter`, `album_message_ids` and `album_messages` of a row. -/
def albumRoles (m : MessagesModel Own) (message : MessageData) : Bool × List Int × List (Option QVariantMap) :=
  (message.albumEntryFilter, message.albumMessageIds, m.getMessages message.albumMessageIds)

/-- The loaded messages: the ids of the rows with what TDLib sent for them. -/
def loaded (m : MessagesModel Own) : List (Int × QVariantMap) :=
  m.messages.map fun message => (message.messageId, message.messageData)

/-- The rows of the same message have the same album roles. -/
def AlbumRolesAgree (m m' : MessagesModel Own) : Prop :=
  ∀ row ∈ m.messages, ∀ row' ∈ m'.messages, row.messageId = row'.messageId → m.albumRoles row = m'.albumRoles row'

/-! ### The roles as functions of the loaded messages -/

theorem mem_loaded {m : MessagesModel Own} {messageId : Int} {data : QVariantMap} :
    (messageId, data) ∈ m.loaded ↔ ∃ row ∈ m.messages, row.messageId = messageId ∧ row.messageData = data := by
  simp [loaded]

theorem loaded_unique (hm : m.ids.Nodup) {messageId : Int} {data data' : QVariantMap}
    (h : (messageId, data) ∈ m.loaded) (h' : (messageId, data') ∈ m.loaded) : data = data' := by
  obtain ⟨row, hrow, hid, rfl⟩ := mem_loaded.mp h
  obtain ⟨row', hrow', hid', rfl⟩ := mem_loaded.mp h'
  rw [List.inj_on_of_nodup_map hm hrow hrow' (hid.trans hid'.symm)]

/-- A loaded message is read through the index map. -/
theorem getMessages_singleton (hm : m.IndexExact) {row : MessageData} (hrow : row ∈ m.messages) :
    m.getMessages [row.messageId] = [some row.messageData] := by
  obtain ⟨i, hi⟩ := List.getElem?_of_mem hrow
  have hvalue : m.messageIndexMap.value row.messageId = some i := Indexes.value_of_getElem hm hi rfl
  simp [getMessages, hvalue, hi]

theorem getMessages_cons (m : MessagesModel Own) (messageId : Int) (rest : List Int) :
    m.getMessages (messageId :: rest) = m.getMessages [messageId] ++ m.getMessages rest := by
  rw [getMessages, getMessages, getMessages, ← List.filterMap_append]
  rfl

/-- Two models with the same loaded messages read the same for loaded ids. -/
theorem getMessages_congr (hm : m.IndexExact) (hm' : m'.IndexExact) (hsame : ∀ x, x ∈ m.loaded ↔ x ∈ m'.loaded)
    {messageIds : List Int} (hids : ∀ k ∈ messageIds, k ∈ m.ids) :
    m.getMessages messageIds = m'.getMessages messageIds := by
  induction messageIds with
  | nil => rfl
  | cons messageId rest ih =>
      obtain ⟨row, hrow, rfl⟩ := List.mem_map.mp (hids messageId List.mem_cons_self)
      obtain ⟨row', hrow', hid, hdata⟩ :=
        mem_loaded.mp ((hsame (row.messageId, row.messageData)).mp (mem_loaded.mpr ⟨row, hrow, rfl, rfl⟩))
      have hread' := getMessages_singleton hm' hrow'
      rw [hid, hdata] at hread'
      rw [getMessages_cons m _ rest, getMessages_cons m' _ rest, getMessages_singleton hm hrow, hread',
        ih fun k hk => hids k (List.mem_cons_of_mem _ hk)]

theorem mem_albumIdsOf_iff {albumId k : Int} : k ∈ m.albumIdsOf albumId ↔
    ∃ data : QVariantMap, (k, data) ∈ m.loaded ∧ (data.value MEDIA_ALBUM_ID).toLongLong = albumId := by
  rw [mem_albumIdsOf]
  constructor
  · rintro ⟨row, hrow, halbum, rfl⟩
    exact ⟨row.messageData, mem_loaded.mpr ⟨row, hrow, rfl, rfl⟩, halbum⟩
  · rintro ⟨data, hdata, halbum⟩
    obtain ⟨row, hrow, rfl, rfl⟩ := mem_loaded.mp hdata
    exact ⟨row, hrow, halbum, rfl⟩

theorem strictSorted_albumIdsOf (hm : m.ids.Nodup) (albumId : Int) : (m.albumIdsOf albumId).Pairwise (· < ·) :=
  strictSorted_insertionSort (hm.sublist (List.filter_sublist.map _))

/-- What is loaded of an album does not depend on the order of the rows. -/
theorem albumIdsOf_congr (hm : m.ids.Nodup) (hm' : m'.ids.Nodup) (hsame : ∀ x, x ∈ m.loaded ↔ x ∈ m'.loaded)
    (albumId : Int) : m.albumIdsOf albumId = m'.albumIdsOf albumId := by
  have hsorted := strictSorted_albumIdsOf hm albumId
  have hsorted' := strictSorted_albumIdsOf hm' albumId
  have hperm : (m.albumIdsOf albumId).Perm (m'.albumIdsOf albumId) := by
    refine (List.perm_ext_iff_of_nodup (hsorted.imp fun hlt => hlt.ne) (hsorted'.imp fun hlt => hlt.ne)).mpr fun k => ?_
    rw [mem_albumIdsOf_iff, mem_albumIdsOf_iff]
    simp only [hsame]
  exact hperm.eq_of_pairwise (fun a b _ _ hab hba => absurd hba hab.asymm) hsorted hsorted'

/-- Where the albums are kept, the roles of the rows follow from the loaded messages. -/
theorem AlbumsKept.albumRolesAgree (h : m.AlbumsKept) (h' : m'.AlbumsKept)
    (hsame : ∀ x, x ∈ m.loaded ↔ x ∈ m'.loaded) : AlbumRolesAgree m m' := by
  intro row hrow row' hrow' hid
  have hmem : (row.messageId, row.messageData) ∈ m'.loaded :=
    (hsame _).mp (mem_loaded.mpr ⟨row, hrow, rfl, rfl⟩)
  have hdata : row.messageData = row'.messageData :=
    loaded_unique h'.indexExact.nodup hmem (mem_loaded.mpr ⟨row', hrow', hid.symm, rfl⟩)
  have halbum : row.mediaAlbumId = row'.mediaAlbumId := by rw [MessageData.mediaAlbumId, hdata]; rfl
  have hlist : m.listOf row.mediaAlbumId = m'.listOf row.mediaAlbumId := by
    by_cases hzero : row.mediaAlbumId = 0
    · rw [hzero]
      rfl
    · rw [h.listOf_eq hzero, h'.listOf_eq hzero,
        albumIdsOf_congr h.indexExact.nodup h'.indexExact.nodup hsame]
  have hentry : row.entry = row'.entry := by
    rw [h.follow.entries row hrow, h'.follow.entries row' hrow', ← halbum, hlist, hid]
  have hfilter : row.albumEntryFilter = row'.albumEntryFilter := congrArg Prod.fst hentry
  have hids : row.albumMessageIds = row'.albumMessageIds := congrArg Prod.snd hentry
  rw [albumRoles, albumRoles, hfilter, ← hids, getMessages_congr h.indexExact h'.indexExact hsame]
  -- the ids that a row shows are those of its album, or none
  intro k hk
  have hshown : row.albumMessageIds = (MessageData.entryOf (m.listOf row.mediaAlbumId) row.messageId).2 :=
    congrArg Prod.snd (h.follow.entries row hrow)
  rw [hshown, MessageData.entryOf] at hk
  split_ifs at hk
  · exact h.clean _ k hk
  · exact absurd hk List.not_mem_nil
  · exact absurd hk List.not_mem_nil

/-! ### Rows without an album -/

/-- What the albums need to know of a row. -/
def albumSlot (message : MessageData) : Int × Int × Bool × List Int :=
  (message.messageId, message.mediaAlbumId, message.entry)

/-- The rows of the albums stay; other rows may come and go. -/
theorem AlbumsKept.of_slots (h : m.AlbumsKept) (hexact : m'.IndexExact)
    (halbums : m'.albumMessageMap = m.albumMessageMap)
    (hfrom : ∀ row' ∈ m'.messages, (∃ row ∈ m.messages, albumSlot row = albumSlot row') ∨
      row'.mediaAlbumId = 0 ∧ row'.entry = (false, []) ∧ row'.messageId ∉ m.ids)
    (hkeep : ∀ row ∈ m.messages, row.mediaAlbumId ≠ 0 → row.messageId ∈ m'.ids) : m'.AlbumsKept := by
  have hlist : ∀ albumId, m'.listOf albumId = m.listOf albumId := by
    intro albumId
    rw [listOf, listOf, halbums]
  refine ⟨hexact, ⟨fun albumId => ?_, fun row' hrow' albumId ha => ?_, fun row' hrow' => ?_⟩, fun albumId k hk => ?_⟩
  · rw [hlist]
    exact h.follow.sorted albumId
  · rw [hlist]
    rcases hfrom row' hrow' with ⟨row, hrow, heq⟩ | ⟨hzero, -, hnew⟩
    · obtain ⟨hid, hrest⟩ := Prod.mk.inj heq
      obtain ⟨halbum, -⟩ := Prod.mk.inj hrest
      rw [← hid, ← halbum]
      exact h.follow.mem row hrow albumId ha
    · refine iff_of_false (fun hmem => hnew (h.clean albumId _ hmem)) fun hmem => ha ?_
      exact hmem.2.symm.trans hzero
  · rw [hlist]
    rcases hfrom row' hrow' with ⟨row, hrow, heq⟩ | ⟨hzero, hentry, -⟩
    · obtain ⟨hid, hrest⟩ := Prod.mk.inj heq
      obtain ⟨halbum, hentry⟩ := Prod.mk.inj hrest
      rw [← hid, ← halbum, ← hentry]
      exact h.follow.entries row hrow
    · rw [hentry, hzero, listOf, if_pos rfl, MessageData.entryOf_of_not_mem List.not_mem_nil]
  · rw [hlist] at hk
    obtain ⟨row, hrow, rfl⟩ := List.mem_map.mp (h.clean albumId k hk)
    refine hkeep row hrow fun hzero => ?_
    have ha : albumId ≠ 0 := by
      rintro rfl
      exact absurd hk List.not_mem_nil
    exact ha (((h.follow.mem row hrow albumId ha).mp hk).2.symm.trans hzero)

/-- New rows without an album need no entry in the album map. -/
theorem AlbumsKept.of_added (h : m.AlbumsKept) (hexact : m'.IndexExact)
    (halbums : m'.albumMessageMap = m.albumMessageMap) {newMessages : List MessageData}
    (hrows : ∀ row, row ∈ m'.messages ↔ row ∈ m.messages ∨ row ∈ newMessages)
    (hnew : ∀ row ∈ newMessages, row.mediaAlbumId = 0 ∧ row.entry = (false, []) ∧ row.messageId ∉ m.ids) :
    m'.AlbumsKept := by
  refine h.of_slots hexact halbums (fun row' hrow' => ?_) fun row hrow _ => ?_
  · exact ((hrows row').mp hrow').imp (fun hold => ⟨row', hold, rfl⟩) (hnew row')
  · exact List.mem_map_of_mem ((hrows row).mpr (Or.inl hrow))

/-- An update of one message that leaves its id, its album and its entry alone. -/
theorem AlbumsKept.handleMessageFieldUpdated (h : m.AlbumsKept) (chatId messageId : Int)
    {updater : MessageData → MessageData} (hupdater : ∀ message, albumSlot (updater message) = albumSlot message) :
    (m.handleMessageFieldUpdated chatId messageId updater).1.AlbumsKept := by
  have hslots := handleMessageFieldUpdated_map m chatId messageId updater albumSlot hupdater
  have hkeys := handleMessageFieldUpdated_map m chatId messageId updater MessageData.key fun message =>
    congrArg some (congrArg Prod.fst (hupdater message))
  obtain ⟨messages, heq⟩ := handleMessageFieldUpdated_fst m chatId messageId updater
  rw [heq] at hslots hkeys ⊢
  refine h.of_slots ((indexes_congr hkeys).mpr h.indexExact) rfl (fun row' hrow' => Or.inl ?_) fun row hrow _ => ?_
  · have hmem : albumSlot row' ∈ m.messages.map albumSlot := hslots ▸ List.mem_map_of_mem hrow'
    exact List.mem_map.mp hmem
  · have hmem : albumSlot row ∈ messages.map albumSlot := hslots ▸ List.mem_map_of_mem hrow
    obtain ⟨row', hrow', heq⟩ := List.mem_map.mp hmem
    exact List.mem_map.mpr ⟨row', hrow', congrArg Prod.fst heq⟩

/-- `removeMessage` has nothing to do for the rest: the message is not loaded, or it is the last row and belongs to no
album. -/
def RemovesPlainLast (m : MessagesModel Own) (messageId : Int) : Prop :=
  m.LastOrAbsent messageId ∧ ∀ row ∈ m.messages, row.messageId = messageId → row.mediaAlbumId = 0

instance (m : MessagesModel Own) (messageId : Int) : Decidable (m.RemovesPlainLast messageId) :=
  inferInstanceAs (Decidable (_ ∧ _))

theorem AlbumsKept.removeMessage (h : m.AlbumsKept) {messageId : Int} (hplain : m.RemovesPlainLast messageId) :
    (m.removeMessage messageId).AlbumsKept := by
  obtain ⟨hexact, hsub⟩ := removeMessage_last h.indexExact hplain.1
  refine h.of_slots hexact ?_ (fun row hrow => Or.inl ⟨row, hsub.subset hrow, rfl⟩) fun row hrow hne => ?_
  · rw [MessagesModel.removeMessage]
    cases m.messageIndexMap.value messageId <;> rfl
  · refine (mem_ids_removeMessage h.indexExact messageId _).mpr ⟨List.mem_map_of_mem hrow, fun heq => hne ?_⟩
    exact hplain.2 row hrow heq

/-- The deletion of ids in the order of the list. -/
theorem AlbumsKept.deleteMessages (h : m.AlbumsKept) (messageIds : List Int) :
    (m.deleteMessages messageIds).AlbumsKept := by
  have hdeleted := h.handleMessagesDeleted m.chatId messageIds.reverse
  rwa [MessagesModel.handleMessagesDeleted, if_pos rfl, List.reverse_reverse] at hdeleted

end MessagesModel

open MessagesModel

namespace MediaMessagesModel

variable {m : MediaMessagesModel}

/-! ### The steps of a media model -/

theorem rowsOnly_albumsKept : RowsOnly fun m : MediaMessagesModel => m.AlbumsKept where
  of_eq h _ hrows hindex halbums := h.of_eq hrows hindex halbums
  clear h := h.clear.of_eq rfl rfl rfl

theorem removeMessage_albumsKept (h : m.AlbumsKept) {messageId : Int} (hplain : m.RemovesPlainLast messageId) :
    (removeMessage m messageId).AlbumsKept := by
  have hremoved := h.removeMessage hplain
  rw [removeMessage]
  dsimp only
  split_ifs
  · exact hremoved.of_eq rfl rfl rfl
  · exact hremoved

/-- The album of a message object of TDLib. -/
def mediaAlbumIdOf (message : QVariantMap) : Int := (message.value MEDIA_ALBUM_ID).toLongLong

/-- A new message that becomes a row. -/
def TakesNew (m : MediaMessagesModel) (chatId : Int) (message : QVariantMap) : Prop :=
  m.endReached = true ∧ chatId = m.chatId ∧ m.messageIndexMap.contains (messageIdOf message) = false ∧
    Utilities.messageMatchesSearchFilter message m.own.searchMessagesFilter = true

instance (m : MediaMessagesModel) (chatId : Int) (message : QVariantMap) : Decidable (TakesNew m chatId message) :=
  inferInstanceAs (Decidable (_ ∧ _ ∧ _ ∧ _))

theorem handleNewMessageReceived_albumsKept (h : m.AlbumsKept) {chatId : Int} {message : QVariantMap}
    (hplain : TakesNew m chatId message → mediaAlbumIdOf message = 0) :
    (handleNewMessageReceived m chatId message).AlbumsKept := by
  rw [handleNewMessageReceived]
  dsimp only
  split_ifs with hend htake
  · have hnot := (not_mem_ids_iff h.indexExact _).mp htake.2.1
    have hd : (m.ids ++ [MessageData.create message (messageIdOf message)].map MessageData.messageId).Nodup :=
      h.indexExact.nodup.append (List.nodup_singleton _) (List.disjoint_singleton.mpr hnot)
    refine h.of_added (indexExact_insertMessages (insertsAtEnds m) h.indexExact hd)
      (insertMessages_albumMessageMap (insertsAtEnds m) _) (fun row => mem_insertMessages (insertsAtEnds m)) ?_
    intro row hrow
    obtain rfl := List.mem_singleton.mp hrow
    exact ⟨hplain ⟨hend, htake.1, htake.2.1, htake.2.2⟩, rfl, hnot⟩
  · exact h
  · exact h

theorem insertMessageInOrder_albumsKept (h : m.AlbumsKept) {messageId : Int} {message : QVariantMap}
    (hplain : takesInOrder m messageId = true →
      m.messageIndexMap.contains messageId = false ∧ mediaAlbumIdOf message = 0) :
    (insertMessageInOrder m messageId message).AlbumsKept := by
  have hnot : takesInOrder m messageId = true → messageId ∉ m.ids := fun htakes =>
    (not_mem_ids_iff h.indexExact _).mp (hplain htakes).1
  have hexact := (insertMessageInOrder_rowed h.indexExact message hnot).indexExact
  have hinserted : ∀ m' : MediaMessagesModel, m' = JumpableMessagesModel.insertMessageInOrder m messageId message
      m.own.inverted → m'.IndexExact → m'.AlbumsKept := by
    intro m' heq hexact
    rcases insertMessageInOrder_cases m messageId message m' heq with ⟨-, rfl⟩ | ⟨htakes, hplace⟩
    · exact h
    have hrows : m'.albumMessageMap = m.albumMessageMap ∧ ∀ row, row ∈ m'.messages ↔
        row ∈ m.messages ∨ row ∈ [MessageData.create message messageId] := by
      rcases hplace with (rfl | rfl) | ⟨i, hi, rfl⟩
      · exact ⟨rfl, fun row => List.mem_append⟩
      · exact ⟨rfl, fun row => List.mem_append.trans or_comm⟩
      · obtain ⟨pre, post, hsplit, rfl⟩ := exists_split_of_le hi
        rw [insertMessagesAt_eq m pre post _ hsplit]
        refine ⟨rfl, fun row => ?_⟩
        simp only [hsplit, List.mem_append]
        tauto
    refine h.of_added hexact hrows.1 hrows.2 fun row hrow => ?_
    obtain rfl := List.mem_singleton.mp hrow
    exact ⟨(hplain htakes).2, rfl, hnot htakes⟩
  rw [insertMessageInOrder] at hexact ⊢
  dsimp only at hexact ⊢
  split_ifs at hexact ⊢
  · exact (hinserted _ rfl (by exact hexact)).of_eq rfl rfl rfl
  · exact hinserted _ rfl hexact

/-- The content of a message does not say which album it belongs to. -/
theorem albumSlot_setContent (message : MessageData) (newContent : QVariantMap) :
    albumSlot (message.setContent newContent) = albumSlot message := by
  have halbum : (message.setContent newContent).mediaAlbumId = message.mediaAlbumId := by
    rw [MessageData.mediaAlbumId, MessageData.setContent, QVariantMap.value_insert_of_ne _ _ (by decide)]
    rfl
  rw [albumSlot, halbum]
  rfl

theorem albumSlot_setIsPinned (message : MessageData) (isPinned : Bool) :
    albumSlot (message.setIsPinned isPinned) = albumSlot message := by
  have halbum : (message.setIsPinned isPinned).mediaAlbumId = message.mediaAlbumId := by
    rw [MessageData.mediaAlbumId, MessageData.setIsPinned, QVariantMap.value_insert_of_ne _ _ (by decide)]
    rfl
  rw [albumSlot, halbum]
  rfl

theorem handleMessageContentUpdated_albumsKept (h : m.AlbumsKept) {chatId messageId : Int} {newContent : QVariantMap}
    (hplain : Mismatches m chatId newContent → m.RemovesPlainLast messageId) :
    (handleMessageContentUpdated m chatId messageId newContent).1.AlbumsKept := by
  have hupdated := h.handleMessageFieldUpdated chatId messageId fun message => albumSlot_setContent message newContent
  have hslots := handleMessageFieldUpdated_map m chatId messageId (fun message => message.setContent newContent)
    albumSlot fun message => albumSlot_setContent message newContent
  obtain ⟨messages, heq⟩ := handleMessageFieldUpdated_fst m chatId messageId
    fun message => message.setContent newContent
  change (MessagesModel.handleMessageContentUpdated m chatId messageId newContent).1.AlbumsKept at hupdated
  change (MessagesModel.handleMessageContentUpdated m chatId messageId newContent).1.messages.map albumSlot = _ at hslots
  change (MessagesModel.handleMessageContentUpdated m chatId messageId newContent).1 = _ at heq
  rcases handleMessageContentUpdated_cases h.indexExact chatId messageId newContent _ rfl with
    ⟨-, hresult⟩ | ⟨hmismatch, ⟨-, hresult⟩ | ⟨-, hresult⟩⟩
  · rwa [hresult]
  · rw [hresult]
    refine removeMessage_albumsKept hupdated ?_
    obtain ⟨hlast, hnone⟩ := hplain hmismatch
    rw [heq] at hslots ⊢
    refine ⟨?_, fun row hrow hid => ?_⟩
    · have hlength := congrArg List.length hslots
      simp only [List.length_map] at hlength
      rwa [LastOrAbsent, hlength]
    · have hmem : albumSlot row ∈ m.messages.map albumSlot := hslots ▸ List.mem_map_of_mem hrow
      obtain ⟨old, hold, hslot⟩ := List.mem_map.mp hmem
      obtain ⟨hid', hrest⟩ := Prod.mk.inj hslot
      exact (Prod.mk.inj hrest).1 ▸ hnone old hold (hid'.trans hid)
  · rwa [hresult]

theorem handleMessageIsPinnedUpdated_albumsKept (h : m.AlbumsKept) {chatId messageId : Int} {isPinned : Bool}
    (hplain : m.own.searchMessagesFilter = .pinned → m.chatId = chatId → isPinned = false →
      m.RemovesPlainLast messageId) : (handleMessageIsPinnedUpdated m chatId messageId isPinned).1.AlbumsKept := by
  rw [handleMessageIsPinnedUpdated]
  by_cases hfilter : m.own.searchMessagesFilter = .pinned
  · rw [if_pos hfilter]
    by_cases hchat : m.chatId = chatId
    · rw [if_neg (not_not.mpr hchat)]
      cases isPinned with
      | true => exact h
      | false => exact removeMessage_albumsKept h (hplain hfilter hchat rfl)
    · rw [if_pos hchat]
      exact h
  · rw [if_neg hfilter]
    exact h.handleMessageFieldUpdated chatId messageId fun message => albumSlot_setIsPinned message isPinned

theorem handleMessagesDeleted_albumsKept (h : m.AlbumsKept) (chatId : Int) (messageIds : List Int) :
    (handleMessagesDeleted m chatId messageIds).1.AlbumsKept := by
  rw [handleMessagesDeleted]
  dsimp only
  split_ifs
  · exact h.deleteMessages messageIds
  · exact h
  · exact h.handleMessagesDeleted chatId messageIds

/-- The steps in which the entrances and exits that leave the albums alone have nothing to do for them: a new or
fetched message that becomes a row is not loaded and has no album, and a message that `removeMessage` takes out is the
last row and has no album. A batch lists no message twice. -/
def AlbumStep (m : MediaMessagesModel) : Event → Prop
  | .handleInsertMessages messages => (messages.map messageIdOf).Nodup
  | .foundChatMessagesReceived chatId filter extra messages _ _ =>
      m.chatId = chatId → filter = m.own.searchMessagesFilter →
        (m.waitingFor extra || m.messages.isEmpty) = true → (messages.map messageIdOf).Nodup
  | .newMessageReceived chatId message => TakesNew m chatId message → mediaAlbumIdOf message = 0
  | .messageFetched messageId message =>
      (message.value TYPE_).toStr = TYPE_MESSAGE → takesInOrder m messageId = true →
        m.messageIndexMap.contains messageId = false ∧ mediaAlbumIdOf message = 0
  | .removeMessage messageId => m.RemovesPlainLast messageId
  | .messageContentUpdated chatId messageId newContent =>
      Mismatches m chatId newContent → m.RemovesPlainLast messageId
  | .messageIsPinnedUpdated chatId messageId isPinned =>
      m.own.searchMessagesFilter = .pinned → m.chatId = chatId → isPinned = false → m.RemovesPlainLast messageId
  | _ => True

instance (m : MediaMessagesModel) : ∀ e : Event, Decidable (AlbumStep m e) := by
  rintro (_ | _) <;> dsimp only [AlbumStep] <;> infer_instance

theorem albumsKept_step (m : MediaMessagesModel) (e : Event) (h : m.AlbumsKept) (he : AlbumStep m e) :
    (step m e).AlbumsKept := by
  cases e with
  | handleInsertMessages messages => exact h.handleInsertMessages (insertsAtEnds m) he
  | foundChatMessagesReceived chatId filter extra messages totalCount nextFromMessageId =>
      exact rowsOnly_albumsKept.answer h fun hchat hfilter haccept =>
        h.handleInsertMessages (insertsAtEnds m) (he hchat hfilter haccept)
  | newMessageReceived chatId message => exact handleNewMessageReceived_albumsKept h he
  | messageFetched messageId message =>
      rw [step, handle]
      dsimp only
      split_ifs with htype
      · exact insertMessageInOrder_albumsKept h (he htype)
      · exact h
  | removeMessage messageId => exact removeMessage_albumsKept h he
  | messageContentUpdated chatId messageId newContent => exact handleMessageContentUpdated_albumsKept h he
  | messageIsPinnedUpdated chatId messageId isPinned => exact handleMessageIsPinnedUpdated_albumsKept h he
  | messagesDeleted chatId messageIds => exact handleMessagesDeleted_albumsKept h chatId messageIds
  | _ => exact rowsOnly_albumsKept.call h rfl

theorem albumsKept_run {inverted : Bool} {filter : SearchMessagesFilter} {es : List Event}
    (hes : Along step AlbumStep (new inverted filter) es) : (run step (new inverted filter) es).AlbumsKept :=
  Along.invariant (I := AlbumsKept) albumsKept_step (.empty rfl rfl rfl) hes

/-- Runs that end with the same loaded messages end with the same album roles. -/
def AlbumRolesByMessages : Prop :=
  ∀ inverted filter filter' (es es' : List Event),
    (∀ x, x ∈ (run step (new inverted filter) es).loaded ↔ x ∈ (run step (new inverted filter') es').loaded) →
    AlbumRolesAgree (run step (new inverted filter) es) (run step (new inverted filter') es')

/-- A photo of an album. -/
def albumPhotoOf (chatId messageId albumId : Int) : QVariantMap :=
  albumMessageOf chatId messageId albumId ++ [(CONTENT, .map [(TYPE_, .string MESSAGE_CONTENT_TYPE_PHOTO)])]

end MediaMessagesModel

end YaqtLib
