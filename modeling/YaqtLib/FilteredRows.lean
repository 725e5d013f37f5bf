import YaqtLib.FirstBatch

/-! The rows of a media model and its filter. Messages start and stop matching while they are loaded, through their
content or through their pin; the model removes a row that no longer matches, and fetches a message that it has to
add. -/

namespace YaqtLib

open Containers IndexMap Runs TdConst MessagesModel

/-- With an exact index map `removeMessage` takes out the row of the message. -/
theorem MessagesModel.mem_ids_removeMessage {Own : Type} {m : MessagesModel Own} (hm : m.IndexExact) (messageId : Int)
    (k : Int) : k ∈ (m.removeMessage messageId).ids ↔ k ∈ m.ids ∧ k ≠ messageId := by
  rw [removeMessage]
  cases hvalue : m.messageIndexMap.value messageId with
  | none =>
      refine (and_iff_left_of_imp fun hk heq => ?_).symm
      have hcontains := (contains_iff_mem_ids hm messageId).mpr (heq ▸ hk)
      rw [QHash.contains_iff, hvalue] at hcontains
      obtain ⟨i, hi⟩ := hcontains
      cases hi
  | some index =>
      obtain ⟨pre, row, post, hrows, rfl, hrow, hid⟩ := hm.exists_split hvalue
      have hnodup := hm.nodup
      rw [ids, hrows, List.map_append, List.map_cons, hid, List.nodup_middle, List.nodup_cons, List.mem_append] at hnodup
      dsimp only
      rw [ids, ids, hrows, eraseIdx_append_cons]
      simp only [List.map_append, List.map_cons, List.mem_append, List.mem_cons, hid]
      constructor
      · intro hk
        exact ⟨hk.imp id Or.inr, fun heq => hnodup.1 (heq ▸ hk)⟩
      · rintro ⟨hk | hk | hk, hne⟩
        · exact Or.inl hk
        · exact absurd hk hne
        · exact Or.inr hk

namespace MediaMessagesModel

/-! ### What the operations do to the ids of the rows -/

/-- The filter stays, the index map is exact, and the rows have the ids that `P` names. -/
structure Rowed (m m' : MediaMessagesModel) (P : Int → Prop) : Prop where
  filter : m'.own.searchMessagesFilter = m.own.searchMessagesFilter
  indexExact : m'.IndexExact
  mem_ids : ∀ k, k ∈ m'.ids ↔ P k

variable {m m' : MediaMessagesModel}

theorem Rowed.of_eq {P : Int → Prop} (h : Rowed m m' P) {m'' : MediaMessagesModel}
    (hfilter : m''.own.searchMessagesFilter = m'.own.searchMessagesFilter) (hrows : m''.messages = m'.messages)
    (hindex : m''.messageIndexMap = m'.messageIndexMap) : Rowed m m'' P := by
  refine ⟨hfilter.trans h.filter, ?_, fun k => ?_⟩
  · unfold IndexExact
    rw [hrows, hindex]
    exact h.indexExact
  · rw [ids, hrows]
    exact h.mem_ids k

theorem Rowed.congr {P Q : Int → Prop} (h : Rowed m m' P) (hPQ : ∀ k, P k ↔ Q k) : Rowed m m' Q :=
  ⟨h.filter, h.indexExact, fun k => (h.mem_ids k).trans (hPQ k)⟩

theorem Rowed.refl (hm : m.IndexExact) : Rowed m m (· ∈ m.ids) := ⟨rfl, hm, fun _ => Iff.rfl⟩

theorem updateTotalCount_rowed {P : Int → Prop} (h : Rowed m m' P) (count : Int) :
    Rowed m (updateTotalCount m' count) P := by
  rw [updateTotalCount]
  split_ifs
  · exact h.of_eq rfl rfl rfl
  · exact h

/-- Rows that are added at an end. -/
theorem insertMessages_rowed (hm : m.IndexExact) {newMessages : List MessageData}
    (hd : (m.ids ++ newMessages.map MessageData.messageId).Nodup) :
    Rowed m (m.insertMessages newMessages) fun k => k ∈ m.ids ∨ k ∈ newMessages.map MessageData.messageId :=
  ⟨congrArg MediaMembers.searchMessagesFilter (insertMessages_sameMembers (insertsAtEnds m) newMessages).own,
    indexExact_insertMessages (insertsAtEnds m) hm hd, mem_ids_insertMessages (insertsAtEnds m) newMessages⟩

theorem atEnd_rowed (hm : m.IndexExact) {newMessages : List MessageData}
    (hd : (m.ids ++ newMessages.map MessageData.messageId).Nodup)
    (h : m' = MessagesModel.appendMessages m newMessages ∨ m' = MessagesModel.prependMessages m newMessages) :
    Rowed m m' fun k => k ∈ m.ids ∨ k ∈ newMessages.map MessageData.messageId := by
  rcases h with rfl | rfl
  · refine ⟨rfl, indexExact_appendMessages hm hd, fun k => ?_⟩
    rw [ids, MessagesModel.appendMessages, List.map_append, List.mem_append]
    rfl
  · refine ⟨rfl, indexExact_prependMessages hm hd, fun k => ?_⟩
    rw [ids, MessagesModel.prependMessages, List.map_append, List.mem_append, or_comm]
    rfl

theorem insertMessagesAt_rowed (hm : m.IndexExact) {i : Nat} (hi : i ≤ m.messages.length)
    {newMessages : List MessageData} (hd : (m.ids ++ newMessages.map MessageData.messageId).Nodup) :
    Rowed m (m.insertMessagesAt i newMessages)
      fun k => k ∈ m.ids ∨ k ∈ newMessages.map MessageData.messageId := by
  have hexact := indexExact_insertMessagesAt hm hi hd
  obtain ⟨pre, post, hsplit, rfl⟩ := exists_split_of_le hi
  have heq := insertMessagesAt_eq m pre post newMessages hsplit
  refine ⟨by rw [heq], hexact, fun k => ?_⟩
  rw [heq]
  simp only [ids, hsplit, List.map_append, List.mem_append]
  tauto

/-- Whether a fetched message finds a place: it goes beyond an end that is reached, or before a row. -/
def takesInOrder (m : MediaMessagesModel) (messageId : Int) : Bool :=
  let newest := if m.own.inverted then m.messages.head? else m.messages.getLast?
  let oldest := if m.own.inverted then m.messages.getLast? else m.messages.head?
  match newest, oldest with
  | some newest, some oldest =>
      if newest.messageId < messageId then m.endReached
      else if messageId < oldest.messageId then m.startReached
      else m.messages.any fun row =>
        if m.own.inverted then row.messageId < messageId else messageId < row.messageId
  | _, _ => m.endReached && m.startReached

/-- A fetched message becomes a row exactly if it finds a place. -/
theorem insertMessageInOrder_cases (m : MediaMessagesModel) (messageId : Int) (message : QVariantMap)
    (m' : MediaMessagesModel)
    (h : m' = JumpableMessagesModel.insertMessageInOrder m messageId message m.own.inverted) :
    (takesInOrder m messageId = false ∧ m' = m) ∨
    takesInOrder m messageId = true ∧
      ((m' = MessagesModel.appendMessages m [MessageData.create message messageId] ∨
          m' = MessagesModel.prependMessages m [MessageData.create message messageId]) ∨
        ∃ i : Nat, i ≤ m.messages.length ∧ m' = m.insertMessagesAt i [MessageData.create message messageId]) := by
  have hends := insertsAtEnds m [MessageData.create message messageId]
  have happend := hends.imp And.left And.left
  have hprepend := (hends.imp And.right And.right).symm
  subst h
  rw [takesInOrder, JumpableMessagesModel.insertMessageInOrder]
  generalize (if m.own.inverted = true then m.messages.head? else m.messages.getLast?) = newest
  generalize (if m.own.inverted = true then m.messages.getLast? else m.messages.head?) = oldest
  generalize (fun row : MessageData => if m.own.inverted = true then decide (row.messageId < messageId)
    else decide (messageId < row.messageId)) = past
  have hempty : ∀ m' : MediaMessagesModel, (m' = if m.endReached && m.startReached then
      Virtuals.appendMessages m [MessageData.create message messageId] else m) →
      ((m.endReached && m.startReached) = false ∧ m' = m) ∨ (m.endReached && m.startReached) = true ∧
        ((m' = MessagesModel.appendMessages m [MessageData.create message messageId] ∨
            m' = MessagesModel.prependMessages m [MessageData.create message messageId]) ∨
          ∃ i : Nat, i ≤ m.messages.length ∧
            m' = m.insertMessagesAt i [MessageData.create message messageId]) := by
    rintro m' rfl
    cases hreached : m.endReached && m.startReached with
    | true => exact Or.inr ⟨rfl, Or.inl happend⟩
    | false => exact Or.inl ⟨rfl, rfl⟩
  rcases newest with _ | newest <;> rcases oldest with _ | oldest
  · exact hempty _ rfl
  · exact hempty _ rfl
  · exact hempty _ rfl
  dsimp only
  by_cases hnewer : newest.messageId < messageId
  · rw [if_pos hnewer, if_pos hnewer]
    cases hend : m.endReached with
    | true => exact Or.inr ⟨rfl, Or.inl happend⟩
    | false => exact Or.inl ⟨rfl, rfl⟩
  rw [if_neg hnewer, if_neg hnewer]
  by_cases holder : messageId < oldest.messageId
  · rw [if_pos holder, if_pos holder]
    cases hstart : m.startReached with
    | true => exact Or.inr ⟨rfl, Or.inl hprepend⟩
    | false => exact Or.inl ⟨rfl, rfl⟩
  rw [if_neg holder, if_neg holder]
  cases hfind : m.messages.findIdx? past with
  | none =>
      left
      refine ⟨List.any_eq_false.mpr fun row hrow => ?_, rfl⟩
      rw [List.findIdx?_eq_none_iff.mp hfind row hrow]
      exact Bool.false_ne_true
  | some i =>
      right
      obtain ⟨hi, hpast, -⟩ := List.findIdx?_eq_some_iff_getElem.mp hfind
      exact ⟨List.any_eq_true.mpr ⟨_, List.getElem_mem hi, hpast⟩, Or.inr ⟨i, Nat.le_of_lt hi, rfl⟩⟩

theorem insertMessageInOrder_rowed (hm : m.IndexExact) {messageId : Int} (message : QVariantMap)
    (hnew : takesInOrder m messageId = true → messageId ∉ m.ids) :
    Rowed m (insertMessageInOrder m messageId message)
      fun k => k ∈ m.ids ∨ (k = messageId ∧ takesInOrder m messageId = true) := by
  have hrowed : Rowed m (JumpableMessagesModel.insertMessageInOrder m messageId message m.own.inverted)
      fun k => k ∈ m.ids ∨ (k = messageId ∧ takesInOrder m messageId = true) := by
    rcases insertMessageInOrder_cases m messageId message _ rfl with ⟨hnot, heq⟩ | ⟨htakes, hplace⟩
    · rw [heq]
      refine (Rowed.refl hm).congr fun k => ?_
      rw [hnot]
      simp
    · have hd : (m.ids ++ [MessageData.create message messageId].map MessageData.messageId).Nodup :=
        hm.nodup.append (List.nodup_singleton _) (List.disjoint_singleton.mpr (hnew htakes))
      have hids : ∀ k, (k ∈ m.ids ∨ k ∈ [MessageData.create message messageId].map MessageData.messageId) ↔
          k ∈ m.ids ∨ (k = messageId ∧ takesInOrder m messageId = true) := by
        intro k
        rw [htakes]
        simp
      rcases hplace with hend | ⟨i, hi, heq⟩
      · exact (atEnd_rowed hm hd hend).congr hids
      · rw [heq]
        exact (insertMessagesAt_rowed hm hi hd).congr hids
  rw [insertMessageInOrder]
  dsimp only
  split_ifs
  · exact hrowed.of_eq rfl rfl rfl
  · exact hrowed

/-- The last row is taken out. -/
theorem removeMessage_rowed (hm : m.IndexExact) {messageId : Int} (hlast : m.LastOrAbsent messageId) :
    Rowed m (removeMessage m messageId) fun k => k ∈ m.ids ∧ k ≠ messageId := by
  have hrowed : Rowed m (MessagesModel.removeMessage m messageId) fun k => k ∈ m.ids ∧ k ≠ messageId := by
    refine ⟨congrArg MediaMembers.searchMessagesFilter (removeMessage_sameMembers m messageId).own,
      (removeMessage_last hm hlast).1, mem_ids_removeMessage hm messageId⟩
  rw [removeMessage]
  dsimp only
  split_ifs
  · exact hrowed.of_eq rfl rfl rfl
  · exact hrowed

/-- The ids of the rows after an answer to a search. -/
def idsAfterSearch (m : MediaMessagesModel) (chatId : Int) (filter : SearchMessagesFilter) (extra : UpdateType)
    (messages : List QVariantMap) : List Int :=
  if m.chatId = chatId ∧ filter = m.own.searchMessagesFilter then JumpableMessagesModel.joinedIds m extra messages
  else m.ids

theorem handleMessagesReceived_rowed (hm : m.IndexExact) (chatId : Int) (filter : SearchMessagesFilter)
    (extra : UpdateType) {messages : List QVariantMap} (totalCount nextFromMessageId : Int)
    (hd : m.chatId = chatId → filter = m.own.searchMessagesFilter → (messages.map messageIdOf).Nodup) :
    Rowed m (handleMessagesReceived m chatId filter extra messages totalCount nextFromMessageId).1
      (· ∈ idsAfterSearch m chatId filter extra messages) := by
  rw [handleMessagesReceived, idsAfterSearch]
  split_ifs with haddressed
  · have hrows := JumpableMessagesModel.handleMessagesReceived_rows (preparesFlags m.own) extra messages totalCount
    have hfilter := (stable_filter m.own.searchMessagesFilter).handleMessagesReceived rfl extra messages totalCount
      fun _ => congrArg MediaMembers.searchMessagesFilter (JumpableMessagesModel.handleInsertMessages_own m messages)
    have hexact := JumpableMessagesModel.indexExact_withBatch (insertsAtEnds m) hm extra
      (hd haddressed.1 haddressed.2)
    generalize JumpableMessagesModel.handleMessagesReceived m extra messages totalCount = result at hrows hfilter ⊢
    have hresult : Rowed m result.1 (· ∈ JumpableMessagesModel.joinedIds m extra messages) := by
      refine ⟨hfilter, ?_, fun k => ?_⟩
      · unfold IndexExact
        rw [hrows.rows, hrows.messageIndexMap]
        exact hexact
      · rw [← JumpableMessagesModel.mem_ids_withBatch (insertsAtEnds m) extra messages k, ids, hrows.rows]
        rfl
    have hcursor : Rowed m { result.1 with own := { result.1.own with nextFromMessageId := nextFromMessageId } }
        (· ∈ JumpableMessagesModel.joinedIds m extra messages) := hresult.of_eq rfl rfl rfl
    exact updateTotalCount_rowed hcursor totalCount
  · exact .refl hm

theorem handleNewMessageReceived_rowed (hm : m.IndexExact) (chatId : Int) (message : QVariantMap) :
    Rowed m (handleNewMessageReceived m chatId message) fun k => k ∈ m.ids ∨
      k = messageIdOf message ∧ m.endReached = true ∧ chatId = m.chatId ∧
        Utilities.messageMatchesSearchFilter message m.own.searchMessagesFilter = true := by
  rw [handleNewMessageReceived]
  dsimp only
  split_ifs with hend htake
  · have hnot := (not_mem_ids_iff hm _).mp htake.2.1
    refine (insertMessages_rowed hm ?_).congr fun k => ?_
    · exact hm.nodup.append (List.nodup_singleton _) (List.disjoint_singleton.mpr hnot)
    · simp [htake.1, htake.2.2, hend]
  · refine (Rowed.refl hm).congr fun k => (or_iff_left_of_imp ?_).symm
    rintro ⟨rfl, -, hchat, hmatch⟩
    by_contra hk
    exact htake ⟨hchat, (not_mem_ids_iff hm _).mpr hk, hmatch⟩
  · refine (Rowed.refl hm).congr fun k => (or_iff_left_of_imp ?_).symm
    rintro ⟨-, hreached, -⟩
    exact absurd hreached hend

/-- A content update of the chat whose content the model looks at, and which does not match. -/
def Mismatches (m : MediaMessagesModel) (chatId : Int) (newContent : QVariantMap) : Prop :=
  m.chatId = chatId ∧ filtersByContent m.own.searchMessagesFilter = true ∧
    Utilities.messageContentTypeMatchesSearchFilter (newContent.value TYPE_).toStr m.own.searchMessagesFilter = false

instance (m : MediaMessagesModel) (chatId : Int) (newContent : QVariantMap) :
    Decidable (Mismatches m chatId newContent) :=
  inferInstanceAs (Decidable (_ ∧ _ ∧ _))

theorem setContent_rowed (hm : m.IndexExact) (chatId messageId : Int) (newContent : QVariantMap) :
    Rowed m (MessagesModel.handleMessageContentUpdated m chatId messageId newContent).1 (· ∈ m.ids) := by
  obtain ⟨messages, heq⟩ := handleMessageFieldUpdated_fst m chatId messageId
    fun message => message.setContent newContent
  have hids := handleMessageFieldUpdated_map m chatId messageId (fun message => message.setContent newContent)
    MessageData.messageId fun _ => rfl
  have hkeys := handleMessageFieldUpdated_map m chatId messageId (fun message => message.setContent newContent)
    MessageData.key fun _ => rfl
  rw [MessagesModel.handleMessageContentUpdated]
  rw [heq] at hids hkeys ⊢
  refine ⟨rfl, (indexes_congr hkeys).mpr hm, fun k => ?_⟩
  rw [ids, hids]
  rfl

/-- A content update that mismatches takes out a loaded message, and fetches one that is not loaded. -/
theorem handleMessageContentUpdated_cases (hm : m.IndexExact) (chatId messageId : Int) (newContent : QVariantMap)
    (m' : MediaMessagesModel) (h : m' = (MessagesModel.handleMessageContentUpdated m chatId messageId newContent).1) :
    (¬ Mismatches m chatId newContent ∧ handleMessageContentUpdated m chatId messageId newContent = (m', [])) ∨
    Mismatches m chatId newContent ∧
      ((messageId ∈ m.ids ∧
          handleMessageContentUpdated m chatId messageId newContent = (removeMessage m' messageId, [])) ∨
        messageId ∉ m.ids ∧ handleMessageContentUpdated m chatId messageId newContent =
          (m', [.request (.getMessage m.chatId messageId)])) := by
  have hresult : (m.chatId = chatId ∧ messageId ∈ m.ids ∧ ∃ message : MessageData,
      (MessagesModel.handleMessageContentUpdated m chatId messageId newContent).2 =
        some (message.setContent newContent)) ∨
      ¬ (m.chatId = chatId ∧ messageId ∈ m.ids) ∧
        (MessagesModel.handleMessageContentUpdated m chatId messageId newContent).2 = none := by
    rw [MessagesModel.handleMessageContentUpdated, handleMessageFieldUpdated]
    by_cases hchat : m.chatId = chatId
    swap
    · rw [if_neg hchat]
      exact Or.inr ⟨fun h => hchat h.1, rfl⟩
    rw [if_pos hchat, ← contains_iff_mem_ids hm, QHash.contains_iff]
    cases hvalue : m.messageIndexMap.value messageId with
    | none => exact Or.inr ⟨fun h => by simp at h, rfl⟩
    | some pos =>
        left
        obtain ⟨message, hmessage, -⟩ := Indexes.exists_row hm hvalue
        refine ⟨hchat, ⟨pos, rfl⟩, message, ?_⟩
        dsimp only
        rw [hmessage]
        rfl
  obtain ⟨messages, heq⟩ := handleMessageFieldUpdated_fst m chatId messageId
    fun message => message.setContent newContent
  rw [handleMessageContentUpdated]
  change (MessagesModel.handleMessageContentUpdated m chatId messageId newContent).1 = _ at heq
  generalize MessagesModel.handleMessageContentUpdated m chatId messageId newContent = result at h hresult heq ⊢
  obtain ⟨m₁, message'⟩ := result
  dsimp only at h hresult heq ⊢
  subst h heq
  dsimp only
  by_cases hlooks : m.chatId = chatId ∧ filtersByContent m.own.searchMessagesFilter = true
  swap
  · rw [if_neg hlooks]
    exact Or.inl ⟨fun h => hlooks ⟨h.1, h.2.1⟩, rfl⟩
  rw [if_pos hlooks]
  cases hmatch : Utilities.messageContentTypeMatchesSearchFilter (newContent.value TYPE_).toStr
      m.own.searchMessagesFilter with
  | true =>
      refine Or.inl ⟨fun h => Bool.false_ne_true (h.2.2.symm.trans hmatch), ?_⟩
      rcases hresult with ⟨-, -, message, rfl⟩ | ⟨-, rfl⟩
      · dsimp only
        rw [matches_setContent message newContent hlooks.2, if_pos hmatch]
      · rfl
  | false =>
      refine Or.inr ⟨⟨hlooks.1, hlooks.2, hmatch⟩, ?_⟩
      rcases hresult with ⟨-, hmem, message, rfl⟩ | ⟨hnot, rfl⟩
      · refine Or.inl ⟨hmem, ?_⟩
        dsimp only
        rw [matches_setContent message newContent hlooks.2, hmatch]
        rfl
      · exact Or.inr ⟨fun h => hnot ⟨hlooks.1, h⟩, rfl⟩

theorem handleMessageContentUpdated_rowed (hm : m.IndexExact) {chatId messageId : Int} {newContent : QVariantMap}
    (hlast : Mismatches m chatId newContent → m.LastOrAbsent messageId) :
    Rowed m (handleMessageContentUpdated m chatId messageId newContent).1 fun k => k ∈ m.ids ∧
      ¬ (k = messageId ∧ Mismatches m chatId newContent) := by
  have hset := setContent_rowed hm chatId messageId newContent
  rcases handleMessageContentUpdated_cases hm chatId messageId newContent _ rfl with
    ⟨hnot, heq⟩ | ⟨hmismatch, ⟨hmem, heq⟩ | ⟨hmem, heq⟩⟩
  · rw [heq]
    exact hset.congr fun k => (and_iff_left_of_imp fun _ h => hnot h.2).symm
  · have hlast' : (MessagesModel.handleMessageContentUpdated m chatId messageId newContent).1.LastOrAbsent
        messageId := by
      obtain ⟨messages, hrows⟩ := handleMessageFieldUpdated_fst m chatId messageId
        fun message => message.setContent newContent
      have hids := congrArg List.length (handleMessageFieldUpdated_map m chatId messageId
        (fun message => message.setContent newContent) MessageData.messageId fun _ => rfl)
      rw [MessagesModel.handleMessageContentUpdated]
      rw [hrows, List.length_map, List.length_map] at hids
      rw [hrows, LastOrAbsent, hids]
      exact hlast hmismatch
    have hremoved := removeMessage_rowed hset.indexExact hlast'
    rw [heq]
    refine ⟨hremoved.filter.trans hset.filter, hremoved.indexExact, fun k => ?_⟩
    rw [hremoved.mem_ids, hset.mem_ids, and_iff_left hmismatch]
  · rw [heq]
    refine hset.congr fun k => (and_iff_left_of_imp ?_).symm
    rintro hk ⟨rfl, -⟩
    exact hmem hk

end MediaMessagesModel

end YaqtLib
