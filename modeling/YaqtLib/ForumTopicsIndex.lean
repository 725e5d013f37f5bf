import YaqtLib.ForumTopicsModel
import YaqtLib.Runs

/-! The two index maps of the forum topics: when `topicIndexMap` is exact in every state of a run, and when
`topicLastMessageIdIndexMap` is. -/

namespace YaqtLib

open Containers IndexMap Runs TdConst

namespace ForumTopicsModel

/-! ### What the operations do to the rows -/

theorem newIndexOf_lt {topics : List ForumTopic} {index : Nat} (hindex : index < topics.length) (topic : ForumTopic) :
    newIndexOf topics topic index < topics.length := by
  have hdown : ((topics.drop (index + 1)).takeWhile fun other => !topic.lessThan other).length ≤
      topics.length - (index + 1) := by
    rw [← List.length_drop]
    exact (List.takeWhile_sublist _).length_le
  rw [newIndexOf]
  split_ifs
  · omega
  · omega

theorem pageTopics_perm (newTopics : QVariantList) :
    (pageTopics newTopics).Perm (newTopics.map fun topic => ForumTopic.new topic.toMap) :=
  List.perm_insertionSort _ _

/-- The topic is put before the first row it goes before, and the rows from there on are entered. -/
theorem insertNewTopic_eq (m : ForumTopicsModel) (topic : QVariantMap) : ∃ pre tail, m.topics = pre ++ tail ∧
    m.insertNewTopic topic = { m with
      topics := pre ++ ForumTopic.new topic :: tail
      topicIndexMap := reindex idKey (ForumTopic.new topic :: tail) pre.length m.topicIndexMap
      topicLastMessageIdIndexMap :=
        reindex lastMessageKey (ForumTopic.new topic :: tail) pre.length m.topicLastMessageIdIndexMap } := by
  let pre := m.topics.takeWhile fun other => !(ForumTopic.new topic).lessThan other
  let tail := m.topics.dropWhile fun other => !(ForumTopic.new topic).lessThan other
  have hsplit : m.topics = pre ++ tail := List.takeWhile_append_dropWhile.symm
  have hinsert : m.topics.insertIdx pre.length (ForumTopic.new topic) = pre ++ ForumTopic.new topic :: tail := by
    rw [hsplit]
    exact insertIdx_append_length pre tail _
  refine ⟨pre, tail, hsplit, ?_⟩
  show { m with
    topics := m.topics.insertIdx pre.length (ForumTopic.new topic)
    topicIndexMap := reindex idKey ((m.topics.insertIdx pre.length (ForumTopic.new topic)).drop (pre.length + 1)) _ _
    topicLastMessageIdIndexMap :=
      reindex lastMessageKey ((m.topics.insertIdx pre.length (ForumTopic.new topic)).drop (pre.length + 1)) _ _ } = _
  rw [hinsert, drop_append_cons]
  rfl

/-- The row is taken out, and the rows behind it are entered under their ids in both maps. -/
theorem handleForumTopicNotFound_eq {m : ForumTopicsModel} {forumTopicId : Int} {pre post : List ForumTopic}
    {topic : ForumTopic} (hvalue : m.topicIndexMap.value forumTopicId = some pre.length)
    (htopics : m.topics = pre ++ topic :: post) : m.handleForumTopicNotFound m.chatId forumTopicId = { m with
      topics := pre ++ post
      topicIndexMap := reindex idKey post pre.length (m.topicIndexMap.remove forumTopicId)
      topicLastMessageIdIndexMap :=
        reindex idKey post pre.length (m.topicLastMessageIdIndexMap.remove forumTopicId) } := by
  have herase : m.topics.eraseIdx pre.length = pre ++ post := by
    rw [htopics]
    exact eraseIdx_append_cons pre post topic
  rw [handleForumTopicNotFound, if_pos rfl, hvalue]
  dsimp only
  rw [herase, List.drop_left]

/-- A topic of the chat of the model that the index finds is taken out; else the model stays as it is. -/
theorem handleForumTopicNotFound_of {P : ForumTopicsModel → Prop} {m : ForumTopicsModel}
    (hm : Leads idKey m.topics m.topicIndexMap) (chatId forumTopicId : Int) (hsame : P m)
    (hfound : ∀ pre topic post, m.topics = pre ++ topic :: post → idKey topic = some forumTopicId →
      P { m with
        topics := pre ++ post
        topicIndexMap := reindex idKey post pre.length (m.topicIndexMap.remove forumTopicId)
        topicLastMessageIdIndexMap :=
          reindex idKey post pre.length (m.topicLastMessageIdIndexMap.remove forumTopicId) }) :
    P (m.handleForumTopicNotFound chatId forumTopicId) := by
  by_cases hchat : m.chatId = chatId
  swap
  · rw [handleForumTopicNotFound, if_neg hchat]
    exact hsame
  subst hchat
  cases hvalue : m.topicIndexMap.value forumTopicId with
  | none =>
      rw [handleForumTopicNotFound, if_pos rfl, hvalue]
      exact hsame
  | some pos =>
      obtain ⟨pre, topic, post, htopics, rfl, -, hid⟩ := hm.exists_split hvalue
      rw [handleForumTopicNotFound_eq hvalue htopics]
      exact hfound pre topic post htopics hid

/-- A topic stays in its row, or it moves and `topicIndexMap` alone gets its new row. -/
theorem updateForumTopicOrder_eq {m : ForumTopicsModel} {index : Nat} {topic : ForumTopic}
    (htopic : m.topics[index]? = some topic) :
    m.updateForumTopicOrder index =
      if newIndexOf m.topics topic index = index then m
      else { m with
        topics := move m.topics index (newIndexOf m.topics topic index)
        topicIndexMap := reindexMoved idKey (move m.topics index (newIndexOf m.topics topic index)) index
          (newIndexOf m.topics topic index)
          (reindex idKey [topic] (newIndexOf m.topics topic index) m.topicIndexMap)
        topicLastMessageIdIndexMap := reindexMoved lastMessageKey
          (move m.topics index (newIndexOf m.topics topic index)) index (newIndexOf m.topics topic index)
          m.topicLastMessageIdIndexMap } := by
  rw [updateForumTopicOrder, htopic]
  rfl

theorem moveInRange_newIndexOf {m : ForumTopicsModel} {index : Nat} {topic : ForumTopic}
    (htopic : m.topics[index]? = some topic) :
    MoveInRange m.topics index (newIndexOf m.topics topic index) := by
  have hindex := (List.getElem?_eq_some_iff.mp htopic).1
  exact ⟨hindex, newIndexOf_lt hindex topic⟩

/-! ### Which topic a step updates -/

/-- The row that the event updates in place, and the update. -/
def updateOf (m : ForumTopicsModel) : Event → Option (Nat × TopicUpdate)
  | .forumTopicUpdated chatId forumTopicId update =>
      if m.chatId = chatId then (m.topicIndexMap.value forumTopicId).map fun i => (i, .fromUpdate update) else none
  | .forumTopicInfoUpdated chatId forumTopicId info =>
      if m.chatId = chatId then (m.topicIndexMap.value forumTopicId).map fun i => (i, .info info) else none
  | .newMessageReceived chatId message =>
      let topicId := (message.value TOPIC_ID).toMap
      if m.chatId ≠ chatId ∨ (topicId.value TYPE_).toStr ≠ TYPE_MESSAGE_TOPIC_FORUM then none
      else (m.topicIndexMap.value (topicId.value FORUM_TOPIC_ID).toInt).map fun i => (i, .lastMessage message)
  | .forumTopicReceived topic =>
      let info := (topic.value INFO).toMap
      if m.chatId ≠ (info.value CHAT_ID).toLongLong then none
      else (m.topicIndexMap.value (info.value FORUM_TOPIC_ID).toInt).map fun i => (i, .data topic)
  | .messageContentUpdated chatId messageId content =>
      if m.chatId = chatId then
        (m.topicLastMessageIdIndexMap.value messageId).map fun i => (i, .lastMessageContent content)
      else none
  | .messageSendSucceeded chatId _ messageId message =>
      if m.chatId = chatId then
        (m.topicLastMessageIdIndexMap.value messageId).map fun i => (i, .lastMessage message)
      else none
  | _ => none

/-- What every update does: the topic keeps its id, and the role of the last message's id is reported, with the id
before, exactly if that id changes. -/
structure TopicUpdate.Reports (u : TopicUpdate) : Prop where
  id : ∀ topic, (u.update topic).id = topic.id
  lastMessageId : ∀ topic, .lastMessageId ∈ u.changedRoles topic ↔
    topic.lastMessageId ≠ (u.update topic).lastMessageId
  prevLastMessageId : ∀ topic, topic.lastMessageId ≠ (u.update topic).lastMessageId →
    u.prevLastMessageId topic = topic.lastMessageId

namespace TopicUpdate

theorem lastMessageId_mem_rolesOfLastMessage (topic : ForumTopic) (message : QVariantMap) :
    .lastMessageId ∈ topic.rolesOfLastMessage message ↔ topic.lastMessageId ≠ messageIdOf message := by
  rw [ForumTopic.rolesOfLastMessage]
  split_ifs <;> simp_all

theorem lastMessageId_not_mem_rolesOfForumTopicUpdate (topic : ForumTopic) (update : QVariantMap) :
    .lastMessageId ∉ topic.rolesOfForumTopicUpdate update := by
  rw [ForumTopic.rolesOfForumTopicUpdate]
  split_ifs <;> decide

/-- An update that keeps the last message reports no change of its id. -/
theorem Reports.of_keeps {u : TopicUpdate} (hkeeps : ∀ topic, ForumTopic.KeepsLastMessage topic (u.update topic))
    (hroles : ∀ topic, .lastMessageId ∉ u.changedRoles topic) : u.Reports where
  id topic := (hkeeps topic).id
  lastMessageId topic := iff_of_false (hroles topic) fun h => h (hkeeps topic).lastMessageId.symm
  prevLastMessageId topic h := absurd (hkeeps topic).lastMessageId.symm h

theorem reports_fromUpdate (update : QVariantMap) : (fromUpdate update).Reports :=
  .of_keeps (fun topic => ForumTopic.keepsLastMessage_updateFromForumTopicUpdate topic update)
    fun topic => lastMessageId_not_mem_rolesOfForumTopicUpdate topic update

theorem reports_info (newInfo : QVariantMap) : (info newInfo).Reports :=
  .of_keeps (fun topic => ForumTopic.keepsLastMessage_updateForumTopicInfo topic newInfo)
    fun _ => List.not_mem_nil

theorem reports_lastMessageContent (content : QVariantMap) : (lastMessageContent content).Reports := by
  refine .of_keeps (fun topic => ⟨rfl, topic.lastMessageId_updateLastMessageContent content⟩) fun _ => ?_
  show ForumTopic.Role.lastMessageId ∉ ForumTopic.rolesOfLastMessageContent
  decide

theorem reports_lastMessage (message : QVariantMap) : (lastMessage message).Reports where
  id _ := rfl
  lastMessageId topic := by
    show _ ↔ topic.lastMessageId ≠ (topic.updateLastMessage message).lastMessageId
    rw [ForumTopic.lastMessageId_updateLastMessage]
    exact lastMessageId_mem_rolesOfLastMessage topic message
  prevLastMessageId _ _ := rfl

theorem reports_data (data : QVariantMap) : (TopicUpdate.data data).Reports where
  id topic := topic.id_updateForumTopicData data
  lastMessageId topic := by
    show .lastMessageId ∈ topic.rolesOfForumTopicUpdate data ++ _ ↔
      topic.lastMessageId ≠ (topic.updateForumTopicData data).lastMessageId
    rw [ForumTopic.updateForumTopicData, ForumTopic.lastMessageId_updateLastMessage, List.mem_append,
      or_iff_right (lastMessageId_not_mem_rolesOfForumTopicUpdate topic data)]
    exact lastMessageId_mem_rolesOfLastMessage topic _
  prevLastMessageId _ _ := rfl

end TopicUpdate

/-- The event updates a row that one of the maps names. -/
theorem updateOf_spec {m : ForumTopicsModel} {e : Event} {index : Nat} {u : TopicUpdate}
    (h : m.updateOf e = some (index, u)) : step m e = m.updateTopicAt index u ∧ u.Reports ∧
      ((∃ id, m.topicIndexMap.value id = some index) ∨ ∃ id, m.topicLastMessageIdIndexMap.value id = some index) := by
  cases e with
  | forumTopicUpdated chatId forumTopicId update =>
      rw [updateOf] at h
      split_ifs at h with hchat
      obtain ⟨i, hi, heq⟩ := Option.map_eq_some_iff.mp h
      obtain ⟨rfl, rfl⟩ := Prod.mk.inj heq
      refine ⟨?_, TopicUpdate.reports_fromUpdate update, Or.inl ⟨_, hi⟩⟩
      show m.handleForumTopicUpdated chatId forumTopicId update = _
      rw [handleForumTopicUpdated, if_pos hchat, hi]
  | forumTopicInfoUpdated chatId forumTopicId info =>
      rw [updateOf] at h
      split_ifs at h with hchat
      obtain ⟨i, hi, heq⟩ := Option.map_eq_some_iff.mp h
      obtain ⟨rfl, rfl⟩ := Prod.mk.inj heq
      refine ⟨?_, TopicUpdate.reports_info info, Or.inl ⟨_, hi⟩⟩
      show m.handleForumTopicInfoUpdated chatId forumTopicId info = _
      rw [handleForumTopicInfoUpdated, if_pos hchat, hi]
  | newMessageReceived chatId message =>
      rw [updateOf] at h
      split_ifs at h with hchat
      obtain ⟨i, hi, heq⟩ := Option.map_eq_some_iff.mp h
      obtain ⟨rfl, rfl⟩ := Prod.mk.inj heq
      refine ⟨?_, TopicUpdate.reports_lastMessage message, Or.inl ⟨_, hi⟩⟩
      show (m.handleNewMessageReceived chatId message).1 = _
      rw [handleNewMessageReceived]
      dsimp only
      rw [if_neg hchat, hi]
  | forumTopicReceived topic =>
      rw [updateOf] at h
      split_ifs at h with hchat
      obtain ⟨i, hi, heq⟩ := Option.map_eq_some_iff.mp h
      obtain ⟨rfl, rfl⟩ := Prod.mk.inj heq
      refine ⟨?_, TopicUpdate.reports_data topic, Or.inl ⟨_, hi⟩⟩
      show m.handleForumTopicReceived _ _ topic = _
      rw [handleForumTopicReceived, if_neg hchat, hi]
  | messageContentUpdated chatId messageId content =>
      rw [updateOf] at h
      split_ifs at h with hchat
      obtain ⟨i, hi, heq⟩ := Option.map_eq_some_iff.mp h
      obtain ⟨rfl, rfl⟩ := Prod.mk.inj heq
      refine ⟨?_, TopicUpdate.reports_lastMessageContent content, Or.inr ⟨_, hi⟩⟩
      show m.handleMessageContentUpdated chatId messageId content = _
      rw [handleMessageContentUpdated, if_pos hchat, hi]
  | messageSendSucceeded chatId oldMessageId messageId message =>
      rw [updateOf] at h
      split_ifs at h with hchat
      obtain ⟨i, hi, heq⟩ := Option.map_eq_some_iff.mp h
      obtain ⟨rfl, rfl⟩ := Prod.mk.inj heq
      refine ⟨?_, TopicUpdate.reports_lastMessage message, Or.inr ⟨_, hi⟩⟩
      show m.handleMessageSendSucceeded chatId messageId message = _
      rw [handleMessageSendSucceeded, if_pos hchat, hi]
  | loadMore | reset | forumTopicsReceived | messagesDeleted | forumTopicNotFound => cases h

/-- The rows and the two maps. -/
def rows (m : ForumTopicsModel) : List ForumTopic × QHash Int Nat × QHash Int Nat :=
  (m.topics, m.topicIndexMap, m.topicLastMessageIdIndexMap)

/-- The events that neither add a row nor take one out. -/
def Event.keepsRows : Event → Bool
  | .forumTopicsReceived .. | .forumTopicReceived .. | .forumTopicNotFound .. => false
  | _ => true

theorem rows_step_of_updateOf_eq_none {m : ForumTopicsModel} {e : Event} (h : m.updateOf e = none)
    (he : e.keepsRows = true) : (step m e).rows = m.rows := by
  cases e with
  | loadMore | reset | messagesDeleted => rfl
  | forumTopicUpdated chatId forumTopicId update =>
      show (m.handleForumTopicUpdated chatId forumTopicId update).rows = _
      rw [updateOf] at h
      rw [handleForumTopicUpdated]
      split_ifs at h ⊢
      · rw [Option.map_eq_none_iff.mp h]
      · rfl
  | forumTopicInfoUpdated chatId forumTopicId info =>
      show (m.handleForumTopicInfoUpdated chatId forumTopicId info).rows = _
      rw [updateOf] at h
      rw [handleForumTopicInfoUpdated]
      split_ifs at h ⊢
      · rw [Option.map_eq_none_iff.mp h]
      · rfl
  | newMessageReceived chatId message =>
      show (m.handleNewMessageReceived chatId message).1.rows = _
      rw [updateOf] at h
      rw [handleNewMessageReceived]
      dsimp only
      split_ifs at h ⊢
      · rfl
      · rw [Option.map_eq_none_iff.mp h]
  | messageContentUpdated chatId messageId content =>
      show (m.handleMessageContentUpdated chatId messageId content).rows = _
      rw [updateOf] at h
      rw [handleMessageContentUpdated]
      split_ifs at h ⊢
      · rw [Option.map_eq_none_iff.mp h]
      · rfl
  | messageSendSucceeded chatId oldMessageId messageId message =>
      show (m.handleMessageSendSucceeded chatId messageId message).rows = _
      rw [updateOf] at h
      rw [handleMessageSendSucceeded]
      split_ifs at h ⊢
      · rw [Option.map_eq_none_iff.mp h]
      · rfl
  | forumTopicsReceived | forumTopicReceived | forumTopicNotFound => exact absurd he Bool.false_ne_true

/-- A reply about a topic that is not listed, or for another chat. -/
theorem step_forumTopicReceived_of_updateOf_eq_none {m : ForumTopicsModel} {topic : QVariantMap}
    (h : m.updateOf (.forumTopicReceived topic) = none) : step m (.forumTopicReceived topic) = m ∨
      step m (.forumTopicReceived topic) = m.insertNewTopic topic ∧
        m.topicIndexMap.value (ForumTopic.new topic).id = none := by
  show m.handleForumTopicReceived _ _ topic = m ∨ m.handleForumTopicReceived _ _ topic = _ ∧ _
  rw [updateOf] at h
  rw [handleForumTopicReceived]
  split_ifs at h ⊢
  · exact Or.inl rfl
  · have hvalue := Option.map_eq_none_iff.mp h
    rw [hvalue]
    exact Or.inr ⟨rfl, hvalue⟩

/-! ### The map of the topic ids -/

/-- What an update of a topic in place and a move keep of the rows and `topicIndexMap`. -/
structure Patched (P : List ForumTopic → QHash Int Nat → Prop) : Prop where
  congr : ∀ {rows rows' m}, rows.map idKey = rows'.map idKey → P rows m → P rows' m
  move : ∀ {rows m source target topic}, P rows m → MoveInRange rows source target →
    rows[source]? = some topic →
    P (move rows source target)
      (reindexMoved idKey (Containers.move rows source target) source target (reindex idKey [topic] target m))

theorem patched_indexes : Patched (Indexes idKey) where
  congr h := (indexes_congr h).mp
  move h := h.move

theorem patched_leads : Patched (Leads idKey) where
  congr h := (leads_congr h).mp
  move h := h.move

namespace Patched

variable {P : List ForumTopic → QHash Int Nat → Prop} (hP : Patched P) {m : ForumTopicsModel}
include hP

theorem updateForumTopicOrder (hm : P m.topics m.topicIndexMap) (index : Nat) :
    P (m.updateForumTopicOrder index).topics (m.updateForumTopicOrder index).topicIndexMap := by
  cases htopic : m.topics[index]? with
  | none =>
      rw [ForumTopicsModel.updateForumTopicOrder, htopic]
      exact hm
  | some topic =>
      rw [updateForumTopicOrder_eq htopic]
      split_ifs
      · exact hm
      · exact hP.move hm (moveInRange_newIndexOf htopic) htopic

theorem handleForumTopicRolesChanged (hm : P m.topics m.topicIndexMap) (index : Nat)
    (changedRoles : List ForumTopic.Role) (prevLastMessageId : Int) :
    P (m.handleForumTopicRolesChanged index changedRoles prevLastMessageId).topics
      (m.handleForumTopicRolesChanged index changedRoles prevLastMessageId).topicIndexMap := by
  rw [ForumTopicsModel.handleForumTopicRolesChanged]
  cases m.topics[index]? with
  | none => exact hm
  | some topic =>
      dsimp only
      split_ifs
      · refine hP.updateForumTopicOrder ?_ index
        exact hm
      · exact hP.updateForumTopicOrder hm index
      · exact hm
      · exact hm

theorem updateTopicAt (hm : P m.topics m.topicIndexMap) (index : Nat) {u : TopicUpdate}
    (hu : ∀ topic, (u.update topic).id = topic.id) :
    P (m.updateTopicAt index u).topics (m.updateTopicAt index u).topicIndexMap := by
  rw [ForumTopicsModel.updateTopicAt]
  cases htopic : m.topics[index]? with
  | none => exact hm
  | some topic =>
      refine hP.handleForumTopicRolesChanged ?_ index _ _
      have hkey : idKey (u.update topic) = idKey topic := by rw [idKey, idKey, hu]
      exact hP.congr (map_set_of_eq htopic hkey).symm hm

/-- A step that adds no row and takes none out. -/
theorem step (hm : P m.topics m.topicIndexMap) {e : Event} (h : e.keepsRows = true ∨ (m.updateOf e).isSome) :
    P (step m e).topics (step m e).topicIndexMap := by
  cases hupdate : m.updateOf e with
  | none =>
      rw [hupdate] at h
      have hrows := rows_step_of_updateOf_eq_none hupdate (h.resolve_right nofun)
      rw [rows, rows, Prod.mk.injEq, Prod.mk.injEq] at hrows
      rw [hrows.1, hrows.2.1]
      exact hm
  | some iu =>
      obtain ⟨hstep, hreports, -⟩ := updateOf_spec (u := iu.2) hupdate
      rw [hstep]
      exact hP.updateTopicAt hm iu.1 hreports.id

end Patched

/-- Each topic id occurs in one row at most, and `topicIndexMap` maps exactly the ids of the topics to their rows. -/
def TopicIndexExact (m : ForumTopicsModel) : Prop :=
  (m.topics.map ForumTopic.id).Nodup ∧ Indexes idKey m.topics m.topicIndexMap

theorem keysDistinct_idKey_iff (topics : List ForumTopic) :
    KeysDistinct idKey topics ↔ (topics.map ForumTopic.id).Nodup := by
  rw [keysDistinct_iff_nodup]
  show (topics.filterMap (some ∘ ForumTopic.id)).Nodup ↔ _
  rw [List.filterMap_eq_map]

theorem topicIndexExact_iff (m : ForumTopicsModel) : m.TopicIndexExact ↔ Indexes idKey m.topics m.topicIndexMap := by
  rw [TopicIndexExact, and_iff_right_iff_imp]
  exact fun h => (keysDistinct_idKey_iff _).mp h.keysDistinct

/-- The page brings no topic twice, and none that is listed. -/
def BringsNewTopics (m : ForumTopicsModel) : Event → Prop
  | .forumTopicsReceived chatId newTopics _ _ _ => m.chatId = chatId →
      (m.topics.map ForumTopic.id ++ newTopics.map fun topic => (ForumTopic.new topic.toMap).id).Nodup
  | _ => True

instance (m : ForumTopicsModel) : ∀ e, Decidable (m.BringsNewTopics e)
  | .forumTopicsReceived chatId _ _ _ _ => inferInstanceAs (Decidable (m.chatId = chatId → _))
  | .loadMore | .reset | .forumTopicUpdated .. | .forumTopicInfoUpdated .. | .newMessageReceived ..
  | .forumTopicReceived .. | .messageContentUpdated .. | .messageSendSucceeded .. | .messagesDeleted ..
  | .forumTopicNotFound .. => isTrue trivial

theorem keysDistinct_page_iff (topics : List ForumTopic) (newTopics : QVariantList) :
    KeysDistinct idKey (topics ++ pageTopics newTopics) ↔
      (topics.map ForumTopic.id ++ newTopics.map fun topic => (ForumTopic.new topic.toMap).id).Nodup := by
  have hperm := ((pageTopics_perm newTopics).append_left topics).map ForumTopic.id
  rw [keysDistinct_idKey_iff, hperm.nodup_iff, List.map_append, List.map_map]
  rfl

theorem indexes_handleForumTopicsReceived_iff {m : ForumTopicsModel} (hm : Indexes idKey m.topics m.topicIndexMap)
    (chatId : Int) (newTopics : QVariantList) (nextOffsetDate nextOffsetMessageId nextOffsetForumTopicId : Int) :
    Indexes idKey
        (m.handleForumTopicsReceived chatId newTopics nextOffsetDate nextOffsetMessageId nextOffsetForumTopicId).topics
        (m.handleForumTopicsReceived chatId newTopics nextOffsetDate nextOffsetMessageId
          nextOffsetForumTopicId).topicIndexMap ↔
      (m.chatId = chatId →
        (m.topics.map ForumTopic.id ++ newTopics.map fun topic => (ForumTopic.new topic.toMap).id).Nodup) := by
  rw [handleForumTopicsReceived, ← keysDistinct_page_iff]
  by_cases hchat : m.chatId = chatId
  swap
  · rw [if_neg hchat]
    exact iff_of_true hm fun h => absurd h hchat
  rw [if_pos hchat, imp_iff_right hchat]
  by_cases hempty : newTopics.isEmpty = true
  · rw [if_pos hempty]
    obtain rfl : newTopics = [] := List.isEmpty_iff.mp hempty
    refine iff_of_true hm ?_
    rw [pageTopics, List.map_nil, List.insertionSort_nil, List.append_nil]
    exact hm.keysDistinct
  · rw [if_neg hempty]
    exact ⟨fun h => h.keysDistinct, hm.append⟩

theorem indexes_insertNewTopic {m : ForumTopicsModel} (hm : Indexes idKey m.topics m.topicIndexMap)
    {topic : QVariantMap} (hnew : m.topicIndexMap.value (ForumTopic.new topic).id = none) :
    Indexes idKey (m.insertNewTopic topic).topics (m.insertNewTopic topic).topicIndexMap := by
  obtain ⟨pre, tail, htopics, heq⟩ := insertNewTopic_eq m topic
  have habsent : ∀ r ∈ pre ++ tail, idKey r ≠ some (ForumTopic.new topic).id := by
    rw [← htopics]
    exact (hm.value_eq_none_iff _).mp hnew
  rw [heq]
  rw [htopics] at hm
  exact hm.insert (hm.keysDistinct.insert rfl habsent)

theorem indexes_handleForumTopicNotFound {m : ForumTopicsModel} (hm : Indexes idKey m.topics m.topicIndexMap)
    (chatId forumTopicId : Int) :
    Indexes idKey (m.handleForumTopicNotFound chatId forumTopicId).topics
      (m.handleForumTopicNotFound chatId forumTopicId).topicIndexMap := by
  refine handleForumTopicNotFound_of (P := fun m => Indexes idKey m.topics m.topicIndexMap) hm.leads chatId
    forumTopicId hm fun pre topic post htopics hid => ?_
  rw [htopics] at hm
  exact hm.erase hid

/-- **Step lemma.** Exactly if a page brings topics that are new, a step keeps the index of the topics exact. -/
theorem indexes_step_iff {m : ForumTopicsModel} (hm : Indexes idKey m.topics m.topicIndexMap) (e : Event) :
    Indexes idKey (step m e).topics (step m e).topicIndexMap ↔ m.BringsNewTopics e := by
  cases e with
  | forumTopicsReceived chatId newTopics nextOffsetDate nextOffsetMessageId nextOffsetForumTopicId =>
      exact indexes_handleForumTopicsReceived_iff hm chatId newTopics _ _ _
  | forumTopicReceived topic =>
      refine iff_of_true ?_ trivial
      cases hupdate : m.updateOf (.forumTopicReceived topic) with
      | none =>
          rcases step_forumTopicReceived_of_updateOf_eq_none hupdate with hstep | ⟨hstep, hnew⟩
          · rw [hstep]
            exact hm
          · rw [hstep]
            exact indexes_insertNewTopic hm hnew
      | some iu => exact patched_indexes.step hm (Or.inr (by rw [hupdate]; rfl))
  | forumTopicNotFound chatId forumTopicId =>
      exact iff_of_true (indexes_handleForumTopicNotFound hm chatId forumTopicId) trivial
  | loadMore | reset | forumTopicUpdated | forumTopicInfoUpdated | newMessageReceived | messageContentUpdated
  | messageSendSucceeded | messagesDeleted => exact iff_of_true (patched_indexes.step hm (Or.inl rfl)) trivial

/-- Topics are listed once each, and `topicIndexMap` is exact, in every state of a run exactly if each page of the
run brings topics that are not listed, and none of them twice. -/
theorem topicIndexExact_iff_bringsNewTopics (chatId : Int) (es : List Event) :
    (∀ es', es' <+: es → TopicIndexExact (run step (new chatId) es')) ↔
      Along step BringsNewTopics (new chatId) es := by
  refine Along.always_iff (J := fun _ => True) (fun _ _ _ => trivial) (fun m e _ hm => ?_) trivial ?_ es
  · rw [topicIndexExact_iff] at hm ⊢
    exact indexes_step_iff hm e
  · exact (topicIndexExact_iff _).mpr .empty

/-- A message of a topic, with nothing but its ids. -/
def topicMessageOf (chatId topicId messageId : Int) : QVariantMap :=
  (messageOf chatId messageId).insert TOPIC_ID
    (.map [(TYPE_, .string TYPE_MESSAGE_TOPIC_FORUM), (FORUM_TOPIC_ID, .longLong topicId)])

/-- A topic, with nothing but its ids and its last message. -/
def topicOf (chatId topicId lastMessageId : Int) : QVariantMap :=
  [(INFO, .map [(CHAT_ID, .longLong chatId), (FORUM_TOPIC_ID, .longLong topicId)]),
    (LAST_MESSAGE, .map (topicMessageOf chatId topicId lastMessageId))]

/-- A topic is asked for because of a new message, and comes a second time with the next page. -/
theorem not_topicIndexExact :
    ¬ TopicIndexExact (run step (new 7)
      [.forumTopicsReceived 7 [.map (topicOf 7 1 10)] 5 10 1, .loadMore,
        .newMessageReceived 7 (topicMessageOf 7 2 11), .forumTopicReceived (topicOf 7 2 11),
        .forumTopicsReceived 7 [.map (topicOf 7 2 11)] 4 11 2]) :=
  fun h => absurd h.1 (by decide)

end ForumTopicsModel

end YaqtLib
