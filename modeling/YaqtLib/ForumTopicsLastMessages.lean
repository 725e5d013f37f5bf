import YaqtLib.ForumTopicsIndex

/-! The index map of the last messages of forum topics: which updates and removals keep it exact, and what follows
for the updates of a last message. -/

namespace YaqtLib

open Containers IndexMap Runs TdConst

namespace ForumTopicsModel

/-! ### What the map is for -/

/-- The map holds exactly the ids of the last messages, with the rows of their topics. -/
def LastMessageIndexExact (m : ForumTopicsModel) : Prop :=
  Indexes lastMessageKey m.topics m.topicLastMessageIdIndexMap

/-- The row of the topic whose last message has this id. -/
def rowOfLastMessage (m : ForumTopicsModel) (messageId : Int) : Option Nat :=
  m.topics.findIdx? fun topic => topic.lastMessageId = messageId

/-- The update of a row, if there is one. -/
def updateTopic? (m : ForumTopicsModel) (row : Option Nat) (u : TopicUpdate) : ForumTopicsModel :=
  match row with
  | none => m
  | some index => m.updateTopicAt index u

/-- What is handled for a message concerns the topic whose last message it is, and no other. -/
structure ActsOnLastMessage (m : ForumTopicsModel) : Prop where
  contentUpdated : ∀ messageId content, m.handleMessageContentUpdated m.chatId messageId content =
    m.updateTopic? (m.rowOfLastMessage messageId) (.lastMessageContent content)
  sendSucceeded : ∀ messageId message, m.handleMessageSendSucceeded m.chatId messageId message =
    m.updateTopic? (m.rowOfLastMessage messageId) (.lastMessage message)
  deleted : ∀ messageIds, m.handleMessagesDeleted m.chatId messageIds = messageIds.filterMap fun messageId =>
    (m.topics.find? fun topic => topic.lastMessageId = messageId).map fun topic => .getForumTopic m.chatId topic.id

theorem LastMessageIndexExact.value_eq {m : ForumTopicsModel} (h : m.LastMessageIndexExact) (messageId : Int) :
    m.topicLastMessageIdIndexMap.value messageId = m.rowOfLastMessage messageId := by
  rw [h.value_eq_findIdx?, rowOfLastMessage]
  congr 1
  funext topic
  exact decide_eq_decide.mpr (Option.some_inj)

theorem LastMessageIndexExact.actsOnLastMessage {m : ForumTopicsModel} (h : m.LastMessageIndexExact) :
    m.ActsOnLastMessage where
  contentUpdated messageId content := by
    rw [handleMessageContentUpdated, if_pos rfl, h.value_eq]
    rfl
  sendSucceeded messageId message := by
    rw [handleMessageSendSucceeded, if_pos rfl, h.value_eq]
    rfl
  deleted messageIds := by
    rw [handleMessagesDeleted, if_pos rfl]
    congr 1
    funext messageId
    rw [h.value_eq, rowOfLastMessage, List.find?_eq_bind_findIdx?_getElem?]
    cases m.topics.findIdx? fun topic => topic.lastMessageId = messageId with
    | none => rfl
    | some index => cases hrow : m.topics[index]? with
      | none => simp [hrow]
      | some topic => simp [hrow]

/-! ### The topics of the runs -/

/-- The listed topics have last messages, and different ones. -/
def LastMessagesDistinct (m : ForumTopicsModel) : Prop :=
  (m.topics.map ForumTopic.lastMessageId).Nodup ∧ ∀ topic ∈ m.topics, topic.lastMessageId ≠ 0

instance (m : ForumTopicsModel) : Decidable m.LastMessagesDistinct := inferInstanceAs (Decidable (_ ∧ _))

theorem keysDistinct_lastMessageKey_iff (topics : List ForumTopic) :
    KeysDistinct lastMessageKey topics ↔ (topics.map ForumTopic.lastMessageId).Nodup := by
  rw [keysDistinct_iff_nodup]
  show (topics.filterMap (some ∘ ForumTopic.lastMessageId)).Nodup ↔ _
  rw [List.filterMap_eq_map]

/-- The ids that `topicIndexMap` holds lead to their topics, which have last messages. -/
structure Kept (m : ForumTopicsModel) : Prop where
  leads : Leads idKey m.topics m.topicIndexMap
  hasLastMessage : ∀ topic ∈ m.topics, topic.lastMessageId ≠ 0

theorem leads_handleForumTopicNotFound {m : ForumTopicsModel} (hm : Leads idKey m.topics m.topicIndexMap)
    (chatId forumTopicId : Int) :
    Leads idKey (m.handleForumTopicNotFound chatId forumTopicId).topics
      (m.handleForumTopicNotFound chatId forumTopicId).topicIndexMap := by
  refine handleForumTopicNotFound_of (P := fun m => Leads idKey m.topics m.topicIndexMap) hm chatId forumTopicId hm
    fun pre topic post htopics hid => ?_
  rw [htopics] at hm
  exact hm.erase hid

theorem leads_insertNewTopic {m : ForumTopicsModel} (hm : Leads idKey m.topics m.topicIndexMap)
    (topic : QVariantMap) :
    Leads idKey (m.insertNewTopic topic).topics (m.insertNewTopic topic).topicIndexMap := by
  obtain ⟨pre, tail, htopics, heq⟩ := insertNewTopic_eq m topic
  rw [heq]
  rw [htopics] at hm
  exact hm.insert (ForumTopic.new topic)

theorem leads_step {m : ForumTopicsModel} (hm : Leads idKey m.topics m.topicIndexMap) (e : Event) :
    Leads idKey (step m e).topics (step m e).topicIndexMap := by
  cases e with
  | forumTopicsReceived chatId newTopics nextOffsetDate nextOffsetMessageId nextOffsetForumTopicId =>
      show Leads idKey (m.handleForumTopicsReceived chatId newTopics _ _ _).topics
        (m.handleForumTopicsReceived chatId newTopics _ _ _).topicIndexMap
      rw [handleForumTopicsReceived]
      split_ifs
      · exact hm
      · exact hm.append
      · exact hm
  | forumTopicReceived topic =>
      cases hupdate : m.updateOf (.forumTopicReceived topic) with
      | none =>
          rcases step_forumTopicReceived_of_updateOf_eq_none hupdate with hstep | ⟨hstep, -⟩
          · rw [hstep]
            exact hm
          · rw [hstep]
            exact leads_insertNewTopic hm topic
      | some iu => exact patched_leads.step hm (Or.inr (by rw [hupdate]; rfl))
  | forumTopicNotFound chatId forumTopicId => exact leads_handleForumTopicNotFound hm chatId forumTopicId
  | loadMore | reset | forumTopicUpdated | forumTopicInfoUpdated | newMessageReceived | messageContentUpdated
  | messageSendSucceeded | messagesDeleted => exact patched_leads.step hm (Or.inl rfl)

/-! ### An update in place -/

/-- The topic of this row goes neither before the row above nor behind the one below. -/
def KeepsPlace (topics : List ForumTopic) (topic : ForumTopic) (index : Nat) : Prop :=
  (∀ other ∈ (topics.take index).getLast?, topic.lessThan other = false) ∧
    ∀ other ∈ topics[index + 1]?, topic.lessThan other = true

theorem length_takeWhile_eq_zero_iff (l : List ForumTopic) (p : ForumTopic → Bool) :
    (l.takeWhile p).length = 0 ↔ ∀ other ∈ l.head?, p other = false := by
  rw [List.length_eq_zero_iff]
  cases l with
  | nil => simp
  | cons other l =>
      rw [List.takeWhile_cons, List.head?_cons]
      cases h : p other with
      | false => simp [h]
      | true => simp [h]

theorem newIndexOf_eq_self_iff (topics : List ForumTopic) (topic : ForumTopic) (index : Nat) :
    newIndexOf topics topic index = index ↔ KeepsPlace topics topic index := by
  have hup : ((topics.take index).reverse.takeWhile fun other => topic.lessThan other).length ≤ index := by
    refine (List.takeWhile_sublist _).length_le.trans ?_
    rw [List.length_reverse]
    exact List.length_take_le index topics
  have habove := length_takeWhile_eq_zero_iff (topics.take index).reverse fun other => topic.lessThan other
  have hbelow := length_takeWhile_eq_zero_iff (topics.drop (index + 1)) fun other => !topic.lessThan other
  rw [List.head?_reverse] at habove
  rw [List.head?_drop] at hbelow
  simp only [Bool.not_eq_false'] at hbelow
  rw [KeepsPlace, ← habove, ← hbelow, newIndexOf]
  split_ifs with hstays
  · omega
  · omega

/-- A topic whose entry is right, or that has none, must keep its row. -/
theorem updateForumTopicOrder_exact_iff {m : ForumTopicsModel} {index : Nat} {topic : ForumTopic}
    (htopic : m.topics[index]? = some topic) (hd : (m.topics.map ForumTopic.lastMessageId).Nodup)
    (hvalue : m.topicLastMessageIdIndexMap.value topic.lastMessageId = some index ∨
      m.topicLastMessageIdIndexMap.value topic.lastMessageId = none) :
    (m.updateForumTopicOrder index).LastMessageIndexExact ↔
      m.LastMessageIndexExact ∧ KeepsPlace m.topics topic index := by
  rw [updateForumTopicOrder_eq htopic, ← newIndexOf_eq_self_iff m.topics topic index]
  split_ifs with hstays
  · rw [and_iff_left hstays]
  · refine iff_of_false (fun h => ?_) fun h => hstays h.2
    have hd' := (keysDistinct_lastMessageKey_iff _).mpr hd
    have hnew := value_of_indexes_reindexMoved hd' (moveInRange_newIndexOf htopic) htopic rfl h
    rcases hvalue with hvalue | hvalue
    · rw [hvalue] at hnew
      exact hstays (Option.some.inj hnew).symm
    · rw [hvalue] at hnew
      cases hnew

/-- The roles for which the order of the rows is restored. -/
def TopicUpdate.Reorders (u : TopicUpdate) (topic : ForumTopic) : Prop :=
  .isPinned ∈ u.changedRoles topic ∨ .lastMessageDate ∈ u.changedRoles topic ∨
    .draftMessageDate ∈ u.changedRoles topic ∨ .lastMessageId ∈ u.changedRoles topic

instance (u : TopicUpdate) (topic : ForumTopic) : Decidable (u.Reorders topic) :=
  inferInstanceAs (Decidable (_ ∨ _))

/-- The topic keeps its last message, or it gets one with the id of the topic, and it keeps its place. -/
def KeepsLastMessageRow (m : ForumTopicsModel) (index : Nat) (u : TopicUpdate) (topic : ForumTopic) : Prop :=
  ((u.update topic).lastMessageId = topic.lastMessageId ∨ (u.update topic).lastMessageId = topic.id) ∧
    (u.Reorders topic → KeepsPlace (m.topics.set index (u.update topic)) (u.update topic) index)

theorem topics_updateForumTopicOrder_perm (m : ForumTopicsModel) (index : Nat) :
    (m.updateForumTopicOrder index).topics.Perm m.topics := by
  cases htopic : m.topics[index]? with
  | none =>
      rw [updateForumTopicOrder, htopic]
  | some topic =>
      rw [updateForumTopicOrder_eq htopic]
      split_ifs
      · exact .refl _
      · exact move_perm _ _ _

theorem topics_updateTopicAt_perm {m : ForumTopicsModel} {index : Nat} {topic : ForumTopic}
    (htopic : m.topics[index]? = some topic) (u : TopicUpdate) :
    (m.updateTopicAt index u).topics.Perm (m.topics.set index (u.update topic)) := by
  rw [updateTopicAt, htopic]
  dsimp only
  rw [handleForumTopicRolesChanged]
  cases (m.topics.set index (u.update topic))[index]? with
  | none => exact .refl _
  | some topic' =>
      dsimp only
      split_ifs
      · exact topics_updateForumTopicOrder_perm _ index
      · exact topics_updateForumTopicOrder_perm _ index
      · exact .refl _
      · exact .refl _

/-- The map after an update of the topic of a row, before the order of the rows is restored. -/
def changedLastMessage (m : ForumTopicsModel) (index : Nat) (u : TopicUpdate) (topic : ForumTopic) : QHash Int Nat :=
  if topic.lastMessageId = (u.update topic).lastMessageId then m.topicLastMessageIdIndexMap
  else (m.topicLastMessageIdIndexMap.remove topic.lastMessageId).insert topic.id index

theorem updateTopicAt_eq {m : ForumTopicsModel} {index : Nat} {topic : ForumTopic}
    (htopic : m.topics[index]? = some topic) (hlast : topic.lastMessageId ≠ 0) {u : TopicUpdate} (hu : u.Reports) :
    m.updateTopicAt index u =
      let changed := { m with
        topics := m.topics.set index (u.update topic)
        topicLastMessageIdIndexMap := m.changedLastMessage index u topic }
      if u.Reorders topic then changed.updateForumTopicOrder index else changed := by
  have hlt := (List.getElem?_eq_some_iff.mp htopic).1
  have htopic' : (m.topics.set index (u.update topic))[index]? = some (u.update topic) := by
    rw [List.getElem?_set, if_pos rfl, if_pos hlt]
  rw [updateTopicAt, htopic]
  dsimp only
  rw [handleForumTopicRolesChanged, htopic']
  dsimp only
  rw [changedLastMessage]
  by_cases hid : topic.lastMessageId = (u.update topic).lastMessageId
  · have hkeeps : ¬(u.prevLastMessageId topic ≠ 0 ∧ .lastMessageId ∈ u.changedRoles topic) :=
      fun h => (hu.lastMessageId topic).mp h.2 hid
    rw [if_pos hid, if_neg hkeeps]
    rfl
  · have hprev := hu.prevLastMessageId topic hid
    have hchanges : u.prevLastMessageId topic ≠ 0 ∧ .lastMessageId ∈ u.changedRoles topic :=
      ⟨hprev.symm ▸ hlast, (hu.lastMessageId topic).mpr hid⟩
    rw [if_neg hid, if_pos hchanges, hprev, hu.id topic]
    rfl

/-- **Update lemma.** The topic of one row is updated. -/
theorem updateTopicAt_exact_iff {m : ForumTopicsModel} (hm : m.LastMessageIndexExact) {index : Nat}
    {topic : ForumTopic} (htopic : m.topics[index]? = some topic) (hlast : topic.lastMessageId ≠ 0)
    {u : TopicUpdate} (hu : u.Reports)
    (hd : ((m.updateTopicAt index u).topics.map ForumTopic.lastMessageId).Nodup) :
    (m.updateTopicAt index u).LastMessageIndexExact ↔ m.KeepsLastMessageRow index u topic := by
  have hlt := (List.getElem?_eq_some_iff.mp htopic).1
  have htopic' : (m.topics.set index (u.update topic))[index]? = some (u.update topic) := by
    rw [List.getElem?_set, if_pos rfl, if_pos hlt]
  replace hd := (((topics_updateTopicAt_perm htopic u).map ForumTopic.lastMessageId).nodup_iff).mp hd
  have hd' := (keysDistinct_lastMessageKey_iff _).mpr hd
  rw [updateTopicAt_eq htopic hlast hu, KeepsLastMessageRow]
  have hchanged : LastMessageIndexExact { m with
      topics := m.topics.set index (u.update topic)
      topicLastMessageIdIndexMap := m.changedLastMessage index u topic } ↔
      (u.update topic).lastMessageId = topic.lastMessageId ∨ (u.update topic).lastMessageId = topic.id := by
    by_cases hid : topic.lastMessageId = (u.update topic).lastMessageId
    · rw [changedLastMessage, if_pos hid]
      refine iff_of_true ((indexes_congr (map_set_of_eq htopic ?_)).mpr hm) (Or.inl hid.symm)
      rw [lastMessageKey, lastMessageKey, hid]
    · rw [changedLastMessage, if_neg hid, or_iff_right (Ne.symm hid)]
      exact hm.replace_iff htopic rfl rfl hid hd' topic.id
  have hvalue : (m.changedLastMessage index u topic).value (u.update topic).lastMessageId = some index ∨
      (m.changedLastMessage index u topic).value (u.update topic).lastMessageId = none := by
    rw [changedLastMessage]
    split_ifs with hid
    · rw [← hid]
      exact Or.inl (hm.value_of_getElem htopic rfl)
    · have hnone := hm.value_of_replace htopic rfl rfl hid hd'
      rw [QHash.value_insert, QHash.value_remove_of_ne _ (Ne.symm hid), hnone]
      split_ifs
      · exact Or.inl rfl
      · exact Or.inr rfl
  split_ifs with hreorders
  · rw [updateForumTopicOrder_exact_iff htopic' hd hvalue, hchanged, imp_iff_right hreorders]
  · rw [hchanged, and_iff_left fun h => absurd h hreorders]

/-! ### Rows that are added and taken out -/

theorem handleForumTopicsReceived_exact {m : ForumTopicsModel} (hm : m.LastMessageIndexExact) (chatId : Int)
    (newTopics : QVariantList) (nextOffsetDate nextOffsetMessageId nextOffsetForumTopicId : Int)
    (hd : ((m.handleForumTopicsReceived chatId newTopics nextOffsetDate nextOffsetMessageId
      nextOffsetForumTopicId).topics.map ForumTopic.lastMessageId).Nodup) :
    (m.handleForumTopicsReceived chatId newTopics nextOffsetDate nextOffsetMessageId
      nextOffsetForumTopicId).LastMessageIndexExact := by
  rw [← keysDistinct_lastMessageKey_iff, handleForumTopicsReceived] at hd
  rw [handleForumTopicsReceived]
  split_ifs at hd ⊢
  · exact hm
  · exact Indexes.append hm hd
  · exact hm

theorem insertNewTopic_exact {m : ForumTopicsModel} (hm : m.LastMessageIndexExact) (topic : QVariantMap)
    (hd : ((m.insertNewTopic topic).topics.map ForumTopic.lastMessageId).Nodup) :
    (m.insertNewTopic topic).LastMessageIndexExact := by
  obtain ⟨pre, tail, htopics, heq⟩ := insertNewTopic_eq m topic
  rw [← keysDistinct_lastMessageKey_iff] at hd
  rw [heq] at hd ⊢
  rw [LastMessageIndexExact, htopics] at hm
  exact hm.insert hd

/-- The rows from the one taken out on must have topics with the ids of their last messages. -/
theorem indexes_remove_iff {pre post : List ForumTopic} {topic : ForumTopic} {index : QHash Int Nat}
    (hm : Indexes lastMessageKey (pre ++ topic :: post) index) :
    Indexes lastMessageKey (pre ++ post) (reindex idKey post pre.length (index.remove topic.id)) ↔
      ∀ other ∈ topic :: post, other.lastMessageId = other.id := by
  have hd := (keysDistinct_append.mp hm.keysDistinct).2
  have htopic : (pre ++ topic :: post)[pre.length]? = some topic := by simp
  constructor
  · intro hnew
    refine List.forall_mem_cons.mpr ⟨?_, fun other hother => ?_⟩
    · have hnone : (reindex idKey post pre.length (index.remove topic.id)).value topic.lastMessageId = none := by
        rw [hnew.value_eq_none_iff]
        intro r hr hrk
        rcases List.mem_append.mp hr with hr | hr
        · exact hd.2 r hr topic (List.mem_cons_self ..) _ hrk rfl
        · exact (List.pairwise_cons.mp hd.1).1 r hr _ rfl hrk
      have hremoved := ((value_reindex_eq_none_iff _ _).mp hnone).1
      rw [QHash.value_remove, hm.value_of_getElem htopic rfl] at hremoved
      split_ifs at hremoved with heq
      exact heq
    · obtain ⟨j, hj⟩ := List.mem_iff_getElem?.mp hother
      have hrow : (pre ++ post)[pre.length + j]? = some other := by
        rw [List.getElem?_append_right (by omega), Nat.add_sub_cancel_left, hj]
      rcases value_reindex_eq_some (hnew.value_of_getElem hrow rfl) with ⟨j', r, hj', hr, heq⟩ | ⟨hvalue, -⟩
      · obtain rfl : j = j' := by omega
        obtain rfl := Option.some.inj (hj.symm.trans hj')
        exact (Option.some.inj hr).symm
      · -- the entry from before leads to the row one below
        have hold : (pre ++ topic :: post)[pre.length + (j + 1)]? = some other := by
          rw [List.getElem?_append_right (by omega), Nat.add_sub_cancel_left, List.getElem?_cons_succ, hj]
        rw [QHash.value_remove, hm.value_of_getElem hold rfl] at hvalue
        split_ifs at hvalue
        exact absurd (Option.some.inj hvalue) (by omega)
  · intro hids
    have hkeys : ∀ other ∈ topic :: post, idKey other = lastMessageKey other := by
      intro other hother
      rw [idKey, lastMessageKey, hids other hother]
    rw [reindex_congr fun other hother => hkeys other (List.mem_cons_of_mem topic hother)]
    refine hm.erase ?_
    rw [← hkeys topic List.mem_cons_self, idKey]

theorem handleForumTopicNotFound_exact_iff {m : ForumTopicsModel} (hm : m.LastMessageIndexExact)
    (hleads : Leads idKey m.topics m.topicIndexMap) (chatId forumTopicId : Int) :
    (m.handleForumTopicNotFound chatId forumTopicId).LastMessageIndexExact ↔
      (m.chatId = chatId → ∀ pos ∈ m.topicIndexMap.value forumTopicId, ∀ topic ∈ m.topics.drop pos,
        topic.lastMessageId = topic.id) := by
  by_cases hchat : m.chatId = chatId
  swap
  · rw [handleForumTopicNotFound, if_neg hchat]
    exact iff_of_true hm fun h => absurd h hchat
  subst hchat
  rw [imp_iff_right rfl]
  cases hvalue : m.topicIndexMap.value forumTopicId with
  | none =>
      rw [handleForumTopicNotFound, if_pos rfl, hvalue]
      exact iff_of_true hm (by rintro _ ⟨⟩)
  | some pos =>
      obtain ⟨pre, topic, post, htopics, rfl, -, hid⟩ := hleads.exists_split hvalue
      rw [handleForumTopicNotFound_eq hvalue htopics, ← Option.some.inj hid]
      rw [LastMessageIndexExact, htopics] at hm
      have hdrop : m.topics.drop pre.length = topic :: post := by rw [htopics, List.drop_left]
      refine (indexes_remove_iff hm).trans ?_
      constructor
      · intro h i hi
        obtain rfl := Option.some.inj hi
        rwa [hdrop]
      · intro h
        have := h _ rfl
        rwa [hdrop] at this

/-! ### Runs -/

/-- The step neither gives a listed topic another last message, nor moves it, nor takes out a row, unless the ids
of the messages happen to be those of their topics. -/
def KeepsLastMessageRows (m : ForumTopicsModel) (e : Event) : Prop :=
  match m.updateOf e with
  | some (index, u) => ∀ topic ∈ m.topics[index]?, m.KeepsLastMessageRow index u topic
  | none =>
      match e with
      | .forumTopicNotFound chatId forumTopicId => m.chatId = chatId →
          ∀ pos ∈ m.topicIndexMap.value forumTopicId, ∀ topic ∈ m.topics.drop pos, topic.lastMessageId = topic.id
      | _ => True

instance (topics : List ForumTopic) (topic : ForumTopic) (index : Nat) : Decidable (KeepsPlace topics topic index) :=
  inferInstanceAs (Decidable (_ ∧ _))

instance (m : ForumTopicsModel) (index : Nat) (u : TopicUpdate) (topic : ForumTopic) :
    Decidable (m.KeepsLastMessageRow index u topic) :=
  inferInstanceAs (Decidable (_ ∧ _))

instance (m : ForumTopicsModel) (e : Event) : Decidable (m.KeepsLastMessageRows e) := by
  unfold KeepsLastMessageRows
  split
  · infer_instance
  · split <;> infer_instance

/-- **Step lemma.** -/
theorem step_exact_iff {m : ForumTopicsModel} (hm : m.LastMessageIndexExact) (hkept : m.Kept) {e : Event}
    (hd : (step m e).LastMessagesDistinct) : (step m e).LastMessageIndexExact ↔ m.KeepsLastMessageRows e := by
  unfold KeepsLastMessageRows
  cases hupdate : m.updateOf e with
  | some iu =>
      obtain ⟨hstep, hreports, hlisted⟩ := updateOf_spec (u := iu.2) hupdate
      obtain ⟨topic, htopic⟩ : ∃ topic, m.topics[iu.1]? = some topic := by
        rcases hlisted with ⟨id, hid⟩ | ⟨id, hid⟩
        · obtain ⟨topic, htopic, -⟩ := hkept.leads id iu.1 hid
          exact ⟨topic, htopic⟩
        · obtain ⟨topic, htopic, -⟩ := hm.exists_row hid
          exact ⟨topic, htopic⟩
      rw [hstep] at hd ⊢
      rw [updateTopicAt_exact_iff hm htopic (hkept.hasLastMessage topic (List.mem_of_getElem? htopic)) hreports hd.1]
      simp only [htopic, Option.mem_some_iff, forall_eq']
  | none =>
      cases e with
      | forumTopicsReceived chatId newTopics nextOffsetDate nextOffsetMessageId nextOffsetForumTopicId =>
          exact iff_of_true (handleForumTopicsReceived_exact hm chatId newTopics _ _ _ hd.1) trivial
      | forumTopicReceived topic =>
          refine iff_of_true ?_ trivial
          rcases step_forumTopicReceived_of_updateOf_eq_none hupdate with hstep | ⟨hstep, -⟩
          · rw [hstep]
            exact hm
          · rw [hstep] at hd ⊢
            exact insertNewTopic_exact hm topic hd.1
      | forumTopicNotFound chatId forumTopicId => exact handleForumTopicNotFound_exact_iff hm hkept.leads _ _
      | loadMore | reset | forumTopicUpdated | forumTopicInfoUpdated | newMessageReceived | messageContentUpdated
      | messageSendSucceeded | messagesDeleted =>
          refine iff_of_true ?_ trivial
          have hrows := rows_step_of_updateOf_eq_none hupdate rfl
          rw [rows, rows, Prod.mk.injEq, Prod.mk.injEq] at hrows
          rw [LastMessageIndexExact, hrows.1, hrows.2.2]
          exact hm

/-- **The last-message index of topics.** In a run whose topics have different last messages, the map is exact in
every state, and what is handled for a message concerns the topic whose last message it is, exactly if no step
gives a listed topic another last message, moves it or takes a row out. -/
theorem lastMessageIndexExact_iff_keepsLastMessageRows (chatId : Int) (es : List Event)
    (hdistinct : Along step (fun m e => (step m e).LastMessagesDistinct) (new chatId) es) :
    (∀ es', es' <+: es → LastMessageIndexExact (run step (new chatId) es') ∧
      ActsOnLastMessage (run step (new chatId) es')) ↔ Along step KeepsLastMessageRows (new chatId) es := by
  have hand : ∀ m : ForumTopicsModel, m.LastMessageIndexExact ∧ m.ActsOnLastMessage ↔ m.LastMessageIndexExact :=
    fun m => and_iff_left_of_imp LastMessageIndexExact.actsOnLastMessage
  simp only [hand]
  refine Along.always_iff_of (J := Kept) (fun m e hkept hd => ?_) (fun m e hkept hm hd => ?_) ?_ ?_ hdistinct
  · exact ⟨leads_step hkept.leads e, hd.2⟩
  · exact step_exact_iff hm hkept hd
  · exact ⟨Indexes.empty.leads, nofun⟩
  · exact .empty

theorem lastMessageIndexExact_of_pages : LastMessageIndexExact (run step (new 7)
    [.forumTopicsReceived 7 [.map (topicOf 7 1 10), .map (topicOf 7 2 8)] 5 8 2,
      .messageContentUpdated 7 10 [(TYPE_, .string "messageText")], .forumTopicReceived (topicOf 7 3 9)]) :=
  ((lastMessageIndexExact_iff_keepsLastMessageRows 7 _ (by decide)).mpr (by decide) _ (List.prefix_refl _)).1

/-- A listed topic gets a new message, which is entered under the id of the topic. -/
theorem not_lastMessageIndexExact :
    Along step (fun m e => (step m e).LastMessagesDistinct) (new 7)
      [.forumTopicsReceived 7 [.map (topicOf 7 1 10), .map (topicOf 7 2 8)] 5 8 2,
        .newMessageReceived 7 (topicMessageOf 7 1 11)] ∧
    ¬ LastMessageIndexExact (run step (new 7)
      [.forumTopicsReceived 7 [.map (topicOf 7 1 10), .map (topicOf 7 2 8)] 5 8 2,
        .newMessageReceived 7 (topicMessageOf 7 1 11)]) := by
  refine ⟨by decide, fun h => ?_⟩
  have hvalue := h.value_eq 11
  exact absurd hvalue (by decide)

end ForumTopicsModel

end YaqtLib
