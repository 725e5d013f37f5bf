import YaqtLib.ForumTopicsRebuilt

/-! What a message that has been sent does to the topics of a forum. The topic is looked up by the new id of the message,
under which no pending message is entered. -/

namespace YaqtLib

open Containers IndexMap Runs TdConst

namespace ForumTopicsModel

/-- The model after a message of its chat has been sent; the receiver hands on the id of the message. -/
abbrev afterSent (m : ForumTopicsModel) (message : QVariantMap) : ForumTopicsModel :=
  m.handleMessageSendSucceeded m.chatId (messageIdOf message) message

/-- The topic of a row has got the message, stands in its place among the others, and these are as before. -/
def Replaced (m m' : ForumTopicsModel) (index : Nat) (topic : ForumTopic) (message : QVariantMap) : Prop :=
  ∃ row topic', m'.topics[row]? = some topic' ∧ topic'.id = topic.id ∧ topic'.lastMessage = message ∧
    m'.topics.eraseIdx row = m.topics.eraseIdx index ∧ KeepsPlace m'.topics topic' row

/-- A sent message takes the place of the pending one, and does nothing where that is no last message. -/
structure ReplacesPending (m : ForumTopicsModel) (oldMessageId : Int) (message : QVariantMap) : Prop where
  inRange : ∀ index, m.topicLastMessageIdIndexMap.value (messageIdOf message) = some index → index < m.topics.length
  replaced : ∀ index topic, m.topics[index]? = some topic → topic.lastMessageId = oldMessageId →
    Replaced m (m.afterSent message) index topic message
  unchanged : (∀ topic ∈ m.topics, topic.lastMessageId ≠ oldMessageId) → m.afterSent message = m

/-- The id of the sent message is entered for the topic of the pending one, which the update lets move or which keeps
its place; where there is none, it is entered for no topic, or for one that has the message. -/
structure LeadsToPending (m : ForumTopicsModel) (oldMessageId : Int) (message : QVariantMap) : Prop where
  pending : ∀ index topic, m.topics[index]? = some topic → topic.lastMessageId = oldMessageId →
    m.topicLastMessageIdIndexMap.value (messageIdOf message) = some index ∧
      ((TopicUpdate.lastMessage message).Moves topic ∨
        KeepsPlace (m.topics.set index (topic.updateLastMessage message)) (topic.updateLastMessage message) index)
  absent : (∀ topic ∈ m.topics, topic.lastMessageId ≠ oldMessageId) →
    m.topicLastMessageIdIndexMap.value (messageIdOf message) = none ∨
      ∃ index topic, m.topicLastMessageIdIndexMap.value (messageIdOf message) = some index ∧
        m.topics[index]? = some topic ∧ topic.data.value LAST_MESSAGE = .map message

/-! ### The place of a topic -/

section Place

variable {m : ForumTopicsModel} {index : Nat} {topic : ForumTopic}

theorem eraseIdx_move {l : List ForumTopic} {source target : Nat} (h : MoveInRange l source target) :
    (move l source target).eraseIdx target = l.eraseIdx source := by
  have herase : target ≤ (l.eraseIdx source).length := by
    rw [List.length_eraseIdx_of_lt h.1]
    have := h.2
    omega
  rw [move, dif_pos h, List.eraseIdx_insertIdx_self]

/-- The rows besides the topic stay as they are. -/
theorem eraseIdx_updateForumTopicOrder (htopic : m.topics[index]? = some topic) :
    (m.updateForumTopicOrder index).topics.eraseIdx (newIndexOf m.topics topic index) = m.topics.eraseIdx index := by
  rw [updateForumTopicOrder_eq htopic]
  split_ifs with hstays
  · rw [hstays]
  · exact eraseIdx_move (moveInRange_newIndexOf htopic)

theorem keepsPlace_append_iff (above below : List ForumTopic) (topic : ForumTopic) :
    KeepsPlace (above ++ topic :: below) topic above.length ↔
      (∀ other ∈ above.getLast?, topic.lessThan other = false) ∧ ∀ other ∈ below.head?, topic.lessThan other = true := by
  have hbelow : (above ++ topic :: below)[above.length + 1]? = below.head? := by
    rw [List.getElem?_append_right (Nat.le_succ _), Nat.succ_sub (Nat.le_refl _), Nat.sub_self, List.getElem?_cons_succ,
      List.head?_eq_getElem?]
  rw [KeepsPlace, List.take_left, hbelow]

/-- What is passed while a condition holds, and what comes then. -/
theorem exists_split_takeWhile (p : ForumTopic → Bool) (l : List ForumTopic) :
    ∃ passed rest, l = passed ++ rest ∧ (l.takeWhile p).length = passed.length ∧ (∀ other ∈ passed, p other = true) ∧
      ∀ other ∈ rest.head?, p other = false := by
  refine ⟨l.takeWhile p, l.dropWhile p, List.takeWhile_append_dropWhile.symm, rfl, ?_, fun other hother => ?_⟩
  · exact List.all_eq_true.mp List.all_takeWhile
  · have hall := List.head?_dropWhile_not p l
    rw [Option.mem_def.mp hother] at hall
    simpa using hall

/-- The topic is put where it goes neither before the row above nor behind the one below. -/
theorem keepsPlace_updateForumTopicOrder (htopic : m.topics[index]? = some topic) :
    KeepsPlace (m.updateForumTopicOrder index).topics topic (newIndexOf m.topics topic index) := by
  obtain ⟨pre, post, htopics, rfl⟩ := exists_split_of_getElem? htopic
  have hplace := newIndexOf_eq_self_iff m.topics topic pre.length
  rw [updateForumTopicOrder_eq htopic]
  split_ifs with hstays
  · rw [hstays]
    exact hplace.mp hstays
  obtain ⟨up, above, hpre, hup, hless, habove⟩ := exists_split_takeWhile (fun other => topic.lessThan other) pre.reverse
  obtain ⟨down, below, hpost, hdown, hnotLess, hbelow⟩ :=
    exists_split_takeWhile (fun other => !topic.lessThan other) post
  have hnew : newIndexOf m.topics topic pre.length =
      if pre.length - up.length = pre.length then pre.length + down.length else pre.length - up.length := by
    rw [newIndexOf, htopics, List.take_left, drop_append_cons, hup, hdown]
  have hrows : pre = above.reverse ++ up.reverse := by rw [← List.reverse_append, ← hpre, List.reverse_reverse]
  have hlength : pre.length = above.reverse.length + up.reverse.length := by rw [hrows, List.length_append]
  dsimp only
  by_cases hnone : up = []
  · -- the topic goes down
    rw [hnone, List.length_nil, Nat.sub_zero, if_pos rfl] at hnew
    have hmoved : move m.topics pre.length (pre.length + down.length) = pre ++ down ++ topic :: below := by
      rw [htopics, hpost]
      exact move_append pre down below topic
    rw [hnew, hmoved, ← List.length_append]
    refine (keepsPlace_append_iff _ _ _).mpr ⟨fun other hother => ?_, fun other hother => ?_⟩
    · by_cases hstill : down = []
      · rw [hstill, List.append_nil, hrows, hnone, List.reverse_nil, List.append_nil, List.getLast?_reverse] at hother
        exact habove other hother
      · rw [List.getLast?_append_of_ne_nil _ hstill] at hother
        simpa using hnotLess other (List.mem_of_mem_getLast? hother)
    · simpa using hbelow other hother
  · -- the topic goes up
    have hpos := List.length_pos_of_ne_nil hnone
    rw [List.length_reverse, List.length_reverse] at hlength
    rw [if_neg (by omega)] at hnew
    have hnew' : newIndexOf m.topics topic pre.length = above.reverse.length := by
      rw [hnew, List.length_reverse]
      omega
    have hmoved : move m.topics pre.length above.reverse.length = above.reverse ++ topic :: (up.reverse ++ post) := by
      rw [htopics, hrows, List.length_append]
      exact move_append_back above.reverse up.reverse post topic
    rw [hnew', hmoved]
    refine (keepsPlace_append_iff _ _ _).mpr ⟨fun other hother => ?_, fun other hother => ?_⟩
    · rw [List.getLast?_reverse] at hother
      exact habove other hother
    · rw [List.head?_append_of_ne_nil _ (List.reverse_ne_nil_iff.mpr hnone)] at hother
      exact hless other (List.mem_reverse.mp (List.mem_of_mem_head? hother))

end Place

/-! ### The update of the topic that is found -/

section Found

variable {m : ForumTopicsModel} {index : Nat} {topic : ForumTopic} {message : QVariantMap}

theorem lastMessage_updateLastMessage (topic : ForumTopic) (message : QVariantMap) :
    (topic.updateLastMessage message).lastMessage = message := by
  rw [ForumTopic.lastMessage, ForumTopic.updateLastMessage, QVariantMap.value_insert_self, QVariant.toMap]

/-- The topic that is found gets the message and its place. -/
theorem replaced_updateTopicAt (htopic : m.topics[index]? = some topic)
    (hplace : (TopicUpdate.lastMessage message).Moves topic ∨
      KeepsPlace (m.topics.set index (topic.updateLastMessage message)) (topic.updateLastMessage message) index) :
    Replaced m (m.updateTopicAt index (.lastMessage message)) index topic message := by
  have hset := getElem?_set_self htopic (topic.updateLastMessage message)
  have hothers : (m.topics.set index (topic.updateLastMessage message)).eraseIdx index = m.topics.eraseIdx index :=
    List.eraseIdx_set_eq
  rw [Replaced, topics_updateTopicAt htopic]
  by_cases hmoves : (TopicUpdate.lastMessage message).Moves topic
  · rw [if_pos hmoves]
    let written : ForumTopicsModel := { m with topics := m.topics.set index (topic.updateLastMessage message) }
    refine ⟨_, _, getElem?_updateForumTopicOrder (m := written) hset, rfl, lastMessage_updateLastMessage _ _, ?_,
      keepsPlace_updateForumTopicOrder (m := written) hset⟩
    exact (eraseIdx_updateForumTopicOrder (m := written) hset).trans hothers
  · rw [if_neg hmoves]
    exact ⟨index, _, hset, rfl, lastMessage_updateLastMessage _ _, hothers, hplace.resolve_left hmoves⟩

/-- A topic that has the message already stays as it is. -/
theorem updateTopicAt_of_value (htopic : m.topics[index]? = some topic)
    (hvalue : topic.data.value LAST_MESSAGE = .map message) : m.updateTopicAt index (.lastMessage message) = m := by
  have hlast : topic.lastMessage = message := congrArg QVariant.toMap hvalue
  have hupdate : topic.updateLastMessage message = topic := by
    rw [ForumTopic.updateLastMessage, QVariantMap.insert_of_value hvalue (by rintro ⟨⟩)]
  have hset : m.topics.set index topic = m.topics := by
    obtain ⟨hlt, heq⟩ := List.getElem?_eq_some_iff.mp htopic
    rw [← heq, List.set_getElem_self]
  have hroles : topic.rolesOfLastMessage message = [] := by
    have hid : topic.lastMessageId = messageIdOf message := congrArg messageIdOf hlast
    rw [ForumTopic.rolesOfLastMessage, hid, ForumTopic.lastMessageDate, hlast, if_neg (not_not.mpr rfl),
      if_neg (not_not.mpr rfl), List.append_nil]
  rw [updateTopicAt, htopic]
  show handleForumTopicRolesChanged { m with topics := m.topics.set index (topic.updateLastMessage message) } index
    (topic.rolesOfLastMessage message) topic.lastMessageId = m
  rw [hupdate, hset, hroles, handleForumTopicRolesChanged, htopic]
  dsimp only
  simp only [List.not_mem_nil, and_false, or_false, if_false]

theorem afterSent_of_value_eq_none (h : m.topicLastMessageIdIndexMap.value (messageIdOf message) = none) :
    m.afterSent message = m := by
  rw [afterSent, handleMessageSendSucceeded, if_pos rfl, h]

theorem afterSent_of_value_eq_some (h : m.topicLastMessageIdIndexMap.value (messageIdOf message) = some index) :
    m.afterSent message = m.updateTopicAt index (.lastMessage message) := by
  rw [afterSent, handleMessageSendSucceeded, if_pos rfl, h]

end Found

/-! ### The message that was pending -/

section Sent

variable {m : ForumTopicsModel} {oldMessageId : Int} {message : QVariantMap}

theorem replacesPending_of_leads (h : LeadsToPending m oldMessageId message) : ReplacesPending m oldMessageId message where
  inRange index hindex := by
    by_cases hpending : ∃ topic ∈ m.topics, topic.lastMessageId = oldMessageId
    · obtain ⟨topic, hmem, hold⟩ := hpending
      obtain ⟨row, hrow⟩ := List.mem_iff_getElem?.mp hmem
      obtain rfl : index = row := Option.some.inj (hindex.symm.trans (h.pending row topic hrow hold).1)
      exact (List.getElem?_eq_some_iff.mp hrow).1
    · rcases h.absent fun topic hmem hold => hpending ⟨topic, hmem, hold⟩ with hnone | ⟨row, topic, hrow, htopic, -⟩
      · exact absurd (hnone.symm.trans hindex) nofun
      · obtain rfl : index = row := Option.some.inj (hindex.symm.trans hrow)
        exact (List.getElem?_eq_some_iff.mp htopic).1
  replaced index topic htopic hold := by
    obtain ⟨hvalue, hplace⟩ := h.pending index topic htopic hold
    rw [afterSent_of_value_eq_some hvalue]
    exact replaced_updateTopicAt htopic hplace
  unchanged habsent := by
    rcases h.absent habsent with hnone | ⟨index, topic, hvalue, htopic, hlast⟩
    · exact afterSent_of_value_eq_none hnone
    · rw [afterSent_of_value_eq_some hvalue, updateTopicAt_of_value htopic hlast]

/-- A new id is reported and lets the topic move. -/
theorem moves_lastMessage {topic : ForumTopic} (h : topic.lastMessageId ≠ messageIdOf message) :
    (TopicUpdate.lastMessage message).Moves topic :=
  .inr (.inr (.inr ((TopicUpdate.lastMessageId_mem_rolesOfLastMessage topic message).mpr h)))

/-- Topics with one id are one topic. -/
theorem eq_of_id {topics : List ForumTopic} (hids : (topics.map ForumTopic.id).Nodup) {topic topic' : ForumTopic}
    (htopic : topic ∈ topics) (htopic' : topic' ∈ topics) (hid : topic'.id = topic.id) : topic' = topic :=
  List.inj_on_of_nodup_map hids htopic' htopic hid

/-- The ids of the topics after an update in place. -/
theorem nodup_updateTopicAt (hids : (m.topics.map ForumTopic.id).Nodup) {index : Nat} {topic : ForumTopic}
    (htopic : m.topics[index]? = some topic) :
    ((m.updateTopicAt index (.lastMessage message)).topics.map ForumTopic.id).Nodup := by
  have hperm := (topics_updateTopicAt_perm htopic (.lastMessage message)).map ForumTopic.id
  have hset : (m.topics.set index (topic.updateLastMessage message)).map ForumTopic.id = m.topics.map ForumTopic.id :=
    map_set_of_eq htopic rfl
  rw [hperm.nodup_iff]
  exact hset.symm ▸ hids

/-- The condition is needed where each topic is listed once and the sent message has an id of its own. -/
theorem leads_of_replacesPending (hids : (m.topics.map ForumTopic.id).Nodup) (hnew : messageIdOf message ≠ oldMessageId)
    (h : ReplacesPending m oldMessageId message) : LeadsToPending m oldMessageId message where
  pending index topic htopic hold := by
    refine ⟨?_, .inl (moves_lastMessage (hold ▸ hnew.symm))⟩
    obtain ⟨row, topic', htopic', hid, hlast, -⟩ := h.replaced index topic htopic hold
    have hmem := List.mem_of_getElem? htopic
    have hmem' := List.mem_of_getElem? htopic'
    -- as long as the topic is among the rows unchanged, its last message is the pending one
    have hkept : ((m.afterSent message).topics.map ForumTopic.id).Nodup → topic ∉ (m.afterSent message).topics := by
      intro hids' hstill
      refine hnew ?_
      rw [eq_of_id hids' hstill hmem' hid] at hlast
      rw [← hold, ← hlast]
      rfl
    cases hvalue : m.topicLastMessageIdIndexMap.value (messageIdOf message) with
    | none =>
        rw [afterSent_of_value_eq_none hvalue] at hkept
        exact absurd hmem (hkept hids)
    | some found =>
        rw [Option.some.injEq]
        by_contra hne
        have hlt := h.inRange found hvalue
        have hfound := List.getElem?_eq_getElem hlt
        rw [afterSent_of_value_eq_some hvalue] at hkept
        refine hkept (nodup_updateTopicAt hids hfound) ?_
        rw [(topics_updateTopicAt_perm hfound _).mem_iff]
        exact (mem_set_iff hfound _ _).mpr (.inr ⟨index, Ne.symm hne, htopic⟩)
  absent habsent := by
    have hsame := h.unchanged habsent
    cases hvalue : m.topicLastMessageIdIndexMap.value (messageIdOf message) with
    | none => exact .inl rfl
    | some found =>
        obtain ⟨topic, hfound⟩ : ∃ topic, m.topics[found]? = some topic :=
          ⟨_, List.getElem?_eq_getElem (h.inRange found hvalue)⟩
        refine .inr ⟨found, topic, rfl, hfound, ?_⟩
        rw [afterSent_of_value_eq_some hvalue] at hsame
        have hwritten : topic.updateLastMessage message ∈ m.topics := by
          have hmem := (topics_updateTopicAt_perm hfound (.lastMessage message)).mem_iff.mpr
            ((mem_set_iff hfound _ _).mpr (.inl rfl))
          rwa [hsame] at hmem
        have heq := eq_of_id hids (List.mem_of_getElem? hfound) hwritten rfl
        rw [← heq, ForumTopic.updateLastMessage, QVariantMap.value_insert_self]

end Sent

/-- **A sent message.** In every state that is reached it replaces the pending last message if its new id leads to the
topic of that message, and to none where there is no such topic; where each topic is listed once, only then. -/
theorem replacesPending_iff_leads (chatId : Int) (es : List Event) (oldMessageId : Int) (message : QVariantMap) :
    (LeadsToPending (run step (new chatId) es) oldMessageId message →
      ReplacesPending (run step (new chatId) es) oldMessageId message) ∧
    (((run step (new chatId) es).topics.map ForumTopic.id).Nodup → messageIdOf message ≠ oldMessageId →
      ReplacesPending (run step (new chatId) es) oldMessageId message →
        LeadsToPending (run step (new chatId) es) oldMessageId message) :=
  ⟨replacesPending_of_leads, leads_of_replacesPending⟩

/-- A message is delivered while it is pending, and then sent. -/
theorem not_replacesPending :
    ¬ ReplacesPending (run step (new 7) [.forumTopicsReceived 7 [.map (topicOf 7 1 10)] 5 10 1,
      .newMessageReceived 7 (topicMessageOf 7 1 11)]) 11 (topicMessageOf 7 1 12) := by
  intro h
  have hleads := (replacesPending_iff_leads _ _ _ _).2 (by decide) (by decide) h
  exact absurd (hleads.pending 0 _ rfl rfl).1 (by decide)

/-- A message that was last of no topic, and one whose new id happens to be that of the topic it is in. -/
theorem replacesPending_document :
    ReplacesPending (run step (new 7) [.forumTopicsReceived 7 [.map (topicOf 7 1 10)] 5 10 1]) 11
        (topicMessageOf 7 1 12) ∧
      ReplacesPending (run step (new 7) [.forumTopicsReceived 7 [.map (topicOf 7 1 10)] 5 10 1,
        .newMessageReceived 7 (topicMessageOf 7 1 11)]) 11 (topicMessageOf 7 1 1) := by
  refine ⟨(replacesPending_iff_leads _ _ _ _).1 ⟨fun index topic htopic hold => ?_, fun _ => .inl (by decide)⟩,
    (replacesPending_iff_leads _ _ _ _).1 ⟨fun index topic htopic hold => ?_, fun habsent => ?_⟩⟩
  · have hother : ∀ topic ∈ (run step (new 7) [.forumTopicsReceived 7 [.map (topicOf 7 1 10)] 5 10 1]).topics,
        topic.lastMessageId ≠ 11 := by decide
    exact absurd hold (hother topic (List.mem_of_getElem? htopic))
  · have hindex : index = 0 := by
      have hlt := (List.getElem?_eq_some_iff.mp htopic).1
      have hlength : (run step (new 7) [.forumTopicsReceived 7 [.map (topicOf 7 1 10)] 5 10 1,
        .newMessageReceived 7 (topicMessageOf 7 1 11)]).topics.length = 1 := by decide
      omega
    subst hindex
    exact ⟨by decide, .inl (moves_lastMessage (hold.trans_ne (by decide)))⟩
  · exact absurd habsent (by decide)

end ForumTopicsModel

end YaqtLib
