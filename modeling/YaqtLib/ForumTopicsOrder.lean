import Mathlib.Data.Prod.Lex
import YaqtLib.ForumTopicsIndex
import YaqtLib.Reordering

/-! The order of the forum topics. `lessThan` compares the ranks of the topics, so the rows are sorted after a step
exactly if no two topics share a rank and a page goes on behind the rows that are there. -/

namespace YaqtLib

open Containers IndexMap Runs

namespace ForumTopic

/-- What the topics are ordered by, the greatest rank first. -/
def rank (topic : ForumTopic) : Bool ×ₗ Int ×ₗ Int ×ₗ Int :=
  toLex (topic.isPinned, toLex (topic.orderDate, toLex (topic.lastMessageId, topic.id)))

theorem lessThan_iff {topic1 topic2 : ForumTopic} : topic1.lessThan topic2 = true ↔ topic2.rank < topic1.rank := by
  rw [lessThan, rank, rank, Prod.Lex.toLex_lt_toLex, Prod.Lex.toLex_lt_toLex, Prod.Lex.toLex_lt_toLex]
  dsimp only
  split_ifs with hpinned hdate hid
  · cases h1 : topic1.isPinned <;> cases h2 : topic2.isPinned <;> simp_all
  · simp [not_not.mp hpinned, Ne.symm hdate]
  · simp [not_not.mp hpinned, not_not.mp hdate, Ne.symm hid]
  · simp [not_not.mp hpinned, not_not.mp hdate, not_not.mp hid]

theorem id_eq_of_rank_eq {topic1 topic2 : ForumTopic} (h : topic1.rank = topic2.rank) : topic1.id = topic2.id :=
  congrArg (fun rank => (ofLex (ofLex (ofLex rank).2).2).2) h

instance : IsTrans ForumTopic fun topic1 topic2 => topic1.lessThan topic2 = true where
  trans topic1 topic2 topic3 h h' := by
    rw [lessThan_iff] at h h' ⊢
    exact h'.trans h

/-- `lessThan` is a strict order, and it is total on topics with distinct ids. -/
theorem lessThan_strict :
    (∀ topic : ForumTopic, topic.lessThan topic = false) ∧
    (∀ topic1 topic2 topic3 : ForumTopic, topic1.lessThan topic2 = true → topic2.lessThan topic3 = true →
      topic1.lessThan topic3 = true) ∧
    ∀ topic1 topic2 : ForumTopic, topic1.id ≠ topic2.id →
      topic1.lessThan topic2 = true ∨ topic2.lessThan topic1 = true := by
  refine ⟨fun topic => ?_, fun topic1 topic2 topic3 h h' => ?_,
    fun topic1 topic2 hne => ?_⟩
  · rw [← Bool.not_eq_true, lessThan_iff]
    exact lt_irrefl _
  · exact trans_of (fun topic1 topic2 : ForumTopic => topic1.lessThan topic2 = true) h h'
  · rw [lessThan_iff, lessThan_iff]
    exact (lt_or_gt_of_ne fun heq => hne (id_eq_of_rank_eq heq)).symm

end ForumTopic

namespace ForumTopicsModel

open ForumTopic

/-- Each topic goes before the topics behind it. -/
def Sorted (topics : List ForumTopic) : Prop := topics.Pairwise fun topic1 topic2 => topic1.lessThan topic2 = true

instance (topics : List ForumTopic) : Decidable (Sorted topics) := inferInstanceAs (Decidable (List.Pairwise _ _))

/-- No two topics have the same rank. -/
def Untied (topics : List ForumTopic) : Prop := (topics.map rank).Nodup

instance (topics : List ForumTopic) : Decidable (Untied topics) := inferInstanceAs (Decidable (List.Nodup _))

theorem Untied.perm {topics topics' : List ForumTopic} (h : Untied topics) (hperm : topics.Perm topics') :
    Untied topics' :=
  (hperm.map rank).nodup_iff.mp h

theorem Sorted.untied {topics : List ForumTopic} (h : Sorted topics) : Untied topics := by
  rw [Untied, List.nodup_iff_pairwise_ne, List.pairwise_map]
  exact List.Pairwise.imp (fun hless => (lessThan_iff.mp hless).ne') h

/-- Two topics that are not tied can be told apart. -/
theorem Untied.comparable {pre post : List ForumTopic} {topic : ForumTopic} (h : Untied (pre ++ topic :: post)) :
    ∀ other ∈ pre ++ post, other.lessThan topic = true ∨ topic.lessThan other = true := by
  intro other hother
  have hcons : Untied (topic :: (pre ++ post)) := h.perm List.perm_middle
  rw [Untied, List.map_cons, List.nodup_cons] at hcons
  rw [lessThan_iff, lessThan_iff]
  exact lt_or_gt_of_ne fun heq => hcons.1 (heq ▸ List.mem_map_of_mem hother)

theorem lessThan_eq_false_iff {pre post : List ForumTopic} {topic : ForumTopic} (h : Untied (pre ++ topic :: post)) :
    ∀ other ∈ pre ++ post, (!topic.lessThan other) = true ↔ other.lessThan topic = true := by
  intro other hother
  rw [Bool.not_eq_true']
  constructor
  · intro hnot
    exact (h.comparable other hother).resolve_right (by rw [hnot]; exact Bool.false_ne_true)
  · intro hless
    rw [← Bool.not_eq_true, lessThan_iff]
    exact lt_asymm (lessThan_iff.mp hless)

/-! ### The operations -/

theorem not_lessThan_iff {topic1 topic2 : ForumTopic} :
    topic1.lessThan topic2 = false ↔ topic1.rank ≤ topic2.rank := by
  rw [← Bool.not_eq_true, lessThan_iff, not_lt]

instance : IsTrans ForumTopic fun topic1 topic2 => topic2.lessThan topic1 = false where
  trans topic1 topic2 topic3 h h' := by
    rw [not_lessThan_iff] at h h' ⊢
    exact h'.trans h

/-- A page is sorted exactly if its topics can be told apart. -/
theorem sorted_pageTopics_iff (newTopics : QVariantList) :
    Sorted (pageTopics newTopics) ↔ Untied (newTopics.map fun topic => ForumTopic.new topic.toMap) := by
  constructor
  · exact fun h => h.untied.perm (pageTopics_perm newTopics)
  · intro h
    have hdescending : (pageTopics newTopics).Pairwise fun topic1 topic2 => topic2.lessThan topic1 = false := by
      refine pairwise_insertionSort _ (List.pairwise_of_forall fun topic1 topic2 => ?_)
      rw [not_lessThan_iff, not_lessThan_iff]
      exact le_total _ _
    have huntied : Untied (pageTopics newTopics) := h.perm (pageTopics_perm newTopics).symm
    rw [Untied, List.nodup_iff_pairwise_ne, List.pairwise_map] at huntied
    refine (hdescending.and huntied).imp fun ⟨hle, hne⟩ => ?_
    exact lessThan_iff.mpr (lt_of_le_of_ne (not_lessThan_iff.mp hle) (Ne.symm hne))

/-- The page goes on behind the rows. -/
theorem sorted_append_page_iff {topics : List ForumTopic} (h : Sorted topics) (newTopics : QVariantList) :
    Sorted (topics ++ pageTopics newTopics) ↔
      Untied (newTopics.map fun topic => ForumTopic.new topic.toMap) ∧
        ∀ topic1 ∈ topics, ∀ topic2 ∈ newTopics.map fun topic => ForumTopic.new topic.toMap,
          topic1.lessThan topic2 = true := by
  rw [Sorted, List.pairwise_append, ← Sorted, ← Sorted, and_iff_right h]
  refine and_congr (sorted_pageTopics_iff newTopics) (forall₂_congr fun topic1 _ => ?_)
  exact forall_congr' fun topic2 => imp_congr_left (pageTopics_perm newTopics).mem_iff

/-- A topic that is not in the list goes between the rows. -/
theorem sorted_insertNewTopic_iff {m : ForumTopicsModel} (h : Sorted m.topics) (topic : QVariantMap) :
    Sorted (m.insertNewTopic topic).topics ↔ Untied (ForumTopic.new topic :: m.topics) := by
  constructor
  · intro hsorted
    obtain ⟨pre, tail, htopics, heq⟩ := insertNewTopic_eq m topic
    rw [heq] at hsorted
    rw [htopics]
    exact hsorted.untied.perm List.perm_middle
  · intro huntied
    obtain ⟨pre, tail, htopics, hlength, hpre, htail⟩ := Reordering.exists_split_down h
      (@lessThan_eq_false_iff [] _ _ huntied) (@Untied.comparable [] _ _ huntied)
    change Sorted (m.topics.insertIdx
      (m.topics.takeWhile fun other => !(ForumTopic.new topic).lessThan other).length (ForumTopic.new topic))
    rw [hlength, htopics, insertIdx_append_length]
    rw [htopics] at h
    exact pairwise_splice h hpre htail

/-- A topic whose data change moves to its place. -/
theorem sorted_updateForumTopicOrder_iff {m : ForumTopicsModel} {pre post : List ForumTopic} {topic : ForumTopic}
    (htopics : m.topics = pre ++ topic :: post) (h : Sorted (pre ++ post)) :
    Sorted (m.updateForumTopicOrder pre.length).topics ↔ Untied m.topics := by
  have htopic : m.topics[pre.length]? = some topic := by rw [htopics, List.getElem?_append_right (Nat.le_refl _)]; simp
  rw [updateForumTopicOrder_eq htopic]
  constructor
  · intro hsorted
    refine hsorted.untied.perm ?_
    split_ifs
    · exact List.Perm.refl _
    · exact move_perm _ _ _
  · intro huntied
    rw [htopics] at huntied
    obtain ⟨pre', post', hothers, hplace, hmove, hsorted⟩ := Reordering.move_placeOf h
      (fun _ _ => Iff.rfl) (lessThan_eq_false_iff huntied) huntied.comparable
    have hplace' : newIndexOf m.topics topic pre.length = pre'.length := by
      rw [htopics]
      exact hplace
    rw [hplace']
    split_ifs with hstay
    · obtain ⟨rfl, rfl⟩ := List.append_inj hothers hstay
      rw [htopics]
      exact hsorted
    · rw [htopics, hmove]
      exact hsorted

/-! ### Updates in place -/

/-- Whatever changes the rank of a topic reports a role that lets the topic move. -/
def TopicUpdate.Moves (u : TopicUpdate) (topic : ForumTopic) : Prop :=
  .isPinned ∈ u.changedRoles topic ∨ .lastMessageDate ∈ u.changedRoles topic ∨
    .draftMessageDate ∈ u.changedRoles topic ∨ .lastMessageId ∈ u.changedRoles topic

instance (u : TopicUpdate) (topic : ForumTopic) : Decidable (u.Moves topic) :=
  inferInstanceAs (Decidable (_ ∨ _))

theorem rank_insert (topic : ForumTopic) {field : String} (v : QVariant)
    (hfield : field ∉ [TdConst.IS_PINNED, TdConst.DRAFT_MESSAGE, TdConst.LAST_MESSAGE]) :
    ({ topic with data := topic.data.insert field v } : ForumTopic).rank = topic.rank := by
  simp only [List.mem_cons, List.not_mem_nil, or_false, not_or] at hfield
  obtain ⟨hpinned, hdraft, hlast⟩ := hfield
  simp only [rank, isPinned, orderDate, draftMessage, draftMessageDate, lastMessageDate, lastMessage,
    ForumTopic.lastMessageId, QVariantMap.value_insert_of_ne _ _ (Ne.symm hpinned),
    QVariantMap.value_insert_of_ne _ _ (Ne.symm hdraft), QVariantMap.value_insert_of_ne _ _ (Ne.symm hlast)]
  rfl

theorem rank_updateLastMessage {topic : ForumTopic} {message : QVariantMap}
    (hid : topic.lastMessageId = messageIdOf message)
    (hdate : topic.lastMessageDate = (message.value TdConst.DATE).toLongLong) :
    (topic.updateLastMessage message).rank = topic.rank := by
  have hlast : (topic.updateLastMessage message).lastMessageDate = topic.lastMessageDate := by
    rw [hdate, lastMessageDate, lastMessage, updateLastMessage, QVariantMap.value_insert_self]
    rfl
  have hdraft : (topic.updateLastMessage message).draftMessage = topic.draftMessage := by
    rw [draftMessage, updateLastMessage, QVariantMap.value_insert_of_ne _ _ (by decide)]
    rfl
  have hpinned : (topic.updateLastMessage message).isPinned = topic.isPinned := by
    rw [isPinned, updateLastMessage, QVariantMap.value_insert_of_ne _ _ (by decide)]
    rfl
  rw [rank, rank, orderDate, orderDate, lastMessageId_updateLastMessage, ← hid, hlast, hpinned, draftMessageDate,
    draftMessageDate, hdraft]
  rfl

/-- The updates of the events: one that changes the rank lets the topic move. -/
theorem rank_update {m : ForumTopicsModel} {e : Event} {index : Nat} {u : TopicUpdate}
    (h : m.updateOf e = some (index, u)) (topic : ForumTopic) (hmoves : ¬ u.Moves topic) :
    (u.update topic).rank = topic.rank := by
  have hdraft : ∀ update, .draftMessageDate ∈ topic.rolesOfForumTopicUpdate update := fun update =>
    List.mem_append_right _ (List.mem_singleton_self _)
  have hlast : ∀ message, u = .lastMessage message → (u.update topic).rank = topic.rank := by
    rintro message rfl
    unfold TopicUpdate.Moves TopicUpdate.lastMessage at hmoves
    dsimp only at hmoves
    rw [rolesOfLastMessage] at hmoves
    refine rank_updateLastMessage ?_ ?_
    · by_contra hne
      rw [if_pos hne] at hmoves
      simp at hmoves
    · by_contra hne
      rw [if_pos hne] at hmoves
      simp at hmoves
  cases e with
  | forumTopicUpdated chatId forumTopicId update =>
      rw [updateOf] at h
      split_ifs at h
      obtain ⟨i, -, heq⟩ := Option.map_eq_some_iff.mp h
      obtain ⟨rfl, rfl⟩ := Prod.mk.inj heq
      exact absurd (Or.inr (Or.inr (Or.inl (hdraft update)))) hmoves
  | forumTopicInfoUpdated chatId forumTopicId info =>
      rw [updateOf] at h
      split_ifs at h
      obtain ⟨i, -, heq⟩ := Option.map_eq_some_iff.mp h
      obtain ⟨rfl, rfl⟩ := Prod.mk.inj heq
      change (topic.updateForumTopicInfo info).rank = topic.rank
      rw [updateForumTopicInfo]
      split_ifs
      · rfl
      · exact rank_insert topic _ (by decide)
  | newMessageReceived chatId message =>
      rw [updateOf] at h
      split_ifs at h
      obtain ⟨i, -, heq⟩ := Option.map_eq_some_iff.mp h
      exact hlast message (Prod.mk.inj heq).2.symm
  | forumTopicReceived topic' =>
      rw [updateOf] at h
      split_ifs at h
      obtain ⟨i, -, heq⟩ := Option.map_eq_some_iff.mp h
      obtain ⟨rfl, rfl⟩ := Prod.mk.inj heq
      exact absurd (Or.inr (Or.inr (Or.inl (List.mem_append_left _ (hdraft topic'))))) hmoves
  | messageContentUpdated chatId messageId content =>
      rw [updateOf] at h
      split_ifs at h
      obtain ⟨i, -, heq⟩ := Option.map_eq_some_iff.mp h
      obtain ⟨rfl, rfl⟩ := Prod.mk.inj heq
      exact absurd (Or.inr (Or.inl (List.mem_singleton_self _))) hmoves
  | messageSendSucceeded chatId oldMessageId messageId message =>
      rw [updateOf] at h
      split_ifs at h
      obtain ⟨i, -, heq⟩ := Option.map_eq_some_iff.mp h
      exact hlast message (Prod.mk.inj heq).2.symm
  | loadMore | reset | forumTopicsReceived | messagesDeleted | forumTopicNotFound => cases h

theorem sorted_iff_map_rank (topics : List ForumTopic) : Sorted topics ↔ (topics.map rank).Pairwise (· > ·) := by
  rw [List.pairwise_map]
  exact ⟨fun h => h.imp lessThan_iff.mp, fun h => h.imp lessThan_iff.mpr⟩

/-- The order of the rows depends on their ranks. -/
theorem Sorted.congr {topics topics' : List ForumTopic} (h : Sorted topics)
    (hrank : topics'.map rank = topics.map rank) : Sorted topics' := by
  rwa [sorted_iff_map_rank, hrank, ← sorted_iff_map_rank]

theorem topics_updateForumTopicOrder_congr {m m' : ForumTopicsModel} (h : m'.topics = m.topics) (index : Nat) :
    (m'.updateForumTopicOrder index).topics = (m.updateForumTopicOrder index).topics := by
  rw [updateForumTopicOrder, updateForumTopicOrder, h]
  cases m.topics[index]? with
  | none => exact h
  | some topic =>
      dsimp only
      split_ifs
      · exact h
      · rfl

theorem topics_handleForumTopicRolesChanged {m : ForumTopicsModel} {index : Nat} {u : TopicUpdate}
    (topic : ForumTopic) (prevLastMessageId : Int) :
    (m.handleForumTopicRolesChanged index (u.changedRoles topic) prevLastMessageId).topics =
      if u.Moves topic then (m.updateForumTopicOrder index).topics else m.topics := by
  rw [ForumTopicsModel.handleForumTopicRolesChanged]
  cases htopic : m.topics[index]? with
  | none =>
      rw [updateForumTopicOrder, htopic]
      split_ifs <;> rfl
  | some row =>
      dsimp only
      have hrows : (if prevLastMessageId ≠ 0 ∧ .lastMessageId ∈ u.changedRoles topic then
          { m with topicLastMessageIdIndexMap :=
              (m.topicLastMessageIdIndexMap.remove prevLastMessageId).insert row.id index }
        else m).topics = m.topics := by
        split_ifs <;> rfl
      by_cases hmoves : u.Moves topic
      · rw [if_pos hmoves]
        unfold TopicUpdate.Moves at hmoves
        rw [if_pos hmoves, topics_updateForumTopicOrder_congr hrows]
      · rw [if_neg hmoves]
        unfold TopicUpdate.Moves at hmoves
        rw [if_neg hmoves, hrows]

/-- A topic that is updated in place stays or moves to its place. -/
theorem sorted_updateTopicAt_iff {m : ForumTopicsModel} {e : Event} {index : Nat} {u : TopicUpdate}
    (hupdate : m.updateOf e = some (index, u)) (h : Sorted m.topics) :
    Sorted (m.updateTopicAt index u).topics ↔ Untied (m.topics.modify index u.update) := by
  rw [updateTopicAt]
  cases htopic : m.topics[index]? with
  | none =>
      dsimp only
      rw [List.modify_eq_self (List.getElem?_eq_none_iff.mp htopic)]
      exact iff_of_true h h.untied
  | some topic =>
      obtain ⟨pre, post, htopics, rfl⟩ := exists_split_of_getElem? htopic
      have hset : m.topics.set pre.length (u.update topic) = pre ++ u.update topic :: post := by
        rw [htopics, List.set_append_right _ _ (Nat.le_refl _), Nat.sub_self, List.set_cons_zero]
      have hmodify : m.topics.modify pre.length u.update = pre ++ u.update topic :: post := by
        rw [htopics, List.modify_eq_take_cons_drop (by simp), List.take_left, drop_append_cons]
        simp
      dsimp only
      rw [topics_handleForumTopicRolesChanged, hmodify]
      by_cases hmoves : u.Moves topic
      · have hothers : Sorted (pre ++ post) := by
          rw [htopics] at h
          exact h.sublist ((List.sublist_cons_self topic post).append_left pre)
        rw [if_pos hmoves, sorted_updateForumTopicOrder_iff hset hothers]
        dsimp only
        rw [hset]
      · rw [if_neg hmoves]
        dsimp only
        rw [hset]
        have hsorted : Sorted (pre ++ u.update topic :: post) := by
          refine h.congr ?_
          rw [htopics, List.map_append, List.map_append, List.map_cons, List.map_cons,
            rank_update hupdate topic hmoves]
        exact iff_of_true hsorted hsorted.untied

/-! ### Runs -/

theorem sorted_handleForumTopicNotFound {m : ForumTopicsModel} (h : Sorted m.topics) (chatId forumTopicId : Int) :
    Sorted (m.handleForumTopicNotFound chatId forumTopicId).topics := by
  rw [handleForumTopicNotFound]
  split_ifs
  · cases m.topicIndexMap.value forumTopicId with
    | none => exact h
    | some pos => exact h.sublist (List.eraseIdx_sublist _ _)
  · exact h

/-- What keeps the order: a page goes on behind the rows, and no two topics get the same rank. -/
def KeepsOrder (m : ForumTopicsModel) : Event → Prop
  | .forumTopicsReceived chatId newTopics _ _ _ => m.chatId = chatId →
      Untied (newTopics.map fun topic => ForumTopic.new topic.toMap) ∧
        ∀ topic1 ∈ m.topics, ∀ topic2 ∈ newTopics.map fun topic => ForumTopic.new topic.toMap,
          topic1.lessThan topic2 = true
  | .forumTopicReceived topic =>
      match m.updateOf (.forumTopicReceived topic) with
      | some (index, u) => Untied (m.topics.modify index u.update)
      | none => m.chatId = ((topic.value TdConst.INFO).toMap.value TdConst.CHAT_ID).toLongLong →
          Untied (ForumTopic.new topic :: m.topics)
  | e => ∀ index u, m.updateOf e = some (index, u) → Untied (m.topics.modify index u.update)

theorem sorted_handleForumTopicsReceived_iff {m : ForumTopicsModel} (h : Sorted m.topics) (chatId : Int)
    (newTopics : QVariantList) (nextOffsetDate nextOffsetMessageId nextOffsetForumTopicId : Int) :
    Sorted (m.handleForumTopicsReceived chatId newTopics nextOffsetDate nextOffsetMessageId
        nextOffsetForumTopicId).topics ↔
      KeepsOrder m (.forumTopicsReceived chatId newTopics nextOffsetDate nextOffsetMessageId
        nextOffsetForumTopicId) := by
  rw [handleForumTopicsReceived, KeepsOrder]
  by_cases hchat : m.chatId = chatId
  swap
  · rw [if_neg hchat]
    exact iff_of_true h fun heq => absurd heq hchat
  rw [if_pos hchat, imp_iff_right hchat, ← sorted_append_page_iff h]
  by_cases hempty : newTopics.isEmpty = true
  · obtain rfl : newTopics = [] := List.isEmpty_iff.mp hempty
    rw [if_pos List.isEmpty_nil, pageTopics, List.map_nil, List.insertionSort_nil, List.append_nil]
  · rw [if_neg hempty]

theorem sorted_step_of_keepsRows {m : ForumTopicsModel} (h : Sorted m.topics) {e : Event} (he : e.keepsRows = true) :
    Sorted (step m e).topics ↔ ∀ index u, m.updateOf e = some (index, u) → Untied (m.topics.modify index u.update) := by
  cases hupdate : m.updateOf e with
  | none =>
      have hrows : (step m e).topics = m.topics := congrArg Prod.fst (rows_step_of_updateOf_eq_none hupdate he)
      rw [hrows]
      exact iff_of_true h fun _ _ heq => nomatch heq
  | some iu =>
      rw [(updateOf_spec hupdate).1, sorted_updateTopicAt_iff hupdate h]
      exact ⟨fun huntied index u heq => by cases heq; exact huntied, fun huntied => huntied _ _ rfl⟩

/-- **Step lemma.** -/
theorem sorted_step_iff {m : ForumTopicsModel} (h : Sorted m.topics) (e : Event) :
    Sorted (step m e).topics ↔ KeepsOrder m e := by
  cases e with
  | forumTopicsReceived chatId newTopics => exact sorted_handleForumTopicsReceived_iff h chatId newTopics _ _ _
  | forumTopicReceived topic =>
      cases hupdate : m.updateOf (.forumTopicReceived topic) with
      | none =>
          rw [KeepsOrder, hupdate]
          change Sorted (m.handleForumTopicReceived _ _ topic).topics ↔ _
          rw [handleForumTopicReceived]
          rw [updateOf] at hupdate
          split_ifs at hupdate ⊢ with hchat
          · exact iff_of_true h fun heq => absurd heq hchat
          · rw [Option.map_eq_none_iff.mp hupdate, sorted_insertNewTopic_iff h]
            exact ⟨fun huntied _ => huntied, fun huntied => huntied (not_not.mp hchat)⟩
      | some iu =>
          rw [KeepsOrder, hupdate, (updateOf_spec hupdate).1]
          exact sorted_updateTopicAt_iff hupdate h
  | forumTopicNotFound chatId forumTopicId => 
      refine iff_of_true (sorted_handleForumTopicNotFound h chatId forumTopicId) ?_
      rintro index u ⟨⟩
  | loadMore | reset | forumTopicUpdated | forumTopicInfoUpdated | newMessageReceived | messageContentUpdated
  | messageSendSucceeded | messagesDeleted => exact sorted_step_of_keepsRows h rfl

/-- `lessThan` is a strict order, total on topics with distinct ids, and the rows are in it in every state of a run
exactly if every page goes on behind the rows and no two topics get the same rank. -/
theorem sorted_iff_keepsOrder (chatId : Int) (es : List Event) :
    ((∀ topic : ForumTopic, topic.lessThan topic = false) ∧
      (∀ topic1 topic2 topic3 : ForumTopic, topic1.lessThan topic2 = true → topic2.lessThan topic3 = true →
        topic1.lessThan topic3 = true) ∧
      ∀ topic1 topic2 : ForumTopic, topic1.id ≠ topic2.id →
        topic1.lessThan topic2 = true ∨ topic2.lessThan topic1 = true) ∧
    ((∀ es', es' <+: es → Sorted (run step (new chatId) es').topics) ↔
      Along step KeepsOrder (new chatId) es) := by
  refine ⟨lessThan_strict,
    @Along.always_iff _ _ step KeepsOrder (fun m => Sorted m.topics) (fun _ => True) (fun _ _ _ => trivial)
      (fun m e _ hm => ?_) _ trivial ?_ es⟩
  · exact sorted_step_iff hm e
  · exact List.Pairwise.nil

/-- A topic with a draft, its last message older. -/
def draftedTopicOf (chatId topicId lastMessageId messageDate draftDate : Int) : QVariantMap :=
  [(TdConst.INFO, .map [(TdConst.CHAT_ID, .longLong chatId), (TdConst.FORUM_TOPIC_ID, .longLong topicId)]),
    (TdConst.DRAFT_MESSAGE, .map (if draftDate = 0 then [] else [(TdConst.DATE, .longLong draftDate)])),
    (TdConst.LAST_MESSAGE, .map ((topicMessageOf chatId topicId lastMessageId).insert TdConst.DATE
      (.longLong messageDate)))]

/-- The draft of a topic of the first page is cleared, and the next page goes on from where the topic stood. -/
theorem not_sorted :
    ¬ Sorted (run step (new 7)
      [.forumTopicsReceived 7 [.map (draftedTopicOf 7 1 100 10 30)] 30 100 1,
        .forumTopicUpdated 7 1 [(TdConst.DRAFT_MESSAGE, .map [])],
        .loadMore, .forumTopicsReceived 7 [.map (draftedTopicOf 7 2 200 20 0)] 20 200 2]).topics := by
  decide

end ForumTopicsModel

end YaqtLib
