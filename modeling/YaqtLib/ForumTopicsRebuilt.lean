import YaqtLib.ForumTopicRoles
import YaqtLib.ForumTopicsLastMessages
import YaqtLib.ForumTopicsOrder

/-! When a topic that is received again is shown as a new one would be, and its changes are reported. -/

namespace YaqtLib

open Containers IndexMap Runs TdConst

namespace ForumTopic

/-! ### Which changes are reported -/

theorem mem_rolesIf {p : Prop} [Decidable p] {roles : List ModelRole} {role : ModelRole} :
    role ∈ rolesIf p roles ↔ p ∧ role ∈ roles := by
  rw [rolesIf]
  split_ifs with hp
  · rw [and_iff_right hp]
  · exact iff_of_false List.not_mem_nil fun h => hp h.1

/-- The roles whose data change are reported, those of the list apart. -/
def NamesChanges (texts : Texts) (apart : List ModelRole) (report : ForumTopic → Reported) : Prop :=
  ∀ topic role, role ∉ apart → roleData texts (report topic).1 role ≠ roleData texts topic role →
    role ∈ (report topic).2

section Names

variable {texts : Texts} {apart : List ModelRole}

theorem NamesChanges.andThen {first second : ForumTopic → Reported} (hfirst : NamesChanges texts apart first)
    (hsecond : NamesChanges texts apart second) : NamesChanges texts apart (andThen first second) := by
  intro topic role hapart hne
  by_cases hsame : roleData texts (first topic).1 role = roleData texts topic role
  · rw [← hsame] at hne
    exact List.mem_append_right _ (hsecond _ role hapart hne)
  · exact List.mem_append_left _ (hfirst topic role hapart hsame)

theorem NamesChanges.mono {apart' : List ModelRole} {report : ForumTopic → Reported}
    (h : NamesChanges texts apart report) (hsub : apart ⊆ apart') : NamesChanges texts apart' report :=
  fun topic role hapart => h topic role fun hmem => hapart (hsub hmem)

/-- A field is written if what is read of it changes, and the one role that shows it is reported then. -/
theorem namesChanges_ifChanged (role : ModelRole) (hsingle : role ∈ singleRoles) (changed : ForumTopic → Prop)
    [DecidablePred changed] (v : QVariant) :
    NamesChanges texts [.display] fun topic =>
      (if changed topic then { topic with data := topic.data.insert role.key v } else topic,
        rolesIf (changed topic) [role]) := by
  intro topic role' hapart hne
  have hwrites := writes_ite topic role.key v (changed topic)
  by_cases hkey : role'.key = role.key
  · refine mem_rolesIf.mpr ⟨?_, List.mem_singleton.mpr (ModelRole.eq_of_key hsingle hkey)⟩
    by_contra hkept
    apply hne
    show roleData texts (if changed topic then _ else topic) role' = _
    rw [if_neg hkept]
  · refine absurd (roleData_congr texts ?_ hwrites.id (hwrites.value_of_ne _ hkey) fun _ => ?_) hne
    · exact fun h => hapart (List.mem_singleton.mpr h)
    · have hinfo := hwrites.value_of_ne INFO (ModelRole.key_ne_info hsingle).symm
      exact congrArg (fun info : QVariant => (info.toMap.value NAME).toStr) hinfo

theorem namesChanges_reportDraftMessage (value : QVariantMap) :
    NamesChanges texts [.display] (reportDraftMessage value) := by
  intro topic role hapart hne
  have hwrites := writes_insert topic DRAFT_MESSAGE (.map value)
  by_cases hkey : role.key = DRAFT_MESSAGE
  · show role ∈ [ModelRole.draftMessageDate, .draftMessageText]
    cases role <;> first
      | exact absurd hkey (by decide)
      | decide
  · refine absurd (roleData_congr texts ?_ hwrites.id (hwrites.value_of_ne _ hkey) fun _ => ?_) hne
    · exact fun h => hapart (List.mem_singleton.mpr h)
    · exact congrArg (fun info : QVariant => (info.toMap.value NAME).toStr) (hwrites.value_of_ne INFO (by decide))

theorem namesChanges_reportForumTopicUpdate (update : QVariantMap) :
    NamesChanges texts [.display] (reportForumTopicUpdate update) := by
  refine NamesChanges.andThen ?_ (namesChanges_reportDraftMessage _)
  refine NamesChanges.andThen ?_ (namesChanges_ifChanged .notificationSettings (by decide)
    (fun topic => (topic.data.value NOTIFICATION_SETTINGS).toMap ≠ _) _)
  refine NamesChanges.andThen ?_ (namesChanges_ifChanged .unreadPollVoteCount (by decide)
    (fun topic => topic.unreadPollVoteCount ≠ _) _)
  refine NamesChanges.andThen ?_ (namesChanges_ifChanged .unreadReactionCount (by decide)
    (fun topic => topic.unreadReactionCount ≠ _) _)
  refine NamesChanges.andThen ?_ (namesChanges_ifChanged .unreadMentionCount (by decide)
    (fun topic => topic.unreadMentionCount ≠ _) _)
  refine NamesChanges.andThen ?_ (namesChanges_ifChanged .lastReadOutboxMessageId (by decide)
    (fun topic => topic.lastReadOutboxMessageId ≠ _) _)
  refine NamesChanges.andThen ?_ (namesChanges_ifChanged .lastReadInboxMessageId (by decide)
    (fun topic => topic.lastReadInboxMessageId ≠ _) _)
  exact namesChanges_ifChanged .isPinned (by decide) (fun topic => topic.isPinned ≠ _) _

/-- With the name the text of the last message may change, which is not reported. -/
theorem namesChanges_reportForumTopicInfo (newInfo : QVariantMap) :
    NamesChanges texts [.display, .lastMessageText] (reportForumTopicInfo newInfo) := by
  intro topic role hapart hne
  rw [List.mem_cons, List.mem_singleton, not_or] at hapart
  have hwrites := writes_updateForumTopicInfo topic newInfo
  by_cases hkey : role.key = INFO
  · change roleData texts (topic.updateForumTopicInfo newInfo) role ≠ _ at hne
    by_cases hsame : sameInfo topic.info newInfo = true
    · rw [updateForumTopicInfo, if_pos hsame] at hne
      exact absurd rfl hne
    have hinfo : (topic.updateForumTopicInfo newInfo).info = newInfo := by
      rw [updateForumTopicInfo, if_neg hsame]
      exact congrArg QVariant.toMap (QVariantMap.value_insert_self _ _ _)
    simp only [reportForumTopicInfo, List.mem_append, mem_rolesIf, List.mem_cons, List.not_mem_nil, or_false]
    cases role <;> first
      | exact absurd hkey (by decide)
      | simp only [reduceCtorEq, and_false, or_false, false_or, and_true, or_true]
        intro h
        exact hne (by simp only [roleData, name, iconColor, iconCustomEmojiId, isGeneral, hinfo, h])
  · refine absurd (roleData_congr texts hapart.1 hwrites.id (hwrites.value_of_ne _ hkey) fun h => ?_) hne
    exact absurd h hapart.2

theorem namesChanges_reportLastMessage (message : QVariantMap) :
    NamesChanges texts [.display] (reportLastMessage texts message) := by
  intro topic role hapart hne
  have hwrites := writes_insert topic LAST_MESSAGE (.map message)
  by_cases hkey : role.key = LAST_MESSAGE
  · change roleData texts (topic.updateLastMessage message) role ≠ _ at hne
    simp only [reportLastMessage, List.mem_append, mem_rolesIf, List.mem_cons, List.not_mem_nil, or_false]
    cases role <;> first
      | exact absurd hkey (by decide)
      | simp only [reduceCtorEq, and_false, or_false, false_or, and_true]
        intro h
        exact hne (by rw [roleData, roleData, h])
  · refine absurd (roleData_congr texts ?_ hwrites.id (hwrites.value_of_ne _ hkey) fun _ => ?_) hne
    · exact fun h => hapart (List.mem_singleton.mpr h)
    · exact congrArg (fun info : QVariant => (info.toMap.value NAME).toStr) (hwrites.value_of_ne INFO (by decide))

/-- Every change is reported but for that of the text with the name. -/
theorem namesChanges_reportForumTopicData (data : QVariantMap) :
    NamesChanges texts [.display, .lastMessageText] (reportForumTopicData texts data) := by
  have hsub : [ModelRole.display] ⊆ [.display, .lastMessageText] := by decide
  exact .andThen (.andThen ((namesChanges_reportForumTopicUpdate _).mono hsub) (namesChanges_reportForumTopicInfo _))
    ((namesChanges_reportLastMessage _).mono hsub)

theorem notMem_rolesIf {p : Prop} [Decidable p] {roles : List ModelRole} {role : ModelRole} (h : role ∉ roles) :
    role ∉ rolesIf p roles := fun hmem => h (mem_rolesIf.mp hmem).2

theorem notMem_andThen {role : ModelRole} {first second : ForumTopic → Reported}
    (hfirst : ∀ topic, role ∉ (first topic).2) (hsecond : ∀ topic, role ∉ (second topic).2) (topic : ForumTopic) :
    role ∉ (ForumTopic.andThen first second topic).2 := fun hmem =>
  (List.mem_append.mp hmem).elim (hfirst topic) (hsecond _)

theorem mem_andThen {role : ModelRole} {first second : ForumTopic → Reported} {topic : ForumTopic} :
    role ∈ (ForumTopic.andThen first second topic).2 ↔
      role ∈ (first topic).2 ∨ role ∈ (second (first topic).1).2 := List.mem_append

/-- The roles that `updateFromForumTopicUpdate` may report. -/
def updateRoles : List ModelRole :=
  [.isPinned, .lastReadInboxMessageId, .lastReadOutboxMessageId, .unreadMentionCount, .unreadReactionCount,
    .unreadPollVoteCount, .notificationSettings, .draftMessageDate, .draftMessageText]

theorem notMem_reportForumTopicUpdate {role : ModelRole} (hrole : role ∉ updateRoles) (update : QVariantMap)
    (topic : ForumTopic) : role ∉ (reportForumTopicUpdate update topic).2 := by
  have hone : ∀ other ∈ updateRoles, role ∉ [other] := fun other hother hmem =>
    hrole (List.mem_singleton.mp hmem ▸ hother)
  have hdraft : role ∉ [.draftMessageDate, .draftMessageText] := fun hmem =>
    hrole (List.mem_of_mem_drop (i := 7) hmem)
  rw [reportForumTopicUpdate]
  refine notMem_andThen (fun topic => ?_) (fun _ => hdraft) topic
  refine notMem_andThen (fun topic => ?_) (fun _ => notMem_rolesIf (hone _ (by decide))) topic
  refine notMem_andThen (fun topic => ?_) (fun _ => notMem_rolesIf (hone _ (by decide))) topic
  refine notMem_andThen (fun topic => ?_) (fun _ => notMem_rolesIf (hone _ (by decide))) topic
  refine notMem_andThen (fun topic => ?_) (fun _ => notMem_rolesIf (hone _ (by decide))) topic
  refine notMem_andThen (fun topic => ?_) (fun _ => notMem_rolesIf (hone _ (by decide))) topic
  exact notMem_andThen (fun _ => notMem_rolesIf (hone _ (by decide))) (fun _ => notMem_rolesIf (hone _ (by decide))) topic

/-- The roles that `updateForumTopicInfo` may report. -/
def infoRoles : List ModelRole :=
  [.name, .iconColor, .iconCustomEmojiId, .creationDate, .creatorId, .isGeneral, .isOutgoing, .isClosed, .isHidden,
    .isNameImplicit]

theorem mem_infoRoles {role : ModelRole} {newInfo : QVariantMap} {topic : ForumTopic}
    (h : role ∈ (reportForumTopicInfo newInfo topic).2) : role ∈ infoRoles := by
  simp only [reportForumTopicInfo, List.mem_append, mem_rolesIf, List.mem_cons, List.not_mem_nil, or_false] at h
  simp only [infoRoles, List.mem_cons, List.not_mem_nil, or_false]
  tauto

/-- What is reported of the last message is compared with the topic after the other updates. -/
theorem mem_reportForumTopicData {role : ModelRole} (hupdate : role ∉ updateRoles) (hinfo : role ∉ infoRoles)
    (data : QVariantMap) (topic : ForumTopic) : role ∈ (reportForumTopicData texts data topic).2 ↔
      role ∈ (reportLastMessage texts (data.value LAST_MESSAGE).toMap
        ((topic.updateFromForumTopicUpdate data).updateForumTopicInfo (data.value INFO).toMap)).2 := by
  rw [reportForumTopicData, mem_andThen, mem_andThen, or_iff_right (notMem_reportForumTopicUpdate hupdate data topic),
    or_iff_right fun h => hinfo (mem_infoRoles h), andThen_fst, reportForumTopicUpdate_fst, reportForumTopicInfo_fst]

theorem lastMessageText_mem_reportLastMessage (message : QVariantMap) (topic : ForumTopic) :
    .lastMessageText ∈ (reportLastMessage texts message topic).2 ↔
      topic.lastMessageText texts ≠ (topic.updateLastMessage message).lastMessageText texts := by
  simp only [reportLastMessage, List.mem_append, mem_rolesIf, List.mem_cons, List.not_mem_nil, or_false, reduceCtorEq,
    and_false, false_or, and_true]

/-- The updates before that of the last message keep it. -/
theorem lastMessage_updateForumTopicInfo (topic : ForumTopic) (data : QVariantMap) :
    ((topic.updateFromForumTopicUpdate data).updateForumTopicInfo (data.value INFO).toMap).lastMessage =
      topic.lastMessage := by
  simp (disch := decide) only [ForumTopic.lastMessage, updateFromForumTopicUpdate, updateUnreadMentionCount,
    updateUnreadReactionCount, updateUnreadPollVoteCount, value_updateIsPinned_of_ne,
    value_updateLastReadInboxMessageId_of_ne, value_updateLastReadOutboxMessageId_of_ne, value_updateCount_of_ne,
    value_updateNotificationSettings_of_ne, value_updateDraftMessage_of_ne, value_updateForumTopicInfo_of_ne]

theorem name_of_sameInfo {topic topic' : ForumTopic} (h : sameInfo topic.info topic'.info = true) :
    topic.name = topic'.name := by
  simp only [sameInfo, Bool.and_eq_true, beq_iff_eq] at h
  exact h.1.1.1.1

theorem lastMessageText_updateForumTopicData (texts : Texts) (topic : ForumTopic) (data : QVariantMap) :
    (topic.updateForumTopicData data).lastMessageText texts = (ForumTopic.new data).lastMessageText texts := by
  rw [lastMessageText, lastMessageText, name_of_sameInfo (sameInfo_updateForumTopicData topic data),
    (readsLike_updateForumTopicData topic data).lastMessage]

/-- The texts that are compared are both composed with the new name. -/
theorem lastMessageText_mem_reportForumTopicData (data : QVariantMap) (topic : ForumTopic) :
    .lastMessageText ∈ (reportForumTopicData texts data topic).2 ↔
      texts.messageText topic.lastMessage (ForumTopic.new data).name ≠ (ForumTopic.new data).lastMessageText texts := by
  have hbefore := @name_of_sameInfo _ (ForumTopic.new data)
    (sameInfo_updateForumTopicInfo (topic.updateFromForumTopicUpdate data) (data.value INFO).toMap)
  have hlast := lastMessage_updateForumTopicInfo topic data
  have htext := lastMessageText_updateForumTopicData texts topic data
  rw [updateForumTopicData] at htext
  rw [mem_reportForumTopicData (by decide) (by decide), ← htext, ← hbefore, ← hlast]
  generalize (topic.updateFromForumTopicUpdate data).updateForumTopicInfo (data.value INFO).toMap = topic'
  exact lastMessageText_mem_reportLastMessage _ topic'

/-- The roles of the order of the topics. -/
def Role.modelRole : Role → ModelRole
  | .isPinned => .isPinned
  | .lastMessageId => .lastMessageId
  | .lastMessageDate => .lastMessageDate
  | .draftMessageDate => .draftMessageDate

theorem mem_andThen_of_notMem {role : ModelRole} {first second : ForumTopic → Reported}
    (hsecond : ∀ topic, role ∉ (second topic).2) (topic : ForumTopic) :
    role ∈ (ForumTopic.andThen first second topic).2 ↔ role ∈ (first topic).2 := by
  rw [mem_andThen, or_iff_left (hsecond _)]

theorem isPinned_mem_reportForumTopicUpdate (update : QVariantMap) (topic : ForumTopic) :
    .isPinned ∈ (reportForumTopicUpdate update topic).2 ↔ topic.isPinned ≠ (update.value IS_PINNED).toBool := by
  have hdraft : ModelRole.isPinned ∉ [ModelRole.draftMessageDate, .draftMessageText] := by decide
  rw [reportForumTopicUpdate]
  refine (mem_andThen_of_notMem (fun _ => hdraft) topic).trans ?_
  refine (mem_andThen_of_notMem (fun _ => notMem_rolesIf (by decide)) topic).trans ?_
  refine (mem_andThen_of_notMem (fun _ => notMem_rolesIf (by decide)) topic).trans ?_
  refine (mem_andThen_of_notMem (fun _ => notMem_rolesIf (by decide)) topic).trans ?_
  refine (mem_andThen_of_notMem (fun _ => notMem_rolesIf (by decide)) topic).trans ?_
  refine (mem_andThen_of_notMem (fun _ => notMem_rolesIf (by decide)) topic).trans ?_
  refine (mem_andThen_of_notMem (fun _ => notMem_rolesIf (by decide)) topic).trans ?_
  rw [reportIsPinned, mem_rolesIf, and_iff_left (List.mem_singleton_self _)]

theorem draftMessageDate_mem_reportForumTopicData (data : QVariantMap) (topic : ForumTopic) :
    .draftMessageDate ∈ (reportForumTopicData texts data topic).2 := by
  have hdraft : .draftMessageDate ∈ (reportForumTopicUpdate data topic).2 := by
    rw [reportForumTopicUpdate, mem_andThen]
    exact .inr List.mem_cons_self
  rw [reportForumTopicData, mem_andThen, mem_andThen]
  exact .inl (.inl hdraft)

/-- The roles of the order are reported as the model has it. -/
theorem modelRole_mem_reportForumTopicData (data : QVariantMap) (topic : ForumTopic) (role : Role) :
    role.modelRole ∈ (reportForumTopicData texts data topic).2 ↔ role ∈ topic.rolesOfForumTopicData data := by
  have hlast := lastMessage_updateForumTopicInfo topic data
  have hdate : ∀ topic' : ForumTopic, topic'.lastMessage = topic.lastMessage →
      topic'.lastMessageDate = topic.lastMessageDate := fun _ h => by rw [lastMessageDate, h]; rfl
  have hid : ∀ topic' : ForumTopic, topic'.lastMessage = topic.lastMessage →
      topic'.lastMessageId = topic.lastMessageId := fun _ h => congrArg messageIdOf h
  rw [rolesOfForumTopicData, rolesOfForumTopicUpdate, rolesOfLastMessage, List.mem_append, List.mem_append,
    List.mem_append]
  generalize htopic : (topic.updateFromForumTopicUpdate data).updateForumTopicInfo (data.value INFO).toMap = topic'
    at hlast
  cases role with
  | isPinned =>
      have hinfo : ModelRole.isPinned ∉ infoRoles := by decide
      have hmessage : ∀ topic : ForumTopic,
          .isPinned ∉ (reportLastMessage texts (data.value LAST_MESSAGE).toMap topic).2 := fun topic => by
        simp only [reportLastMessage, List.mem_append, mem_rolesIf, List.mem_cons, List.not_mem_nil, or_false,
          reduceCtorEq, and_false, not_false_eq_true]
      rw [Role.modelRole, reportForumTopicData, mem_andThen, or_iff_left (hmessage _), mem_andThen,
        or_iff_left fun h => hinfo (mem_infoRoles h), isPinned_mem_reportForumTopicUpdate]
      simp only [List.mem_ite_nil_right, List.mem_cons, List.not_mem_nil, or_false, reduceCtorEq, and_false, and_true]
  | draftMessageDate =>
      exact iff_of_true (draftMessageDate_mem_reportForumTopicData data topic) (.inl (.inr List.mem_cons_self))
  | lastMessageId =>
      rw [Role.modelRole, mem_reportForumTopicData (by decide) (by decide), htopic]
      simp only [reportLastMessage, List.mem_append, mem_rolesIf, List.mem_cons, List.not_mem_nil, or_false,
        reduceCtorEq, and_false, false_or, and_true, hid topic' hlast, lastMessageId_updateLastMessage,
        List.mem_ite_nil_right]
  | lastMessageDate =>
      have hwritten : ∀ message : QVariantMap,
          (topic'.updateLastMessage message).lastMessageDate = (message.value DATE).toLongLong := fun message => by
        rw [lastMessageDate, lastMessage, updateLastMessage, QVariantMap.value_insert_self, QVariant.toMap]
      rw [Role.modelRole, mem_reportForumTopicData (by decide) (by decide), htopic]
      simp only [reportLastMessage, List.mem_append, mem_rolesIf, List.mem_cons, List.not_mem_nil, or_false,
        reduceCtorEq, and_false, false_or, and_true, hdate topic' hlast, hwritten, List.mem_ite_nil_right]

end Names

end ForumTopic

namespace ForumTopicsModel

open ForumTopic (Texts ModelRole roleData reportForumTopicData)

/-- The rows and roles for which `handleForumTopicReceived` emits `dataChanged`. -/
def dataChangedOnReceived (texts : Texts) (m : ForumTopicsModel) (chatId forumTopicId : Int) (topic : QVariantMap) :
    List (Nat × List ModelRole) :=
  if m.chatId ≠ chatId then []
  else
    match m.topicIndexMap.value forumTopicId with
    | none => []
    | some forumTopicIndex =>
        match m.topics[forumTopicIndex]? with
        | none => []
        | some forumTopic =>
            let (forumTopic, changedRoles) := reportForumTopicData texts topic forumTopic
            if changedRoles.isEmpty then []
            else if .isPinned ∈ changedRoles ∨ .lastMessageDate ∈ changedRoles ∨ .draftMessageDate ∈ changedRoles ∨
                .lastMessageId ∈ changedRoles then
              [(newIndexOf (m.topics.set forumTopicIndex forumTopic) forumTopic forumTopicIndex, changedRoles)]
            else [(forumTopicIndex, changedRoles)]

/-- A topic that is received is shown as a new one would be, and the roles that change are reported, the data for
display apart. -/
structure Rebuilds (texts : Texts) (m : ForumTopicsModel) (topic : QVariantMap) : Prop where
  rebuilt : ∀ forumTopic ∈ (m.handleForumTopicReceived m.chatId (ForumTopic.new topic).id topic).topics,
    forumTopic.id = (ForumTopic.new topic).id → ∀ role, role ≠ .display →
      roleData texts forumTopic role = roleData texts (.new topic) role
  reported : ∀ index forumTopic, m.topics[index]? = some forumTopic →
    m.topicIndexMap.value (ForumTopic.new topic).id = some index →
      ∃ row forumTopic' changedRoles,
        (m.handleForumTopicReceived m.chatId (ForumTopic.new topic).id topic).topics[row]? = some forumTopic' ∧
        (row, changedRoles) ∈ m.dataChangedOnReceived texts m.chatId (ForumTopic.new topic).id topic ∧
        ∀ role, role ≠ .display → roleData texts forumTopic' role ≠ roleData texts forumTopic role → role ∈ changedRoles

/-- A text that reads alike under the new name was the same under the old one. -/
def TextKept (texts : Texts) (forumTopic : ForumTopic) (topic : QVariantMap) : Prop :=
  texts.messageText forumTopic.lastMessage (ForumTopic.new topic).name = (ForumTopic.new topic).lastMessageText texts →
    forumTopic.lastMessageText texts = (ForumTopic.new topic).lastMessageText texts

/-- The unread count is that of the topic received, and no text changes with the name alone; a row of the topic that
the index map does not lead to shows it already. -/
def RebuildsWhen (texts : Texts) (m : ForumTopicsModel) (topic : QVariantMap) : Prop :=
  ∀ index forumTopic, m.topics[index]? = some forumTopic → forumTopic.id = (ForumTopic.new topic).id →
    if m.topicIndexMap.value (ForumTopic.new topic).id = some index then
      forumTopic.unreadCount = (ForumTopic.new topic).unreadCount ∧ TextKept texts forumTopic topic
    else ∀ role, role ≠ .display → roleData texts forumTopic role = roleData texts (.new topic) role

section Rebuilt

variable {texts : Texts} {m : ForumTopicsModel} {topic : QVariantMap}

/-- One topic. -/
theorem roleData_eq_iff {forumTopic : ForumTopic} (hid : forumTopic.id = (ForumTopic.new topic).id) :
    (∀ role, role ≠ .display →
      roleData texts (forumTopic.updateForumTopicData topic) role = roleData texts (.new topic) role) ↔
      forumTopic.unreadCount = (ForumTopic.new topic).unreadCount := by
  constructor
  · intro h
    have hcount := h .unreadCount (by decide)
    rw [roleData, roleData, forumTopic.unreadCount_updateForumTopicData] at hcount
    injection hcount with hcount
    injection hcount
  · intro hcount role hdisplay
    by_cases hrole : role = .unreadCount
    · rw [hrole, roleData, roleData, forumTopic.unreadCount_updateForumTopicData, hcount]
    · exact forumTopic.roleData_updateForumTopicData texts topic hdisplay hrole hid

theorem roleData_lastMessageText_eq_iff {forumTopic forumTopic' : ForumTopic} :
    roleData texts forumTopic .lastMessageText = roleData texts forumTopic' .lastMessageText ↔
      forumTopic.lastMessageText texts = forumTopic'.lastMessageText texts := by
  rw [roleData, roleData, ForumTopic.RoleValue.variant.injEq, QVariant.string.injEq]

/-- The changes of one topic are reported. -/
theorem reported_iff {forumTopic : ForumTopic} :
    (∀ role, role ≠ .display →
      roleData texts (forumTopic.updateForumTopicData topic) role ≠ roleData texts forumTopic role →
        role ∈ (reportForumTopicData texts topic forumTopic).2) ↔ TextKept texts forumTopic topic := by
  have htext := ForumTopic.lastMessageText_updateForumTopicData texts forumTopic topic
  have hmem := @ForumTopic.lastMessageText_mem_reportForumTopicData texts topic forumTopic
  have hnames := @ForumTopic.namesChanges_reportForumTopicData texts topic forumTopic
  rw [ForumTopic.reportForumTopicData_fst] at hnames
  rw [TextKept]
  generalize forumTopic.updateForumTopicData topic = updated at htext hnames ⊢
  generalize (reportForumTopicData texts topic forumTopic).2 = changedRoles at hmem hnames ⊢
  constructor
  · intro h halike
    by_contra hne
    refine hmem.mp (h .lastMessageText (by decide) fun heq => hne ?_) halike
    exact (roleData_lastMessageText_eq_iff.mp heq).symm.trans htext
  · intro h role hdisplay hne
    by_cases hrole : role = .lastMessageText
    · subst hrole
      refine hmem.mpr fun halike => hne ?_
      exact roleData_lastMessageText_eq_iff.mpr (htext.trans (h halike).symm)
    · refine hnames role ?_ hne
      rw [List.mem_cons, List.mem_singleton, not_or]
      exact ⟨hdisplay, hrole⟩

end Rebuilt

/-! ### The row of an updated topic -/

section Row

variable {m : ForumTopicsModel} {index : Nat} {topic : ForumTopic}

theorem getElem?_updateForumTopicOrder (htopic : m.topics[index]? = some topic) :
    (m.updateForumTopicOrder index).topics[newIndexOf m.topics topic index]? = some topic := by
  rw [updateForumTopicOrder_eq htopic]
  split_ifs with hstays
  · rw [hstays]
    exact htopic
  · exact getElem?_move (moveInRange_newIndexOf htopic) htopic

theorem topics_updateTopicAt (htopic : m.topics[index]? = some topic) (u : TopicUpdate) :
    (m.updateTopicAt index u).topics =
      if u.Moves topic then
        (updateForumTopicOrder { m with topics := m.topics.set index (u.update topic) } index).topics
      else m.topics.set index (u.update topic) := by
  rw [updateTopicAt, htopic]
  exact topics_handleForumTopicRolesChanged topic _

theorem getElem?_set_self (htopic : m.topics[index]? = some topic) (topic' : ForumTopic) :
    (m.topics.set index topic')[index]? = some topic' := by
  rw [List.getElem?_set, if_pos rfl, if_pos (List.getElem?_eq_some_iff.mp htopic).1]

/-- A topic that may move is in the row the order gives it. -/
theorem getElem?_updateTopicAt (htopic : m.topics[index]? = some topic) {u : TopicUpdate} (hmoves : u.Moves topic) :
    (m.updateTopicAt index u).topics[newIndexOf (m.topics.set index (u.update topic)) (u.update topic) index]? =
      some (u.update topic) := by
  rw [topics_updateTopicAt htopic, if_pos hmoves]
  exact getElem?_updateForumTopicOrder (getElem?_set_self htopic _)

theorem mem_set_iff (htopic : m.topics[index]? = some topic) (topic' other : ForumTopic) :
    other ∈ m.topics.set index topic' ↔ other = topic' ∨ ∃ row, row ≠ index ∧ m.topics[row]? = some other := by
  rw [List.mem_iff_getElem?]
  constructor
  · rintro ⟨row, hrow⟩
    by_cases heq : row = index
    · rw [heq, getElem?_set_self htopic, Option.some.injEq] at hrow
      exact .inl hrow.symm
    · rw [List.getElem?_set_ne (Ne.symm heq)] at hrow
      exact .inr ⟨row, heq, hrow⟩
  · rintro (rfl | ⟨row, hne, hrow⟩)
    · exact ⟨index, getElem?_set_self htopic _⟩
    · refine ⟨row, ?_⟩
      rw [List.getElem?_set_ne hne.symm]
      exact hrow

end Row

/-! ### Every state -/

section Received

variable {texts : Texts} {m : ForumTopicsModel} {topic : QVariantMap}

theorem handleForumTopicReceived_of_listed {index : Nat}
    (hvalue : m.topicIndexMap.value (ForumTopic.new topic).id = some index) :
    m.handleForumTopicReceived m.chatId (ForumTopic.new topic).id topic = m.updateTopicAt index (.data topic) := by
  rw [handleForumTopicReceived, if_neg (not_not.mpr rfl), hvalue]

theorem handleForumTopicReceived_of_unlisted (hvalue : m.topicIndexMap.value (ForumTopic.new topic).id = none) :
    m.handleForumTopicReceived m.chatId (ForumTopic.new topic).id topic = m.insertNewTopic topic := by
  rw [handleForumTopicReceived, if_neg (not_not.mpr rfl), hvalue]

/-- The draft's roles are always reported, so the topic is always put in its place. -/
theorem moves_data (topic : QVariantMap) (forumTopic : ForumTopic) : (TopicUpdate.data topic).Moves forumTopic := by
  refine .inr (.inr (.inl ?_))
  exact List.mem_append_left _ (List.mem_append_right _ List.mem_cons_self)

theorem dataChangedOnReceived_of_listed {index : Nat} {forumTopic : ForumTopic}
    (htopic : m.topics[index]? = some forumTopic)
    (hvalue : m.topicIndexMap.value (ForumTopic.new topic).id = some index) :
    m.dataChangedOnReceived texts m.chatId (ForumTopic.new topic).id topic =
      [(newIndexOf (m.topics.set index (forumTopic.updateForumTopicData topic))
          (forumTopic.updateForumTopicData topic) index, (reportForumTopicData texts topic forumTopic).2)] := by
  have hdraft := @ForumTopic.draftMessageDate_mem_reportForumTopicData texts topic forumTopic
  have hne : (reportForumTopicData texts topic forumTopic).2.isEmpty = false :=
    List.isEmpty_eq_false_iff.mpr (List.ne_nil_of_mem hdraft)
  rw [dataChangedOnReceived, if_neg (not_not.mpr rfl), hvalue]
  dsimp only
  rw [htopic]
  dsimp only
  rw [hne, if_neg Bool.false_ne_true, if_pos (.inr (.inr (.inl hdraft))), ForumTopic.reportForumTopicData_fst]

/-- The rows of a topic that is not in the index map must show the topic received already. -/
theorem rebuilds_iff_of_unlisted (hvalue : m.topicIndexMap.value (ForumTopic.new topic).id = none) :
    Rebuilds texts m topic ↔ RebuildsWhen texts m topic := by
  obtain ⟨pre, tail, htopics, hinsert⟩ := insertNewTopic_eq m topic
  have hmem : ∀ forumTopic, forumTopic ∈ (m.handleForumTopicReceived m.chatId (ForumTopic.new topic).id topic).topics ↔
      forumTopic = .new topic ∨ forumTopic ∈ m.topics := by
    intro forumTopic
    rw [handleForumTopicReceived_of_unlisted hvalue, hinsert, htopics]
    simp only [List.mem_append, List.mem_cons]
    tauto
  constructor
  · intro h index forumTopic htopic hid
    rw [if_neg (by rw [hvalue]; nofun)]
    exact h.rebuilt forumTopic ((hmem _).mpr (.inr (List.mem_of_getElem? htopic))) hid
  · refine fun h => ⟨fun forumTopic hforumTopic hid => ?_, fun index forumTopic _ hindex => ?_⟩
    · rcases (hmem _).mp hforumTopic with rfl | hold
      · exact fun _ _ => rfl
      · obtain ⟨index, hindex⟩ := List.mem_iff_getElem?.mp hold
        have hrow := h index forumTopic hindex hid
        rwa [if_neg (by rw [hvalue]; nofun)] at hrow
    · rw [hvalue] at hindex
      cases hindex

/-- The row that the index map leads to is updated, and the other rows of the topic are not. -/
theorem rebuilds_iff_of_listed {index : Nat} {forumTopic : ForumTopic} (htopic : m.topics[index]? = some forumTopic)
    (hid : forumTopic.id = (ForumTopic.new topic).id)
    (hvalue : m.topicIndexMap.value (ForumTopic.new topic).id = some index) :
    Rebuilds texts m topic ↔ RebuildsWhen texts m topic := by
  have hmem : ∀ other, other ∈ (m.handleForumTopicReceived m.chatId (ForumTopic.new topic).id topic).topics ↔
      other = forumTopic.updateForumTopicData topic ∨ ∃ row, row ≠ index ∧ m.topics[row]? = some other := by
    intro other
    rw [handleForumTopicReceived_of_listed hvalue, (topics_updateTopicAt_perm htopic _).mem_iff]
    exact mem_set_iff htopic _ other
  have hrow := getElem?_updateTopicAt htopic (moves_data topic forumTopic)
  rw [← handleForumTopicReceived_of_listed hvalue] at hrow
  have hchanged := @dataChangedOnReceived_of_listed texts _ _ _ _ htopic hvalue
  have hid' := (ForumTopic.id_updateForumTopicData forumTopic topic).trans hid
  constructor
  · intro h row other hother hotherId
    by_cases heq : row = index
    · subst heq
      obtain rfl : forumTopic = other := Option.some.inj (htopic.symm.trans hother)
      rw [if_pos hvalue]
      refine ⟨(@roleData_eq_iff texts _ _ hid).mp (h.rebuilt _ ((hmem _).mpr (.inl rfl)) hid'), ?_⟩
      obtain ⟨row', updated, changedRoles, hupdated, hreported, hroles⟩ := h.reported row forumTopic htopic hvalue
      rw [hchanged, List.mem_singleton, Prod.mk.injEq] at hreported
      obtain ⟨rfl, rfl⟩ := hreported
      obtain rfl : forumTopic.updateForumTopicData topic = updated := Option.some.inj (hrow.symm.trans hupdated)
      exact reported_iff.mp hroles
    · rw [if_neg fun hsome => heq (Option.some.inj (hvalue.symm.trans hsome)).symm]
      exact h.rebuilt other ((hmem _).mpr (.inr ⟨row, heq, hother⟩)) hotherId
  · intro h
    have hkept := h index forumTopic htopic hid
    rw [if_pos hvalue] at hkept
    refine ⟨fun other hother hotherId => ?_, fun row other hother hindex => ?_⟩
    · rcases (hmem _).mp hother with rfl | ⟨row, hne, hother⟩
      · exact (roleData_eq_iff hid).mpr hkept.1
      · have hothers := h row other hother hotherId
        rwa [if_neg fun hsome => hne (Option.some.inj (hvalue.symm.trans hsome)).symm] at hothers
    · obtain rfl : index = row := Option.some.inj (hvalue.symm.trans hindex)
      obtain rfl : forumTopic = other := Option.some.inj (htopic.symm.trans hother)
      refine ⟨_, _, _, hrow, ?_, reported_iff.mpr hkept.2⟩
      rw [hchanged]
      exact List.mem_singleton_self _

theorem rebuilds_iff_of_leads (hm : Leads idKey m.topics m.topicIndexMap) :
    Rebuilds texts m topic ↔ RebuildsWhen texts m topic := by
  cases hvalue : m.topicIndexMap.value (ForumTopic.new topic).id with
  | none => exact rebuilds_iff_of_unlisted hvalue
  | some index =>
      obtain ⟨forumTopic, htopic, hid⟩ := hm _ _ hvalue
      exact rebuilds_iff_of_listed htopic (Option.some.inj hid) hvalue

end Received

theorem leads_run (chatId : Int) (es : List Event) :
    Leads idKey (run step (new chatId) es).topics (run step (new chatId) es).topicIndexMap :=
  Along.invariant (P := fun _ _ => True) (I := fun m : ForumTopicsModel => Leads idKey m.topics m.topicIndexMap)
    (fun _ e hm _ => leads_step hm e) Indexes.empty.leads (along_true _ es)

/-- **Updating equals rebuilding.** In every state that is reached, a topic that is received is shown as a new one would
be, with all changes reported, exactly if its unread count has not changed and no text changes with the name alone. -/
theorem rebuilds_iff (texts : Texts) (chatId : Int) (es : List Event) (topic : QVariantMap) :
    Rebuilds texts (run step (new chatId) es) topic ↔ RebuildsWhen texts (run step (new chatId) es) topic :=
  rebuilds_iff_of_leads (leads_run chatId es)

/-- A topic that was closed by its last message. -/
def closedTopicOf (chatId topicId lastMessageId : Int) (name : String) : QVariantMap :=
  [(INFO, .map [(CHAT_ID, .longLong chatId), (FORUM_TOPIC_ID, .longLong topicId), (NAME, .string name)]),
    (LAST_MESSAGE, .map ((topicMessageOf chatId topicId lastMessageId).insert CONTENT
      (.map [(TYPE_, .string "messageForumTopicIsClosedToggled"), ("is_closed", .bool true)])))]

/-- The text of the last message of such a topic, in the source language. -/
def closedText : Texts :=
  ⟨fun message name =>
    if ((message.value CONTENT).toMap.value TYPE_).toStr = "messageForumTopicIsClosedToggled" then
      "closed the topic \"" ++ name ++ "\""
    else ""⟩

/-- A topic is received again with unread messages, and one with another name. -/
theorem not_rebuilds :
    ¬ Rebuilds closedText (run step (new 7) [.forumTopicsReceived 7 [.map (topicOf 7 1 10)] 5 10 1])
        ((topicOf 7 1 10).insert UNREAD_COUNT (.longLong 3)) ∧
      ¬ Rebuilds closedText (run step (new 7) [.forumTopicsReceived 7 [.map (closedTopicOf 7 1 10 "a")] 5 10 1])
        (closedTopicOf 7 1 10 "b") := by
  refine ⟨fun h => ?_, fun h => ?_⟩
  · have hrow := (rebuilds_iff _ _ _ _).mp h 0 (.new (topicOf 7 1 10)) rfl rfl
    rw [if_pos (by decide)] at hrow
    exact absurd hrow.1 (by decide)
  · have hrow := (rebuilds_iff _ _ _ _).mp h 0 (.new (closedTopicOf 7 1 10 "a")) rfl rfl
    rw [if_pos (by decide)] at hrow
    exact absurd (hrow.2 rfl) (by decide)

end ForumTopicsModel

end YaqtLib
