import YaqtLib.OnlineFlag

/-! The statuses of a group in its chats. Basic groups and supergroups are numbered apart, but an update of a group
reaches the chats by the number alone. -/

namespace YaqtLib

namespace Account

open Containers Runs TdConst

inductive GroupKind where
  | basic
  | super
  deriving DecidableEq

namespace GroupKind

/-- The type of the chats of such groups. -/
def chatType : GroupKind → ChatType
  | .basic => .basicGroup
  | .super => .supergroup

/-- The number of the group that the data of such a chat name. -/
def groupIdOf (kind : GroupKind) (data : QVariantMap) : Int :=
  ((data.value TYPE).toMap.value (match kind with
    | .basic => BASIC_GROUP_ID
    | .super => SUPERGROUP_ID)).toLongLong

end GroupKind

/-- The two statuses that a chat has of its group. -/
structure GroupStatus where
  memberStatus : ChatMemberStatus
  verificationStatus : QVariantMap
  deriving DecidableEq

/-- The statuses that the information of a group tells; of an unknown group nothing is known. -/
def statusOf : Option QVariantMap → GroupStatus
  | none => { memberStatus := .unknown, verificationStatus := [] }
  | some groupInfo =>
      { memberStatus := chatMemberStatusFromString ((groupInfo.value STATUS).toMap.value TYPE_).toStr
        verificationStatus := (groupInfo.value VERIFICATION_STATUS).toMap }

namespace ChatData

def groupStatus (chat : ChatData) : GroupStatus :=
  { memberStatus := chat.memberStatus, verificationStatus := chat.verificationStatus }

theorem groupStatus_updateGroup (chat : ChatData) (group : Group) :
    (chat.updateGroup group).groupStatus =
      if chat.groupId = group.groupId then statusOf (some group.groupInfo) else chat.groupStatus := by
  rw [updateGroup]
  split_ifs <;> rfl

theorem groupId_updateGroup (chat : ChatData) (group : Group) : (chat.updateGroup group).groupId = chat.groupId := by
  rw [updateGroup]
  split_ifs <;> rfl

end ChatData

namespace TDLibData

def groupsOf (d : TDLibData) : GroupKind → QHash Int Group
  | .basic => d.basicGroups
  | .super => d.superGroups

/-- The slot for updates of the groups of a kind. -/
def handleGroupUpdated (d : TDLibData) (kind : GroupKind) (groupId : Int) (groupInformation : QVariantMap) : TDLibData :=
  match kind with
  | .basic => d.handleBasicGroupUpdated groupId groupInformation
  | .super => d.handleSupergroupUpdated groupId groupInformation

/-- The information that is stored of a group. -/
def groupInfoOf (d : TDLibData) (kind : GroupKind) (groupId : Int) : Option QVariantMap :=
  ((d.groupsOf kind).value groupId).map Group.groupInfo

/-- A group is stored under its number. -/
def GroupsKeyed (d : TDLibData) : Prop :=
  ∀ kind groupId group, (d.groupsOf kind).value groupId = some group → group.groupId = groupId

/-- Only chats of the group have other statuses in `d'`. -/
def ChangesGroupOnly (d : TDLibData) (kind : GroupKind) (groupId : Int) (d' : TDLibData) : Prop :=
  ∀ id chat, d.chats.value id = some chat → ¬ (chat.chatType = kind.chatType ∧ chat.groupId = groupId) →
    ∃ chat', d'.chats.value id = some chat' ∧ chat'.groupStatus = chat.groupStatus

end TDLibData

/-- The updates of groups and of new chats. -/
inductive GroupEvent where
  | updateGroup (kind : GroupKind) (groupId : Int) (groupInformation : QVariantMap)
  | updateNewChat (chat : QVariantMap)

namespace GroupEvent

open TDLibData

def step (d : TDLibData) : GroupEvent → TDLibData
  | .updateGroup kind groupId groupInformation => d.handleGroupUpdated kind groupId groupInformation
  | .updateNewChat chat => d.handleNewChatDiscovered chat

/-- What an event tells about a group. -/
def informs (kind : GroupKind) (groupId : Int) : GroupEvent → Option QVariantMap
  | .updateGroup kind' groupId' groupInformation =>
      if kind' = kind ∧ groupId' = groupId then some groupInformation else none
  | .updateNewChat _ => none

/-- The chats of groups show what the last update of their group has told. -/
def ShowLast (es : List GroupEvent) (d : TDLibData) : Prop :=
  ∀ id chat, d.chats.value id = some chat → ∀ kind : GroupKind, chat.chatType = kind.chatType →
    chat.groupStatus = statusOf (lastOf (informs kind chat.groupId) es)

/-- The same of the information that is stored. -/
def ShowStored (d : TDLibData) : Prop :=
  ∀ id chat, d.chats.value id = some chat → ∀ kind : GroupKind, chat.chatType = kind.chatType →
    chat.groupStatus = statusOf (d.groupInfoOf kind chat.groupId)

/-- What an update may do, told from the store before it: the chats of the group of the other kind with the same number
have these statuses already, and a chat of the group 0 is new while nothing is known of it. -/
def RespectsKinds (d : TDLibData) : GroupEvent → Prop
  | .updateGroup kind groupId groupInformation =>
      ∀ id chat, d.chats.value id = some chat → chat.groupId = groupId →
        ∀ kind' : GroupKind, kind' ≠ kind → chat.chatType = kind'.chatType →
          chat.groupStatus = statusOf (some groupInformation)
  | .updateNewChat chat =>
      ∀ kind : GroupKind, chatTypeFromString ((chat.value TYPE).toMap.value TYPE_).toStr = kind.chatType →
        kind.groupIdOf chat = 0 → statusOf (d.groupInfoOf kind 0) = statusOf none

/-! ### One update -/

theorem chats_handleGroupUpdated (d : TDLibData) (kind : GroupKind) (groupId : Int) (groupInformation : QVariantMap)
    (id : Int) : (d.handleGroupUpdated kind groupId groupInformation).chats.value id =
      (d.chats.value id).map fun chat => chat.updateGroup { groupId := groupId, groupInfo := groupInformation } := by
  cases kind <;> rfl

theorem groupsOf_handleGroupUpdated (d : TDLibData) (kind : GroupKind) (groupId : Int)
    (groupInformation : QVariantMap) (kind' : GroupKind) :
    (d.handleGroupUpdated kind groupId groupInformation).groupsOf kind' =
      if kind = kind' then (d.groupsOf kind').insert groupId { groupId := groupId, groupInfo := groupInformation }
      else d.groupsOf kind' := by
  cases kind <;> cases kind' <;> rfl

theorem groupInfoOf_step (d : TDLibData) (e : GroupEvent) (kind : GroupKind) (groupId : Int) :
    (step d e).groupInfoOf kind groupId = ((informs kind groupId e).map some).getD (d.groupInfoOf kind groupId) := by
  cases e with
  | updateNewChat chat => cases kind <;> rfl
  | updateGroup kind' groupId' info =>
      rw [informs, step, groupInfoOf, groupsOf_handleGroupUpdated]
      by_cases hkind : kind' = kind
      · rw [if_pos hkind, QHash.value_insert]
        by_cases hid : groupId = groupId'
        · rw [if_pos hid, if_pos ⟨hkind, hid.symm⟩]
          rfl
        · rw [if_neg hid, if_neg fun h => hid h.2.symm]
          rfl
      · rw [if_neg hkind, if_neg fun h => hkind h.1]
        rfl

theorem groupsKeyed_step (d : TDLibData) (e : GroupEvent) (h : d.GroupsKeyed) : (step d e).GroupsKeyed := by
  cases e with
  | updateNewChat chat =>
      rintro (_ | _) groupId group hgroup
      · exact h .basic groupId group hgroup
      · exact h .super groupId group hgroup
  | updateGroup kind' groupId' info =>
      intro kind groupId group hgroup
      rw [step, groupsOf_handleGroupUpdated] at hgroup
      split_ifs at hgroup with hkind
      · rw [QHash.value_insert] at hgroup
        split_ifs at hgroup with hid
        · rw [← Option.some.inj hgroup, hid]
        · exact h kind groupId group hgroup
      · exact h kind groupId group hgroup

/-- An update of a group changes only its chats exactly if the others with its number have its statuses already. -/
theorem changesGroupOnly_iff (d : TDLibData) (kind : GroupKind) (groupId : Int) (groupInformation : QVariantMap) :
    d.ChangesGroupOnly kind groupId (d.handleGroupUpdated kind groupId groupInformation) ↔
      ∀ id chat, d.chats.value id = some chat → chat.groupId = groupId → chat.chatType ≠ kind.chatType →
        chat.groupStatus = statusOf (some groupInformation) := by
  constructor
  · intro h id chat hchat hid htype
    obtain ⟨chat', hchat', hstatus⟩ := h id chat hchat fun hown => htype hown.1
    rw [chats_handleGroupUpdated, hchat, Option.map_some] at hchat'
    rw [← hstatus, ← Option.some.inj hchat', ChatData.groupStatus_updateGroup, if_pos hid]
  · intro h id chat hchat hother
    refine ⟨chat.updateGroup { groupId := groupId, groupInfo := groupInformation }, ?_, ?_⟩
    · rw [chats_handleGroupUpdated, hchat, Option.map_some]
    · rw [ChatData.groupStatus_updateGroup]
      split_ifs with hid
      · exact (h id chat hchat hid fun htype => hother ⟨htype, hid⟩).symm
      · rfl

theorem showStored_updateGroup_iff {d : TDLibData} (h : ShowStored d) (kind : GroupKind) (groupId : Int)
    (groupInformation : QVariantMap) :
    ShowStored (step d (.updateGroup kind groupId groupInformation)) ↔
      RespectsKinds d (.updateGroup kind groupId groupInformation) := by
  have hother : ∀ {kind' groupId'}, ¬ (kind = kind' ∧ groupId = groupId') →
      (step d (.updateGroup kind groupId groupInformation)).groupInfoOf kind' groupId' = d.groupInfoOf kind' groupId' := by
    intro kind' groupId' hne
    rw [groupInfoOf_step, informs, if_neg hne]
    rfl
  have hown : (step d (.updateGroup kind groupId groupInformation)).groupInfoOf kind groupId = some groupInformation := by
    rw [groupInfoOf_step, informs, if_pos ⟨rfl, rfl⟩]
    rfl
  constructor
  · intro hafter id chat hchat hid kind' hkind htype
    have hchat' : (step d (.updateGroup kind groupId groupInformation)).chats.value id =
        some (chat.updateGroup { groupId := groupId, groupInfo := groupInformation }) := by
      rw [step, chats_handleGroupUpdated, hchat, Option.map_some]
    have hstatus := hafter id _ hchat' kind' ((PresenceEvent.chatType_updateGroup chat _).trans htype)
    rw [ChatData.groupStatus_updateGroup, if_pos hid, ChatData.groupId_updateGroup,
      hother fun hboth => hkind hboth.1.symm] at hstatus
    rw [hstatus]
    exact h id chat hchat kind' htype
  · intro hrespects id chat' hchat' kind' htype
    rw [step, chats_handleGroupUpdated] at hchat'
    obtain ⟨chat, hchat, rfl⟩ := Option.map_eq_some_iff.mp hchat'
    rw [PresenceEvent.chatType_updateGroup] at htype
    rw [ChatData.groupStatus_updateGroup, ChatData.groupId_updateGroup]
    split_ifs with hid
    · by_cases hkind : kind' = kind
      · rw [hkind, hid, hown]
      · rw [hother fun hboth => hkind hboth.1.symm, ← h id chat hchat kind' htype]
        exact (hrespects id chat hchat hid kind' hkind htype).symm
    · rw [hother fun hboth => hid hboth.2.symm]
      exact h id chat hchat kind' htype

/-- A chat of a group before the group is looked up. -/
def newGroupChat (kind : GroupKind) (chat : QVariantMap) : ChatData :=
  { chatData := chat, chatId := (chat.value ID).toLongLong, groupId := kind.groupIdOf chat, verificationStatus := [],
    chatType := kind.chatType, memberStatus := .unknown, chatActions := QHash.empty, online := false }

theorem newChatData_of_group (d : TDLibData) {chat : QVariantMap} {kind : GroupKind}
    (htype : chatTypeFromString ((chat.value TYPE).toMap.value TYPE_).toStr = kind.chatType) :
    d.newChatData chat =
      match d.getGroup (kind.groupIdOf chat) (kind.chatType = .supergroup) with
      | none => newGroupChat kind chat
      | some group => (newGroupChat kind chat).updateGroup group := by
  rw [newChatData, htype]
  cases kind <;> rfl

/-- A new chat of a group shows what is stored of the group, but nothing of the group 0. -/
theorem groupStatus_newChatData {d : TDLibData} (hkeyed : d.GroupsKeyed) {chat : QVariantMap} {kind : GroupKind}
    (htype : chatTypeFromString ((chat.value TYPE).toMap.value TYPE_).toStr = kind.chatType) :
    (d.newChatData chat).groupId = kind.groupIdOf chat ∧
    (d.newChatData chat).groupStatus =
      statusOf (if kind.groupIdOf chat ≠ 0 then d.groupInfoOf kind (kind.groupIdOf chat) else none) := by
  have hgetGroup : d.getGroup (kind.groupIdOf chat) (kind.chatType = .supergroup) =
      if kind.groupIdOf chat ≠ 0 then (d.groupsOf kind).value (kind.groupIdOf chat) else none := by
    cases kind <;> rfl
  rw [newChatData_of_group d htype, hgetGroup]
  by_cases hid : kind.groupIdOf chat ≠ 0
  · rw [if_pos hid, if_pos hid, groupInfoOf]
    cases hgroup : (d.groupsOf kind).value (kind.groupIdOf chat) with
    | none => exact ⟨rfl, rfl⟩
    | some group =>
        have hown : (newGroupChat kind chat).groupId = group.groupId := (hkeyed kind _ group hgroup).symm
        dsimp only
        rw [ChatData.groupId_updateGroup, ChatData.groupStatus_updateGroup, if_pos hown]
        exact ⟨rfl, rfl⟩
  · rw [if_neg hid, if_neg hid]
    exact ⟨rfl, rfl⟩

theorem showStored_updateNewChat_iff {d : TDLibData} (hkeyed : d.GroupsKeyed) (h : ShowStored d) (chat : QVariantMap) :
    ShowStored (step d (.updateNewChat chat)) ↔ RespectsKinds d (.updateNewChat chat) := by
  have hinfo : ∀ kind groupId, (step d (.updateNewChat chat)).groupInfoOf kind groupId = d.groupInfoOf kind groupId :=
    groupInfoOf_step d (.updateNewChat chat)
  have hchats : ∀ id, (step d (.updateNewChat chat)).chats.value id =
      if id = (chat.value ID).toLongLong then some (d.newChatData chat) else d.chats.value id := fun _ => rfl
  have htypeOf := (PresenceEvent.newChatData_spec d chat).1
  constructor
  · intro hafter kind htype hid
    have hnew := groupStatus_newChatData hkeyed htype
    have hstatus := hafter _ _ ((hchats _).trans (if_pos rfl)) kind (htypeOf.trans htype)
    rw [hinfo, hnew.1, hnew.2, hid, if_neg fun hne => hne rfl] at hstatus
    exact hstatus.symm
  · intro hrespects id chat' hchat' kind htype
    rw [hchats] at hchat'
    rw [hinfo]
    split_ifs at hchat' with hid
    · obtain rfl := Option.some.inj hchat'
      rw [htypeOf] at htype
      have hnew := groupStatus_newChatData hkeyed htype
      rw [hnew.1, hnew.2]
      split_ifs with hzero
      · rfl
      · rw [not_not] at hzero
        rw [hzero]
        exact (hrespects kind htype hzero).symm
    · exact h id chat' hchat' kind htype

/-! ### Runs -/

theorem showStored_step_iff {d : TDLibData} (hkeyed : d.GroupsKeyed) (h : ShowStored d) (e : GroupEvent) :
    ShowStored (step d e) ↔ RespectsKinds d e := by
  cases e with
  | updateGroup kind groupId groupInformation => exact showStored_updateGroup_iff h kind groupId groupInformation
  | updateNewChat chat => exact showStored_updateNewChat_iff hkeyed h chat

/-- What is stored of a group is what its last update has told. -/
theorem groupInfoOf_run (memory : Uninitialised) (es : List GroupEvent) (kind : GroupKind) (groupId : Int) :
    (run step (TDLibData.new memory) es).groupInfoOf kind groupId = lastOf (informs kind groupId) es := by
  have hnew : (TDLibData.new memory).groupInfoOf kind groupId = none := by
    cases kind <;> rfl
  rw [read_run (fun d : TDLibData => d.groupInfoOf kind groupId) (fun d e => groupInfoOf_step d e kind groupId),
    lastOf_map, hnew]
  cases lastOf (informs kind groupId) es <;> rfl

theorem showLast_run_iff (memory : Uninitialised) (es : List GroupEvent) :
    ShowLast es (run step (TDLibData.new memory) es) ↔ ShowStored (run step (TDLibData.new memory) es) := by
  simp only [ShowLast, ShowStored, groupInfoOf_run]

theorem groupsKeyed_new (memory : Uninitialised) : (TDLibData.new memory).GroupsKeyed := by
  rintro (_ | _) groupId group hgroup <;> cases hgroup

theorem showStored_new (memory : Uninitialised) : ShowStored (TDLibData.new memory) :=
  fun _ _ hchat => absurd hchat (Option.some_ne_none _).symm

/-- **Groups and their kinds.** An update of a group changes only the chats of that group exactly if the other chats
with its number have its statuses already; and in all states of a run of group and new-chat updates the chats of
groups show what was last told of their group exactly if every update respects the kinds. -/
theorem groupUpdates_respect_iff (memory : Uninitialised) :
    (∀ (d : TDLibData) (kind : GroupKind) (groupId : Int) (groupInformation : QVariantMap),
      d.ChangesGroupOnly kind groupId (d.handleGroupUpdated kind groupId groupInformation) ↔
        ∀ id chat, d.chats.value id = some chat → chat.groupId = groupId → chat.chatType ≠ kind.chatType →
          chat.groupStatus = statusOf (some groupInformation)) ∧
    ∀ es : List GroupEvent,
      (∀ es', es' <+: es → ShowLast es' (run step (TDLibData.new memory) es')) ↔
        Along step RespectsKinds (TDLibData.new memory) es := by
  refine ⟨changesGroupOnly_iff, fun es => ?_⟩
  simp only [showLast_run_iff]
  exact Along.always_iff groupsKeyed_step (fun d e hkeyed h => showStored_step_iff hkeyed h e) (groupsKeyed_new memory)
    (showStored_new memory) es

/-- A basic group and a supergroup of the same number: the update of the second reaches the chat of the first. -/
theorem not_groupUpdates_respect :
    let memory : Uninitialised := { ownedStars := 0, ownedNanostars := 0, ownedGrams := 0 }
    let es : List GroupEvent :=
      [.updateGroup .basic 5 [(STATUS, .map [(TYPE_, .string "chatMemberStatusMember")])],
        .updateNewChat [(ID, .longLong (-5)),
          (TYPE, .map [(TYPE_, .string "chatTypeBasicGroup"), (BASIC_GROUP_ID, .longLong 5)])],
        .updateGroup .super 5 [(STATUS, .map [(TYPE_, .string "chatMemberStatusLeft")])]]
    ¬ ShowLast es (run step (TDLibData.new memory) es) := by
  intro memory es h
  have hstatus := congrArg GroupStatus.memberStatus (h (-5) _ rfl .basic rfl)
  revert hstatus
  decide

end GroupEvent

end Account

end YaqtLib
