import YaqtLib.RowSignals

/-! The setters of a message (`chat/messagedata.cpp`). A message keeps copies of what its object says beside the
object, and every setter returns the roles of which it knows that they changed, gathered as the bits of a flag. -/

namespace YaqtLib

open TdConst

namespace TdConst

abbrev EDIT_DATE : String := "edit_date"
abbrev REPLY_MARKUP : String := "reply_markup"
abbrev SUGGESTED_POST_INFO : String := "suggested_post_info"
abbrev FACT_CHECK : String := "fact_check"
abbrev CONTAINS_UNREAD_POLL_VOTES : String := "contains_unread_poll_votes"
abbrev EPHEMERAL_CONTENT : String := "ephemeral_content"
abbrev IS_LISTENED : String := "is_listened"
abbrev TYPE_MESSAGE_VIDEO_NOTE : String := "messageVideoNote"
abbrev IS_VIEWED : String := "is_viewed"

end TdConst

inductive RoleFlag where
  | display
  | messageId
  | isSponsored
  | messageContentType
  | messageViewCount
  | messageReactions
  | messageAlbumEntryFilter
  | messageAlbumMessageIds
  | messageAlbumMessages

/-- The place of a flag among the bits. -/
def RoleFlag.place : RoleFlag → UInt32
  | .display => 0
  | .messageId => 1
  | .isSponsored => 2
  | .messageContentType => 3
  | .messageViewCount => 4
  | .messageReactions => 5
  | .messageAlbumEntryFilter => 6
  | .messageAlbumMessageIds => 7
  | .messageAlbumMessages => 8

def RoleFlag.bit (flag : RoleFlag) : UInt32 := 1 <<< flag.place

/-- The roles that a flag stands for; the last flag is never looked at. -/
def RoleFlag.roles : RoleFlag → List MessageRole
  | .display => [.display]
  | .messageId => [.messageId]
  | .isSponsored => [.isSponsored]
  | .messageContentType => [.messageContentType]
  | .messageViewCount => [.messageViewCount]
  | .messageReactions => [.messageReactions]
  | .messageAlbumEntryFilter => [.messageAlbumEntryFilter]
  | .messageAlbumMessageIds => [.messageAlbumMessageIds, .messageAlbumMessages]
  | .messageAlbumMessages => []

namespace MessageData

def flagsToRoles (flags : UInt32) : List MessageRole :=
  (if flags &&& RoleFlag.display.bit ≠ 0 then [MessageRole.display] else []) ++
    (if flags &&& RoleFlag.messageId.bit ≠ 0 then [MessageRole.messageId] else []) ++
    (if flags &&& RoleFlag.isSponsored.bit ≠ 0 then [MessageRole.isSponsored] else []) ++
    (if flags &&& RoleFlag.messageContentType.bit ≠ 0 then [MessageRole.messageContentType] else []) ++
    (if flags &&& RoleFlag.messageViewCount.bit ≠ 0 then [MessageRole.messageViewCount] else []) ++
    (if flags &&& RoleFlag.messageReactions.bit ≠ 0 then [MessageRole.messageReactions] else []) ++
    (if flags &&& RoleFlag.messageAlbumEntryFilter.bit ≠ 0 then [MessageRole.messageAlbumEntryFilter] else []) ++
    (if flags &&& RoleFlag.messageAlbumMessageIds.bit ≠ 0 then
      [MessageRole.messageAlbumMessageIds, MessageRole.messageAlbumMessages] else [])

/-! ### Updates, with the flags of what they changed -/

/-- A field of the object is written, and none of the copies. -/
def insertField (message : MessageData) (key : String) (value : QVariant) : MessageData × UInt32 :=
  ({ message with messageData := message.messageData.insert key value }, RoleFlag.display.bit)

def updateContentType (message : MessageData) (content : QVariantMap) : MessageData × UInt32 :=
  let messageContentType := (content.value TYPE_).toStr
  ({ message with messageContentType := messageContentType },
    if message.messageContentType = messageContentType then 0 else RoleFlag.messageContentType.bit)

def updateContent (message : MessageData) (content : QVariantMap) : MessageData × UInt32 :=
  let (message, flags) :=
    updateContentType { message with messageData := message.messageData.insert CONTENT (.map content) } content
  (message, RoleFlag.display.bit ||| flags)

def updateEditDate (message : MessageData) (editDate : Int) : MessageData × UInt32 :=
  message.insertField EDIT_DATE (.longLong editDate)

def updateReplyMarkup (message : MessageData) (replyMarkup : QVariantMap) : MessageData × UInt32 :=
  message.insertField REPLY_MARKUP (.map replyMarkup)

def updateViewCount (message : MessageData) (interactionInfo : QVariantMap) : MessageData × UInt32 :=
  let viewCount := (interactionInfo.value VIEW_COUNT).toInt
  ({ message with viewCount := viewCount },
    if viewCount = message.viewCount then 0 else RoleFlag.messageViewCount.bit)

def updateReactions (message : MessageData) (interactionInfo : QVariantMap) : MessageData × UInt32 :=
  let reactions := ((interactionInfo.value REACTIONS).toMap.value REACTIONS).toList
  ({ message with reactions := reactions },
    if reactions = message.reactions then 0 else RoleFlag.messageReactions.bit)

def updateInteractionInfo (message : MessageData) (interactionInfo : QVariantMap) : MessageData × UInt32 :=
  let message :=
    { message with messageData := message.messageData.insert INTERACTION_INFO (.map interactionInfo) }
  let (message, viewCountFlags) := message.updateViewCount interactionInfo
  let (message, reactionsFlags) := message.updateReactions interactionInfo
  (message, RoleFlag.display.bit ||| viewCountFlags ||| reactionsFlags)

def updateMessageData (message : MessageData) (data : QVariantMap) : MessageData × UInt32 :=
  let message := { message with messageData := data, isSponsored := isSponsoredMessage data }
  let (message, contentFlags) := message.updateContentType (getContent data)
  let (message, infoFlags) := message.updateInteractionInfo (data.value INTERACTION_INFO).toMap
  (message, RoleFlag.display.bit ||| contentFlags ||| infoFlags)

def updateAlbumEntryFilter (message : MessageData) (isAlbumChild : Bool) : MessageData × UInt32 :=
  ({ message with albumEntryFilter := isAlbumChild },
    if isAlbumChild = message.albumEntryFilter then 0 else RoleFlag.messageAlbumEntryFilter.bit)

def updateAlbumEntryMessageIds (message : MessageData) (newAlbumMessageIds : List Int) : MessageData × UInt32 :=
  ({ message with albumMessageIds := newAlbumMessageIds },
    if newAlbumMessageIds = message.albumMessageIds then 0 else RoleFlag.messageAlbumMessageIds.bit)

def updateSuggestedPostInfo (message : MessageData) (suggestedPostInfo : QVariantMap) : MessageData × UInt32 :=
  message.insertField SUGGESTED_POST_INFO (.map suggestedPostInfo)

def updateMentionRead (message : MessageData) : MessageData × UInt32 :=
  if (message.messageData.value CONTAINS_UNREAD_MENTION).toBool = false then (message, 0)
  else message.insertField CONTAINS_UNREAD_MENTION (.bool false)

/-- The content of a voice or a video note gets the mark `key`, unless it has it. -/
def markContent (message : MessageData) (key : String) : MessageData × UInt32 :=
  let content := getContent message.messageData
  if (content.value key).toBool then (message, 0)
  else message.insertField CONTENT (.map (content.insert key (.bool true)))

def updateContentOpened (message : MessageData) : MessageData × UInt32 :=
  if message.messageContentType = TYPE_MESSAGE_VOICE_NOTE then message.markContent IS_LISTENED
  else if message.messageContentType = TYPE_MESSAGE_VIDEO_NOTE then message.markContent IS_VIEWED
  else (message, 0)

def updateFactCheck (message : MessageData) (factCheck : QVariantMap) : MessageData × UInt32 :=
  message.insertField FACT_CHECK (.map factCheck)

/-! ### The setters -/

inductive Setter where
  | setMessageData (data : QVariantMap)
  | setContent (content : QVariantMap)
  | setEditDateReplyMarkup (editDate : Int) (replyMarkup : QVariantMap)
  | setInteractionInfo (info : QVariantMap)
  | setAlbumEntryFilter (isAlbumChild : Bool)
  | setAlbumEntryMessageIds (newAlbumMessageIds : List Int)
  | setSuggestedPostInfo (suggestedPostInfo : QVariantMap)
  | setMentionRead
  | setContentOpened
  | setFactCheck (factCheck : QVariantMap)
  | setIsPinned (isPinned : Bool)
  | setUnreadReactions (unreadReactions : QVariantList)
  | setContainsUnreadPollVotes (value : Bool)
  | setEphemeralContent (ephemeralContent : QVariantMap)

/-- The message after an update, with the roles of its flags. -/
def reporting (updated : MessageData × UInt32) : MessageData × List MessageRole :=
  (updated.1, flagsToRoles updated.2)

/-- What a setter leaves, and the roles it returns. -/
def set (message : MessageData) : Setter → MessageData × List MessageRole
  | .setMessageData data => reporting (message.updateMessageData data)
  | .setContent content => reporting (message.updateContent content)
  | .setEditDateReplyMarkup editDate replyMarkup =>
      let (message, editFlags) := message.updateEditDate editDate
      let (message, markupFlags) := message.updateReplyMarkup replyMarkup
      reporting (message, editFlags ||| markupFlags)
  | .setInteractionInfo info => reporting (message.updateInteractionInfo info)
  | .setAlbumEntryFilter isAlbumChild => reporting (message.updateAlbumEntryFilter isAlbumChild)
  | .setAlbumEntryMessageIds newAlbumMessageIds => reporting (message.updateAlbumEntryMessageIds newAlbumMessageIds)
  | .setSuggestedPostInfo suggestedPostInfo => reporting (message.updateSuggestedPostInfo suggestedPostInfo)
  | .setMentionRead => reporting message.updateMentionRead
  | .setContentOpened => reporting message.updateContentOpened
  | .setFactCheck factCheck => reporting (message.updateFactCheck factCheck)
  | .setIsPinned isPinned =>
      ({ message with messageData := message.messageData.insert IS_PINNED (.bool isPinned) }, [.display])
  | .setUnreadReactions unreadReactions =>
      ({ message with messageData := message.messageData.insert UNREAD_REACTIONS (.list unreadReactions) }, [.display])
  | .setContainsUnreadPollVotes value =>
      if (message.messageData.value CONTAINS_UNREAD_POLL_VOTES).toBool ≠ value then
        ({ message with messageData := message.messageData.insert CONTAINS_UNREAD_POLL_VOTES (.bool value) },
          [.display])
      else (message, [])
  | .setEphemeralContent ephemeralContent =>
      ({ message with messageData := message.messageData.insert EPHEMERAL_CONTENT (.map ephemeralContent) }, [.display])

/-- The message after a setter. -/
def step (message : MessageData) (setter : Setter) : MessageData := (message.set setter).1

/-! ### The setters of the rows -/

theorem step_setContent (message : MessageData) (content : QVariantMap) :
    message.step (.setContent content) = message.setContent content := rfl

theorem step_setMessageData (message : MessageData) (data : QVariantMap) :
    message.step (.setMessageData data) = message.setMessageData data := rfl

theorem step_setIsPinned (message : MessageData) (isPinned : Bool) :
    message.step (.setIsPinned isPinned) = message.setIsPinned isPinned := rfl

/-! ### Roles from flags -/

@[simp] theorem flagsToRoles_zero : flagsToRoles 0 = [] := rfl

@[simp] theorem flagsToRoles_bit (flag : RoleFlag) : flagsToRoles flag.bit = flag.roles := by
  cases flag <;> rfl

theorem or_and_eq_zero_iff {a b c : UInt32} : (a ||| b) &&& c = 0 ↔ a &&& c = 0 ∧ b &&& c = 0 := by
  rw [← UInt32.or_eq_zero_iff, ← UInt32.toBitVec_inj, ← UInt32.toBitVec_inj]
  simp only [UInt32.toBitVec_and, UInt32.toBitVec_or, BitVec.and_or_distrib_right]

@[simp] theorem mem_flagsToRoles_or {role : MessageRole} {flags flags' : UInt32} :
    role ∈ flagsToRoles (flags ||| flags') ↔ role ∈ flagsToRoles flags ∨ role ∈ flagsToRoles flags' := by
  cases role <;> simp [flagsToRoles, or_and_eq_zero_iff, imp_iff_not_or]

/-! ### What the roles tell -/

/-- What the views read of the message alone; other rows have a part in the roles left out. -/
def roleData (message : MessageData) : MessageRole → QVariant
  | .display => .map message.messageData
  | .messageId => .longLong message.messageId
  | .isSponsored => .bool message.isSponsored
  | .messageContentType => .string message.messageContentType
  | .messageViewCount => .longLong message.viewCount
  | .messageReactions => .list message.reactions
  | .messageAlbumEntryFilter => .bool message.albumEntryFilter
  | .messageAlbumId => .string (toString message.mediaAlbumId)
  | .messageAlbumMessageIds => .list (message.albumMessageIds.map .longLong)
  | .generatedContentUnread => .bool message.generatedContentUnread
  | .messageAlbumMessages | .isFirstInSequence | .isLastInSequence => .invalid

/-- All changes are told but those of two roles for which no update sets a flag. -/
def Reports (before after : MessageData) (roles : List MessageRole) : Prop :=
  ∀ role, role ≠ .isSponsored → role ≠ .messageAlbumId → after.roleData role ≠ before.roleData role → role ∈ roles

theorem reports_refl (message : MessageData) (roles : List MessageRole) : Reports message message roles :=
  fun _ _ _ hchange => absurd rfl hchange

/-- Two updates, with the flags of both. -/
theorem Reports.trans {first second third : MessageData} {flags flags' : UInt32}
    (h : Reports first second (flagsToRoles flags)) (h' : Reports second third (flagsToRoles flags')) :
    Reports first third (flagsToRoles (flags ||| flags')) := by
  intro role hsponsored halbum hchange
  rw [mem_flagsToRoles_or]
  by_cases hfirst : second.roleData role = first.roleData role
  · rw [← hfirst] at hchange
    exact Or.inr (h' role hsponsored halbum hchange)
  · exact Or.inl (h role hsponsored halbum hfirst)

/-- The object is replaced, and with it at most whether the message is sponsored. -/
theorem reports_display (message : MessageData) (messageData : QVariantMap) (isSponsored : Bool) :
    Reports message { message with messageData := messageData, isSponsored := isSponsored } [.display] := by
  intro role hsponsored halbum hchange
  cases role with
  | display => exact List.mem_singleton_self _
  | isSponsored => exact absurd rfl hsponsored
  | messageAlbumId => exact absurd rfl halbum
  | _ => exact absurd rfl hchange

/-- The roles that the entry of an album reports are those of its two setters. -/
theorem albumEntryRoles_eq (message : MessageData) (isMain : Bool) (albumIds : List Int) :
    message.albumEntryRoles isMain albumIds = (message.set (.setAlbumEntryFilter !isMain)).2 ++
      ((message.step (.setAlbumEntryFilter !isMain)).set
        (.setAlbumEntryMessageIds (if isMain then albumIds else []))).2 := by
  have hsame : (!decide (isMain = message.albumEntryFilter)) = true ↔ (!isMain) = message.albumEntryFilter := by
    cases isMain <;> cases message.albumEntryFilter <;> decide
  rw [albumEntryRoles, set, set, reporting, reporting, updateAlbumEntryFilter, updateAlbumEntryMessageIds,
    apply_ite flagsToRoles, apply_ite flagsToRoles]
  simp only [flagsToRoles_zero, flagsToRoles_bit, hsame]
  rfl

theorem insertField_reports (message : MessageData) (key : String) (value : QVariant) :
    Reports message (message.insertField key value).1 (flagsToRoles (message.insertField key value).2) := by
  rw [insertField, flagsToRoles_bit]
  exact reports_display message _ message.isSponsored

/-- One of the copies is written, with its flag unless it stays the same. -/
theorem Reports.of_flag {message message' : MessageData} {flag : RoleFlag} {same : Prop} [Decidable same]
    (hsame : same → message' = message)
    (hother : ∀ role, role ∉ flag.roles → message'.roleData role = message.roleData role) :
    Reports message message' (flagsToRoles (if same then 0 else flag.bit)) := by
  split_ifs with h
  · rw [hsame h]
    exact reports_refl message _
  · rw [flagsToRoles_bit]
    intro role _ _ hchange
    by_contra hrole
    exact hchange (hother role hrole)

theorem updateContentType_reports (message : MessageData) (content : QVariantMap) :
    Reports message (message.updateContentType content).1 (flagsToRoles (message.updateContentType content).2) := by
  refine .of_flag (fun hsame => by rw [updateContentType, ← hsame]) fun role hrole => ?_
  cases role with
  | messageContentType => exact absurd (by simp [RoleFlag.roles]) hrole
  | _ => rfl

theorem updateViewCount_reports (message : MessageData) (interactionInfo : QVariantMap) :
    Reports message (message.updateViewCount interactionInfo).1
      (flagsToRoles (message.updateViewCount interactionInfo).2) := by
  refine .of_flag (fun hsame => by rw [updateViewCount, hsame]) fun role hrole => ?_
  cases role with
  | messageViewCount => exact absurd (by simp [RoleFlag.roles]) hrole
  | _ => rfl

theorem updateReactions_reports (message : MessageData) (interactionInfo : QVariantMap) :
    Reports message (message.updateReactions interactionInfo).1
      (flagsToRoles (message.updateReactions interactionInfo).2) := by
  refine .of_flag (fun hsame => by rw [updateReactions, hsame]) fun role hrole => ?_
  cases role with
  | messageReactions => exact absurd (by simp [RoleFlag.roles]) hrole
  | _ => rfl

theorem updateAlbumEntryFilter_reports (message : MessageData) (isAlbumChild : Bool) :
    Reports message (message.updateAlbumEntryFilter isAlbumChild).1
      (flagsToRoles (message.updateAlbumEntryFilter isAlbumChild).2) := by
  refine .of_flag (fun hsame => by rw [updateAlbumEntryFilter, hsame]) fun role hrole => ?_
  cases role with
  | messageAlbumEntryFilter => exact absurd (by simp [RoleFlag.roles]) hrole
  | _ => rfl

theorem updateAlbumEntryMessageIds_reports (message : MessageData) (newAlbumMessageIds : List Int) :
    Reports message (message.updateAlbumEntryMessageIds newAlbumMessageIds).1
      (flagsToRoles (message.updateAlbumEntryMessageIds newAlbumMessageIds).2) := by
  refine .of_flag (fun hsame => by rw [updateAlbumEntryMessageIds, hsame]) fun role hrole => ?_
  cases role with
  | messageAlbumMessageIds => exact absurd (by simp [RoleFlag.roles]) hrole
  | _ => rfl

theorem updateContent_reports (message : MessageData) (content : QVariantMap) :
    Reports message (message.updateContent content).1 (flagsToRoles (message.updateContent content).2) :=
  (insertField_reports message CONTENT (.map content)).trans (updateContentType_reports _ content)

theorem updateInteractionInfo_reports (message : MessageData) (interactionInfo : QVariantMap) :
    Reports message (message.updateInteractionInfo interactionInfo).1
      (flagsToRoles (message.updateInteractionInfo interactionInfo).2) := by
  have hviewCount := (insertField_reports message INTERACTION_INFO (.map interactionInfo)).trans
    (updateViewCount_reports _ interactionInfo)
  exact hviewCount.trans (updateReactions_reports _ interactionInfo)

theorem updateMessageData_reports (message : MessageData) (data : QVariantMap) :
    Reports message (message.updateMessageData data).1 (flagsToRoles (message.updateMessageData data).2) := by
  have hobject : Reports message { message with messageData := data, isSponsored := isSponsoredMessage data }
      (flagsToRoles RoleFlag.display.bit) := by
    rw [flagsToRoles_bit]
    exact reports_display message data (isSponsoredMessage data)
  have hcontent := hobject.trans (updateContentType_reports _ (getContent data))
  exact hcontent.trans (updateInteractionInfo_reports _ (data.value INTERACTION_INFO).toMap)

theorem updateMentionRead_reports (message : MessageData) :
    Reports message message.updateMentionRead.1 (flagsToRoles message.updateMentionRead.2) := by
  rw [updateMentionRead]
  split_ifs
  · exact reports_refl message _
  · exact insertField_reports message _ _

theorem markContent_reports (message : MessageData) (key : String) :
    Reports message (message.markContent key).1 (flagsToRoles (message.markContent key).2) := by
  rw [markContent]
  split_ifs
  · exact reports_refl message _
  · exact insertField_reports message _ _

theorem updateContentOpened_reports (message : MessageData) :
    Reports message message.updateContentOpened.1 (flagsToRoles message.updateContentOpened.2) := by
  rw [updateContentOpened]
  split_ifs
  · exact markContent_reports message _
  · exact markContent_reports message _
  · exact reports_refl message _

/-- What a setter changes is among the roles it returns. -/
theorem set_reports (message : MessageData) (setter : Setter) :
    Reports message (message.set setter).1 (message.set setter).2 := by
  cases setter with
  | setMessageData data => exact updateMessageData_reports message data
  | setContent content => exact updateContent_reports message content
  | setEditDateReplyMarkup editDate replyMarkup =>
      exact (insertField_reports message _ _).trans (insertField_reports _ _ _)
  | setInteractionInfo info => exact updateInteractionInfo_reports message info
  | setAlbumEntryFilter isAlbumChild => exact updateAlbumEntryFilter_reports message isAlbumChild
  | setAlbumEntryMessageIds newAlbumMessageIds => exact updateAlbumEntryMessageIds_reports message newAlbumMessageIds
  | setSuggestedPostInfo suggestedPostInfo => exact insertField_reports message _ _
  | setMentionRead => exact updateMentionRead_reports message
  | setContentOpened => exact updateContentOpened_reports message
  | setFactCheck factCheck => exact insertField_reports message _ _
  | setContainsUnreadPollVotes value =>
      rw [set]
      split_ifs
      · exact reports_display message _ message.isSponsored
      · exact reports_refl message _
  | setIsPinned | setUnreadReactions | setEphemeralContent =>
      exact reports_display message _ message.isSponsored

end MessageData

end YaqtLib
