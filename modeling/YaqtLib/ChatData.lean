import YaqtLib.Containers
import YaqtLib.QVariant

/-! A chat (`chatdata.cpp`) with everything that is stored of it: the data it was made from, which the updates
write, and what is read once from its user or group. -/

namespace YaqtLib

open Containers TdConst

namespace Account

structure MessageSender where
  isChat : Bool
  id : Int
  deriving DecidableEq

def MessageSender.of (sender : QVariantMap) : MessageSender :=
  let isChat := sender.value TYPE_ == .string "messageSenderChat"
  { isChat := isChat, id := (sender.value (if isChat then CHAT_ID else USER_ID)).toLongLong }

inductive ChatType where
  | unknown
  | private_
  | basicGroup
  | supergroup
  | secret
  deriving DecidableEq

def chatTypeFromString (type : String) : ChatType :=
  if type = "chatTypePrivate" then .private_
  else if type = "chatTypeBasicGroup" then .basicGroup
  else if type = "chatTypeSupergroup" then .supergroup
  else if type = "chatTypeSecret" then .secret
  else .unknown

inductive ChatMemberStatus where
  | unknown
  | creator
  | administrator
  | member
  | restricted
  | left
  | banned
  deriving DecidableEq

def chatMemberStatusFromString (status : String) : ChatMemberStatus :=
  if status = "chatMemberStatusMember" then .member
  else if status = "chatMemberStatusLeft" then .left
  else if status = "chatMemberStatusCreator" then .creator
  else if status = "chatMemberStatusAdministrator" then .administrator
  else if status = "chatMemberStatusRestricted" then .restricted
  else if status = "chatMemberStatusBanned" then .banned
  else .unknown

structure Group where
  groupId : Int
  groupInfo : QVariantMap

namespace Group

def chatMemberStatus (group : Group) : ChatMemberStatus :=
  chatMemberStatusFromString ((group.groupInfo.value STATUS).toMap.value TYPE_).toStr

def isPublic (group : Group) : Bool :=
  !((group.groupInfo.value USERNAMES).toMap.value ACTIVE_USERNAMES).toList.isEmpty ||
    (group.groupInfo.value "has_linked_chat").toBool || (group.groupInfo.value "has_location").toBool ||
    (group.groupInfo.value "is_direct_messages_group").toBool

end Group

inductive ChatActionType where
  | cancel
  | typing
  | recordingVideo
  | uploadingVideo
  | recordingVoiceNote
  | uploadingVoiceNote
  | uploadingPhoto
  | uploadingDocument
  | choosingSticker
  | choosingLocation
  | choosingContact
  | startPlayingGame
  | recordingVideoNote
  | uploadingVideoNote
  | watchingAnimations
  deriving DecidableEq

def getChatActionType (type : String) : ChatActionType :=
  if type = "chatActionTyping" then .typing
  else if type = "chatActionRecordingVideo" then .recordingVideo
  else if type = "chatActionUploadingVideo" then .uploadingVideo
  else if type = "chatActionRecordingVoiceNote" then .recordingVoiceNote
  else if type = "chatActionUploadingVoiceNote" then .uploadingVoiceNote
  else if type = "chatActionUploadingPhoto" then .uploadingPhoto
  else if type = "chatActionUploadingDocument" then .uploadingDocument
  else if type = "chatActionChoosingSticker" then .choosingSticker
  else if type = "chatActionChoosingLocation" then .choosingLocation
  else if type = "chatActionChoosingContact" then .choosingContact
  else if type = "chatActionStartPlayingGame" then .startPlayingGame
  else if type = "chatActionRecordingVideoNote" then .recordingVideoNote
  else if type = "chatActionUploadingVideoNote" then .uploadingVideoNote
  else if type = "chatActionWatchingAnimations" then .watchingAnimations
  else .cancel

structure ChatAction where
  type : ChatActionType
  progressOrEmoji : QVariant

def ChatAction.of (action : QVariantMap) : ChatAction :=
  let type := getChatActionType (action.value TYPE_).toStr
  { type := type
    progressOrEmoji :=
      match type with
      | .uploadingVideo | .uploadingVoiceNote | .uploadingPhoto | .uploadingDocument | .uploadingVideoNote =>
          .longLong (action.value "progress").toInt
      | .watchingAnimations => .string (action.value "emoji").toStr
      | _ => .invalid }

structure ChatData where
  chatData : QVariantMap
  chatId : Int
  groupId : Int
  verificationStatus : QVariantMap
  chatType : ChatType
  memberStatus : ChatMemberStatus
  chatActions : QHash MessageSender ChatAction
  online : Bool

namespace ChatData

/-! ### What is read from the data -/

def lastMessage (chat : ChatData) : QVariantMap := (chat.chatData.value LAST_MESSAGE).toMap

def draftMessage (chat : ChatData) : QVariantMap := (chat.chatData.value DRAFT_MESSAGE).toMap

def unreadCount (chat : ChatData) : Int := (chat.chatData.value UNREAD_COUNT).toInt

def unreadMentionCount (chat : ChatData) : Int := (chat.chatData.value UNREAD_MENTION_COUNT).toInt

def unreadReactionCount (chat : ChatData) : Int := (chat.chatData.value UNREAD_REACTION_COUNT).toInt

def unreadPollVoteCount (chat : ChatData) : Int := (chat.chatData.value UNREAD_POLL_VOTE_COUNT).toInt

def lastReadInboxMessageId (chat : ChatData) : Int := (chat.chatData.value LAST_READ_INBOX_MESSAGE_ID).toLongLong

def lastReadOutboxMessageId (chat : ChatData) : Int := (chat.chatData.value LAST_READ_OUTBOX_MESSAGE_ID).toLongLong

def notificationSettings (chat : ChatData) : QVariantMap := (chat.chatData.value NOTIFICATION_SETTINGS).toMap

def title (chat : ChatData) : String := (chat.chatData.value TITLE).toStr

def photo (chat : ChatData) : QVariantMap := (chat.chatData.value PHOTO).toMap

def availableReactions (chat : ChatData) : QVariant := chat.chatData.value AVAILABLE_REACTIONS

def permissions (chat : ChatData) : QVariantMap := (chat.chatData.value PERMISSIONS).toMap

def isChannel (chat : ChatData) : Bool := ((chat.chatData.value TYPE).toMap.value IS_CHANNEL).toBool

def isMarkedAsUnread (chat : ChatData) : Bool := (chat.chatData.value IS_MARKED_AS_UNREAD).toBool

def viewAsTopics (chat : ChatData) : Bool := (chat.chatData.value VIEW_AS_TOPICS).toBool

def accentColorId (chat : ChatData) : Int := (chat.chatData.value ACCENT_COLOR_ID).toInt

def backgroundCustomEmojiId (chat : ChatData) : String := (chat.chatData.value BACKGROUND_CUSTOM_EMOJI_ID).toStr

def upgradedGiftColors (chat : ChatData) : QVariantMap := (chat.chatData.value UPGRADED_GIFT_COLORS).toMap

def profileAccentColorId (chat : ChatData) : Int := (chat.chatData.value PROFILE_ACCENT_COLOR_ID).toInt

def profileBackgroundCustomEmojiId (chat : ChatData) : String :=
  (chat.chatData.value PROFILE_BACKGROUND_CUSTOM_EMOJI_ID).toStr

/-! ### What is read of the last message and the draft (`basemessageabledata.cpp`) -/

/-- The preview texts of messages, which are composed in the language of the user. -/
structure Texts where
  messageText : QVariantMap → String

/-- `Utilities::messageContentIsService` -/
def messageContentIsService (contentType : String) : Bool :=
  contentType ∉ ["messageText", "messageAnimatedEmoji", "messageAnimation", "messageAudio", "messageDocument",
    "messageGame", "messageLocation", "messagePhoto", "messagePoll", "messageSticker", "messageVenue", "messageVideo",
    "messageVideoNote", "messageVoiceNote", "messageDice", "messageStakeDice", "messageCall", "messageGroupCall",
    "messageContact"]

/-- `Utilities::getMessageMinithumbnail` -/
def getMessageMinithumbnail (messageContent : QVariantMap) : QVariant :=
  let type := (messageContent.value TYPE_).toStr
  if type = "messagePhoto" then (messageContent.value PHOTO).toMap.value MINITHUMBNAIL
  else if type = "messageVideo" then
    let cover := (messageContent.value COVER).toMap
    if cover.contains MINITHUMBNAIL then cover.value MINITHUMBNAIL
    else (messageContent.value VIDEO).toMap.value MINITHUMBNAIL
  else if type = "messageAnimation" then (messageContent.value ANIMATION).toMap.value MINITHUMBNAIL
  else if type = "messageVideoNote" then (messageContent.value VIDEO_NOTE).toMap.value MINITHUMBNAIL
  else if type = "messageDocument" then (messageContent.value DOCUMENT).toMap.value MINITHUMBNAIL
  else if type = "messageAudio" then (messageContent.value AUDIO).toMap.value ALBUM_COVER_MINITHUMBNAIL
  else .invalid

def lastMessageId (chat : ChatData) : Int := (chat.lastMessage.value ID).toLongLong

def lastMessageSenderId (chat : ChatData) : MessageSender := .of (chat.lastMessage.value SENDER_ID).toMap

def lastMessageDate (chat : ChatData) : Int := (chat.lastMessage.value DATE).toLongLong

def lastMessageText (texts : Texts) (chat : ChatData) : String := texts.messageText chat.lastMessage

def lastMessageMinithumbnail (chat : ChatData) : QVariant :=
  getMessageMinithumbnail (chat.lastMessage.value CONTENT).toMap

def lastMessageIsService (chat : ChatData) : Bool :=
  messageContentIsService ((chat.lastMessage.value CONTENT).toMap.value TYPE_).toStr

def lastMessageSendingState (chat : ChatData) : QVariant := chat.lastMessage.value SENDING_STATE

def lastMessageIsOutgoing (chat : ChatData) : Bool := (chat.lastMessage.value IS_OUTGOING).toBool

def draftMessageDate (chat : ChatData) : Int := (chat.draftMessage.value DATE).toLongLong

def draftMessageText (chat : ChatData) : String :=
  let content := (chat.draftMessage.value CONTENT).toMap
  if (content.value TYPE_).toStr ≠ "draftMessageContentText" then ""
  else ((content.value TEXT).toMap.value TEXT).toStr

/-! ### Updates -/

/-- The roles of a row that the updates of a chat name. -/
inductive Role where
  | display
  | title
  | photo
  | unreadCount
  | unreadMentionCount
  | unreadReactionCount
  | unreadPollVoteCount
  | availableReactions
  | lastReadOutboxMessageId
  | lastReadInboxMessageId
  | lastMessageId
  | lastMessageSenderId
  | lastMessageDate
  | lastMessageText
  | lastMessageMinithumbnail
  | lastMessageIsService
  | lastMessageSendingState
  | lastMessageIsOutgoing
  | isMarkedAsUnread
  | draftMessageText
  | draftMessageDate
  | notificationSettings
  | permissions
  | viewAsTopics
  | accentColorId
  | backgroundCustomEmojiId
  | upgradedGiftColors
  | profileAccentColorId
  | profileBackgroundCustomEmojiId
  deriving DecidableEq

/-- What a row shows under a role. -/
inductive RoleValue where
  | variant (v : QVariant)
  | sender (sender : MessageSender)
  deriving DecidableEq

/-- `ChatListModel::data` -/
def data (texts : Texts) (chat : ChatData) : Role → RoleValue
  | .display => .variant (.map chat.chatData)
  | .title => .variant (.string chat.title)
  | .photo => .variant (.map chat.photo)
  | .unreadCount => .variant (.longLong chat.unreadCount)
  | .unreadMentionCount => .variant (.longLong chat.unreadMentionCount)
  | .unreadReactionCount => .variant (.longLong chat.unreadReactionCount)
  | .unreadPollVoteCount => .variant (.longLong chat.unreadPollVoteCount)
  | .availableReactions => .variant chat.availableReactions
  | .lastReadOutboxMessageId => .variant (.longLong chat.lastReadOutboxMessageId)
  | .lastReadInboxMessageId => .variant (.longLong chat.lastReadInboxMessageId)
  | .lastMessageId => .variant (.longLong chat.lastMessageId)
  | .lastMessageSenderId => .sender chat.lastMessageSenderId
  | .lastMessageDate => .variant (.longLong chat.lastMessageDate)
  | .lastMessageText => .variant (.string (chat.lastMessageText texts))
  | .lastMessageMinithumbnail => .variant chat.lastMessageMinithumbnail
  | .lastMessageIsService => .variant (.bool chat.lastMessageIsService)
  | .lastMessageSendingState => .variant chat.lastMessageSendingState
  | .lastMessageIsOutgoing => .variant (.bool chat.lastMessageIsOutgoing)
  | .isMarkedAsUnread => .variant (.bool chat.isMarkedAsUnread)
  | .draftMessageText => .variant (.string chat.draftMessageText)
  | .draftMessageDate => .variant (.longLong chat.draftMessageDate)
  | .notificationSettings => .variant (.map chat.notificationSettings)
  | .permissions => .variant (.map chat.permissions)
  | .viewAsTopics => .variant (.bool chat.viewAsTopics)
  | .accentColorId => .variant (.longLong chat.accentColorId)
  | .backgroundCustomEmojiId => .variant (.string chat.backgroundCustomEmojiId)
  | .upgradedGiftColors => .variant (.map chat.upgradedGiftColors)
  | .profileAccentColorId => .variant (.longLong chat.profileAccentColorId)
  | .profileBackgroundCustomEmojiId => .variant (.string chat.profileBackgroundCustomEmojiId)

/-- A field of the data is written. -/
def insert (chat : ChatData) (field : String) (v : QVariant) : ChatData :=
  { chat with chatData := chat.chatData.insert field v }

def updateUnreadCount (chat : ChatData) (count : Int) : ChatData × Bool :=
  let chat' := chat.insert UNREAD_COUNT (.longLong count)
  (chat', chat.unreadCount ≠ chat'.unreadCount)

def updateLastReadInboxMessageId (chat : ChatData) (messageId : Int) : ChatData × Bool :=
  let chat' := chat.insert LAST_READ_INBOX_MESSAGE_ID (.longLong messageId)
  (chat', chat.lastReadInboxMessageId ≠ chat'.lastReadInboxMessageId)

def updateLastReadOutboxMessageId (chat : ChatData) (messageId : Int) : ChatData × Bool :=
  let chat' := chat.insert LAST_READ_OUTBOX_MESSAGE_ID (.longLong messageId)
  (chat', chat.lastReadOutboxMessageId ≠ chat'.lastReadOutboxMessageId)

/-- A role that is named if the condition holds. -/
def roleIf (p : Prop) [Decidable p] (role : Role) : List Role := if p then [role] else []

def updateLastMessage (texts : Texts) (chat : ChatData) (message : QVariantMap) : ChatData × List Role :=
  let chat' := chat.insert LAST_MESSAGE (.map message)
  (chat', [.display] ++
    roleIf (chat.lastMessageId ≠ chat'.lastMessageId) .lastMessageId ++
    roleIf (chat.lastMessageSenderId ≠ chat'.lastMessageSenderId) .lastMessageSenderId ++
    roleIf (chat.lastMessageDate ≠ chat'.lastMessageDate) .lastMessageDate ++
    roleIf (chat.lastMessageText texts ≠ chat'.lastMessageText texts) .lastMessageText ++
    roleIf (chat.lastMessageMinithumbnail ≠ chat'.lastMessageMinithumbnail) .lastMessageMinithumbnail ++
    roleIf (chat.lastMessageIsService ≠ chat'.lastMessageIsService) .lastMessageIsService ++
    roleIf (chat.lastMessageSendingState ≠ chat'.lastMessageSendingState) .lastMessageSendingState ++
    roleIf (chat.lastMessageIsOutgoing ≠ chat'.lastMessageIsOutgoing) .lastMessageIsOutgoing)

def updateGroup (chat : ChatData) (group : Group) : ChatData :=
  if chat.groupId = group.groupId then
    { chat with
      memberStatus := group.chatMemberStatus
      verificationStatus := (group.groupInfo.value VERIFICATION_STATUS).toMap }
  else chat

def updateUserStatus (chat : ChatData) (status : QVariantMap) : ChatData :=
  if status.isEmpty then chat else { chat with online := (status.value TYPE_).toStr = TYPE_USER_STATUS_ONLINE }

/-- A field is written, and its role named, if the value that is read from it changes. -/
def updateIfChanged (chat : ChatData) (field : String) (changed : Prop) [Decidable changed] (v : QVariant)
    (role : Role) : ChatData × List Role :=
  if changed then (chat.insert field v, [role]) else (chat, [])

def updateAccentColors (chat : ChatData) (accentColorId : Int) (backgroundCustomEmojiId : String)
    (upgradedGiftColors : QVariantMap) (profileAccentColorId : Int) (profileBackgroundCustomEmojiId : String) :
    ChatData × List Role :=
  let (chat, roles1) := chat.updateIfChanged ACCENT_COLOR_ID
    ((chat.chatData.value ACCENT_COLOR_ID).toInt ≠ accentColorId) (.longLong accentColorId) .accentColorId
  let (chat, roles2) := chat.updateIfChanged BACKGROUND_CUSTOM_EMOJI_ID
    ((chat.chatData.value BACKGROUND_CUSTOM_EMOJI_ID).toStr ≠ backgroundCustomEmojiId)
    (.string backgroundCustomEmojiId) .backgroundCustomEmojiId
  let (chat, roles3) := chat.updateIfChanged UPGRADED_GIFT_COLORS
    ((chat.chatData.value UPGRADED_GIFT_COLORS).toMap ≠ upgradedGiftColors)
    (.map upgradedGiftColors) .upgradedGiftColors
  let (chat, roles4) := chat.updateIfChanged PROFILE_ACCENT_COLOR_ID
    ((chat.chatData.value PROFILE_ACCENT_COLOR_ID).toInt ≠ profileAccentColorId)
    (.longLong profileAccentColorId) .profileAccentColorId
  let (chat, roles5) := chat.updateIfChanged PROFILE_BACKGROUND_CUSTOM_EMOJI_ID
    ((chat.chatData.value PROFILE_BACKGROUND_CUSTOM_EMOJI_ID).toStr ≠ profileBackgroundCustomEmojiId)
    (.string profileBackgroundCustomEmojiId) .profileBackgroundCustomEmojiId
  (chat, roles1 ++ roles2 ++ roles3 ++ roles4 ++ roles5)

end ChatData

end Account

end YaqtLib
