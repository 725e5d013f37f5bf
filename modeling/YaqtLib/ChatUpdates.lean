import YaqtLib.AccountData
import YaqtLib.CleanupMap
import YaqtLib.Receiver

/-! The updates of TDLib about the data of a chat, from the receiver's handlers to the store and the signal
`chatRolesUpdated`, and beside it what the updates say of the fields. -/

namespace YaqtLib

open Containers TdConst TDLibReceiver

namespace Account

/-! ### The fields -/

/-- The type a field is read in. -/
inductive Kind where
  | number
  | text
  | flag
  | map

def Kind.read : Kind → QVariant → QVariant
  | .number, v => .longLong v.toLongLong
  | .text, v => .string v.toStr
  | .flag, v => .bool v.toBool
  | .map, v => .map v.toMap

@[simp] theorem Kind.read_read (kind : Kind) (v : QVariant) : kind.read (kind.read v) = kind.read v := by
  cases kind <;> rfl

inductive Field where
  | lastMessage
  | draftMessage
  | lastReadInboxMessageId
  | unreadCount
  | lastReadOutboxMessageId
  | title
  | photo
  | permissions
  | notificationSettings
  | isMarkedAsUnread
  | unreadMentionCount
  | unreadReactionCount
  | unreadPollVoteCount
  | availableReactions
  | pendingJoinRequests
  | viewAsTopics
  | accentColorId
  | backgroundCustomEmojiId
  | upgradedGiftColors
  | profileAccentColorId
  | profileBackgroundCustomEmojiId
  deriving DecidableEq

namespace Field

/-- A field has one name in the object of the chat and in the updates. -/
def key : Field → String
  | .lastMessage => LAST_MESSAGE
  | .draftMessage => DRAFT_MESSAGE
  | .lastReadInboxMessageId => LAST_READ_INBOX_MESSAGE_ID
  | .unreadCount => UNREAD_COUNT
  | .lastReadOutboxMessageId => LAST_READ_OUTBOX_MESSAGE_ID
  | .title => TITLE
  | .photo => PHOTO
  | .permissions => PERMISSIONS
  | .notificationSettings => NOTIFICATION_SETTINGS
  | .isMarkedAsUnread => IS_MARKED_AS_UNREAD
  | .unreadMentionCount => UNREAD_MENTION_COUNT
  | .unreadReactionCount => UNREAD_REACTION_COUNT
  | .unreadPollVoteCount => UNREAD_POLL_VOTE_COUNT
  | .availableReactions => AVAILABLE_REACTIONS
  | .pendingJoinRequests => PENDING_JOIN_REQUESTS
  | .viewAsTopics => VIEW_AS_TOPICS
  | .accentColorId => ACCENT_COLOR_ID
  | .backgroundCustomEmojiId => BACKGROUND_CUSTOM_EMOJI_ID
  | .upgradedGiftColors => UPGRADED_GIFT_COLORS
  | .profileAccentColorId => PROFILE_ACCENT_COLOR_ID
  | .profileBackgroundCustomEmojiId => PROFILE_BACKGROUND_CUSTOM_EMOJI_ID

def kind : Field → Kind
  | .lastMessage | .draftMessage | .photo | .permissions | .notificationSettings | .availableReactions
  | .pendingJoinRequests | .upgradedGiftColors => .map
  | .lastReadInboxMessageId | .unreadCount | .lastReadOutboxMessageId | .unreadMentionCount | .unreadReactionCount
  | .unreadPollVoteCount | .accentColorId | .profileAccentColorId => .number
  | .title | .backgroundCustomEmojiId | .profileBackgroundCustomEmojiId => .text
  | .isMarkedAsUnread | .viewAsTopics => .flag

/-- The value of the field in an object that has it under the key. -/
def readAt (field : Field) (key : String) (object : QVariantMap) : QVariant := field.kind.read (object.value key)

def read (field : Field) (object : QVariantMap) : QVariant := field.readAt field.key object

/-- The form in which an update brings the field: messages and drafts are cleaned. -/
def form (charSigned : Bool) (field : Field) (v : QVariant) : QVariant :=
  match field with
  | .lastMessage | .draftMessage => .map (cleanupMap charSigned v.toMap)
  | _ => v

/-- All fields, each at its own place. -/
def all : List Field :=
  [.lastMessage, .draftMessage, .lastReadInboxMessageId, .unreadCount, .lastReadOutboxMessageId, .title, .photo,
    .permissions, .notificationSettings, .isMarkedAsUnread, .unreadMentionCount, .unreadReactionCount,
    .unreadPollVoteCount, .availableReactions, .pendingJoinRequests, .viewAsTopics, .accentColorId,
    .backgroundCustomEmojiId, .upgradedGiftColors, .profileAccentColorId, .profileBackgroundCustomEmojiId]

theorem key_injective {field field' : Field} (h : field.key = field'.key) : field = field' := by
  have hof : ∀ f : Field, all.find? (fun f' => f'.key = f.key) = some f := by
    intro f
    cases f <;> rfl
  exact Option.some.inj ((hof field).symm.trans (h ▸ hof field'))

end Field

/-! ### The receiver -/

def processUpdateNewChat (data : QVariantMap) : Event := .newChatDiscovered (data.value "chat").toMap

def processUpdateChatLastMessage (charSigned : Bool) (data : QVariantMap) : Event :=
  .chatLastMessageUpdated (data.value CHAT_ID).toLongLong (cleanupMap charSigned (data.value LAST_MESSAGE).toMap)

def processUpdateChatReadInbox (data : QVariantMap) : Event :=
  .chatReadInboxUpdated (data.value CHAT_ID).toLongLong (data.value LAST_READ_INBOX_MESSAGE_ID).toLongLong
    (data.value UNREAD_COUNT).toInt

def processUpdateChatReadOutbox (data : QVariantMap) : Event :=
  .chatReadOutboxUpdated (data.value CHAT_ID).toLongLong (data.value LAST_READ_OUTBOX_MESSAGE_ID).toLongLong

def processUpdateChatAvailableReactions (data : QVariantMap) : Event :=
  .chatAvailableReactionsUpdated (data.value CHAT_ID).toLongLong (data.value AVAILABLE_REACTIONS).toMap

def processUpdateChatNotificationSettings (data : QVariantMap) : Event :=
  .chatNotificationSettingsUpdated (data.value CHAT_ID).toLongLong (data.value "notification_settings").toMap

def processUpdateChatPermissions (data : QVariantMap) : Event :=
  .chatPermissionsUpdated (data.value CHAT_ID).toLongLong (data.value "permissions").toMap

def processUpdateChatPhoto (data : QVariantMap) : Event :=
  .chatPhotoUpdated (data.value CHAT_ID).toLongLong (data.value PHOTO).toMap

def processUpdateChatTitle (data : QVariantMap) : Event :=
  .chatTitleUpdated (data.value CHAT_ID).toLongLong (data.value TITLE).toStr

def processUpdateChatIsMarkedAsUnread (data : QVariantMap) : Event :=
  .chatIsMarkedAsUnreadUpdated (data.value CHAT_ID).toLongLong (data.value "is_marked_as_unread").toBool

def processUpdateChatDraftMessage (charSigned : Bool) (data : QVariantMap) : Event :=
  .chatDraftMessageUpdated (data.value CHAT_ID).toLongLong (cleanupMap charSigned (data.value DRAFT_MESSAGE).toMap)

def processUpdateChatUnreadMentionCount (data : QVariantMap) : Event :=
  .chatUnreadMentionCountUpdated (data.value CHAT_ID).toLongLong (data.value UNREAD_MENTION_COUNT).toInt

/-- The signal of the message is left out, here and in the next two such handlers. -/
def processUpdateMessageMentionRead (data : QVariantMap) : Event :=
  .chatUnreadMentionCountUpdated (data.value CHAT_ID).toLongLong (data.value UNREAD_MENTION_COUNT).toInt

def processUpdateChatUnreadReactionCount (data : QVariantMap) : Event :=
  .chatUnreadReactionCountUpdated (data.value CHAT_ID).toLongLong (data.value UNREAD_REACTION_COUNT).toInt

def processUpdateMessageUnreadReactions (data : QVariantMap) : Event :=
  .chatUnreadReactionCountUpdated (data.value CHAT_ID).toLongLong (data.value UNREAD_REACTION_COUNT).toInt

def processUpdateChatUnreadPollVoteCount (data : QVariantMap) : Event :=
  .chatUnreadPollVoteCountUpdated (data.value CHAT_ID).toLongLong (data.value UNREAD_POLL_VOTE_COUNT).toInt

def processUpdateMessageContainsUnreadPollVotes (data : QVariantMap) : Event :=
  .chatUnreadPollVoteCountUpdated (data.value CHAT_ID).toLongLong (data.value UNREAD_POLL_VOTE_COUNT).toInt

def processUpdateChatPendingJoinRequests (data : QVariantMap) : Event :=
  .chatPendingJoinRequestsUpdated (data.value CHAT_ID).toLongLong (data.value "pending_join_requests").toMap

def processUpdateChatViewAsTopics (data : QVariantMap) : Event :=
  .chatViewAsTopicsUpdated (data.value CHAT_ID).toLongLong (data.value "view_as_topics").toBool

def processUpdateChatAccentColors (data : QVariantMap) : Event :=
  .chatAccentColorsUpdated (data.value CHAT_ID).toLongLong (data.value "accent_color_id").toInt
    (data.value "background_custom_emoji_id").toStr (data.value "upgraded_gift_colors").toMap
    -- the emoji of the profile is read from the field of its color
    (data.value "profile_accent_color_id").toInt (data.value "profile_accent_color_id").toStr

/-- The updates about the data of a chat. -/
inductive ChatUpdate where
  | chatLastMessage
  | chatDraftMessage
  | chatReadInbox
  | chatReadOutbox
  | chatTitle
  | chatPhoto
  | chatPermissions
  | chatNotificationSettings
  | chatIsMarkedAsUnread
  | chatUnreadMentionCount
  | messageMentionRead
  | chatUnreadReactionCount
  | messageUnreadReactions
  | chatUnreadPollVoteCount
  | messageContainsUnreadPollVotes
  | chatAvailableReactions
  | chatPendingJoinRequests
  | chatViewAsTopics
  | chatAccentColors
  deriving DecidableEq

namespace ChatUpdate

def type : ChatUpdate → String
  | .chatLastMessage => "updateChatLastMessage"
  | .chatDraftMessage => "updateChatDraftMessage"
  | .chatReadInbox => "updateChatReadInbox"
  | .chatReadOutbox => "updateChatReadOutbox"
  | .chatTitle => "updateChatTitle"
  | .chatPhoto => "updateChatPhoto"
  | .chatPermissions => "updateChatPermissions"
  | .chatNotificationSettings => "updateChatNotificationSettings"
  | .chatIsMarkedAsUnread => "updateChatIsMarkedAsUnread"
  | .chatUnreadMentionCount => "updateChatUnreadMentionCount"
  | .messageMentionRead => "updateMessageMentionRead"
  | .chatUnreadReactionCount => "updateChatUnreadReactionCount"
  | .messageUnreadReactions => "updateMessageUnreadReactions"
  | .chatUnreadPollVoteCount => "updateChatUnreadPollVoteCount"
  | .messageContainsUnreadPollVotes => "updateMessageContainsUnreadPollVotes"
  | .chatAvailableReactions => "updateChatAvailableReactions"
  | .chatPendingJoinRequests => "updateChatPendingJoinRequests"
  | .chatViewAsTopics => "updateChatViewAsTopics"
  | .chatAccentColors => "updateChatAccentColors"

/-- The fields of the chat an update carries. -/
def carries : ChatUpdate → List Field
  | .chatLastMessage => [.lastMessage]
  | .chatDraftMessage => [.draftMessage]
  | .chatReadInbox => [.lastReadInboxMessageId, .unreadCount]
  | .chatReadOutbox => [.lastReadOutboxMessageId]
  | .chatTitle => [.title]
  | .chatPhoto => [.photo]
  | .chatPermissions => [.permissions]
  | .chatNotificationSettings => [.notificationSettings]
  | .chatIsMarkedAsUnread => [.isMarkedAsUnread]
  | .chatUnreadMentionCount | .messageMentionRead => [.unreadMentionCount]
  | .chatUnreadReactionCount | .messageUnreadReactions => [.unreadReactionCount]
  | .chatUnreadPollVoteCount | .messageContainsUnreadPollVotes => [.unreadPollVoteCount]
  | .chatAvailableReactions => [.availableReactions]
  | .chatPendingJoinRequests => [.pendingJoinRequests]
  | .chatViewAsTopics => [.viewAsTopics]
  | .chatAccentColors =>
      [.accentColorId, .backgroundCustomEmojiId, .upgradedGiftColors, .profileAccentColorId,
        .profileBackgroundCustomEmojiId]

/-- The handler of an update. -/
def process (charSigned : Bool) : ChatUpdate → QVariantMap → Event
  | .chatLastMessage => processUpdateChatLastMessage charSigned
  | .chatDraftMessage => processUpdateChatDraftMessage charSigned
  | .chatReadInbox => processUpdateChatReadInbox
  | .chatReadOutbox => processUpdateChatReadOutbox
  | .chatTitle => processUpdateChatTitle
  | .chatPhoto => processUpdateChatPhoto
  | .chatPermissions => processUpdateChatPermissions
  | .chatNotificationSettings => processUpdateChatNotificationSettings
  | .chatIsMarkedAsUnread => processUpdateChatIsMarkedAsUnread
  | .chatUnreadMentionCount => processUpdateChatUnreadMentionCount
  | .messageMentionRead => processUpdateMessageMentionRead
  | .chatUnreadReactionCount => processUpdateChatUnreadReactionCount
  | .messageUnreadReactions => processUpdateMessageUnreadReactions
  | .chatUnreadPollVoteCount => processUpdateChatUnreadPollVoteCount
  | .messageContainsUnreadPollVotes => processUpdateMessageContainsUnreadPollVotes
  | .chatAvailableReactions => processUpdateChatAvailableReactions
  | .chatPendingJoinRequests => processUpdateChatPendingJoinRequests
  | .chatViewAsTopics => processUpdateChatViewAsTopics
  | .chatAccentColors => processUpdateChatAccentColors

def all : List ChatUpdate :=
  [.chatLastMessage, .chatDraftMessage, .chatReadInbox, .chatReadOutbox, .chatTitle, .chatPhoto, .chatPermissions,
    .chatNotificationSettings, .chatIsMarkedAsUnread, .chatUnreadMentionCount, .messageMentionRead,
    .chatUnreadReactionCount, .messageUnreadReactions, .chatUnreadPollVoteCount, .messageContainsUnreadPollVotes,
    .chatAvailableReactions, .chatPendingJoinRequests, .chatViewAsTopics, .chatAccentColors]

def ofType (type : String) : Option ChatUpdate := all.find? fun update => update.type = type

theorem ofType_type (update : ChatUpdate) : ofType update.type = some update := by
  cases update <;> rfl

theorem handlerOf_type (update : ChatUpdate) : handlerOf update.type = some update.type := by
  have hmem : update.type ∈ handlers := by
    cases update <;> decide
  rw [handlerOf, if_pos hmem]

end ChatUpdate

/-- `processReceivedDocument`, as far as it emits the data of chats. -/
def receiveChat (charSigned : Bool) (clientId : Int) (data : QVariantMap) : Option Event :=
  match route clientId data with
  | .handler key =>
      if key = "updateNewChat" then some (processUpdateNewChat data)
      else (ChatUpdate.ofType key).map fun update => update.process charSigned data
  | .response _ | .ignored | .unhandled => none

/-! ### The store -/

/-- The chat that the signal `chatRolesUpdated` of a slot names. -/
def Event.chatId : Event → Int
  | .chatLastMessageUpdated chatId _ | .chatDraftMessageUpdated chatId _ | .chatReadInboxUpdated chatId _ _
  | .chatReadOutboxUpdated chatId _ | .chatTitleUpdated chatId _ | .chatPhotoUpdated chatId _
  | .chatNotificationSettingsUpdated chatId _ | .chatIsMarkedAsUnreadUpdated chatId _
  | .chatUnreadMentionCountUpdated chatId _ | .chatUnreadReactionCountUpdated chatId _
  | .chatUnreadPollVoteCountUpdated chatId _ | .chatPermissionsUpdated chatId _
  | .chatAvailableReactionsUpdated chatId _ | .chatPendingJoinRequestsUpdated chatId _
  | .chatViewAsTopicsUpdated chatId _ | .chatAccentColorsUpdated chatId _ _ _ _ _ | .chatActionUpdated chatId _ _ _ =>
      chatId
  | _ => 0

namespace TDLibData

variable (texts : ChatData.Texts) (charSigned : Bool) (clientId : Int)

/-- The store after a document, and the chats and roles that `chatRolesUpdated` names. -/
def receive (d : TDLibData) (data : QVariantMap) : TDLibData × List (Int × ChatData.Role) :=
  match receiveChat charSigned clientId data with
  | none => (d, [])
  | some e => ((d.handle texts e).1, (d.handle texts e).2.map fun role => (e.chatId, role))

def receiveStep (d : TDLibData) (data : QVariantMap) : TDLibData := (d.receive texts charSigned clientId data).1

/-- The slot for the available reactions is connected twice; its second call changes nothing. -/
theorem handleChatAvailableReactionsUpdated_twice (d : TDLibData) (chatId : Int) (availableReactions : QVariantMap) :
    ((d.handleChatAvailableReactionsUpdated chatId availableReactions).1.handleChatAvailableReactionsUpdated chatId
      availableReactions).1 = (d.handleChatAvailableReactionsUpdated chatId availableReactions).1 := by
  simp only [handleChatAvailableReactionsUpdated, updateChatField, updateChat]
  cases hchat : d.chats.value chatId with
  | none => simp only [hchat]
  | some chat =>
      simp only [QHash.value_insert_self]
      have hdata : (chat.chatData.insert AVAILABLE_REACTIONS (.map availableReactions)).insert AVAILABLE_REACTIONS
          (.map availableReactions) = chat.chatData.insert AVAILABLE_REACTIONS (.map availableReactions) :=
        QVariantMap.insert_of_value (QVariantMap.value_insert_self _ _ _) (by rintro ⟨⟩)
      rw [ChatData.insert, ChatData.insert, hdata, QHash.insert_insert_self]

end TDLibData

end Account

end YaqtLib
