import YaqtLib.ChatData
import YaqtLib.Runs

/-! The store of an account (`tdlibdata.cpp`): everything TDLib reports of it, the slots that fill it, `reset()`
and the getters. Signals to the chat lists are left out here. -/

namespace YaqtLib

namespace Account

open Containers TdConst

inductive UserPrivacySettingRule where
  | ruleAllowAll
  | ruleAllowContacts
  | ruleRestrictAll
  deriving DecidableEq

inductive NotificationSettingsScope where
  | privateChats
  | groupChats
  | channelChats
  deriving DecidableEq

/-- The members that the constructor leaves without a value. -/
structure Uninitialised where
  ownedStars : Int
  ownedNanostars : Int
  ownedGrams : Int

/-- A privacy setting is the number of its enumerator, as the extra field of its request has it. -/
structure TDLibData where
  options : QHash String QVariant
  myId : Int
  userInformation : QVariantMap
  userPrivacySettingRules : QHash Int UserPrivacySettingRule
  usersById : QHash Int QVariantMap
  chats : QHash Int ChatData
  secretChats : QHash Int QVariantMap
  basicGroups : QHash Int Group
  superGroups : QHash Int Group
  communities : QHash Int QVariantMap
  activeEmojiReactions : List String
  diceEmojis : List String
  scopesNotificationSettings : QHash NotificationSettingsScope QVariantMap
  defaultReactionType : QVariantMap
  accentColors : QHash Int QVariantMap
  availableAccentColorIds : List Int
  ownedStars : Int
  ownedNanostars : Int
  ownedGrams : Int
  stakeDiceState : QVariantMap

namespace TDLibData

def new (memory : Uninitialised) : TDLibData where
  options := QHash.empty
  myId := 0
  userInformation := []
  userPrivacySettingRules := QHash.empty
  usersById := QHash.empty
  chats := QHash.empty
  secretChats := QHash.empty
  basicGroups := QHash.empty
  superGroups := QHash.empty
  communities := QHash.empty
  activeEmojiReactions := []
  diceEmojis := []
  scopesNotificationSettings := QHash.empty
  defaultReactionType := []
  accentColors := QHash.empty
  availableAccentColorIds := []
  ownedStars := memory.ownedStars
  ownedNanostars := memory.ownedNanostars
  ownedGrams := memory.ownedGrams
  stakeDiceState := []

def reset (d : TDLibData) : TDLibData :=
  { d with
    options := QHash.empty
    myId := 0
    userInformation := []
    userPrivacySettingRules := QHash.empty
    usersById := QHash.empty
    chats := QHash.empty
    secretChats := QHash.empty
    basicGroups := QHash.empty
    superGroups := QHash.empty
    activeEmojiReactions := []
    diceEmojis := [] }

/-! ### Getters -/

def getOption (d : TDLibData) (optionName : String) : QVariant := (d.options.value optionName).getD .invalid

def getUserInformation (d : TDLibData) (userId : Int) : QVariantMap := (d.usersById.value userId).getD []

def hasUserInformation (d : TDLibData) (userId : Int) : Bool := d.usersById.contains userId

def getUserPrivacySettingRule (d : TDLibData) (userPrivacySetting : Int) : UserPrivacySettingRule :=
  (d.userPrivacySettingRules.value userPrivacySetting).getD .ruleAllowAll

def getGroup (d : TDLibData) (groupId : Int) (superGroup : Bool) : Option Group :=
  if groupId ≠ 0 then (if superGroup then d.superGroups else d.basicGroups).value groupId else none

def getBasicGroup (d : TDLibData) (groupId : Int) : QVariantMap :=
  ((d.basicGroups.value groupId).map Group.groupInfo).getD []

def getSuperGroup (d : TDLibData) (groupId : Int) : QVariantMap :=
  ((d.superGroups.value groupId).map Group.groupInfo).getD []

def getChat (d : TDLibData) (chatId : Int) : QVariantMap := ((d.chats.value chatId).map ChatData.chatData).getD []

def hasChatData (d : TDLibData) (chatId : Int) : Bool := d.chats.contains chatId

def getChatData (d : TDLibData) (chatId : Int) : Option ChatData := d.chats.value chatId

def getSecretChat (d : TDLibData) (secretChatId : Int) : QVariantMap := (d.secretChats.value secretChatId).getD []

def getCommunity (d : TDLibData) (id : Int) : QVariantMap := (d.communities.value id).getD []

def scopeNotificationSettings (d : TDLibData) (scope : NotificationSettingsScope) : QVariantMap :=
  (d.scopesNotificationSettings.value scope).getD []

/-- The scope of a chat. -/
def notificationSettingsScope (chat : ChatData) : NotificationSettingsScope :=
  match chat.chatType with
  | .private_ | .secret => .privateChats
  | .basicGroup => .groupChats
  | .supergroup => if chat.isChannel then .channelChats else .groupChats
  | .unknown => .privateChats

/-- For a chat that is stored; the source has no answer for another one. -/
def getChatNotificationSettingsScope (d : TDLibData) (chatId : Int) : Option NotificationSettingsScope :=
  (d.chats.value chatId).map notificationSettingsScope

def getChatScopeNotificationSettings (d : TDLibData) (chatId : Int) : Option QVariantMap :=
  (d.getChatNotificationSettingsScope chatId).map d.scopeNotificationSettings

def getChatMuteFor (d : TDLibData) (chatId : Int) (notificationSettings : QVariantMap) : Int :=
  match d.chats.value chatId with
  | none => 0
  | some chat =>
      let settings := if notificationSettings.isEmpty then chat.notificationSettings else notificationSettings
      if (settings.value "use_default_mute_for").toBool then
        ((d.scopeNotificationSettings (notificationSettingsScope chat)).value MUTE_FOR).toInt
      else (settings.value MUTE_FOR).toInt

def canSkipChatJoinDialog (d : TDLibData) (chatId : Int) : Bool :=
  let chat := d.getChat chatId
  if chat.isEmpty then false
  else
    let chatType := (chat.value TYPE).toMap
    if chatTypeFromString (chatType.value TYPE_).toStr = .supergroup then
      match d.superGroups.value (chatType.value SUPERGROUP_ID).toLongLong with
      | none => false
      | some supergroup => supergroup.chatMemberStatus ≠ .left || supergroup.isPublic
    else true

/-- `QChar::isSpace` -/
def isSpace (c : Char) : Bool :=
  let n := c.toNat
  (9 ≤ n && n ≤ 13) || n == 0x20 || n == 0x85 || n == 0xA0 || n == 0x1680 || (0x2000 ≤ n && n ≤ 0x200A) ||
    n == 0x2028 || n == 0x2029 || n == 0x202F || n == 0x205F || n == 0x3000

/-- `QString::trimmed` -/
def trimmed (text : String) : String :=
  String.ofList ((text.toList.dropWhile isSpace).reverse.dropWhile isSpace).reverse

def isDiceEmoji (d : TDLibData) (text : String) : Bool := trimmed text ∈ d.diceEmojis

def getAccentColor (d : TDLibData) (id : Int) : QVariant :=
  match d.accentColors.value id with
  | none => .invalid
  | some color => .map color

def availableAccentColors (d : TDLibData) : QVariantList :=
  d.availableAccentColorIds.map fun id => .map ((d.accentColors.value id).getD [])

/-! ### Slots -/

def handleOptionUpdated (d : TDLibData) (optionName : String) (optionValue : QVariant) : TDLibData :=
  let d := { d with options := d.options.insert optionName optionValue }
  if optionName = "my_id" then
    { d with myId := optionValue.toLongLong, userInformation := d.getUserInformation optionValue.toLongLong }
  else d

def updateUserInformation (d : TDLibData) (userId : Int) (userInformation : QVariantMap) : TDLibData :=
  { d with usersById := d.usersById.insert userId userInformation }

def handleUserUpdated (d : TDLibData) (user : QVariantMap) : TDLibData :=
  let userId := (user.value ID).toLongLong
  let d := if userId = d.myId then { d with userInformation := user } else d
  d.updateUserInformation userId user

/-- The status of a user is stored if it differs, and its chat takes it over. -/
def storeUserStatus (d : TDLibData) (userId : Int) (status : QVariantMap) : TDLibData :=
  let updatedUserInformation := d.getUserInformation userId
  if updatedUserInformation.value STATUS = .map status then d
  else
    let d := d.updateUserInformation userId (updatedUserInformation.insert STATUS (.map status))
    -- the ids of a user and of the private chat with it are the same
    match d.chats.value userId with
    | none => d
    | some chat => { d with chats := d.chats.insert userId (chat.updateUserStatus status) }

def handleUserStatusUpdated (d : TDLibData) (userId : Int) (status : QVariantMap) : TDLibData :=
  let d := if userId = d.myId then { d with userInformation := d.userInformation.insert STATUS (.map status) } else d
  d.storeUserStatus userId status

/-- The last of the given rules that is known counts. -/
def appliedRule (newGivenRules : QVariantList) : UserPrivacySettingRule :=
  newGivenRules.foldl (fun newAppliedRule rule =>
    let givenRule := (rule.toMap.value TYPE_).toStr
    if givenRule = "userPrivacySettingRuleAllowContacts" then .ruleAllowContacts
    else if givenRule = "userPrivacySettingRuleAllowAll" then .ruleAllowAll
    else newAppliedRule) .ruleRestrictAll

def handleUserPrivacySettingRules (d : TDLibData) (rules : QVariantMap) : TDLibData :=
  let usedSetting := (rules.value EXTRA_).toInt
  { d with userPrivacySettingRules :=
      d.userPrivacySettingRules.insert usedSetting (appliedRule (rules.value "rules").toList) }

/-- The number of a setting, where it is known. -/
def userPrivacySettingOf (rawSetting : String) : Option Int :=
  if rawSetting = "userPrivacySettingAllowChatInvites" then some 0
  else if rawSetting = "userPrivacySettingAllowFindingByPhoneNumber" then some 1
  else if rawSetting = "userPrivacySettingShowLinkInForwardedMessages" then some 2
  else if rawSetting = "userPrivacySettingShowPhoneNumber" then some 3
  else if rawSetting = "userPrivacySettingShowProfilePhoto" then some 4
  else if rawSetting = "userPrivacySettingShowStatus" then some 5
  else none

def handleUpdatedUserPrivacySettingRules (d : TDLibData) (updatedRules : QVariantMap) : TDLibData :=
  match userPrivacySettingOf ((updatedRules.value "setting").toMap.value TYPE_).toStr with
  | none => d
  | some usedSetting =>
      d.handleUserPrivacySettingRules ((updatedRules.value "rules").toMap.insert EXTRA_ (.longLong usedSetting))

/-- A new chat object: the status of its user or the data of its group are looked up. -/
def newChatData (d : TDLibData) (data : QVariantMap) : ChatData :=
  let chatId := (data.value ID).toLongLong
  let type := (data.value TYPE).toMap
  let chatType := chatTypeFromString (type.value TYPE_).toStr
  let groupId :=
    match chatType with
    | .basicGroup => (type.value BASIC_GROUP_ID).toLongLong
    | .supergroup => (type.value SUPERGROUP_ID).toLongLong
    | _ => 0
  let chat : ChatData := { chatData := data, chatId := chatId, groupId := groupId, verificationStatus := []
                           chatType := chatType, memberStatus := .unknown, chatActions := QHash.empty, online := false }
  let chat :=
    if chatType = .private_ ∨ chatType = .secret then
      chat.updateUserStatus ((d.getUserInformation chatId).value STATUS).toMap
    else chat
  match d.getGroup groupId (chatType = .supergroup) with
  | none => chat
  | some group => chat.updateGroup group

def handleNewChatDiscovered (d : TDLibData) (chatInformation : QVariantMap) : TDLibData :=
  { d with chats := d.chats.insert (chatInformation.value ID).toLongLong (d.newChatData chatInformation) }

/-- A known chat is updated, and the roles it reports are those of the signal. -/
def updateChat (d : TDLibData) (chatId : Int) (f : ChatData → ChatData × List ChatData.Role) :
    TDLibData × List ChatData.Role :=
  match d.chats.value chatId with
  | none => (d, [])
  | some chat => ({ d with chats := d.chats.insert chatId (f chat).1 }, (f chat).2)

def handleChatLastMessageUpdated (texts : ChatData.Texts) (d : TDLibData) (chatId : Int) (lastMessage : QVariantMap) :
    TDLibData × List ChatData.Role :=
  d.updateChat chatId fun chat => chat.updateLastMessage texts lastMessage

def handleChatDraftMessageUpdated (d : TDLibData) (chatId : Int) (draftMessage : QVariantMap) :
    TDLibData × List ChatData.Role :=
  d.updateChat chatId fun chat =>
    (chat.insert DRAFT_MESSAGE (.map draftMessage), [.draftMessageDate, .draftMessageText])

def handleChatReadInboxUpdated (d : TDLibData) (chatId lastReadInboxMessageId unreadCount : Int) :
    TDLibData × List ChatData.Role :=
  d.updateChat chatId fun chat =>
    let (chat, countChanged) := chat.updateUnreadCount unreadCount
    let (chat, inboxChanged) := chat.updateLastReadInboxMessageId lastReadInboxMessageId
    let changedRoles :=
      ChatData.roleIf (countChanged = true) .unreadCount ++ ChatData.roleIf (inboxChanged = true) .lastReadInboxMessageId
    (chat, if changedRoles.isEmpty then [] else changedRoles ++ [.display])

def handleChatReadOutboxUpdated (d : TDLibData) (chatId lastReadOutboxMessageId : Int) :
    TDLibData × List ChatData.Role :=
  d.updateChat chatId fun chat =>
    let (chat, changed) := chat.updateLastReadOutboxMessageId lastReadOutboxMessageId
    (chat, ChatData.roleIf (changed = true) .lastReadOutboxMessageId)

/-- A field of a known chat is written, and its role named. -/
def updateChatField (field : String) (role : ChatData.Role) (d : TDLibData) (chatId : Int) (v : QVariant) :
    TDLibData × List ChatData.Role :=
  d.updateChat chatId fun chat => (chat.insert field v, [role])

def handleChatTitleUpdated (d : TDLibData) (chatId : Int) (title : String) : TDLibData × List ChatData.Role :=
  updateChatField TITLE .title d chatId (.string title)

def handleChatPhotoUpdated (d : TDLibData) (chatId : Int) (photo : QVariantMap) : TDLibData × List ChatData.Role :=
  updateChatField PHOTO .photo d chatId (.map photo)

def handleChatNotificationSettingsUpdated (d : TDLibData) (chatId : Int) (settings : QVariantMap) :
    TDLibData × List ChatData.Role :=
  updateChatField NOTIFICATION_SETTINGS .notificationSettings d chatId (.map settings)

def handleChatIsMarkedAsUnreadUpdated (d : TDLibData) (chatId : Int) (chatIsMarkedAsUnread : Bool) :
    TDLibData × List ChatData.Role :=
  updateChatField IS_MARKED_AS_UNREAD .isMarkedAsUnread d chatId (.bool chatIsMarkedAsUnread)

/-- A counter of a known chat is written, and its role named, if it changes. -/
def updateChatCount (field : String) (role : ChatData.Role) (d : TDLibData) (chatId value : Int) :
    TDLibData × List ChatData.Role :=
  d.updateChat chatId fun chat =>
    chat.updateIfChanged field ((chat.chatData.value field).toInt ≠ value) (.longLong value) role

def handleChatUnreadMentionCountUpdated : TDLibData → Int → Int → TDLibData × List ChatData.Role :=
  updateChatCount UNREAD_MENTION_COUNT .unreadMentionCount

def handleChatUnreadReactionCountUpdated : TDLibData → Int → Int → TDLibData × List ChatData.Role :=
  updateChatCount UNREAD_REACTION_COUNT .unreadReactionCount

def handleChatUnreadPollVoteCountUpdated : TDLibData → Int → Int → TDLibData × List ChatData.Role :=
  updateChatCount UNREAD_POLL_VOTE_COUNT .unreadPollVoteCount

def handleChatPermissionsUpdated (d : TDLibData) (chatId : Int) (permissions : QVariantMap) :
    TDLibData × List ChatData.Role :=
  updateChatField PERMISSIONS .permissions d chatId (.map permissions)

def handleChatAvailableReactionsUpdated (d : TDLibData) (chatId : Int) (availableReactions : QVariantMap) :
    TDLibData × List ChatData.Role :=
  updateChatField AVAILABLE_REACTIONS .availableReactions d chatId (.map availableReactions)

/-- There is no role for the join requests. -/
def handleChatPendingJoinRequestsUpdated (d : TDLibData) (chatId : Int) (pendingJoinRequests : QVariantMap) :
    TDLibData × List ChatData.Role :=
  d.updateChat chatId fun chat => (chat.insert PENDING_JOIN_REQUESTS (.map pendingJoinRequests), [])

def handleChatViewAsTopicsUpdated (d : TDLibData) (chatId : Int) (viewAsTopics : Bool) :
    TDLibData × List ChatData.Role :=
  updateChatField VIEW_AS_TOPICS .viewAsTopics d chatId (.bool viewAsTopics)

def handleChatAccentColorsUpdated (d : TDLibData) (chatId accentColorId : Int) (backgroundCustomEmojiId : String)
    (upgradedGiftColors : QVariantMap) (profileAccentColorId : Int) (profileBackgroundCustomEmojiId : String) :
    TDLibData × List ChatData.Role :=
  d.updateChat chatId fun chat => chat.updateAccentColors accentColorId backgroundCustomEmojiId upgradedGiftColors
    profileAccentColorId profileBackgroundCustomEmojiId

/-- The actions of the whole chat are stored; those of a topic only go on as a signal. -/
def handleChatActionUpdated (d : TDLibData) (chatId : Int) (topicId sender action : QVariantMap) : TDLibData :=
  if topicId.isEmpty then
    (d.updateChat chatId fun chat =>
      ({ chat with chatActions :=
          if (action.value TYPE_).toStr = "chatActionCancel" then chat.chatActions.remove (.of sender)
          else chat.chatActions.insert (.of sender) (.of action) }, [])).1
  else d

/-- The chats of a group take over its data. -/
def updateGroupChats (chats : QHash Int ChatData) (group : Group) : QHash Int ChatData :=
  fun chatId => (chats.value chatId).map fun chat => chat.updateGroup group

def handleBasicGroupUpdated (d : TDLibData) (groupId : Int) (groupInformation : QVariantMap) : TDLibData :=
  let group : Group := { groupId := groupId, groupInfo := groupInformation }
  { d with basicGroups := d.basicGroups.insert groupId group, chats := updateGroupChats d.chats group }

def handleSupergroupUpdated (d : TDLibData) (groupId : Int) (groupInformation : QVariantMap) : TDLibData :=
  let group : Group := { groupId := groupId, groupInfo := groupInformation }
  { d with superGroups := d.superGroups.insert groupId group, chats := updateGroupChats d.chats group }

def handleSecretChatUpdated (d : TDLibData) (secretChatId : Int) (secretChat : QVariantMap) : TDLibData :=
  { d with secretChats := d.secretChats.insert secretChatId secretChat }

def handleCommunityUpdated (d : TDLibData) (id : Int) (community : QVariantMap) : TDLibData :=
  { d with communities := d.communities.insert id community }

def scopeOf (scopeType : String) : Option NotificationSettingsScope :=
  if scopeType = "notificationSettingsScopePrivateChats" then some .privateChats
  else if scopeType = "notificationSettingsScopeGroupChats" then some .groupChats
  else if scopeType = "notificationSettingsScopeChannelChats" then some .channelChats
  else none

def handleScopeNotificationSettingsUpdated (d : TDLibData) (scopeType : String) (settings : QVariantMap) : TDLibData :=
  match scopeOf scopeType with
  | none => d
  | some scope => { d with scopesNotificationSettings := d.scopesNotificationSettings.insert scope settings }

def handleOwnedStarCountUpdated (d : TDLibData) (stars nanostars : Int) : TDLibData :=
  { d with ownedStars := stars, ownedNanostars := nanostars }

def handleOwnedGramCountUpdated (d : TDLibData) (grams : Int) : TDLibData := { d with ownedGrams := grams }

def handleStakeDiceStateUpdated (d : TDLibData) (state : QVariantMap) : TDLibData := { d with stakeDiceState := state }

def handleActiveEmojiReactionsUpdated (d : TDLibData) (emojis : List String) : TDLibData :=
  if d.activeEmojiReactions ≠ emojis then { d with activeEmojiReactions := emojis } else d

def handleDiceEmojisUpdated (d : TDLibData) (emojis : List String) : TDLibData :=
  if d.diceEmojis ≠ emojis then { d with diceEmojis := emojis } else d

def handleDefaultReactionTypeUpdated (d : TDLibData) (reactionType : QVariantMap) : TDLibData :=
  { d with defaultReactionType := reactionType }

/-- The colors by their ids; a later color of an id replaces an earlier one. -/
def colorsById (colors : QVariantList) : QHash Int QVariantMap :=
  colors.foldl (fun accentColors color => accentColors.insert (color.toMap.value ID).toInt color.toMap) QHash.empty

def handleAccentColorsUpdated (d : TDLibData) (colors : QVariantList) (availableAccentColorIds : List Int) :
    TDLibData :=
  { d with accentColors := colorsById colors, availableAccentColorIds := availableAccentColorIds }

end TDLibData

/-- What the store is told: the signals of the receiver, and the reset when a session ends. -/
inductive Event where
  | reset
  | optionUpdated (optionName : String) (optionValue : QVariant)
  | userUpdated (user : QVariantMap)
  | userStatusUpdated (userId : Int) (status : QVariantMap)
  | userPrivacySettingRules (rules : QVariantMap)
  | userPrivacySettingRulesUpdated (updatedRules : QVariantMap)
  | newChatDiscovered (chatInformation : QVariantMap)
  | chatLastMessageUpdated (chatId : Int) (lastMessage : QVariantMap)
  | chatDraftMessageUpdated (chatId : Int) (draftMessage : QVariantMap)
  | chatReadInboxUpdated (chatId lastReadInboxMessageId unreadCount : Int)
  | chatReadOutboxUpdated (chatId lastReadOutboxMessageId : Int)
  | chatTitleUpdated (chatId : Int) (title : String)
  | chatPhotoUpdated (chatId : Int) (photo : QVariantMap)
  | chatNotificationSettingsUpdated (chatId : Int) (settings : QVariantMap)
  | chatIsMarkedAsUnreadUpdated (chatId : Int) (chatIsMarkedAsUnread : Bool)
  | chatUnreadMentionCountUpdated (chatId value : Int)
  | chatUnreadReactionCountUpdated (chatId value : Int)
  | chatUnreadPollVoteCountUpdated (chatId value : Int)
  | chatPermissionsUpdated (chatId : Int) (permissions : QVariantMap)
  | chatAvailableReactionsUpdated (chatId : Int) (availableReactions : QVariantMap)
  | chatPendingJoinRequestsUpdated (chatId : Int) (pendingJoinRequests : QVariantMap)
  | chatViewAsTopicsUpdated (chatId : Int) (viewAsTopics : Bool)
  | chatAccentColorsUpdated (chatId accentColorId : Int) (backgroundCustomEmojiId : String)
      (upgradedGiftColors : QVariantMap) (profileAccentColorId : Int) (profileBackgroundCustomEmojiId : String)
  | chatActionUpdated (chatId : Int) (topicId sender action : QVariantMap)
  | basicGroupUpdated (groupId : Int) (groupInformation : QVariantMap)
  | supergroupUpdated (groupId : Int) (groupInformation : QVariantMap)
  | secretChatUpdated (secretChatId : Int) (secretChat : QVariantMap)
  | communityUpdated (id : Int) (community : QVariantMap)
  | scopeNotificationSettingsUpdated (scopeType : String) (settings : QVariantMap)
  | ownedStarCountUpdated (stars nanostars : Int)
  | ownedGramCountUpdated (grams : Int)
  | stakeDiceStateUpdated (state : QVariantMap)
  | activeEmojiReactionsUpdated (emojis : List String)
  | diceEmojisUpdated (emojis : List String)
  | defaultReactionTypeUpdated (reactionType : QVariantMap)
  | accentColorsUpdated (colors : QVariantList) (availableAccentColorIds : List Int)

namespace TDLibData

/-- The store after one event, and the roles that `chatRolesUpdated` names if the event is about a chat's data. -/
def handle (texts : ChatData.Texts) (d : TDLibData) : Event → TDLibData × List ChatData.Role
  | .reset => (d.reset, [])
  | .optionUpdated optionName optionValue => (d.handleOptionUpdated optionName optionValue, [])
  | .userUpdated user => (d.handleUserUpdated user, [])
  | .userStatusUpdated userId status => (d.handleUserStatusUpdated userId status, [])
  | .userPrivacySettingRules rules => (d.handleUserPrivacySettingRules rules, [])
  | .userPrivacySettingRulesUpdated updatedRules => (d.handleUpdatedUserPrivacySettingRules updatedRules, [])
  | .newChatDiscovered chatInformation => (d.handleNewChatDiscovered chatInformation, [])
  | .chatLastMessageUpdated chatId lastMessage => d.handleChatLastMessageUpdated texts chatId lastMessage
  | .chatDraftMessageUpdated chatId draftMessage => d.handleChatDraftMessageUpdated chatId draftMessage
  | .chatReadInboxUpdated chatId lastReadInboxMessageId unreadCount =>
      d.handleChatReadInboxUpdated chatId lastReadInboxMessageId unreadCount
  | .chatReadOutboxUpdated chatId lastReadOutboxMessageId =>
      d.handleChatReadOutboxUpdated chatId lastReadOutboxMessageId
  | .chatTitleUpdated chatId title => d.handleChatTitleUpdated chatId title
  | .chatPhotoUpdated chatId photo => d.handleChatPhotoUpdated chatId photo
  | .chatNotificationSettingsUpdated chatId settings => d.handleChatNotificationSettingsUpdated chatId settings
  | .chatIsMarkedAsUnreadUpdated chatId chatIsMarkedAsUnread =>
      d.handleChatIsMarkedAsUnreadUpdated chatId chatIsMarkedAsUnread
  | .chatUnreadMentionCountUpdated chatId value => d.handleChatUnreadMentionCountUpdated chatId value
  | .chatUnreadReactionCountUpdated chatId value => d.handleChatUnreadReactionCountUpdated chatId value
  | .chatUnreadPollVoteCountUpdated chatId value => d.handleChatUnreadPollVoteCountUpdated chatId value
  | .chatPermissionsUpdated chatId permissions => d.handleChatPermissionsUpdated chatId permissions
  | .chatAvailableReactionsUpdated chatId availableReactions =>
      d.handleChatAvailableReactionsUpdated chatId availableReactions
  | .chatPendingJoinRequestsUpdated chatId pendingJoinRequests =>
      d.handleChatPendingJoinRequestsUpdated chatId pendingJoinRequests
  | .chatViewAsTopicsUpdated chatId viewAsTopics => d.handleChatViewAsTopicsUpdated chatId viewAsTopics
  | .chatAccentColorsUpdated chatId accentColorId backgroundCustomEmojiId upgradedGiftColors profileAccentColorId
      profileBackgroundCustomEmojiId =>
      d.handleChatAccentColorsUpdated chatId accentColorId backgroundCustomEmojiId upgradedGiftColors
        profileAccentColorId profileBackgroundCustomEmojiId
  | .chatActionUpdated chatId topicId sender action => (d.handleChatActionUpdated chatId topicId sender action, [])
  | .basicGroupUpdated groupId groupInformation => (d.handleBasicGroupUpdated groupId groupInformation, [])
  | .supergroupUpdated groupId groupInformation => (d.handleSupergroupUpdated groupId groupInformation, [])
  | .secretChatUpdated secretChatId secretChat => (d.handleSecretChatUpdated secretChatId secretChat, [])
  | .communityUpdated id community => (d.handleCommunityUpdated id community, [])
  | .scopeNotificationSettingsUpdated scopeType settings =>
      (d.handleScopeNotificationSettingsUpdated scopeType settings, [])
  | .ownedStarCountUpdated stars nanostars => (d.handleOwnedStarCountUpdated stars nanostars, [])
  | .ownedGramCountUpdated grams => (d.handleOwnedGramCountUpdated grams, [])
  | .stakeDiceStateUpdated state => (d.handleStakeDiceStateUpdated state, [])
  | .activeEmojiReactionsUpdated emojis => (d.handleActiveEmojiReactionsUpdated emojis, [])
  | .diceEmojisUpdated emojis => (d.handleDiceEmojisUpdated emojis, [])
  | .defaultReactionTypeUpdated reactionType => (d.handleDefaultReactionTypeUpdated reactionType, [])
  | .accentColorsUpdated colors availableAccentColorIds =>
      (d.handleAccentColorsUpdated colors availableAccentColorIds, [])

def step (texts : ChatData.Texts) (d : TDLibData) (e : Event) : TDLibData := (d.handle texts e).1

end TDLibData

end Account

end YaqtLib
