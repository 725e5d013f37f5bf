import YaqtLib.MessageSignals

/-! The requests of `TDLibWrapper`, as far as their replies are told apart: the type of each request and the `@extra`
that TDLib sends back with the reply. The error handler knows requests by these extras. -/

namespace YaqtLib

open TdConst TDLibReceiver

namespace TdConst

abbrev INVITE_LINK : String := "invite_link"
abbrev BUTTON_ID : String := "button_id"
abbrev URL : String := "url"
abbrev PROXY : String := "proxy"
abbrev TYPE_LOAD_CHATS : String := "loadChats"
abbrev TYPE_GET_MESSAGE : String := "getMessage"
abbrev TYPE_GET_FORUM_TOPIC : String := "getForumTopic"
abbrev TYPE_GET_INTERNAL_LINK_TYPE : String := "getInternalLinkType"
abbrev TYPE_GET_EXTERNAL_LINK_INFO : String := "getExternalLinkInfo"
abbrev TYPE_GET_LOGIN_URL_INFO : String := "getLoginUrlInfo"
abbrev TYPE_GET_LOGIN_URL : String := "getLoginUrl"
abbrev TYPE_DISABLE_PROXY : String := "disableProxy"
abbrev EXTRA_LOGIN_URL : String := "openLoginUrl"
abbrev EXTRA_LOAD_CHATS_FOR_FOLDER : String := "loadChatsForFolder"
abbrev EXTRA_RECENTLY_FOUND : String := "recentlyFound"
abbrev EXTRA_IS_CHANNEL : String := "isChannel"

end TdConst

namespace TDLibWrapper

/-! ### Requests -/

/-- What a function sets as the `@extra` of its request. -/
inductive Extra where
  | absent
  /-- As the caller hands it over. -/
  | given (v : QVariant)
  /-- A text that begins with a word of the function. -/
  | text (word rest : String)
  /-- Numbers with colons between them. -/
  | numbers (first : Int) (rest : List Int)
  | number (n : Int)
  | flag (b : Bool)
  | object (map : QVariantMap)

def joinNumbers : Int → List Int → String
  | n, [] => toString n
  | n, m :: ns => toString n ++ (":" ++ joinNumbers m ns)

def Extra.toVariant : Extra → QVariant
  | .absent => .invalid
  | .given v => v
  | .text word rest => .string (word ++ rest)
  | .numbers n ns => .string (joinNumbers n ns)
  | .number n => .longLong n
  | .flag b => .bool b
  | .object map => .map map

def getSearchMessagesFilterType : SearchMessagesFilter → String
  | .empty => "searchMessagesFilterEmpty"
  | .photoAndVideo => "searchMessagesFilterPhotoAndVideo"
  | .animation => "searchMessagesFilterAnimation"
  | .audio => "searchMessagesFilterAudio"
  | .chatPhoto => "searchMessagesFilterChatPhoto"
  | .document => "searchMessagesFilterDocument"
  | .failedToSend => "searchMessagesFilterFailedToSend"
  | .mention => "searchMessagesFilterMention"
  | .photo => "searchMessagesFilterPhoto"
  | .pinned => "searchMessagesFilterPinned"
  | .unreadMention => "searchMessagesFilterUnreadMention"
  | .unreadReaction => "searchMessagesFilterUnreadReaction"
  | .url => "searchMessagesFilterUrl"
  | .video => "searchMessagesFilterVideo"
  | .videoNote => "searchMessagesFilterVideoNote"
  | .voiceAndVideoNote => "searchMessagesFilterVoiceAndVideoNote"
  | .voiceNote => "searchMessagesFilterVoiceNote"

inductive TopChatCategory where
  | users
  | bots
  | calls
  | channels
  | forwardChats
  | groups
  | inlineBots
  | webAppBots
  deriving DecidableEq

def getTopChatCategoryType : TopChatCategory → String
  | .users => "topChatCategoryUsers"
  | .bots => "topChatCategoryBots"
  | .calls => "topChatCategoryCalls"
  | .channels => "topChatCategoryChannels"
  | .forwardChats => "topChatCategoryForwardChats"
  | .groups => "topChatCategoryGroups"
  | .inlineBots => "topChatCategoryInlineBots"
  | .webAppBots => "topChatCategoryWebAppBots"

/-- The functions that send a request, with the arguments that reach its `@extra`. Enumerators are their numbers. -/
inductive Call where
  | sendRequest (requestObject : QVariantMap)
  /-- With its overload, and the functions that wait for their own reply through it. -/
  | sendRequestWithId (requestObject : QVariantMap)
  /-- The functions that set no extra. -/
  | withoutExtra (type : String)
  | loadChats (archive : Bool)
  | loadChatsForFolder (folderId : Int)
  | joinChat (isChannel : Bool)
  | getChatHistory (chatId extra : Int)
  | getChatSponsoredMessages (chatId : Int)
  | getMapThumbnailFile (extra : String)
  | getRecentStickers
  | getFavoriteStickers
  | getInstalledStickerSets (stickerType : Int)
  | getSupergroupMembers (groupId : Int)
  | getGroupFullInfo (groupId : Int) (isSupergroup : Bool)
  | getUserFullInfo (userId : Int)
  | getChatTd (extra : QVariant)
  | createPrivateChat (extra : QVariant)
  | createNewSecretChat (extra : QVariant)
  | createSupergroupChat (extra : QVariant)
  | createBasicGroupChat (extra : QVariant)
  | getGroupsInCommon (userId : Int)
  | getUserProfilePhotos (userId : Int)
  | setChatPermissions (chatId : Int)
  | getPollVoters (extra : String)
  | searchPublicChat (userName : String) (extra2 : QVariantMap)
  | searchUserByPhoneNumber (doOpenOnFound : Bool)
  | searchUserByToken (doOpenOnFound : Bool)
  | joinChatByInviteLink (isChannel : Bool)
  | getContacts
  | searchContacts (query : String)
  | importContacts (extra : String)
  | removeContacts (userIds : QVariantList)
  | searchChatMessages (chatId filter extra : Int)
  | searchChats
  | searchPublicChats
  | getInlineQueryResults (extra : String)
  | sendBotStartMessage (extra : String)
  | getUserPrivacySettingRules (setting : Int)
  | setProfilePhoto
  | setPreviousProfilePhoto
  | deleteProfilePhoto (profilePhotoId : String)
  | changeStickerSet (isInstalled : Bool)
  | terminateSession
  | getMessageAvailableReactions (chatId messageId : Int)
  | setNetworkType
  | copyFileToDownloads (filePath : String) (openAfterCopy : Bool)
  | getMessageProperties (chatId messageId : Int)
  | getCustomEmojiStickers (extra : QVariant)
  | translateText (extra : String)
  | translateMessageText (chatId messageId : Int) (languageCode : String)
  | summarizeMessage (chatId messageId : Int) (translateToLanguageCode : String)
  | searchEmojis (text : String)
  | getChatListsToAddChat (chatId : Int)
  | getTopChats (category : TopChatCategory)
  | removeTopChat (category : TopChatCategory)
  | searchRecentlyFoundChats
  | addRecentlyFoundChat
  | removeRecentlyFoundChat
  | getChatMessageCount (chatId : Int) (filter : SearchMessagesFilter) (returnLocal : Bool)
  | getForumTopics (chatId : Int)
  | getChatJoinRequests (chatId : Int)
  | getInternalLinkType (extra : String)
  | getExternalLinkInfo (link : String) (skipConfirmation : Bool)
  | getExternalLink (link : String)
  | getLoginUrlInfo (chatId messageId buttonId : Int) (fallbackUrl : String)
  | getLoginUrl (fallbackUrl : String)
  | getLinkWebBrowserType (link : String) (skipConfirmation : Bool)
  | checkChatInviteLink (link : String)
  | getMessageThreadHistory (chatId messageId extra : Int)
  | getForumTopicHistory (chatId forumTopicId extra : Int)
  | getForumTopic (chatId forumTopicId : Int)
  | getChatSimilarChats (chatId : Int)
  | getBotSimilarBots (botUserId : Int)
  | addProxy (extra : String)
  | enableProxy (proxyId : Int)
  | disableProxy
  | removeProxy (proxyId : Int)
  | pingProxy
  /-- The overload with a proxy. -/
  | pingThisProxy (proxy : QVariantMap)
  | getInternalLink (extra : String)
  | getSavedNotificationSound (notificationSoundId : String)
  | addSavedNotificationSound
  | getMessageReadDate (chatId messageId : Int)
  | getAndOpenSupportUser
  | getApplicationDownloadLink
  | fetchOption (name : String)

namespace Call

/-- The type of the request and its extra; the extra of a request with an id is set when the id is known. -/
def request : Call → String × Extra
  | .sendRequest requestObject => ((requestObject.value TYPE_).toStr, .given (requestObject.value EXTRA_))
  | .sendRequestWithId requestObject => ((requestObject.value TYPE_).toStr, .absent)
  | .withoutExtra type => (type, .absent)
  | .loadChats archive => (TYPE_LOAD_CHATS, .text "loadChats:" (if archive then "!" else ""))
  | .loadChatsForFolder folderId => (TYPE_LOAD_CHATS, .text "loadChatsForFolder:" (toString folderId))
  | .joinChat isChannel => ("joinChat", .object [(EXTRA_IS_CHANNEL, .bool isChannel)])
  | .getChatHistory chatId extra => ("getChatHistory", .numbers chatId [extra])
  | .getChatSponsoredMessages chatId => ("getChatSponsoredMessages", .number chatId)
  | .getMapThumbnailFile extra => ("getMapThumbnailFile", .given (.string extra))
  | .getRecentStickers => ("getRecentStickers", .text "recent" "")
  | .getFavoriteStickers => ("getFavoriteStickers", .text "favorite" "")
  | .getInstalledStickerSets stickerType => ("getInstalledStickerSets", .text "installed" (toString stickerType))
  | .getSupergroupMembers groupId => ("getSupergroupMembers", .number groupId)
  | .getGroupFullInfo groupId isSupergroup =>
      (if isSupergroup then "getSupergroupFullInfo" else "getBasicGroupFullInfo", .number groupId)
  | .getUserFullInfo userId => ("getUserFullInfo", .number userId)
  | .getChatTd extra => ("getChat", .given extra)
  | .createPrivateChat extra => ("createPrivateChat", .given extra)
  | .createNewSecretChat extra => ("createNewSecretChat", .given extra)
  | .createSupergroupChat extra => ("createSupergroupChat", .given extra)
  | .createBasicGroupChat extra => ("createBasicGroupChat", .given extra)
  | .getGroupsInCommon userId => ("getGroupsInCommon", .text "getGroupsInCommon:" (toString userId))
  | .getUserProfilePhotos userId => ("getUserProfilePhotos", .number userId)
  | .setChatPermissions chatId => ("setChatPermissions", .number chatId)
  | .getPollVoters extra => ("getPollVoters", .given (.string extra))
  -- the field it adds to the map is not the `@type` of an object
  | .searchPublicChat userName extra2 =>
      ("searchPublicChat", .given (.map (extra2.insert TYPE (.string ("searchPublicChat:" ++ userName)))))
  | .searchUserByPhoneNumber doOpenOnFound => ("searchUserByPhoneNumber", .flag doOpenOnFound)
  | .searchUserByToken doOpenOnFound => ("searchUserByToken", .flag doOpenOnFound)
  | .joinChatByInviteLink isChannel =>
      ("joinChatByInviteLink", .object [(EXTRA_IS_CHANNEL, .bool isChannel), (INVITE_LINK, .bool true)])
  | .getContacts => ("getContacts", .text "contacts" "")
  | .searchContacts query => ("searchContacts", .text "contacts:" query)
  | .importContacts extra => ("importContacts", .given (.string extra))
  | .removeContacts userIds =>
      ("removeContacts", .object [(TYPE_, .string "removeContacts"), ("user_ids", .list userIds)])
  | .searchChatMessages chatId filter extra => ("searchChatMessages", .numbers chatId [filter, extra])
  | .searchChats => ("searchChats", .text "searchChats" "")
  | .searchPublicChats => ("searchPublicChats", .text "searchPublicChats" "")
  | .getInlineQueryResults extra => ("getInlineQueryResults", .given (.string extra))
  | .sendBotStartMessage extra => ("sendBotStartMessage", .given (.string extra))
  | .getUserPrivacySettingRules setting => ("getUserPrivacySettingRules", .number setting)
  | .setProfilePhoto => ("setProfilePhoto", .text "setProfilePhoto" "")
  | .setPreviousProfilePhoto => ("setProfilePhoto", .text "setPreviousProfilePhoto" "")
  | .deleteProfilePhoto profilePhotoId => ("deleteProfilePhoto", .text "deleteProfilePhoto:" profilePhotoId)
  | .changeStickerSet isInstalled =>
      ("changeStickerSet", .text (if isInstalled then "installStickerSet" else "removeStickerSet") "")
  | .terminateSession => ("terminateSession", .text "terminateSession" "")
  | .getMessageAvailableReactions chatId messageId => ("getMessageAvailableReactions", .numbers chatId [messageId])
  | .setNetworkType => ("setNetworkType", .text "setNetworkType" "")
  | .copyFileToDownloads filePath openAfterCopy =>
      ("getSuggestedFileName", .text "getSuggestedFileName:" ((if openAfterCopy then "!:" else ":") ++ filePath))
  | .getMessageProperties chatId messageId =>
      ("getMessageProperties", .object [(CHAT_ID, .longLong chatId), (MESSAGE_ID, .longLong messageId)])
  | .getCustomEmojiStickers extra => ("getCustomEmojiStickers", .given extra)
  | .translateText extra => ("translateText", .given (.string extra))
  | .translateMessageText chatId messageId languageCode =>
      ("translateMessageText", .text "msgtr" (toString chatId ++ ":" ++ toString messageId ++ languageCode))
  | .summarizeMessage chatId messageId translateToLanguageCode =>
      ("summarizeMessage",
        .text "summarizeMessage" (toString chatId ++ ":" ++ toString messageId ++ translateToLanguageCode))
  | .searchEmojis text => ("searchEmojis", .given (.string text))
  | .getChatListsToAddChat chatId => ("getChatListsToAddChat", .number chatId)
  | .getTopChats category => ("getTopChats", .text (getTopChatCategoryType category) "")
  | .removeTopChat category => ("removeTopChat", .text (getTopChatCategoryType category) "")
  | .searchRecentlyFoundChats => ("searchRecentlyFoundChats", .text "searchRecentlyFoundChats" "")
  | .addRecentlyFoundChat => ("addRecentlyFoundChat", .text EXTRA_RECENTLY_FOUND "")
  | .removeRecentlyFoundChat => ("removeRecentlyFoundChat", .text EXTRA_RECENTLY_FOUND "")
  | .getChatMessageCount chatId filter returnLocal =>
      ("getChatMessageCount",
        .text (getSearchMessagesFilterType filter) ((if returnLocal then "!" else "") ++ ":" ++ toString chatId))
  | .getForumTopics chatId => ("getForumTopics", .number chatId)
  | .getChatJoinRequests chatId => ("getChatJoinRequests", .number chatId)
  | .getInternalLinkType extra => (TYPE_GET_INTERNAL_LINK_TYPE, .given (.string extra))
  | .getExternalLinkInfo link skipConfirmation =>
      (TYPE_GET_EXTERNAL_LINK_INFO, .text "getExternalLinkInfo:" ((if skipConfirmation then "!:" else ":") ++ link))
  | .getExternalLink link => ("getExternalLink", .text "openLoginUrl:" link)
  | .getLoginUrlInfo chatId messageId buttonId fallbackUrl =>
      (TYPE_GET_LOGIN_URL_INFO, .object [(TYPE_, .string TYPE_GET_LOGIN_URL_INFO), (BUTTON_ID, .longLong buttonId),
        (CHAT_ID, .longLong chatId), (MESSAGE_ID, .longLong messageId), (URL, .string fallbackUrl)])
  | .getLoginUrl fallbackUrl => (TYPE_GET_LOGIN_URL, .text "openLoginUrl:" fallbackUrl)
  | .getLinkWebBrowserType link skipConfirmation =>
      ("getLinkWebBrowserType", .text "getLinkWebBrowserType:" ((if skipConfirmation then "!:" else ":") ++ link))
  | .checkChatInviteLink link => ("checkChatInviteLink", .given (.string link))
  | .getMessageThreadHistory chatId messageId extra =>
      ("getMessageThreadHistory", .text "thread:" (joinNumbers chatId [messageId, extra]))
  | .getForumTopicHistory chatId forumTopicId extra =>
      ("getForumTopicHistory", .text "forumTopic:" (joinNumbers chatId [forumTopicId, extra]))
  | .getForumTopic chatId forumTopicId =>
      (TYPE_GET_FORUM_TOPIC, .text "getForumTopic:" (joinNumbers chatId [forumTopicId]))
  | .getChatSimilarChats chatId => ("getChatSimilarChats", .text "getChatSimilarChats:" (toString chatId))
  | .getBotSimilarBots botUserId => ("getBotSimilarBots", .text "getBotSimilarBots:" (toString botUserId))
  | .addProxy extra => ("addProxy", .given (.string extra))
  | .enableProxy proxyId => ("enableProxy", .text "enableProxy:" (toString proxyId))
  | .disableProxy => (TYPE_DISABLE_PROXY, .text TYPE_DISABLE_PROXY "")
  | .removeProxy proxyId => ("removeProxy", .text "removeProxy:" (toString proxyId))
  | .pingProxy => ("pingProxy", .text "ping" "")
  | .pingThisProxy proxy => ("pingProxy", .given (.map proxy))
  | .getInternalLink extra => ("getInternalLink", .given (.string extra))
  | .getSavedNotificationSound notificationSoundId =>
      ("getSavedNotificationSound", .text "getSavedNotificationSound:" notificationSoundId)
  | .addSavedNotificationSound => ("addSavedNotificationSound", .text "localSaved" "")
  | .getMessageReadDate chatId messageId =>
      ("getMessageReadDate", .object [(CHAT_ID, .longLong chatId), (MESSAGE_ID, .longLong messageId)])
  | .getAndOpenSupportUser => ("getSupportUser", .flag true)
  | .getApplicationDownloadLink => ("getApplicationDownloadLink", .text "applicationDownloadLink" "")
  | .fetchOption name => ("getOption", .given (.string name))

def type (call : Call) : String := call.request.1

def extra (call : Call) : Extra := call.request.2

/-- The request gets an id, and a `TDLibResponse` waits for it. -/
def withId : Call → Bool
  | .sendRequestWithId _ => true
  | _ => false

/-- The extra that the caller hands over, if it is the whole extra. -/
def given (call : Call) : Option QVariant :=
  match call.extra with
  | .given v => some v
  | _ => none

end Call

/-! ### Errors -/

/-- The branches of the error handler. -/
inductive ErrorKind where
  | ping
  | getMessage
  | getExternalLinkInfo
  | loginUrl
  | getLinkWebBrowserType
  | getForumTopic
  | getSavedNotificationSound
  | loadChats
  | chatMessageCount
  | proxy
  | loginUrlInfo
  deriving DecidableEq

namespace ErrorKind

def all : List ErrorKind :=
  [.ping, .getMessage, .getExternalLinkInfo, .loginUrl, .getLinkWebBrowserType, .getForumTopic,
    .getSavedNotificationSound, .loadChats, .chatMessageCount, .proxy, .loginUrlInfo]

/-- The requests that a branch is there for. -/
def types : ErrorKind → List String
  | .ping => ["pingProxy"]
  | .getMessage => [TYPE_GET_MESSAGE]
  | .getExternalLinkInfo => [TYPE_GET_EXTERNAL_LINK_INFO]
  | .loginUrl => ["getExternalLink", TYPE_GET_LOGIN_URL]
  | .getLinkWebBrowserType => ["getLinkWebBrowserType"]
  | .getForumTopic => [TYPE_GET_FORUM_TOPIC]
  | .getSavedNotificationSound => ["getSavedNotificationSound"]
  | .loadChats => [TYPE_LOAD_CHATS]
  | .chatMessageCount => ["getChatMessageCount"]
  | .proxy => ["pingProxy"]
  | .loginUrlInfo => [TYPE_GET_LOGIN_URL_INFO]

end ErrorKind

/-- `^(searchMessagesFilter[a-zA-Z]+)(!?):(-?[0-9]*)$`; the end of the text may be a line break. -/
def matchesChatMessageCount (extra : String) : Bool :=
  let text := extra.toList
  match (if text.getLast? = some '\n' then text.dropLast else text).splitOn ':' with
  | [filterType, chatId] =>
      let name := if filterType.getLast? = some '!' then filterType.dropLast else filterType
      let letters := name.drop "searchMessagesFilter".length
      let digits := if chatId.head? = some '-' then chatId.tail else chatId
      "searchMessagesFilter".toList.isPrefixOf name && !letters.isEmpty && letters.all Char.isAlpha &&
        digits.all Char.isDigit
  | _ => false

/-- The branch of `handleErrorReceived` that an error takes; without one it only goes on as a signal. -/
def errorKind (code : Int) (extra : QVariant) : Option ErrorKind :=
  match extra with
  | .string extraString =>
      if extraString = "" then none
      else if extraString = "ping" then some .ping
      else
        let parts := splitExtra extraString
        if parts.length = 3 ∧ part parts 0 = "getMessage" then some .getMessage
        else if 3 ≤ parts.length ∧ part parts 0 = TYPE_GET_EXTERNAL_LINK_INFO then some .getExternalLinkInfo
        else if 2 ≤ parts.length ∧ part parts 0 = EXTRA_LOGIN_URL then some .loginUrl
        -- this branch goes on to read a fourth part, which need not be there
        else if 3 ≤ parts.length ∧ part parts 0 = "getLinkWebBrowserType" then some .getLinkWebBrowserType
        else if parts.length = 3 ∧ part parts 0 = TYPE_GET_FORUM_TOPIC then some .getForumTopic
        else if parts.length = 2 ∧ part parts 0 = "getSavedNotificationSound" then some .getSavedNotificationSound
        else if code = 404 ∧ parts.length = 2 ∧
            (part parts 0 = TYPE_LOAD_CHATS ∨ part parts 0 = EXTRA_LOAD_CHATS_FOR_FOLDER) then some .loadChats
        else if matchesChatMessageCount extraString then some .chatMessageCount
        else none
  | .map map =>
      let type := (QVariantMap.value map TYPE_).toStr
      if type = PROXY then some .proxy else if type = TYPE_GET_LOGIN_URL_INFO then some .loginUrlInfo else none
  | _ => none

/-- The extras of a kind of errors. -/
def ErrorKind.Recognises (kind : ErrorKind) : QVariant → Prop
  | .string text =>
      match kind with
      | .ping => text = "ping"
      | .getMessage => ∃ a b, splitExtra text = ["getMessage", a, b]
      | .getExternalLinkInfo => ∃ a b rest, splitExtra text = TYPE_GET_EXTERNAL_LINK_INFO :: a :: b :: rest
      | .loginUrl => ∃ a rest, splitExtra text = EXTRA_LOGIN_URL :: a :: rest
      | .getLinkWebBrowserType => ∃ a b rest, splitExtra text = "getLinkWebBrowserType" :: a :: b :: rest
      | .getForumTopic => ∃ a b, splitExtra text = [TYPE_GET_FORUM_TOPIC, a, b]
      | .getSavedNotificationSound => ∃ a, splitExtra text = ["getSavedNotificationSound", a]
      | .loadChats => ∃ a, splitExtra text = [TYPE_LOAD_CHATS, a] ∨ splitExtra text = [EXTRA_LOAD_CHATS_FOR_FOLDER, a]
      | .chatMessageCount => matchesChatMessageCount text = true
      | .proxy | .loginUrlInfo => False
  | .map map =>
      match kind with
      | .proxy => (QVariantMap.value map TYPE_).toStr = PROXY
      | .loginUrlInfo => (QVariantMap.value map TYPE_).toStr = TYPE_GET_LOGIN_URL_INFO
      | _ => False
  | _ => False

end TDLibWrapper

end YaqtLib
