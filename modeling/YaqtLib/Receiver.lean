import YaqtLib.QVariant

/-! How `TDLibReceiver` distributes the objects that come from TDLib: an object whose `@extra` is a request id goes
to the waiter of that request, any other one to the handler of its type. -/

namespace YaqtLib

open TdConst

namespace TdConst

abbrev CLIENT_ID : String := "@client_id"

end TdConst

/-! ### Numbers written as text -/

theorem isDigit_of_mem_toDigits {n : Nat} : ∀ c ∈ Nat.toDigits 10 n, c.isDigit = true :=
  fun _ hc => Nat.isDigit_of_mem_toDigits (by decide) (by decide) hc

theorem digitsToNat_eq {cs : List Char} (h : ∀ c ∈ cs, c.isDigit = true) (n : Nat) :
    digitsToNat cs n = some (Nat.ofDigitChars 10 cs n) := by
  induction cs generalizing n with
  | nil => rw [digitsToNat, Nat.ofDigitChars_nil]
  | cons c cs ih =>
      obtain ⟨hc, hcs⟩ := List.forall_mem_cons.mp h
      have hbounds : '0'.toNat ≤ c.toNat ∧ c.toNat ≤ '9'.toNat := by
        simpa [Char.isDigit, UInt32.le_iff_toNat_le] using hc
      rw [digitsToNat, if_pos hbounds, ih hcs, Nat.ofDigitChars_cons]

theorem ne_sign_of_isDigit {c : Char} (h : c.isDigit = true) : c ≠ '-' ∧ c ≠ '+' := by
  constructor
  · rintro rfl
    exact absurd h (by decide)
  · rintro rfl
    exact absurd h (by decide)

/-- A text of digits reads as their number, if it fits. -/
theorem stringToLongLong_ofList {cs : List Char} (hne : cs ≠ []) (h : ∀ c ∈ cs, c.isDigit = true) :
    stringToLongLong (String.ofList cs) =
      if Nat.ofDigitChars 10 cs 0 < 2 ^ 63 then (Nat.ofDigitChars 10 cs 0 : Int) else 0 := by
  obtain ⟨c, rest, rfl⟩ := List.exists_cons_of_ne_nil hne
  obtain ⟨hminus, hplus⟩ := ne_sign_of_isDigit (h c List.mem_cons_self)
  unfold stringToLongLong
  rw [String.toList_ofList]
  split
  · rename_i heq
    exact absurd (List.cons.inj heq).1 hminus
  · rename_i heq
    exact absurd (List.cons.inj heq).1 hplus
  · rename_i c' cs' _ _ heq
    rw [← heq, digitsToNat_eq h, Option.getD_some]
    dsimp only
    split_ifs <;> omega
  · rename_i heq
    exact absurd heq (by simp)

namespace TDLibReceiver

/-- The digits that `^R(\d+)$` captures; the end of the text may be a line break. -/
def requestIdMatch (objectExtra : String) : Option (List Char) :=
  match objectExtra.toList with
  | 'R' :: rest =>
      let digits := if rest.getLast? = some '\n' then rest.dropLast else rest
      if !digits.isEmpty && digits.all Char.isDigit then some digits else none
  | _ => none

theorem requestIdMatch_empty : requestIdMatch "" = none := rfl

/-- A request id is matched by its own digits. -/
theorem requestIdMatch_toString (n : Nat) : requestIdMatch ("R" ++ toString n) = some (Nat.toDigits 10 n) := by
  have hchars : ("R" ++ toString n).toList = 'R' :: Nat.toDigits 10 n := by
    simp
  have hlast : (Nat.toDigits 10 n).getLast? ≠ some '\n' := by
    intro hlast
    exact absurd (isDigit_of_mem_toDigits _ (List.mem_of_getLast? hlast)) (by decide)
  have hempty : (Nat.toDigits 10 n).isEmpty = false := List.isEmpty_eq_false_iff.mpr Nat.toDigits_ne_nil
  have hall : (Nat.toDigits 10 n).all Char.isDigit = true := List.all_eq_true.mpr isDigit_of_mem_toDigits
  unfold requestIdMatch
  rw [hchars]
  simp only [hlast, if_false, hempty, hall, Bool.not_false, Bool.and_self, if_true]

theorem stringToLongLong_toDigits {n : Nat} (h : n < 2 ^ 63) :
    stringToLongLong (String.ofList (Nat.toDigits 10 n)) = n := by
  rw [stringToLongLong_ofList Nat.toDigits_ne_nil isDigit_of_mem_toDigits, Nat.ofDigitChars_ten_toDigits, if_pos h]

/-- The types with a handler of their own. -/
def handlers : List String :=
  ["updateOption", "updateAuthorizationState", "updateConnectionState", "updateUser", "updateUserStatus",
    "updateFile", "file", "updateNewChat", "updateChatAddedToList", "updateChatRemovedFromList",
    "updateUnreadMessageCount", "updateUnreadChatCount", "updateChatLastMessage", "updateChatPosition",
    "updateChatReadInbox", "updateChatReadOutbox", "updateChatAvailableReactions", "updateBasicGroup",
    "updateSupergroup", "updateChatOnlineMemberCount", "messages", "foundChatMessages", "sponsoredMessages",
    "updateNewMessage", "message", "messageLinkInfo", "updateMessageSendSucceeded",
    "updateActiveNotifications", "updateNotificationGroup", "updateNotification",
    "updateChatNotificationSettings", "updateMessageContent", "updateDeleteMessages", "chats", "chat",
    "updateRecentStickers", "updateFavoriteStickers", "stickers", "sticker", "updateInstalledStickerSets",
    "stickerSets", "stickerSet", "chatMembers", "userFullInfo", "updateUserFullInfo", "basicGroupFullInfo",
    "updateBasicGroupFullInfo", "supergroupFullInfo", "updateSupergroupFullInfo", "chatPhotos",
    "updateChatPermissions", "updateChatPhoto", "updateChatTitle", "updateMessageIsPinned", "users",
    "messageSenders", "error", "ok", "updateServiceNotification", "updateSecretChat", "importedContacts",
    "updateMessageEdited", "updateChatIsMarkedAsUnread", "updateChatDraftMessage", "inlineQueryResults",
    "callbackQueryAnswer", "userPrivacySettingRules", "updateUserPrivacySettingRules",
    "updateMessageInteractionInfo", "sessions", "availableReactions", "updateChatUnreadMentionCount",
    "updateMessageMentionRead", "updateChatUnreadReactionCount", "updateActiveEmojiReactions",
    "messageProperties", "storageStatisticsFast", "storageStatistics", "formattedText", "updateChatAction",
    "emojiKeywords", "updateDiceEmojis", "updateSuggestedActions", "count", "chatLists",
    "archiveChatListSettings", "updateChatFolders", "forumTopics", "updateForumTopic", "updateForumTopicInfo",
    "updateChatPendingJoinRequests", "chatJoinRequests", "deepLinkInfo", "user", "chatInviteLinkInfo",
    "updateChatViewAsTopics", "forumTopic", "updateMessageSuggestedPostInfo", "updateMessageContentOpened",
    "updateMessageFactCheck", "updateStickerSet", "pollVoters", "seconds", "addedProxies", "addedProxy",
    "updateScopeNotificationSettings", "scopeNotificationSettings", "notificationSound", "notificationSounds",
    "updateSavedNotificationSounds", "updateDefaultReactionType", "text", "callId", "updateCall",
    "updateNewCallSignalingData", "updateChatJoinResult", "httpUrl", "updateMessageUnreadReactions",
    "updateChatUnreadPollVoteCount", "updateMessageContainsUnreadPollVotes", "updateAccentColors",
    "updateChatAccentColors", "sponsoredChats", "updateMessageEphemeralContent", "updateCommunity",
    "communityFullInfo", "updateCommunityFullInfo", "communityId", "updateOwnedStarCount",
    "updateOwnedGramCount", "updateStakeDiceState", "stakeDiceState", "userLink",
    "updateWebProxyCarrierOpened", "updateWebProxyCarrierData", "updateWebProxyCarrierClosed",
    "updateAnimatedEmojiMessageClicked", "loginUrlInfoOpen", "loginUrlInfoRequestConfirmation"]

/-- The types that stand for all types whose names they begin, in the order of the map. -/
def abstractHandlers : List String :=
  ["chatJoinResult", "internalLinkType", "messageReadDate", "optionValue", "webBrowserType"]

/-- The handler of a type, under the key it has in the tables. -/
def handlerOf (objectTypeName : String) : Option String :=
  if objectTypeName ∈ handlers then some objectTypeName
  else abstractHandlers.find? fun key => key.toList.isPrefixOf objectTypeName.toList

theorem handlerOf_eq_some {objectTypeName key : String} (h : handlerOf objectTypeName = some key) :
    key = objectTypeName ∨ key ∈ abstractHandlers := by
  rw [handlerOf] at h
  split_ifs at h
  · exact .inl (Option.some.inj h).symm
  · exact .inr (List.mem_of_find?_eq_some h)

/-- Where a received object goes. -/
inductive Route where
  | ignored
  | response (requestId : Int)
  | handler (key : String)
  | unhandled
  deriving DecidableEq

/-- `processReceivedDocument` up to the call of the handler. -/
def route (clientId : Int) (data : QVariantMap) : Route :=
  if (data.value CLIENT_ID).toInt ≠ clientId then .ignored
  else
    match requestIdMatch (data.value EXTRA_).toStr with
    | some digits => .response (stringToLongLong (String.ofList digits))
    | none =>
        match handlerOf (data.value TYPE_).toStr with
        | some key => .handler key
        | none => .unhandled

end TDLibReceiver

end YaqtLib
