import YaqtLib.AccountData

/-! The own user is kept twice in the store (`tdlibdata.cpp`): among the users, and as the user information without an
id. In every state of a run the two are the same. -/

namespace YaqtLib

namespace Account

open Containers Runs TdConst

namespace TDLibData

def myUserId (d : TDLibData) : Int := d.myId

/-- `getUserInformation()`, the getter without an id. -/
def getMyUserInformation (d : TDLibData) : QVariantMap := d.userInformation

/-- The two copies of the own user are the same. -/
def OwnUserAgrees (d : TDLibData) : Prop := d.getMyUserInformation = d.getUserInformation d.myUserId

variable {d d' : TDLibData}

theorem OwnUserAgrees.of_eq (h : d.OwnUserAgrees) (hid : d'.myId = d.myId)
    (hinformation : d'.userInformation = d.userInformation) (husers : d'.usersById = d.usersById) :
    d'.OwnUserAgrees := by
  rw [OwnUserAgrees, getMyUserInformation, getUserInformation, myUserId, hid, hinformation, husers]
  exact h

theorem updateChat_ownUserAgrees (h : d.OwnUserAgrees) (chatId : Int)
    (f : ChatData → ChatData × List ChatData.Role) : (d.updateChat chatId f).1.OwnUserAgrees := by
  rw [updateChat]
  cases d.chats.value chatId with
  | none => exact h
  | some chat => exact h.of_eq rfl rfl rfl

theorem handleOptionUpdated_ownUserAgrees (h : d.OwnUserAgrees) (optionName : String) (optionValue : QVariant) :
    (d.handleOptionUpdated optionName optionValue).OwnUserAgrees := by
  unfold handleOptionUpdated
  dsimp only
  split_ifs
  · rfl
  · exact h.of_eq rfl rfl rfl

theorem getUserInformation_updateUserInformation (d : TDLibData) (userId : Int) (information : QVariantMap)
    (k : Int) : (d.updateUserInformation userId information).getUserInformation k =
      if k = userId then information else d.getUserInformation k := by
  rw [getUserInformation, updateUserInformation, QHash.value_insert]
  split_ifs <;> rfl

theorem handleUserUpdated_ownUserAgrees (h : d.OwnUserAgrees) (user : QVariantMap) :
    (d.handleUserUpdated user).OwnUserAgrees := by
  rw [handleUserUpdated, OwnUserAgrees, getUserInformation_updateUserInformation]
  by_cases hme : (user.value ID).toLongLong = d.myId
  · rw [if_pos hme]
    exact (if_pos hme.symm).symm
  · rw [if_neg hme]
    exact h.trans (if_neg fun heq => hme heq.symm).symm

/-- The status of another user does not concern the own one. -/
theorem storeUserStatus_ownUserAgrees (h : d.OwnUserAgrees) {userId : Int} (hother : userId ≠ d.myId)
    (status : QVariantMap) : (d.storeUserStatus userId status).OwnUserAgrees := by
  rw [storeUserStatus]
  dsimp only
  split_ifs
  · exact h
  · have hupdated : (d.updateUserInformation userId
        ((d.getUserInformation userId).insert STATUS (.map status))).OwnUserAgrees := by
      rw [OwnUserAgrees, getUserInformation_updateUserInformation, if_neg fun heq => hother heq.symm]
      exact h
    split
    · exact hupdated
    · exact hupdated.of_eq rfl rfl rfl

/-- A status that is there already is written to the copy again, which changes nothing. -/
theorem handleUserStatusUpdated_ownUserAgrees (h : d.OwnUserAgrees) (userId : Int) (status : QVariantMap) :
    (d.handleUserStatusUpdated userId status).OwnUserAgrees := by
  rw [handleUserStatusUpdated]
  by_cases hme : userId = d.myId
  swap
  · rw [if_neg hme]
    exact storeUserStatus_ownUserAgrees h hme status
  · subst hme
    have hcopy : d.userInformation = d.getUserInformation d.myId := h
    rw [if_pos rfl, storeUserStatus]
    dsimp only
    have huser : ({ d with userInformation := d.userInformation.insert STATUS (.map status) } :
        TDLibData).getUserInformation d.myId = d.getUserInformation d.myId := rfl
    rw [huser]
    split_ifs with hsame
    · have hkept : d.userInformation.insert STATUS (.map status) = d.userInformation :=
        QVariantMap.insert_of_value (hcopy ▸ hsame) (by rintro ⟨⟩)
      exact h.of_eq rfl hkept rfl
    · have hupdated : (updateUserInformation { d with userInformation := d.userInformation.insert STATUS (.map status) }
          d.myId ((d.getUserInformation d.myId).insert STATUS (.map status))).OwnUserAgrees := by
        rw [OwnUserAgrees, getUserInformation_updateUserInformation]
        refine (congrArg (fun information : QVariantMap => information.insert STATUS (.map status)) hcopy).trans ?_
        exact (if_pos rfl).symm
      split
      · exact hupdated
      · exact hupdated.of_eq rfl rfl rfl

/-- **Step lemma.** -/
theorem step_ownUserAgrees (texts : ChatData.Texts) (d : TDLibData) (e : Event) (h : d.OwnUserAgrees) :
    (step texts d e).OwnUserAgrees := by
  cases e with
  | reset => rfl
  | optionUpdated optionName optionValue => exact handleOptionUpdated_ownUserAgrees h optionName optionValue
  | userUpdated user => exact handleUserUpdated_ownUserAgrees h user
  | userStatusUpdated userId status => exact handleUserStatusUpdated_ownUserAgrees h userId status
  | userPrivacySettingRulesUpdated updatedRules =>
      rw [step, handle, handleUpdatedUserPrivacySettingRules]
      cases userPrivacySettingOf ((updatedRules.value "setting").toMap.value TYPE_).toStr with
      | none => exact h
      | some usedSetting => exact h.of_eq rfl rfl rfl
  | chatActionUpdated chatId topicId sender action =>
      by_cases htopic : topicId.isEmpty = true
      · rw [step, handle, handleChatActionUpdated, if_pos htopic]
        exact updateChat_ownUserAgrees h chatId _
      · rw [step, handle, handleChatActionUpdated, if_neg htopic]
        exact h
  | activeEmojiReactionsUpdated emojis =>
      rw [step, handle, handleActiveEmojiReactionsUpdated]
      split_ifs
      · exact h.of_eq rfl rfl rfl
      · exact h
  | diceEmojisUpdated emojis =>
      rw [step, handle, handleDiceEmojisUpdated]
      split_ifs
      · exact h.of_eq rfl rfl rfl
      · exact h
  | scopeNotificationSettingsUpdated scopeType settings =>
      rw [step, handle, handleScopeNotificationSettingsUpdated]
      cases scopeOf scopeType with
      | none => exact h
      | some scope => exact h.of_eq rfl rfl rfl
  | chatLastMessageUpdated | chatDraftMessageUpdated | chatReadInboxUpdated | chatReadOutboxUpdated | chatTitleUpdated
  | chatPhotoUpdated | chatNotificationSettingsUpdated | chatIsMarkedAsUnreadUpdated | chatUnreadMentionCountUpdated
  | chatUnreadReactionCountUpdated | chatUnreadPollVoteCountUpdated | chatPermissionsUpdated
  | chatAvailableReactionsUpdated | chatPendingJoinRequestsUpdated | chatViewAsTopicsUpdated
  | chatAccentColorsUpdated => exact updateChat_ownUserAgrees h _ _
  | userPrivacySettingRules | newChatDiscovered | basicGroupUpdated | supergroupUpdated | secretChatUpdated
  | communityUpdated | ownedStarCountUpdated | ownedGramCountUpdated | stakeDiceStateUpdated
  | defaultReactionTypeUpdated | accentColorsUpdated => exact h.of_eq rfl rfl rfl

/-- **The own user has one truth.** In every state the store reaches, whatever it is told, the getter without an id
and the one with the own id agree. -/
theorem ownUserAgrees_run (texts : ChatData.Texts) (memory : Uninitialised) (es : List Event) :
    (run (step texts) (new memory) es).OwnUserAgrees := by
  have hnew : (new memory).OwnUserAgrees := rfl
  exact Along.invariant (I := OwnUserAgrees) (fun d e h _ => step_ownUserAgrees texts d e h) hnew (along_true _ es)

/-- A status of the own user, first of an unknown one, then twice the same. -/
example (texts : ChatData.Texts) (memory : Uninitialised) :
    (run (step texts) (new memory) [.optionUpdated "my_id" (.longLong 5), .userStatusUpdated 5 [],
      .userStatusUpdated 5 []]).getMyUserInformation = [(STATUS, .map [])] := rfl

end TDLibData

end Account

end YaqtLib
