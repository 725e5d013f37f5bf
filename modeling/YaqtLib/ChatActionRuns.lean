import YaqtLib.AccountData
import YaqtLib.ChatActionOrder
import YaqtLib.HashListings

/-! The actions that the store of an account keeps for its chats (`tdlibdata.cpp`), and the summary that a chat gives
of them (`chatdata.cpp`). -/

namespace YaqtLib

namespace Account

open Containers Runs TdConst

namespace ChatData

def isPrivateOrSecretChat (chat : ChatData) : Bool := chat.chatType = .private_ || chat.chatType = .secret

/-- The actions in the order of `chatActions.values()`. -/
def getMainChatActionType (chat : ChatData) (values : List ChatAction) : ChatActionType :=
  (Utilities.getMainChatAction chat.isPrivateOrSecretChat values).type

def getChatActionsProgress (chat : ChatData) (values : List ChatAction) : Rat :=
  Utilities.getChatActionsProgress chat.isPrivateOrSecretChat values

/-- What a chat holds are uploads with a percentage and actions without progress, and they can be listed. -/
def ActionsStored (chat : ChatData) : Prop :=
  (∃ entries, chat.chatActions.ListedBy entries) ∧ ∀ k action, chat.chatActions.value k = some action → action.Stored

theorem ActionsStored.of_eq {chat chat' : ChatData} (h : chat.ActionsStored)
    (heq : chat'.chatActions = chat.chatActions) : chat'.ActionsStored := by
  rw [ActionsStored, heq]
  exact h

theorem actionsStored_of_empty {chat : ChatData} (h : chat.chatActions = QHash.empty) : chat.ActionsStored := by
  rw [ActionsStored, h]
  exact ⟨⟨[], QHash.listedBy_empty⟩, by simp⟩

/-! ### What leaves the actions as they are -/

theorem updateUserStatus_chatActions (chat : ChatData) (status : QVariantMap) :
    (chat.updateUserStatus status).chatActions = chat.chatActions := by
  rw [updateUserStatus]
  split_ifs <;> rfl

theorem updateGroup_chatActions (chat : ChatData) (group : Group) :
    (chat.updateGroup group).chatActions = chat.chatActions := by
  rw [updateGroup]
  split_ifs <;> rfl

theorem updateIfChanged_chatActions (chat : ChatData) (field : String) (changed : Prop) [Decidable changed]
    (v : QVariant) (role : Role) : (chat.updateIfChanged field changed v role).1.chatActions = chat.chatActions := by
  rw [updateIfChanged]
  split_ifs <;> rfl

theorem updateAccentColors_chatActions (chat : ChatData) (accentColorId : Int) (backgroundCustomEmojiId : String)
    (upgradedGiftColors : QVariantMap) (profileAccentColorId : Int) (profileBackgroundCustomEmojiId : String) :
    (chat.updateAccentColors accentColorId backgroundCustomEmojiId upgradedGiftColors profileAccentColorId
      profileBackgroundCustomEmojiId).1.chatActions = chat.chatActions := by
  simp only [updateAccentColors, updateIfChanged_chatActions]

end ChatData

/-- The progress that an action is reported with is a percentage. -/
def Event.InPercent : Event → Prop
  | .chatActionUpdated _ _ _ action => 0 ≤ (action.value "progress").toInt ∧ (action.value "progress").toInt ≤ 100
  | _ => True

namespace TDLibData

def ActionsStored (d : TDLibData) : Prop := ∀ chatId chat, d.chats.value chatId = some chat → chat.ActionsStored

variable {d d' : TDLibData}

theorem ActionsStored.of_eq (h : d.ActionsStored) (heq : d'.chats = d.chats) : d'.ActionsStored := by
  rw [ActionsStored, heq]
  exact h

/-- One chat is written. -/
theorem ActionsStored.insert (h : d.ActionsStored) {chatId : Int} {chat : ChatData} (hchat : chat.ActionsStored)
    (heq : d'.chats = d.chats.insert chatId chat) : d'.ActionsStored := by
  intro chatId' chat' hchat'
  rw [heq, QHash.value_insert] at hchat'
  split_ifs at hchat'
  · obtain rfl := Option.some.inj hchat'
    exact hchat
  · exact h chatId' chat' hchat'

theorem updateChat_actionsStored (h : d.ActionsStored) {chatId : Int}
    {f : ChatData → ChatData × List ChatData.Role} (hf : ∀ chat, chat.ActionsStored → (f chat).1.ActionsStored) :
    (d.updateChat chatId f).1.ActionsStored := by
  rw [updateChat]
  cases hchat : d.chats.value chatId with
  | none => exact h
  | some chat => exact h.insert (hf chat (h chatId chat hchat)) rfl

/-- A chat is written without its actions. -/
theorem updateChat_actionsStored_of_eq (h : d.ActionsStored) {chatId : Int}
    {f : ChatData → ChatData × List ChatData.Role} (hf : ∀ chat, (f chat).1.chatActions = chat.chatActions) :
    (d.updateChat chatId f).1.ActionsStored :=
  updateChat_actionsStored h fun chat hchat => hchat.of_eq (hf chat)

theorem storeUserStatus_actionsStored (h : d.ActionsStored) (userId : Int) (status : QVariantMap) :
    (d.storeUserStatus userId status).ActionsStored := by
  rw [storeUserStatus]
  dsimp only
  split_ifs
  · exact h
  · split
    · exact h
    · rename_i chat hchat
      exact h.insert ((h userId chat hchat).of_eq (chat.updateUserStatus_chatActions status)) rfl

theorem newChatData_chatActions (d : TDLibData) (data : QVariantMap) :
    (d.newChatData data).chatActions = QHash.empty := by
  unfold newChatData
  dsimp only
  split
  · split_ifs
    · exact ChatData.updateUserStatus_chatActions _ _
    · rfl
  · rw [ChatData.updateGroup_chatActions]
    split_ifs
    · exact ChatData.updateUserStatus_chatActions _ _
    · rfl

theorem updateGroupChats_actionsStored (h : d.ActionsStored) {group : Group}
    (heq : d'.chats = updateGroupChats d.chats group) : d'.ActionsStored := by
  intro chatId chat hchat
  rw [heq] at hchat
  obtain ⟨chat', hchat', rfl⟩ := Option.map_eq_some_iff.mp hchat
  exact (h chatId chat' hchat').of_eq (chat'.updateGroup_chatActions group)

theorem handleChatActionUpdated_actionsStored (h : d.ActionsStored) (chatId : Int)
    (topicId sender : QVariantMap) {action : QVariantMap} (hlower : 0 ≤ (action.value "progress").toInt)
    (hupper : (action.value "progress").toInt ≤ 100) :
    (d.handleChatActionUpdated chatId topicId sender action).ActionsStored := by
  rw [handleChatActionUpdated]
  by_cases htopic : topicId.isEmpty = true
  swap
  · rw [if_neg htopic]
    exact h
  · rw [if_pos htopic]
    refine updateChat_actionsStored h ?_
    rintro chat ⟨⟨entries, hentries⟩, hstored⟩
    by_cases hcancel : (action.value TYPE_).toStr = "chatActionCancel"
    · rw [if_pos hcancel]
      refine ⟨⟨_, hentries.remove (.of sender)⟩, fun k action' hvalue => ?_⟩
      rw [QHash.value_remove] at hvalue
      split_ifs at hvalue
      exact hstored k action' hvalue
    · rw [if_neg hcancel]
      refine ⟨⟨_, hentries.insert (.of sender) (.of action)⟩, fun k action' hvalue => ?_⟩
      rw [QHash.value_insert] at hvalue
      split_ifs at hvalue
      · obtain rfl := Option.some.inj hvalue
        exact ChatAction.of_stored hlower hupper
      · exact hstored k action' hvalue

/-- **Step lemma.** -/
theorem step_actionsStored (texts : ChatData.Texts) (d : TDLibData) (e : Event) (h : d.ActionsStored)
    (he : e.InPercent) : (step texts d e).ActionsStored := by
  cases e with
  | reset =>
      intro chatId chat hchat
      cases hchat
  | optionUpdated optionName optionValue =>
      refine h.of_eq ?_
      rw [step, handle, handleOptionUpdated]
      split_ifs <;> rfl
  | userStatusUpdated userId status =>
      rw [step, handle, handleUserStatusUpdated]
      refine storeUserStatus_actionsStored (h.of_eq ?_) userId status
      split_ifs <;> rfl
  | userUpdated user =>
      refine h.of_eq ?_
      rw [step, handle, handleUserUpdated]
      split_ifs <;> rfl
  | userPrivacySettingRulesUpdated updatedRules =>
      refine h.of_eq ?_
      rw [step, handle, handleUpdatedUserPrivacySettingRules]
      split <;> rfl
  | newChatDiscovered chatInformation =>
      exact h.insert (ChatData.actionsStored_of_empty (d.newChatData_chatActions chatInformation)) rfl
  | chatActionUpdated chatId topicId sender action =>
      exact handleChatActionUpdated_actionsStored h chatId topicId sender he.1 he.2
  | basicGroupUpdated groupId groupInformation => exact updateGroupChats_actionsStored h rfl
  | supergroupUpdated groupId groupInformation => exact updateGroupChats_actionsStored h rfl
  | activeEmojiReactionsUpdated emojis =>
      refine h.of_eq ?_
      rw [step, handle, handleActiveEmojiReactionsUpdated]
      split_ifs <;> rfl
  | diceEmojisUpdated emojis =>
      refine h.of_eq ?_
      rw [step, handle, handleDiceEmojisUpdated]
      split_ifs <;> rfl
  | scopeNotificationSettingsUpdated scopeType settings =>
      refine h.of_eq ?_
      rw [step, handle, handleScopeNotificationSettingsUpdated]
      split <;> rfl
  | chatUnreadMentionCountUpdated | chatUnreadReactionCountUpdated | chatUnreadPollVoteCountUpdated =>
      exact updateChat_actionsStored_of_eq h fun chat => chat.updateIfChanged_chatActions _ _ _ _
  | chatAccentColorsUpdated =>
      exact updateChat_actionsStored_of_eq h fun chat => chat.updateAccentColors_chatActions _ _ _ _ _
  | chatLastMessageUpdated | chatDraftMessageUpdated | chatReadInboxUpdated | chatReadOutboxUpdated | chatTitleUpdated
  | chatPhotoUpdated | chatNotificationSettingsUpdated | chatIsMarkedAsUnreadUpdated | chatPermissionsUpdated
  | chatAvailableReactionsUpdated | chatPendingJoinRequestsUpdated | chatViewAsTopicsUpdated =>
      exact updateChat_actionsStored_of_eq h fun _ => rfl
  | userPrivacySettingRules | secretChatUpdated | communityUpdated | ownedStarCountUpdated | ownedGramCountUpdated
  | stakeDiceStateUpdated | defaultReactionTypeUpdated | accentColorsUpdated => exact h.of_eq rfl

theorem actionsStored_run (texts : ChatData.Texts) (memory : Uninitialised) {es : List Event}
    (hes : ∀ e ∈ es, e.InPercent) : (run (step texts) (new memory) es).ActionsStored := by
  refine Along.invariant (I := ActionsStored) (fun d e h he => step_actionsStored texts d e h he) ?_
    (along_of_forall hes (new memory))
  intro chatId chat hchat
  cases hchat

end TDLibData

namespace ChatData

/-- However the actions of the chat are listed, they have one summary. -/
def ActionsSummarised (chat : ChatData) : Prop :=
  ∀ entries, chat.chatActions.ListedBy entries →
    Utilities.Summarised chat.isPrivateOrSecretChat (entries.map Prod.snd)

/-- A single action has no progress above zero; in a private chat all senders act alike, with one percent at most; in a
group an unknown action is beside no known one or beside two that differ. -/
structure ActionsSummarisable (chat : ChatData) : Prop where
  single : ∀ k action, chat.chatActions.value k = some action →
    (∀ k', chat.chatActions.contains k' = true → k' = k) → action.progress ≤ 0
  alike : chat.isPrivateOrSecretChat = true → ∀ a b, chat.chatActions.Holds a → chat.chatActions.Holds b →
    a.type = b.type ∧ a.progress = b.progress ∧ a.progress ≤ 1
  unmixed : chat.isPrivateOrSecretChat = false → ∀ a b, chat.chatActions.Holds a → chat.chatActions.Holds b →
    a.isInvalid = true → b.isInvalid = false →
    ∃ c d, chat.chatActions.Holds c ∧ chat.chatActions.Holds d ∧ c.isInvalid = false ∧ d.isInvalid = false ∧
      c.eq d = false

variable {chat : ChatData} {entries : List (MessageSender × ChatAction)}

theorem singleUnstarted_iff (h : chat.chatActions.ListedBy entries) :
    Utilities.SingleUnstarted (entries.map Prod.snd) ↔ ∀ k action, chat.chatActions.value k = some action →
      (∀ k', chat.chatActions.contains k' = true → k' = k) → action.progress ≤ 0 := by
  constructor
  · intro hsingle k action hvalue honly
    refine hsingle action ?_
    have hkeys : entries.map Prod.fst = [k] := by
      refine List.perm_singleton.mp ((List.perm_ext_iff_of_nodup h.1 (List.nodup_singleton k)).mpr fun k' => ?_)
      rw [List.mem_map, List.mem_singleton]
      constructor
      · rintro ⟨⟨k'', v⟩, hmem, rfl⟩
        exact honly k'' ((QHash.contains_iff _ _).mpr ⟨v, (h.2 k'' v).mp hmem⟩)
      · rintro rfl
        exact ⟨(k', action), (h.2 k' action).mpr hvalue, rfl⟩
    have hlength := (List.length_map Prod.fst).symm.trans (congrArg List.length hkeys)
    obtain ⟨⟨k', v⟩, rfl⟩ := List.length_eq_one_iff.mp hlength
    obtain ⟨rfl, rfl⟩ := Prod.mk.inj (List.mem_singleton.mp ((h.2 k action).mpr hvalue))
    rfl
  · intro hsingle action hvalues
    obtain ⟨⟨k, v⟩, rfl⟩ := List.length_eq_one_iff.mp
      ((List.length_map Prod.snd).symm.trans (congrArg List.length hvalues))
    obtain rfl : v = action := List.singleton_inj.mp hvalues
    refine hsingle k v ((h.2 k v).mp List.mem_cons_self) fun k' hcontains => ?_
    obtain ⟨v', hv'⟩ := (QHash.contains_iff _ _).mp hcontains
    exact (Prod.mk.inj (List.mem_singleton.mp ((h.2 k' v').mpr hv'))).1

theorem alikeAndUnstarted_iff (h : chat.chatActions.ListedBy entries) :
    Utilities.AlikeAndUnstarted (entries.map Prod.snd) ↔ ∀ a b, chat.chatActions.Holds a → chat.chatActions.Holds b →
      a.type = b.type ∧ a.progress = b.progress ∧ a.progress ≤ 1 := by
  simp only [Utilities.AlikeAndUnstarted, h.mem_values]
  exact ⟨fun halike a b ha hb => halike a ha b hb, fun halike a ha b hb => halike a b ha hb⟩

theorem not_mixedWithUnknown_iff (h : chat.chatActions.ListedBy entries) :
    ¬ Utilities.MixedWithUnknown (entries.map Prod.snd) ↔
      ∀ a b, chat.chatActions.Holds a → chat.chatActions.Holds b → a.isInvalid = true → b.isInvalid = false →
        ∃ c d, chat.chatActions.Holds c ∧ chat.chatActions.Holds d ∧ c.isInvalid = false ∧ d.isInvalid = false ∧
          c.eq d = false := by
  simp only [Utilities.MixedWithUnknown, h.mem_values]
  constructor
  · intro hmixed a b ha hb hunknown hvalid
    by_contra! hall
    refine hmixed ⟨⟨a, ha, hunknown⟩, ⟨b, hb, hvalid⟩, fun c hc d hd hc' hd' => ?_⟩
    simpa using hall c d hc hd hc' hd'
  · rintro hdiffer ⟨⟨a, ha, hunknown⟩, ⟨b, hb, hvalid⟩, hall⟩
    obtain ⟨c, d, hc, hd, hc', hd', hne⟩ := hdiffer a b ha hb hunknown hvalid
    rw [hall c hc d hd hc' hd'] at hne
    cases hne

theorem summarisable_iff (h : chat.chatActions.ListedBy entries) :
    Utilities.Summarisable chat.isPrivateOrSecretChat (entries.map Prod.snd) ↔ chat.ActionsSummarisable := by
  rw [Utilities.Summarisable, singleUnstarted_iff h, alikeAndUnstarted_iff h, not_mixedWithUnknown_iff h]
  cases hkind : chat.isPrivateOrSecretChat with
  | true =>
      constructor
      · rintro ⟨hsingle, halike⟩
        exact ⟨hsingle, fun _ => halike, fun hgroup => absurd (hgroup.symm.trans hkind) Bool.false_ne_true⟩
      · exact fun hs => ⟨hs.single, hs.alike hkind⟩
  | false =>
      constructor
      · rintro ⟨hsingle, hunmixed⟩
        exact ⟨hsingle, fun huser => absurd (hkind.symm.trans huser) Bool.false_ne_true, fun _ => hunmixed⟩
      · exact fun hs => ⟨hs.single, hs.unmixed hkind⟩

end ChatData

namespace TDLibData

/-- **The actions of a chat are summarised without regard to their order** exactly if they can be. -/
theorem chatActions_summarised_iff (texts : ChatData.Texts) (memory : Uninitialised) (es : List Event)
    (hes : ∀ e ∈ es, e.InPercent) (chatId : Int) {chat : ChatData}
    (hchat : (run (step texts) (new memory) es).chats.value chatId = some chat) :
    chat.ActionsSummarised ↔ chat.ActionsSummarisable := by
  obtain ⟨⟨entries, hentries⟩, hstored⟩ := actionsStored_run texts memory hes chatId chat hchat
  have hstored' : ∀ {entries'}, chat.chatActions.ListedBy entries' → ∀ a ∈ entries'.map Prod.snd, a.Stored := by
    intro entries' hentries' a ha
    obtain ⟨k, hk⟩ := (hentries'.mem_values a).mp ha
    exact hstored k a hk
  constructor
  · intro h
    exact (ChatData.summarisable_iff hentries).mp
      ((Utilities.summarised_iff _ (hstored' hentries)).mp (h entries hentries))
  · intro h entries' hentries'
    exact (Utilities.summarised_iff _ (hstored' hentries')).mpr ((ChatData.summarisable_iff hentries').mpr h)

/-- A group in which one member is typing. -/
def typingEvents : List Event :=
  [.newChatDiscovered [(ID, .longLong 7), (TYPE, .map [(TYPE_, .string "chatTypeBasicGroup")])],
    .chatActionUpdated 7 [] [(USER_ID, .longLong 1)] [(TYPE_, .string "chatActionTyping")]]

/-- Then another member does what the client does not know. -/
def unknownActionEvents : List Event :=
  typingEvents ++ [.chatActionUpdated 7 [] [(USER_ID, .longLong 2)] [(TYPE_, .string "chatActionComposing")]]

theorem chatActions_summarised_typing : ∃ chat,
    (run (step ⟨fun _ => ""⟩) (new ⟨0, 0, 0⟩) typingEvents).chats.value 7 = some chat ∧
      (chat.ActionsSummarised ↔ chat.ActionsSummarisable) :=
  ⟨_, rfl, chatActions_summarised_iff ⟨fun _ => ""⟩ ⟨0, 0, 0⟩ typingEvents
    (by simp [typingEvents, Event.InPercent, TYPE_, QVariantMap.value, QVariant.toInt, QVariant.toLongLong]) 7 rfl⟩

/-- With the unknown action in front the group types, with the known one in front it does nothing. -/
theorem not_chatActions_summarised : ∃ chat, (∀ e ∈ unknownActionEvents, e.InPercent) ∧
    (run (step ⟨fun _ => ""⟩) (new ⟨0, 0, 0⟩) unknownActionEvents).chats.value 7 = some chat ∧
      ¬ chat.ActionsSummarised := by
  refine ⟨_, ?_, rfl, fun h => ?_⟩
  · simp [unknownActionEvents, typingEvents, Event.InPercent, TYPE_, QVariantMap.value, QVariant.toInt,
      QVariant.toLongLong]
  · have hentries := (QHash.listedBy_empty.insert (MessageSender.mk false 1)
      (ChatAction.of [(TYPE_, .string "chatActionTyping")])).insert (MessageSender.mk false 2)
      (ChatAction.of [(TYPE_, .string "chatActionComposing")])
    have hsame := (h _ hentries).mainType _ (List.Perm.swap _ _ _)
    exact absurd hsame (by decide)

end TDLibData

end Account

end YaqtLib
