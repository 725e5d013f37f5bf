import YaqtLib.AccountData

/-! What `reset()` leaves of an account: the members it does not name keep what the last update of each said, and
the getters show it to the next account. -/

namespace YaqtLib

namespace Account

open Containers Runs TdConst

namespace TDLibData

/-- The members that `reset()` does not name. -/
structure Kept where
  communities : QHash Int QVariantMap
  scopesNotificationSettings : QHash NotificationSettingsScope QVariantMap
  defaultReactionType : QVariantMap
  accentColors : QHash Int QVariantMap
  availableAccentColorIds : List Int
  ownedStars : Int
  ownedNanostars : Int
  ownedGrams : Int
  stakeDiceState : QVariantMap

def kept (d : TDLibData) : Kept where
  communities := d.communities
  scopesNotificationSettings := d.scopesNotificationSettings
  defaultReactionType := d.defaultReactionType
  accentColors := d.accentColors
  availableAccentColorIds := d.availableAccentColorIds
  ownedStars := d.ownedStars
  ownedNanostars := d.ownedNanostars
  ownedGrams := d.ownedGrams
  stakeDiceState := d.stakeDiceState

def withKept (d : TDLibData) (k : Kept) : TDLibData :=
  { d with
    communities := k.communities
    scopesNotificationSettings := k.scopesNotificationSettings
    defaultReactionType := k.defaultReactionType
    accentColors := k.accentColors
    availableAccentColorIds := k.availableAccentColorIds
    ownedStars := k.ownedStars
    ownedNanostars := k.ownedNanostars
    ownedGrams := k.ownedGrams
    stakeDiceState := k.stakeDiceState }

/-- What an event does to these members; it does not depend on the others. -/
def Kept.step (k : Kept) : Event → Kept
  | .communityUpdated id community => { k with communities := k.communities.insert id community }
  | .scopeNotificationSettingsUpdated scopeType settings =>
      { k with scopesNotificationSettings :=
          match scopeOf scopeType with
          | none => k.scopesNotificationSettings
          | some scope => k.scopesNotificationSettings.insert scope settings }
  | .defaultReactionTypeUpdated reactionType => { k with defaultReactionType := reactionType }
  | .accentColorsUpdated colors availableAccentColorIds =>
      { k with accentColors := colorsById colors, availableAccentColorIds := availableAccentColorIds }
  | .ownedStarCountUpdated stars nanostars => { k with ownedStars := stars, ownedNanostars := nanostars }
  | .ownedGramCountUpdated grams => { k with ownedGrams := grams }
  | .stakeDiceStateUpdated state => { k with stakeDiceState := state }
  | _ => k

theorem updateChat_withKept (d : TDLibData) (k : Kept) (chatId : Int) (f : ChatData → ChatData × List ChatData.Role) :
    ((d.withKept k).updateChat chatId f).1 = (d.updateChat chatId f).1.withKept k := by
  rw [updateChat, updateChat]
  have hchats : (d.withKept k).chats = d.chats := rfl
  rw [hchats]
  cases d.chats.value chatId with
  | none => rfl
  | some chat => rfl

theorem handleOptionUpdated_withKept (d : TDLibData) (k : Kept) (optionName : String) (optionValue : QVariant) :
    (d.withKept k).handleOptionUpdated optionName optionValue =
      (d.handleOptionUpdated optionName optionValue).withKept k := by
  unfold handleOptionUpdated
  split_ifs <;> rfl

theorem handleUserUpdated_withKept (d : TDLibData) (k : Kept) (user : QVariantMap) :
    (d.withKept k).handleUserUpdated user = (d.handleUserUpdated user).withKept k := by
  by_cases hme : (user.value ID).toLongLong = d.myId
  · have hme' : (user.value ID).toLongLong = (d.withKept k).myId := hme
    simp only [handleUserUpdated, if_pos hme, if_pos hme']
    rfl
  · have hme' : (user.value ID).toLongLong ≠ (d.withKept k).myId := hme
    simp only [handleUserUpdated, if_neg hme, if_neg hme']
    rfl

theorem storeUserStatus_withKept (d : TDLibData) (k : Kept) (userId : Int) (status : QVariantMap) :
    (d.withKept k).storeUserStatus userId status = (d.storeUserStatus userId status).withKept k := by
  have huser : (d.withKept k).getUserInformation userId = d.getUserInformation userId := rfl
  simp only [storeUserStatus, huser]
  split_ifs
  · rfl
  · have hupdate (information : QVariantMap) : (d.withKept k).updateUserInformation userId information =
        (d.updateUserInformation userId information).withKept k := rfl
    have hchats (information : QVariantMap) :
        ((d.updateUserInformation userId information).withKept k).chats = d.chats := rfl
    have hchats' (information : QVariantMap) : (d.updateUserInformation userId information).chats = d.chats := rfl
    rw [hupdate, hchats, hchats']
    cases d.chats.value userId with
    | none => rfl
    | some chat => rfl

theorem handleUserStatusUpdated_withKept (d : TDLibData) (k : Kept) (userId : Int) (status : QVariantMap) :
    (d.withKept k).handleUserStatusUpdated userId status = (d.handleUserStatusUpdated userId status).withKept k := by
  by_cases hme : userId = d.myId
  · have hme' : userId = (d.withKept k).myId := hme
    simp only [handleUserStatusUpdated, if_pos hme, if_pos hme', ← storeUserStatus_withKept]
    rfl
  · have hme' : userId ≠ (d.withKept k).myId := hme
    simp only [handleUserStatusUpdated, if_neg hme, if_neg hme', ← storeUserStatus_withKept]

theorem handleUpdatedUserPrivacySettingRules_withKept (d : TDLibData) (k : Kept) (updatedRules : QVariantMap) :
    (d.withKept k).handleUpdatedUserPrivacySettingRules updatedRules =
      (d.handleUpdatedUserPrivacySettingRules updatedRules).withKept k := by
  unfold handleUpdatedUserPrivacySettingRules
  cases userPrivacySettingOf ((updatedRules.value "setting").toMap.value TYPE_).toStr with
  | none => rfl
  | some usedSetting => rfl

theorem handleChatActionUpdated_withKept (d : TDLibData) (k : Kept) (chatId : Int)
    (topicId sender action : QVariantMap) : (d.withKept k).handleChatActionUpdated chatId topicId sender action =
      (d.handleChatActionUpdated chatId topicId sender action).withKept k := by
  by_cases htopic : topicId.isEmpty = true
  · rw [handleChatActionUpdated, handleChatActionUpdated, if_pos htopic, if_pos htopic]
    exact updateChat_withKept d k chatId _
  · rw [handleChatActionUpdated, handleChatActionUpdated, if_neg htopic, if_neg htopic]

theorem handleActiveEmojiReactionsUpdated_withKept (d : TDLibData) (k : Kept) (emojis : List String) :
    (d.withKept k).handleActiveEmojiReactionsUpdated emojis =
      (d.handleActiveEmojiReactionsUpdated emojis).withKept k := by
  unfold handleActiveEmojiReactionsUpdated
  show (if d.activeEmojiReactions ≠ emojis then _ else _) = _
  split_ifs <;> rfl

theorem handleDiceEmojisUpdated_withKept (d : TDLibData) (k : Kept) (emojis : List String) :
    (d.withKept k).handleDiceEmojisUpdated emojis = (d.handleDiceEmojisUpdated emojis).withKept k := by
  unfold handleDiceEmojisUpdated
  show (if d.diceEmojis ≠ emojis then _ else _) = _
  split_ifs <;> rfl

theorem handleScopeNotificationSettingsUpdated_withKept (d : TDLibData) (k : Kept) (scopeType : String)
    (settings : QVariantMap) : (d.withKept k).handleScopeNotificationSettingsUpdated scopeType settings =
      (d.handleScopeNotificationSettingsUpdated scopeType settings).withKept
        (k.step (.scopeNotificationSettingsUpdated scopeType settings)) := by
  cases hscope : scopeOf scopeType with
  | none =>
      simp only [handleScopeNotificationSettingsUpdated, Kept.step, hscope]
  | some scope =>
      simp only [handleScopeNotificationSettingsUpdated, Kept.step, hscope]
      rfl

/-- **Step lemma.** What an event does to these members and to the others does not depend on the other ones. -/
theorem step_withKept (texts : ChatData.Texts) (d : TDLibData) (k : Kept) (e : Event) :
    step texts (d.withKept k) e = (step texts d e).withKept (k.step e) := by
  cases e with
  | optionUpdated optionName optionValue => exact handleOptionUpdated_withKept d k optionName optionValue
  | userUpdated user => exact handleUserUpdated_withKept d k user
  | userStatusUpdated userId status => exact handleUserStatusUpdated_withKept d k userId status
  | userPrivacySettingRulesUpdated updatedRules =>
      exact handleUpdatedUserPrivacySettingRules_withKept d k updatedRules
  | chatActionUpdated chatId topicId sender action =>
      exact handleChatActionUpdated_withKept d k chatId topicId sender action
  | activeEmojiReactionsUpdated emojis => exact handleActiveEmojiReactionsUpdated_withKept d k emojis
  | diceEmojisUpdated emojis => exact handleDiceEmojisUpdated_withKept d k emojis
  | scopeNotificationSettingsUpdated scopeType settings =>
      exact handleScopeNotificationSettingsUpdated_withKept d k scopeType settings
  | chatLastMessageUpdated | chatDraftMessageUpdated | chatReadInboxUpdated | chatReadOutboxUpdated | chatTitleUpdated
  | chatPhotoUpdated | chatNotificationSettingsUpdated | chatIsMarkedAsUnreadUpdated | chatUnreadMentionCountUpdated
  | chatUnreadReactionCountUpdated | chatUnreadPollVoteCountUpdated | chatPermissionsUpdated
  | chatAvailableReactionsUpdated | chatPendingJoinRequestsUpdated | chatViewAsTopicsUpdated
  | chatAccentColorsUpdated => exact updateChat_withKept d k _ _
  | reset | userPrivacySettingRules | newChatDiscovered | basicGroupUpdated | supergroupUpdated | secretChatUpdated
  | communityUpdated | ownedStarCountUpdated | ownedGramCountUpdated | stakeDiceStateUpdated
  | defaultReactionTypeUpdated | accentColorsUpdated => rfl

theorem run_withKept (texts : ChatData.Texts) (d : TDLibData) (k : Kept) (es : List Event) :
    run (step texts) (d.withKept k) es = (run (step texts) d es).withKept (run Kept.step k es) := by
  induction es generalizing d k with
  | nil => rfl
  | cons e es ih => rw [run_cons, run_cons, run_cons, step_withKept, ih]

theorem kept_run (texts : ChatData.Texts) (d : TDLibData) (es : List Event) :
    (run (step texts) d es).kept = run Kept.step d.kept es := by
  have h := run_withKept texts d d.kept es
  exact congrArg kept h

theorem reset_eq (memory : Uninitialised) (d : TDLibData) : d.reset = (new memory).withKept d.kept := rfl

/-- A session from a reset on, as a session of a new store with the members that were kept. -/
theorem run_reset (texts : ChatData.Texts) (memory : Uninitialised) (h later : List Event) :
    run (step texts) (new memory) (h ++ .reset :: later) =
      (run (step texts) (new memory) later).withKept (run Kept.step (run Kept.step (new memory).kept h) later) := by
  rw [run_append, run_cons]
  show run (step texts) (run (step texts) (new memory) h).reset later = _
  rw [reset_eq memory, run_withKept, kept_run]

/-! ### What the getters show -/

/-- All getters agree. -/
structure SameGetters (d d' : TDLibData) : Prop where
  option : ∀ optionName, d.getOption optionName = d'.getOption optionName
  myUserId : d.myId = d'.myId
  userInformation : d.userInformation = d'.userInformation
  userInformationOf : ∀ userId, d.getUserInformation userId = d'.getUserInformation userId
  hasUserInformation : ∀ userId, d.hasUserInformation userId = d'.hasUserInformation userId
  userPrivacySettingRule : ∀ setting, d.getUserPrivacySettingRule setting = d'.getUserPrivacySettingRule setting
  group : ∀ groupId superGroup, d.getGroup groupId superGroup = d'.getGroup groupId superGroup
  basicGroup : ∀ groupId, d.getBasicGroup groupId = d'.getBasicGroup groupId
  superGroup : ∀ groupId, d.getSuperGroup groupId = d'.getSuperGroup groupId
  chat : ∀ chatId, d.getChat chatId = d'.getChat chatId
  hasChatData : ∀ chatId, d.hasChatData chatId = d'.hasChatData chatId
  chatData : ∀ chatId, d.getChatData chatId = d'.getChatData chatId
  secretChat : ∀ secretChatId, d.getSecretChat secretChatId = d'.getSecretChat secretChatId
  community : ∀ id, d.getCommunity id = d'.getCommunity id
  scopeNotificationSettings : ∀ scope, d.scopeNotificationSettings scope = d'.scopeNotificationSettings scope
  chatNotificationSettingsScope : ∀ chatId,
    d.getChatNotificationSettingsScope chatId = d'.getChatNotificationSettingsScope chatId
  chatScopeNotificationSettings : ∀ chatId,
    d.getChatScopeNotificationSettings chatId = d'.getChatScopeNotificationSettings chatId
  chatMuteFor : ∀ chatId settings, d.getChatMuteFor chatId settings = d'.getChatMuteFor chatId settings
  canSkipChatJoinDialog : ∀ chatId, d.canSkipChatJoinDialog chatId = d'.canSkipChatJoinDialog chatId
  isDiceEmoji : ∀ text, d.isDiceEmoji text = d'.isDiceEmoji text
  activeEmojiReactions : d.activeEmojiReactions = d'.activeEmojiReactions
  defaultReactionType : d.defaultReactionType = d'.defaultReactionType
  accentColor : ∀ id, d.getAccentColor id = d'.getAccentColor id
  availableAccentColors : d.availableAccentColors = d'.availableAccentColors
  ownedStars : d.ownedStars = d'.ownedStars
  ownedNanostars : d.ownedNanostars = d'.ownedNanostars
  ownedGrams : d.ownedGrams = d'.ownedGrams
  stakeDiceState : d.stakeDiceState = d'.stakeDiceState

namespace Kept

def community (k : Kept) (id : Int) : QVariantMap := (k.communities.value id).getD []

def scopeSettings (k : Kept) (scope : NotificationSettingsScope) : QVariantMap :=
  (k.scopesNotificationSettings.value scope).getD []

/-- The colors that are offered, by the table of the colors. -/
def offered (accentColors : QHash Int QVariantMap) (ids : List Int) : QVariantList :=
  ids.map fun id => .map ((accentColors.value id).getD [])

/-- The members look the same through the getters. -/
structure Same (k k' : Kept) : Prop where
  community : ∀ id, k.community id = k'.community id
  scopeSettings : ∀ scope, k.scopeSettings scope = k'.scopeSettings scope
  defaultReactionType : k.defaultReactionType = k'.defaultReactionType
  accentColor : ∀ id, k.accentColors.value id = k'.accentColors.value id
  availableAccentColors : offered k.accentColors k.availableAccentColorIds =
    offered k'.accentColors k'.availableAccentColorIds
  ownedStars : k.ownedStars = k'.ownedStars
  ownedNanostars : k.ownedNanostars = k'.ownedNanostars
  ownedGrams : k.ownedGrams = k'.ownedGrams
  stakeDiceState : k.stakeDiceState = k'.stakeDiceState

end Kept

theorem getAccentColor_eq_iff (d d' : TDLibData) (id : Int) :
    d.getAccentColor id = d'.getAccentColor id ↔ d.accentColors.value id = d'.accentColors.value id := by
  rw [getAccentColor, getAccentColor]
  cases d.accentColors.value id with
  | none => cases d'.accentColors.value id <;> simp
  | some color => cases d'.accentColors.value id <;> simp

theorem sameGetters_withKept_iff (d : TDLibData) (k k' : Kept) :
    SameGetters (d.withKept k) (d.withKept k') ↔ k.Same k' := by
  constructor
  · intro h
    exact {
      community := h.community
      scopeSettings := h.scopeNotificationSettings
      defaultReactionType := h.defaultReactionType
      accentColor := fun id => (getAccentColor_eq_iff _ _ id).mp (h.accentColor id)
      availableAccentColors := h.availableAccentColors
      ownedStars := h.ownedStars
      ownedNanostars := h.ownedNanostars
      ownedGrams := h.ownedGrams
      stakeDiceState := h.stakeDiceState }
  · intro h
    have hscope : (d.withKept k).scopeNotificationSettings = (d.withKept k').scopeNotificationSettings :=
      funext h.scopeSettings
    constructor
    case community => exact h.community
    case scopeNotificationSettings => exact h.scopeSettings
    case chatScopeNotificationSettings =>
      intro chatId
      rw [getChatScopeNotificationSettings, getChatScopeNotificationSettings, hscope]
      rfl
    case chatMuteFor =>
      intro chatId settings
      rw [getChatMuteFor, getChatMuteFor, hscope]
      rfl
    case defaultReactionType => exact h.defaultReactionType
    case accentColor => exact fun id => (getAccentColor_eq_iff _ _ id).mpr (h.accentColor id)
    case availableAccentColors => exact h.availableAccentColors
    case ownedStars => exact h.ownedStars
    case ownedNanostars => exact h.ownedNanostars
    case ownedGrams => exact h.ownedGrams
    case stakeDiceState => exact h.stakeDiceState
    all_goals intros; rfl

/-! ### What the updates say last -/

def communityOf (id : Int) : Event → Option QVariantMap
  | .communityUpdated id' community => if id' = id then some community else none
  | _ => none

def scopeSettingsOf (scope : NotificationSettingsScope) : Event → Option QVariantMap
  | .scopeNotificationSettingsUpdated scopeType settings => if scopeOf scopeType = some scope then some settings else none
  | _ => none

def defaultReactionTypeOf : Event → Option QVariantMap
  | .defaultReactionTypeUpdated reactionType => some reactionType
  | _ => none

def accentColorsOf : Event → Option (QVariantList × List Int)
  | .accentColorsUpdated colors availableAccentColorIds => some (colors, availableAccentColorIds)
  | _ => none

def ownedStarCountOf : Event → Option (Int × Int)
  | .ownedStarCountUpdated stars nanostars => some (stars, nanostars)
  | _ => none

def ownedGramCountOf : Event → Option Int
  | .ownedGramCountUpdated grams => some grams
  | _ => none

def stakeDiceStateOf : Event → Option QVariantMap
  | .stakeDiceStateUpdated state => some state
  | _ => none

/-- What a history says last of the colors. -/
def accentColorsSaid (h : List Event) : QVariantList × List Int := (lastOf accentColorsOf h).getD ([], [])

/-- Two histories say the same last of everything that `reset()` does not name. -/
structure SameLeftovers (memory : Uninitialised) (h h' : List Event) : Prop where
  community : ∀ id, (lastOf (communityOf id) h).getD [] = (lastOf (communityOf id) h').getD []
  scopeSettings : ∀ scope, (lastOf (scopeSettingsOf scope) h).getD [] = (lastOf (scopeSettingsOf scope) h').getD []
  defaultReactionType : (lastOf defaultReactionTypeOf h).getD [] = (lastOf defaultReactionTypeOf h').getD []
  accentColor : ∀ id, (colorsById (accentColorsSaid h).1).value id = (colorsById (accentColorsSaid h').1).value id
  availableAccentColors : Kept.offered (colorsById (accentColorsSaid h).1) (accentColorsSaid h).2 =
    Kept.offered (colorsById (accentColorsSaid h').1) (accentColorsSaid h').2
  ownedStarCount : (lastOf ownedStarCountOf h).getD (memory.ownedStars, memory.ownedNanostars) =
    (lastOf ownedStarCountOf h').getD (memory.ownedStars, memory.ownedNanostars)
  ownedGramCount : (lastOf ownedGramCountOf h).getD memory.ownedGrams =
    (lastOf ownedGramCountOf h').getD memory.ownedGrams
  stakeDiceState : (lastOf stakeDiceStateOf h).getD [] = (lastOf stakeDiceStateOf h').getD []

/-- A history says last what a new store has: no community, notification settings of a scope, default reaction,
accent color or state of the stake dice, and the numbers that the memory had. -/
structure LeavesNothing (memory : Uninitialised) (h : List Event) : Prop where
  community : ∀ id, (lastOf (communityOf id) h).getD [] = []
  scopeSettings : ∀ scope, (lastOf (scopeSettingsOf scope) h).getD [] = []
  defaultReactionType : (lastOf defaultReactionTypeOf h).getD [] = []
  accentColors : accentColorsSaid h = ([], [])
  ownedStarCount : (lastOf ownedStarCountOf h).getD (memory.ownedStars, memory.ownedNanostars) =
    (memory.ownedStars, memory.ownedNanostars)
  ownedGramCount : (lastOf ownedGramCountOf h).getD memory.ownedGrams = memory.ownedGrams
  stakeDiceState : (lastOf stakeDiceStateOf h).getD [] = []

namespace Kept

theorem community_run (k : Kept) (id : Int) (h : List Event) :
    (run Kept.step k h).community id = (lastOf (communityOf id) h).getD (k.community id) := by
  refine read_run (fun k => community k id) (fun k e => ?_) k h
  cases e with
  | communityUpdated id' community =>
      show ((k.communities.insert id' community).value id).getD [] = _
      rw [QHash.value_insert, communityOf]
      by_cases heq : id = id'
      · rw [if_pos heq, if_pos heq.symm]
        rfl
      · rw [if_neg heq, if_neg (Ne.symm heq)]
        rfl
  | _ => rfl

theorem scopeSettings_run (k : Kept) (scope : NotificationSettingsScope) (h : List Event) :
    (run Kept.step k h).scopeSettings scope = (lastOf (scopeSettingsOf scope) h).getD (k.scopeSettings scope) := by
  refine read_run (fun k => scopeSettings k scope) (fun k e => ?_) k h
  cases e with
  | scopeNotificationSettingsUpdated scopeType settings =>
      rw [Kept.step, scopeSettingsOf, scopeSettings]
      dsimp only
      cases scopeOf scopeType with
      | none => rfl
      | some scope' =>
          show ((k.scopesNotificationSettings.insert scope' settings).value scope).getD [] = _
          rw [QHash.value_insert]
          by_cases heq : scope = scope'
          · rw [if_pos heq, if_pos (by rw [heq])]
            rfl
          · rw [if_neg heq, if_neg (by simpa using Ne.symm heq)]
            rfl
  | _ => rfl

theorem defaultReactionType_run (k : Kept) (h : List Event) :
    (run Kept.step k h).defaultReactionType = (lastOf defaultReactionTypeOf h).getD k.defaultReactionType := by
  refine read_run _ (fun k e => ?_) k h
  cases e <;> rfl

theorem ownedStarCount_run (k : Kept) (h : List Event) :
    ((run Kept.step k h).ownedStars, (run Kept.step k h).ownedNanostars) =
      (lastOf ownedStarCountOf h).getD (k.ownedStars, k.ownedNanostars) := by
  refine read_run (fun k => (ownedStars k, ownedNanostars k)) (fun k e => ?_) k h
  cases e <;> rfl

theorem ownedGramCount_run (k : Kept) (h : List Event) :
    (run Kept.step k h).ownedGrams = (lastOf ownedGramCountOf h).getD k.ownedGrams := by
  refine read_run _ (fun k e => ?_) k h
  cases e <;> rfl

theorem stakeDiceState_run (k : Kept) (h : List Event) :
    (run Kept.step k h).stakeDiceState = (lastOf stakeDiceStateOf h).getD k.stakeDiceState := by
  refine read_run _ (fun k e => ?_) k h
  cases e <;> rfl

theorem accentColors_run (k : Kept) (h : List Event) :
    ((run Kept.step k h).accentColors, (run Kept.step k h).availableAccentColorIds) =
      ((lastOf accentColorsOf h).map fun said => (colorsById said.1, said.2)).getD
        (k.accentColors, k.availableAccentColorIds) := by
  have hsaid : (lastOf accentColorsOf h).map (fun said => (colorsById said.1, said.2)) =
      lastOf (fun e => (accentColorsOf e).map fun said => (colorsById said.1, said.2)) h := by
    rw [lastOf_map]
  rw [hsaid]
  refine read_run (fun k => (accentColors k, availableAccentColorIds k)) (fun k e => ?_) k h
  cases e <;> rfl

/-- What agrees stays in agreement. -/
theorem Same.step {k k' : Kept} (h : k.Same k') (e : Event) : (k.step e).Same (k'.step e) := by
  cases e with
  | communityUpdated id community =>
      refine { h with community := fun id' => ?_ }
      show ((k.communities.insert id community).value id').getD [] =
        ((k'.communities.insert id community).value id').getD []
      rw [QHash.value_insert, QHash.value_insert]
      split_ifs
      · rfl
      · exact h.community id'
  | scopeNotificationSettingsUpdated scopeType settings =>
      cases hscope : scopeOf scopeType with
      | none => simpa only [Kept.step, hscope] using h
      | some scope =>
          simp only [Kept.step, hscope]
          refine { h with scopeSettings := fun scope' => ?_ }
          show ((k.scopesNotificationSettings.insert scope settings).value scope').getD [] =
            ((k'.scopesNotificationSettings.insert scope settings).value scope').getD []
          rw [QHash.value_insert, QHash.value_insert]
          split_ifs
          · rfl
          · exact h.scopeSettings scope'
  | defaultReactionTypeUpdated reactionType => exact { h with defaultReactionType := rfl }
  | accentColorsUpdated colors ids => exact { h with accentColor := fun _ => rfl, availableAccentColors := rfl }
  | ownedStarCountUpdated stars nanostars => exact { h with ownedStars := rfl, ownedNanostars := rfl }
  | ownedGramCountUpdated grams => exact { h with ownedGrams := rfl }
  | stakeDiceStateUpdated state => exact { h with stakeDiceState := rfl }
  | _ => exact h

theorem Same.run {k k' : Kept} (h : k.Same k') (es : List Event) :
    (Runs.run Kept.step k es).Same (Runs.run Kept.step k' es) := by
  induction es generalizing k k' with
  | nil => exact h
  | cons e es ih => exact ih (h.step e)

end Kept

theorem colors_run (memory : Uninitialised) (h : List Event) :
    (run Kept.step (new memory).kept h).accentColors = colorsById (accentColorsSaid h).1 ∧
      (run Kept.step (new memory).kept h).availableAccentColorIds = (accentColorsSaid h).2 := by
  have hrun := Kept.accentColors_run (new memory).kept h
  rw [accentColorsSaid]
  cases hsaid : lastOf accentColorsOf h with
  | none =>
      rw [hsaid] at hrun
      exact Prod.mk.inj hrun
  | some said =>
      rw [hsaid] at hrun
      exact Prod.mk.inj hrun

theorem same_kept_iff (memory : Uninitialised) (h h' : List Event) :
    (run Kept.step (new memory).kept h).Same (run Kept.step (new memory).kept h') ↔ SameLeftovers memory h h' := by
  have hcommunity := Kept.community_run (new memory).kept
  have hscope := Kept.scopeSettings_run (new memory).kept
  have hreaction := Kept.defaultReactionType_run (new memory).kept
  have hstars := Kept.ownedStarCount_run (new memory).kept
  have hgrams := Kept.ownedGramCount_run (new memory).kept
  have hdice := Kept.stakeDiceState_run (new memory).kept
  obtain ⟨hcolors, hids⟩ := colors_run memory h
  obtain ⟨hcolors', hids'⟩ := colors_run memory h'
  constructor
  · intro hsame
    exact {
      community := fun id => (hcommunity id h).symm.trans ((hsame.community id).trans (hcommunity id h'))
      scopeSettings := fun scope => (hscope scope h).symm.trans ((hsame.scopeSettings scope).trans (hscope scope h'))
      defaultReactionType := (hreaction h).symm.trans (hsame.defaultReactionType.trans (hreaction h'))
      accentColor := by
        have := hsame.accentColor
        rwa [hcolors, hcolors'] at this
      availableAccentColors := by
        have := hsame.availableAccentColors
        rwa [hcolors, hcolors', hids, hids'] at this
      ownedStarCount := (hstars h).symm.trans
        ((Prod.ext hsame.ownedStars hsame.ownedNanostars : (_, _) = (_, _)).trans (hstars h'))
      ownedGramCount := (hgrams h).symm.trans (hsame.ownedGrams.trans (hgrams h'))
      stakeDiceState := (hdice h).symm.trans (hsame.stakeDiceState.trans (hdice h')) }
  · intro hleft
    have hcount := (hstars h).trans (hleft.ownedStarCount.trans (hstars h').symm)
    exact {
      community := fun id => (hcommunity id h).trans ((hleft.community id).trans (hcommunity id h').symm)
      scopeSettings := fun scope => (hscope scope h).trans ((hleft.scopeSettings scope).trans (hscope scope h').symm)
      defaultReactionType := (hreaction h).trans (hleft.defaultReactionType.trans (hreaction h').symm)
      accentColor := by
        rw [hcolors, hcolors']
        exact hleft.accentColor
      availableAccentColors := by
        rw [hcolors, hcolors', hids, hids']
        exact hleft.availableAccentColors
      ownedStars := congrArg Prod.fst hcount
      ownedNanostars := congrArg Prod.snd hcount
      ownedGrams := (hgrams h).trans (hleft.ownedGramCount.trans (hgrams h').symm)
      stakeDiceState := (hdice h).trans (hleft.stakeDiceState.trans (hdice h').symm) }

theorem colorsById_eq_empty_iff (colors : QVariantList) :
    (∀ id, (colorsById colors).value id = none) ↔ colors = [] := by
  constructor
  · intro h
    rcases List.eq_nil_or_concat colors with rfl | ⟨init, color, rfl⟩
    · rfl
    · have hcolor := h (color.toMap.value ID).toInt
      rw [colorsById, List.concat_eq_append, List.foldl_append, List.foldl_cons, List.foldl_nil,
        QHash.value_insert_self] at hcolor
      cases hcolor
  · rintro rfl id
    rfl

/-- The same as a new store has. -/
theorem sameLeftovers_nil_iff (memory : Uninitialised) (h : List Event) :
    SameLeftovers memory h [] ↔ LeavesNothing memory h := by
  constructor
  · intro hsame
    have hcolors : (accentColorsSaid h).1 = [] := (colorsById_eq_empty_iff _).mp hsame.accentColor
    have hids : (accentColorsSaid h).2 = [] := List.map_eq_nil_iff.mp hsame.availableAccentColors
    exact {
      community := hsame.community
      scopeSettings := hsame.scopeSettings
      defaultReactionType := hsame.defaultReactionType
      accentColors := Prod.ext hcolors hids
      ownedStarCount := hsame.ownedStarCount
      ownedGramCount := hsame.ownedGramCount
      stakeDiceState := hsame.stakeDiceState }
  · intro hleft
    have hcolors := hleft.accentColors
    exact {
      community := hleft.community
      scopeSettings := hleft.scopeSettings
      defaultReactionType := hleft.defaultReactionType
      accentColor := by
        rw [hcolors]
        exact fun _ => rfl
      availableAccentColors := by
        rw [hcolors]
        rfl
      ownedStarCount := hleft.ownedStarCount
      ownedGramCount := hleft.ownedGramCount
      stakeDiceState := hleft.stakeDiceState }

/-- **Account isolation.** The getters show a new store after a history and a reset exactly if the history says
last what a new store has; and they show the same after two histories, a reset and the same later updates exactly if
the two say the same last of what `reset()` does not name. -/
theorem reset_isolates_iff (texts : ChatData.Texts) (memory : Uninitialised) :
    (∀ h, SameGetters (run (step texts) (new memory) (h ++ [.reset])) (new memory) ↔ LeavesNothing memory h) ∧
    (∀ h h', (∀ later, SameGetters (run (step texts) (new memory) (h ++ .reset :: later))
        (run (step texts) (new memory) (h' ++ .reset :: later))) ↔ SameLeftovers memory h h') := by
  constructor
  · intro h
    rw [run_reset texts memory h [], run_nil, ← sameLeftovers_nil_iff, ← same_kept_iff,
      ← sameGetters_withKept_iff (new memory)]
    rfl
  · intro h h'
    rw [← same_kept_iff]
    constructor
    · intro hall
      have hreset := hall []
      rw [run_reset texts memory h [], run_reset texts memory h' []] at hreset
      exact (sameGetters_withKept_iff _ _ _).mp hreset
    · intro hsame later
      rw [run_reset texts memory h later, run_reset texts memory h' later]
      exact (sameGetters_withKept_iff _ _ _).mpr (hsame.run later)

/-- The stars of an account are those of the next one. -/
theorem not_reset_isolates : ¬ SameGetters
    (run (step { messageText := fun _ => "" }) (new { ownedStars := 0, ownedNanostars := 0, ownedGrams := 0 })
      [.ownedStarCountUpdated 250 0, .reset])
    (new { ownedStars := 0, ownedNanostars := 0, ownedGrams := 0 }) :=
  fun h => absurd h.ownedStars (by decide)

end TDLibData

end Account

end YaqtLib
