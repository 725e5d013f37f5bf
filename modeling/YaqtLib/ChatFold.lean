import YaqtLib.ChatUpdates
import YaqtLib.Runs

/-! The data of a stored chat is the fold of its updates: each field holds what the last update that carries it says,
and the roles whose values change are named. One field is read from the wrong place of one update. -/

namespace YaqtLib

open Containers Runs TdConst TDLibReceiver

namespace Account

/-! ### What an update does to a chat -/

/-- The role shows data that stands under the key. -/
def ChatData.Role.key : ChatData.Role → String
  | .display => ""
  | .title => TITLE
  | .photo => PHOTO
  | .unreadCount => UNREAD_COUNT
  | .unreadMentionCount => UNREAD_MENTION_COUNT
  | .unreadReactionCount => UNREAD_REACTION_COUNT
  | .unreadPollVoteCount => UNREAD_POLL_VOTE_COUNT
  | .availableReactions => AVAILABLE_REACTIONS
  | .lastReadOutboxMessageId => LAST_READ_OUTBOX_MESSAGE_ID
  | .lastReadInboxMessageId => LAST_READ_INBOX_MESSAGE_ID
  | .lastMessageId | .lastMessageSenderId | .lastMessageDate | .lastMessageText | .lastMessageMinithumbnail
  | .lastMessageIsService | .lastMessageSendingState | .lastMessageIsOutgoing => LAST_MESSAGE
  | .isMarkedAsUnread => IS_MARKED_AS_UNREAD
  | .draftMessageText | .draftMessageDate => DRAFT_MESSAGE
  | .notificationSettings => NOTIFICATION_SETTINGS
  | .permissions => PERMISSIONS
  | .viewAsTopics => VIEW_AS_TOPICS
  | .accentColorId => ACCENT_COLOR_ID
  | .backgroundCustomEmojiId => BACKGROUND_CUSTOM_EMOJI_ID
  | .upgradedGiftColors => UPGRADED_GIFT_COLORS
  | .profileAccentColorId => PROFILE_ACCENT_COLOR_ID
  | .profileBackgroundCustomEmojiId => PROFILE_BACKGROUND_CUSTOM_EMOJI_ID

/-- All roles, each at its own place. -/
def ChatData.Role.all : List ChatData.Role :=
  [.display, .title, .photo, .unreadCount, .unreadMentionCount, .unreadReactionCount, .unreadPollVoteCount,
    .availableReactions, .lastReadOutboxMessageId, .lastReadInboxMessageId, .lastMessageId, .lastMessageSenderId,
    .lastMessageDate, .lastMessageText, .lastMessageMinithumbnail, .lastMessageIsService, .lastMessageSendingState,
    .lastMessageIsOutgoing, .isMarkedAsUnread, .draftMessageText, .draftMessageDate, .notificationSettings,
    .permissions, .viewAsTopics, .accentColorId, .backgroundCustomEmojiId, .upgradedGiftColors,
    .profileAccentColorId, .profileBackgroundCustomEmojiId]

/-- No other role shows the field. -/
def ChatData.Role.IsOnlyOf (role : ChatData.Role) (f : Field) : Prop :=
  ∀ role' : ChatData.Role, role'.key = f.key → role' = role

/-- Only the last message and the draft are shown under several roles. -/
theorem ChatData.Role.IsOnlyOf.of_key (role : ChatData.Role) {f : Field} (h : role.key = f.key)
    (hlast : role.key ≠ LAST_MESSAGE) (hdraft : role.key ≠ DRAFT_MESSAGE) : role.IsOnlyOf f := by
  have hof : ∀ r : ChatData.Role, r.key ≠ LAST_MESSAGE → r.key ≠ DRAFT_MESSAGE →
      all.find? (fun r' => r'.key = r.key) = some r := by
    intro r hlast hdraft
    cases r <;> first | rfl | exact absurd rfl hlast | exact absurd rfl hdraft
  intro role' hkey
  have heq : role'.key = role.key := hkey.trans h.symm
  have hrole := hof role' (heq ▸ hlast) (heq ▸ hdraft)
  rw [heq] at hrole
  exact Option.some.inj (hrole.symm.trans (hof role hlast hdraft))

namespace ChatData

/-- A field of a chat, as its type reads it. -/
def field (chat : ChatData) (f : Field) : QVariant := f.read chat.chatData

theorem data_congr (texts : Texts) {chat chat' : ChatData} {role : Role} (hrole : role ≠ .display)
    (h : chat'.chatData.value role.key = chat.chatData.value role.key) :
    chat'.data texts role = chat.data texts role := by
  cases role with
  | display => exact absurd rfl hrole
  | draftMessageText =>
      have hdraft : chat'.draftMessage = chat.draftMessage := congrArg QVariant.toMap h
      rw [data, data, draftMessageText, draftMessageText, hdraft]
  | _ =>
      simp only [Role.key] at h
      simp only [data, title, photo, unreadCount, unreadMentionCount, unreadReactionCount, unreadPollVoteCount,
        availableReactions, lastReadOutboxMessageId, lastReadInboxMessageId, lastMessageId, lastMessageSenderId,
        lastMessageDate, lastMessageText, lastMessageMinithumbnail, lastMessageIsService, lastMessageSendingState,
        lastMessageIsOutgoing, lastMessage, isMarkedAsUnread, draftMessageDate, draftMessage,
        notificationSettings, permissions, viewAsTopics, accentColorId, backgroundCustomEmojiId, upgradedGiftColors,
        profileAccentColorId, profileBackgroundCustomEmojiId, h]

end ChatData

/-- The result of an update of a chat: the fields it tells are written, and the roles that change are named. -/
structure Updates (texts : ChatData.Texts) (told : Field → Option QVariant) (chat : ChatData)
    (result : ChatData × List ChatData.Role) : Prop where
  fields : ∀ f, result.1.field f = (told f).getD (chat.field f)
  roles : ∀ role, role ≠ .display → result.1.data texts role ≠ chat.data texts role → role ∈ result.2

/-- Only one field is said. -/
def only (f : Field) (v : QVariant) : Field → Option QVariant := fun f' => if f' = f then some v else none

namespace Updates

variable {texts : ChatData.Texts} {told told' : Field → Option QVariant} {chat : ChatData}
  {result result' : ChatData × List ChatData.Role}

theorem congr (h : Updates texts told chat result) (htold : ∀ f, told f = told' f) :
    Updates texts told' chat result :=
  ⟨fun f => (htold f) ▸ h.fields f, h.roles⟩

theorem mono (h : Updates texts told chat result) {roles : List ChatData.Role} (hroles : result.2 ⊆ roles) :
    Updates texts told chat (result.1, roles) :=
  ⟨h.fields, fun role hrole hne => hroles (h.roles role hrole hne)⟩

/-- Two updates after each other. -/
theorem andThen (h : Updates texts told chat result) (h' : Updates texts told' result.1 result') :
    Updates texts (fun f => (told' f).or (told f)) chat (result'.1, result.2 ++ result'.2) := by
  refine ⟨fun f => ?_, fun role hrole hne => ?_⟩
  · rw [h'.fields f, h.fields f]
    cases told' f <;> rfl
  · by_cases hfirst : result.1.data texts role = chat.data texts role
    · rw [← hfirst] at hne
      exact List.mem_append_right _ (h'.roles role hrole hne)
    · exact List.mem_append_left _ (h.roles role hrole hfirst)

/-- A field is written, and the roles of it that change are named. -/
theorem insert (f : Field) {v : QVariant} (hv : f.kind.read v = v) {roles : List ChatData.Role}
    (hroles : ∀ role, role ≠ .display → role.key = f.key →
      (chat.insert f.key v).data texts role ≠ chat.data texts role → role ∈ roles) :
    Updates texts (only f v) chat (chat.insert f.key v, roles) := by
  refine ⟨fun f' => ?_, fun role hrole hne => ?_⟩
  · by_cases hf : f' = f
    · subst hf
      rw [only, if_pos rfl, Option.getD_some, ChatData.field, Field.read, Field.readAt, ChatData.insert,
        QVariantMap.value_insert_self, hv]
    · have hkey : f'.key ≠ f.key := fun h => hf (Field.key_injective h)
      rw [only, if_neg hf, Option.getD_none, ChatData.field, Field.read, Field.readAt, ChatData.insert,
        QVariantMap.value_insert_of_ne _ _ hkey]
      rfl
  · by_cases hkey : role.key = f.key
    · exact hroles role hrole hkey hne
    · refine absurd (ChatData.data_congr texts hrole ?_) hne
      exact QVariantMap.value_insert_of_ne _ _ hkey

/-- A field with one role is written, and the role is named. -/
theorem insertOne (f : Field) {v : QVariant} (hv : f.kind.read v = v) {role : ChatData.Role}
    (hrole : role.IsOnlyOf f) :
    Updates texts (only f v) chat (chat.insert f.key v, [role]) :=
  insert f hv fun role' _ hkey _ => by rw [hrole role' hkey]; exact List.mem_cons_self

/-- A field is written if its value changes. -/
theorem updateIfChanged (f : Field) {v : QVariant} (hv : f.kind.read v = v) {changed : Prop} [Decidable changed]
    (hchanged : ¬ changed → chat.field f = v) {role : ChatData.Role} (hrole : role.IsOnlyOf f) :
    Updates texts (only f v) chat (chat.updateIfChanged f.key changed v role) := by
  rw [ChatData.updateIfChanged]
  by_cases h : changed
  · rw [if_pos h]
    exact insertOne f hv hrole
  · rw [if_neg h]
    refine ⟨fun f' => ?_, fun role' _ hne => absurd rfl hne⟩
    by_cases hf : f' = f
    · subst hf
      rw [only, if_pos rfl, Option.getD_some, hchanged h]
    · rw [only, if_neg hf, Option.getD_none]

end Updates

/-- The key under which the receiver looks for a field of an update. -/
def sourceKey (f : Field) : String :=
  if f = .profileBackgroundCustomEmojiId then PROFILE_ACCENT_COLOR_ID else f.key

namespace ChatUpdate

/-- What an update says of the fields that stand under the keys. -/
def tells (charSigned : Bool) (keyOf : Field → String) (update : ChatUpdate) (data : QVariantMap) (f : Field) :
    Option QVariant :=
  if f ∈ update.carries then some (f.form charSigned (f.readAt (keyOf f) data)) else none

theorem tells_one {update : ChatUpdate} {f : Field} {charSigned : Bool} {keyOf : Field → String} {data : QVariantMap}
    {v : QVariant} (h : update.carries = [f]) (hv : f.form charSigned (f.readAt (keyOf f) data) = v) (f' : Field) :
    only f v f' = update.tells charSigned keyOf data f' := by
  rw [only, tells, h]
  by_cases hf : f' = f
  · rw [if_pos hf, if_pos (List.mem_singleton.mpr hf), hf, hv]
  · rw [if_neg hf, if_neg (fun hmem => hf (List.mem_singleton.mp hmem))]

end ChatUpdate

namespace ChatData

theorem mem_roleIf {p : Prop} [Decidable p] {role role' : Role} : role ∈ roleIf p role' ↔ role = role' ∧ p := by
  rw [roleIf]
  split_ifs with h
  · rw [List.mem_singleton, and_iff_left h]
  · exact iff_of_false List.not_mem_nil (fun hp => h hp.2)

theorem updates_lastMessage (texts : Texts) (chat : ChatData) (message : QVariantMap) :
    Updates texts (only .lastMessage (.map message)) chat (chat.updateLastMessage texts message) := by
  refine Updates.insert .lastMessage rfl fun role _ hkey hne => ?_
  change (chat.insert LAST_MESSAGE (.map message)).data texts role ≠ chat.data texts role at hne
  simp only [List.mem_append, mem_roleIf]
  cases role <;> first
    | exact absurd hkey (by decide)
    | simp only [reduceCtorEq, false_and, or_false, false_or, true_and, List.mem_singleton]
      intro h
      exact hne (by rw [data, data, h])

theorem updates_draftMessage (texts : Texts) (chat : ChatData) (draftMessage : QVariantMap) :
    Updates texts (only .draftMessage (.map draftMessage)) chat
      (chat.insert DRAFT_MESSAGE (.map draftMessage), [.draftMessageDate, .draftMessageText]) := by
  refine Updates.insert .draftMessage rfl fun role _ hkey _ => ?_
  cases role <;> first
    | exact absurd hkey (by decide)
    | decide

/-- There is no role for the join requests. -/
theorem updates_pendingJoinRequests (texts : Texts) (chat : ChatData) (requests : QVariantMap) :
    Updates texts (only .pendingJoinRequests (.map requests)) chat
      (chat.insert PENDING_JOIN_REQUESTS (.map requests), []) := by
  refine Updates.insert .pendingJoinRequests rfl fun role _ hkey _ => ?_
  cases role <;> exact absurd hkey (by decide)

/-- A number with one role is written, and the role named if the number changes. -/
theorem updates_insert_roleIf (texts : Texts) (chat : ChatData) (f : Field) {v : QVariant} (hv : f.kind.read v = v)
    {role : Role} (hrole : role.IsOnlyOf f) (get : ChatData → Int)
    (hget : ∀ chat' : ChatData, chat'.data texts role = .variant (.longLong (get chat'))) :
    Updates texts (only f v) chat
      (chat.insert f.key v, roleIf (decide (get chat ≠ get (chat.insert f.key v)) = true) role) := by
  refine Updates.insert f hv fun role' _ hkey hne => ?_
  rw [hrole role' hkey] at hne ⊢
  refine mem_roleIf.mpr ⟨rfl, decide_eq_true fun h => hne ?_⟩
  rw [hget, hget, h]

/-- With the roles that changed, the slot for the read messages names the display role. -/
theorem subset_ifNotEmpty (roles : List Role) : roles ⊆ if roles.isEmpty then [] else roles ++ [.display] := by
  cases roles with
  | nil => exact List.Subset.refl _
  | cons role roles => exact List.subset_append_left _ _

/-- A field is written, and its role named, if the value that is read from it changes. -/
theorem updates_updateIfChanged {α : Type} [DecidableEq α] (texts : Texts) (chat : ChatData) (f : Field)
    (get : QVariant → α) (mk : α → QVariant) (hget : ∀ v, f.kind.read v = mk (get v))
    (hmk : ∀ a, get (mk a) = a) {role : Role} (hrole : role.IsOnlyOf f) (value : α) :
    Updates texts (only f (mk value)) chat
      (chat.updateIfChanged f.key (get (chat.chatData.value f.key) ≠ value) (mk value) role) := by
  refine Updates.updateIfChanged f (by rw [hget, hmk]) (fun h => ?_) hrole
  rw [field, Field.read, Field.readAt, hget, Classical.not_not.mp h]

/-- The five fields of the accent colors, one after the other. -/
theorem updateAccentColors_eq (chat : ChatData) (accentColorId : Int) (backgroundCustomEmojiId : String)
    (upgradedGiftColors : QVariantMap) (profileAccentColorId : Int) (profileBackgroundCustomEmojiId : String) :
    chat.updateAccentColors accentColorId backgroundCustomEmojiId upgradedGiftColors profileAccentColorId
        profileBackgroundCustomEmojiId =
      let r1 := chat.updateIfChanged ACCENT_COLOR_ID
        ((chat.chatData.value ACCENT_COLOR_ID).toInt ≠ accentColorId) (.longLong accentColorId) .accentColorId
      let r2 := r1.1.updateIfChanged BACKGROUND_CUSTOM_EMOJI_ID
        ((r1.1.chatData.value BACKGROUND_CUSTOM_EMOJI_ID).toStr ≠ backgroundCustomEmojiId)
        (.string backgroundCustomEmojiId) .backgroundCustomEmojiId
      let r3 := r2.1.updateIfChanged UPGRADED_GIFT_COLORS
        ((r2.1.chatData.value UPGRADED_GIFT_COLORS).toMap ≠ upgradedGiftColors)
        (.map upgradedGiftColors) .upgradedGiftColors
      let r4 := r3.1.updateIfChanged PROFILE_ACCENT_COLOR_ID
        ((r3.1.chatData.value PROFILE_ACCENT_COLOR_ID).toInt ≠ profileAccentColorId)
        (.longLong profileAccentColorId) .profileAccentColorId
      let r5 := r4.1.updateIfChanged PROFILE_BACKGROUND_CUSTOM_EMOJI_ID
        ((r4.1.chatData.value PROFILE_BACKGROUND_CUSTOM_EMOJI_ID).toStr ≠ profileBackgroundCustomEmojiId)
        (.string profileBackgroundCustomEmojiId) .profileBackgroundCustomEmojiId
      (r5.1, r1.2 ++ r2.2 ++ r3.2 ++ r4.2 ++ r5.2) := by
  rw [updateAccentColors]

theorem updates_updateAccentColors (texts : Texts) (chat : ChatData) (accentColorId : Int)
    (backgroundCustomEmojiId : String) (upgradedGiftColors : QVariantMap) (profileAccentColorId : Int)
    (profileBackgroundCustomEmojiId : String) :
    Updates texts
      (fun f => (only .profileBackgroundCustomEmojiId (.string profileBackgroundCustomEmojiId) f).or
        ((only .profileAccentColorId (.longLong profileAccentColorId) f).or
          ((only .upgradedGiftColors (.map upgradedGiftColors) f).or
            ((only .backgroundCustomEmojiId (.string backgroundCustomEmojiId) f).or
              (only .accentColorId (.longLong accentColorId) f))))) chat
      (chat.updateAccentColors accentColorId backgroundCustomEmojiId upgradedGiftColors profileAccentColorId
        profileBackgroundCustomEmojiId) := by
  have h1 := updates_updateIfChanged texts chat .accentColorId QVariant.toInt QVariant.longLong (fun _ => rfl)
    (fun _ => rfl) (.of_key .accentColorId rfl (by decide) (by decide)) accentColorId
  have h2 := h1.andThen (updates_updateIfChanged texts _ .backgroundCustomEmojiId QVariant.toStr QVariant.string
    (fun _ => rfl) (fun _ => rfl) (.of_key .backgroundCustomEmojiId rfl (by decide) (by decide))
    backgroundCustomEmojiId)
  have h3 := h2.andThen (updates_updateIfChanged texts _ .upgradedGiftColors QVariant.toMap QVariant.map
    (fun _ => rfl) (fun _ => rfl) (.of_key .upgradedGiftColors rfl (by decide) (by decide)) upgradedGiftColors)
  have h4 := h3.andThen (updates_updateIfChanged texts _ .profileAccentColorId QVariant.toInt QVariant.longLong
    (fun _ => rfl) (fun _ => rfl) (.of_key .profileAccentColorId rfl (by decide) (by decide)) profileAccentColorId)
  rw [updateAccentColors_eq]
  exact h4.andThen (updates_updateIfChanged texts _ .profileBackgroundCustomEmojiId QVariant.toStr QVariant.string
    (fun _ => rfl) (fun _ => rfl) (.of_key .profileBackgroundCustomEmojiId rfl (by decide) (by decide))
    profileBackgroundCustomEmojiId)

end ChatData

variable (texts : ChatData.Texts) (charSigned : Bool)

/-- The slot behind a handler updates the chat by what the update says, as the receiver reads it. -/
theorem ChatUpdate.handle_process (update : ChatUpdate) (data : QVariantMap) :
    ∃ f : ChatData → ChatData × List ChatData.Role,
      (∀ d : TDLibData, d.handle texts (update.process charSigned data) =
        d.updateChat (data.value CHAT_ID).toLongLong f) ∧
      ∀ chat, Updates texts (update.tells charSigned sourceKey data) chat (f chat) := by
  cases update with
  | chatLastMessage =>
      exact ⟨_, fun _ => rfl, fun chat => (chat.updates_lastMessage texts _).congr (tells_one rfl rfl)⟩
  | chatDraftMessage =>
      exact ⟨_, fun _ => rfl, fun chat => (chat.updates_draftMessage texts _).congr (tells_one rfl rfl)⟩
  | chatReadInbox =>
      refine ⟨_, fun _ => rfl, fun chat => ?_⟩
      have hcount := chat.updates_insert_roleIf texts .unreadCount (v := .longLong (data.value UNREAD_COUNT).toInt) rfl
        (.of_key .unreadCount rfl (by decide) (by decide)) ChatData.unreadCount (fun _ => rfl)
      have hinbox := hcount.andThen (ChatData.updates_insert_roleIf texts _ .lastReadInboxMessageId
        (v := .longLong (data.value LAST_READ_INBOX_MESSAGE_ID).toLongLong) rfl
        (.of_key .lastReadInboxMessageId rfl (by decide) (by decide)) ChatData.lastReadInboxMessageId (fun _ => rfl))
      have htold : Updates texts (tells charSigned sourceKey .chatReadInbox data) chat _ := hinbox.congr fun f => by
        cases f <;> rfl
      exact htold.mono (ChatData.subset_ifNotEmpty _)
  | chatReadOutbox =>
      exact ⟨_, fun _ => rfl, fun chat => (chat.updates_insert_roleIf texts .lastReadOutboxMessageId rfl
        (.of_key .lastReadOutboxMessageId rfl (by decide) (by decide)) ChatData.lastReadOutboxMessageId
        (fun _ => rfl)).congr (tells_one rfl rfl)⟩
  | chatTitle =>
      exact ⟨_, fun _ => rfl, fun chat => (Updates.insertOne .title rfl
        (.of_key .title rfl (by decide) (by decide))).congr (tells_one rfl rfl)⟩
  | chatPhoto =>
      exact ⟨_, fun _ => rfl, fun chat => (Updates.insertOne .photo rfl
        (.of_key .photo rfl (by decide) (by decide))).congr (tells_one rfl rfl)⟩
  | chatPermissions =>
      exact ⟨_, fun _ => rfl, fun chat => (Updates.insertOne .permissions rfl
        (.of_key .permissions rfl (by decide) (by decide))).congr (tells_one rfl rfl)⟩
  | chatNotificationSettings =>
      exact ⟨_, fun _ => rfl, fun chat => (Updates.insertOne .notificationSettings rfl
        (.of_key .notificationSettings rfl (by decide) (by decide))).congr (tells_one rfl rfl)⟩
  | chatIsMarkedAsUnread =>
      exact ⟨_, fun _ => rfl, fun chat => (Updates.insertOne .isMarkedAsUnread rfl
        (.of_key .isMarkedAsUnread rfl (by decide) (by decide))).congr (tells_one rfl rfl)⟩
  | chatUnreadMentionCount | messageMentionRead =>
      exact ⟨_, fun _ => rfl, fun chat => (chat.updates_updateIfChanged texts .unreadMentionCount QVariant.toInt
        QVariant.longLong (fun _ => rfl) (fun _ => rfl)
        (.of_key .unreadMentionCount rfl (by decide) (by decide)) _).congr (tells_one rfl rfl)⟩
  | chatUnreadReactionCount | messageUnreadReactions =>
      exact ⟨_, fun _ => rfl, fun chat => (chat.updates_updateIfChanged texts .unreadReactionCount QVariant.toInt
        QVariant.longLong (fun _ => rfl) (fun _ => rfl)
        (.of_key .unreadReactionCount rfl (by decide) (by decide)) _).congr (tells_one rfl rfl)⟩
  | chatUnreadPollVoteCount | messageContainsUnreadPollVotes =>
      exact ⟨_, fun _ => rfl, fun chat => (chat.updates_updateIfChanged texts .unreadPollVoteCount QVariant.toInt
        QVariant.longLong (fun _ => rfl) (fun _ => rfl)
        (.of_key .unreadPollVoteCount rfl (by decide) (by decide)) _).congr (tells_one rfl rfl)⟩
  | chatAvailableReactions =>
      exact ⟨_, fun _ => rfl, fun chat => (Updates.insertOne .availableReactions rfl
        (.of_key .availableReactions rfl (by decide) (by decide))).congr (tells_one rfl rfl)⟩
  | chatPendingJoinRequests =>
      exact ⟨_, fun _ => rfl, fun chat => (chat.updates_pendingJoinRequests texts _).congr
        (tells_one rfl rfl)⟩
  | chatViewAsTopics =>
      exact ⟨_, fun _ => rfl, fun chat => (Updates.insertOne .viewAsTopics rfl
        (.of_key .viewAsTopics rfl (by decide) (by decide))).congr (tells_one rfl rfl)⟩
  | chatAccentColors =>
      exact ⟨_, fun _ => rfl, fun chat => (chat.updates_updateAccentColors texts _ _ _ _ _).congr fun f => by
        cases f <;> rfl⟩

theorem ChatUpdate.process_chatId (update : ChatUpdate) (data : QVariantMap) :
    (update.process charSigned data).chatId = (data.value CHAT_ID).toLongLong := by
  cases update <;> rfl

/-! ### Documents -/

/-- A document that TDLib sends to the account without a request. -/
structure IsSent (clientId : Int) (data : QVariantMap) : Prop where
  client : (data.value CLIENT_ID).toInt = clientId
  noRequest : requestIdMatch (data.value EXTRA_).toStr = none

structure IsNewChat (clientId chatId : Int) (data : QVariantMap) : Prop extends IsSent clientId data where
  type : (data.value TYPE_).toStr = "updateNewChat"
  id : ((data.value "chat").toMap.value ID).toLongLong = chatId

structure IsUpdate (clientId : Int) (update : ChatUpdate) (data : QVariantMap) : Prop extends IsSent clientId data where
  type : (data.value TYPE_).toStr = update.type

/-- What a document says of a field of the chat, if it carries the field. -/
def carriedValue (chatId : Int) (keyOf : Field → String) (data : QVariantMap) (f : Field) : Option QVariant :=
  if (data.value CHAT_ID).toLongLong = chatId then
    (ChatUpdate.ofType (data.value TYPE_).toStr).bind fun update => update.tells charSigned keyOf data f
  else none

theorem IsSent.route {clientId : Int} {data : QVariantMap} (h : IsSent clientId data) {key : String}
    (hkey : handlerOf (data.value TYPE_).toStr = some key) : route clientId data = .handler key := by
  rw [TDLibReceiver.route, if_neg (not_not_intro h.client), h.noRequest, hkey]

namespace TDLibData

variable (clientId : Int)

/-- What the store holds of a field of a chat. -/
def storedField (d : TDLibData) (chatId : Int) (f : Field) : Option QVariant :=
  (d.getChatData chatId).map fun chat => chat.field f

/-- What a row of the chat shows under a role. -/
def shown (d : TDLibData) (chatId : Int) (role : ChatData.Role) : Option ChatData.RoleValue :=
  (d.getChatData chatId).map fun chat => chat.data texts role

theorem value_updateChat_of_ne (d : TDLibData) {chatId chatId' : Int} (h : chatId' ≠ chatId)
    (f : ChatData → ChatData × List ChatData.Role) :
    (d.updateChat chatId f).1.chats.value chatId' = d.chats.value chatId' := by
  rw [updateChat]
  cases hchat : d.chats.value chatId with
  | none => rfl
  | some chat => exact QHash.value_insert_of_ne _ _ h

theorem updateChat_of_value (d : TDLibData) {chatId : Int} {chat : ChatData} (h : d.chats.value chatId = some chat)
    (f : ChatData → ChatData × List ChatData.Role) :
    d.updateChat chatId f = ({ d with chats := d.chats.insert chatId (f chat).1 }, (f chat).2) := by
  rw [updateChat, h]

variable {clientId} {chatId : Int} {data : QVariantMap}

theorem receive_update {update : ChatUpdate} (h : IsUpdate clientId update data) (d : TDLibData) :
    d.receive texts charSigned clientId data =
      ((d.handle texts (update.process charSigned data)).1,
        (d.handle texts (update.process charSigned data)).2.map fun role =>
          ((data.value CHAT_ID).toLongLong, role)) := by
  have hroute : route clientId data = .handler update.type :=
    h.route (h.type ▸ update.handlerOf_type)
  have hne : update.type ≠ "updateNewChat" := by
    cases update <;> decide
  have hreceive : receiveChat charSigned clientId data = some (update.process charSigned data) := by
    rw [receiveChat, hroute]
    dsimp only
    rw [if_neg hne, update.ofType_type, Option.map_some]
  rw [receive, hreceive, ← update.process_chatId charSigned]

theorem carriedValue_update {update : ChatUpdate} (h : IsUpdate clientId update data) (keyOf : Field → String)
    (f : Field) : carriedValue charSigned (data.value CHAT_ID).toLongLong keyOf data f =
      update.tells charSigned keyOf data f := by
  rw [carriedValue, if_pos rfl, h.type, update.ofType_type, Option.bind_some]

/-- A known chat after a document: what the receiver reads of the document is written, and the roles are named. -/
theorem receive_known {update : ChatUpdate} (h : IsUpdate clientId update data) {d : TDLibData} {chat : ChatData}
    (hchat : d.chats.value chatId = some chat) :
    ∃ chat', (d.receiveStep texts charSigned clientId data).chats.value chatId = some chat' ∧
      (∀ f, chat'.field f = (carriedValue charSigned chatId sourceKey data f).getD (chat.field f)) ∧
      ∀ role, role ≠ .display → chat'.data texts role ≠ chat.data texts role →
        (chatId, role) ∈ (d.receive texts charSigned clientId data).2 := by
  obtain ⟨f, hf, hupdates⟩ := update.handle_process texts charSigned data
  rw [receiveStep, receive_update texts charSigned h, hf]
  by_cases hid : (data.value CHAT_ID).toLongLong = chatId
  · subst hid
    rw [d.updateChat_of_value hchat]
    refine ⟨(f chat).1, QHash.value_insert_self _ _ _, fun field => ?_, fun role hrole hne => ?_⟩
    · rw [carriedValue_update charSigned h, (hupdates chat).fields]
    · exact List.mem_map.mpr ⟨role, (hupdates chat).roles role hrole hne, rfl⟩
  · refine ⟨chat, ?_, fun field => ?_, fun role _ hne => absurd rfl hne⟩
    · exact (d.value_updateChat_of_ne (Ne.symm hid) f).trans hchat
    · rw [carriedValue, if_neg hid, Option.getD_none]

theorem newChatData_chatData (d : TDLibData) (data : QVariantMap) : (d.newChatData data).chatData = data := by
  have hstatus (chat : ChatData) (status : QVariantMap) : (chat.updateUserStatus status).chatData = chat.chatData := by
    rw [ChatData.updateUserStatus]
    split_ifs <;> rfl
  have hgroup (chat : ChatData) (group : Group) : (chat.updateGroup group).chatData = chat.chatData := by
    rw [ChatData.updateGroup]
    split_ifs <;> rfl
  rw [newChatData]
  split <;> rename_i hget <;> split_ifs <;> simp only [hstatus, hgroup]

theorem receive_newChat (h : IsNewChat clientId chatId data) (d : TDLibData) :
    ∃ chat, (d.receiveStep texts charSigned clientId data).chats.value chatId = some chat ∧
      chat.chatData = (data.value "chat").toMap := by
  have hroute : route clientId data = .handler "updateNewChat" :=
    h.route (by rw [h.type]; decide)
  have hreceive : receiveChat charSigned clientId data = some (processUpdateNewChat data) := by
    rw [receiveChat, hroute]
    dsimp only
    rw [if_pos rfl]
  refine ⟨d.newChatData (data.value "chat").toMap, ?_, d.newChatData_chatData _⟩
  rw [receiveStep, receive, hreceive, ← h.id]
  exact QHash.value_insert_self _ _ _

end TDLibData

/-! ### The fold -/

/-- A new chat comes, and updates after it: every field holds what the last update that carries it says, or what
the chat came with, and every change of what a role shows is named. -/
structure IsFold (clientId chatId : Int) (d : TDLibData) (newChat : QVariantMap) (docs : List QVariantMap) : Prop where
  fields : ∀ f, (run (TDLibData.receiveStep texts charSigned clientId) d (newChat :: docs)).storedField chatId f =
    some ((lastOf (fun data => carriedValue charSigned chatId Field.key data f) docs).getD
      (f.read (newChat.value "chat").toMap))
  roles : Along (TDLibData.receiveStep texts charSigned clientId)
    (fun d data => ∀ role, role ≠ .display →
      (d.receiveStep texts charSigned clientId data).shown texts chatId role ≠ d.shown texts chatId role →
      (chatId, role) ∈ (d.receive texts charSigned clientId data).2)
    (d.receiveStep texts charSigned clientId newChat) docs

/-- The document, if it brings the accent colors of the chat. -/
def accentColorsOf (chatId : Int) (data : QVariantMap) : Option QVariantMap :=
  if (data.value CHAT_ID).toLongLong = chatId ∧ (data.value TYPE_).toStr = "updateChatAccentColors" then some data
  else none

section Fold

variable {clientId chatId : Int} {newChat : QVariantMap} {docs : List QVariantMap}

/-- The emoji of a profile comes in no other update. -/
theorem carriedValue_profileBackgroundCustomEmojiId {update : ChatUpdate} {data : QVariantMap}
    (h : IsUpdate clientId update data) (keyOf : Field → String) :
    carriedValue charSigned chatId keyOf data .profileBackgroundCustomEmojiId =
      (accentColorsOf chatId data).map fun data =>
        .string (data.value (keyOf .profileBackgroundCustomEmojiId)).toStr := by
  by_cases hid : (data.value CHAT_ID).toLongLong = chatId
  · subst hid
    rw [TDLibData.carriedValue_update charSigned h, accentColorsOf, h.type]
    simp only [true_and]
    cases update <;> rfl
  · rw [carriedValue, if_neg hid, accentColorsOf, if_neg (fun h => hid h.1), Option.map_none]

/-- What the receiver reads of a field is what the update says of it, except for the emoji of a profile. -/
theorem carriedValue_sourceKey {f : Field} (hf : f ≠ .profileBackgroundCustomEmojiId) (data : QVariantMap) :
    carriedValue charSigned chatId sourceKey data f = carriedValue charSigned chatId Field.key data f := by
  simp only [carriedValue, ChatUpdate.tells, sourceKey, if_neg hf]

/-- A known chat is known after every update. -/
theorem known_step (d : TDLibData) (data : QVariantMap) (hknown : ∃ chat, d.chats.value chatId = some chat)
    (hdata : ∃ update, IsUpdate clientId update data) :
    ∃ chat, (d.receiveStep texts charSigned clientId data).chats.value chatId = some chat := by
  obtain ⟨chat, hchat⟩ := hknown
  obtain ⟨update, hupdate⟩ := hdata
  obtain ⟨chat', hchat', -, -⟩ := TDLibData.receive_known texts charSigned hupdate hchat
  exact ⟨chat', hchat'⟩

theorem storedField_step (chatId : Int) (f : Field) (d : TDLibData) (data : QVariantMap)
    (hknown : ∃ chat, d.chats.value chatId = some chat) (hdata : ∃ update, IsUpdate clientId update data) :
    (∃ chat, (d.receiveStep texts charSigned clientId data).chats.value chatId = some chat) ∧
      (d.receiveStep texts charSigned clientId data).storedField chatId f =
        ((carriedValue charSigned chatId sourceKey data f).map some).getD (d.storedField chatId f) := by
  refine ⟨known_step texts charSigned d data hknown hdata, ?_⟩
  obtain ⟨chat, hchat⟩ := hknown
  obtain ⟨update, hupdate⟩ := hdata
  obtain ⟨chat', hchat', hfields, -⟩ := TDLibData.receive_known texts charSigned hupdate hchat
  rw [TDLibData.storedField, TDLibData.storedField, TDLibData.getChatData, TDLibData.getChatData, hchat, hchat',
    Option.map_some, Option.map_some, hfields]
  cases carriedValue charSigned chatId sourceKey data f <;> rfl

/-- Every field holds what the receiver reads of the last update that carries it. -/
theorem storedField_run (hnew : IsNewChat clientId chatId newChat)
    (hdocs : ∀ data ∈ docs, ∃ update, IsUpdate clientId update data) (d : TDLibData) (f : Field) :
    (run (TDLibData.receiveStep texts charSigned clientId) d (newChat :: docs)).storedField chatId f =
      some ((lastOf (fun data => carriedValue charSigned chatId sourceKey data f) docs).getD
        (f.read (newChat.value "chat").toMap)) := by
  obtain ⟨chat, hchat, hdata⟩ := TDLibData.receive_newChat texts charSigned hnew d
  have hrun := @read_run_of _ _ (TDLibData.receiveStep texts charSigned clientId) _ _ _
    (fun d => d.storedField chatId f) _ (storedField_step texts charSigned chatId f) _ docs ⟨chat, hchat⟩
    (along_of_forall hdocs _)
  rw [run_cons, hrun, lastOf_map, TDLibData.storedField, TDLibData.getChatData, hchat, Option.map_some,
    ChatData.field, hdata]
  cases lastOf (fun data => carriedValue charSigned chatId sourceKey data f) docs <;> rfl

/-- Every role whose value an update changes is named. -/
theorem roles_named (hnew : IsNewChat clientId chatId newChat)
    (hdocs : ∀ data ∈ docs, ∃ update, IsUpdate clientId update data) (d : TDLibData) :
    Along (TDLibData.receiveStep texts charSigned clientId)
      (fun d data => ∀ role, role ≠ .display →
        (d.receiveStep texts charSigned clientId data).shown texts chatId role ≠ d.shown texts chatId role →
        (chatId, role) ∈ (d.receive texts charSigned clientId data).2)
      (d.receiveStep texts charSigned clientId newChat) docs := by
  obtain ⟨chat, hchat, -⟩ := TDLibData.receive_newChat texts charSigned hnew d
  refine Along.mono (I := fun d : TDLibData => ∃ chat, d.chats.value chatId = some chat)
    (known_step texts charSigned) (fun d data hknown hupdate role hrole hne => ?_) ⟨chat, hchat⟩
    (along_of_forall hdocs _)
  obtain ⟨chat, hchat⟩ := hknown
  obtain ⟨update, hupdate⟩ := hupdate
  obtain ⟨chat', hchat', -, hroles⟩ := TDLibData.receive_known texts charSigned hupdate hchat
  refine hroles role hrole fun heq => hne ?_
  rw [TDLibData.shown, TDLibData.shown, TDLibData.getChatData, TDLibData.getChatData, hchat, hchat',
    Option.map_some, Option.map_some, heq]

theorem lastOf_profileBackgroundCustomEmojiId (hdocs : ∀ data ∈ docs, ∃ update, IsUpdate clientId update data)
    (keyOf : Field → String) :
    lastOf (fun data => carriedValue charSigned chatId keyOf data .profileBackgroundCustomEmojiId) docs =
      (lastOf (accentColorsOf chatId) docs).map fun data =>
        .string (data.value (keyOf .profileBackgroundCustomEmojiId)).toStr := by
  rw [← lastOf_map]
  refine lastOf_congr fun data hdata => ?_
  obtain ⟨update, hupdate⟩ := hdocs data hdata
  exact carriedValue_profileBackgroundCustomEmojiId charSigned hupdate keyOf

variable {texts charSigned} in
theorem IsFold.sameText {d : TDLibData} (hfold : IsFold texts charSigned clientId chatId d newChat docs)
    (hnew : IsNewChat clientId chatId newChat) (hdocs : ∀ data ∈ docs, ∃ update, IsUpdate clientId update data) :
    ∀ data ∈ lastOf (accentColorsOf chatId) docs,
      (data.value PROFILE_ACCENT_COLOR_ID).toStr = (data.value PROFILE_BACKGROUND_CUSTOM_EMOJI_ID).toStr := by
  intro data hlast
  have hfield := hfold.fields .profileBackgroundCustomEmojiId
  rw [storedField_run texts charSigned hnew hdocs, lastOf_profileBackgroundCustomEmojiId charSigned hdocs,
    lastOf_profileBackgroundCustomEmojiId charSigned hdocs, hlast] at hfield
  exact QVariant.string.inj (Option.some.inj hfield)

/-- The store is the fold of the updates exactly if the last update of the accent colors of the chat, if there is
one, has one text for the color of the profile and its emoji. -/
theorem isFold_iff (hnew : IsNewChat clientId chatId newChat)
    (hdocs : ∀ data ∈ docs, ∃ update, IsUpdate clientId update data) (d : TDLibData) :
    IsFold texts charSigned clientId chatId d newChat docs ↔
      ∀ data ∈ lastOf (accentColorsOf chatId) docs,
        (data.value PROFILE_ACCENT_COLOR_ID).toStr = (data.value PROFILE_BACKGROUND_CUSTOM_EMOJI_ID).toStr := by
  constructor
  · intro hfold
    exact hfold.sameText hnew hdocs
  · intro hsame
    refine ⟨fun f => ?_, roles_named texts charSigned hnew hdocs d⟩
    rw [storedField_run texts charSigned hnew hdocs]
    by_cases hf : f = .profileBackgroundCustomEmojiId
    · subst hf
      rw [lastOf_profileBackgroundCustomEmojiId charSigned hdocs,
        lastOf_profileBackgroundCustomEmojiId charSigned hdocs]
      cases hlast : lastOf (accentColorsOf chatId) docs with
      | none => rfl
      | some data => exact congrArg (fun text => some (QVariant.string text)) (hsame data hlast)
    · simp only [carriedValue_sourceKey charSigned hf]

end Fold

def noTexts : ChatData.Texts := ⟨fun _ => ""⟩

def emptyStore : TDLibData := .new { ownedStars := 0, ownedNanostars := 0, ownedGrams := 0 }

def newChatDocument : QVariantMap :=
  [(TYPE_, .string "updateNewChat"), ("chat", .map [(ID, .longLong 5), (TITLE, .string "a")]), (CLIENT_ID, .longLong 1)]

theorem isNewChat_newChatDocument : IsNewChat 1 5 newChatDocument := ⟨⟨rfl, rfl⟩, rfl, rfl⟩

def titleDocument : QVariantMap :=
  [(TYPE_, .string "updateChatTitle"), (CHAT_ID, .longLong 5), (TITLE, .string "b"), (CLIENT_ID, .longLong 1)]

theorem isFold_title : IsFold noTexts true 1 5 emptyStore newChatDocument [titleDocument] := by
  refine (isFold_iff noTexts true isNewChat_newChatDocument (fun data hdata => ?_) emptyStore).mpr fun data hlast => ?_
  · rw [List.mem_singleton.mp hdata]
    exact ⟨.chatTitle, ⟨rfl, rfl⟩, rfl⟩
  · cases hlast

/-- The accent colors of a chat without an emoji in its profile. -/
def accentColorsDocument : QVariantMap :=
  [(TYPE_, .string "updateChatAccentColors"), (CHAT_ID, .longLong 5), (ACCENT_COLOR_ID, .longLong 2),
    (BACKGROUND_CUSTOM_EMOJI_ID, .string "0"), (PROFILE_ACCENT_COLOR_ID, .longLong 3),
    (PROFILE_BACKGROUND_CUSTOM_EMOJI_ID, .string "0"), (CLIENT_ID, .longLong 1)]

/-- The number of the color is stored as the emoji. -/
theorem not_isFold : ¬ IsFold noTexts true 1 5 emptyStore newChatDocument [accentColorsDocument] := by
  intro hfold
  have hsame := hfold.sameText isNewChat_newChatDocument (fun data hdata => ⟨.chatAccentColors, by
    rw [List.mem_singleton.mp hdata]
    exact ⟨⟨rfl, rfl⟩, rfl⟩⟩) accentColorsDocument rfl
  exact absurd hsame (by decide)

end Account

end YaqtLib
