import YaqtLib.AccountData

/-! The online flag of a chat is a copy of the status of the chat's user. It is refreshed where a status update finds
the chat and where a new chat is made, but not where a user is updated. -/

namespace YaqtLib

namespace Account

open Containers Runs TdConst

/-! ### Users, statuses and their chats -/

namespace ChatData

/-- A private or a secret chat. -/
def HasUser (chat : ChatData) : Prop := chat.chatType = .private_ ∨ chat.chatType = .secret

instance (chat : ChatData) : Decidable chat.HasUser := inferInstanceAs (Decidable (_ ∨ _))

/-- The user that the data of such a chat name. -/
def userIdOf (data : QVariantMap) : Int := ((data.value TYPE).toMap.value USER_ID).toLongLong

def userId (chat : ChatData) : Int := userIdOf chat.chatData

/-- The data are those of a private or a secret chat. -/
def HasUserType (data : QVariantMap) : Prop :=
  let chatType := chatTypeFromString ((data.value TYPE).toMap.value TYPE_).toStr
  chatType = .private_ ∨ chatType = .secret

/-- The chat with another flag. -/
def withOnline (chat : ChatData) (online : Bool) : ChatData := { chat with online := online }

@[simp] theorem online_withOnline (chat : ChatData) (online : Bool) : (chat.withOnline online).online = online := rfl

@[simp] theorem userId_withOnline (chat : ChatData) (online : Bool) :
    (chat.withOnline online).userId = chat.userId := rfl

@[simp] theorem hasUser_withOnline (chat : ChatData) (online : Bool) :
    (chat.withOnline online).HasUser ↔ chat.HasUser := Iff.rfl

end ChatData

/-- The status `userStatusOnline`. -/
def isOnlineStatus (status : QVariantMap) : Bool := (status.value TYPE_).toStr = TYPE_USER_STATUS_ONLINE

namespace TDLibData

/-- The stored status of a user; an unknown user has the empty one. -/
def storedStatus (d : TDLibData) (userId : Int) : QVariantMap := ((d.getUserInformation userId).value STATUS).toMap

end TDLibData

/-- The updates that reach users and the flags of their chats. -/
inductive PresenceEvent where
  | updateUser (user : QVariantMap)
  | updateUserStatus (userId : Int) (status : QVariantMap)
  | updateNewChat (chat : QVariantMap)

namespace PresenceEvent

open TDLibData

def step (d : TDLibData) : PresenceEvent → TDLibData
  | .updateUser user => d.handleUserUpdated user
  | .updateUserStatus userId status => d.handleUserStatusUpdated userId status
  | .updateNewChat chat => d.handleNewChatDiscovered chat

/-- The chats for which `chatRolesUpdated` names `RoleIsOnline`. -/
def announced (d : TDLibData) : PresenceEvent → List Int
  | .updateUserStatus userId status =>
      if (d.getUserInformation userId).value STATUS = .map status then []
      else
        match d.chats.value userId with
        | none => []
        | some chat => if (chat.updateUserStatus status).online ≠ chat.online then [userId] else []
  | _ => []

/-- The flag of every private or secret chat tells whether the stored status of its user is that of an online one. -/
def Coherent (d : TDLibData) : Prop :=
  ∀ id chat, d.chats.value id = some chat → chat.HasUser →
    (chat.online = true ↔ isOnlineStatus (d.storedStatus chat.userId) = true)

/-- Every private or secret chat whose flag the event changes is announced. -/
def Announces (d : TDLibData) (e : PresenceEvent) : Prop :=
  ∀ id chat chat', d.chats.value id = some chat → (step d e).chats.value id = some chat' → chat'.HasUser →
    chat.online ≠ chat'.online → id ∈ announced d e

/-- What an event may do to the flags, told from the store before it. -/
def LeavesFlagsTrue (d : TDLibData) : PresenceEvent → Prop
  -- a user with a chat keeps being online or offline
  | .updateUser user =>
      ∀ id chat, d.chats.value id = some chat → chat.HasUser → chat.userId = (user.value ID).toLongLong →
        isOnlineStatus (user.value STATUS).toMap = isOnlineStatus (d.storedStatus chat.userId)
  -- the chat with the number of the user is the only one of that user, or the user of the others stays as it is
  | .updateUserStatus userId status =>
      (d.getUserInformation userId).value STATUS = .map status ∨
      ∀ id chat, d.chats.value id = some chat → chat.HasUser →
        ((chat.userId = userId ↔ id = userId ∧ status.isEmpty = false) ∨
          isOnlineStatus status = isOnlineStatus (d.storedStatus chat.userId))
  -- the status looked up by the chat's number is that of its user, and a chat that is replaced had the same flag
  | .updateNewChat chat =>
      let id := (chat.value ID).toLongLong
      ChatData.HasUserType chat →
        isOnlineStatus (d.storedStatus id) = isOnlineStatus (d.storedStatus (ChatData.userIdOf chat)) ∧
        ∀ old, d.chats.value id = some old → old.online = isOnlineStatus (d.storedStatus id)

/-! ### What the slots do to the stored statuses -/

theorem isOnlineStatus_of_isEmpty {status : QVariantMap} (h : status.isEmpty = true) :
    isOnlineStatus status = false := by
  rw [List.isEmpty_iff.mp h]
  rfl

theorem online_updateUserStatus (chat : ChatData) (status : QVariantMap) :
    (chat.updateUserStatus status).online = if status.isEmpty then chat.online else isOnlineStatus status := by
  rw [ChatData.updateUserStatus]
  split_ifs <;> rfl

/-- The status is the only thing of a chat that a status update changes. -/
theorem updateUserStatus_eq (chat : ChatData) (status : QVariantMap) :
    chat.updateUserStatus status = chat.withOnline (chat.updateUserStatus status).online := by
  rw [ChatData.updateUserStatus]
  split_ifs <;> rfl

theorem storedStatus_updateUserInformation (d : TDLibData) (userId : Int) (userInformation : QVariantMap)
    (userId' : Int) :
    (d.updateUserInformation userId userInformation).storedStatus userId' =
      if userId' = userId then (userInformation.value STATUS).toMap else d.storedStatus userId' := by
  rw [storedStatus, getUserInformation, updateUserInformation]
  dsimp only
  rw [QHash.value_insert]
  split_ifs <;> rfl

theorem chats_handleUserUpdated (d : TDLibData) (user : QVariantMap) : (d.handleUserUpdated user).chats = d.chats := by
  rw [handleUserUpdated]
  split_ifs <;> rfl

theorem storedStatus_handleUserUpdated (d : TDLibData) (user : QVariantMap) (userId : Int) :
    (d.handleUserUpdated user).storedStatus userId =
      if userId = (user.value ID).toLongLong then (user.value STATUS).toMap else d.storedStatus userId := by
  rw [handleUserUpdated, storedStatus_updateUserInformation]
  split_ifs <;> rfl

theorem storedStatus_storeUserStatus (d : TDLibData) (userId : Int) (status : QVariantMap) (userId' : Int) :
    (d.storeUserStatus userId status).storedStatus userId' =
      if userId' = userId then status else d.storedStatus userId' := by
  rw [storeUserStatus]
  by_cases hsame : (d.getUserInformation userId).value STATUS = .map status
  · rw [if_pos hsame]
    split_ifs with huser
    · rw [huser, storedStatus, hsame]
      rfl
    · rfl
  · rw [if_neg hsame]
    have hinsert := storedStatus_updateUserInformation d userId
      ((d.getUserInformation userId).insert STATUS (.map status)) userId'
    rw [QVariantMap.value_insert_self] at hinsert
    dsimp only
    have hchats : (d.updateUserInformation userId ((d.getUserInformation userId).insert STATUS (.map status))).chats =
        d.chats := rfl
    rw [hchats]
    cases d.chats.value userId with
    | none => exact hinsert
    | some chat => exact hinsert

theorem chats_storeUserStatus (d : TDLibData) (userId : Int) (status : QVariantMap) (id : Int) :
    (d.storeUserStatus userId status).chats.value id =
      if (d.getUserInformation userId).value STATUS ≠ .map status ∧ id = userId then
        (d.chats.value id).map fun chat => chat.updateUserStatus status
      else d.chats.value id := by
  rw [storeUserStatus]
  by_cases hsame : (d.getUserInformation userId).value STATUS = .map status
  · rw [if_pos hsame, if_neg fun h => h.1 hsame]
  · rw [if_neg hsame]
    dsimp only
    have hchats : (d.updateUserInformation userId ((d.getUserInformation userId).insert STATUS (.map status))).chats =
        d.chats := rfl
    rw [hchats]
    by_cases hid : id = userId
    · rw [if_pos ⟨hsame, hid⟩, hid]
      cases hchat : d.chats.value userId with
      | none => exact hchat
      | some chat => exact QHash.value_insert_self ..
    · rw [if_neg fun h => hid h.2]
      cases d.chats.value userId with
      | none => rfl
      | some chat => exact QHash.value_insert_of_ne _ _ hid

/-- The slot writes the user's own data too, which the statuses and the chats do not depend on. -/
theorem storedStatus_handleUserStatusUpdated (d : TDLibData) (userId : Int) (status : QVariantMap) (userId' : Int) :
    (d.handleUserStatusUpdated userId status).storedStatus userId' =
      if userId' = userId then status else d.storedStatus userId' := by
  rw [handleUserStatusUpdated, storedStatus_storeUserStatus]
  split_ifs <;> rfl

theorem chats_handleUserStatusUpdated (d : TDLibData) (userId : Int) (status : QVariantMap) (id : Int) :
    (d.handleUserStatusUpdated userId status).chats.value id =
      if (d.getUserInformation userId).value STATUS ≠ .map status ∧ id = userId then
        (d.chats.value id).map fun chat => chat.updateUserStatus status
      else d.chats.value id := by
  rw [handleUserStatusUpdated, chats_storeUserStatus]
  by_cases hmy : userId = d.myId
  · rw [if_pos hmy]
    rfl
  · rw [if_neg hmy]

theorem chatType_updateGroup (chat : ChatData) (group : Group) : (chat.updateGroup group).chatType = chat.chatType := by
  rw [ChatData.updateGroup]
  split_ifs <;> rfl

theorem chatData_updateGroup (chat : ChatData) (group : Group) : (chat.updateGroup group).chatData = chat.chatData := by
  rw [ChatData.updateGroup]
  split_ifs <;> rfl

theorem newChatData_spec (d : TDLibData) (chat : QVariantMap) :
    (d.newChatData chat).chatType = chatTypeFromString ((chat.value TYPE).toMap.value TYPE_).toStr ∧
      (d.newChatData chat).chatData = chat := by
  have hstatus : ∀ new : ChatData, ∀ status, (new.updateUserStatus status).chatType = new.chatType ∧
      (new.updateUserStatus status).chatData = new.chatData := by
    intro new status
    rw [updateUserStatus_eq]
    exact ⟨rfl, rfl⟩
  rw [newChatData]
  split
  · split_ifs
    · exact hstatus _ _
    · exact ⟨rfl, rfl⟩
  · rw [chatType_updateGroup, chatData_updateGroup]
    split_ifs
    · exact hstatus _ _
    · exact ⟨rfl, rfl⟩

theorem hasUser_newChatData (d : TDLibData) (chat : QVariantMap) :
    (d.newChatData chat).HasUser ↔ ChatData.HasUserType chat := by
  rw [ChatData.HasUser, (newChatData_spec d chat).1, ChatData.HasUserType]

theorem userId_newChatData (d : TDLibData) (chat : QVariantMap) :
    (d.newChatData chat).userId = ChatData.userIdOf chat := by
  rw [ChatData.userId, (newChatData_spec d chat).2]

/-- A new private or secret chat is online if the status looked up by its number is. -/
theorem online_newChatData (d : TDLibData) (chat : QVariantMap) (h : (d.newChatData chat).HasUser) :
    (d.newChatData chat).online = isOnlineStatus (d.storedStatus (chat.value ID).toLongLong) := by
  have hgroup : ∀ superGroup, d.getGroup 0 superGroup = none := fun _ => rfl
  have honline : ∀ new : ChatData, new.online = false →
      (new.updateUserStatus (d.storedStatus (chat.value ID).toLongLong)).online =
        isOnlineStatus (d.storedStatus (chat.value ID).toLongLong) := by
    intro new hnew
    rw [online_updateUserStatus, hnew]
    split_ifs with hempty
    · exact (isOnlineStatus_of_isEmpty hempty).symm
    · rfl
  rw [hasUser_newChatData, ChatData.HasUserType] at h
  rw [newChatData]
  rcases h with h | h
  · rw [h]
    exact honline _ rfl
  · rw [h]
    exact honline _ rfl

/-! ### One update -/

theorem coherent_updateUser_iff {d : TDLibData} (hd : Coherent d) (user : QVariantMap) :
    (Coherent (step d (.updateUser user)) ∧ Announces d (.updateUser user)) ↔ LeavesFlagsTrue d (.updateUser user) := by
  have hchats := chats_handleUserUpdated d user
  constructor
  · rintro ⟨hcoherent, -⟩ id chat hchat huser hid
    have hold := hd id chat hchat huser
    have hnew := hcoherent id chat (by rw [step, hchats]; exact hchat) huser
    rw [step, storedStatus_handleUserUpdated, if_pos hid] at hnew
    rw [Bool.eq_iff_iff, ← hnew, hold]
  · intro hflags
    constructor
    · intro id chat hchat huser
      rw [step, hchats] at hchat
      rw [step, storedStatus_handleUserUpdated]
      split_ifs with hid
      · rw [hflags id chat hchat huser hid]
        exact hd id chat hchat huser
      · exact hd id chat hchat huser
    · intro id chat chat' hchat hchat' _ hne
      rw [step, hchats, hchat] at hchat'
      rw [Option.some.inj hchat'] at hne
      exact absurd rfl hne

/-- The chat of a number after a status update that stores something new: its flag is set if the update finds it. -/
theorem chat_updateUserStatus {d : TDLibData} {userId : Int} {status : QVariantMap}
    (hnew : (d.getUserInformation userId).value STATUS ≠ .map status) (id : Int) :
    (step d (.updateUserStatus userId status)).chats.value id = (d.chats.value id).map fun chat =>
      chat.withOnline (if id = userId ∧ status.isEmpty = false then isOnlineStatus status else chat.online) := by
  rw [step, chats_handleUserStatusUpdated]
  cases d.chats.value id with
  | none => split_ifs <;> rfl
  | some chat =>
      rw [Option.map_some, Option.map_some]
      by_cases hid : id = userId
      · rw [if_pos ⟨hnew, hid⟩, updateUserStatus_eq, online_updateUserStatus]
        cases status.isEmpty with
        | true => rw [if_pos rfl, if_neg fun h => Bool.noConfusion h.2]
        | false => rw [if_neg Bool.false_ne_true, if_pos ⟨hid, rfl⟩]
      · rw [if_neg fun h => hid h.2, if_neg fun h => hid h.1]
        rfl

/-- Every flag a status update changes is announced. -/
theorem announces_updateUserStatus (d : TDLibData) (userId : Int) (status : QVariantMap) :
    Announces d (.updateUserStatus userId status) := by
  intro id chat chat' hchat hchat' _ hne
  rw [step, chats_handleUserStatusUpdated, hchat] at hchat'
  split_ifs at hchat' with hset
  · obtain ⟨hnew, rfl⟩ := hset
    rw [announced, if_neg hnew, hchat]
    dsimp only
    rw [Option.map_some, Option.some_inj] at hchat'
    rw [hchat', if_pos (Ne.symm hne)]
    exact List.mem_singleton_self id
  · rw [Option.some.inj hchat'] at hne
    exact absurd rfl hne

theorem coherent_updateUserStatus_iff {d : TDLibData} (hd : Coherent d) (userId : Int) (status : QVariantMap) :
    Coherent (step d (.updateUserStatus userId status)) ↔ LeavesFlagsTrue d (.updateUserStatus userId status) := by
  have hstored := storedStatus_handleUserStatusUpdated d userId status
  by_cases hsame : (d.getUserInformation userId).value STATUS = .map status
  · refine iff_of_true (fun id chat hchat huser => ?_) (Or.inl hsame)
    rw [step, chats_handleUserStatusUpdated, if_neg fun h => h.1 hsame] at hchat
    have hkeep : (d.handleUserStatusUpdated userId status).storedStatus chat.userId = d.storedStatus chat.userId := by
      rw [hstored]
      split_ifs with hid
      · rw [hid, storedStatus, hsame]
        rfl
      · rfl
    rw [step, hkeep]
    exact hd id chat hchat huser
  rw [LeavesFlagsTrue, or_iff_right hsame, Coherent]
  refine forall_congr' fun id => ?_
  rw [chat_updateUserStatus hsame]
  cases hchat : d.chats.value id with
  | none => simp
  | some chat =>
      have hold := hd id chat hchat
      simp only [Option.map_some, Option.some.injEq, forall_eq', ChatData.hasUser_withOnline,
        ChatData.online_withOnline, ChatData.userId_withOnline]
      refine forall_congr' fun huser => ?_
      have hold := hold huser
      rw [step, hstored]
      by_cases hfound : id = userId ∧ status.isEmpty = false
      · rw [if_pos hfound, iff_true_right hfound]
        by_cases hid : chat.userId = userId
        · rw [if_pos hid]
          exact iff_of_true Iff.rfl (Or.inl hid)
        · rw [if_neg hid, or_iff_right hid]
          exact Bool.eq_iff_iff.symm
      · rw [if_neg hfound, iff_false_right hfound, hold]
        by_cases hid : chat.userId = userId
        · rw [if_pos hid, or_iff_right (not_not_intro hid)]
          exact Iff.comm.trans Bool.eq_iff_iff.symm
        · rw [if_neg hid]
          exact iff_of_true Iff.rfl (Or.inl hid)

/-- What a new chat puts under its number. -/
theorem chats_updateNewChat (d : TDLibData) (chat : QVariantMap) (id : Int) :
    (step d (.updateNewChat chat)).chats.value id =
      if id = (chat.value ID).toLongLong then some (d.newChatData chat) else d.chats.value id :=
  QHash.value_insert ..

theorem coherent_updateNewChat_iff {d : TDLibData} (hd : Coherent d) (chat : QVariantMap) :
    (Coherent (step d (.updateNewChat chat)) ∧ Announces d (.updateNewChat chat)) ↔
      LeavesFlagsTrue d (.updateNewChat chat) := by
  have hchats := chats_updateNewChat d chat
  have hself : (step d (.updateNewChat chat)).chats.value (chat.value ID).toLongLong = some (d.newChatData chat) := by
    rw [hchats, if_pos rfl]
  constructor
  · rintro ⟨hcoherent, hannounces⟩ htype
    have huser := (hasUser_newChatData d chat).mpr htype
    have honline := online_newChatData d chat huser
    constructor
    · rw [Bool.eq_iff_iff, ← honline, ← userId_newChatData d]
      exact hcoherent _ _ hself huser
    · intro old hold
      rw [← honline]
      by_contra hne
      exact List.not_mem_nil (hannounces _ old _ hold hself huser hne)
  · intro hflags
    constructor
    · intro id chat' hchat' huser
      rw [hchats] at hchat'
      split_ifs at hchat' with hid
      · rw [← Option.some.inj hchat'] at huser ⊢
        rw [online_newChatData d chat huser, (hflags ((hasUser_newChatData d chat).mp huser)).1, userId_newChatData]
        rfl
      · exact hd id chat' hchat' huser
    · intro id old chat' hold hchat' huser hne
      rw [hchats] at hchat'
      split_ifs at hchat' with hid
      · rw [← Option.some.inj hchat'] at huser hne
        rw [online_newChatData d chat huser] at hne
        rw [hid] at hold
        exact absurd ((hflags ((hasUser_newChatData d chat).mp huser)).2 old hold) hne
      · rw [hold] at hchat'
        exact absurd (congrArg ChatData.online (Option.some.inj hchat')) hne

theorem coherent_step_iff {d : TDLibData} (hd : Coherent d) (e : PresenceEvent) :
    (Coherent (step d e) ∧ Announces d e) ↔ LeavesFlagsTrue d e := by
  cases e with
  | updateUser user => exact coherent_updateUser_iff hd user
  | updateUserStatus userId status =>
      rw [coherent_updateUserStatus_iff hd, and_iff_left (announces_updateUserStatus d userId status)]
  | updateNewChat chat => exact coherent_updateNewChat_iff hd chat

theorem coherent_new (memory : Uninitialised) : Coherent (TDLibData.new memory) :=
  fun _ _ hchat => absurd hchat (Option.some_ne_none _).symm

/-- **The online flags.** Along a run of user, status and chat updates every state has true flags and every change
of a flag is announced, exactly if each update leaves the flags true. -/
theorem flags_coherent_iff (memory : Uninitialised) (es : List PresenceEvent) :
    Along step (fun d e => Coherent (step d e) ∧ Announces d e) (TDLibData.new memory) es ↔
      Along step LeavesFlagsTrue (TDLibData.new memory) es :=
  @Along.iff_of_keeps _ _ step _ _ Coherent (fun _ e hd => coherent_step_iff hd e) (fun _ _ _ h => h.1) _
    (coherent_new memory) es

/-- A user who comes online with an update of the user leaves the flag of the chat as it was. -/
theorem not_flags_coherent :
    ¬ ∀ (memory : Uninitialised) (es : List PresenceEvent),
      Along step (fun d e => Coherent (step d e) ∧ Announces d e) (TDLibData.new memory) es := by
  intro h
  have hsteps := h { ownedStars := 0, ownedNanostars := 0, ownedGrams := 0 }
    [.updateNewChat [(ID, .longLong 7), (TYPE, .map [(TYPE_, .string "chatTypePrivate"), (USER_ID, .longLong 7)])],
      .updateUser [(ID, .longLong 7), (STATUS, .map [(TYPE_, .string TYPE_USER_STATUS_ONLINE)])]]
  have hflag := (hsteps.2.1.1 7 _ rfl (by decide)).mpr (by decide)
  exact absurd hflag (by decide)

end PresenceEvent

end Account

end YaqtLib
