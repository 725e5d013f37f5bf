import YaqtLib.NotificationChats

/-! Chat changes in runs of `NotificationManager`: as long as the chat that changes has one group, the change reaches
its notification, and all notifications show their chats. -/

namespace YaqtLib

open Account Containers Runs TdConst

namespace NotificationManager

/-! ### The groups of a chat -/

/-- The chat has one group at most. -/
def OneGroup (m : NotificationManager) (chatId : Int) : Prop :=
  ∀ groupId groupId' group group', m.notificationGroups.value groupId = some group →
    m.notificationGroups.value groupId' = some group' → group.chatId = chatId → group'.chatId = chatId →
      groupId = groupId'

/-- The keys of the groups in some order. -/
def ListsGroups (m : NotificationManager) (walk : List Int) : Prop :=
  walk.Nodup ∧ ∀ groupId, groupId ∈ walk ↔ m.notificationGroups.contains groupId = true

/-- The hash is walked as it is. -/
def Walks (m : NotificationManager) : Event → Prop
  | .newChatDiscovered walk _ | .chatTitleUpdated walk _ _ | .chatPhotoUpdated walk _ _
  | .chatPhotoDownloadingCompletedChanged walk _ | .updateAllNotifications walk | .setUseSignalActions walk =>
      m.ListsGroups walk
  | _ => True

/-- The chat whose title or photo an event changes, which it discovers, or whose photo it brings. -/
def changedChat (m : NotificationManager) : Event → Option Int
  | .newChatDiscovered _ chatInformation => some (chatInformation.value ID).toLongLong
  | .chatTitleUpdated _ chatId _ | .chatPhotoUpdated _ chatId _ =>
      if m.data.hasChatData chatId then some chatId else none
  | .chatPhotoDownloadingCompletedChanged _ file =>
      if file.isDownloadingCompleted then
        (m.pendingChatPhotoChats.value file.id).filter fun chatId =>
          (m.data.getChatData chatId).any fun chat => (chat.photoSmall.value ID).toLongLong = file.id
      else none
  | _ => none

/-- Every group of the chat is published, and no other. -/
def Republishes (texts : NotificationTexts) (m : NotificationManager) (e : Event) : Prop :=
  ∀ chatId ∈ m.changedChat e, ∀ groupId, (∃ p ∈ (m.handle texts e).2, p.groupId = groupId) ↔
    ∃ group, m.notificationGroups.value groupId = some group ∧ group.chatId = chatId

/-- The photo that a chat gets is usable, and not that of another chat. -/
def PhotoFits (m : NotificationManager) (chatId : Int) (chat : Account.ChatData) : Prop :=
  chat.PhotoUsable ∧ ∀ k other, m.data.getChatData k = some other → k ≠ chatId →
    ∀ file ∈ chat.photoFile, ∀ file' ∈ other.photoFile, file.id ≠ file'.id

/-- The data with another object of the chat. -/
def writeChat (m : NotificationManager) (chatId : Int) (chat : Account.ChatData) : NotificationManager :=
  { m with data := { m.data with chats := m.data.chats.insert chatId chat } }

variable {texts : NotificationTexts} {m : NotificationManager} {downloaded : QHash Int String} {walk : List Int}
  {chatId : Int}

theorem firstGroupOf_eq_some {groupId : Int} (h : m.firstGroupOf walk chatId = some groupId) :
    ∃ group, m.notificationGroups.value groupId = some group ∧ group.chatId = chatId := by
  have hfound := List.find?_some h
  rw [Option.any_eq_true] at hfound
  obtain ⟨group, hgroup, hchat⟩ := hfound
  exact ⟨group, hgroup, of_decide_eq_true hchat⟩

theorem firstGroupOf_eq_none (hwalk : m.ListsGroups walk) (h : m.firstGroupOf walk chatId = none) {groupId : Int}
    {group : ManagedGroup} (hgroup : m.notificationGroups.value groupId = some group) : group.chatId ≠ chatId := by
  intro hchat
  have hmem := (hwalk.2 groupId).mpr ((QHash.contains_iff _ _).mpr ⟨group, hgroup⟩)
  have hnot := List.find?_eq_none.mp h groupId hmem
  rw [hgroup] at hnot
  simp [hchat] at hnot

/-- **Iteration.** With one group at most, the group at which the iteration stops is all that the chat has. -/
theorem firstGroupOf_eq_some_iff (hwalk : m.ListsGroups walk) (hone : m.OneGroup chatId) (groupId : Int) :
    m.firstGroupOf walk chatId = some groupId ↔
      ∃ group, m.notificationGroups.value groupId = some group ∧ group.chatId = chatId := by
  constructor
  · exact firstGroupOf_eq_some
  · rintro ⟨group, hgroup, hchat⟩
    cases hfirst : m.firstGroupOf walk chatId with
    | none => exact absurd hchat (firstGroupOf_eq_none hwalk hfirst hgroup)
    | some groupId' =>
        obtain ⟨group', hgroup', hchat'⟩ := firstGroupOf_eq_some hfirst
        rw [hone groupId' groupId group' group hgroup' hgroup hchat' hchat]

theorem changedChat_completed_iff {file : FileFields} :
    m.changedChat (.chatPhotoDownloadingCompletedChanged walk file) = some chatId ↔
      file.isDownloadingCompleted = true ∧ m.pendingChatPhotoChats.value file.id = some chatId ∧
        ∃ chat, m.data.getChatData chatId = some chat ∧ (chat.photoSmall.value ID).toLongLong = file.id := by
  change (if file.isDownloadingCompleted then _ else _) = some chatId ↔ _
  split_ifs with hcompleted
  · rw [Option.filter_eq_some_iff, Option.any_eq_true]
    simp only [decide_eq_true_eq, hcompleted, true_and]
  · exact iff_of_false (by rintro ⟨⟩) fun h => hcompleted h.1

theorem changedChat_known_iff {chatId' : Int} :
    (if m.data.hasChatData chatId' then some chatId' else none) = some chatId ↔
      chatId' = chatId ∧ ∃ chat, m.data.getChatData chatId = some chat := by
  split_ifs with hknown
  · rw [Option.some_inj]
    refine (and_iff_left_of_imp fun heq => ?_).symm
    rw [← heq]
    exact (QHash.contains_iff _ _).mp hknown
  · refine iff_of_false (by rintro ⟨⟩) fun ⟨heq, hchat⟩ => hknown ?_
    rw [heq]
    exact (QHash.contains_iff _ _).mpr hchat

/-! ### What is published -/

theorem published_updateNotificationForChat (hcalls : m.NoCalls) (groupId : Int) :
    (∃ p ∈ (updateNotificationForChat texts m walk chatId).2, p.groupId = groupId) ↔
      m.firstGroupOf walk chatId = some groupId := by
  rw [updateNotificationForChat]
  cases hfirst : m.firstGroupOf walk chatId with
  | none => simp
  | some groupId' =>
      obtain ⟨group, hgroup, -⟩ := firstGroupOf_eq_some hfirst
      obtain ⟨notification, hpublished, -⟩ := publishNotification_published texts hgroup (hcalls groupId' group hgroup)
        false false "" true
      dsimp only
      rw [hpublished]
      simp

theorem published_publishIcon {groupId : Int} {group : ManagedGroup}
    (hgroup : m.notificationGroups.value groupId = some group) (path : String) (groupId' : Int) :
    (∃ p ∈ (m.publishIcon groupId path).2, p.groupId = groupId') ↔ groupId = groupId' := by
  rw [publishIcon, hgroup]
  simp

/-- A new value of the title or the photo of a known chat publishes what an update of the chat does. -/
theorem handleChatRolesUpdated_known {field : String} {role : Account.ChatData.Role} (hrole : role = .title ∨ role = .photo)
    {chat : Account.ChatData} (hchat : m.data.getChatData chatId = some chat) (v : QVariant) :
    handleChatRolesUpdated texts { m with data := (Account.TDLibData.updateChatField field role m.data chatId v).1 } walk chatId
        (Account.TDLibData.updateChatField field role m.data chatId v).2 =
      updateNotificationForChat texts (m.writeChat chatId (chat.insert field v)) walk chatId := by
  have hmem : Account.ChatData.Role.title ∈ [role] ∨ Account.ChatData.Role.photo ∈ [role] := by
    rcases hrole with rfl | rfl <;> simp
  unfold Account.TDLibData.updateChatField Account.TDLibData.updateChat
  rw [show m.data.chats.value chatId = some chat from hchat]
  exact if_pos hmem

/-- A chat that changes has the group published at which the iteration stops. -/
theorem published_iff_firstGroupOf (texts : NotificationTexts) (hcalls : m.NoCalls) {e : Event} (hwalk : m.Walks e)
    (hchanged : m.changedChat e = some chatId) :
    ∃ walk, m.ListsGroups walk ∧ ∀ groupId, (∃ p ∈ (m.handle texts e).2, p.groupId = groupId) ↔
      m.firstGroupOf walk chatId = some groupId := by
  cases e with
  | newChatDiscovered walk chatInformation =>
      refine ⟨walk, hwalk, fun groupId => ?_⟩
      rw [← Option.some.inj hchanged]
      exact published_updateNotificationForChat (m := { m with data := m.data.handleNewChatDiscovered _ }) hcalls
        groupId
  | chatTitleUpdated walk chatId' title =>
      obtain ⟨rfl, chat, hchat⟩ := changedChat_known_iff.mp hchanged
      refine ⟨walk, hwalk, fun groupId => ?_⟩
      rw [show m.handle texts (.chatTitleUpdated walk chatId' title) = _ from
        handleChatRolesUpdated_known (.inl rfl) hchat (.string title)]
      exact published_updateNotificationForChat (m := m.writeChat chatId' _) hcalls groupId
  | chatPhotoUpdated walk chatId' photo =>
      obtain ⟨rfl, chat, hchat⟩ := changedChat_known_iff.mp hchanged
      refine ⟨walk, hwalk, fun groupId => ?_⟩
      rw [show m.handle texts (.chatPhotoUpdated walk chatId' photo) = _ from
        handleChatRolesUpdated_known (.inr rfl) hchat (.map photo)]
      exact published_updateNotificationForChat (m := m.writeChat chatId' _) hcalls groupId
  | chatPhotoDownloadingCompletedChanged walk file =>
      obtain ⟨hcompleted, hvalue, chat, hchat, hid⟩ := changedChat_completed_iff.mp hchanged
      refine ⟨walk, hwalk, fun groupId => ?_⟩
      rw [handle, handleChatPhotoDownloadingCompletedChanged, hvalue]
      dsimp only
      rw [if_pos hcompleted, hchat]
      dsimp only
      rw [if_pos hid]
      have hwalked : firstGroupOf { m with pendingChatPhotoChats := m.pendingChatPhotoChats.remove file.id } walk
          chatId = m.firstGroupOf walk chatId := rfl
      rw [hwalked]
      cases hfirst : m.firstGroupOf walk chatId with
      | none => simp
      | some groupId' =>
          obtain ⟨group, hgroup, -⟩ := firstGroupOf_eq_some hfirst
          have hshown := published_publishIcon
            (m := { m with pendingChatPhotoChats := m.pendingChatPhotoChats.remove file.id }) hgroup file.path groupId
          rw [Option.some_inj]
          exact hshown
  | _ => cases hchanged

/-- **Reach.** A change of a chat reaches its groups, and no other, exactly if the chat has one group at most. -/
theorem republishes_iff (texts : NotificationTexts) (hcalls : m.NoCalls) {e : Event} (hwalk : m.Walks e) :
    m.Republishes texts e ↔ ∀ chatId ∈ m.changedChat e, m.OneGroup chatId := by
  unfold Republishes
  refine forall₂_congr fun chatId hchanged => ?_
  obtain ⟨walk, hlists, hpublished⟩ := published_iff_firstGroupOf texts hcalls hwalk hchanged
  constructor
  · intro h groupId groupId' group group' hgroup hgroup' hchat hchat'
    have hfirst := (hpublished groupId).mp ((h groupId).mpr ⟨group, hgroup, hchat⟩)
    have hfirst' := (hpublished groupId').mp ((h groupId').mpr ⟨group', hgroup', hchat'⟩)
    exact Option.some.inj (hfirst.symm.trans hfirst')
  · intro hone groupId
    rw [hpublished, firstGroupOf_eq_some_iff hlists hone]

/-- The notifications of all other chats show their chats. -/
def OtherChatsShow (texts : NotificationTexts) (m : NotificationManager) (downloaded : QHash Int String)
    (chatId : Int) : Prop :=
  ∀ groupId group, m.notificationGroups.value groupId = some group → group.nemoNotification.replacesId = true →
    group.chatId ≠ chatId → m.Shows texts downloaded group

theorem OtherChatsShow.others (h : m.OtherChatsShow texts downloaded chatId) (hone : m.OneGroup chatId) {groupId : Int}
    {group : ManagedGroup} (hgroup : m.notificationGroups.value groupId = some group) (hchat : group.chatId = chatId) :
    m.OthersShow texts downloaded groupId := by
  intro groupId' group' hne hgroup' hpublished
  refine h groupId' group' hgroup' hpublished fun hchat' => ?_
  exact hne (hone groupId' groupId group' group hgroup' hgroup hchat' hchat)

theorem OtherChatsShow.allShow (h : m.OtherChatsShow texts downloaded chatId) (hwalk : m.ListsGroups walk)
    (hnone : m.firstGroupOf walk chatId = none) : m.AllShow texts downloaded :=
  fun groupId group hgroup hpublished => h groupId group hgroup hpublished (firstGroupOf_eq_none hwalk hnone hgroup)

/-- After the update for a chat with one group at most, all notifications show their chats. -/
theorem updateNotificationForChat_allShow (hsound : m.ChatsSound) (hwalk : m.ListsGroups walk)
    (hone : m.OneGroup chatId) (hothers : m.OtherChatsShow texts downloaded chatId) :
    (updateNotificationForChat texts m walk chatId).1.ChatsSound ∧
      (updateNotificationForChat texts m walk chatId).1.AllShow texts downloaded := by
  rw [updateNotificationForChat]
  cases hfirst : m.firstGroupOf walk chatId with
  | none => exact ⟨hsound, hothers.allShow hwalk hfirst⟩
  | some groupId =>
      obtain ⟨group, hgroup, hchat⟩ := firstGroupOf_eq_some hfirst
      exact ⟨hsound.of_same (sameButShown_publishNotification texts m _ _ _ _ _),
        publishNotification_allShow hsound (hothers.others hone hgroup hchat) false false "" true (by rintro ⟨⟩)⟩

/-! ### A chat is written -/

theorem getChatTitle_congr (texts : NotificationTexts) {data data' : Account.TDLibData}
    (h : data'.usersById = data.usersById)
    (chat : Option Account.ChatData) : Utilities.getChatTitle texts data' chat = Utilities.getChatTitle texts data chat := by
  unfold Utilities.getChatTitle Account.TDLibData.getUserInformation
  rw [h]

theorem getChatData_writeChat (m : NotificationManager) (chatId : Int) (chat : Account.ChatData) (k : Int) :
    (m.writeChat chatId chat).data.getChatData k = if k = chatId then some chat else m.data.getChatData k := rfl

theorem ChatsSound.writeChat (h : m.ChatsSound) {chat : Account.ChatData} (hid : chat.chatId = chatId)
    (hfits : m.PhotoFits chatId chat) : (m.writeChat chatId chat).ChatsSound := by
  refine ⟨fun k c hc => ?_, fun k c hc => ?_, fun k k' c c' hc hc' file hfile file' hfile' heq => ?_, h.types⟩
  · rw [getChatData_writeChat] at hc
    split_ifs at hc with hk
    · obtain rfl := Option.some.inj hc
      rw [hid, hk]
    · exact h.ids k c hc
  · rw [getChatData_writeChat] at hc
    split_ifs at hc
    · obtain rfl := Option.some.inj hc
      exact hfits.1
    · exact h.usable k c hc
  · rw [getChatData_writeChat] at hc hc'
    split_ifs at hc hc' with hk hk' hk'
    · rw [hk, hk']
    · obtain rfl := Option.some.inj hc
      exact absurd heq (hfits.2 k' c' hc' hk' file hfile file' hfile')
    · obtain rfl := Option.some.inj hc'
      exact absurd heq.symm (hfits.2 k c hc hk file' hfile' file hfile)
    · exact h.unshared k k' c c' hc hc' file hfile file' hfile' heq

theorem otherChatsShow_writeChat (h : m.AllShow texts downloaded) (chat : Account.ChatData) :
    (m.writeChat chatId chat).OtherChatsShow texts downloaded chatId := by
  intro groupId group hgroup hpublished hne c hc
  rw [getChatData_writeChat, if_neg hne] at hc
  obtain ⟨htitle, hphoto⟩ := h groupId group hgroup hpublished c hc
  refine ⟨?_, hphoto⟩
  have hsame := @getChatTitle_congr texts m.data (m.writeChat chatId chat).data rfl (some c)
  rw [ShowsTitle, hsame]
  exact htitle

/-- What a run keeps. -/
def Refreshed (texts : NotificationTexts) (m : NotificationManager) (downloaded : QHash Int String) : Prop :=
  m.ChatsSound ∧ m.AllShow texts downloaded

/-- A chat with one group at most is written, and its group published. -/
theorem Refreshed.updateWritten (h : m.Refreshed texts downloaded) {chat : Account.ChatData} (hid : chat.chatId = chatId)
    (hfits : m.PhotoFits chatId chat) (hwalk : m.ListsGroups walk) (hone : m.OneGroup chatId) :
    (updateNotificationForChat texts (m.writeChat chatId chat) walk chatId).1.Refreshed texts downloaded :=
  updateNotificationForChat_allShow (m := m.writeChat chatId chat) (h.1.writeChat hid hfits) hwalk hone
    (otherChatsShow_writeChat h.2 chat)

/-! ### What leaves the chats as they are -/

theorem Refreshed.of_same {m' : NotificationManager} (h : m.Refreshed texts downloaded) (hdata : m'.data = m.data)
    (hgroups : m'.notificationGroups = m.notificationGroups)
    (hpending : m'.pendingChatPhotoChats = m.pendingChatPhotoChats) : m'.Refreshed texts downloaded := by
  obtain ⟨⟨hids, husable, hunshared, htypes⟩, hshow⟩ := h
  refine ⟨⟨?_, ?_, ?_, ?_⟩, ?_⟩
  · rw [hdata]
    exact hids
  · rw [hdata]
    exact husable
  · rw [hdata]
    exact hunshared
  · rw [NoCalls, hgroups]
    exact htypes
  · rw [AllShow, hgroups]
    intro groupId group hgroup hpublished
    rw [Shows, hdata]
    intro chat hchat
    obtain ⟨htitle, hphoto⟩ := hshow groupId group hgroup hpublished chat hchat
    refine ⟨?_, ?_⟩
    · rw [ShowsTitle, hdata]
      exact htitle
    · rw [ShowsPhoto, Awaits, hpending]
      exact hphoto

theorem Refreshed.publish (h : m.Refreshed texts downloaded) (groupId : Int) (needFeedback suppressSound : Bool)
    (soundFilePath : String) :
    (publishNotification texts m groupId needFeedback suppressSound soundFilePath true).1.Refreshed texts downloaded :=
  ⟨h.1.of_same (sameButShown_publishNotification texts m _ _ _ _ _),
    publishNotification_allShow h.1 (h.2.others groupId) _ _ _ _ (by rintro ⟨⟩)⟩

theorem ChatsSound.insertGroup (h : m.ChatsSound) {groupId : Int} {group : ManagedGroup} (htype : group.type ≠ .calls) :
    ChatsSound { m with notificationGroups := m.notificationGroups.insert groupId group } :=
  ⟨h.ids, h.usable, h.unshared, h.types.insert htype⟩

theorem othersShow_insertGroup (h : m.AllShow texts downloaded) (groupId : Int) (group : ManagedGroup) :
    OthersShow texts { m with notificationGroups := m.notificationGroups.insert groupId group } downloaded groupId := by
  intro groupId' group' hne hgroup'
  dsimp only at hgroup'
  rw [QHash.value_insert_of_ne _ _ hne] at hgroup'
  exact h groupId' group' hgroup'

/-- A group that is published after it has been written. -/
theorem Refreshed.publishWritten (h : m.Refreshed texts downloaded) {groupId : Int} {group : ManagedGroup}
    (htype : group.type ≠ .calls) (needFeedback suppressSound : Bool) (soundFilePath : String) :
    (publishNotification texts { m with notificationGroups := m.notificationGroups.insert groupId group } groupId
      needFeedback suppressSound soundFilePath true).1.Refreshed texts downloaded :=
  ⟨(h.1.insertGroup htype).of_same (sameButShown_publishNotification texts _ _ _ _ _ _),
    publishNotification_allShow (h.1.insertGroup htype) (othersShow_insertGroup h.2 groupId group) _ _ _ _
      (by rintro ⟨⟩)⟩

/-- An update leaves a group its notification and its chat; a new group has not been published. -/
theorem groupAfter_kept (m : NotificationManager) (u : GroupUpdate) :
    (∀ group, m.notificationGroups.value u.groupId = some group →
      (m.groupAfter u).nemoNotification = group.nemoNotification ∧ (m.groupAfter u).chatId = group.chatId) ∧
    (m.notificationGroups.value u.groupId = none → (m.groupAfter u).nemoNotification = .new) := by
  rw [groupAfter]
  dsimp only
  rw [read_groupAfter NotificationGroup.chatId fun _ _ _ => rfl]
  constructor
  · intro group hgroup
    rw [hgroup]
    exact ⟨rfl, rfl⟩
  · intro hnone
    rw [hnone]

theorem Refreshed.update (h : m.Refreshed texts downloaded) (u : GroupUpdate) (feedback : NotificationFeedback)
    (notificationSoundId : Int) :
    (updateNotificationGroup texts m u feedback notificationSoundId).1.Refreshed texts downloaded := by
  unfold updateNotificationGroup
  dsimp only
  split_ifs with htype hcount hrequest
  · exact h
  · -- the sound is looked up first, and nothing is published
    have hgroupType : (m.groupAfter u).type ≠ .calls := by rwa [groupAfter_type]
    refine ⟨?_, fun groupId group hgroup hpublished => ?_⟩
    · have hinserted : ChatsSound
          { m with notificationGroups := m.notificationGroups.insert u.groupId (m.groupAfter u) } :=
        h.1.insertGroup hgroupType
      exact ⟨hinserted.ids, hinserted.usable, hinserted.unshared, hinserted.types⟩
    · dsimp only at hgroup
      rw [QHash.value_insert] at hgroup
      split_ifs at hgroup with hsame
      · obtain rfl := Option.some.inj hgroup
        obtain ⟨hkept, hnew⟩ := m.groupAfter_kept u
        cases hbefore : m.notificationGroups.value u.groupId with
        | none =>
            rw [hnew hbefore] at hpublished
            cases hpublished
        | some group =>
            obtain ⟨hnotification, hchat⟩ := hkept group hbefore
            rw [hnotification] at hpublished
            rw [Shows, hnotification, hchat]
            exact h.2 u.groupId group hbefore hpublished
      · exact h.2 groupId group hgroup hpublished
  · exact h.publishWritten (by rwa [groupAfter_type]) _ _ _
  · refine ⟨⟨h.1.ids, h.1.usable, h.1.unshared, h.1.types.remove u.groupId⟩, fun groupId group hgroup => ?_⟩
    dsimp only at hgroup
    rw [QHash.value_remove] at hgroup
    split_ifs at hgroup
    exact h.2 groupId group hgroup
  · exact h

/-! ### A photo comes -/

/-- A file that the manager is told of is the photo of one chat at most whose group, the only one, has been published;
a chat that has the photo too shows it already, or its data have the same path. -/
def PhotoReaches (m : NotificationManager) (file : FileFields) (changed : Option Int) : Prop :=
  (∀ chatId ∈ changed, m.OneGroup chatId ∧ ∀ groupId group, m.notificationGroups.value groupId = some group →
    group.chatId = chatId → group.nemoNotification.replacesId = true) ∧
  ∀ k chat, m.data.getChatData k = some chat → ∀ photo ∈ chat.photoFile, photo.id = file.id →
    if photo.isDownloadingCompleted then photo.path = file.path
    else m.pendingChatPhotoChats.value file.id = some k ∨ ∀ groupId group,
      m.notificationGroups.value groupId = some group → group.chatId = k → group.nemoNotification.replacesId = true →
        group.nemoNotification.iconData = some file.path

/-- A chat that does not wait for the file goes on showing its photo when the file has come. -/
theorem showsPhoto_downloaded (hsound : m.ChatsSound) {file : FileFields} {changed : Option Int}
    (hreaches : m.PhotoReaches file changed) {pending : QHash Int Int} {groupId : Int} {group : ManagedGroup}
    (hgroup : m.notificationGroups.value groupId = some group) (hpublished : group.nemoNotification.replacesId = true)
    {chat : Account.ChatData} (hchat : m.data.getChatData group.chatId = some chat)
    (hshown : m.ShowsPhoto downloaded group.nemoNotification chat)
    (hpending : ∀ photo ∈ chat.photoFile, m.pendingChatPhotoChats.value photo.id = some group.chatId →
      pending.value photo.id = some group.chatId) :
    ShowsPhoto { m with pendingChatPhotoChats := pending } (downloaded.insert file.id file.path) group.nemoNotification
      chat := by
  intro hawaits path hpath
  have hid := hsound.ids _ chat hchat
  obtain ⟨photo, hphoto, hpath⟩ := Option.bind_eq_some_iff.mp hpath
  have hnot : ¬ m.Awaits chat := by
    rintro ⟨photo, hphoto, hvalue⟩
    rw [hid] at hvalue
    refine hawaits ⟨photo, hphoto, ?_⟩
    rw [hid]
    exact hpending photo hphoto hvalue
  have hbefore : ∀ path', (if photo.isDownloadingCompleted then some photo.path else downloaded.value photo.id) =
      some path' → group.nemoNotification.iconData = some path' :=
    fun path' h => hshown hnot path' (Option.bind_eq_some_iff.mpr ⟨photo, hphoto, h⟩)
  rw [QHash.value_insert] at hpath
  split_ifs at hpath with hcompleted hsame
  · refine hbefore path ?_
    rw [if_pos hcompleted]
    exact hpath
  · have hreached := hreaches.2 _ chat hchat photo hphoto hsame
    rw [if_neg hcompleted] at hreached
    rcases hreached with hvalue | hicons
    · refine absurd ⟨photo, hphoto, ?_⟩ hnot
      rw [hsame, hid]
      exact hvalue
    · rw [hicons groupId group hgroup rfl hpublished]
      exact hpath
  · refine hbefore path ?_
    rw [if_neg hcompleted]
    exact hpath

/-- The file has come, and no notification changes: no chat with a group has been waiting for it. -/
theorem Refreshed.arrived (h : m.Refreshed texts downloaded) {file : FileFields} {changed : Option Int}
    (hreaches : m.PhotoReaches file changed) {pending : QHash Int Int}
    (hpending : ∀ groupId group, m.notificationGroups.value groupId = some group → ∀ chat,
      m.data.getChatData group.chatId = some chat → ∀ photo ∈ chat.photoFile,
        m.pendingChatPhotoChats.value photo.id = some group.chatId → pending.value photo.id = some group.chatId) :
    Refreshed texts { m with pendingChatPhotoChats := pending } (downloaded.insert file.id file.path) := by
  obtain ⟨hsound, hshow⟩ := h
  refine ⟨⟨hsound.ids, hsound.usable, hsound.unshared, hsound.types⟩, ?_⟩
  intro groupId group hgroup hpublished chat hchat
  obtain ⟨htitle, hphoto⟩ := hshow groupId group hgroup hpublished chat hchat
  refine ⟨htitle, ?_⟩
  exact showsPhoto_downloaded hsound hreaches hgroup hpublished hchat hphoto (hpending groupId group hgroup chat hchat)

/-- The only group of the chat that has waited for the file shows it. -/
theorem Refreshed.publishIcon (h : m.Refreshed texts downloaded) {file : FileFields} {changed : Option Int}
    (hreaches : m.PhotoReaches file changed) (hchanged : changed = some chatId) {groupId : Int} {group : ManagedGroup}
    (hgroup : m.notificationGroups.value groupId = some group) (hchatId : group.chatId = chatId)
    (hvalue : m.pendingChatPhotoChats.value file.id = some chatId) {chat : Account.ChatData}
    (hchat : m.data.getChatData chatId = some chat) (hid : (chat.photoSmall.value ID).toLongLong = file.id) :
    (publishIcon { m with pendingChatPhotoChats := m.pendingChatPhotoChats.remove file.id } groupId
      file.path).1.Refreshed texts (downloaded.insert file.id file.path) := by
  obtain ⟨hsound, hshow⟩ := h
  obtain ⟨hone, hpublished⟩ := hreaches.1 chatId hchanged
  unfold NotificationManager.publishIcon
  dsimp only
  rw [hgroup]
  refine ⟨⟨hsound.ids, hsound.usable, hsound.unshared, hsound.types.insert (hsound.types groupId group hgroup)⟩, ?_⟩
  intro groupId' group' hgroup' hpublished' chat' hchat'
  dsimp only at hgroup' hchat'
  rw [QHash.value_insert] at hgroup'
  split_ifs at hgroup' with hsame
  · -- the group itself: its title has been shown, and its chat's photo is the file
    obtain rfl := Option.some.inj hgroup'
    dsimp only at hchat'
    rw [hchatId, hchat] at hchat'
    obtain rfl := Option.some.inj hchat'
    rw [← hchatId] at hchat
    refine ⟨(hshow groupId group hgroup (hpublished groupId group hgroup hchatId) chat hchat).1, fun _ path hpath => ?_⟩
    obtain ⟨photo, hphoto, hpath⟩ := Option.bind_eq_some_iff.mp hpath
    have hfile : photo.id = file.id := by rw [(hsound.usable _ chat hchat photo hphoto).1, hid]
    have hreached := hreaches.2 _ chat hchat photo hphoto hfile
    change some file.path = some path
    rw [← hpath]
    split_ifs at hreached ⊢
    · rw [hreached]
    · rw [hfile, QHash.value_insert_self]
  · -- the group of another chat
    obtain ⟨htitle, hphoto⟩ := hshow groupId' group' hgroup' hpublished' chat' hchat'
    refine ⟨htitle, ?_⟩
    refine showsPhoto_downloaded hsound hreaches hgroup' hpublished' hchat' hphoto fun photo _ hwaited => ?_
    rw [QHash.value_remove, if_neg]
    · exact hwaited
    · intro hfile
      rw [hfile, hvalue] at hwaited
      exact hsame (hone groupId' groupId group' group hgroup' hgroup (Option.some.inj hwaited).symm hchatId)

/-- **Download.** A completed photo that reaches its chat is shown. -/
theorem Refreshed.completed (h : m.Refreshed texts downloaded) (hwalk : m.ListsGroups walk) {file : FileFields}
    (hcompleted : file.isDownloadingCompleted = true)
    (hreaches : m.PhotoReaches file (m.changedChat (.chatPhotoDownloadingCompletedChanged walk file))) :
    (m.handleChatPhotoDownloadingCompletedChanged walk file).1.Refreshed texts
      (downloaded.insert file.id file.path) := by
  unfold handleChatPhotoDownloadingCompletedChanged
  cases hvalue : m.pendingChatPhotoChats.value file.id with
  | none => exact h.arrived hreaches fun _ _ _ _ _ _ _ hwaited => hwaited
  | some chatId =>
      -- what is forgotten has not been waited for by another chat with a group
      have hforgotten : (∀ groupId group, m.notificationGroups.value groupId = some group → group.chatId = chatId →
          ∀ chat, m.data.getChatData chatId = some chat → (chat.photoSmall.value ID).toLongLong ≠ file.id) →
          Refreshed texts { m with pendingChatPhotoChats := m.pendingChatPhotoChats.remove file.id }
            (downloaded.insert file.id file.path) := by
        intro hnot
        refine h.arrived hreaches fun groupId group hgroup chat hchat photo hphoto hwaited => ?_
        rw [QHash.value_remove, if_neg]
        · exact hwaited
        · intro hfile
          rw [hfile, hvalue] at hwaited
          have hchatId := (Option.some.inj hwaited).symm
          refine hnot groupId group hgroup hchatId chat (by rw [← hchatId, hchat]) ?_
          rw [← (h.1.usable _ chat hchat photo hphoto).1, hfile]
      dsimp only
      rw [if_pos hcompleted]
      cases hchat : m.data.getChatData chatId with
      | none =>
          refine hforgotten fun _ _ _ _ chat hchat' => ?_
          rw [hchat] at hchat'
          cases hchat'
      | some chat =>
          dsimp only
          split_ifs with hid
          · have hwalked : firstGroupOf { m with pendingChatPhotoChats := m.pendingChatPhotoChats.remove file.id } walk
                chatId = m.firstGroupOf walk chatId := rfl
            rw [hwalked]
            cases hfirst : m.firstGroupOf walk chatId with
            | none =>
                refine hforgotten fun groupId group hgroup hchatId => ?_
                exact absurd hchatId (firstGroupOf_eq_none hwalk hfirst hgroup)
            | some groupId =>
                obtain ⟨group, hgroup, hchatId⟩ := firstGroupOf_eq_some hfirst
                have hchanged : m.changedChat (.chatPhotoDownloadingCompletedChanged walk file) = some chatId :=
                  changedChat_completed_iff.mpr ⟨hcompleted, hvalue, chat, hchat, hid⟩
                exact h.publishIcon hreaches hchanged hgroup hchatId hvalue hchat hid
          · refine hforgotten fun _ _ _ _ chat' hchat' => ?_
            rw [hchat] at hchat'
            rw [← Option.some.inj hchat']
            exact hid

end NotificationManager

end YaqtLib
