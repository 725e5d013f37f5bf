import YaqtLib.NotificationNoise

/-! The notifications of a chat after its title or photo has changed (`notificationmanager.cpp`). The iteration over the
groups of a chat stops at the first, so all of them are reached only where there is one. -/

namespace YaqtLib

open Account Containers Runs TdConst

/-- The file of the small photo. -/
def Account.ChatData.photoFile (chat : Account.ChatData) : Option FileFields :=
  if chat.photoSmall.isEmpty then none else some (fileOf chat.photoSmall)

/-- The small photo, if there is one, is a file that is downloaded or can be. -/
def Account.ChatData.PhotoUsable (chat : Account.ChatData) : Prop :=
  ∀ file ∈ chat.photoFile, file.id = (chat.photoSmall.value ID).toLongLong ∧
    (file.isDownloadingCompleted = true ∨ (file.canBeDownloaded || file.isDownloadingActive) = true)

namespace NotificationManager

/-! ### What a notification shows of its chat -/

/-- The summary is the title of the chat, or has it in it. -/
def ShowsTitle (texts : NotificationTexts) (m : NotificationManager) (notification : PlatformNotification)
    (chat : Account.ChatData) : Prop :=
  let title := Utilities.getChatTitle texts m.data (some chat)
  notification.summary = title ∨
    ∃ n, notification.summary = texts.mentionsIn n title ∨ notification.summary = texts.mentionsFrom n title

/-- The download of the chat's photo is waited for. -/
def Awaits (m : NotificationManager) (chat : Account.ChatData) : Prop :=
  ∃ file ∈ chat.photoFile, m.pendingChatPhotoChats.value file.id = some chat.chatId

/-- Where the photo of the chat is, if it has been downloaded: its data say so, or the manager has been told. -/
def downloadedPath (downloaded : QHash Int String) (chat : Account.ChatData) : Option String :=
  chat.photoFile.bind fun file => if file.isDownloadingCompleted then some file.path else downloaded.value file.id

/-- The downloaded photo is shown. -/
def ShowsPhoto (m : NotificationManager) (downloaded : QHash Int String) (notification : PlatformNotification)
    (chat : Account.ChatData) : Prop :=
  ¬ m.Awaits chat → ∀ path, downloadedPath downloaded chat = some path → notification.iconData = some path

/-- The notification of a group shows the title and the downloaded photo of the chat, if the chat is known. -/
def Shows (texts : NotificationTexts) (m : NotificationManager) (downloaded : QHash Int String) (group : ManagedGroup) :
    Prop :=
  ∀ chat, m.data.getChatData group.chatId = some chat →
    m.ShowsTitle texts group.nemoNotification chat ∧ m.ShowsPhoto downloaded group.nemoNotification chat

/-- All published notifications show their chats. -/
def AllShow (texts : NotificationTexts) (m : NotificationManager) (downloaded : QHash Int String) : Prop :=
  ∀ groupId group, m.notificationGroups.value groupId = some group → group.nemoNotification.replacesId = true →
    m.Shows texts downloaded group

/-- All but one. -/
def OthersShow (texts : NotificationTexts) (m : NotificationManager) (downloaded : QHash Int String) (groupId : Int) :
    Prop :=
  ∀ groupId' group, groupId' ≠ groupId → m.notificationGroups.value groupId' = some group →
    group.nemoNotification.replacesId = true → m.Shows texts downloaded group

def NoCalls (m : NotificationManager) : Prop :=
  ∀ groupId group, m.notificationGroups.value groupId = some group → group.type ≠ .calls

/-- The chats have their ids, and usable photos of their own; no group is of calls. -/
structure ChatsSound (m : NotificationManager) : Prop where
  ids : ∀ k chat, m.data.getChatData k = some chat → chat.chatId = k
  usable : ∀ k chat, m.data.getChatData k = some chat → chat.PhotoUsable
  unshared : ∀ k k' chat chat', m.data.getChatData k = some chat → m.data.getChatData k' = some chat' →
    ∀ file ∈ chat.photoFile, ∀ file' ∈ chat'.photoFile, file.id = file'.id → k = k'
  types : m.NoCalls

variable {texts : NotificationTexts} {m m' : NotificationManager} {downloaded : QHash Int String}

theorem AllShow.others (h : m.AllShow texts downloaded) (groupId : Int) : m.OthersShow texts downloaded groupId :=
  fun groupId' group _ => h groupId' group

/-- The types of the groups have not changed. -/
theorem NoCalls.of_groups (h : m.NoCalls) (hgroups : m'.groupsOf = m.groupsOf) : m'.NoCalls := by
  intro groupId group hgroup
  have hdata : m.groupsOf.value groupId = some group.toNotificationGroup := by
    rw [← hgroups]
    exact congrArg (Option.map ManagedGroup.toNotificationGroup) hgroup
  obtain ⟨group', hgroup', heq⟩ := Option.map_eq_some_iff.mp hdata
  have htype := h groupId group' hgroup'
  rw [heq] at htype
  exact htype

/-- A group is written that is not of calls. -/
theorem NoCalls.insert (h : m.NoCalls) {groupId : Int} {group : ManagedGroup} (htype : group.type ≠ .calls) :
    NoCalls { m with notificationGroups := m.notificationGroups.insert groupId group } := by
  intro groupId' group' hgroup'
  dsimp only at hgroup'
  rw [QHash.value_insert] at hgroup'
  split_ifs at hgroup'
  · obtain rfl := Option.some.inj hgroup'
    exact htype
  · exact h groupId' group' hgroup'

theorem NoCalls.remove (h : m.NoCalls) (groupId : Int) :
    NoCalls { m with notificationGroups := m.notificationGroups.remove groupId } := by
  intro groupId' group' hgroup'
  dsimp only at hgroup'
  rw [QHash.value_remove] at hgroup'
  split_ifs at hgroup'
  exact h groupId' group' hgroup'

/-- The same chats, and the groups of the same types. -/
theorem ChatsSound.of_same (h : m.ChatsSound) (hsame : SameButShown m m') : m'.ChatsSound := by
  refine ⟨?_, ?_, ?_, h.types.of_groups hsame.groups⟩
  · rw [hsame.data]
    exact h.ids
  · rw [hsame.data]
    exact h.usable
  · rw [hsame.data]
    exact h.unshared

/-! ### Filling a notification -/

theorem fill_summary (texts : NotificationTexts) (m : NotificationManager) (notification : PlatformNotification)
    (chat : Option Account.ChatData) (updateChatPhoto : Bool) :
    (fillChatNotificationFields texts m notification chat updateChatPhoto).1.summary =
      Utilities.getChatTitle texts m.data chat := by
  unfold fillChatNotificationFields
  generalize Utilities.getChatTitle texts m.data chat = title
  cases chat with
  | none => rfl
  | some chat =>
      dsimp only
      split_ifs <;> rfl

/-- A photo that is not yet there is waited for. -/
theorem fill_pending (texts : NotificationTexts) (m : NotificationManager) (notification : PlatformNotification)
    (chat : Option Account.ChatData) (updateChatPhoto : Bool) :
    (fillChatNotificationFields texts m notification chat updateChatPhoto).2 = m.pendingChatPhotoChats ∨
      ∃ c ∈ chat, ∃ file ∈ c.photoFile,
        (fillChatNotificationFields texts m notification chat updateChatPhoto).2 =
          m.pendingChatPhotoChats.insert file.id c.chatId := by
  unfold fillChatNotificationFields
  cases chat with
  | none => exact .inl rfl
  | some chat =>
      dsimp only
      split_ifs with hphoto hcompleted hobtainable
      · exact .inl rfl
      · exact .inr ⟨chat, rfl, _, if_neg hphoto.2, rfl⟩
      · exact .inl rfl
      · exact .inl rfl

/-- A usable photo is shown, or waited for. -/
theorem fill_photo {chat : Account.ChatData} (husable : chat.PhotoUsable) (notification : PlatformNotification)
    (hnot : ∀ file ∈ chat.photoFile,
      (fillChatNotificationFields texts m notification (some chat) true).2.value file.id ≠ some chat.chatId)
    {path : String} (hpath : downloadedPath downloaded chat = some path) :
    (fillChatNotificationFields texts m notification (some chat) true).1.iconData = some path := by
  obtain ⟨file, hfile, hpath⟩ := Option.bind_eq_some_iff.mp hpath
  obtain ⟨hne, rfl⟩ : ¬ chat.photoSmall.isEmpty = true ∧ fileOf chat.photoSmall = file := by
    unfold Account.ChatData.photoFile at hfile
    split_ifs at hfile with hempty
    exact ⟨hempty, Option.some.inj hfile⟩
  have hnot := hnot _ hfile
  revert hnot
  unfold fillChatNotificationFields
  dsimp only
  rw [if_pos ⟨rfl, hne⟩]
  split_ifs with hcompleted hobtainable
  · intro _
    rw [if_pos hcompleted] at hpath
    exact hpath
  · intro hnot
    exact absurd (QHash.value_insert_self _ _ _) hnot
  · exact fun _ => absurd (husable _ hfile).2 (not_or.mpr ⟨hcompleted, hobtainable⟩)

theorem fill_icon_kept (texts : NotificationTexts) (m : NotificationManager) (notification : PlatformNotification)
    (chat : Option Account.ChatData) :
    (fillChatNotificationFields texts m notification chat false).1.iconData = notification.iconData ∧
      (fillChatNotificationFields texts m notification chat false).2 = m.pendingChatPhotoChats := by
  unfold fillChatNotificationFields
  cases chat with
  | none => exact ⟨rfl, rfl⟩
  | some chat =>
      dsimp only
      rw [if_neg fun h => Bool.false_ne_true h.1]
      exact ⟨rfl, rfl⟩

/-! ### Publishing a notification -/

theorem setFeedback_kept (settings : NotificationSettings) (notification : PlatformNotification)
    (needFeedback suppressSound : Bool) (soundFilePath : String) :
    (setFeedback settings notification needFeedback suppressSound soundFilePath).summary = notification.summary ∧
      (setFeedback settings notification needFeedback suppressSound soundFilePath).iconData =
        notification.iconData := by
  rw [setFeedback]
  split_ifs <;> exact ⟨rfl, rfl⟩

/-- A group is published with the summary and the icon that it is filled with. -/
theorem publishNotification_shown (texts : NotificationTexts) {groupId : Int} {group : ManagedGroup}
    (hgroup : m.notificationGroups.value groupId = some group) (htype : group.type ≠ .calls)
    (needFeedback suppressSound : Bool) (soundFilePath : String) (updateChatPhoto : Bool) :
    ∃ notification : PlatformNotification,
      publishNotification texts m groupId needFeedback suppressSound soundFilePath updateChatPhoto =
        ({ m with
            pendingChatPhotoChats := (fillChatNotificationFields texts m group.nemoNotification
              (m.data.getChatData group.chatId) updateChatPhoto).2
            notificationGroups :=
              m.notificationGroups.insert groupId { group with nemoNotification := notification } },
          [⟨groupId, notification⟩]) ∧
      notification.summary = mentionsSummary texts group (m.data.getChatData group.chatId)
        (Utilities.getChatTitle texts m.data (m.data.getChatData group.chatId)) ∧
      notification.iconData = (fillChatNotificationFields texts m group.nemoNotification
        (m.data.getChatData group.chatId) updateChatPhoto).1.iconData := by
  unfold publishNotification
  rw [hgroup]
  dsimp only
  rw [if_neg htype]
  refine ⟨_, rfl, ?_, ?_⟩
  · dsimp only
    rw [(setFeedback_kept _ _ _ _ _).1, fill_summary]
  · dsimp only
    rw [(setFeedback_kept _ _ _ _ _).2]

theorem showsTitle_mentionsSummary {notification : PlatformNotification} {group : ManagedGroup} {chat : Account.ChatData}
    (h : notification.summary =
      mentionsSummary texts group (some chat) (Utilities.getChatTitle texts m.data (some chat))) :
    m.ShowsTitle texts notification chat := by
  unfold mentionsSummary at h
  dsimp only at h
  split_ifs at h
  · exact .inr ⟨_, .inl h⟩
  · exact .inr ⟨_, .inr h⟩
  · exact .inl h

/-- **Publication.** A group that is published shows its chat afterwards, and the other notifications go on showing
theirs. -/
theorem publishNotification_allShow (hsound : m.ChatsSound) {groupId : Int}
    (hothers : m.OthersShow texts downloaded groupId) (needFeedback suppressSound : Bool) (soundFilePath : String)
    (updateChatPhoto : Bool)
    (hphoto : updateChatPhoto = false → ∀ group, m.notificationGroups.value groupId = some group →
      ∀ chat, m.data.getChatData group.chatId = some chat → m.ShowsPhoto downloaded group.nemoNotification chat) :
    (publishNotification texts m groupId needFeedback suppressSound soundFilePath updateChatPhoto).1.AllShow texts
      downloaded := by
  cases hgroup : m.notificationGroups.value groupId with
  | none =>
      have hidle : publishNotification texts m groupId needFeedback suppressSound soundFilePath updateChatPhoto =
          (m, []) := by
        unfold publishNotification
        rw [hgroup]
      rw [hidle]
      intro groupId' group hgroup'
      refine hothers groupId' group ?_ hgroup'
      rintro rfl
      rw [hgroup] at hgroup'
      cases hgroup'
  | some group =>
      obtain ⟨notification, heq, hsummary, hicon⟩ := publishNotification_shown texts hgroup
        (hsound.types groupId group hgroup) needFeedback suppressSound soundFilePath updateChatPhoto
      rw [heq]
      intro groupId' group' hgroup' hpublished chat hchat
      dsimp only at hgroup' hchat
      rw [QHash.value_insert] at hgroup'
      split_ifs at hgroup' with hsame
      · -- the group itself
        obtain rfl := Option.some.inj hgroup'
        dsimp only at hchat
        rw [hchat] at hsummary hicon
        refine ⟨showsTitle_mentionsSummary hsummary, fun hawaits path hpath => ?_⟩
        dsimp only
        rw [hicon]
        dsimp only [Awaits] at hawaits
        rw [hchat] at hawaits
        cases updateChatPhoto with
        | true =>
            refine fill_photo (hsound.usable _ chat hchat) _ (fun file hfile hpending => ?_) hpath
            exact hawaits ⟨file, hfile, hpending⟩
        | false =>
            obtain ⟨hkept, hpending⟩ := fill_icon_kept texts m group.nemoNotification (some chat)
            rw [hpending] at hawaits
            rw [hkept]
            exact hphoto rfl group hgroup chat hchat hawaits path hpath
      · -- another group: what is waited for has changed for the chat of the published one at most
        obtain ⟨htitle, hshown⟩ := hothers groupId' group' hsame hgroup' hpublished chat hchat
        refine ⟨htitle, fun hawaits path hpath => hshown (fun hbefore => hawaits ?_) path hpath⟩
        obtain ⟨file, hfile, hpending⟩ := hbefore
        refine ⟨file, hfile, ?_⟩
        dsimp only
        rcases fill_pending texts m group.nemoNotification (m.data.getChatData group.chatId) updateChatPhoto with
          hkept | ⟨c, hc, file', hfile', hinserted⟩
        · rw [hkept]
          exact hpending
        · rw [hinserted, QHash.value_insert]
          split_ifs with hid
          · have hkeys := hsound.unshared _ _ chat c hchat hc file hfile file' hfile' hid
            rw [hsound.ids _ c hc, hsound.ids _ chat hchat, hkeys]
          · exact hpending

end NotificationManager

end YaqtLib
