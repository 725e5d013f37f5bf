import YaqtLib.NotificationRefresh

/-! Runs in which photos are downloaded: which changes of chats reach all their notifications, and the notifications
that show their chats in every state of a run. -/

namespace YaqtLib

open Account Containers Runs TdConst

/-- The manager with the files that it has been told of. -/
structure PhotoSession where
  manager : NotificationManager
  downloaded : QHash Int String

namespace PhotoSession

def downloadedAfter (downloaded : QHash Int String) : NotificationManager.Event → QHash Int String
  | .chatPhotoDownloadingCompletedChanged _ file =>
      if file.isDownloadingCompleted then downloaded.insert file.id file.path else downloaded
  | _ => downloaded

def step (texts : NotificationTexts) (s : PhotoSession) (e : NotificationManager.Event) : PhotoSession :=
  ⟨s.manager.step texts e, downloadedAfter s.downloaded e⟩

def new (memory : Uninitialised) (settings : NotificationSettings) (restored : NotificationManager.RestoredGroups) :
    PhotoSession :=
  ⟨.new memory settings restored, QHash.empty⟩

/-- All published notifications show their chats. -/
def AllShow (texts : NotificationTexts) (s : PhotoSession) : Prop := s.manager.AllShow texts s.downloaded

/-- The hash of the groups is walked as it is. -/
def Walks (s : PhotoSession) (e : NotificationManager.Event) : Prop := s.manager.Walks e

/-- Every group of the chat that changes is published, and no other. -/
def Republishes (texts : NotificationTexts) (s : PhotoSession) (e : NotificationManager.Event) : Prop :=
  s.manager.Republishes texts e

/-- The chat that changes has one group at most. -/
def ChangesOneGroup (s : PhotoSession) (e : NotificationManager.Event) : Prop :=
  ∀ chatId ∈ s.manager.changedChat e, s.manager.OneGroup chatId

/-- A chat that is written has one group at most and gets a photo that can be shown, a file that comes reaches the chats
that have it, and notifications are published without their photos only after they have been published with them. -/
def ReachesAll (s : PhotoSession) : NotificationManager.Event → Prop
  | .newChatDiscovered _ chatInformation =>
      s.manager.OneGroup (chatInformation.value ID).toLongLong ∧
        s.manager.PhotoFits (chatInformation.value ID).toLongLong (s.manager.data.newChatData chatInformation)
  | .chatTitleUpdated _ chatId _ => s.manager.data.hasChatData chatId = true → s.manager.OneGroup chatId
  | .chatPhotoUpdated _ chatId photo => ∀ chat, s.manager.data.getChatData chatId = some chat →
      s.manager.OneGroup chatId ∧ s.manager.PhotoFits chatId (chat.insert PHOTO (.map photo))
  | .chatPhotoDownloadingCompletedChanged walk file => file.isDownloadingCompleted = true →
      s.manager.PhotoReaches file (s.manager.changedChat (.chatPhotoDownloadingCompletedChanged walk file))
  | .setUseSignalActions _ => ∀ groupId group, s.manager.notificationGroups.value groupId = some group →
      group.nemoNotification.replacesId = false → ∀ chat, s.manager.data.getChatData group.chatId = some chat →
        s.manager.ShowsPhoto s.downloaded group.nemoNotification chat
  | _ => True

/-- What a run keeps. -/
def Refreshed (texts : NotificationTexts) (s : PhotoSession) : Prop := s.manager.Refreshed texts s.downloaded

end PhotoSession

namespace NotificationManager

variable {texts : NotificationTexts} {m : NotificationManager} {downloaded : QHash Int String}

/-! ### The chats that are written -/

theorem newChatData_chatId (d : Account.TDLibData) (data : QVariantMap) :
    (d.newChatData data).chatId = (data.value ID).toLongLong := by
  have hstatus : ∀ (chat : Account.ChatData) (status : QVariantMap), (chat.updateUserStatus status).chatId = chat.chatId := by
    intro chat status
    unfold Account.ChatData.updateUserStatus
    split_ifs <;> rfl
  have hgroup : ∀ (chat : Account.ChatData) (group : Group), (chat.updateGroup group).chatId = chat.chatId := by
    intro chat group
    unfold Account.ChatData.updateGroup
    split_ifs <;> rfl
  unfold Account.TDLibData.newChatData
  dsimp only
  split
  · split_ifs
    · exact hstatus _ _
    · rfl
  · rw [hgroup]
    split_ifs
    · exact hstatus _ _
    · rfl

/-- A known chat gets another title or photo; an unknown one is none of the manager's. -/
theorem Refreshed.updateChatField (h : m.Refreshed texts downloaded) {field : String} {role : Account.ChatData.Role}
    (hrole : role = .title ∨ role = .photo) {walk : List Int} (hwalk : m.ListsGroups walk) {chatId : Int} (v : QVariant)
    (hfits : ∀ chat, m.data.getChatData chatId = some chat →
      m.OneGroup chatId ∧ m.PhotoFits chatId (chat.insert field v)) :
    (handleChatRolesUpdated texts { m with data := (Account.TDLibData.updateChatField field role m.data chatId v).1 } walk
      chatId (Account.TDLibData.updateChatField field role m.data chatId v).2).1.Refreshed texts downloaded := by
  cases hchat : m.data.getChatData chatId with
  | none =>
      have hidle : Account.TDLibData.updateChatField field role m.data chatId v = (m.data, []) := by
        unfold Account.TDLibData.updateChatField Account.TDLibData.updateChat
        rw [show m.data.chats.value chatId = none from hchat]
      rw [hidle, handleChatRolesUpdated, if_neg (by simp)]
      exact h
  | some chat =>
      obtain ⟨hone, hphoto⟩ := hfits chat hchat
      have hid : (chat.insert field v).chatId = chatId := h.1.ids chatId chat hchat
      rw [handleChatRolesUpdated_known hrole hchat v]
      exact h.updateWritten hid hphoto hwalk hone

/-- The title does not change the photo. -/
theorem photoFits_title (h : m.ChatsSound) {chatId : Int} {chat : Account.ChatData}
    (hchat : m.data.getChatData chatId = some chat) (v : QVariant) : m.PhotoFits chatId (chat.insert TITLE v) := by
  have hphoto : (chat.insert TITLE v).photoSmall = chat.photoSmall := by
    unfold Account.ChatData.photoSmall Account.ChatData.photo Account.ChatData.insert
    dsimp only
    rw [QVariantMap.value_insert_of_ne _ _ (by decide)]
  have hfile : (chat.insert TITLE v).photoFile = chat.photoFile := by
    unfold Account.ChatData.photoFile
    rw [hphoto]
  constructor
  · intro file hmem
    rw [hfile] at hmem
    rw [hphoto]
    exact h.usable chatId chat hchat file hmem
  · intro k other hother hne file hmem file' hmem' heq
    rw [hfile] at hmem
    exact hne (h.unshared k chatId other chat hother hchat file' hmem' file hmem heq.symm)

/-! ### All notifications are published without their photos -/

/-- What publications without photos keep: groups that have not been published have nothing to lose. -/
def PhotosKept (texts : NotificationTexts) (m : NotificationManager) (downloaded : QHash Int String) : Prop :=
  m.Refreshed texts downloaded ∧ ∀ groupId group, m.notificationGroups.value groupId = some group →
    ∀ chat, m.data.getChatData group.chatId = some chat → m.ShowsPhoto downloaded group.nemoNotification chat

theorem PhotosKept.publish (h : m.PhotosKept texts downloaded) (groupId : Int) :
    (publishNotification texts m groupId false false "" false).1.PhotosKept texts downloaded := by
  obtain ⟨⟨hsound, hshow⟩, hphotos⟩ := h
  refine ⟨⟨hsound.of_same (sameButShown_publishNotification texts m _ _ _ _ _), publishNotification_allShow hsound
    (hshow.others groupId) _ _ _ _ fun _ group hgroup => hphotos groupId group hgroup⟩, ?_⟩
  cases hgroup : m.notificationGroups.value groupId with
  | none =>
      have hidle : publishNotification texts m groupId false false "" false = (m, []) := by
        unfold publishNotification
        rw [hgroup]
      rw [hidle]
      exact hphotos
  | some group =>
      obtain ⟨notification, heq, -, hicon⟩ := publishNotification_shown texts hgroup
        (hsound.types groupId group hgroup) false false "" false
      obtain ⟨hkept, hpending⟩ := fill_icon_kept texts m group.nemoNotification (m.data.getChatData group.chatId)
      rw [heq, hpending]
      intro groupId' group' hgroup' chat hchat
      dsimp only at hgroup' hchat
      rw [QHash.value_insert] at hgroup'
      split_ifs at hgroup'
      · obtain rfl := Option.some.inj hgroup'
        intro hawaits path hpath
        dsimp only
        rw [hicon, hkept]
        exact hphotos groupId group hgroup chat hchat hawaits path hpath
      · exact hphotos groupId' group' hgroup' chat hchat

/-! ### No group is of calls -/

theorem untouched_noCalls : Untouched NoCalls where
  of_same m m' hgroups _ h := by
    rw [NoCalls, hgroups]
    exact h
  write m groupId group group' hgroup htype h := h.insert (by rw [htype]; exact h groupId group hgroup)

theorem NoCalls.update (h : m.NoCalls) (texts : NotificationTexts) (u : GroupUpdate) (feedback : NotificationFeedback)
    (notificationSoundId : Int) : (updateNotificationGroup texts m u feedback notificationSoundId).1.NoCalls := by
  unfold updateNotificationGroup
  dsimp only
  split_ifs with htype
  · exact h
  · exact h.insert (by rwa [groupAfter_type])
  · exact untouched_noCalls.publish texts _ _ _ _ _ (h.insert (by rwa [groupAfter_type]))
  · exact h.remove u.groupId
  · exact h

theorem NoCalls.step (h : m.NoCalls) (texts : NotificationTexts) (e : Event) : (m.step texts e).NoCalls :=
  untouched_noCalls.step texts (fun _ u feedback soundId h => h.update texts u feedback soundId) h e

end NotificationManager

namespace PhotoSession

variable {texts : NotificationTexts} {s : PhotoSession}

/-! ### Steps -/

/-- **Step.** A step that reaches all notifications leaves them with what their chats have. -/
theorem Refreshed.step (h : s.Refreshed texts) {e : NotificationManager.Event} (hwalk : s.Walks e)
    (hreaches : s.ReachesAll e) : (s.step texts e).Refreshed texts := by
  obtain ⟨m, downloaded⟩ := s
  cases e with
  | updateActiveNotifications groups =>
      exact NotificationManager.each_keeps (I := fun m => m.Refreshed texts downloaded)
        (fun m _ hm => hm.update _ _ _) h groups
  | updateNotificationGroup update => exact NotificationManager.Refreshed.update h _ _ _
  | updateNotification groupId notification =>
      rw [PhotoSession.step, NotificationManager.step, NotificationManager.handle,
        NotificationManager.handleUpdateNotification]
      cases hgroup : m.notificationGroups.value groupId with
      | none => exact h
      | some group =>
          have htype : ∀ activeNotifications : QHash Int QVariantMap,
              ({ group with activeNotifications := activeNotifications } : ManagedGroup).type ≠ .calls :=
            fun _ => h.1.types groupId group hgroup
          dsimp only
          split_ifs
          · exact NotificationManager.Refreshed.publishWritten h (htype _) _ _ _
          · exact h
  | soundReply i type sound =>
      rw [PhotoSession.step, NotificationManager.step, NotificationManager.handle]
      cases m.soundRequests[i]? with
      | none => exact h
      | some request =>
          have hless :
              NotificationManager.Refreshed texts { m with soundRequests := m.soundRequests.eraseIdx i } downloaded :=
            NotificationManager.Refreshed.of_same h rfl rfl rfl
          dsimp only
          rw [NotificationManager.handleSoundReply]
          split_ifs
          · exact hless.publish _ _ _ _
          · exact hless.publish _ _ _ _
  | newChatDiscovered walk chatInformation =>
      exact NotificationManager.Refreshed.updateWritten h
        (NotificationManager.newChatData_chatId m.data chatInformation) hreaches.2 hwalk hreaches.1
  | chatTitleUpdated walk chatId title =>
      refine NotificationManager.Refreshed.updateChatField h (.inl rfl) hwalk _ fun chat hchat => ⟨?_, ?_⟩
      · exact hreaches ((QHash.contains_iff _ _).mpr ⟨chat, hchat⟩)
      · exact NotificationManager.photoFits_title h.1 hchat _
  | chatPhotoUpdated walk chatId photo =>
      exact NotificationManager.Refreshed.updateChatField h (.inr rfl) hwalk _ hreaches
  | chatPhotoDownloadingCompletedChanged walk file =>
      by_cases hcompleted : file.isDownloadingCompleted = true
      · have hafter : downloadedAfter downloaded (.chatPhotoDownloadingCompletedChanged walk file) =
            downloaded.insert file.id file.path := if_pos hcompleted
        rw [Refreshed, PhotoSession.step, hafter]
        exact NotificationManager.Refreshed.completed h hwalk hcompleted (hreaches hcompleted)
      · -- the download has been cancelled
        have hafter : downloadedAfter downloaded (.chatPhotoDownloadingCompletedChanged walk file) = downloaded :=
          if_neg hcompleted
        have hidle : m.handleChatPhotoDownloadingCompletedChanged walk file = (m, []) := by
          unfold NotificationManager.handleChatPhotoDownloadingCompletedChanged
          cases m.pendingChatPhotoChats.value file.id with
          | none => rfl
          | some chatId => exact if_neg hcompleted
        rw [Refreshed, PhotoSession.step, hafter, NotificationManager.step, NotificationManager.handle, hidle]
        exact h
  | updateAllNotifications walk =>
      exact NotificationManager.each_keeps (I := fun m => m.Refreshed texts downloaded)
        (fun m groupId hm => hm.publish groupId _ _ _) h walk
  | setUseSignalActions walk =>
      refine (NotificationManager.each_keeps (I := fun m => m.PhotosKept texts downloaded)
        (fun m groupId hm => hm.publish groupId) ⟨h, fun groupId group hgroup chat hchat => ?_⟩ walk).1
      cases hpublished : group.nemoNotification.replacesId with
      | true => exact (h.2 groupId group hgroup hpublished chat hchat).2
      | false => exact hreaches groupId group hgroup hpublished chat hchat
  | setActiveChatId chatId =>
      rw [PhotoSession.step, NotificationManager.step, NotificationManager.handle, NotificationManager.setActiveChatId]
      split_ifs
      · exact NotificationManager.Refreshed.of_same h rfl rfl rfl
      · exact h
  | settingsChanged | setActiveTopicId | applicationStateChanged =>
      exact NotificationManager.Refreshed.of_same h rfl rfl rfl

/-- A step that reaches all notifications changes a chat with one group at most. -/
theorem ReachesAll.changesOneGroup {e : NotificationManager.Event} (h : s.ReachesAll e) : s.ChangesOneGroup e := by
  intro chatId hchanged
  cases e with
  | newChatDiscovered walk chatInformation =>
      rw [← Option.some.inj hchanged]
      exact h.1
  | chatTitleUpdated walk chatId' title =>
      obtain ⟨rfl, hknown⟩ := NotificationManager.changedChat_known_iff.mp hchanged
      exact h ((QHash.contains_iff _ _).mpr hknown)
  | chatPhotoUpdated walk chatId' photo =>
      obtain ⟨rfl, chat, hchat⟩ := NotificationManager.changedChat_known_iff.mp hchanged
      exact (h chat hchat).1
  | chatPhotoDownloadingCompletedChanged walk file =>
      have hcompleted := (NotificationManager.changedChat_completed_iff.mp hchanged).1
      exact ((h hcompleted).1 chatId hchanged).1
  | _ => cases hchanged

theorem new_refreshed (texts : NotificationTexts) (memory : Uninitialised) (settings : NotificationSettings)
    (restored : NotificationManager.RestoredGroups) : (new memory settings restored).Refreshed texts := by
  refine ⟨⟨?_, ?_, ?_, fun groupId group hgroup => (restored.property groupId group hgroup).2.1⟩, ?_⟩
  · rintro k chat ⟨⟩
  · rintro k chat ⟨⟩
  · rintro k k' chat chat' ⟨⟩
  · rintro groupId group - - chat ⟨⟩

/-- **Changes of chats.** In a run, the changes of chats reach all groups of their chats, and no other, exactly if each
changes a chat with one group at most. If all steps reach what they have to, every notification shows the title and the
downloaded photo of its chat in every state. -/
theorem chatChanges_reach_run (texts : NotificationTexts) (memory : Uninitialised) (settings : NotificationSettings)
    (restored : NotificationManager.RestoredGroups) (es : List NotificationManager.Event)
    (hwalks : Along (step texts) Walks (new memory settings restored) es) :
    (Along (step texts) (Republishes texts) (new memory settings restored) es ↔
      Along (step texts) ChangesOneGroup (new memory settings restored) es) ∧
    (Along (step texts) ReachesAll (new memory settings restored) es →
      Along (step texts) (Republishes texts) (new memory settings restored) es ∧
      ∀ es', es' <+: es → AllShow texts (run (step texts) (new memory settings restored) es')) := by
  have hrefreshed := new_refreshed texts memory settings restored
  have hiff : Along (step texts) (Republishes texts) (new memory settings restored) es ↔
      Along (step texts) ChangesOneGroup (new memory settings restored) es := by
    refine Along.iff_of_keeps_of (I := fun s : PhotoSession => s.manager.NoCalls)
      (fun s e hcalls hwalk => NotificationManager.republishes_iff texts hcalls hwalk)
      (fun s e hcalls _ _ => hcalls.step texts e) ?_ hwalks
    exact hrefreshed.1.types
  refine ⟨hiff, fun hreaches => ⟨hiff.mpr ?_, fun es' hes' => ?_⟩⟩
  · exact Along.mono (I := fun _ => True) (fun _ _ _ _ => trivial) (fun _ _ _ h => h.changesOneGroup) trivial hreaches
  · exact (Along.invariant_always (I := fun s => Refreshed texts s) (fun s e hs h => hs.step h.1 h.2) hrefreshed
      (hwalks.and hreaches) es' hes').2

def familyTexts : NotificationTexts :=
  ⟨⟨"", ""⟩, "Unknown chat", fun _ title => "Mentions in " ++ title, fun _ title => "Mentions from " ++ title⟩

def familyGroup (type : NotificationGroupType) (groupId : Int) : ManagedGroup where
  type := type
  notificationGroupId := groupId
  chatId := 7
  totalCount := 1
  activeNotifications := QHash.empty
  notificationOrder := []
  nemoNotification := { PlatformNotification.new with replacesId := true, summary := "Unknown chat" }

theorem restored_insert (restored : NotificationManager.RestoredGroups) {type : NotificationGroupType} (groupId : Int)
    (htype : type ≠ .calls) (groupId' : Int) (group : ManagedGroup)
    (hgroup : (restored.val.insert groupId (familyGroup type groupId)).value groupId' = some group) :
    group.nemoNotification.replacesId = true ∧ group.type ≠ .calls ∧ group.notificationOrder = [] := by
  rw [QHash.value_insert] at hgroup
  split_ifs at hgroup
  · obtain rfl := Option.some.inj hgroup
    exact ⟨rfl, htype, rfl⟩
  · exact restored.property groupId' group hgroup

/-- The messages of a chat. -/
def familyMessages : NotificationManager.RestoredGroups :=
  ⟨QHash.empty.insert 1 (familyGroup .messages 1),
    restored_insert ⟨QHash.empty, by rintro _ _ ⟨⟩⟩ 1 (by rintro ⟨⟩)⟩

def familyChat : QVariantMap := [("id", .longLong 7), ("title", .string "Family")]

theorem oneGroup_of_lists {m : NotificationManager} {groupId : Int} (h : m.ListsGroups [groupId]) (chatId : Int) :
    m.OneGroup chatId := by
  intro groupId' groupId'' group' group'' hgroup' hgroup'' _ _
  have hmem' := List.mem_singleton.mp ((h.2 groupId').mpr ((QHash.contains_iff _ _).mpr ⟨group', hgroup'⟩))
  have hmem'' := List.mem_singleton.mp ((h.2 groupId'').mpr ((QHash.contains_iff _ _).mpr ⟨group'', hgroup''⟩))
  rw [hmem', hmem'']

/-- A chat that has messages only is discovered, and gets another title. -/
theorem chatChanges_reach_messages :
    Along (step familyTexts) (Republishes familyTexts) (new ⟨0, 0, 0⟩ ⟨.all, true, true, true⟩ familyMessages)
        [.newChatDiscovered [1] familyChat, .chatTitleUpdated [1] 7 "Parents"] ∧
      AllShow familyTexts (run (step familyTexts) (new ⟨0, 0, 0⟩ ⟨.all, true, true, true⟩ familyMessages)
        [.newChatDiscovered [1] familyChat, .chatTitleUpdated [1] 7 "Parents"]) := by
  have hlists : (new ⟨0, 0, 0⟩ ⟨.all, true, true, true⟩ familyMessages).manager.ListsGroups [1] := by
    refine ⟨by decide, fun groupId => ?_⟩
    change groupId ∈ [1] ↔ (if groupId = 1 then some _ else none).isSome = true
    split_ifs with h1
    · simp [h1]
    · simp [h1]
  have hlists' : (step familyTexts (new ⟨0, 0, 0⟩ ⟨.all, true, true, true⟩ familyMessages)
      (.newChatDiscovered [1] familyChat)).manager.ListsGroups [1] := by
    refine ⟨by decide, fun groupId => ?_⟩
    change groupId ∈ [1] ↔ (if groupId = 1 then some _ else if groupId = 1 then some _ else none).isSome = true
    split_ifs with h1
    · simp [h1]
    · simp [h1]
  have hphoto : ((Account.TDLibData.new ⟨0, 0, 0⟩).newChatData familyChat).photoFile = none := by decide
  have hfits : (new ⟨0, 0, 0⟩ ⟨.all, true, true, true⟩ familyMessages).manager.PhotoFits 7
      ((Account.TDLibData.new ⟨0, 0, 0⟩).newChatData familyChat) := by
    constructor
    · rw [Account.ChatData.PhotoUsable, hphoto]
      rintro file ⟨⟩
    · rintro k other ⟨⟩
  have hreached := (chatChanges_reach_run familyTexts ⟨0, 0, 0⟩ ⟨.all, true, true, true⟩ familyMessages
    [.newChatDiscovered [1] familyChat, .chatTitleUpdated [1] 7 "Parents"] ⟨hlists, hlists', trivial⟩).2
    ⟨⟨oneGroup_of_lists hlists 7, hfits⟩, fun _ => oneGroup_of_lists hlists' 7, trivial⟩
  exact ⟨hreached.1, hreached.2 _ (List.prefix_refl _)⟩

/-- Its messages and its mentions. -/
def familyGroups : NotificationManager.RestoredGroups :=
  ⟨familyMessages.val.insert 2 (familyGroup .mentions 2), restored_insert familyMessages 2 (by rintro ⟨⟩)⟩

theorem not_showsTitle_family {m : NotificationManager}
    (hdata : m.data.usersById = (Account.TDLibData.new ⟨0, 0, 0⟩).usersById) :
    ¬ m.ShowsTitle familyTexts (familyGroup .mentions 2).nemoNotification
      ((Account.TDLibData.new ⟨0, 0, 0⟩).newChatData familyChat) := by
  have htitle : Utilities.getChatTitle familyTexts (Account.TDLibData.new ⟨0, 0, 0⟩)
      (some ((Account.TDLibData.new ⟨0, 0, 0⟩).newChatData familyChat)) = "Family" := by decide
  rw [NotificationManager.ShowsTitle, (NotificationManager.getChatTitle_congr familyTexts hdata _).trans htitle]
  rintro (hplain | ⟨n, hin | hfrom⟩)
  · exact absurd hplain (by decide)
  · exact absurd (show "Unknown chat" = "Mentions in Family" from hin) (by decide)
  · exact absurd (show "Unknown chat" = "Mentions from Family" from hfrom) (by decide)

/-- After a restart the chat is discovered: its mentions are left as they have been. -/
theorem not_chatChanges_reach_mentions :
    Along (step familyTexts) Walks (new ⟨0, 0, 0⟩ ⟨.all, true, true, true⟩ familyGroups)
        [.newChatDiscovered [1, 2] familyChat] ∧
      ¬ Along (step familyTexts) (Republishes familyTexts) (new ⟨0, 0, 0⟩ ⟨.all, true, true, true⟩ familyGroups)
        [.newChatDiscovered [1, 2] familyChat] ∧
      ¬ AllShow familyTexts (run (step familyTexts) (new ⟨0, 0, 0⟩ ⟨.all, true, true, true⟩ familyGroups)
        [.newChatDiscovered [1, 2] familyChat]) := by
  refine ⟨⟨⟨by decide, fun groupId => ?_⟩, trivial⟩, ?_, fun h => ?_⟩
  · change groupId ∈ [1, 2] ↔ (if groupId = 2 then some _ else if groupId = 1 then some _ else none).isSome = true
    split_ifs with h2 h1
    · simp [h2]
    · simp [h1]
    · simp [h1, h2]
  · rintro ⟨h, -⟩
    obtain ⟨p, hp, hid⟩ := (h 7 rfl 2).mpr ⟨familyGroup .mentions 2, rfl, rfl⟩
    cases hp with
    | head => exact absurd hid (by decide)
    | tail _ hnone => cases hnone
  · refine not_showsTitle_family ?_ (h 2 (familyGroup .mentions 2) rfl rfl _ rfl).1
    rfl

end PhotoSession

end YaqtLib
