import YaqtLib.NotificationManager

/-! What the steps of `NotificationManager` publish, and what they keep: a publication changes the notification of one
group and the photos that are waited for, and an update of a group does with it what `NotificationGroups` does. -/

namespace YaqtLib

open Account Containers Runs TdConst

namespace NotificationManager

variable {m : NotificationManager}

/-! ### What a publication changes -/

/-- The groups without their notifications. -/
def groupsOf (m : NotificationManager) : NotificationGroups :=
  fun groupId => (m.notificationGroups.value groupId).map ManagedGroup.toNotificationGroup

/-- `m'` is `m` but for the notifications of the groups and the photos that are waited for. -/
structure SameButShown (m m' : NotificationManager) : Prop where
  data : m'.data = m.data
  settings : m'.settings = m.settings
  groups : m'.groupsOf = m.groupsOf
  activeChatId : m'.activeChatId = m.activeChatId
  activeTopicId : m'.activeTopicId = m.activeTopicId
  applicationActive : m'.applicationActive = m.applicationActive
  soundRequests : m'.soundRequests = m.soundRequests

namespace SameButShown

theorem refl (m : NotificationManager) : SameButShown m m := ⟨rfl, rfl, rfl, rfl, rfl, rfl, rfl⟩

theorem trans {m' m'' : NotificationManager} (h : SameButShown m m') (h' : SameButShown m' m'') :
    SameButShown m m'' :=
  ⟨h'.data.trans h.data, h'.settings.trans h.settings, h'.groups.trans h.groups, h'.activeChatId.trans h.activeChatId,
    h'.activeTopicId.trans h.activeTopicId, h'.applicationActive.trans h.applicationActive,
    h'.soundRequests.trans h.soundRequests⟩

/-- The notification of one group is written. -/
theorem of_insert {groupId : Int} {group : ManagedGroup} (hgroup : m.notificationGroups.value groupId = some group)
    (notification : PlatformNotification) (pending : QHash Int Int) :
    SameButShown m
      { m with
        pendingChatPhotoChats := pending
        notificationGroups :=
          m.notificationGroups.insert groupId { group with nemoNotification := notification } } := by
  refine ⟨rfl, rfl, ?_, rfl, rfl, rfl, rfl⟩
  funext groupId'
  rw [groupsOf, groupsOf, QHash.value_insert]
  split_ifs with heq
  · rw [heq, hgroup]
    rfl
  · rfl

end SameButShown

theorem sameButShown_publishNotification (texts : NotificationTexts) (m : NotificationManager) (groupId : Int)
    (needFeedback suppressSound : Bool) (soundFilePath : String) (updateChatPhoto : Bool) :
    SameButShown m
      (publishNotification texts m groupId needFeedback suppressSound soundFilePath updateChatPhoto).1 := by
  unfold publishNotification
  cases hgroup : m.notificationGroups.value groupId with
  | none => exact SameButShown.refl m
  | some group =>
      dsimp only
      split_ifs
      · exact SameButShown.of_insert hgroup _ _
      · exact SameButShown.of_insert hgroup _ _

/-- The group is shown with feedback if feedback is needed. -/
def ShowsFeedback (m : NotificationManager) (group : ManagedGroup) : Prop :=
  group.type = .secretChat ∨ m.messageFromActiveChat group.chatId (lastMessage group) = false

/-- **Publication.** What is published has feedback if it is needed and the message is not from the active chat, and
then its sound is suppressed if the sounds are off and it is to be suppressed. -/
theorem publishNotification_published (texts : NotificationTexts) {groupId : Int} {group : ManagedGroup}
    (hgroup : m.notificationGroups.value groupId = some group) (htype : group.type ≠ .calls)
    (needFeedback suppressSound : Bool) (soundFilePath : String) (updateChatPhoto : Bool) :
    ∃ notification : PlatformNotification,
      (publishNotification texts m groupId needFeedback suppressSound soundFilePath updateChatPhoto).2 =
        [⟨groupId, notification⟩] ∧
      (notification.vibra = true ↔ needFeedback = true ∧ m.ShowsFeedback group) ∧
      (notification.vibra = true →
        notification.suppressSound = (!m.settings.notificationSoundsEnabled && suppressSound)) := by
  unfold publishNotification
  rw [hgroup]
  dsimp only
  rw [if_neg htype]
  refine ⟨_, rfl, ?_⟩
  have hshows : (needFeedback && !(decide (group.type ≠ .secretChat) &&
      m.messageFromActiveChat group.chatId (lastMessage group))) = true ↔
      needFeedback = true ∧ m.ShowsFeedback group := by
    rw [ShowsFeedback, Bool.and_eq_true, Bool.not_eq_true', Bool.and_eq_false_iff, decide_eq_false_iff_not, not_not]
  dsimp only
  rw [setFeedback]
  split_ifs with hfeedback
  · exact ⟨iff_of_true rfl (hshows.mp hfeedback), fun _ => rfl⟩
  · exact ⟨iff_of_false Bool.false_ne_true fun h => hfeedback (hshows.mpr h), fun h => absurd h Bool.false_ne_true⟩

theorem publishNotification_of_not_published (texts : NotificationTexts) (m : NotificationManager) {groupId : Int}
    (h : ∀ group, m.notificationGroups.value groupId = some group → group.type = .calls)
    (needFeedback suppressSound : Bool) (soundFilePath : String) (updateChatPhoto : Bool) :
    (publishNotification texts m groupId needFeedback suppressSound soundFilePath updateChatPhoto).2 = [] := by
  unfold publishNotification
  cases hgroup : m.notificationGroups.value groupId with
  | none => rfl
  | some group =>
      dsimp only
      rw [if_pos (h group hgroup)]

/-- No feedback is needed, none is given. -/
theorem silent_publishNotification (texts : NotificationTexts) (m : NotificationManager) (groupId : Int)
    (suppressSound : Bool) (soundFilePath : String) (updateChatPhoto : Bool) :
    ∀ p ∈ (publishNotification texts m groupId false suppressSound soundFilePath updateChatPhoto).2,
      p.notification.vibra = false := by
  intro p hp
  by_cases h : ∀ group, m.notificationGroups.value groupId = some group → group.type = .calls
  · rw [publishNotification_of_not_published texts m h] at hp
    cases hp
  · push Not at h
    obtain ⟨group, hgroup, htype⟩ := h
    obtain ⟨notification, hpublished, hvibra, -⟩ := publishNotification_published texts hgroup htype false
      suppressSound soundFilePath updateChatPhoto
    rw [hpublished] at hp
    rw [List.mem_singleton.mp hp, Bool.eq_false_iff]
    exact fun htrue => Bool.false_ne_true (hvibra.mp htrue).1

theorem silent_updateNotificationForChat (texts : NotificationTexts) (m : NotificationManager) (walk : List Int)
    (chatId : Int) : ∀ p ∈ (updateNotificationForChat texts m walk chatId).2, p.notification.vibra = false := by
  rw [updateNotificationForChat]
  cases m.firstGroupOf walk chatId with
  | none => exact fun p hp => absurd hp List.not_mem_nil
  | some groupId => exact silent_publishNotification texts m groupId _ _ _

theorem silent_handleChatRolesUpdated (texts : NotificationTexts) (m : NotificationManager) (walk : List Int)
    (chatId : Int) (changedRoles : List Account.ChatData.Role) :
    ∀ p ∈ (handleChatRolesUpdated texts m walk chatId changedRoles).2, p.notification.vibra = false := by
  rw [handleChatRolesUpdated]
  split_ifs
  · exact silent_updateNotificationForChat texts m walk chatId
  · exact fun p hp => absurd hp List.not_mem_nil

theorem silent_publishIcon (m : NotificationManager) (groupId : Int) (path : String) :
    ∀ p ∈ (m.publishIcon groupId path).2, p.notification.vibra = false := by
  rw [publishIcon]
  cases m.notificationGroups.value groupId with
  | none => exact fun p hp => absurd hp List.not_mem_nil
  | some group =>
      intro p hp
      rw [List.mem_singleton.mp hp]
      rfl

/-- What every publication of a step meets, those of all steps meet. -/
theorem each_published {α : Type} {f : NotificationManager → α → NotificationManager × List Publication}
    {P : Publication → Prop} (hf : ∀ m x, ∀ p ∈ (f m x).2, P p) (m : NotificationManager) (xs : List α) :
    ∀ p ∈ (each f m xs).2, P p := by
  induction xs generalizing m with
  | nil => exact fun p hp => absurd hp List.not_mem_nil
  | cons x xs ih =>
      intro p hp
      rcases List.mem_append.mp hp with hp | hp
      · exact hf m x p hp
      · exact ih (f m x).1 p hp

/-- What every step keeps, all keep. -/
theorem each_keeps {α : Type} {f : NotificationManager → α → NotificationManager × List Publication}
    {I : NotificationManager → Prop} (hf : ∀ m x, I m → I (f m x).1) {m : NotificationManager} (hm : I m)
    (xs : List α) : I (each f m xs).1 := by
  induction xs generalizing m with
  | nil => exact hm
  | cons x xs ih => exact ih (hf m x hm)

/-! ### What every step keeps -/

/-- A property that a written group of the same type leaves as it is, and all that is neither a group nor a new
request. -/
structure Untouched (I : NotificationManager → Prop) : Prop where
  of_same : ∀ m m' : NotificationManager, m'.notificationGroups = m.notificationGroups →
    (∀ request ∈ m'.soundRequests, request ∈ m.soundRequests) → I m → I m'
  write : ∀ (m : NotificationManager) (groupId : Int) (group group' : ManagedGroup),
    m.notificationGroups.value groupId = some group → group'.type = group.type → I m →
      I { m with notificationGroups := m.notificationGroups.insert groupId group' }

namespace Untouched

variable {I : NotificationManager → Prop}

theorem of_eq {m' : NotificationManager} (h : Untouched I) (hgroups : m'.notificationGroups = m.notificationGroups)
    (hrequests : m'.soundRequests = m.soundRequests) (hm : I m) : I m' := by
  refine h.of_same m m' hgroups (fun request hmem => ?_) hm
  rwa [hrequests] at hmem

theorem publish (h : Untouched I) (texts : NotificationTexts) (groupId : Int) (needFeedback suppressSound : Bool)
    (soundFilePath : String) (updateChatPhoto : Bool) (hm : I m) :
    I (publishNotification texts m groupId needFeedback suppressSound soundFilePath updateChatPhoto).1 := by
  unfold publishNotification
  cases hgroup : m.notificationGroups.value groupId with
  | none => exact hm
  | some group =>
      dsimp only
      split_ifs
      · exact h.of_eq (m := { m with notificationGroups := _ }) rfl rfl (h.write m groupId group _ hgroup rfl hm)
      · exact h.of_eq (m := { m with notificationGroups := _ }) rfl rfl (h.write m groupId group _ hgroup rfl hm)

theorem updateForChat (h : Untouched I) (texts : NotificationTexts) (walk : List Int) (chatId : Int) (hm : I m) :
    I (updateNotificationForChat texts m walk chatId).1 := by
  rw [updateNotificationForChat]
  cases m.firstGroupOf walk chatId with
  | none => exact hm
  | some groupId => exact h.publish texts groupId _ _ _ _ hm

theorem rolesUpdated (h : Untouched I) (texts : NotificationTexts) (walk : List Int) (chatId : Int)
    (changedRoles : List Account.ChatData.Role) (hm : I m) :
    I (handleChatRolesUpdated texts m walk chatId changedRoles).1 := by
  rw [handleChatRolesUpdated]
  split_ifs
  · exact h.updateForChat texts walk chatId hm
  · exact hm

theorem publishIcon (h : Untouched I) (groupId : Int) (path : String) (hm : I m) :
    I (m.publishIcon groupId path).1 := by
  rw [NotificationManager.publishIcon]
  cases hgroup : m.notificationGroups.value groupId with
  | none => exact hm
  | some group => exact h.write m groupId group _ hgroup rfl hm

theorem photoCompleted (h : Untouched I) (walk : List Int) (file : FileFields) (hm : I m) :
    I (m.handleChatPhotoDownloadingCompletedChanged walk file).1 := by
  rw [handleChatPhotoDownloadingCompletedChanged]
  cases m.pendingChatPhotoChats.value file.id with
  | none => exact hm
  | some chatId =>
      have hless : I { m with pendingChatPhotoChats := m.pendingChatPhotoChats.remove file.id } :=
        h.of_eq (m := m) rfl rfl hm
      dsimp only
      split_ifs
      · cases m.data.getChatData chatId with
        | none => exact hless
        | some chat =>
            dsimp only
            split_ifs
            · split
              · exact hless
              · exact h.publishIcon _ _ hless
            · exact hless
      · exact hm

/-- **Steps.** What the updates of groups keep besides, every step keeps. -/
theorem step (h : Untouched I) (texts : NotificationTexts)
    (hupdate : ∀ (m : NotificationManager) (u : GroupUpdate) (feedback : NotificationFeedback) (soundId : Int),
      I m → I (updateNotificationGroup texts m u feedback soundId).1) (hm : I m) (e : Event) : I (m.step texts e) := by
  rw [NotificationManager.step]
  cases e with
  | updateActiveNotifications groups => exact each_keeps (fun m _ hm => hupdate m _ _ _ hm) hm groups
  | updateNotificationGroup update => exact hupdate m _ _ _ hm
  | updateNotification groupId notification =>
      rw [handle, handleUpdateNotification]
      cases hgroup : m.notificationGroups.value groupId with
      | none => exact hm
      | some group =>
          dsimp only
          split_ifs
          · refine h.publish texts groupId _ _ _ _ ?_
            exact h.write m groupId group _ hgroup rfl hm
          · exact hm
  | soundReply i type sound =>
      rw [handle]
      cases m.soundRequests[i]? with
      | none => exact hm
      | some request =>
          have hless : I { m with soundRequests := m.soundRequests.eraseIdx i } :=
            h.of_same m _ rfl (fun _ hmem => List.mem_of_mem_eraseIdx hmem) hm
          dsimp only
          rw [handleSoundReply]
          split_ifs
          · exact h.publish texts _ _ _ _ _ hless
          · exact h.publish texts _ _ _ _ _ hless
  | newChatDiscovered walk chatInformation => exact h.updateForChat texts walk _ (h.of_eq (m := m) rfl rfl hm)
  | chatTitleUpdated walk chatId title => exact h.rolesUpdated texts walk chatId _ (h.of_eq (m := m) rfl rfl hm)
  | chatPhotoUpdated walk chatId photo => exact h.rolesUpdated texts walk chatId _ (h.of_eq (m := m) rfl rfl hm)
  | chatPhotoDownloadingCompletedChanged walk file => exact h.photoCompleted walk file hm
  | updateAllNotifications walk => exact each_keeps (fun m _ hm => h.publish texts _ _ _ _ _ hm) hm walk
  | setUseSignalActions walk => exact each_keeps (fun m _ hm => h.publish texts _ _ _ _ _ hm) hm walk
  | setActiveChatId chatId =>
      rw [handle, NotificationManager.setActiveChatId]
      split_ifs
      · exact h.of_eq (m := m) rfl rfl hm
      · exact hm
  | settingsChanged | setActiveTopicId | applicationStateChanged => exact h.of_eq (m := m) rfl rfl hm

end Untouched

/-! ### The groups are those of the updates -/

theorem toNotificationGroup_groupAfter (m : NotificationManager) (u : GroupUpdate) :
    m.groupsOf.insert u.groupId (m.groupAfter u).toNotificationGroup =
      m.groupsOf.insert u.groupId
        (u.removedNotificationIds.foldl NotificationGroup.removeNotification
          (u.addedNotifications.foldl NotificationGroup.addNotification
            (match m.groupsOf.value u.groupId with
              | some group => { group with type := getGroupType u.type, totalCount := u.totalCount }
              | none =>
                  { type := getGroupType u.type, notificationGroupId := u.groupId, chatId := u.chatId,
                    totalCount := u.totalCount, activeNotifications := QHash.empty, notificationOrder := [] }))) := by
  have hvalue : m.groupsOf.value u.groupId =
      (m.notificationGroups.value u.groupId).map ManagedGroup.toNotificationGroup := rfl
  rw [groupAfter, hvalue]
  cases m.notificationGroups.value u.groupId <;> rfl

theorem groupsOf_insert (m : NotificationManager) (groupId : Int) (group : ManagedGroup) :
    groupsOf { m with notificationGroups := m.notificationGroups.insert groupId group } =
      m.groupsOf.insert groupId group.toNotificationGroup := by
  funext groupId'
  rw [groupsOf, QHash.value_insert]
  unfold QHash.insert
  split_ifs <;> rfl

/-- **Refinement.** Whatever is published of it, an update makes of the groups what it does of groups without
notifications. -/
theorem groupsOf_updateNotificationGroup (texts : NotificationTexts) (m : NotificationManager) (u : GroupUpdate)
    (feedback : NotificationFeedback) (notificationSoundId : Int) :
    (updateNotificationGroup texts m u feedback notificationSoundId).1.groupsOf =
      m.groupsOf.updateNotificationGroup u := by
  rw [updateNotificationGroup, NotificationGroups.updateNotificationGroup]
  by_cases htype : getGroupType u.type = .calls
  · rw [if_pos htype, if_pos htype]
  rw [if_neg htype, if_neg htype]
  by_cases hcount : u.totalCount ≠ 0
  · rw [if_pos hcount, if_pos hcount]
    dsimp only
    refine Eq.trans ?_ (m.toNotificationGroup_groupAfter u)
    rw [← groupsOf_insert]
    split_ifs
    · rfl
    · exact (sameButShown_publishNotification texts _ _ _ _ _ _).groups
  · have hcontains : m.groupsOf.contains u.groupId = m.notificationGroups.contains u.groupId := Option.isSome_map
    rw [if_neg hcount, if_neg hcount, hcontains]
    split_ifs
    · funext groupId'
      rw [groupsOf]
      dsimp only
      rw [QHash.value_remove]
      unfold QHash.remove
      split_ifs <;> rfl
    · rfl

/-- Notifications that are added and removed leave the rest of their group. -/
theorem read_groupAfter {α : Type} (read : NotificationGroup → α)
    (hread : ∀ group active order,
      read { group with activeNotifications := active, notificationOrder := order } = read group)
    (added : List QVariantMap) (removed : List Int) (group : NotificationGroup) :
    read (removed.foldl NotificationGroup.removeNotification
      (added.foldl NotificationGroup.addNotification group)) = read group := by
  have hadd : read (added.foldl NotificationGroup.addNotification group) = read group := by
    induction added generalizing group with
    | nil => rfl
    | cons n added ih => exact (ih (group.addNotification n)).trans (hread group _ _)
  rw [← hadd]
  generalize added.foldl NotificationGroup.addNotification group = group'
  induction removed generalizing group' with
  | nil => rfl
  | cons id removed ih => exact (ih (group'.removeNotification id)).trans (hread group' _ _)

theorem groupAfter_type (m : NotificationManager) (u : GroupUpdate) : (m.groupAfter u).type = getGroupType u.type := by
  rw [groupAfter]
  dsimp only
  rw [read_groupAfter NotificationGroup.type fun _ _ _ => rfl]
  cases m.notificationGroups.value u.groupId <;> rfl

end NotificationManager

end YaqtLib
