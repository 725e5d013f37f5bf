import YaqtLib.NotificationSteps

/-! When a notification makes noise (`notificationmanager.cpp`). The hint that suppresses the sound is set only if the
sounds are off and the update has no sound, and what holds when a sound is asked for need not hold when it comes. -/

namespace YaqtLib

open Account Containers Runs TdConst

namespace NotificationManager

variable {texts : NotificationTexts} {m : NotificationManager}

/-! ### Which noise is right -/

/-- A group has been published before. -/
def Published (m : NotificationManager) (groupId : Int) : Prop :=
  ∃ group, m.notificationGroups.value groupId = some group ∧ group.nemoNotification.replacesId = true

/-- The update that an event publishes groups for with feedback. -/
def causeOf (m : NotificationManager) : Event → Option AlertCause
  | .updateNotificationGroup update =>
      some ⟨m.settings.notificationFeedback, !(NotificationGroups.groupUpdate update).addedNotifications.isEmpty,
        (update.value "notification_sound_id").toLongLong⟩
  | .soundReply i _ _ => (m.soundRequests[i]?).map SoundRequest.cause
  | _ => none

/-- A publication in the step from `m` to `m'` is audible only with sounds enabled and for an update with a sound; it
has feedback only for an update that adds notifications, or in the other mode for a group that has not been published,
if the last notification of the group is not silent and its message is not from the active chat. -/
structure Justified (m m' : NotificationManager) (cause : Option AlertCause) (p : Publication) : Prop where
  audible : p.notification.vibra = true → p.notification.suppressSound = false →
    m.settings.notificationSoundsEnabled = true ∧ ∃ c ∈ cause, c.soundId ≠ 0
  caused : p.notification.vibra = true → ∃ c ∈ cause,
    c.feedback = .all ∧ c.adds = true ∨ c.feedback = .new ∧ ¬ m.Published p.groupId
  loud : p.notification.vibra = true → ∀ group, m'.notificationGroups.value p.groupId = some group →
    isSilent group = false ∧ m'.messageFromActiveChat group.chatId (lastMessage group) = false

def NoiseJustified (texts : NotificationTexts) (m : NotificationManager) (e : Event) : Prop :=
  ∀ p ∈ (m.handle texts e).2, Justified m (m.step texts e) (m.causeOf e) p

/-- An update needs feedback by its mode, and its last notification is not silent. -/
def AsksForFeedback (m : NotificationManager) (u : GroupUpdate) : Prop :=
  (m.settings.notificationFeedback = .all ∧ u.addedNotifications ≠ [] ∨
    m.settings.notificationFeedback = .new ∧ ¬ m.Published u.groupId) ∧ isSilent (m.groupAfter u) = false

/-- The sound of an update is looked up first. -/
def LooksUpSound (settings : NotificationSettings) (soundId : Int) : Prop :=
  settings.notificationSoundsEnabled = true ∧ settings.notificationAlwaysDefaultSound = false ∧ 0 < soundId

/-- A group that is published at once with feedback has a sound exactly if sounds are enabled; when a sound comes, they
are still enabled, a group that is to be new has not been published meanwhile, and its last notification is not silent.
A secret chat is not the active one in both cases. -/
def SoundsAgree (m : NotificationManager) : Event → Prop
  | .updateNotificationGroup update =>
      let u := NotificationGroups.groupUpdate update
      let soundId := (update.value "notification_sound_id").toLongLong
      getGroupType u.type ≠ .calls → u.totalCount ≠ 0 → m.AsksForFeedback u → ¬ LooksUpSound m.settings soundId →
        m.ShowsFeedback (m.groupAfter u) →
          (m.settings.notificationSoundsEnabled = true ↔ soundId ≠ 0) ∧
            m.messageFromActiveChat (m.groupAfter u).chatId (lastMessage (m.groupAfter u)) = false
  | .soundReply i _ _ => ∀ request, m.soundRequests[i]? = some request →
      ∀ group, m.notificationGroups.value request.groupId = some group → group.type ≠ .calls → m.ShowsFeedback group →
        m.settings.notificationSoundsEnabled = true ∧
          (request.cause.feedback = .new → group.nemoNotification.replacesId = false) ∧ isSilent group = false ∧
          m.messageFromActiveChat group.chatId (lastMessage group) = false
  | _ => True

/-- A sound is asked for only with feedback. -/
def RequestsFeedback (m : NotificationManager) : Prop :=
  ∀ request ∈ m.soundRequests, request.needFeedback = true ∧ 0 < request.cause.soundId ∧
    (request.cause.feedback = .all ∧ request.cause.adds = true ∨ request.cause.feedback = .new)

theorem justified_of_silent {m m' : NotificationManager} {cause : Option AlertCause} {p : Publication}
    (h : p.notification.vibra = false) : Justified m m' cause p := by
  have hnot : ¬ p.notification.vibra = true := by rw [h]; exact Bool.false_ne_true
  exact ⟨fun hvibra => absurd hvibra hnot, fun hvibra => absurd hvibra hnot, fun hvibra => absurd hvibra hnot⟩

theorem published_iff {groupId : Int} {group : ManagedGroup}
    (hgroup : m.notificationGroups.value groupId = some group) :
    m.Published groupId ↔ group.nemoNotification.replacesId = true := by
  rw [Published, hgroup]
  simp only [Option.some.injEq, exists_eq_left']

theorem needFeedback_iff (m : NotificationManager) (u : GroupUpdate) :
    needFeedback (m.groupAfter u) u m.settings.notificationFeedback = true ↔ m.AsksForFeedback u := by
  have hpublished : (m.groupAfter u).nemoNotification.replacesId = true ↔ m.Published u.groupId := by
    rw [groupAfter, Published]
    cases m.notificationGroups.value u.groupId with
    | none => simp [PlatformNotification.new]
    | some group => simp
  unfold needFeedback
  rw [AsksForFeedback, Bool.and_eq_true, Bool.not_eq_true']
  refine and_congr_left fun _ => ?_
  rw [← hpublished]
  cases m.settings.notificationFeedback <;> simp

/-- When an update asks for its sound first. -/
theorem requestsSound_iff (m : NotificationManager) (u : GroupUpdate) (soundId : Int) :
    (needFeedback (m.groupAfter u) u m.settings.notificationFeedback && m.settings.notificationSoundsEnabled &&
      !m.settings.notificationAlwaysDefaultSound && decide (soundId > 0)) = true ↔
      m.AsksForFeedback u ∧ LooksUpSound m.settings soundId := by
  rw [← needFeedback_iff, LooksUpSound]
  simp only [Bool.and_eq_true, Bool.not_eq_true', decide_eq_true_eq, and_assoc, gt_iff_lt]

theorem isSilent_congr {group group' : ManagedGroup} (h : group'.toNotificationGroup = group.toNotificationGroup) :
    isSilent group' = isSilent group := by
  rw [isSilent, isSilent, h]

theorem lastMessage_congr {group group' : ManagedGroup} (h : group'.toNotificationGroup = group.toNotificationGroup) :
    lastMessage group' = lastMessage group := by
  rw [lastMessage, lastMessage, h]

/-- After a publication the group is there with its data. -/
theorem SameButShown.exists_group {m' : NotificationManager} (h : SameButShown m m') {groupId : Int}
    {group : ManagedGroup} (hgroup : m.notificationGroups.value groupId = some group) :
    ∃ group', m'.notificationGroups.value groupId = some group' ∧
      group'.toNotificationGroup = group.toNotificationGroup := by
  have hdata : m'.groupsOf.value groupId = some group.toNotificationGroup := by
    rw [h.groups]
    exact (congrArg (Option.map ManagedGroup.toNotificationGroup) hgroup)
  exact Option.map_eq_some_iff.mp hdata

theorem SameButShown.messageFromActiveChat {m' : NotificationManager} (h : SameButShown m m') (chatId : Int)
    (message : QVariantMap) : m'.messageFromActiveChat chatId message = m.messageFromActiveChat chatId message := by
  rw [NotificationManager.messageFromActiveChat, NotificationManager.messageFromActiveChat, h.activeChatId,
    h.activeTopicId, h.applicationActive]

/-- What justifies the publication of a group, for the cause it goes back to. -/
theorem justified_publication_iff (before m : NotificationManager) (hsettings : before.settings = m.settings)
    {groupId : Int} {group : ManagedGroup} (hgroup : m.notificationGroups.value groupId = some group)
    (htype : group.type ≠ .calls) (c : AlertCause) (needFeedback suppressSound : Bool) (soundFilePath : String) :
    (∀ p ∈ (publishNotification texts m groupId needFeedback suppressSound soundFilePath true).2,
        Justified before (publishNotification texts m groupId needFeedback suppressSound soundFilePath true).1 (some c)
          p) ↔
      (needFeedback = true → m.ShowsFeedback group →
        (m.settings.notificationSoundsEnabled = true ∨ suppressSound = false →
          m.settings.notificationSoundsEnabled = true ∧ c.soundId ≠ 0) ∧
        (c.feedback = .all ∧ c.adds = true ∨ c.feedback = .new ∧ ¬ before.Published groupId) ∧
        isSilent group = false ∧ m.messageFromActiveChat group.chatId (lastMessage group) = false) := by
  have hsame := sameButShown_publishNotification texts m groupId needFeedback suppressSound soundFilePath true
  obtain ⟨group', hgroup', hdata⟩ := hsame.exists_group hgroup
  obtain ⟨notification, hpublished, hvibra, hsuppress⟩ := publishNotification_published texts hgroup htype
    needFeedback suppressSound soundFilePath true
  have haudible : notification.vibra = true → (notification.suppressSound = false ↔
      m.settings.notificationSoundsEnabled = true ∨ suppressSound = false) := by
    intro h
    rw [hsuppress h, Bool.and_eq_false_iff, Bool.not_eq_false']
  have hchat : group'.chatId = group.chatId := congrArg NotificationGroup.chatId hdata
  rw [hpublished, List.forall_mem_singleton]
  constructor
  · intro hjustified hneeded hshows
    have h := hvibra.mpr ⟨hneeded, hshows⟩
    obtain ⟨c', hc', hcaused⟩ := hjustified.caused h
    obtain rfl := Option.some.inj hc'
    obtain ⟨hsilent, hactive⟩ := hjustified.loud h group' hgroup'
    rw [isSilent_congr hdata] at hsilent
    rw [hsame.messageFromActiveChat, lastMessage_congr hdata, hchat] at hactive
    refine ⟨fun hsound => ?_, hcaused, hsilent, hactive⟩
    obtain ⟨henabled, c'', hc'', hid⟩ := hjustified.audible h ((haudible h).mpr hsound)
    obtain rfl := Option.some.inj hc''
    exact ⟨hsettings ▸ henabled, hid⟩
  · intro hright
    have hthen := fun h => hright (hvibra.mp h).1 (hvibra.mp h).2
    refine ⟨fun h hsound => ?_, fun h => ⟨c, rfl, (hthen h).2.1⟩, fun h group'' hgroup'' => ?_⟩
    · obtain ⟨henabled, hid⟩ := (hthen h).1 ((haudible h).mp hsound)
      exact ⟨hsettings ▸ henabled, c, rfl, hid⟩
    · obtain rfl := Option.some.inj (hgroup'.symm.trans hgroup'')
      rw [isSilent_congr hdata, hsame.messageFromActiveChat, lastMessage_congr hdata, hchat]
      exact (hthen h).2.2

/-! ### The steps -/

theorem noiseJustified_update_iff (texts : NotificationTexts) (m : NotificationManager) (update : QVariantMap) :
    NoiseJustified texts m (.updateNotificationGroup update) ↔ m.SoundsAgree (.updateNotificationGroup update) := by
  rw [NoiseJustified, step, handle, handleUpdateNotificationGroup, updateNotificationGroup, SoundsAgree]
  dsimp only
  by_cases htype : getGroupType (NotificationGroups.groupUpdate update).type = .calls
  · rw [if_pos htype]
    exact iff_of_true (fun p hp => absurd hp List.not_mem_nil) fun hne => absurd htype hne
  rw [if_neg htype]
  by_cases hcount : (NotificationGroups.groupUpdate update).totalCount ≠ 0
  swap
  · rw [if_neg hcount]
    refine iff_of_true (fun p hp => ?_) fun _ hne => absurd hne hcount
    split_ifs at hp
    · cases hp
    · cases hp
  rw [if_pos hcount]
  have hneeded := m.needFeedback_iff (NotificationGroups.groupUpdate update)
  have hrequest := m.requestsSound_iff (NotificationGroups.groupUpdate update)
    (update.value "notification_sound_id").toLongLong
  by_cases hlooks : m.AsksForFeedback (NotificationGroups.groupUpdate update) ∧
      LooksUpSound m.settings (update.value "notification_sound_id").toLongLong
  · rw [if_pos (hrequest.mpr hlooks)]
    exact iff_of_true (fun p hp => absurd hp List.not_mem_nil) fun _ _ _ hnot => absurd hlooks.2 hnot
  · rw [if_neg (mt hrequest.mp hlooks), causeOf]
    refine (justified_publication_iff m { m with notificationGroups := m.notificationGroups.insert _ _ } rfl
      (QHash.value_insert_self _ _ _) (by rw [groupAfter_type]; exact htype) _ _ _ _).trans ?_
    rw [hneeded]
    dsimp only
    have hsound : (m.settings.notificationSoundsEnabled = true ∨
        decide ((update.value "notification_sound_id").toLongLong = 0) = false →
          m.settings.notificationSoundsEnabled = true ∧ (update.value "notification_sound_id").toLongLong ≠ 0) ↔
        (m.settings.notificationSoundsEnabled = true ↔ (update.value "notification_sound_id").toLongLong ≠ 0) := by
      rw [decide_eq_false_iff_not]
      tauto
    rw [hsound]
    constructor
    · intro h _ _ hasks _ hshows
      obtain ⟨hagree, -, -, hactive⟩ := h hasks hshows
      exact ⟨hagree, hactive⟩
    · intro h hasks hshows
      obtain ⟨hagree, hactive⟩ := h htype hcount hasks (fun hlook => hlooks ⟨hasks, hlook⟩) hshows
      refine ⟨hagree, hasks.1.imp_left fun hall => ⟨hall.1, ?_⟩, hasks.2, hactive⟩
      rw [Bool.not_eq_true', List.isEmpty_eq_false_iff]
      exact hall.2

/-- A reply publishes the group of its request, with some sound or with none. -/
theorem handleSoundReply_eq (texts : NotificationTexts) (m : NotificationManager) (request : SoundRequest)
    (type : String) (sound : QVariantMap) : ∃ path, handleSoundReply texts m request type sound =
      publishNotification texts m request.groupId request.needFeedback false path true := by
  rw [handleSoundReply]
  split_ifs
  · exact ⟨_, rfl⟩
  · exact ⟨_, rfl⟩

theorem noiseJustified_reply_iff (texts : NotificationTexts) {m : NotificationManager} (hm : m.RequestsFeedback)
    (i : Nat) (type : String) (sound : QVariantMap) :
    NoiseJustified texts m (.soundReply i type sound) ↔ m.SoundsAgree (.soundReply i type sound) := by
  rw [NoiseJustified, step, handle, SoundsAgree, causeOf]
  cases hrequest : m.soundRequests[i]? with
  | none => exact iff_of_true (fun p hp => absurd hp List.not_mem_nil) (by rintro _ ⟨⟩)
  | some request =>
      obtain ⟨hneeded, hid, hmode⟩ := hm request (List.mem_of_getElem? hrequest)
      obtain ⟨path, hpath⟩ :=
        handleSoundReply_eq texts { m with soundRequests := m.soundRequests.eraseIdx i } request type sound
      dsimp only
      rw [hpath]
      simp only [Option.some.injEq, forall_eq']
      by_cases hpublished : ∃ group, m.notificationGroups.value request.groupId = some group ∧ group.type ≠ .calls
      swap
      · have hnone : ∀ group, m.notificationGroups.value request.groupId = some group → group.type = .calls := by
          intro group hgroup
          by_contra hne
          exact hpublished ⟨group, hgroup, hne⟩
        have hempty := publishNotification_of_not_published texts
          { m with soundRequests := m.soundRequests.eraseIdx i } hnone request.needFeedback false path true
        exact iff_of_true (fun p hp => absurd (hempty ▸ hp) List.not_mem_nil)
          fun group hgroup hne => absurd (hnone group hgroup) hne
      · obtain ⟨group, hgroup, htype⟩ := hpublished
        refine (justified_publication_iff m { m with soundRequests := m.soundRequests.eraseIdx i } rfl hgroup htype _ _ _
          _).trans ?_
        have hnew := published_iff hgroup
        constructor
        · intro h group' hgroup' _ hshows
          obtain rfl := Option.some.inj (hgroup.symm.trans hgroup')
          obtain ⟨hsound, hcaused, hsilent, hactive⟩ := h hneeded hshows
          refine ⟨(hsound (.inr rfl)).1, fun hmodeNew => ?_, hsilent, hactive⟩
          rcases hcaused with hall | hnotPublished
          · rw [hmodeNew] at hall
            cases hall.1
          · exact Bool.eq_false_iff.mpr fun htrue => hnotPublished.2 (hnew.mpr htrue)
        · intro h _ hshows
          obtain ⟨henabled, hunpublished, hsilent, hactive⟩ := h group hgroup htype hshows
          refine ⟨fun _ => ⟨henabled, by omega⟩, hmode.imp_right fun hmodeNew => ⟨hmodeNew, fun hbefore => ?_⟩, hsilent,
            hactive⟩
          have hfalse := hunpublished hmodeNew
          rw [hnew.mp hbefore] at hfalse
          cases hfalse

/-- Everything but updates and sounds is published silently. -/
theorem silent_handle (texts : NotificationTexts) (m : NotificationManager) {e : Event} (hcause : m.causeOf e = none)
    (hreply : ∀ i type sound, e ≠ .soundReply i type sound) :
    ∀ p ∈ (m.handle texts e).2, p.notification.vibra = false := by
  cases e with
  | updateNotificationGroup update => cases hcause
  | soundReply i type sound => exact absurd rfl (hreply i type sound)
  | updateActiveNotifications groups =>
      refine each_published (fun m group p hp => ?_) m groups
      unfold updateNotificationGroup at hp
      dsimp only at hp
      split_ifs at hp with htype hcount hrequest
      · cases hp
      · cases hp
      · have hsilent : needFeedback (m.groupAfter (NotificationGroups.activeGroup group.toMap))
            (NotificationGroups.activeGroup group.toMap) .noFeedback = false := rfl
        rw [hsilent] at hp
        exact silent_publishNotification _ _ _ _ _ _ p hp
      · cases hp
      · cases hp
  | updateNotification groupId notification =>
      rw [handle, handleUpdateNotification]
      cases m.notificationGroups.value groupId with
      | none => exact fun p hp => absurd hp List.not_mem_nil
      | some group =>
          dsimp only
          split_ifs
          · exact silent_publishNotification _ _ _ _ _ _
          · exact fun p hp => absurd hp List.not_mem_nil
  | newChatDiscovered walk chatInformation => exact silent_updateNotificationForChat _ _ _ _
  | chatTitleUpdated walk chatId title => exact silent_handleChatRolesUpdated _ _ _ _ _
  | chatPhotoUpdated walk chatId photo => exact silent_handleChatRolesUpdated _ _ _ _ _
  | chatPhotoDownloadingCompletedChanged walk file =>
      rw [handle, handleChatPhotoDownloadingCompletedChanged]
      cases m.pendingChatPhotoChats.value file.id with
      | none => exact fun p hp => absurd hp List.not_mem_nil
      | some chatId =>
          dsimp only
          split
          · cases m.data.getChatData chatId with
            | none => exact fun p hp => absurd hp List.not_mem_nil
            | some chat =>
                dsimp only
                split
                · split
                  · exact fun p hp => absurd hp List.not_mem_nil
                  · exact silent_publishIcon _ _ _
                · exact fun p hp => absurd hp List.not_mem_nil
          · exact fun p hp => absurd hp List.not_mem_nil
  | updateAllNotifications walk =>
      exact each_published (fun m groupId => silent_publishNotification _ m groupId _ _ _) m walk
  | setUseSignalActions walk =>
      exact each_published (fun m groupId => silent_publishNotification _ m groupId _ _ _) m walk
  | settingsChanged | setActiveChatId | setActiveTopicId | applicationStateChanged =>
      exact fun p hp => absurd hp List.not_mem_nil

/-- **Step lemma.** -/
theorem noiseJustified_iff (texts : NotificationTexts) {m : NotificationManager} (hm : m.RequestsFeedback) (e : Event) :
    NoiseJustified texts m e ↔ m.SoundsAgree e := by
  have hsilent : ∀ {e}, (∀ p ∈ (m.handle texts e).2, p.notification.vibra = false) → NoiseJustified texts m e :=
    fun h p hp => justified_of_silent (h p hp)
  cases e with
  | updateNotificationGroup update => exact noiseJustified_update_iff texts m update
  | soundReply i type sound => exact noiseJustified_reply_iff texts hm i type sound
  | updateActiveNotifications | updateNotification | newChatDiscovered | chatTitleUpdated | chatPhotoUpdated
  | chatPhotoDownloadingCompletedChanged | updateAllNotifications | setUseSignalActions | settingsChanged
  | setActiveChatId | setActiveTopicId | applicationStateChanged =>
      refine iff_of_true (hsilent (silent_handle texts m rfl ?_)) trivial
      rintro _ _ _ ⟨⟩

/-! ### The requests -/

theorem untouched_requestsFeedback : Untouched RequestsFeedback where
  of_same _ _ _ hrequests h request hmem := h request (hrequests request hmem)
  write _ _ _ _ _ _ h := h

/-- Feedback is needed for what is added, or for what is new. -/
theorem feedback_of_needFeedback {group : ManagedGroup} {u : GroupUpdate} {feedback : NotificationFeedback}
    (h : needFeedback group u feedback = true) :
    feedback = .all ∧ (!u.addedNotifications.isEmpty) = true ∨ feedback = .new := by
  unfold needFeedback at h
  rw [Bool.and_eq_true] at h
  cases feedback with
  | noFeedback => exact absurd h.1 Bool.false_ne_true
  | new => exact .inr rfl
  | all => exact .inl ⟨rfl, h.1⟩

theorem RequestsFeedback.update (h : m.RequestsFeedback) (texts : NotificationTexts) (u : GroupUpdate)
    (feedback : NotificationFeedback) (notificationSoundId : Int) :
    (updateNotificationGroup texts m u feedback notificationSoundId).1.RequestsFeedback := by
  unfold updateNotificationGroup
  dsimp only
  split_ifs with htype hcount hrequest
  · exact h
  · intro request hmem
    rcases List.mem_append.mp hmem with hmem | hmem
    · exact h request hmem
    · rw [List.mem_singleton.mp hmem]
      simp only [Bool.and_eq_true, decide_eq_true_eq] at hrequest
      exact ⟨hrequest.1.1.1, hrequest.2, feedback_of_needFeedback hrequest.1.1.1⟩
  · refine untouched_requestsFeedback.publish texts _ _ _ _ _ ?_
    exact h
  · exact h
  · exact h

theorem RequestsFeedback.step (h : m.RequestsFeedback) (texts : NotificationTexts) (e : Event) :
    (m.step texts e).RequestsFeedback :=
  untouched_requestsFeedback.step texts (fun _ u feedback soundId h => h.update texts u feedback soundId) h e

/-- **When a notification makes noise.** In a run, every publication is justified exactly if the sounds agree with the
settings in all steps. -/
theorem noiseJustified_run_iff (texts : NotificationTexts) (memory : Uninitialised) (settings : NotificationSettings)
    (restored : RestoredGroups) (es : List Event) :
    Along (step texts) (NoiseJustified texts) (new memory settings restored) es ↔
      Along (step texts) SoundsAgree (new memory settings restored) es := by
  refine Along.congr (J := RequestsFeedback) (fun m e hm => hm.step texts e)
    (fun m e hm => noiseJustified_iff texts hm e) ?_ es
  exact fun request hmem => absurd hmem List.not_mem_nil

/-- A message with the default sound. -/
def defaultSoundUpdate : QVariantMap :=
  [("type", .map [("@type", .string "notificationGroupTypeMessages")]), ("notification_group_id", .longLong 1),
    ("chat_id", .longLong 7), ("total_count", .longLong 1), ("notification_sound_id", .longLong (-1)),
    ("added_notifications", .list [.map [("id", .longLong 3)]])]

/-- The sounds are off, and a message comes. -/
theorem not_noiseJustified_soundsOff :
    ¬ Along (step ⟨⟨"", ""⟩, "", fun _ title => title, fun _ title => title⟩)
      (NoiseJustified ⟨⟨"", ""⟩, "", fun _ title => title, fun _ title => title⟩)
      (new ⟨0, 0, 0⟩ ⟨.all, false, false, false⟩ ⟨QHash.empty, by rintro _ _ ⟨⟩⟩)
      [.updateNotificationGroup defaultSoundUpdate] := by
  rintro ⟨h, -⟩
  have henabled := ((h _ (List.mem_singleton.mpr rfl)).audible rfl rfl).1
  exact absurd henabled Bool.false_ne_true

end NotificationManager

end YaqtLib
