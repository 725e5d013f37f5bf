import YaqtLib.AccountData
import YaqtLib.ContactsModel
import YaqtLib.NotificationGroups
import YaqtLib.TDLibFile

/-! The notifications of `NotificationManager` for messages, mentions and secret chats: what of a group is shown on the
platform, when it is published, and with which feedback. -/

namespace YaqtLib

open Account Containers TdConst

/-- `Settings::NotificationFeedback` -/
inductive NotificationFeedback where
  | noFeedback
  | new
  | all
  deriving DecidableEq

structure NotificationSettings where
  notificationFeedback : NotificationFeedback
  notificationSoundsEnabled : Bool
  notificationAlwaysDefaultSound : Bool
  notificationTurnsDisplayOn : Bool

inductive Urgency where
  | low
  | normal
  deriving DecidableEq

/-- A notification of the platform. `replacesId` tells whether it has an id, which it gets when it is published first;
the icon is the picture at a path. -/
structure PlatformNotification where
  replacesId : Bool
  summary : String
  iconData : Option String
  vibra : Bool
  suppressSound : Bool
  displayOn : Bool
  visibility : String
  urgency : Urgency
  sound : String

def PlatformNotification.new : PlatformNotification where
  replacesId := false
  summary := ""
  iconData := none
  vibra := false
  suppressSound := false
  displayOn := false
  visibility := ""
  urgency := .normal
  sound := ""

/-- A group with its notification. -/
structure ManagedGroup extends NotificationGroup where
  nemoNotification : PlatformNotification

/-- What an update says about feedback. -/
structure AlertCause where
  feedback : NotificationFeedback
  adds : Bool
  soundId : Int

/-- A request for a saved sound. The reply reads the group id and `needFeedback`; `cause` is the update it goes back
to. -/
structure SoundRequest where
  groupId : Int
  needFeedback : Bool
  cause : AlertCause

structure NotificationManager where
  data : Account.TDLibData
  settings : NotificationSettings
  notificationGroups : QHash Int ManagedGroup
  activeChatId : Int
  activeTopicId : QVariantMap
  applicationActive : Bool
  pendingChatPhotoChats : QHash Int Int
  soundRequests : List SoundRequest

/-- The texts of notifications in the language of the user. -/
structure NotificationTexts where
  users : UserTexts
  unknownChat : String
  mentionsIn : Int → String → String
  mentionsFrom : Int → String → String

namespace Utilities

def getChatTitle (texts : NotificationTexts) (data : Account.TDLibData) (chat : Option Account.ChatData) : String :=
  let title :=
    match chat with
    | none => ""
    | some chat =>
        let title := Account.TDLibData.trimmed chat.title
        if title = "" ∧ (chat.chatType = .private_ ∨ chat.chatType = .secret) then
          let userId := ((chat.chatData.value TYPE).toMap.value USER_ID).toLongLong
          getUnknownUserName texts.users (data.getUserInformation userId)
        else title
  if title = "" then texts.unknownChat else title

end Utilities

def Account.ChatData.photoSmall (chat : Account.ChatData) : QVariantMap := (chat.photo.value "small").toMap

/-- The file that a `TDLibFile` made of the object shows. -/
def fileOf (fileInfo : QVariantMap) : FileFields := (TDLibFile.new.updateFileInfo fileInfo).fields

/-- A notification as it is published. -/
structure Publication where
  groupId : Int
  notification : PlatformNotification

namespace NotificationManager

def disableNotificationFeedback (notification : PlatformNotification) : PlatformNotification :=
  { notification with vibra := false, suppressSound := true, displayOn := false, visibility := "", urgency := .low }

/-- The notification and the photos that are waited for. -/
def fillChatNotificationFields (texts : NotificationTexts) (m : NotificationManager)
    (notification : PlatformNotification) (chat : Option Account.ChatData) (updateChatPhoto : Bool) :
    PlatformNotification × QHash Int Int :=
  let notification := { notification with summary := Utilities.getChatTitle texts m.data chat }
  match chat with
  | none => (notification, m.pendingChatPhotoChats)
  | some chat =>
      if updateChatPhoto ∧ ¬ chat.photoSmall.isEmpty then
        let file := fileOf chat.photoSmall
        if file.isDownloadingCompleted then
          ({ notification with iconData := some file.path }, m.pendingChatPhotoChats)
        else if file.canBeDownloaded || file.isDownloadingActive then
          (notification, m.pendingChatPhotoChats.insert file.id chat.chatId)
        else (notification, m.pendingChatPhotoChats)
      else (notification, m.pendingChatPhotoChats)

def messageFromActiveChat (m : NotificationManager) (chatId : Int) (message : QVariantMap) : Bool :=
  if m.activeChatId = chatId ∧ m.applicationActive then
    let topicId := (message.value "topic_id").toMap
    m.activeTopicId.isEmpty || topicId.isEmpty || topicId == m.activeTopicId
  else false

/-- The message of a group's last notification. -/
def lastMessage (group : ManagedGroup) : QVariantMap :=
  ((group.lastNotification.value TYPE).toMap.value "message").toMap

def isSilent (group : ManagedGroup) : Bool := (group.lastNotification.value "is_silent").toBool

/-- The summary of mentions has the title in it. -/
def mentionsSummary (texts : NotificationTexts) (group : ManagedGroup) (chat : Option Account.ChatData) (summary : String) :
    String :=
  match chat with
  | none => summary
  | some chat =>
      if group.type = .mentions then
        if chat.chatType = .basicGroup ∨ chat.chatType = .supergroup then texts.mentionsIn group.totalCount summary
        else texts.mentionsFrom group.totalCount summary
      else summary

/-- The hints of feedback that a notification is published with. -/
def setFeedback (settings : NotificationSettings) (notification : PlatformNotification)
    (needFeedback suppressSound : Bool) (soundFilePath : String) : PlatformNotification :=
  if needFeedback then
    let suppressSound := !settings.notificationSoundsEnabled && suppressSound
    { notification with
      vibra := true
      displayOn := settings.notificationTurnsDisplayOn
      visibility := "public"
      urgency := .normal
      suppressSound := suppressSound
      sound := if suppressSound = false ∧ soundFilePath ≠ "" then soundFilePath else notification.sound }
  else disableNotificationFeedback notification

def publishNotification (texts : NotificationTexts) (m : NotificationManager) (groupId : Int)
    (needFeedback suppressSound : Bool) (soundFilePath : String) (updateChatPhoto : Bool) :
    NotificationManager × List Publication :=
  match m.notificationGroups.value groupId with
  | none => (m, [])
  | some group =>
      let chat := m.data.getChatData group.chatId
      let (notification, pendingChatPhotoChats) :=
        fillChatNotificationFields texts m group.nemoNotification chat updateChatPhoto
      if group.type = .calls then
        ({ m with
            pendingChatPhotoChats := pendingChatPhotoChats
            notificationGroups := m.notificationGroups.insert groupId { group with nemoNotification := notification } },
          [])
      else
        -- a secret chat that is open is notified of all the same
        let needFeedback :=
          needFeedback && !(group.type ≠ .secretChat && m.messageFromActiveChat group.chatId (lastMessage group))
        let notification := { notification with summary := mentionsSummary texts group chat notification.summary }
        let notification :=
          { setFeedback m.settings notification needFeedback suppressSound soundFilePath with replacesId := true }
        ({ m with
            pendingChatPhotoChats := pendingChatPhotoChats
            notificationGroups := m.notificationGroups.insert groupId { group with nemoNotification := notification } },
          [⟨groupId, notification⟩])

/-- The group of an update with the notifications that it adds and removes. -/
def groupAfter (m : NotificationManager) (u : GroupUpdate) : ManagedGroup :=
  let group : ManagedGroup :=
    match m.notificationGroups.value u.groupId with
    | some group => { group with type := getGroupType u.type, totalCount := u.totalCount }
    | none =>
        { type := getGroupType u.type, notificationGroupId := u.groupId, chatId := u.chatId, totalCount := u.totalCount
          activeNotifications := QHash.empty, notificationOrder := [], nemoNotification := .new }
  { group with
    toNotificationGroup := u.removedNotificationIds.foldl NotificationGroup.removeNotification
      (u.addedNotifications.foldl NotificationGroup.addNotification group.toNotificationGroup) }

def needFeedback (group : ManagedGroup) (u : GroupUpdate) (feedback : NotificationFeedback) : Bool :=
  (match feedback with
    | .noFeedback => false
    | .new => !group.nemoNotification.replacesId
    | .all => !u.addedNotifications.isEmpty) && !isSilent group

def updateNotificationGroup (texts : NotificationTexts) (m : NotificationManager) (u : GroupUpdate)
    (feedback : NotificationFeedback) (notificationSoundId : Int) : NotificationManager × List Publication :=
  if getGroupType u.type = .calls then (m, [])
  else if u.totalCount ≠ 0 then
    let group := m.groupAfter u
    let m := { m with notificationGroups := m.notificationGroups.insert u.groupId group }
    let needFeedback := needFeedback group u feedback
    if needFeedback && m.settings.notificationSoundsEnabled && !m.settings.notificationAlwaysDefaultSound &&
        notificationSoundId > 0 then
      ({ m with soundRequests := m.soundRequests ++
          [⟨u.groupId, needFeedback, ⟨feedback, !u.addedNotifications.isEmpty, notificationSoundId⟩⟩] }, [])
    else publishNotification texts m u.groupId needFeedback (notificationSoundId = 0) "" true
  else if m.notificationGroups.contains u.groupId then
    ({ m with notificationGroups := m.notificationGroups.remove u.groupId }, [])
  else (m, [])

/-- The reply to a request for a saved sound. -/
def handleSoundReply (texts : NotificationTexts) (m : NotificationManager) (request : SoundRequest) (type : String)
    (sound : QVariantMap) : NotificationManager × List Publication :=
  let file := fileOf (sound.value "sound").toMap
  if type = "notificationSound" ∧ file.isDownloadingCompleted then
    publishNotification texts m request.groupId request.needFeedback false file.path true
  else publishNotification texts m request.groupId request.needFeedback false "" true

def handleUpdateNotification (texts : NotificationTexts) (m : NotificationManager) (groupId : Int)
    (notification : QVariantMap) : NotificationManager × List Publication :=
  let notificationId := (notification.value ID).toInt
  match m.notificationGroups.value groupId with
  | none => (m, [])
  | some group =>
      if group.activeNotifications.contains notificationId then
        let group : ManagedGroup :=
          { group with activeNotifications := group.activeNotifications.insert notificationId notification }
        publishNotification texts { m with notificationGroups := m.notificationGroups.insert groupId group } groupId
          false false "" true
      else (m, [])

/-- Several publications one after another. -/
def each {α : Type} (f : NotificationManager → α → NotificationManager × List Publication) (m : NotificationManager) :
    List α → NotificationManager × List Publication
  | [] => (m, [])
  | x :: xs => ((each f (f m x).1 xs).1, (f m x).2 ++ (each f (f m x).1 xs).2)

def handleUpdateActiveNotifications (texts : NotificationTexts) (m : NotificationManager) (groups : List QVariant) :
    NotificationManager × List Publication :=
  each (fun m (group : QVariant) =>
    updateNotificationGroup texts m (NotificationGroups.activeGroup group.toMap) .noFeedback 0) m groups

def handleUpdateNotificationGroup (texts : NotificationTexts) (m : NotificationManager) (update : QVariantMap) :
    NotificationManager × List Publication :=
  updateNotificationGroup texts m (NotificationGroups.groupUpdate update) m.settings.notificationFeedback
    (update.value "notification_sound_id").toLongLong

/-- The group at which `iterateNotificationGroupsForChat` stops; `walk` are the keys in the order of the hash. -/
def firstGroupOf (m : NotificationManager) (walk : List Int) (chatId : Int) : Option Int :=
  walk.find? fun groupId => (m.notificationGroups.value groupId).any fun group => group.chatId = chatId

def updateNotificationForChat (texts : NotificationTexts) (m : NotificationManager) (walk : List Int) (chatId : Int) :
    NotificationManager × List Publication :=
  match m.firstGroupOf walk chatId with
  | none => (m, [])
  | some groupId => publishNotification texts m groupId false false "" true

def handleChatRolesUpdated (texts : NotificationTexts) (m : NotificationManager) (walk : List Int) (chatId : Int)
    (changedRoles : List Account.ChatData.Role) : NotificationManager × List Publication :=
  if .title ∈ changedRoles ∨ .photo ∈ changedRoles then updateNotificationForChat texts m walk chatId else (m, [])

/-- A notification that only gets another icon. -/
def publishIcon (m : NotificationManager) (groupId : Int) (path : String) : NotificationManager × List Publication :=
  match m.notificationGroups.value groupId with
  | none => (m, [])
  | some group =>
      let notification :=
        { disableNotificationFeedback { group.nemoNotification with iconData := some path } with replacesId := true }
      ({ m with
          notificationGroups := m.notificationGroups.insert groupId { group with nemoNotification := notification } },
        [⟨groupId, notification⟩])

/-- A photo that is waited for, and still is the one of the chat, is shown. -/
def handleChatPhotoDownloadingCompletedChanged (m : NotificationManager) (walk : List Int) (file : FileFields) :
    NotificationManager × List Publication :=
  match m.pendingChatPhotoChats.value file.id with
  | none => (m, [])
  | some chatId =>
      if file.isDownloadingCompleted then
        let m := { m with pendingChatPhotoChats := m.pendingChatPhotoChats.remove file.id }
        match m.data.getChatData chatId with
        | none => (m, [])
        | some chat =>
            if (chat.photoSmall.value ID).toLongLong = file.id then
              match m.firstGroupOf walk chatId with
              | none => (m, [])
              | some groupId => m.publishIcon groupId file.path
            else (m, [])
      else (m, [])

/-- All notifications are published silently. -/
def publishAll (texts : NotificationTexts) (m : NotificationManager) (walk : List Int) (updateChatPhoto : Bool) :
    NotificationManager × List Publication :=
  each (fun m groupId => publishNotification texts m groupId false false "" updateChatPhoto) m walk

def setActiveChatId (m : NotificationManager) (chatId : Int) : NotificationManager :=
  if m.activeChatId ≠ chatId then { m with activeChatId := chatId, activeTopicId := [] } else m

/-- `walk` is the order in which the hash of the groups is walked. -/
inductive Event where
  | updateActiveNotifications (groups : List QVariant)
  | updateNotificationGroup (update : QVariantMap)
  | updateNotification (groupId : Int) (notification : QVariantMap)
  | soundReply (i : Nat) (type : String) (sound : QVariantMap)
  | newChatDiscovered (walk : List Int) (chatInformation : QVariantMap)
  | chatTitleUpdated (walk : List Int) (chatId : Int) (title : String)
  | chatPhotoUpdated (walk : List Int) (chatId : Int) (photo : QVariantMap)
  | chatPhotoDownloadingCompletedChanged (walk : List Int) (file : FileFields)
  | updateAllNotifications (walk : List Int)
  | setUseSignalActions (walk : List Int)
  | settingsChanged (settings : NotificationSettings)
  | setActiveChatId (chatId : Int)
  | setActiveTopicId (topicId : QVariantMap)
  | applicationStateChanged (active : Bool)

def handle (texts : NotificationTexts) (m : NotificationManager) : Event → NotificationManager × List Publication
  | .updateActiveNotifications groups => m.handleUpdateActiveNotifications texts groups
  | .updateNotificationGroup update => m.handleUpdateNotificationGroup texts update
  | .updateNotification groupId notification => m.handleUpdateNotification texts groupId notification
  | .soundReply i type sound =>
      match m.soundRequests[i]? with
      | none => (m, [])
      | some request =>
          handleSoundReply texts { m with soundRequests := m.soundRequests.eraseIdx i } request type sound
  | .newChatDiscovered walk chatInformation =>
      updateNotificationForChat texts { m with data := m.data.handleNewChatDiscovered chatInformation } walk
        (chatInformation.value ID).toLongLong
  | .chatTitleUpdated walk chatId title =>
      let (data, changedRoles) := m.data.handleChatTitleUpdated chatId title
      handleChatRolesUpdated texts { m with data := data } walk chatId changedRoles
  | .chatPhotoUpdated walk chatId photo =>
      let (data, changedRoles) := m.data.handleChatPhotoUpdated chatId photo
      handleChatRolesUpdated texts { m with data := data } walk chatId changedRoles
  | .chatPhotoDownloadingCompletedChanged walk file => m.handleChatPhotoDownloadingCompletedChanged walk file
  | .updateAllNotifications walk => m.publishAll texts walk true
  | .setUseSignalActions walk => m.publishAll texts walk false
  | .settingsChanged settings => ({ m with settings := settings }, [])
  | .setActiveChatId chatId => (m.setActiveChatId chatId, [])
  | .setActiveTopicId topicId => ({ m with activeTopicId := topicId }, [])
  | .applicationStateChanged active => ({ m with applicationActive := active }, [])

def step (texts : NotificationTexts) (m : NotificationManager) (e : Event) : NotificationManager := (m.handle texts e).1

/-- Groups that the platform still has from the last run of the application: they have been published, and none is of
calls. -/
def RestoredGroups : Type :=
  { groups : QHash Int ManagedGroup // ∀ groupId group, groups.value groupId = some group →
      group.nemoNotification.replacesId = true ∧ group.type ≠ .calls ∧ group.notificationOrder = [] }

def new (memory : Uninitialised) (settings : NotificationSettings) (restored : RestoredGroups) :
    NotificationManager where
  data := Account.TDLibData.new memory
  settings := settings
  notificationGroups := restored.val
  activeChatId := 0
  activeTopicId := []
  applicationActive := true
  pendingChatPhotoChats := QHash.empty
  soundRequests := []

end NotificationManager

end YaqtLib
