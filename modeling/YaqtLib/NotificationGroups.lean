import YaqtLib.QVariant
import YaqtLib.LatestAdded
import YaqtLib.Runs
import Mathlib.Logic.Function.Basic

/-! The notification groups of `NotificationManager`: the notifications of a group by their ids, and the order in which
they came. -/

namespace YaqtLib

open Containers Runs TdConst

inductive NotificationGroupType where
  | messages
  | mentions
  | secretChat
  | calls
  deriving DecidableEq

def getGroupType (groupType : QVariantMap) : NotificationGroupType :=
  let type := (groupType.value TYPE_).toStr
  if type = "notificationGroupTypeMessages" then .messages
  else if type = "notificationGroupTypeMentions" then .mentions
  else if type = "notificationGroupTypeSecretChat" then .secretChat
  else if type = "notificationGroupTypeCalls" then .calls
  else .messages

structure NotificationGroup where
  type : NotificationGroupType
  notificationGroupId : Int
  chatId : Int
  totalCount : Int
  activeNotifications : QHash Int QVariantMap
  notificationOrder : List Int

namespace NotificationGroup

def lastNotification (group : NotificationGroup) : QVariantMap :=
  match group.notificationOrder.getLast? with
  | none => []
  | some id => (group.activeNotifications.value id).getD []

def addNotification (group : NotificationGroup) (notification : QVariantMap) : NotificationGroup :=
  let addedId := (notification.value "id").toInt
  { group with
    activeNotifications := group.activeNotifications.insert addedId notification
    notificationOrder := group.notificationOrder ++ [addedId] }

/-- `QList::removeOne` removes the first occurrence. -/
def removeNotification (group : NotificationGroup) (removedId : Int) : NotificationGroup :=
  { group with
    activeNotifications := group.activeNotifications.remove removedId
    notificationOrder := group.notificationOrder.erase removedId }

end NotificationGroup

/-- The arguments of `updateNotificationGroup`. -/
structure GroupUpdate where
  type : QVariantMap
  groupId : Int
  chatId : Int
  totalCount : Int
  addedNotifications : List QVariantMap
  removedNotificationIds : List Int

abbrev NotificationGroups := QHash Int NotificationGroup

namespace NotificationGroups

def updateNotificationGroup (groups : NotificationGroups) (u : GroupUpdate) : NotificationGroups :=
  if getGroupType u.type = .calls then groups
  else if u.totalCount ≠ 0 then
    let group :=
      match groups.value u.groupId with
      | some group => { group with type := getGroupType u.type, totalCount := u.totalCount }
      | none =>
          { type := getGroupType u.type, notificationGroupId := u.groupId, chatId := u.chatId,
            totalCount := u.totalCount, activeNotifications := QHash.empty, notificationOrder := [] }
    let group := u.addedNotifications.foldl NotificationGroup.addNotification group
    let group := u.removedNotificationIds.foldl NotificationGroup.removeNotification group
    groups.insert u.groupId group
  else if groups.contains u.groupId then groups.remove u.groupId
  else groups

/-- A group as it is sent at the start of TDLib. -/
def activeGroup (group : QVariantMap) : GroupUpdate :=
  { type := (group.value "type").toMap, groupId := (group.value "id").toInt,
    chatId := (group.value CHAT_ID).toLongLong, totalCount := (group.value "total_count").toInt,
    addedNotifications := (group.value "notifications").toList.map QVariant.toMap, removedNotificationIds := [] }

def groupUpdate (update : QVariantMap) : GroupUpdate :=
  { type := (update.value "type").toMap, groupId := (update.value "notification_group_id").toInt,
    chatId := (update.value CHAT_ID).toLongLong, totalCount := (update.value "total_count").toInt,
    addedNotifications := (update.value "added_notifications").toList.map QVariant.toMap,
    removedNotificationIds := (update.value "removed_notification_ids").toList.map QVariant.toInt }

def handleUpdateActiveNotifications (groups : NotificationGroups) (notificationGroups : List QVariant) :
    NotificationGroups :=
  notificationGroups.foldl (fun groups group => groups.updateNotificationGroup (activeGroup group.toMap)) groups

def handleUpdateNotificationGroup (groups : NotificationGroups) (update : QVariantMap) : NotificationGroups :=
  groups.updateNotificationGroup (groupUpdate update)

def handleUpdateNotification (groups : NotificationGroups) (groupId : Int) (notification : QVariantMap) :
    NotificationGroups :=
  let notificationId := (notification.value "id").toInt
  match groups.value groupId with
  | none => groups
  | some group =>
      if group.activeNotifications.contains notificationId then
        groups.insert groupId
          { group with activeNotifications := group.activeNotifications.insert notificationId notification }
      else groups

inductive Event where
  | updateActiveNotifications (groups : List QVariant)
  | updateNotificationGroup (update : QVariantMap)
  | updateNotification (groupId : Int) (notification : QVariantMap)

def handle (groups : NotificationGroups) : Event → NotificationGroups
  | .updateActiveNotifications notificationGroups => groups.handleUpdateActiveNotifications notificationGroups
  | .updateNotificationGroup update => groups.handleUpdateNotificationGroup update
  | .updateNotification groupId notification => groups.handleUpdateNotification groupId notification

end NotificationGroups

/-- The groups in a run, with what the updates said of them: the last total count of a group, and the notifications
that are present in it, as they were added latest. -/
structure NotificationSession where
  groups : NotificationGroups
  lastCount : Int → Int
  present : Int → Latest Int QVariantMap

namespace NotificationSession

open NotificationGroups (Event)

/-- What an event consists of; the groups that are sent together are handled one after another. -/
inductive Update where
  | group (u : GroupUpdate)
  | notification (groupId : Int) (notification : QVariantMap)

def updates : Event → List Update
  | .updateActiveNotifications groups => groups.map fun group => .group (NotificationGroups.activeGroup group.toMap)
  | .updateNotificationGroup update => [.group (NotificationGroups.groupUpdate update)]
  | .updateNotification groupId notification => [.notification groupId notification]

/-- The entry of a notification. -/
def entry (notification : QVariantMap) : Int × QVariantMap := ((notification.value "id").toInt, notification)

/-- What is present in a group after an update; without notifications there is no group. -/
def presentAfter (present : Latest Int QVariantMap) (u : GroupUpdate) : Latest Int QVariantMap :=
  if u.totalCount ≠ 0 then (present.addAll (u.addedNotifications.map entry)).removeAll u.removedNotificationIds else []

def update (s : NotificationSession) : Update → NotificationSession
  | .group u =>
      if getGroupType u.type = .calls then s
      else
        { groups := s.groups.updateNotificationGroup u
          lastCount := Function.update s.lastCount u.groupId u.totalCount
          present := Function.update s.present u.groupId (presentAfter (s.present u.groupId) u) }
  | .notification groupId notification =>
      { s with
        groups := s.groups.handleUpdateNotification groupId notification
        present := Function.update s.present groupId
          ((s.present groupId).update (entry notification).1 notification) }

def new : NotificationSession := { groups := QHash.empty, lastCount := fun _ => 0, present := fun _ => [] }

/-- An event, with what it says of the groups. -/
def handle (s : NotificationSession) (e : Event) : NotificationSession :=
  { run update s (updates e) with groups := s.groups.handle e }

/-- The order of a group is without repetitions, its ids are the keys of the notifications, the last notification is
the present one that was added latest, and there is a group exactly if its last total count is not zero. -/
structure Consistent (s : NotificationSession) : Prop where
  nodup : ∀ groupId, ∀ group ∈ s.groups.value groupId, group.notificationOrder.Nodup
  keys : ∀ groupId, ∀ group ∈ s.groups.value groupId, ∀ id,
    id ∈ group.notificationOrder ↔ group.activeNotifications.contains id = true
  last : ∀ groupId, ∀ group ∈ s.groups.value groupId, group.lastNotification = ((s.present groupId).last).getD []
  counted : ∀ groupId, s.groups.contains groupId = true ↔ s.lastCount groupId ≠ 0

/-- The ids of the notifications of a group. -/
def order (s : NotificationSession) (groupId : Int) : List Int :=
  match s.groups.value groupId with
  | none => []
  | some group => group.notificationOrder

/-- No notification is added that is in the group already, or twice; unless it is removed as often in the same
update. -/
def AddsNew (s : NotificationSession) : Update → Prop
  | .group u => getGroupType u.type ≠ .calls → u.totalCount ≠ 0 →
      NoneTwice (s.order u.groupId ++ u.addedNotifications.map fun n => (entry n).1) u.removedNotificationIds
  | .notification _ _ => True

/-! ### What the updates keep -/

/-- The notifications of a group are the present ones, and its order is theirs; a group that is not there has none. -/
structure TrackedGroup (group : Option NotificationGroup) (lastCount : Int) (present : Latest Int QVariantMap) :
    Prop where
  entries : ∀ g ∈ group, present.Entries g.activeNotifications
  order : ∀ g ∈ group, g.notificationOrder = present.keys
  absent : group = none → present = []
  counted : group.isSome = true ↔ lastCount ≠ 0

def Tracked (s : NotificationSession) : Prop :=
  ∀ groupId, TrackedGroup (s.groups.value groupId) (s.lastCount groupId) (s.present groupId)

variable {s : NotificationSession}

theorem Tracked.consistent (hs : s.Tracked) : s.Consistent := by
  refine ⟨fun groupId group hgroup => ?_, fun groupId group hgroup id => ?_, fun groupId group hgroup => ?_,
    fun groupId => (hs groupId).counted⟩
  · rw [(hs groupId).order group hgroup]
    exact ((hs groupId).entries group hgroup).nodup
  · rw [(hs groupId).order group hgroup]
    exact ((hs groupId).entries group hgroup).mem_keys id
  · rw [← ((hs groupId).entries group hgroup).last_eq, ← (hs groupId).order group hgroup,
      NotificationGroup.lastNotification]
    cases group.notificationOrder.getLast? with
    | none => rfl
    | some id => rfl

theorem Tracked.order_eq (hs : s.Tracked) (groupId : Int) : s.order groupId = (s.present groupId).keys := by
  rw [NotificationSession.order]
  cases hgroup : s.groups.value groupId with
  | none =>
      rw [(hs groupId).absent hgroup]
      rfl
  | some group => exact (hs groupId).order group hgroup

theorem foldl_addNotification (group : NotificationGroup) (added : List QVariantMap) :
    (added.foldl NotificationGroup.addNotification group).notificationOrder =
        group.notificationOrder ++ added.map (fun n => (entry n).1) ∧
      (added.foldl NotificationGroup.addNotification group).activeNotifications =
        group.activeNotifications.insertAll (added.map entry) := by
  induction added generalizing group with
  | nil => exact ⟨(List.append_nil _).symm, rfl⟩
  | cons n added ih =>
      obtain ⟨horder, hactive⟩ := ih (group.addNotification n)
      refine ⟨horder.trans ?_, hactive⟩
      rw [List.map_cons, List.append_cons]
      rfl

theorem foldl_removeNotification (group : NotificationGroup) (removed : List Int) :
    (removed.foldl NotificationGroup.removeNotification group).notificationOrder =
        group.notificationOrder.diff removed ∧
      (removed.foldl NotificationGroup.removeNotification group).activeNotifications =
        group.activeNotifications.removeAll removed := by
  induction removed generalizing group with
  | nil => exact ⟨rfl, rfl⟩
  | cons id removed ih =>
      obtain ⟨horder, hactive⟩ := ih (group.removeNotification id)
      refine ⟨horder.trans ?_, hactive⟩
      rw [List.diff_cons]
      rfl

/-- What an update makes of a group that has notifications afterwards. -/
theorem updateNotificationGroup_eq (s : NotificationSession) {u : GroupUpdate} (htype : getGroupType u.type ≠ .calls)
    (hcount : u.totalCount ≠ 0) : ∃ group, s.groups.updateNotificationGroup u = s.groups.insert u.groupId group ∧
      group.notificationOrder =
        (s.order u.groupId ++ u.addedNotifications.map fun n => (entry n).1).diff u.removedNotificationIds ∧
      group.activeNotifications = (((s.groups.value u.groupId).elim QHash.empty (·.activeNotifications)).insertAll
        (u.addedNotifications.map entry)).removeAll u.removedNotificationIds := by
  rw [NotificationGroups.updateNotificationGroup, if_neg htype, if_pos hcount, order]
  refine ⟨_, rfl, ?_, ?_⟩
  · rw [(foldl_removeNotification _ _).1, (foldl_addNotification _ _).1]
    cases s.groups.value u.groupId <;> rfl
  · rw [(foldl_removeNotification _ _).2, (foldl_addNotification _ _).2]
    cases s.groups.value u.groupId <;> rfl

theorem value_updateNotificationGroup_zero (groups : NotificationGroups) {u : GroupUpdate}
    (htype : getGroupType u.type ≠ .calls) (hcount : u.totalCount = 0) (groupId : Int) :
    (groups.updateNotificationGroup u).value groupId = if groupId = u.groupId then none else groups.value groupId := by
  rw [NotificationGroups.updateNotificationGroup, if_neg htype, if_neg (not_not.mpr hcount)]
  by_cases hcontains : groups.contains u.groupId = true
  · rw [if_pos hcontains, QHash.value_remove]
  · rw [if_neg hcontains]
    split_ifs with heq
    · rw [heq]
      exact (QHash.contains_eq_false_iff _ _).mp (Bool.not_eq_true _ ▸ hcontains)
    · rfl

theorem entries_present (hs : s.Tracked) (groupId : Int) :
    (s.present groupId).Entries ((s.groups.value groupId).elim QHash.empty (·.activeNotifications)) := by
  cases hgroup : s.groups.value groupId with
  | none =>
      rw [(hs groupId).absent hgroup]
      exact Latest.Entries.nil
  | some group => exact (hs groupId).entries group hgroup

/-- A group whose notifications are updated keeps its order exactly if only new notifications are added. -/
theorem tracked_group (hs : s.Tracked) {u : GroupUpdate} (htype : getGroupType u.type ≠ .calls) :
    ((s.update (.group u)).Consistent → s.AddsNew (.group u)) ∧
      (s.AddsNew (.group u) → (s.update (.group u)).Tracked) := by
  have hupdate : s.update (.group u) =
      { groups := s.groups.updateNotificationGroup u
        lastCount := Function.update s.lastCount u.groupId u.totalCount
        present := Function.update s.present u.groupId (presentAfter (s.present u.groupId) u) } := if_neg htype
  rw [hupdate]
  by_cases hcount : u.totalCount = 0
  · refine ⟨fun _ _ hne => absurd hcount hne, fun _ groupId => ?_⟩
    dsimp only
    rw [value_updateNotificationGroup_zero _ htype hcount]
    by_cases heq : groupId = u.groupId
    · subst heq
      rw [if_pos rfl, Function.update_self, Function.update_self, presentAfter, if_neg (not_not.mpr hcount)]
      refine ⟨by rintro _ ⟨⟩, by rintro _ ⟨⟩, fun _ => rfl, ?_⟩
      rw [hcount]
      simp
    · rw [if_neg heq, Function.update_of_ne heq, Function.update_of_ne heq]
      exact hs groupId
  · obtain ⟨group, hgroups, horder, hactive⟩ := s.updateNotificationGroup_eq htype hcount
    rw [hgroups]
    have hentries : (((s.present u.groupId).addAll (u.addedNotifications.map entry)).removeAll
        u.removedNotificationIds).Entries group.activeNotifications := by
      rw [hactive]
      exact ((entries_present hs u.groupId).addAll _).removeAll _
    have hids : s.order u.groupId ++ u.addedNotifications.map (fun n => (entry n).1) =
        (s.present u.groupId).keys ++ (u.addedNotifications.map entry).map Prod.fst := by
      rw [hs.order_eq, List.map_map]
      rfl
    constructor
    · intro h _ _
      have hvalue : (s.groups.insert u.groupId group).value u.groupId = some group := QHash.value_insert_self _ _ _
      have hnodup := h.nodup u.groupId group hvalue
      have hkeys := h.keys u.groupId group hvalue
      rw [horder] at hnodup hkeys
      refine noneTwice_of_nodup hnodup fun id hid hmem => ?_
      have hcontains := (hentries.mem_keys id).mpr ((hkeys id).mp hmem)
      rw [keys_removeAll, List.mem_filter] at hcontains
      exact of_decide_eq_true hcontains.2 hid
    · intro h groupId
      have hnone := h htype hcount
      dsimp only
      by_cases heq : groupId = u.groupId
      · subst heq
        rw [QHash.value_insert_self, Function.update_self, Function.update_self, presentAfter, if_pos hcount]
        refine ⟨fun g hg => ?_, fun g hg => ?_, by rintro ⟨⟩, iff_of_true rfl hcount⟩
        · rw [← Option.some.inj hg]
          exact hentries
        · rw [← Option.some.inj hg, horder, hids]
          rw [hids] at hnone
          exact diff_keys_eq hnone
      · rw [QHash.value_insert_of_ne _ _ heq, Function.update_of_ne heq, Function.update_of_ne heq]
        exact hs groupId

theorem tracked_notification (hs : s.Tracked) (groupId : Int) (notification : QVariantMap) :
    (s.update (.notification groupId notification)).Tracked := by
  intro k
  rw [update, NotificationGroups.handleUpdateNotification]
  dsimp only
  by_cases heq : k = groupId
  · subst heq
    rw [Function.update_self]
    cases hgroup : s.groups.value k with
    | none =>
        have hs' := hs k
        dsimp only
        rw [hgroup] at hs' ⊢
        have hnone := hs'.absent rfl
        rw [hnone] at hs' ⊢
        exact hs'
    | some group =>
        dsimp only
        have hs' := hs k
        split_ifs with hcontains
        · rw [QHash.value_insert_self]
          rw [hgroup] at hs'
          refine ⟨fun g hg => ?_, fun g hg => ?_, by rintro ⟨⟩, hs'.counted⟩
          · rw [← Option.some.inj hg]
            exact (hs'.entries group rfl).update hcontains notification
          · rw [← Option.some.inj hg, Latest.keys_update]
            exact hs'.order group rfl
        · rw [Latest.update_of_not_mem fun hmem => hcontains ?_]
          · exact hs'
          · rw [hgroup] at hs'
            exact ((hs'.entries group rfl).mem_keys _).mp hmem
  · rw [Function.update_of_ne heq]
    cases s.groups.value groupId with
    | none => exact hs k
    | some group =>
        dsimp only
        split_ifs with hcontains
        · rw [QHash.value_insert_of_ne _ _ heq]
          exact hs k
        · exact hs k

/-- **Step lemma.** -/
theorem tracked_step (hs : s.Tracked) (u : Update) :
    ((s.update u).Consistent → s.AddsNew u) ∧ (s.AddsNew u → (s.update u).Tracked) := by
  cases u with
  | notification groupId notification => exact ⟨fun _ => trivial, fun _ => tracked_notification hs groupId notification⟩
  | group u =>
      by_cases htype : getGroupType u.type = .calls
      · have hsame : s.update (.group u) = s := if_pos htype
        rw [hsame]
        exact ⟨fun _ hne => absurd htype hne, fun _ => hs⟩
      · exact tracked_group hs htype

theorem groups_update_group (s : NotificationSession) (u : GroupUpdate) :
    (s.update (.group u)).groups = s.groups.updateNotificationGroup u := by
  by_cases htype : getGroupType u.type = .calls
  · rw [update, if_pos htype, NotificationGroups.updateNotificationGroup, if_pos htype]
  · rw [update, if_neg htype]

/-- The updates of an event make of the groups what the event does. -/
theorem groups_run_updates (s : NotificationSession) (e : Event) :
    (run update s (updates e)).groups = s.groups.handle e := by
  cases e with
  | updateActiveNotifications groups =>
      rw [NotificationGroups.handle, NotificationGroups.handleUpdateActiveNotifications, updates]
      induction groups generalizing s with
      | nil => rfl
      | cons group groups ih =>
          rw [List.map_cons, run_cons, ih, groups_update_group]
          rfl
  | updateNotificationGroup update => exact s.groups_update_group _
  | updateNotification groupId notification => rfl

theorem handle_eq (s : NotificationSession) (e : Event) : s.handle e = run update s (updates e) := by
  rw [handle, ← groups_run_updates]

theorem run_handle (s : NotificationSession) (es : List Event) :
    run handle s es = run update s (es.flatMap updates) := by
  induction es generalizing s with
  | nil => rfl
  | cons e es ih => rw [run_cons, ih, List.flatMap_cons, run_append, handle_eq]

theorem tracked_new : new.Tracked :=
  fun _ => ⟨nofun, nofun, fun _ => rfl, iff_of_false Bool.false_ne_true fun h => h rfl⟩

/-- **Notification groups.** The groups are consistent in every state of a run if no update adds a notification that
its group has already, or twice; and, the states between the groups of one update included, only then. -/
theorem groups_consistent_iff (es : List Event) :
    (Along update AddsNew new (es.flatMap updates) → ∀ es', es' <+: es → (run handle new es').Consistent) ∧
      ((∀ us, us <+: es.flatMap updates → (run update new us).Consistent) →
        Along update AddsNew new (es.flatMap updates)) := by
  have hiff := Along.always_iff_of_stronger (P := AddsNew) (C := Consistent) (I := Tracked)
    (fun _ hs => hs.consistent) (fun _ u hs => tracked_step hs u) tracked_new (es.flatMap updates)
  refine ⟨fun halong es' hes' => ?_, hiff.mp⟩
  obtain ⟨rest, rfl⟩ := hes'
  rw [run_handle]
  exact hiff.mpr halong _ ⟨rest.flatMap updates, List.flatMap_append.symm⟩

/-- A notification that is sent in an update, and again with its group. -/
theorem not_groups_consistent :
    ¬ ∀ es' : List Event,
      es' <+: [.updateNotificationGroup [("notification_group_id", .longLong 5), ("total_count", .longLong 1),
          ("added_notifications", .list [.map [("id", .longLong 1)]])],
        .updateActiveNotifications [.map [("id", .longLong 5), ("total_count", .longLong 1),
          ("notifications", .list [.map [("id", .longLong 1)]])]]] → (run handle new es').Consistent := by
  intro h
  have hnodup := (h _ (List.prefix_refl _)).nodup 5 _ rfl
  exact absurd hnodup (by decide)

end NotificationSession

end YaqtLib
