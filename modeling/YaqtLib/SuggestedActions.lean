import YaqtLib.Containers
import YaqtLib.Runs
import YaqtLib.TDLibWrapper

/-! The suggested actions (`suggestedactionsmanager.cpp`). A listener reads the getters while a signal is emitted, so
the state at each emission is part of what a slot does. -/

namespace YaqtLib

open Containers Runs TdConst

/-- The actions that are a flag. -/
inductive BasicAction where
  | checkPhoneNumber
  | checkPassword
  | setProfilePhoto
  | setBirthdate
  deriving DecidableEq

structure CustomSuggestedAction where
  title : QVariantMap := []
  description : QVariantMap := []
  url : String := ""

structure SuggestedActionsManager where
  conversionToBroadcastGroupsSuggestions : QHash Int Unit := QHash.empty
  customActionsByName : QHash String CustomSuggestedAction := QHash.empty
  customActions : List String := []
  basicActions : BasicAction → Bool := fun _ => false

namespace SuggestedActionsManager

inductive Signal where
  | customActionChanged
  | basicActionChanged (action : BasicAction)

/-- A signal, with the state in which the listeners are called. -/
structure Emission where
  signal : Signal
  manager : SuggestedActionsManager

abbrev TYPE_SUGGESTED_ACTION_CONVERT_TO_BROADCAST_GROUP : String := "suggestedActionConvertToBroadcastGroup"

abbrev TYPE_SUGGESTED_ACTION_CUSTOM : String := "suggestedActionCustom"

abbrev DESCRIPTION : String := "description"

/-! ### Getters -/

def isConversionToBroadcastGroupSuggested (m : SuggestedActionsManager) (supergroupId : Int) : Bool :=
  m.conversionToBroadcastGroupsSuggestions.contains supergroupId

/-- `customActions.last()`, which is not defined for an empty list. -/
def customActionName (m : SuggestedActionsManager) : Option String := m.customActions.getLast?

/-- `customActionsByName.value(customActions.last())` -/
def customAction (m : SuggestedActionsManager) : Option CustomSuggestedAction :=
  m.customActionName.map fun name => (m.customActionsByName.value name).getD {}

def customActionTitle (m : SuggestedActionsManager) : Option QVariantMap := m.customAction.map (·.title)

def customActionDescription (m : SuggestedActionsManager) : Option QVariantMap := m.customAction.map (·.description)

def customActionUrl (m : SuggestedActionsManager) : Option String := m.customAction.map (·.url)

/-! ### Slots -/

def basicActionOf (type : String) : Option BasicAction :=
  if type = "suggestedActionCheckPhoneNumber" then some .checkPhoneNumber
  else if type = "suggestedActionCheckPassword" then some .checkPassword
  else if type = "suggestedActionSetProfilePhoto" then some .setProfilePhoto
  else if type = "suggestedActionSetBirthdate" then some .setBirthdate
  else none

/-- A flag is set if it differs. -/
def updateBasicAction (m : SuggestedActionsManager) (action : BasicAction) (added : Bool) :
    SuggestedActionsManager × List Emission :=
  if m.basicActions action ≠ added then
    let m := { m with basicActions := fun a => if a = action then added else m.basicActions a }
    (m, [⟨.basicActionChanged action, m⟩])
  else (m, [])

def tryUpdateBasicAction (m : SuggestedActionsManager) (type : String) (added : Bool) :
    SuggestedActionsManager × List Emission :=
  match basicActionOf type with
  | none => (m, [])
  | some action => m.updateBasicAction action added

/-- `QStringList::lastIndexOf` -/
def lastIndexOf (list : List String) (s : String) : Int :=
  match list.reverse.findIdx? (· = s) with
  | some i => list.length - 1 - i
  | none => -1

/-- The body of the first loop of `handleSuggestedActionsUpdated`. -/
def handleRemoved (m : SuggestedActionsManager) (action : QVariantMap) : SuggestedActionsManager × List Emission :=
  let actionType := (action.value TYPE_).toStr
  if actionType = TYPE_SUGGESTED_ACTION_CONVERT_TO_BROADCAST_GROUP then
    ({ m with conversionToBroadcastGroupsSuggestions :=
        m.conversionToBroadcastGroupsSuggestions.remove (action.value SUPERGROUP_ID).toLongLong }, [])
  else if actionType = TYPE_SUGGESTED_ACTION_CUSTOM then
    let name := (action.value NAME).toStr
    let isLast : Bool := lastIndexOf m.customActions name = m.customActions.length - 1
    let m := { m with customActions := m.customActions.filter (· ≠ name) }
    -- the listeners still find the action in the map
    let emissions := if isLast then [⟨.customActionChanged, m⟩] else []
    ({ m with customActionsByName := m.customActionsByName.remove name }, emissions)
  else m.tryUpdateBasicAction actionType false

/-- The body of the second loop of `handleSuggestedActionsUpdated`. -/
def handleAdded (m : SuggestedActionsManager) (action : QVariantMap) : SuggestedActionsManager × List Emission :=
  let actionType := (action.value TYPE_).toStr
  if actionType = TYPE_SUGGESTED_ACTION_CONVERT_TO_BROADCAST_GROUP then
    ({ m with conversionToBroadcastGroupsSuggestions :=
        m.conversionToBroadcastGroupsSuggestions.insert (action.value SUPERGROUP_ID).toLongLong () }, [])
  else if actionType = TYPE_SUGGESTED_ACTION_CUSTOM then
    let name := (action.value NAME).toStr
    let m := { m with
      customActionsByName := m.customActionsByName.insert name
        { title := (action.value TITLE).toMap
          description := (action.value DESCRIPTION).toMap
          url := (action.value URL).toStr }
      customActions := m.customActions ++ [name] }
    (m, [⟨.customActionChanged, m⟩])
  else m.tryUpdateBasicAction actionType true

/-- One slot after the other, with all emissions. -/
def inSequence {α : Type} (slot : SuggestedActionsManager → α → SuggestedActionsManager × List Emission)
    (r : SuggestedActionsManager × List Emission) (as : List α) : SuggestedActionsManager × List Emission :=
  as.foldl (fun r a => ((slot r.1 a).1, r.2 ++ (slot r.1 a).2)) r

def handleSuggestedActionsUpdated (m : SuggestedActionsManager) (added removed : QVariantList) :
    SuggestedActionsManager × List Emission :=
  let r := inSequence handleRemoved (m, []) (removed.map QVariant.toMap)
  inSequence handleAdded r (added.map QVariant.toMap)

def reset (m : SuggestedActionsManager) : SuggestedActionsManager × List Emission :=
  let r : SuggestedActionsManager × List Emission :=
    if m.customActions ≠ [] then
      let m := { m with customActions := [] }
      (m, [⟨.customActionChanged, m⟩])
    else (m, [])
  let m := { r.1 with customActionsByName := QHash.empty, conversionToBroadcastGroupsSuggestions := QHash.empty }
  inSequence (fun m action => m.updateBasicAction action false) (m, r.2)
    [.checkPhoneNumber, .checkPassword, .setProfilePhoto, .setBirthdate]

inductive Event where
  | suggestedActionsUpdated (added removed : QVariantList)
  | clearContent

def handle (m : SuggestedActionsManager) : Event → SuggestedActionsManager × List Emission
  | .suggestedActionsUpdated added removed => m.handleSuggestedActionsUpdated added removed
  | .clearContent => m.reset

/-! ### Runs -/

/-- The parts of the events that are handled one after another. -/
inductive Item where
  | removed (action : QVariantMap)
  | added (action : QVariantMap)
  | reset

def items : Event → List Item
  | .suggestedActionsUpdated added removed =>
      removed.map (fun action => .removed action.toMap) ++ added.map fun action => .added action.toMap
  | .clearContent => [.reset]

def handleItem (m : SuggestedActionsManager) : Item → SuggestedActionsManager × List Emission
  | .removed action => m.handleRemoved action
  | .added action => m.handleAdded action
  | .reset => m.reset

/-- A manager after some events, with all that it has emitted. -/
def step (r : SuggestedActionsManager × List Emission) (e : Event) : SuggestedActionsManager × List Emission :=
  ((r.1.handle e).1, r.2 ++ (r.1.handle e).2)

/-- The same for one item. -/
def stepItem (r : SuggestedActionsManager × List Emission) (item : Item) : SuggestedActionsManager × List Emission :=
  ((r.1.handleItem item).1, r.2 ++ (r.1.handleItem item).2)

def new : SuggestedActionsManager × List Emission := ({}, [])

/-- The getters of the custom action are defined. -/
def Readable (m : SuggestedActionsManager) : Prop :=
  m.customActionName.isSome ∧ m.customActionTitle.isSome ∧ m.customActionDescription.isSome ∧ m.customActionUrl.isSome

/-- The list has no name twice, and has the names of the map. -/
structure Consistent (m : SuggestedActionsManager) : Prop where
  nodup : m.customActions.Nodup
  keys : ∀ name, name ∈ m.customActions ↔ m.customActionsByName.contains name = true

/-- What the four getters give. -/
def getters (m : SuggestedActionsManager) : Option (String × CustomSuggestedAction) :=
  m.customActionName.map fun name => (name, (m.customActionsByName.value name).getD {})

/-- If the getters give something else after the item, the signal is emitted while they give that. -/
def Announces (m : SuggestedActionsManager) (item : Item) : Prop :=
  (m.handleItem item).1.getters ≠ m.getters →
    ∃ manager, ⟨.customActionChanged, manager⟩ ∈ (m.handleItem item).2 ∧
      manager.getters = (m.handleItem item).1.getters

/-- In the state and at all emissions of the signal before it, `P` holds. -/
def Always (P : SuggestedActionsManager → Prop) (r : SuggestedActionsManager × List Emission) : Prop :=
  P r.1 ∧ ∀ manager, ⟨.customActionChanged, manager⟩ ∈ r.2 → P manager

/-- No custom action is removed while it is the last one or added while it is there, and there is none at a reset. -/
def KeepsConsistent (r : SuggestedActionsManager × List Emission) : Item → Prop
  | .removed action =>
      (action.value TYPE_).toStr = TYPE_SUGGESTED_ACTION_CUSTOM →
        r.1.customActionName ≠ some (action.value NAME).toStr
  | .added action =>
      (action.value TYPE_).toStr = TYPE_SUGGESTED_ACTION_CUSTOM → (action.value NAME).toStr ∉ r.1.customActions
  | .reset => r.1.customActions = []

variable {m : SuggestedActionsManager} {r : SuggestedActionsManager × List Emission}

/-! ### What the items do to the custom actions -/

/-- What leaves the custom actions as they are. -/
structure SameCustom (m : SuggestedActionsManager) (r : SuggestedActionsManager × List Emission) : Prop where
  customActions : r.1.customActions = m.customActions
  customActionsByName : r.1.customActionsByName = m.customActionsByName
  silent : ∀ manager, ⟨.customActionChanged, manager⟩ ∉ r.2

theorem SameCustom.refl (m : SuggestedActionsManager) : SameCustom m (m, []) := ⟨rfl, rfl, fun _ => List.not_mem_nil⟩

theorem sameCustom_updateBasicAction (m : SuggestedActionsManager) (action : BasicAction) (added : Bool) :
    SameCustom m (m.updateBasicAction action added) := by
  rw [updateBasicAction]
  split_ifs with hdiffers
  · refine ⟨rfl, rfl, fun manager hmem => ?_⟩
    have heq := List.mem_singleton.mp hmem
    simp at heq
  · exact .refl m

theorem sameCustom_tryUpdateBasicAction (m : SuggestedActionsManager) (type : String) (added : Bool) :
    SameCustom m (m.tryUpdateBasicAction type added) := by
  rw [tryUpdateBasicAction]
  cases basicActionOf type with
  | none => exact .refl m
  | some action => exact m.sameCustom_updateBasicAction action added

/-- After the flags are cleared in a reset, the custom actions and their emissions are as before. -/
theorem sameCustom_clear (actions : List BasicAction) (r : SuggestedActionsManager × List Emission) :
    let cleared := inSequence (fun m action => m.updateBasicAction action false) r actions
    cleared.1.customActions = r.1.customActions ∧ cleared.1.customActionsByName = r.1.customActionsByName ∧
      ∀ manager, ⟨.customActionChanged, manager⟩ ∈ cleared.2 ↔ ⟨.customActionChanged, manager⟩ ∈ r.2 := by
  induction actions generalizing r with
  | nil => exact ⟨rfl, rfl, fun _ => Iff.rfl⟩
  | cons action actions ih =>
      have hsame := r.1.sameCustom_updateBasicAction action false
      obtain ⟨hlist, hmap, hemissions⟩ := ih ((r.1.updateBasicAction action false).1,
        r.2 ++ (r.1.updateBasicAction action false).2)
      refine ⟨hlist.trans hsame.customActions, hmap.trans hsame.customActionsByName, fun manager => ?_⟩
      refine (hemissions manager).trans ?_
      rw [List.mem_append]
      exact or_iff_left (hsame.silent manager)

theorem getters_congr {m m' : SuggestedActionsManager} (hlist : m'.customActions = m.customActions)
    (hmap : m'.customActionsByName = m.customActionsByName) : m'.getters = m.getters := by
  rw [getters, getters, customActionName, customActionName, hlist, hmap]

theorem Consistent.congr {m m' : SuggestedActionsManager} (h : m.Consistent)
    (hlist : m'.customActions = m.customActions) (hmap : m'.customActionsByName = m.customActionsByName) :
    m'.Consistent := by
  refine ⟨?_, fun name => ?_⟩
  · rw [hlist]
    exact h.nodup
  · rw [hlist, hmap]
    exact h.keys name

/-- A name that is not found compares as the last one of an empty list. -/
theorem lastIndexOf_eq_iff (list : List String) (name : String) :
    lastIndexOf list name = list.length - 1 ↔ list = [] ∨ list.getLast? = some name := by
  have hlength : list.length = list.reverse.length := List.length_reverse.symm
  have hnil : list = [] ↔ list.reverse = [] := List.reverse_eq_nil_iff.symm
  rw [lastIndexOf, hlength, hnil, ← List.head?_reverse]
  cases list.reverse with
  | nil => simp
  | cons last rest =>
      rw [List.findIdx?_cons]
      by_cases heq : last = name
      · simp [heq]
      · cases hfound : rest.findIdx? (· = name) with
        | none => simp [heq]
        | some i =>
            simp [heq]
            omega

/-- The state in which the listeners are called at the removal of a name. -/
def withoutName (m : SuggestedActionsManager) (name : String) : SuggestedActionsManager :=
  { m with customActions := m.customActions.filter (· ≠ name) }

theorem handleRemoved_custom {action : QVariantMap}
    (htype : (action.value TYPE_).toStr = TYPE_SUGGESTED_ACTION_CUSTOM) :
    (m.handleRemoved action).1 =
        { m.withoutName (action.value NAME).toStr with
          customActionsByName := m.customActionsByName.remove (action.value NAME).toStr } ∧
      ∀ manager, ⟨.customActionChanged, manager⟩ ∈ (m.handleRemoved action).2 ↔
        (m.customActions = [] ∨ m.customActionName = some (action.value NAME).toStr) ∧
          manager = m.withoutName (action.value NAME).toStr := by
  have hconvert : TYPE_SUGGESTED_ACTION_CUSTOM ≠ TYPE_SUGGESTED_ACTION_CONVERT_TO_BROADCAST_GROUP := by decide
  rw [handleRemoved]
  dsimp only
  rw [htype, if_neg hconvert, if_pos rfl]
  refine ⟨rfl, fun manager => ?_⟩
  rw [customActionName, ← lastIndexOf_eq_iff]
  by_cases hlast : lastIndexOf m.customActions (action.value NAME).toStr = m.customActions.length - 1
  · simp [hlast, withoutName]
  · simp [hlast]

theorem sameCustom_handleRemoved {action : QVariantMap}
    (htype : (action.value TYPE_).toStr ≠ TYPE_SUGGESTED_ACTION_CUSTOM) : SameCustom m (m.handleRemoved action) := by
  rw [handleRemoved]
  dsimp only
  rw [if_neg htype]
  split_ifs
  · exact ⟨rfl, rfl, fun _ => List.not_mem_nil⟩
  · exact m.sameCustom_tryUpdateBasicAction _ _

theorem sameCustom_handleAdded {action : QVariantMap}
    (htype : (action.value TYPE_).toStr ≠ TYPE_SUGGESTED_ACTION_CUSTOM) : SameCustom m (m.handleAdded action) := by
  rw [handleAdded]
  dsimp only
  rw [if_neg htype]
  split_ifs
  · exact ⟨rfl, rfl, fun _ => List.not_mem_nil⟩
  · exact m.sameCustom_tryUpdateBasicAction _ _

theorem handleAdded_custom {action : QVariantMap}
    (htype : (action.value TYPE_).toStr = TYPE_SUGGESTED_ACTION_CUSTOM) :
    (m.handleAdded action).1.customActions = m.customActions ++ [(action.value NAME).toStr] ∧
      (∃ custom, (m.handleAdded action).1.customActionsByName =
        m.customActionsByName.insert (action.value NAME).toStr custom) ∧
      ∀ manager, ⟨.customActionChanged, manager⟩ ∈ (m.handleAdded action).2 ↔
        manager = (m.handleAdded action).1 := by
  have hconvert : TYPE_SUGGESTED_ACTION_CUSTOM ≠ TYPE_SUGGESTED_ACTION_CONVERT_TO_BROADCAST_GROUP := by decide
  rw [handleAdded]
  dsimp only
  rw [htype, if_neg hconvert, if_pos rfl]
  refine ⟨rfl, ⟨_, rfl⟩, fun manager => ?_⟩
  simp

/-- The state in which the listeners are called at a reset. -/
def withoutList (m : SuggestedActionsManager) : SuggestedActionsManager := { m with customActions := [] }

theorem reset_spec (m : SuggestedActionsManager) :
    m.reset.1.customActions = [] ∧ m.reset.1.customActionsByName = QHash.empty ∧
      ∀ manager, ⟨.customActionChanged, manager⟩ ∈ m.reset.2 ↔ m.customActions ≠ [] ∧ manager = m.withoutList := by
  rw [reset]
  dsimp only
  split_ifs with hcustom
  · obtain ⟨hlist, hmap, hemissions⟩ := sameCustom_clear
      [.checkPhoneNumber, .checkPassword, .setProfilePhoto, .setBirthdate]
      ({ m.withoutList with
        customActionsByName := QHash.empty, conversionToBroadcastGroupsSuggestions := QHash.empty },
        [⟨.customActionChanged, m.withoutList⟩])
    refine ⟨hlist, hmap, fun manager => (hemissions manager).trans ?_⟩
    simp [hcustom]
  · obtain ⟨hlist, hmap, hemissions⟩ := sameCustom_clear
      [.checkPhoneNumber, .checkPassword, .setProfilePhoto, .setBirthdate]
      ({ m with customActionsByName := QHash.empty, conversionToBroadcastGroupsSuggestions := QHash.empty }, [])
    refine ⟨hlist.trans (not_not.mp hcustom), hmap, fun manager => (hemissions manager).trans ?_⟩
    simp [hcustom]

/-! ### The list and the map -/

theorem consistent_new : Consistent {} := ⟨List.nodup_nil, fun name => by simp [QHash.contains]⟩

theorem consistent_of_empty {m : SuggestedActionsManager} (hlist : m.customActions = [])
    (hmap : m.customActionsByName = QHash.empty) : m.Consistent := consistent_new.congr hlist hmap

/-- A removed name is missing in the list alone as long as the map is not updated. -/
theorem consistent_withoutName_iff (h : m.Consistent) (name : String) :
    (m.withoutName name).Consistent ↔ name ∉ m.customActions := by
  constructor
  · intro hconsistent hname
    have hmem := (hconsistent.keys name).mpr ((h.keys name).mp hname)
    exact of_decide_eq_true (List.mem_filter.mp hmem).2 rfl
  · intro hname
    refine h.congr ?_ rfl
    exact List.filter_eq_self.mpr fun name' hname' => decide_eq_true fun heq => hname (heq ▸ hname')

theorem consistent_removed (h : m.Consistent) (name : String) :
    Consistent { m.withoutName name with customActionsByName := m.customActionsByName.remove name } := by
  refine ⟨h.nodup.filter _, fun name' => ?_⟩
  change name' ∈ m.customActions.filter (· ≠ name) ↔ (m.customActionsByName.remove name).contains name' = true
  rw [List.mem_filter, decide_eq_true_eq, h.keys, QHash.contains, QHash.contains, QHash.value_remove]
  split_ifs with heq
  · simp [heq]
  · simp [heq]

theorem consistent_withoutList_iff (h : m.Consistent) : m.withoutList.Consistent ↔ m.customActions = [] := by
  constructor
  · intro hconsistent
    refine List.eq_nil_iff_forall_not_mem.mpr fun name hname => ?_
    exact absurd ((hconsistent.keys name).mpr ((h.keys name).mp hname)) List.not_mem_nil
  · intro hnil
    exact h.congr hnil.symm rfl

theorem consistent_added_iff (h : m.Consistent) {m' : SuggestedActionsManager} {name : String}
    {custom : CustomSuggestedAction} (hlist : m'.customActions = m.customActions ++ [name])
    (hmap : m'.customActionsByName = m.customActionsByName.insert name custom) :
    m'.Consistent ↔ name ∉ m.customActions := by
  constructor
  · intro hconsistent hname
    have hnodup := hconsistent.nodup
    rw [hlist] at hnodup
    exact (List.nodup_append.mp hnodup).2.2 name hname name List.mem_cons_self rfl
  · intro hname
    constructor
    · rw [hlist]
      refine h.nodup.append (List.nodup_singleton name) ?_
      exact List.disjoint_singleton.mpr hname
    · intro name'
      rw [hlist, hmap, List.mem_append, List.mem_singleton, h.keys, QHash.contains, QHash.contains, QHash.value_insert]
      split_ifs with heq
      · simp [heq]
      · simp [heq]

/-- **Step lemma.** -/
theorem consistent_handleItem (h : m.Consistent) (log : List Emission) (item : Item) :
    ((∀ manager, ⟨.customActionChanged, manager⟩ ∈ (m.handleItem item).2 → manager.Consistent) →
        KeepsConsistent (m, log) item) ∧
      (KeepsConsistent (m, log) item → Always Consistent (m.handleItem item)) := by
  cases item with
  | removed action =>
      by_cases htype : (action.value TYPE_).toStr = TYPE_SUGGESTED_ACTION_CUSTOM
      · obtain ⟨hstate, hemissions⟩ := m.handleRemoved_custom htype
        constructor
        · intro hall _ hlast
          refine (consistent_withoutName_iff h _).mp (hall _ ((hemissions _).mpr ⟨Or.inr hlast, rfl⟩)) ?_
          exact List.mem_of_getLast? hlast
        · intro hkeeps
          refine ⟨?_, fun manager hmem => ?_⟩
          · change (m.handleRemoved action).1.Consistent
            rw [hstate]
            exact consistent_removed h _
          · obtain ⟨hlast, rfl⟩ := (hemissions manager).mp hmem
            have hnil := hlast.resolve_right (hkeeps htype)
            refine (consistent_withoutName_iff h _).mpr ?_
            rw [hnil]
            exact List.not_mem_nil
      · have hsame := sameCustom_handleRemoved (m := m) htype
        refine ⟨fun _ htype' => absurd htype' htype, fun _ => ⟨?_, fun manager hmem => ?_⟩⟩
        · exact h.congr hsame.customActions hsame.customActionsByName
        · exact absurd hmem (hsame.silent manager)
  | added action =>
      by_cases htype : (action.value TYPE_).toStr = TYPE_SUGGESTED_ACTION_CUSTOM
      · obtain ⟨hlist, ⟨custom, hmap⟩, hemissions⟩ := m.handleAdded_custom htype
        have hiff := consistent_added_iff h hlist hmap
        constructor
        · intro hall _
          exact hiff.mp (hall _ ((hemissions _).mpr rfl))
        · intro hkeeps
          refine ⟨hiff.mpr (hkeeps htype), fun manager hmem => ?_⟩
          rw [(hemissions manager).mp hmem]
          exact hiff.mpr (hkeeps htype)
      · have hsame := sameCustom_handleAdded (m := m) htype
        refine ⟨fun _ htype' => absurd htype' htype, fun _ => ⟨?_, fun manager hmem => ?_⟩⟩
        · exact h.congr hsame.customActions hsame.customActionsByName
        · exact absurd hmem (hsame.silent manager)
  | reset =>
      obtain ⟨hlist, hmap, hemissions⟩ := m.reset_spec
      constructor
      · intro hall
        by_contra hcustom
        exact hcustom ((consistent_withoutList_iff h).mp (hall _ ((hemissions _).mpr ⟨hcustom, rfl⟩)))
      · intro hkeeps
        refine ⟨consistent_of_empty hlist hmap, fun manager hmem => ?_⟩
        exact absurd hkeeps ((hemissions manager).mp hmem).1

/-! ### The signal -/

theorem getLast?_filter_of_ne {l : List String} {last name : String} (hlast : l.getLast? = some last)
    (hne : last ≠ name) : (l.filter (· ≠ name)).getLast? = some last := by
  obtain ⟨init, rfl⟩ := List.getLast?_eq_some_iff.mp hlast
  rw [List.filter_append, List.filter_cons_of_pos (by simpa using hne)]
  exact List.getLast?_concat

/-- The map without the name reads as before for the last action, which has another name. -/
theorem getters_remove {m m' : SuggestedActionsManager} {name : String} (hname : name ∉ m.customActions)
    (hlist : m'.customActions = m.customActions) (hmap : m'.customActionsByName = m.customActionsByName.remove name) :
    m'.getters = m.getters := by
  rw [getters, getters, customActionName, customActionName, hlist, hmap]
  cases hlast : m.customActions.getLast? with
  | none => rfl
  | some last =>
      have hne : last ≠ name := fun heq => hname (heq ▸ List.mem_of_getLast? hlast)
      rw [Option.map_some, Option.map_some, QHash.value_remove_of_ne _ hne]

theorem announces_of_sameCustom {item : Item} (h : SameCustom m (m.handleItem item)) : m.Announces item :=
  fun hne => absurd (getters_congr h.customActions h.customActionsByName) hne

/-- **Signal.** Whatever the state is, an item that changes what the getters give emits the signal for it. -/
theorem announces (m : SuggestedActionsManager) (item : Item) : m.Announces item := by
  cases item with
  | removed action =>
      by_cases htype : (action.value TYPE_).toStr = TYPE_SUGGESTED_ACTION_CUSTOM
      swap
      · exact announces_of_sameCustom (sameCustom_handleRemoved htype)
      · obtain ⟨hstate, hemissions⟩ := m.handleRemoved_custom htype
        intro hchanges
        change (m.handleRemoved action).1.getters ≠ m.getters at hchanges
        refine ⟨m.withoutName (action.value NAME).toStr, (hemissions _).mpr ⟨?_, rfl⟩, ?_⟩
        · -- without an emission the last action stays
          by_contra hsilent
          obtain ⟨hcustom, hlast⟩ := not_or.mp hsilent
          refine hchanges ?_
          rw [hstate, getters, getters, customActionName, customActionName]
          cases hgetLast : m.customActions.getLast? with
          | none => exact absurd (List.getLast?_eq_none_iff.mp hgetLast) hcustom
          | some last =>
              have hne : last ≠ (action.value NAME).toStr := fun heq => hlast (hgetLast.trans (congrArg some heq))
              have hfilter : (m.withoutName (action.value NAME).toStr).customActions.getLast? = some last :=
                getLast?_filter_of_ne hgetLast hne
              dsimp only
              rw [hfilter, Option.map_some, Option.map_some, QHash.value_remove_of_ne _ hne]
        · change _ = (m.handleRemoved action).1.getters
          rw [hstate]
          have hmissing : (action.value NAME).toStr ∉ (m.withoutName (action.value NAME).toStr).customActions := by
            intro hmem
            exact of_decide_eq_true (List.mem_filter.mp hmem).2 rfl
          have hsame : getters { m.withoutName (action.value NAME).toStr with
              customActionsByName := m.customActionsByName.remove (action.value NAME).toStr } =
              (m.withoutName (action.value NAME).toStr).getters := getters_remove hmissing rfl rfl
          exact hsame.symm
  | added action =>
      by_cases htype : (action.value TYPE_).toStr = TYPE_SUGGESTED_ACTION_CUSTOM
      · obtain ⟨-, -, hemissions⟩ := m.handleAdded_custom htype
        exact fun _ => ⟨_, (hemissions _).mpr rfl, rfl⟩
      · exact announces_of_sameCustom (sameCustom_handleAdded htype)
  | reset =>
      obtain ⟨hlist, hmap, hemissions⟩ := m.reset_spec
      intro hchanges
      change m.reset.1.getters ≠ m.getters at hchanges
      have hnone : m.reset.1.getters = none := by
        rw [getters, customActionName, hlist]
        rfl
      by_cases hcustom : m.customActions = []
      · refine absurd (hnone.trans ?_) hchanges
        rw [getters, customActionName, hcustom]
        rfl
      · exact ⟨m.withoutList, (hemissions _).mpr ⟨hcustom, rfl⟩, hnone.symm⟩

/-! ### Runs -/

/-- An event consists of its items. -/
theorem step_eq (r : SuggestedActionsManager × List Emission) (e : Event) : step r e = run stepItem r (items e) := by
  have hlog {α : Type} (slot : SuggestedActionsManager → α → SuggestedActionsManager × List Emission) (as : List α)
      (m : SuggestedActionsManager) (log log' : List Emission) :
      inSequence slot (m, log ++ log') as =
        ((inSequence slot (m, log') as).1, log ++ (inSequence slot (m, log') as).2) := by
    induction as generalizing m log' with
    | nil => rfl
    | cons a as ih =>
        have htail := ih (slot m a).1 (log' ++ (slot m a).2)
        rw [← List.append_assoc] at htail
        exact htail
  cases e with
  | clearContent => rfl
  | suggestedActionsUpdated added removed =>
      have hremoved : run stepItem r (removed.map fun action => .removed action.toMap) =
          inSequence handleRemoved r (removed.map QVariant.toMap) := by
        rw [run, inSequence, List.foldl_map, List.foldl_map]
        rfl
      have hadded (r : SuggestedActionsManager × List Emission) :
          run stepItem r (added.map fun action => .added action.toMap) =
            inSequence handleAdded r (added.map QVariant.toMap) := by
        rw [run, inSequence, List.foldl_map, List.foldl_map]
        rfl
      rw [items, run_append, hremoved, hadded]
      have hfirst := hlog handleRemoved (removed.map QVariant.toMap) r.1 r.2 []
      rw [List.append_nil] at hfirst
      rw [step, handle, handleSuggestedActionsUpdated, hfirst]
      exact (hlog handleAdded _ _ _ _).symm

theorem run_step (r : SuggestedActionsManager × List Emission) (es : List Event) :
    run step r es = run stepItem r (es.flatMap items) := by
  induction es generalizing r with
  | nil => rfl
  | cons e es ih => rw [run_cons, ih, List.flatMap_cons, run_append, step_eq]

/-- What has been emitted stays emitted. -/
theorem mem_run_stepItem {r : SuggestedActionsManager × List Emission} {emission : Emission} (h : emission ∈ r.2)
    (is : List Item) : emission ∈ (run stepItem r is).2 := by
  induction is generalizing r with
  | nil => exact h
  | cons item is ih => exact ih (List.mem_append_left _ h)

/-- **Step lemma**, with all that has been emitted. -/
theorem always_stepItem (h : Always Consistent r) (item : Item) :
    ((∀ manager, ⟨.customActionChanged, manager⟩ ∈ (stepItem r item).2 → manager.Consistent) →
        KeepsConsistent r item) ∧
      (KeepsConsistent r item → Always Consistent (stepItem r item)) := by
  obtain ⟨hvisible, hkeeps⟩ := consistent_handleItem h.1 r.2 item
  constructor
  · intro hall
    exact hvisible fun manager hmem => hall manager (List.mem_append_right _ hmem)
  · intro hkeep
    refine ⟨(hkeeps hkeep).1, fun manager hmem => ?_⟩
    rcases List.mem_append.mp hmem with hmem | hmem
    · exact h.2 manager hmem
    · exact (hkeeps hkeep).2 manager hmem

theorem always_new : Always Consistent new := ⟨consistent_new, fun _ hmem => absurd hmem List.not_mem_nil⟩

/-- The list and the map agree in all states and at all emissions of a run exactly if all its items keep this. -/
theorem always_consistent_iff (es : List Event) :
    (∀ es', es' <+: es → Always Consistent (run step new es')) ↔
      Along stepItem KeepsConsistent new (es.flatMap items) := by
  constructor
  · intro h
    have hiff : (∀ is, is <+: es.flatMap items → ∀ manager,
        ⟨.customActionChanged, manager⟩ ∈ (run stepItem new is).2 → manager.Consistent) ↔
        Along stepItem KeepsConsistent new (es.flatMap items) :=
      Along.always_iff_of_stronger (P := KeepsConsistent) (I := Always Consistent)
        (C := fun r => ∀ manager, ⟨.customActionChanged, manager⟩ ∈ r.2 → manager.Consistent)
        (fun _ h => h.2) (fun _ item h => always_stepItem h item) always_new (es.flatMap items)
    refine hiff.mp fun is his manager hmem => ?_
    -- what is emitted inside an event is there after the run
    obtain ⟨rest, hrest⟩ := his
    have hlater := mem_run_stepItem hmem rest
    rw [← run_append, hrest, ← run_step] at hlater
    exact (h es (List.prefix_refl es)).2 manager hlater
  · intro halong es' hes'
    obtain ⟨rest, rfl⟩ := hes'
    rw [run_step]
    rw [List.flatMap_append] at halong
    exact Along.invariant_always (P := KeepsConsistent) (I := Always Consistent) (s := new)
      (fun _ item h hkeep => (always_stepItem h item).2 hkeep) always_new halong _ (List.prefix_append _ _)

theorem readable_iff (m : SuggestedActionsManager) : m.Readable ↔ m.customActions ≠ [] := by
  have hname : m.customActionName.isSome ↔ m.customActions ≠ [] := by
    rw [customActionName, Option.isSome_iff_ne_none, ne_eq, List.getLast?_eq_none_iff]
  simp only [Readable, customActionTitle, customActionDescription, customActionUrl, customAction, Option.isSome_map,
    and_self, hname]

/-- **Custom actions.** In no run are the getters always defined, since there is no action at the start; they are
defined in exactly the states and at the emissions with an action. List and map agree throughout exactly if no item
removes the last action, adds one that is there or resets actions. A change of the getters is always announced. -/
theorem customActions_spec (es : List Event) :
    ¬ (∀ es', es' <+: es → Always (fun m => m.Readable ∧ m.Consistent) (run step new es')) ∧
      (∀ es', es' <+: es → Always (fun m => m.Readable ↔ m.customActions ≠ []) (run step new es')) ∧
      ((∀ es', es' <+: es → Always Consistent (run step new es')) ↔
        Along stepItem KeepsConsistent new (es.flatMap items)) ∧
      ∀ is, is <+: es.flatMap items → ∀ item, (run stepItem new is).1.Announces item := by
  refine ⟨fun h => ?_, fun es' _ => ⟨readable_iff _, fun manager _ => readable_iff manager⟩,
    always_consistent_iff es, fun is _ item => announces _ item⟩
  exact (readable_iff _).mp (h [] (List.nil_prefix)).1.1 rfl

/-- An action is added and removed: at the emission the map still has it, and there is no last name to read. -/
theorem not_customActions_readable :
    ¬ ∀ es', es' <+: [.suggestedActionsUpdated [.map [(TYPE_, .string "suggestedActionCustom"), (NAME, .string "a")]] [],
        .suggestedActionsUpdated [] [.map [(TYPE_, .string "suggestedActionCustom"), (NAME, .string "a")]]] →
      es' ≠ [] → Always (fun m => m.Readable ∧ m.Consistent) (run step new es') := by
  intro h
  have halways := h _ (List.prefix_refl _) (by simp)
  exact (readable_iff _).mp halways.1.1 rfl

end SuggestedActionsManager

end YaqtLib
