import YaqtLib.ChatFoldersUpdate
import YaqtLib.QString

/-! What the rows of the folders show (`ChatFoldersModel::data`), and what an update makes of the rows that stand before
it. A new row takes its icon out of the folder's data; a row that stands is given the data as they are and keeps
its icon. -/

namespace YaqtLib

open Containers IndexMap Runs TdConst

namespace TdConst

abbrev COLOR_ID : String := "color_id"
abbrev IS_SHAREABLE : String := "is_shareable"
abbrev HAS_MY_INVITE_LINKS : String := "has_my_invite_links"

end TdConst

namespace Utilities

/-- `enhanceMessageText` with the entities ignored. -/
def enhanceMessageText (formattedText : QVariantMap) : QString :=
  FormattedText.getPlainEscapedFor (QString.ofString (formattedText.value TEXT).toStr)

end Utilities

namespace ChatFolderData

/-- What the platform and the language of the user add: the path of an icon, and the translated names of the two
rows that are no folders. -/
structure Platform where
  pathToChatFolderIcon : Icon → String
  tr : String → QString

def name (platform : Platform) (row : ChatFolderData) : QString :=
  match row.type with
  | .folderMain => platform.tr "All"
  | .folderFolder => Utilities.enhanceMessageText ((row.data.value NAME).toMap.value TEXT).toMap
  | .folderArchive => platform.tr "Archive"

/-- The roles that a row answers by itself; the chat list of a row and its count are asked from elsewhere. -/
inductive Role where
  | display
  | id
  | name
  | icon
  | iconPath
  | colorId
  | isShareable
  | hasMyInviteLinks
  | type
  deriving DecidableEq

inductive RoleValue where
  | map (v : QVariantMap)
  | int (n : Int)
  | text (s : QString)
  | icon (icon : Icon)
  | url (path : String)
  | bool (b : Bool)
  | type (type : FolderType)

/-- `ChatFoldersModel::data` at a row. -/
def roleValue (platform : Platform) (row : ChatFolderData) : Role → RoleValue
  | .display => .map row.data
  | .id => .int (row.data.value ID).toInt
  | .name => .text (row.name platform)
  | .icon => .icon row.icon
  | .iconPath => .url (platform.pathToChatFolderIcon row.icon)
  | .colorId => .int (row.data.value COLOR_ID).toInt
  | .isShareable => .bool (row.data.value IS_SHAREABLE).toBool
  | .hasMyInviteLinks => .bool (row.data.value HAS_MY_INVITE_LINKS).toBool
  | .type => .type row.type

/-- The roles of a row tell all of it. -/
theorem roleValue_inj {platform : Platform} {row row' : ChatFolderData} :
    (∀ role, row.roleValue platform role = row'.roleValue platform role) ↔ row = row' := by
  constructor
  · intro h
    have hdata := RoleValue.map.inj (h .display)
    have hicon := RoleValue.icon.inj (h .icon)
    have htype := RoleValue.type.inj (h .type)
    cases row
    cases row'
    dsimp only at hdata hicon htype
    rw [hdata, hicon, htype]
  · rintro rfl role
    rfl

theorem ofFolder_of_no_icon {data : QVariantMap} (h : data.contains ICON = false) :
    ofFolder data = { type := .folderFolder, icon := .all, data := data } := by
  have hremove : data.remove ICON = data := by
    refine List.filter_eq_self.mpr fun entry hentry => decide_eq_true fun hkey => ?_
    rw [QVariantMap.contains, List.any_eq_false] at h
    exact h entry hentry (decide_eq_true hkey)
  rw [ofFolder, hremove, QVariantMap.value_of_contains_eq_false h]
  rfl

/-- A row that is given new data is the row that would be made of them exactly if they carry no icon and the row has
the icon of such data. -/
theorem with_data_eq_ofFolder_iff {row : ChatFolderData} (hrow : row.isFolder = true) (folder : QVariantMap) :
    { row with data := folder } = ofFolder folder ↔ row.icon = .all ∧ folder.contains ICON = false := by
  have htype : row.type = .folderFolder := by simpa [isFolder] using hrow
  constructor
  · intro h
    have hdata : folder = folder.remove ICON := congrArg ChatFolderData.data h
    have hnone : folder.contains ICON = false := by
      rw [hdata]
      exact QVariantMap.contains_remove_self folder ICON
    rw [ofFolder_of_no_icon hnone] at h
    exact ⟨congrArg ChatFolderData.icon h, hnone⟩
  · rintro ⟨hicon, hnone⟩
    rw [ofFolder_of_no_icon hnone, htype, hicon]

end ChatFolderData

namespace ChatFoldersModel

open ChatFolderData

/-! ### The rows of one folder through an update -/

/-- The rows of a folder. -/
def rowsOf (id : Int) (rows : List ChatFolderData) : List ChatFolderData := rows.filter fun row => row.key = some id

/-- The objects an update holds for a folder. -/
def objectsOf (id : Int) (newChatFolders : QVariantList) : List QVariantMap :=
  (newChatFolders.map QVariant.toMap).filter fun folder => (folder.value ID).toInt = id

/-- What one object of a folder makes of the folder's rows. -/
def applyObject (rows : List ChatFolderData) (folder : QVariantMap) : List ChatFolderData :=
  if rows.isEmpty then [ofFolder folder] else rows.map fun row => { row with data := folder }

theorem rowsOf_perm {id : Int} {rows rows' : List ChatFolderData} (h : rows.Perm rows') :
    (rowsOf id rows).Perm (rowsOf id rows') :=
  h.filter _

theorem mem_rowsOf {id : Int} {rows : List ChatFolderData} {row : ChatFolderData} :
    row ∈ rowsOf id rows ↔ row ∈ rows ∧ row.key = some id := by
  rw [rowsOf, List.mem_filter, decide_eq_true_iff]

theorem rowsOf_cons (id : Int) (row : ChatFolderData) (rows : List ChatFolderData) :
    rowsOf id (row :: rows) = if row.key = some id then row :: rowsOf id rows else rowsOf id rows := by
  rw [rowsOf, List.filter_cons]
  simp only [decide_eq_true_eq, rowsOf]

theorem applyObject_perm {rows rows' : List ChatFolderData} (h : rows.Perm rows') (folder : QVariantMap) :
    (applyObject rows folder).Perm (applyObject rows' folder) := by
  have hempty : rows.isEmpty = rows'.isEmpty := by
    rw [Bool.eq_iff_iff, List.isEmpty_iff, List.isEmpty_iff]
    exact ⟨fun hnil => (hnil ▸ h).nil_eq.symm, fun hnil => (hnil ▸ h).eq_nil⟩
  rw [applyObject, applyObject, hempty]
  split_ifs
  · exact List.Perm.refl _
  · exact h.map _

theorem finishMove_chatFolders (m : ChatFoldersModel) (source target : Nat) :
    (finishMove m source target).chatFolders = m.chatFolders := by
  obtain ⟨index, heq⟩ := finishMove_eq m source target
  rw [heq]

/-- The data of an object are those of its folder. -/
theorem key_with_data {row : ChatFolderData} {folder : QVariantMap} (h : row.key = some (folder.value ID).toInt) :
    ({ row with data := folder } : ChatFolderData).key = some (folder.value ID).toInt :=
  key_eq_some_iff.mpr ⟨(key_eq_some_iff.mp h).1, rfl⟩

/-- The rows of a folder once an object has been written into the rows of the object's folder. -/
theorem rowsOf_map_data (id : Int) (rows : List ChatFolderData) (folder : QVariantMap) :
    rowsOf id (rows.map fun row =>
      if (row.isFolder && decide (row.id = (folder.value ID).toInt)) = true then { row with data := folder } else row) =
      if (folder.value ID).toInt = id then (rowsOf id rows).map fun row => { row with data := folder }
      else rowsOf id rows := by
  induction rows with
  | nil => split_ifs <;> rfl
  | cons row rows ih =>
      rw [List.map_cons, rowsOf_cons, rowsOf_cons, ih]
      by_cases hrow : row.key = some (folder.value ID).toInt
      · rw [if_pos ((isOfFolder_iff row _).mpr hrow), key_with_data hrow, hrow]
        by_cases hid : (folder.value ID).toInt = id
        · rw [if_pos (congrArg some hid), if_pos (congrArg some hid), if_pos hid, if_pos hid, List.map_cons]
        · have hne : ¬ some (folder.value ID).toInt = some id := fun h => hid (Option.some.inj h)
          rw [if_neg hne, if_neg hne, if_neg hid]
      · rw [if_neg fun h => hrow ((isOfFolder_iff row _).mp h)]
        by_cases hid : (folder.value ID).toInt = id
        · rw [hid] at hrow
          rw [if_neg hrow, if_neg hrow]
        · rw [if_neg hid, if_neg hid]

theorem forall_of_lastIndexWhere_eq_none {α : Type} {p : α → Bool} {l : List α} (h : lastIndexWhere p l = none) :
    ∀ x ∈ l, p x = false := by
  induction l with
  | nil => exact fun x hx => absurd hx List.not_mem_nil
  | cons y l ih =>
      rw [lastIndexWhere] at h
      cases hlast : lastIndexWhere p l with
      | some j => rw [hlast] at h; cases h
      | none =>
          rw [hlast] at h
          intro x hx
          rcases List.mem_cons.mp hx with rfl | hx
          · by_contra hpx
            rw [Bool.not_eq_false] at hpx
            dsimp only at h
            rw [if_pos hpx] at h
            cases h
          · exact ih hlast x hx

/-- One object of the update changes the rows of its folder only. -/
theorem rowsOf_updateChatFolder {p : Int} {folder : QVariantMap} {i : Nat} {m m' : ChatFoldersModel}
    (h : updateChatFolder p folder i m = some m') (id : Int) :
    (rowsOf id m'.chatFolders).Perm
      (if (folder.value ID).toInt = id then applyObject (rowsOf id m.chatFolders) folder
        else rowsOf id m.chatFolders) := by
  have hmap := rowsOf_map_data id m.chatFolders folder
  rw [updateChatFolder] at h
  generalize (if p ≤ (i : Int) then i + 1 else i) = normalizedIndex at h
  dsimp only at h
  cases hold : lastIndexWhere (fun folderData : ChatFolderData =>
      folderData.isFolder && decide (folderData.id = (folder.value ID).toInt)) m.chatFolders with
  | none =>
      rw [hold] at h
      have hnone : ∀ row ∈ m.chatFolders, row.key ≠ some (folder.value ID).toInt := fun row hrow hkey =>
        Bool.false_ne_true
          ((forall_of_lastIndexWhere_eq_none hold row hrow).symm.trans ((isOfFolder_iff row _).mpr hkey))
      obtain ⟨index, heq⟩ := foldl_updateChatFolderIndexAt _ _ _
      rw [Option.some_inj] at h
      rw [← h, heq]
      dsimp only
      rw [map_data_self hnone]
      refine (rowsOf_perm (List.perm_insertIdx (ofFolder folder) m.chatFolders (Nat.min_le_right _ _))).trans ?_
      rw [rowsOf_cons, key_ofFolder]
      by_cases hid : (folder.value ID).toInt = id
      · have hempty : rowsOf id m.chatFolders = [] :=
          List.filter_eq_nil_iff.mpr fun row hrow => by rw [decide_eq_true_iff, ← hid]; exact hnone row hrow
        rw [if_pos hid, if_pos (congrArg some hid), hempty]
        exact List.Perm.refl _
      · rw [if_neg hid, if_neg fun h => hid (Option.some.inj h)]
  | some oldIndex =>
      rw [hold] at h
      dsimp only at h
      have happly : (if (folder.value ID).toInt = id then
            (rowsOf id m.chatFolders).map fun row => { row with data := folder } else rowsOf id m.chatFolders) =
          if (folder.value ID).toInt = id then applyObject (rowsOf id m.chatFolders) folder
            else rowsOf id m.chatFolders := by
        by_cases hid : (folder.value ID).toInt = id
        · have hne : (rowsOf id m.chatFolders).isEmpty = false := by
            by_contra hempty
            rw [Bool.not_eq_false, List.isEmpty_iff, rowsOf, List.filter_eq_nil_iff] at hempty
            have hnone : lastIndexWhere (fun folderData : ChatFolderData =>
                folderData.isFolder && decide (folderData.id = (folder.value ID).toInt)) m.chatFolders = none := by
              refine lastIndexWhere_eq_none fun row hrow => ?_
              rw [← Bool.not_eq_true, isOfFolder_iff, hid]
              exact fun hkey => hempty row hrow (decide_eq_true hkey)
            rw [hold] at hnone
            cases hnone
          rw [if_pos hid, if_pos hid, applyObject, hne, if_neg Bool.false_ne_true]
        · rw [if_neg hid, if_neg hid]
      rw [happly] at hmap
      by_cases hsame : oldIndex = normalizedIndex
      · rw [if_pos hsame, Option.some_inj] at h
        rw [← h]
        exact List.Perm.of_eq hmap
      · rw [if_neg hsame] at h
        obtain ⟨-, h⟩ := Option.ite_none_right_eq_some.mp h
        rw [← Option.some.inj h, finishMove_chatFolders]
        exact (rowsOf_perm (move_perm _ _ _)).trans (List.Perm.of_eq hmap)

theorem objectsOf_cons (id : Int) (folder : QVariant) (newChatFolders : QVariantList) :
    objectsOf id (folder :: newChatFolders) =
      if (folder.toMap.value ID).toInt = id then folder.toMap :: objectsOf id newChatFolders
      else objectsOf id newChatFolders := by
  rw [objectsOf, List.map_cons, List.filter_cons]
  simp only [decide_eq_true_eq, objectsOf]

theorem foldl_applyObject_perm {rows rows' : List ChatFolderData} (h : rows.Perm rows') (folders : List QVariantMap) :
    (folders.foldl applyObject rows).Perm (folders.foldl applyObject rows') := by
  induction folders generalizing rows rows' with
  | nil => exact h
  | cons folder folders ih => exact ih (applyObject_perm h folder)

/-- The objects of the update are applied to the rows of their folders in their order. -/
theorem rowsOf_updateChatFolders {p : Int} {newChatFolders : QVariantList} {i : Nat} {m m' : ChatFoldersModel}
    (h : updateChatFolders p newChatFolders i m = some m') (id : Int) :
    (rowsOf id m'.chatFolders).Perm ((objectsOf id newChatFolders).foldl applyObject (rowsOf id m.chatFolders)) := by
  induction newChatFolders generalizing i m with
  | nil =>
      rw [updateChatFolders, Option.some_inj] at h
      rw [← h]
      exact List.Perm.refl _
  | cons folder newChatFolders ih =>
      rw [updateChatFolders] at h
      obtain ⟨m₁, hfirst, hrest⟩ := Option.bind_eq_some_iff.mp h
      refine (ih hrest).trans ?_
      have hone := rowsOf_updateChatFolder hfirst id
      rw [objectsOf_cons]
      split_ifs at hone ⊢ with hid
      · exact foldl_applyObject_perm hone _
      · exact foldl_applyObject_perm hone _

theorem rowsOf_eraseIdx {id : Int} {rows : List ChatFolderData} {i : Nat} {row : ChatFolderData}
    (hrow : rows[i]? = some row) (hkey : row.key ≠ some id) : rowsOf id (rows.eraseIdx i) = rowsOf id rows := by
  obtain ⟨hlt, hget⟩ := List.getElem?_eq_some_iff.mp hrow
  have hsplit : rows = rows.take i ++ row :: rows.drop (i + 1) := by
    rw [← hget, ← List.drop_eq_getElem_cons hlt, List.take_append_drop]
  rw [List.eraseIdx_eq_take_drop_succ]
  conv_rhs => rw [hsplit]
  rw [rowsOf, rowsOf, List.filter_append, List.filter_append, List.filter_cons_of_neg (by simpa using hkey)]

/-- The removal keeps the rows of the given folders, -/
theorem rowsOf_removeChatFolders {ids : List Int} {id : Int} (hid : id ∈ ids) (n : Nat) (m : ChatFoldersModel) :
    rowsOf id (removeChatFolders ids n m).chatFolders = rowsOf id m.chatFolders := by
  induction n generalizing m with
  | zero => rfl
  | succ i ih =>
      rw [removeChatFolders]
      cases hrow : m.chatFolders[i]? with
      | none => exact ih m
      | some row =>
          dsimp only
          split_ifs with hremoved
          · rw [ih]
            exact rowsOf_eraseIdx hrow fun hkey => hremoved.2 ((key_eq_some_iff.mp hkey).2 ▸ hid)
          · exact ih m

/-- and no others. -/
theorem mem_ids_of_mem_removeChatFolders {ids : List Int} {n : Nat} {m : ChatFoldersModel}
    (hn : ∀ row ∈ m.chatFolders.drop n, row.isFolder = true → row.id ∈ ids) :
    ∀ row ∈ (removeChatFolders ids n m).chatFolders, row.isFolder = true → row.id ∈ ids := by
  induction n generalizing m with
  | zero => exact hn
  | succ i ih =>
      rw [removeChatFolders]
      cases hrow : m.chatFolders[i]? with
      | none =>
          refine ih fun row hmem => ?_
          rw [List.drop_eq_nil_of_le (List.getElem?_eq_none_iff.mp hrow)] at hmem
          exact absurd hmem List.not_mem_nil
      | some old =>
          obtain ⟨hlt, hget⟩ := List.getElem?_eq_some_iff.mp hrow
          dsimp only
          split_ifs with hremoved
          · have hdrop : (m.chatFolders.eraseIdx i).drop i = m.chatFolders.drop (i + 1) := by
              rw [List.eraseIdx_eq_take_drop_succ, List.drop_left' (by rw [List.length_take]; omega)]
            refine ih fun row hmem => hn row ?_
            rwa [hdrop] at hmem
          · refine ih fun row hmem hfolder => ?_
            rw [List.drop_eq_getElem_cons hlt, hget] at hmem
            rcases List.mem_cons.mp hmem with rfl | hmem
            · by_contra hnot
              exact hremoved ⟨hfolder, hnot⟩
            · exact hn row hmem hfolder

theorem moveMainChatList_perm {m m' : ChatFoldersModel} {p : Int} (h : moveMainChatList m p = some m') :
    m'.chatFolders.Perm m.chatFolders := by
  rw [moveMainChatList] at h
  split_ifs at h with hsame
  · rw [← Option.some.inj h]
  · obtain ⟨source, -, h⟩ := Option.bind_eq_some_iff.mp h
    split_ifs at h with hrange
    rw [← Option.some.inj h, finishMove_chatFolders]
    exact move_perm _ _ _

theorem mem_idsOf_iff {newChatFolders : QVariantList} {id : Int} :
    id ∈ idsOf newChatFolders ↔ objectsOf id newChatFolders ≠ [] := by
  induction newChatFolders with
  | nil => simp [idsOf, objectsOf]
  | cons folder newChatFolders ih =>
      rw [objectsOf_cons, idsOf, List.map_cons, List.mem_cons, ← idsOf, ih]
      split_ifs with hid
      · exact iff_of_true (Or.inl hid.symm) (List.cons_ne_nil _ _)
      · exact or_iff_right fun h => hid h.symm

/-- **The rows after an update.** The rows of a folder are what its objects make of the rows that stood; a folder that
the update does not name has no row. -/
theorem rowsOf_handleChatFoldersUpdated {m m' : ChatFoldersModel} {newChatFolders : QVariantList} {p : Int}
    (h : handleChatFoldersUpdated m newChatFolders p = some m') :
    (∀ id ∈ idsOf newChatFolders, (rowsOf id m'.chatFolders).Perm
      ((objectsOf id newChatFolders).foldl applyObject (rowsOf id m.chatFolders))) ∧
    ∀ row ∈ m'.chatFolders, row.isFolder = true → row.id ∈ idsOf newChatFolders := by
  rw [handleChatFoldersUpdated] at h
  obtain ⟨m₁, hmove, h⟩ := Option.bind_eq_some_iff.mp h
  obtain ⟨m₂, hfolders, h⟩ := Option.map_eq_some_iff.mp h
  have hrows : m'.chatFolders = m₂.chatFolders := by rw [← h]
  have hperm := moveMainChatList_perm hmove
  have hspec := rowsOf_updateChatFolders hfolders
  rw [hrows]
  constructor
  · intro id hid
    refine (hspec id).trans (foldl_applyObject_perm ((rowsOf_perm hperm).trans (List.Perm.of_eq ?_)) _)
    exact rowsOf_removeChatFolders hid _ _
  · intro row hrow hfolder
    by_contra hnot
    have hempty : objectsOf row.id newChatFolders = [] := by
      by_contra hne
      exact hnot (mem_idsOf_iff.mpr hne)
    have hmem : row ∈ rowsOf row.id m₂.chatFolders := mem_rowsOf.mpr ⟨hrow, key_eq_some_iff.mpr ⟨hfolder, rfl⟩⟩
    rw [(hspec row.id).mem_iff, hempty, List.foldl_nil, mem_rowsOf, hperm.mem_iff] at hmem
    refine hnot (mem_ids_of_mem_removeChatFolders (fun row' hrow' => ?_) row hmem.1 hfolder)
    rw [List.drop_length] at hrow'
    exact absurd hrow' List.not_mem_nil

/-! ### The rows forget -/

/-- The object an update holds last for a folder. -/
def lastObjectOf (id : Int) (newChatFolders : QVariantList) : Option QVariantMap :=
  (objectsOf id newChatFolders).getLast?

/-- The icons of the rows that the last object of a folder finds: of those that stood, or else of the row that an
earlier object of the folder in the same update made. -/
def iconsMet (m : ChatFoldersModel) (id : Int) (newChatFolders : QVariantList) : List Icon :=
  if (rowsOf id m.chatFolders).isEmpty then
    ((objectsOf id newChatFolders).dropLast.head?.map fun folder => (ofFolder folder).icon).toList
  else (rowsOf id m.chatFolders).map ChatFolderData.icon

/-- Every folder row shows in every role what a row shows that is made of its folder's object. -/
def ShowsUpdate (platform : Platform) (newChatFolders : QVariantList) (m : ChatFoldersModel) : Prop :=
  ∀ row ∈ m.chatFolders, row.isFolder = true → ∃ folder, lastObjectOf row.id newChatFolders = some folder ∧
    ∀ role, row.roleValue platform role = (ofFolder folder).roleValue platform role

/-- Two models show the same of each folder. -/
def ShowSame (platform : Platform) (m₁ m₂ : ChatFoldersModel) : Prop :=
  ∀ row₁ ∈ m₁.chatFolders, ∀ row₂ ∈ m₂.chatFolders, row₁.isFolder = true → row₂.isFolder = true → row₁.id = row₂.id →
    ∀ role, row₁.roleValue platform role = row₂.roleValue platform role

/-- An object that finds a row of its folder carries no icon, and the row has the icon that stands for none. -/
def MeetsPlainRows (m : ChatFoldersModel) (newChatFolders : QVariantList) : Prop :=
  ∀ id folder, lastObjectOf id newChatFolders = some folder → ∀ icon ∈ iconsMet m id newChatFolders,
    icon = .all ∧ folder.contains ICON = false

/-- The rows keep the icon they were made with. -/
theorem map_icon_foldl_applyObject (rows : List ChatFolderData) (folders : List QVariantMap) :
    (folders.foldl applyObject rows).map ChatFolderData.icon =
      if rows.isEmpty then (folders.head?.map fun folder => (ofFolder folder).icon).toList
      else rows.map ChatFolderData.icon := by
  induction folders generalizing rows with
  | nil =>
      split_ifs with hempty
      · rw [List.isEmpty_iff.mp hempty]
        rfl
      · rfl
  | cons folder folders ih =>
      rw [List.foldl_cons, ih, applyObject]
      by_cases hempty : rows.isEmpty = true
      · rw [if_pos hempty, if_pos hempty]
        rfl
      · have hmap : (rows.map fun row => ({ row with data := folder } : ChatFolderData)).isEmpty = false := by
          rw [List.isEmpty_map]
          exact Bool.eq_false_iff.mpr hempty
        rw [if_neg hempty, if_neg hempty, if_neg (Bool.eq_false_iff.mp hmap), List.map_map]
        rfl

theorem isFolder_foldl_applyObject {rows : List ChatFolderData} (h : ∀ row ∈ rows, row.isFolder = true)
    (folders : List QVariantMap) : ∀ row ∈ folders.foldl applyObject rows, row.isFolder = true := by
  induction folders generalizing rows with
  | nil => exact h
  | cons folder folders ih =>
      refine ih fun row hrow => ?_
      rw [applyObject] at hrow
      split_ifs at hrow
      · rw [List.mem_singleton.mp hrow]
        rfl
      · obtain ⟨old, hold, rfl⟩ := List.mem_map.mp hrow
        exact h old hold

/-- The rows made of the last object are all fresh exactly if the rows it finds are plain. -/
theorem applyObject_fresh_iff {rows : List ChatFolderData} (h : ∀ row ∈ rows, row.isFolder = true)
    (folder : QVariantMap) :
    (∀ row ∈ applyObject rows folder, row = ofFolder folder) ↔
      ∀ icon ∈ rows.map ChatFolderData.icon, icon = .all ∧ folder.contains ICON = false := by
  rw [applyObject]
  split_ifs with hempty
  · rw [List.isEmpty_iff.mp hempty]
    simp
  · constructor
    · intro hrows icon hicon
      obtain ⟨row, hrow, rfl⟩ := List.mem_map.mp hicon
      exact (with_data_eq_ofFolder_iff (h row hrow) folder).mp (hrows _ (List.mem_map_of_mem hrow))
    · intro hicons row hrow
      obtain ⟨old, hold, rfl⟩ := List.mem_map.mp hrow
      exact (with_data_eq_ofFolder_iff (h old hold) folder).mpr (hicons _ (List.mem_map_of_mem hold))

/-- The rows of one folder after the update are fresh exactly if its last object finds plain rows. -/
theorem rowsOf_fresh_iff {m m' : ChatFoldersModel} {newChatFolders : QVariantList} {p : Int}
    (h : handleChatFoldersUpdated m newChatFolders p = some m') {id : Int} {folder : QVariantMap}
    (hlast : lastObjectOf id newChatFolders = some folder) :
    (∀ row ∈ rowsOf id m'.chatFolders, row = ofFolder folder) ↔
      ∀ icon ∈ iconsMet m id newChatFolders, icon = .all ∧ folder.contains ICON = false := by
  obtain ⟨earlier, hobjects⟩ : ∃ earlier, objectsOf id newChatFolders = earlier ++ [folder] :=
    ⟨_, (List.dropLast_append_getLast? folder hlast).symm⟩
  have hid : id ∈ idsOf newChatFolders := mem_idsOf_iff.mpr (by rw [hobjects]; simp)
  have hrows := (rowsOf_handleChatFoldersUpdated h).1 id hid
  rw [hobjects, List.foldl_append, List.foldl_cons, List.foldl_nil] at hrows
  have hfolders : ∀ row ∈ rowsOf id m.chatFolders, row.isFolder = true := fun row hrow =>
    (key_eq_some_iff.mp (mem_rowsOf.mp hrow).2).1
  have hicons : (earlier.foldl applyObject (rowsOf id m.chatFolders)).map ChatFolderData.icon =
      iconsMet m id newChatFolders := by
    rw [map_icon_foldl_applyObject, iconsMet, hobjects, List.dropLast_concat]
  rw [← hicons, ← applyObject_fresh_iff (isFolder_foldl_applyObject hfolders earlier)]
  exact forall_congr' fun row => by rw [hrows.mem_iff]

theorem showsUpdate_iff (platform : Platform) {m m' : ChatFoldersModel} {newChatFolders : QVariantList} {p : Int}
    (h : handleChatFoldersUpdated m newChatFolders p = some m') :
    ShowsUpdate platform newChatFolders m' ↔ MeetsPlainRows m newChatFolders := by
  constructor
  · intro hshows id folder hlast
    refine (rowsOf_fresh_iff h hlast).mp fun row hrow => ?_
    obtain ⟨hmem, hkey⟩ := mem_rowsOf.mp hrow
    obtain ⟨hfolder, hid⟩ := key_eq_some_iff.mp hkey
    obtain ⟨folder', hlast', hroles⟩ := hshows row hmem hfolder
    rw [hid, hlast] at hlast'
    rw [Option.some.inj hlast']
    exact roleValue_inj.mp hroles
  · intro hplain row hmem hfolder
    have hid := (rowsOf_handleChatFoldersUpdated h).2 row hmem hfolder
    cases hlast : lastObjectOf row.id newChatFolders with
    | none => exact absurd (List.getLast?_eq_none_iff.mp hlast) (mem_idsOf_iff.mp hid)
    | some folder =>
        have hrow : row ∈ rowsOf row.id m'.chatFolders := mem_rowsOf.mpr ⟨hmem, key_eq_some_iff.mpr ⟨hfolder, rfl⟩⟩
        refine ⟨folder, rfl, roleValue_inj.mpr ?_⟩
        exact (rowsOf_fresh_iff h hlast).mpr (hplain row.id folder hlast) row hrow

/-- **The folder rows forget the past exactly if plain rows are met.** After the same update of two models, every
folder row shows the same in both and what a fresh row shows, exactly if no object of the update finds a row with
an icon or brings one to a row that stands. -/
theorem folderRows_forget_iff (platform : Platform) (m₁ m₂ m₁' m₂' : ChatFoldersModel) (newChatFolders : QVariantList)
    (p : Int) (h₁ : handleChatFoldersUpdated m₁ newChatFolders p = some m₁')
    (h₂ : handleChatFoldersUpdated m₂ newChatFolders p = some m₂') :
    (ShowSame platform m₁' m₂' ∧ ShowsUpdate platform newChatFolders m₁' ∧ ShowsUpdate platform newChatFolders m₂') ↔
      MeetsPlainRows m₁ newChatFolders ∧ MeetsPlainRows m₂ newChatFolders := by
  rw [showsUpdate_iff platform h₁, showsUpdate_iff platform h₂]
  refine and_iff_right_of_imp fun ⟨hplain₁, hplain₂⟩ row₁ hrow₁ row₂ hrow₂ hfolder₁ hfolder₂ hid role => ?_
  obtain ⟨folder₁, hlast₁, hroles₁⟩ := (showsUpdate_iff platform h₁).mpr hplain₁ row₁ hrow₁ hfolder₁
  obtain ⟨folder₂, hlast₂, hroles₂⟩ := (showsUpdate_iff platform h₂).mpr hplain₂ row₂ hrow₂ hfolder₂
  rw [hid, hlast₂] at hlast₁
  rw [hroles₁, hroles₂, Option.some.inj hlast₁]

/-- A platform that does not translate and keeps its icons in one place. -/
def plainPlatform : Platform := { pathToChatFolderIcon := fun _ => "icon", tr := QString.ofString }

/-- A folder object with an icon. -/
def folderWithIcon (id : Int) (iconName : String) : QVariant :=
  .map [(ID, .longLong id), (ICON, .map [(NAME, .string iconName)])]

/-- Folders without icons leave rows without icons. -/
theorem MeetsPlainRows.of_no_icons {m : ChatFoldersModel} {newChatFolders : QVariantList}
    (hrows : ∀ row ∈ m.chatFolders, row.icon = .all)
    (hfolders : ∀ folder ∈ newChatFolders, folder.toMap.contains ICON = false) : MeetsPlainRows m newChatFolders := by
  have hobjects : ∀ id, ∀ folder ∈ objectsOf id newChatFolders, folder.contains ICON = false := by
    intro id folder hfolder
    obtain ⟨object, hobject, rfl⟩ := List.mem_map.mp (List.mem_filter.mp hfolder).1
    exact hfolders object hobject
  intro id folder hlast icon hicon
  refine ⟨?_, hobjects id folder (List.mem_of_getLast? hlast)⟩
  rw [iconsMet] at hicon
  split_ifs at hicon
  · obtain ⟨first, hfirst, rfl⟩ := Option.map_eq_some_iff.mp (Option.mem_toList.mp hicon)
    have hmem := (List.dropLast_sublist _).subset (List.mem_of_mem_head? hfirst)
    rw [ofFolder_of_no_icon (hobjects id first hmem)]
  · obtain ⟨row, hrow, rfl⟩ := List.mem_map.mp hicon
    exact hrows row (mem_rowsOf.mp hrow).1

theorem folderRows_forget_no_icons :
    ∃ m m₁ m₂, run (lift step) (some new) [.chatFoldersUpdated [folderOf 1] 0] = some m ∧
      handleChatFoldersUpdated new [folderOf 2, folderOf 1] 0 = some m₁ ∧
      handleChatFoldersUpdated m [folderOf 2, folderOf 1] 0 = some m₂ ∧
      ShowSame plainPlatform m₁ m₂ ∧ ShowsUpdate plainPlatform [folderOf 2, folderOf 1] m₁ ∧
        ShowsUpdate plainPlatform [folderOf 2, folderOf 1] m₂ := by
  obtain ⟨m, hm⟩ : ∃ m, run (lift step) (some new) [.chatFoldersUpdated [folderOf 1] 0] = some m :=
    Option.isSome_iff_exists.mp (by decide)
  obtain ⟨m₁, hm₁⟩ : ∃ m₁, handleChatFoldersUpdated new [folderOf 2, folderOf 1] 0 = some m₁ :=
    Option.isSome_iff_exists.mp (by decide)
  obtain ⟨m₂, hm₂⟩ : ∃ m₂, handleChatFoldersUpdated m [folderOf 2, folderOf 1] 0 = some m₂ := by
    have hsome : ((run (lift step) (some new) [.chatFoldersUpdated [folderOf 1] 0]).bind fun m =>
        handleChatFoldersUpdated m [folderOf 2, folderOf 1] 0).isSome = true := by decide
    rw [hm, Option.bind_some] at hsome
    exact Option.isSome_iff_exists.mp hsome
  have hicons : ∀ m ∈ run (lift step) (some new) [.chatFoldersUpdated [folderOf 1] 0],
      ∀ row ∈ m.chatFolders, row.icon = .all := by decide
  exact ⟨m, m₁, m₂, hm, hm₁, hm₂, (folderRows_forget_iff plainPlatform new m m₁ m₂ _ 0 hm₁ hm₂).mpr
    ⟨.of_no_icons (by decide) (by decide), .of_no_icons (hicons m hm) (by decide)⟩⟩

/-- A folder that changes its icon keeps the old one on its row. -/
theorem not_folderRows_forget :
    ¬ ∀ (es₁ es₂ : List Event), ∀ m₁ ∈ run (lift step) (some new) es₁, ∀ m₂ ∈ run (lift step) (some new) es₂,
      ∀ (newChatFolders : QVariantList) (p : Int), ∀ m₁' ∈ handleChatFoldersUpdated m₁ newChatFolders p,
        ∀ m₂' ∈ handleChatFoldersUpdated m₂ newChatFolders p,
          ShowSame plainPlatform m₁' m₂' ∧ ShowsUpdate plainPlatform newChatFolders m₁' ∧
            ShowsUpdate plainPlatform newChatFolders m₂' := by
  intro h
  obtain ⟨m₂, hm₂⟩ : ∃ m₂, run (lift step) (some new) [.chatFoldersUpdated [folderWithIcon 1 "Cat"] 0] = some m₂ :=
    Option.isSome_iff_exists.mp (by decide)
  obtain ⟨m₁', hm₁'⟩ : ∃ m₁', handleChatFoldersUpdated new [folderWithIcon 1 "Crown"] 0 = some m₁' :=
    Option.isSome_iff_exists.mp (by decide)
  obtain ⟨m₂', hm₂'⟩ : ∃ m₂', handleChatFoldersUpdated m₂ [folderWithIcon 1 "Crown"] 0 = some m₂' := by
    have hsome : ((run (lift step) (some new) [.chatFoldersUpdated [folderWithIcon 1 "Cat"] 0]).bind fun m =>
        handleChatFoldersUpdated m [folderWithIcon 1 "Crown"] 0).isSome = true := by decide
    rw [hm₂, Option.bind_some] at hsome
    exact Option.isSome_iff_exists.mp hsome
  have hicons : ∀ m ∈ run (lift step) (some new) [.chatFoldersUpdated [folderWithIcon 1 "Cat"] 0],
      iconsMet m 1 [folderWithIcon 1 "Crown"] = [.cat] := by decide
  obtain ⟨-, -, hshows⟩ := h [] _ new rfl m₂ hm₂ [folderWithIcon 1 "Crown"] 0 m₁' hm₁' m₂' hm₂'
  have hplain := (showsUpdate_iff plainPlatform hm₂').mp hshows 1 (folderWithIcon 1 "Crown").toMap (by rfl) .cat
    (by rw [hicons m₂ hm₂]; exact List.mem_singleton_self _)
  exact absurd hplain.1 (by decide)

end ChatFoldersModel

end YaqtLib
