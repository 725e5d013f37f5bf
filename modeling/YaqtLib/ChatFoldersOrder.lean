import Mathlib.Data.List.Induction
import YaqtLib.ChatFoldersIndex
import YaqtLib.Placing

/-! An update of the folders: the removed ones are taken out, the main list is moved to its position among
the rows that are left, and then each folder is put at its row, from the first one to the last. -/

namespace YaqtLib

open Containers IndexMap Placing Runs TdConst

namespace ChatFoldersModel

open ChatFolderData

/-- The row of a folder that the update does not hold any more. -/
def IsRemoved (ids : List Int) (row : ChatFolderData) : Prop := row.isFolder = true ∧ row.id ∉ ids

instance (ids : List Int) (row : ChatFolderData) : Decidable (IsRemoved ids row) :=
  inferInstanceAs (Decidable (_ ∧ _))

/-- The rows an update keeps. -/
def keptRows (ids : List Int) (rows : List ChatFolderData) : List ChatFolderData :=
  rows.filter fun row => ¬ IsRemoved ids row

/-- The ids of the folders an update keeps, in the order of their rows. -/
def keptIds (ids : List Int) (rows : List ChatFolderData) : List Int :=
  (rows.filterMap ChatFolderData.key).filter (· ∈ ids)

/-- A removed folder has only folders behind it, so that its removal enters no main list. -/
def Quiet (ids : List Int) (row later : ChatFolderData) : Prop := IsRemoved ids row → later.isFolder = true

instance (ids : List Int) (row later : ChatFolderData) : Decidable (Quiet ids row later) :=
  inferInstanceAs (Decidable (_ → _))

/-! ### The removals -/

theorem value_insertFollowing {rows : List ChatFolderData} {map : QHash Int Nat} (h : Consistent rows map)
    (i : Nat) (map' : QHash Int Nat) :
    (insertFollowing rows i map').value 0 = none ↔
      map'.value 0 = none ∧ ∀ row ∈ rows.drop i, row.isFolder = true := by
  rw [insertFollowing, value_reindex_eq_none_iff]
  refine and_congr_right fun _ => forall₂_congr fun row hrow => ?_
  rw [ne_eq, Option.some_inj, h.id_eq_zero_iff (List.mem_of_mem_drop hrow), Bool.not_eq_false]

theorem keptRows_append (ids : List Int) (rows rows' : List ChatFolderData) :
    keptRows ids (rows ++ rows') = keptRows ids rows ++ keptRows ids rows' :=
  List.filter_append ..

theorem keptRows_singleton (ids : List Int) (row : ChatFolderData) :
    keptRows ids [row] = if IsRemoved ids row then [] else [row] := by
  rw [keptRows, List.filter_cons, List.filter_nil]
  split_ifs <;> simp_all

/-- The removal among the rows before `rest`. -/
theorem removeChatFolders_spec {ids : List Int} {m : ChatFoldersModel} {pre rest : List ChatFolderData}
    (hm : Consistent m.chatFolders m.chatFoldersIndexMap) (hrows : m.chatFolders = pre ++ rest) :
    (removeChatFolders ids pre.length m).chatFolders = keptRows ids pre ++ rest ∧
    Consistent (removeChatFolders ids pre.length m).chatFolders
      (removeChatFolders ids pre.length m).chatFoldersIndexMap ∧
    ((removeChatFolders ids pre.length m).chatFoldersIndexMap.value 0 = none ↔
      m.chatFoldersIndexMap.value 0 = none ∧ pre.Pairwise (Quiet ids) ∧
        ∀ row ∈ pre, ∀ later ∈ rest, Quiet ids row later) := by
  induction pre using List.reverseRecOn generalizing m rest with
  | nil => exact ⟨hrows, hm, by simp [removeChatFolders]⟩
  | append_singleton init row ih =>
      have hget : m.chatFolders[init.length]? = some row := by simp [hrows]
      have hsplit : m.chatFolders = init ++ row :: rest := by simp [hrows]
      rw [List.length_append, List.length_singleton, removeChatFolders, hget, keptRows_append]
      dsimp only
      by_cases hremoved : row.isFolder = true ∧ row.id ∉ ids
      · have hrest : m.chatFolders.eraseIdx init.length = init ++ rest := by rw [hsplit, eraseIdx_append_cons]
        have hkept : keptRows ids [row] = [] := (keptRows_singleton ids row).trans (if_pos hremoved)
        rw [if_pos hremoved, hrest, hkept, List.append_nil]
        have herase : Consistent (init ++ rest) (insertFollowing (init ++ rest) init.length
            (m.chatFoldersIndexMap.remove row.id)) := by
          rw [hsplit] at hm
          exact @Consistent.erase _ init [row] rest hm
        obtain ⟨hrows', hconsistent, hzero⟩ := @ih
          { m with
            chatFolders := init ++ rest
            chatFoldersIndexMap :=
              insertFollowing (init ++ rest) init.length (m.chatFoldersIndexMap.remove row.id) } rest herase rfl
        refine ⟨hrows', hconsistent, hzero.trans ?_⟩
        have hid : (0 : Int) ≠ row.id := (hm.ids row (by simp [hsplit]) hremoved.1).symm
        rw [value_insertFollowing herase, List.drop_left, QHash.value_remove_of_ne _ hid, List.pairwise_append]
        simp only [List.mem_append, List.mem_singleton, List.pairwise_singleton, true_and]
        constructor
        · rintro ⟨⟨hmap, hfolders⟩, hpairwise, hcross⟩
          refine ⟨hmap, ⟨hpairwise, fun a _ b hb _ => hb ▸ hremoved.1⟩, fun a ha later hlater => ?_⟩
          rcases ha with ha | rfl
          · exact hcross a ha later hlater
          · exact fun _ => hfolders later hlater
        · rintro ⟨hmap, ⟨hpairwise, -⟩, hcross⟩
          exact ⟨⟨hmap, fun later hlater => hcross row (Or.inr rfl) later hlater hremoved⟩, hpairwise,
            fun a ha => hcross a (Or.inl ha)⟩
      · have hkept : keptRows ids [row] = [row] := (keptRows_singleton ids row).trans (if_neg hremoved)
        rw [if_neg hremoved, hkept]
        obtain ⟨hrows', hconsistent, hzero⟩ := @ih m (row :: rest) hm hsplit
        refine ⟨by simp [hrows'], hconsistent, hzero.trans ?_⟩
        rw [List.pairwise_append]
        simp only [List.mem_append, List.pairwise_singleton, List.mem_cons, List.not_mem_nil, or_false, true_and]
        constructor
        · rintro ⟨hmap, hpairwise, hcross⟩
          refine ⟨hmap, ⟨hpairwise, fun a ha b hb => hb ▸ hcross a ha row (Or.inl rfl)⟩, fun a ha later hlater => ?_⟩
          rcases ha with ha | rfl
          · exact hcross a ha later (Or.inr hlater)
          · exact fun h => absurd h hremoved
        · rintro ⟨hmap, ⟨hpairwise, hrow⟩, hcross⟩
          refine ⟨hmap, hpairwise, fun a ha later hlater => ?_⟩
          rcases hlater with rfl | hlater
          · exact hrow a ha later rfl
          · exact hcross a (Or.inl ha) later hlater

/-! ### The move of the main list -/

theorem findIdx?_main {pre post : List ChatFolderData} (hpre : ∀ row ∈ pre, row.isFolder = true) :
    (pre ++ ChatFolderData.main :: post).findIdx? (fun row => row.type = .folderMain) = some pre.length := by
  induction pre with
  | nil => rfl
  | cons row pre ih =>
      have hrow : row.type = .folderFolder := by simpa [isFolder] using hpre row (List.mem_cons_self ..)
      rw [List.cons_append, List.findIdx?_cons, ih fun row hrow => hpre row (List.mem_cons_of_mem _ hrow)]
      simp [hrow]

theorem moveMainChatList_of_no_main {m : ChatFoldersModel} (h : ∀ row ∈ m.chatFolders, row.isFolder = true) (p : Nat) :
    moveMainChatList m p = none := by
  have hnone : m.chatFolders.findIdx? (fun row => row.type = .folderMain) = none := by
    refine List.findIdx?_eq_none_iff.mpr fun row hrow => ?_
    have : row.type = .folderFolder := by simpa [isFolder] using h row hrow
    simp [this]
  rw [moveMainChatList, hnone]
  change (if (-1 : Int) = min (p : Int) m.chatFolders.length then some m else none) = none
  exact if_neg (by omega)

/-- The main list moves to its position if there are enough rows; else the move leaves the range. -/
theorem moveMainChatList_spec {m : ChatFoldersModel} {pre post : List ChatFolderData} {p : Nat}
    (hm : Consistent m.chatFolders m.chatFoldersIndexMap) (hrows : m.chatFolders = pre ++ ChatFolderData.main :: post)
    (hpre : ∀ row ∈ pre, row.isFolder = true) :
    (p ≤ pre.length + post.length → ∃ m', moveMainChatList m p = some m' ∧
      m'.chatFolders = (pre ++ post).take p ++ ChatFolderData.main :: (pre ++ post).drop p ∧
      Consistent m'.chatFolders m'.chatFoldersIndexMap ∧
      m'.chatFoldersIndexMap.value 0 = m.chatFoldersIndexMap.value 0) ∧
    (pre.length + post.length < p → moveMainChatList m p = none) := by
  have hlen : m.chatFolders.length = pre.length + post.length + 1 := by
    rw [hrows, List.length_append, List.length_cons, Nat.add_assoc]
  have hfind : m.chatFolders.findIdx? (fun row => row.type = .folderMain) = some pre.length := by
    rw [hrows, findIdx?_main hpre]
  constructor
  · intro hp
    have hmin : min (p : Int) m.chatFolders.length = p := by omega
    have htake : ((pre ++ post).take p).length = p := List.length_take_of_le (by rw [List.length_append]; exact hp)
    have hmoved : Containers.move m.chatFolders pre.length p =
        (pre ++ post).take p ++ ChatFolderData.main :: (pre ++ post).drop p := by
      have hinsert := insertIdx_append_length ((pre ++ post).take p) ((pre ++ post).drop p) ChatFolderData.main
      rw [List.take_append_drop, htake] at hinsert
      rw [hrows, move_append_cons hp, hinsert]
    rw [moveMainChatList, hfind]
    simp only [Option.elim_some, Option.bind_some, hmin, Int.toNat_natCast]
    by_cases hstay : pre.length = p
    · rw [if_pos (by rw [hstay])]
      refine ⟨m, rfl, ?_, hm, rfl⟩
      rw [hrows, ← hstay, List.take_left, List.drop_left]
    · have hrange : MoveInRange m.chatFolders pre.length p := ⟨by omega, by omega⟩
      have hget : m.chatFolders[pre.length]? = some ChatFolderData.main := by simp [hrows]
      obtain ⟨hconsistent, hzero⟩ := hm.move hrange hget
      rw [if_neg (by omega), if_pos ⟨by omega, hrange⟩]
      obtain ⟨index, hfinish⟩ := finishMove_eq
        { m with chatFolders := Containers.move m.chatFolders pre.length p, mainChatListIndex := p } pre.length p
      exact ⟨_, rfl, by rw [hfinish]; exact hmoved, by rw [hfinish]; exact hconsistent, by rw [hfinish]; exact hzero⟩
  · intro hp
    have hmin : min (p : Int) m.chatFolders.length = m.chatFolders.length := by omega
    rw [moveMainChatList, hfind]
    simp only [Option.elim_some, Option.bind_some, hmin, Int.toNat_natCast]
    rw [if_neg (by omega), if_neg]
    rintro ⟨-, hrange⟩
    exact absurd hrange.2 (Nat.lt_irrefl _)

/-! ### One folder of the update -/

section LastIndexWhere

variable {α : Type} {p : α → Bool}

theorem lastIndexWhere_eq_none {l : List α} (h : ∀ x ∈ l, p x = false) : lastIndexWhere p l = none := by
  induction l with
  | nil => rfl
  | cons x l ih =>
      rw [lastIndexWhere, ih fun y hy => h y (List.mem_cons_of_mem _ hy), h x (List.mem_cons_self ..)]
      rfl

theorem lastIndexWhere_append_cons (pre : List α) {post : List α} {x : α} (hx : p x = true)
    (hpost : ∀ y ∈ post, p y = false) : lastIndexWhere p (pre ++ x :: post) = some pre.length := by
  induction pre with
  | nil => rw [List.nil_append, lastIndexWhere, lastIndexWhere_eq_none hpost, hx]; rfl
  | cons y pre ih => rw [List.cons_append, lastIndexWhere, ih]; rfl

end LastIndexWhere

/-- The rows other than the one of a folder. -/
def others (rows : List ChatFolderData) (id : Int) : List ChatFolderData :=
  rows.filter fun row => row.key ≠ some id

theorem isOfFolder_iff (row : ChatFolderData) (id : Int) :
    (row.isFolder && decide (row.id = id)) = true ↔ row.key = some id := by
  rw [Bool.and_eq_true, decide_eq_true_iff, key_eq_some_iff]

theorem others_eq_self {rows : List ChatFolderData} {id : Int} (h : ∀ row ∈ rows, row.key ≠ some id) :
    others rows id = rows :=
  List.filter_eq_self.mpr fun row hrow => decide_eq_true (h row hrow)

/-- The row of a folder among the others. -/
theorem exists_split_folder {rows : List ChatFolderData} {id : Int} (hd : KeysDistinct ChatFolderData.key rows)
    (h : ∃ row ∈ rows, row.key = some id) :
    ∃ pre old post, rows = pre ++ old :: post ∧ old.key = some id ∧ others rows id = pre ++ post ∧
      ∀ row ∈ pre ++ post, row.key ≠ some id := by
  obtain ⟨old, hold, hkey⟩ := h
  obtain ⟨pre, post, rfl⟩ := List.append_of_mem hold
  have hperm : (pre ++ old :: post).Perm (old :: (pre ++ post)) := List.perm_middle
  have hne : ∀ row ∈ pre ++ post, row.key ≠ some id := fun row hrow =>
    (List.pairwise_cons.mp (hd.perm hperm)).1 row hrow id hkey
  refine ⟨pre, old, post, rfl, hkey, ?_, hne⟩
  have hself := others_eq_self hne
  rw [others, List.filter_append] at hself
  rw [others, List.filter_append, List.filter_cons_of_neg (by simp [hkey]), hself]

theorem map_data_self {rows : List ChatFolderData} {id : Int} (hne : ∀ row ∈ rows, row.key ≠ some id)
    (folder : QVariantMap) :
    rows.map (fun row =>
      if (row.isFolder && decide (row.id = id)) = true then { row with data := folder } else row) = rows := by
  refine (List.map_congr_left fun row hrow => ?_).trans (List.map_id rows)
  exact if_neg fun h => hne row hrow ((isOfFolder_iff row id).mp h)

/-- The row of a known folder gets the folder's data. -/
theorem map_data {pre post : List ChatFolderData} {old : ChatFolderData} {id : Int} (hold : old.key = some id)
    (hne : ∀ row ∈ pre ++ post, row.key ≠ some id) (folder : QVariantMap) :
    (pre ++ old :: post).map (fun row =>
      if (row.isFolder && decide (row.id = id)) = true then { row with data := folder } else row) =
      pre ++ { old with data := folder } :: post := by
  rw [List.map_append, List.map_cons, if_pos ((isOfFolder_iff old id).mpr hold),
    map_data_self fun row hrow => hne row (List.mem_append_left _ hrow),
    map_data_self fun row hrow => hne row (List.mem_append_right _ hrow)]

/-- The row a folder of the update has been given: its data is the folder's, its icon the one it had. -/
structure IsRowOf (rows : List ChatFolderData) (folder : QVariantMap) (row : ChatFolderData) : Prop where
  key : row.key = some (folder.value ID).toInt
  data : row.data.remove ICON = folder.remove ICON
  icon_old : ∀ old ∈ rows, old.key = some (folder.value ID).toInt → row.icon = old.icon
  icon_new : (∀ old ∈ rows, old.key ≠ some (folder.value ID).toInt) → row.icon = (ofFolder folder).icon

/-- The outcome of one iteration: the folder's row is put at its index among the other rows. -/
structure Placed (m : ChatFoldersModel) (folder : QVariantMap) (normalizedIndex : Nat) (m' : ChatFoldersModel)
    (row : ChatFolderData) : Prop where
  row_of : IsRowOf m.chatFolders folder row
  rows : m'.chatFolders = (others m.chatFolders (folder.value ID).toInt).insertIdx normalizedIndex row
  consistent : Consistent m'.chatFolders m'.chatFoldersIndexMap
  zero : m'.chatFoldersIndexMap.value 0 = m.chatFoldersIndexMap.value 0

/-- A folder that has a row is moved to its index. -/
theorem updateChatFolder_of_known {m : ChatFoldersModel} {p i : Nat} {folder : QVariantMap}
    {pre post : List ChatFolderData} {old : ChatFolderData}
    (hm : Consistent m.chatFolders m.chatFoldersIndexMap) (hrows : m.chatFolders = pre ++ old :: post)
    (hkey : old.key = some (folder.value ID).toInt) (hne : ∀ row ∈ pre ++ post, row.key ≠ some (folder.value ID).toInt)
    (hothers : others m.chatFolders (folder.value ID).toInt = pre ++ post)
    (hroom : (if p ≤ i then i + 1 else i) ≤ pre.length + post.length) :
    ∃ m' row, updateChatFolder p folder i m = some m' ∧ Placed m folder (if p ≤ i then i + 1 else i) m' row := by
  obtain ⟨rows, map, mainIndex, mainModel, archiveModel, chatModels⟩ := m
  dsimp only at hm hrows hothers
  subst hrows
  obtain ⟨hfolder, -⟩ := key_eq_some_iff.mp hkey
  have hrowKey : ({ old with data := folder } : ChatFolderData).key = some (folder.value ID).toInt :=
    key_eq_some_iff.mpr ⟨hfolder, rfl⟩
  have hrowOf : IsRowOf (pre ++ old :: post) folder { old with data := folder } := by
    refine ⟨hrowKey, rfl, fun other hother hother' => ?_, fun h => absurd hkey (h old (by simp))⟩
    rcases List.mem_append.mp hother with hother | hother
    · exact absurd hother' (hne other (List.mem_append_left _ hother))
    rcases List.mem_cons.mp hother with rfl | hother
    · rfl
    · exact absurd hother' (hne other (List.mem_append_right _ hother))
  have hlast : lastIndexWhere
      (fun row : ChatFolderData => row.isFolder && decide (row.id = (folder.value ID).toInt))
      (pre ++ old :: post) = some pre.length := by
    refine lastIndexWhere_append_cons pre ((isOfFolder_iff old _).mpr hkey) fun row hrow => ?_
    rw [← Bool.not_eq_true, isOfFolder_iff]
    exact hne row (List.mem_append_right _ hrow)
  have hmapped : Consistent (pre ++ { old with data := folder } :: post) map := by
    refine hm.congr ?_ (by simp [hrowKey, hkey])
    rw [List.filter_append, List.filter_append, List.filter_cons_of_neg (by simpa [isFolder] using hfolder),
      List.filter_cons_of_neg (by simp [hfolder])]
  rw [updateChatFolder]
  simp only [Int.ofNat_le]
  generalize (if p ≤ i then i + 1 else i) = normalized at hroom ⊢
  rw [hlast, map_data hkey hne]
  dsimp only
  by_cases hstay : pre.length = normalized
  · rw [if_pos hstay]
    refine ⟨_, _, rfl, hrowOf, ?_, hmapped, rfl⟩
    rw [hothers, ← hstay, insertIdx_append_length]
  · have hlen : (pre ++ { old with data := folder } :: post).length = pre.length + post.length + 1 := by
      rw [List.length_append, List.length_cons, Nat.add_assoc]
    have hmin : min normalized (pre ++ { old with data := folder } :: post).length = normalized := by omega
    have hrange : MoveInRange (pre ++ { old with data := folder } :: post) pre.length normalized :=
      ⟨by omega, by omega⟩
    have hget : (pre ++ { old with data := folder } :: post)[pre.length]? = some { old with data := folder } := by
      simp
    have henter : reindex ChatFolderData.key [{ old with data := folder }] normalized map =
        map.insert (folder.value ID).toInt normalized := by
      simp only [reindex, hrowKey]
    obtain ⟨hconsistent, hzero⟩ := hmapped.move hrange hget
    rw [henter] at hconsistent hzero
    have hmoved : move (pre ++ { old with data := folder } :: post) pre.length normalized =
        (pre ++ post).insertIdx normalized { old with data := folder } :=
      move_append_cons hroom _
    rw [if_neg hstay, hmin, if_pos hrange]
    refine ⟨_, _, rfl, hrowOf, ?_, ?_, ?_⟩
    all_goals
      rw [(finishMove_eq _ pre.length normalized).choose_spec]
    · exact hmoved.trans (by rw [hothers])
    · exact hconsistent
    · exact hzero

/-- A new folder is put in at its index. -/
theorem updateChatFolder_of_new {m : ChatFoldersModel} {p i : Nat} {folder : QVariantMap}
    (hm : Consistent m.chatFolders m.chatFoldersIndexMap) (hid : (folder.value ID).toInt ≠ 0)
    (hnew : ∀ row ∈ m.chatFolders, row.key ≠ some (folder.value ID).toInt)
    (hroom : (if p ≤ i then i + 1 else i) ≤ m.chatFolders.length) :
    ∃ m' row, updateChatFolder p folder i m = some m' ∧ Placed m folder (if p ≤ i then i + 1 else i) m' row := by
  obtain ⟨rows, map, mainIndex, mainModel, archiveModel, chatModels⟩ := m
  dsimp only at hm hnew hroom
  have hrowOf : IsRowOf rows folder (ofFolder folder) :=
    ⟨key_ofFolder folder, QVariantMap.remove_remove folder ICON, fun old hold hold' => absurd hold' (hnew old hold),
      fun _ => rfl⟩
  have hlast : lastIndexWhere
      (fun row : ChatFolderData => row.isFolder && decide (row.id = (folder.value ID).toInt)) rows = none := by
    refine lastIndexWhere_eq_none fun row hrow => ?_
    rw [← Bool.not_eq_true, isOfFolder_iff]
    exact hnew row hrow
  rw [updateChatFolder]
  simp only [Int.ofNat_le]
  generalize (if p ≤ i then i + 1 else i) = normalized at hroom ⊢
  rw [hlast, map_data_self hnew]
  dsimp only
  obtain ⟨pre, post, rfl, rfl⟩ := exists_split_of_le hroom
  have hmin : min pre.length (pre ++ post).length = pre.length := by
    rw [List.length_append]; omega
  have hlen : (pre ++ ofFolder folder :: post).length - pre.length = (ofFolder folder :: post).length := by
    rw [List.length_append, Nat.add_sub_cancel_left]
  obtain ⟨hconsistent, hzero⟩ := hm.insert rfl (by rw [id_ofFolder]; exact hid) (by rw [id_ofFolder]; exact hnew)
  rw [hmin, insertIdx_append_length, hlen]
  refine ⟨_, _, rfl, hrowOf, ?_, ?_, ?_⟩
  all_goals
    rw [(foldl_updateChatFolderIndexAt _ pre.length _).choose_spec]
  · dsimp only
    rw [others_eq_self hnew, insertIdx_append_length]
  · dsimp only
    rw [List.drop_left, List.take_length]
    exact hconsistent
  · dsimp only
    rw [List.drop_left, List.take_length]
    exact hzero

/-- **Specification of one iteration.** -/
theorem updateChatFolder_spec {m : ChatFoldersModel} {p i : Nat} {folder : QVariantMap}
    (hm : Consistent m.chatFolders m.chatFoldersIndexMap) (hid : (folder.value ID).toInt ≠ 0)
    (hroom : (if p ≤ i then i + 1 else i) ≤ (others m.chatFolders (folder.value ID).toInt).length) :
    ∃ m' row, updateChatFolder p folder i m = some m' ∧ Placed m folder (if p ≤ i then i + 1 else i) m' row := by
  by_cases hknown : ∃ row ∈ m.chatFolders, row.key = some (folder.value ID).toInt
  · obtain ⟨pre, old, post, hrows, hkey, hothers, hne⟩ := exists_split_folder hm.keysDistinct hknown
    rw [hothers, List.length_append] at hroom
    exact updateChatFolder_of_known hm hrows hkey hne hothers hroom
  · push Not at hknown
    rw [others_eq_self hknown] at hroom
    exact updateChatFolder_of_new hm hid hknown hroom

/-! ### All folders of the update -/

namespace Placed

variable {m m' : ChatFoldersModel} {folder : QVariantMap} {n : Nat} {row : ChatFolderData}

theorem mem_iff (h : Placed m folder n m' row) (hroom : n ≤ (others m.chatFolders (folder.value ID).toInt).length)
    (other : ChatFolderData) :
    other ∈ m'.chatFolders ↔ other = row ∨ (other ∈ m.chatFolders ∧ other.key ≠ some (folder.value ID).toInt) := by
  rw [h.rows, List.mem_insertIdx hroom, others, List.mem_filter, decide_eq_true_iff]

theorem keys (h : Placed m folder n m' row) :
    m'.chatFolders.map ChatFolderData.key =
      placeAt n (some (folder.value ID).toInt) (m.chatFolders.map ChatFolderData.key) := by
  rw [h.rows, List.map_insertIdx, h.row_of.key, placeAt, List.filter_map]
  rfl

end Placed

/-- The rows have the icons of the folders they are for. -/
def IconsMatch (newChatFolders : QVariantList) (rows : List ChatFolderData) : Prop :=
  ∀ row ∈ rows, ∀ folder ∈ newChatFolders, row.key = some (folder.toMap.value ID).toInt →
    row.icon = (ofFolder folder.toMap).icon

/-- Folders with the same id are one. -/
theorem eq_of_id_eq {newChatFolders : QVariantList} (hnodup : (idsOf newChatFolders).Nodup) {folder folder' : QVariant}
    (h : folder ∈ newChatFolders) (h' : folder' ∈ newChatFolders)
    (heq : (folder.toMap.value ID).toInt = (folder'.toMap.value ID).toInt) : folder = folder' :=
  List.inj_on_of_nodup_map hnodup h h' heq

/-- A row keeps its icon, and a new row has the right one: the icons match if they did. -/
theorem Placed.iconsMatch_iff {m m' : ChatFoldersModel} {folder : QVariant} {n : Nat} {row : ChatFolderData}
    (h : Placed m folder.toMap n m' row)
    (hroom : n ≤ (others m.chatFolders (folder.toMap.value ID).toInt).length)
    {newChatFolders : QVariantList} (hnodup : (idsOf newChatFolders).Nodup) (hmem : folder ∈ newChatFolders) :
    IconsMatch newChatFolders m'.chatFolders ↔ IconsMatch newChatFolders m.chatFolders := by
  constructor
  · intro hicons other hother folder' hfolder' hkey
    by_cases hsame : other.key = some (folder.toMap.value ID).toInt
    · have heq := hicons row ((h.mem_iff hroom row).mpr (Or.inl rfl)) folder hmem h.row_of.key
      obtain rfl := eq_of_id_eq hnodup hmem hfolder' (Option.some.inj (hsame.symm.trans hkey))
      rw [← h.row_of.icon_old other hother hsame, heq]
    · exact hicons other ((h.mem_iff hroom other).mpr (Or.inr ⟨hother, hsame⟩)) folder' hfolder' hkey
  · intro hicons other hother folder' hfolder' hkey
    rcases (h.mem_iff hroom other).mp hother with rfl | ⟨hother, -⟩
    · obtain rfl := eq_of_id_eq hnodup hmem hfolder' (Option.some.inj (h.row_of.key.symm.trans hkey))
      by_cases hknown : ∃ old ∈ m.chatFolders, old.key = some (folder.toMap.value ID).toInt
      · obtain ⟨old, hold, hkey'⟩ := hknown
        rw [h.row_of.icon_old old hold hkey']
        exact hicons old hold folder hmem hkey'
      · push Not at hknown
        exact h.row_of.icon_new hknown
    · exact hicons other hother folder' hfolder' hkey

/-- There is room for the next folder: the main list and the folders placed before it are other rows. -/
theorem room_of_placed {rows : List ChatFolderData} {placed : List Int} {id : Int}
    (hmain : none ∈ rows.map ChatFolderData.key) (hplaced : ∀ id' ∈ placed, some id' ∈ rows.map ChatFolderData.key)
    (hnodup : (placed ++ [id]).Nodup) : placed.length + 1 ≤ (others rows id).length := by
  obtain ⟨hplacedNodup, -, hdisjoint⟩ := List.nodup_append.mp hnodup
  have hkeys : ∀ k, k ∈ rows.map ChatFolderData.key → k ≠ some id → k ∈ (others rows id).map ChatFolderData.key := by
    intro k hk hne
    obtain ⟨row, hrow, rfl⟩ := List.mem_map.mp hk
    exact List.mem_map.mpr ⟨row, List.mem_filter.mpr ⟨hrow, decide_eq_true hne⟩, rfl⟩
  have hsubset : none :: placed.map some ⊆ (others rows id).map ChatFolderData.key := by
    intro k hk
    rcases List.mem_cons.mp hk with rfl | hk
    · exact hkeys none hmain (by simp)
    · obtain ⟨id', hid', rfl⟩ := List.mem_map.mp hk
      exact hkeys (some id') (hplaced id' hid') fun heq =>
        hdisjoint id' hid' id (List.mem_singleton_self id) (Option.some.inj heq)
  have hnone : (none :: placed.map some : List (Option Int)).Nodup :=
    List.nodup_cons.mpr ⟨by simp, hplacedNodup.map (Option.some_injective Int)⟩
  have := (List.subperm_of_subset hnone hsubset).length_le
  simpa using this

/-- The outcome of the loop over the folders. -/
structure PlacedAll (m : ChatFoldersModel) (newChatFolders : QVariantList) (p i : Nat) (m' : ChatFoldersModel) :
    Prop where
  keys : m'.chatFolders.map ChatFolderData.key =
    placeAround p i ((idsOf newChatFolders).map some) (m.chatFolders.map ChatFolderData.key)
  consistent : Consistent m'.chatFolders m'.chatFoldersIndexMap
  zero : m'.chatFoldersIndexMap.value 0 = m.chatFoldersIndexMap.value 0
  others : ∀ row ∈ m'.chatFolders, (∀ id ∈ idsOf newChatFolders, row.key ≠ some id) → row ∈ m.chatFolders
  data : ∀ row ∈ m'.chatFolders, ∀ folder ∈ newChatFolders, row.key = some (folder.toMap.value ID).toInt →
    row.data.remove ICON = folder.toMap.remove ICON
  icons : ∀ all : QVariantList, newChatFolders ⊆ all → (idsOf all).Nodup →
    (IconsMatch all m'.chatFolders ↔ IconsMatch all m.chatFolders)

/-- **Specification of the loop.** The folders are placed around the position of the main list. -/
theorem updateChatFolders_spec {newChatFolders : QVariantList} {p : Nat} {m : ChatFoldersModel} {placed : List Int}
    (hm : Consistent m.chatFolders m.chatFoldersIndexMap) (hmain : none ∈ m.chatFolders.map ChatFolderData.key)
    (hplaced : ∀ id ∈ placed, some id ∈ m.chatFolders.map ChatFolderData.key)
    (hnodup : (placed ++ idsOf newChatFolders).Nodup) (hzero : 0 ∉ idsOf newChatFolders) :
    ∃ m', updateChatFolders p newChatFolders placed.length m = some m' ∧
      PlacedAll m newChatFolders p placed.length m' := by
  induction newChatFolders generalizing m placed with
  | nil =>
      exact ⟨m, rfl, rfl, hm, rfl, fun row hrow _ => hrow, by simp, fun all _ _ => Iff.rfl⟩
  | cons folder newChatFolders ih =>
      have hcons : idsOf (folder :: newChatFolders) = (folder.toMap.value ID).toInt :: idsOf newChatFolders := rfl
      rw [hcons] at hnodup hzero
      have hnodup' : (placed ++ [(folder.toMap.value ID).toInt] ++ idsOf newChatFolders).Nodup := by simpa using hnodup
      have hroom := room_of_placed hmain hplaced (List.nodup_append.mp hnodup').1
      have hroom' : (if p ≤ placed.length then placed.length + 1 else placed.length) ≤
          (ChatFoldersModel.others m.chatFolders (folder.toMap.value ID).toInt).length := by
        split_ifs <;> omega
      obtain ⟨m1, row, heq, hstep⟩ := updateChatFolder_spec hm
        (fun h => hzero (h ▸ List.mem_cons_self ..)) hroom'
      have hmem := hstep.mem_iff hroom'
      have hfolderNotMem : (folder.toMap.value ID).toInt ∉ idsOf newChatFolders := by
        have := (List.nodup_append.mp hnodup).2.1
        exact (List.nodup_cons.mp this).1
      have hkeep : ∀ k, k ∈ m.chatFolders.map ChatFolderData.key → k ∈ m1.chatFolders.map ChatFolderData.key := by
        intro k hk
        obtain ⟨other, hother, rfl⟩ := List.mem_map.mp hk
        by_cases hsame : other.key = some (folder.toMap.value ID).toInt
        · exact List.mem_map.mpr ⟨row, (hmem row).mpr (Or.inl rfl), hstep.row_of.key.trans hsame.symm⟩
        · exact List.mem_map.mpr ⟨other, (hmem other).mpr (Or.inr ⟨hother, hsame⟩), rfl⟩
      have hplaced' : ∀ id ∈ placed ++ [(folder.toMap.value ID).toInt],
          some id ∈ m1.chatFolders.map ChatFolderData.key := by
        intro id hid
        rcases List.mem_append.mp hid with hid | hid
        · exact hkeep _ (hplaced id hid)
        · rw [List.mem_singleton.mp hid]
          exact List.mem_map.mpr ⟨row, (hmem row).mpr (Or.inl rfl), hstep.row_of.key⟩
      obtain ⟨m', heq', hall⟩ := ih hstep.consistent (hkeep none hmain) hplaced' hnodup'
        (fun h => hzero (List.mem_cons_of_mem _ h))
      rw [List.length_append, List.length_singleton] at heq' hall
      refine ⟨m', by rw [updateChatFolders, heq]; exact heq', ?_, hall.consistent, hall.zero.trans hstep.zero, ?_, ?_, ?_⟩
      · rw [hall.keys, hstep.keys]
        rfl
      · intro other hother hnot
        rw [hcons, List.forall_mem_cons] at hnot
        rcases (hmem other).mp (hall.others other hother hnot.2) with rfl | ⟨hother, -⟩
        · exact absurd hstep.row_of.key hnot.1
        · exact hother
      · intro other hother folder' hfolder' hkey
        rcases List.mem_cons.mp hfolder' with rfl | hfolder'
        · have hnot : ∀ id ∈ idsOf newChatFolders, other.key ≠ some id := by
            rintro id hid hid'
            exact hfolderNotMem (Option.some.inj (hkey.symm.trans hid') ▸ hid)
          rcases (hmem other).mp (hall.others other hother hnot) with rfl | ⟨-, hne⟩
          · exact hstep.row_of.data
          · exact absurd hkey hne
        · exact hall.data other hother folder' hfolder' hkey
      · intro all hsub hall'
        obtain ⟨hfolder, hsub⟩ := List.cons_subset.mp hsub
        exact (hall.icons all hsub hall').trans (hstep.iconsMatch_iff hroom' hall' hfolder)

end ChatFoldersModel

end YaqtLib
