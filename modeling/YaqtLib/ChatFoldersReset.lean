import YaqtLib.ChatFoldersRows

/-! What a reset leaves of the folders (`ChatFoldersModel::reset`). It takes out the rows before the main list and then,
with the same row number, the rows behind it; it does not follow the main list to its new row. -/

namespace YaqtLib

open Containers IndexMap Runs TdConst

namespace ChatFoldersModel

open ChatFolderData

/-- The rows that `removeRange` takes out. -/
def rangeRows (rows : List ChatFolderData) (firstDeleted lastDeleted : Int) : List ChatFolderData :=
  if 0 ≤ firstDeleted ∧ firstDeleted ≤ lastDeleted then
    (rows.drop firstDeleted.toNat).take (lastDeleted.toNat + 1 - firstDeleted.toNat)
  else []

/-- The rows that the two removals of a reset take out. -/
def resetRows (m : ChatFoldersModel) : List ChatFolderData :=
  rangeRows m.chatFolders 0 (m.mainChatListIndex - 1) ++
    (removeRange m 0 (m.mainChatListIndex - 1)).elim [] fun m =>
      rangeRows m.chatFolders (m.mainChatListIndex + 1) (m.chatFolders.length - 1)

/-- What a reset is for: the main list stays alone, at row `0`, and only folders have gone. -/
structure KeepsMain (m m' : ChatFoldersModel) : Prop where
  rows : m'.chatFolders = [ChatFolderData.main]
  map : m'.chatFoldersIndexMap = QHash.empty
  index : m'.mainChatListIndex = 0
  removed : ∀ row ∈ resetRows m, row.isFolder = true

/-- The map holds no key but the ids of the folders. -/
def HoldsFoldersOnly (m : ChatFoldersModel) : Prop :=
  ∀ k i, m.chatFoldersIndexMap.value k = some i → ∃ row ∈ m.chatFolders, row.key = some k

/-! ### The main list through an update -/

/-- The rows other than folders. -/
def mains (rows : List ChatFolderData) : List ChatFolderData := rows.filter fun row => !row.isFolder

/-- There is no row but those of the folders and one of the main list, which is the first if the model says so. -/
structure MainFirst (m : ChatFoldersModel) : Prop where
  mains : (mains m.chatFolders).Sublist [ChatFolderData.main]
  first : m.mainChatListIndex = 0 → m.chatFolders.head? = some ChatFolderData.main

theorem mainFirst_new : MainFirst new := ⟨List.Sublist.refl _, fun _ => rfl⟩

theorem mains_cons (row : ChatFolderData) (rows : List ChatFolderData) :
    mains (row :: rows) = if row.isFolder = true then mains rows else row :: mains rows := by
  rw [mains, List.filter_cons]
  cases row.isFolder <;> rfl

theorem mains_sublist_of_perm {rows rows' : List ChatFolderData} (h : (mains rows).Sublist [ChatFolderData.main])
    (hperm : (mains rows').Perm (mains rows)) : (mains rows').Sublist [ChatFolderData.main] := by
  rcases List.sublist_singleton.mp h with hnil | hmain
  · rw [hnil] at hperm
    rw [hperm.eq_nil]
    exact List.nil_sublist _
  · rw [hmain] at hperm
    rw [hperm.eq_singleton]

theorem eq_main_of_mem {rows : List ChatFolderData} (h : (mains rows).Sublist [ChatFolderData.main])
    {row : ChatFolderData} (hmem : row ∈ rows) (hrow : row.isFolder = false) : row = ChatFolderData.main :=
  List.mem_singleton.mp (h.subset (List.mem_filter.mpr ⟨hmem, by rw [hrow]; rfl⟩))

/-- Behind the main list there are folders only. -/
theorem isFolder_of_mem_tail {rest : List ChatFolderData}
    (h : (mains (ChatFolderData.main :: rest)).Sublist [ChatFolderData.main]) :
    ∀ row ∈ rest, row.isFolder = true := by
  rw [mains_cons, if_neg (by decide)] at h
  have hlen := h.length_le
  simp only [List.length_cons, List.length_nil] at hlen
  have hnil : mains rest = [] := List.length_eq_zero_iff.mp (by omega)
  intro row hrow
  simpa using List.filter_eq_nil_iff.mp hnil row hrow

theorem removeChatFolders_sublist (ids : List Int) (n : Nat) (m : ChatFoldersModel) :
    (removeChatFolders ids n m).chatFolders.Sublist m.chatFolders := by
  induction n generalizing m with
  | zero => exact List.Sublist.refl _
  | succ i ih =>
      rw [removeChatFolders]
      cases m.chatFolders[i]? with
      | none => exact ih m
      | some row =>
          dsimp only
          split_ifs
          · exact (ih _).trans (List.eraseIdx_sublist _ _)
          · exact ih m

/-- A main list that moves to row `0` stands there. -/
theorem moveMainChatList_first {m m' : ChatFoldersModel} (hmains : (mains m.chatFolders).Sublist [ChatFolderData.main])
    (h : moveMainChatList m 0 = some m') : m'.chatFolders.head? = some ChatFolderData.main := by
  have hmin : min 0 (m.chatFolders.length : Int) = 0 := by omega
  have hmain : ∀ source, (m.chatFolders.findIdx? fun row => row.type = .folderMain) = some source →
      m.chatFolders[source]? = some ChatFolderData.main := by
    intro source hfind
    obtain ⟨hlt, htype, -⟩ := List.findIdx?_eq_some_iff_getElem.mp hfind
    have hrow : (m.chatFolders[source]).isFolder = false := by
      rw [isFolder, of_decide_eq_true htype]
      rfl
    rw [List.getElem?_eq_getElem hlt, eq_main_of_mem hmains (List.getElem_mem hlt) hrow]
  rw [moveMainChatList, hmin] at h
  cases hfind : m.chatFolders.findIdx? fun row => row.type = .folderMain with
  | none =>
      rw [hfind] at h
      change (if (-1 : Int) = 0 then some m else none) = some m' at h
      rw [if_neg (by decide)] at h
      cases h
  | some source =>
      rw [hfind] at h
      by_cases hsame : ((some source).elim (-1) fun i => (i : Int)) = 0
      · rw [if_pos hsame] at h
        obtain rfl : source = 0 := Int.ofNat_eq_zero.mp hsame
        rw [← Option.some.inj h, List.head?_eq_getElem?]
        exact hmain 0 hfind
      · rw [if_neg hsame, Option.bind_some] at h
        obtain ⟨hrange, h⟩ := Option.ite_none_right_eq_some.mp h
        rw [← Option.some.inj h, finishMove_chatFolders, List.head?_eq_getElem?]
        exact getElem?_move hrange.2 (hmain source hfind)

/-- The rows once an object of an update has been written into those of its folder. -/
def withData (folder : QVariantMap) (rows : List ChatFolderData) : List ChatFolderData :=
  rows.map fun row =>
    if (row.isFolder && decide (row.id = (folder.value ID).toInt)) = true then { row with data := folder } else row

theorem withData_cons_main (folder : QVariantMap) (rest : List ChatFolderData) :
    withData folder (ChatFolderData.main :: rest) = ChatFolderData.main :: withData folder rest := rfl

theorem mains_withData (folder : QVariantMap) (rows : List ChatFolderData) : mains (withData folder rows) = mains rows := by
  induction rows with
  | nil => rfl
  | cons row rows ih =>
      rw [withData, List.map_cons, ← withData]
      by_cases hwritten : (row.isFolder && decide (row.id = (folder.value ID).toInt)) = true
      · have hfolder : row.isFolder = true := (Bool.and_eq_true_iff.mp hwritten).1
        have hfolder' : ({ row with data := folder } : ChatFolderData).isFolder = true := hfolder
        rw [if_pos hwritten, mains_cons, mains_cons, if_pos hfolder, if_pos hfolder', ih]
      · rw [if_neg hwritten, mains_cons, mains_cons, ih]

theorem getElem?_of_lastIndexWhere {α : Type} {p : α → Bool} {l : List α} {j : Nat} (h : lastIndexWhere p l = some j) :
    ∃ x, l[j]? = some x ∧ p x = true := by
  induction l generalizing j with
  | nil => cases h
  | cons y l ih =>
      rw [lastIndexWhere] at h
      cases hlast : lastIndexWhere p l with
      | some k =>
          rw [hlast] at h
          obtain rfl := Option.some.inj h
          exact ih hlast
      | none =>
          rw [hlast] at h
          obtain ⟨hy, h⟩ := Option.ite_none_right_eq_some.mp h
          obtain rfl := Option.some.inj h
          exact ⟨y, rfl, hy⟩

/-- What one object of an update does with the rows: a new row, a row that moves, or new data only. -/
theorem updateChatFolder_rows {p : Int} {folder : QVariantMap} {i : Nat} {m m' : ChatFoldersModel}
    (h : updateChatFolder p folder i m = some m') :
    let rows := withData folder m.chatFolders
    let newIndex := min (if p ≤ i then i + 1 else i) rows.length
    m'.chatFolders = rows.insertIdx newIndex (ofFolder folder) ∨ m'.chatFolders = rows ∨
      ∃ oldIndex row, m.chatFolders[oldIndex]? = some row ∧ row.isFolder = true ∧ MoveInRange rows oldIndex newIndex ∧
        m'.chatFolders = Containers.move rows oldIndex newIndex := by
  rw [updateChatFolder] at h
  generalize (if p ≤ (i : Int) then i + 1 else i) = normalizedIndex at h ⊢
  dsimp only at h ⊢
  cases hold : lastIndexWhere (fun folderData : ChatFolderData =>
      folderData.isFolder && decide (folderData.id = (folder.value ID).toInt)) m.chatFolders with
  | none =>
      rw [hold] at h
      obtain ⟨index, heq⟩ := foldl_updateChatFolderIndexAt _ _ _
      rw [Option.some_inj] at h
      rw [← h, heq]
      exact Or.inl rfl
  | some oldIndex =>
      rw [hold] at h
      dsimp only at h
      by_cases hsame : oldIndex = normalizedIndex
      · rw [if_pos hsame, Option.some_inj] at h
        rw [← h]
        exact Or.inr (Or.inl rfl)
      · rw [if_neg hsame] at h
        obtain ⟨hrange, h⟩ := Option.ite_none_right_eq_some.mp h
        rw [← Option.some.inj h, finishMove_chatFolders]
        obtain ⟨row, hrow, hfolder⟩ := getElem?_of_lastIndexWhere hold
        exact Or.inr (Or.inr ⟨oldIndex, row, hrow, (Bool.and_eq_true_iff.mp hfolder).1, hrange, rfl⟩)

theorem move_cons_succ {α : Type} (x : α) (l : List α) (source target : Nat) :
    Containers.move (x :: l) (source + 1) (target + 1) = x :: Containers.move l source target := by
  by_cases hrange : MoveInRange l source target
  · have hrange' : MoveInRange (x :: l) (source + 1) (target + 1) :=
      ⟨Nat.succ_lt_succ hrange.1, Nat.succ_lt_succ hrange.2⟩
    rw [Containers.move, dif_pos hrange', Containers.move, dif_pos hrange]
    rfl
  · have hrange' : ¬ MoveInRange (x :: l) (source + 1) (target + 1) := fun h =>
      hrange ⟨Nat.lt_of_succ_lt_succ h.1, Nat.lt_of_succ_lt_succ h.2⟩
    rw [Containers.move, dif_neg hrange', Containers.move, dif_neg hrange]

/-- One object of an update leaves the main list as it is, at row `0` too if the main list belongs there. -/
theorem updateChatFolder_mains {p : Int} {folder : QVariantMap} {i : Nat} {m m' : ChatFoldersModel}
    (h : updateChatFolder p folder i m = some m') :
    (mains m'.chatFolders).Perm (mains m.chatFolders) ∧
    (p = 0 → m.chatFolders.head? = some ChatFolderData.main → m'.chatFolders.head? = some ChatFolderData.main) := by
  constructor
  · refine List.Perm.trans ?_ (List.Perm.of_eq (mains_withData folder m.chatFolders))
    rcases updateChatFolder_rows h with hrows | hrows | ⟨oldIndex, row, -, -, -, hrows⟩
    · rw [hrows]
      have hperm : (mains _).Perm (mains _) := (List.perm_insertIdx (ofFolder folder) (withData folder m.chatFolders)
        (Nat.min_le_right (if p ≤ i then i + 1 else i) _)).filter _
      rwa [mains_cons, if_pos (show (ofFolder folder).isFolder = true from rfl)] at hperm
    · rw [hrows]
    · rw [hrows]
      exact (move_perm _ _ _).filter _
  · rintro rfl hfirst
    obtain ⟨rest, hrest⟩ := List.head?_eq_some_iff.mp hfirst
    have hrows := updateChatFolder_rows h
    dsimp only at hrows
    rw [hrest, withData_cons_main, if_pos (Int.natCast_nonneg i), List.length_cons, Nat.add_min_add_right] at hrows
    rcases hrows with hrows | hrows | ⟨oldIndex, row, hrow, hfolder, -, hrows⟩
    · rw [hrows, List.insertIdx_succ_cons]
      rfl
    · rw [hrows]
      rfl
    · cases oldIndex with
      | zero =>
          obtain rfl : ChatFolderData.main = row := Option.some.inj hrow
          exact absurd hfolder (by decide)
      | succ oldIndex =>
          rw [hrows, move_cons_succ]
          rfl

theorem updateChatFolders_mains {p : Int} {newChatFolders : QVariantList} {i : Nat} {m m' : ChatFoldersModel}
    (h : updateChatFolders p newChatFolders i m = some m') :
    (mains m'.chatFolders).Perm (mains m.chatFolders) ∧
    (p = 0 → m.chatFolders.head? = some ChatFolderData.main → m'.chatFolders.head? = some ChatFolderData.main) := by
  induction newChatFolders generalizing i m with
  | nil =>
      rw [updateChatFolders, Option.some_inj] at h
      rw [← h]
      exact ⟨List.Perm.refl _, fun _ hfirst => hfirst⟩
  | cons folder newChatFolders ih =>
      rw [updateChatFolders] at h
      obtain ⟨m₁, hone, hrest⟩ := Option.bind_eq_some_iff.mp h
      obtain ⟨hperm, hfirst⟩ := updateChatFolder_mains hone
      obtain ⟨hperm', hfirst'⟩ := ih hrest
      exact ⟨hperm'.trans hperm, fun hp hhead => hfirst' hp (hfirst hp hhead)⟩

theorem mainFirst_handleChatFoldersUpdated {m m' : ChatFoldersModel} {newChatFolders : QVariantList} {p : Int}
    (hm : MainFirst m) (h : handleChatFoldersUpdated m newChatFolders p = some m') : MainFirst m' := by
  rw [handleChatFoldersUpdated] at h
  obtain ⟨m₁, hmove, h⟩ := Option.bind_eq_some_iff.mp h
  obtain ⟨m₂, hfolders, rfl⟩ := Option.map_eq_some_iff.mp h
  have hremoved : (mains (removeChatFolders (idsOf newChatFolders) m.chatFolders.length
      { m with mainChatListIndex := -1 }).chatFolders).Sublist [ChatFolderData.main] :=
    ((removeChatFolders_sublist _ _ _).filter _).trans hm.mains
  have hmoved := mains_sublist_of_perm hremoved ((moveMainChatList_perm hmove).filter _)
  obtain ⟨hperm, hfirst⟩ := updateChatFolders_mains hfolders
  refine ⟨mains_sublist_of_perm hmoved hperm, fun hp => ?_⟩
  obtain rfl : p = 0 := hp
  exact hfirst rfl (moveMainChatList_first hremoved hmove)

/-! ### Resetting -/

/-- A removal takes out its range of the rows and leaves the row number of the main list. -/
theorem removeRange_spec {m m' : ChatFoldersModel} {firstDeleted lastDeleted : Int}
    (h : removeRange m firstDeleted lastDeleted = some m') :
    m'.chatFolders.Sublist m.chatFolders ∧ m'.mainChatListIndex = m.mainChatListIndex := by
  rw [removeRange] at h
  split_ifs at h with hrange
  · rw [← Option.some.inj h]
    exact ⟨eraseRange_sublist _ (by omega), rfl⟩
  · rw [← Option.some.inj h]
    exact ⟨List.Sublist.refl _, rfl⟩

theorem removeRange_of_lt (m : ChatFoldersModel) {firstDeleted lastDeleted : Int} (h : lastDeleted < firstDeleted) :
    removeRange m firstDeleted lastDeleted = some m := by
  rw [removeRange, if_neg (by omega)]

theorem reset_spec {m m' : ChatFoldersModel} (h : reset m = some m') :
    m'.chatFolders.Sublist m.chatFolders ∧ m'.mainChatListIndex = m.mainChatListIndex := by
  obtain ⟨m₁, h₁, h⟩ := Option.bind_eq_some_iff.mp h
  obtain ⟨m₂, h₂, rfl⟩ := Option.map_eq_some_iff.mp h
  obtain ⟨hrows₁, hindex₁⟩ := removeRange_spec h₁
  obtain ⟨hrows₂, hindex₂⟩ := removeRange_spec h₂
  exact ⟨hrows₂.trans hrows₁, hindex₂.trans hindex₁⟩

/-- The rows behind a main list at row `0` are taken out. -/
theorem removeRange_behind_main {m : ChatFoldersModel} {rest : List ChatFolderData}
    (hrows : m.chatFolders = ChatFolderData.main :: rest) :
    removeRange m 1 (m.chatFolders.length - 1) =
      some { m with
        chatFolders := [ChatFolderData.main]
        chatFoldersIndexMap := m.chatFoldersIndexMap.removeAll (rest.map ChatFolderData.id) } := by
  obtain ⟨rows, map, index, mainModel, archiveModel, chatModels⟩ := m
  obtain rfl : rows = ChatFolderData.main :: rest := hrows
  cases rest with
  | nil => rfl
  | cons row rest =>
      have hlast : (((row :: rest).length + 1 : Nat) - 1 : Int) = ((rest.length + 1 : Nat) : Int) := by
        rw [List.length_cons]
        omega
      rw [removeRange]
      dsimp only
      rw [List.length_cons, hlast, if_pos ⟨by omega, by omega⟩, if_pos (by simp only [List.length_cons]; omega)]
      have herase : eraseRange (ChatFolderData.main :: row :: rest) 1 (rest.length + 1) = [ChatFolderData.main] := by
        rw [eraseRange, List.drop_eq_nil_of_le (by simp)]
        rfl
      have htake : ((ChatFolderData.main :: row :: rest).drop 1).take (rest.length + 1 + 1 - 1) = row :: rest :=
        List.take_of_length_le (Nat.le_refl _)
      have hone : Int.toNat 1 = 1 := rfl
      rw [Int.toNat_natCast, hone, herase, htake]
      rfl

theorem rangeRows_behind_main (rest : List ChatFolderData) :
    rangeRows (ChatFolderData.main :: rest) 1 ((ChatFolderData.main :: rest).length - 1) = rest := by
  rw [rangeRows]
  cases rest with
  | nil => rfl
  | cons row rest =>
      rw [if_pos (by simp only [List.length_cons]; omega)]
      refine List.take_of_length_le ?_
      change rest.length + 1 ≤ _
      simp only [List.length_cons]
      omega

/-- With the main list at row `0` a reset takes out the rows behind it. -/
theorem reset_of_main_first {m : ChatFoldersModel} {rest : List ChatFolderData} (hindex : m.mainChatListIndex = 0)
    (hrows : m.chatFolders = ChatFolderData.main :: rest) :
    resetRows m = rest ∧ reset m = some { m with
      chatFolders := [ChatFolderData.main]
      chatFoldersIndexMap := m.chatFoldersIndexMap.removeAll (rest.map ChatFolderData.id)
      mainChatListModel := m.mainChatListModel.reset
      archiveChatListModel := m.archiveChatListModel.reset } := by
  have hbefore : removeRange m 0 (m.mainChatListIndex - 1) = some m := removeRange_of_lt m (by omega)
  have hone : m.mainChatListIndex + 1 = 1 := by omega
  have hnone : rangeRows m.chatFolders 0 (m.mainChatListIndex - 1) = [] := if_neg (by omega)
  constructor
  · rw [resetRows, hbefore, Option.elim_some, hone, hnone, hrows]
    exact rangeRows_behind_main rest
  · rw [reset, hbefore, Option.bind_some, hone, removeRange_behind_main hrows]
    rfl

theorem mainFirst_reset {m m' : ChatFoldersModel} (hm : MainFirst m) (h : reset m = some m') : MainFirst m' := by
  obtain ⟨hrows, hindex⟩ := reset_spec h
  refine ⟨(hrows.filter _).trans hm.mains, fun hzero => ?_⟩
  have hzero' : m.mainChatListIndex = 0 := hindex ▸ hzero
  obtain ⟨rest, hrest⟩ := List.head?_eq_some_iff.mp (hm.first hzero')
  obtain rfl := Option.some.inj ((reset_of_main_first hzero' hrest).2.symm.trans h)
  rfl

theorem mainFirst_step (m : ChatFoldersModel) (e : Event) (m' : ChatFoldersModel) (hm : MainFirst m)
    (h : step m e = some m') : MainFirst m' := by
  cases e with
  | reset => exact mainFirst_reset hm h
  | chatAddedToFolderList folderId chatData order isPinned =>
      obtain rfl := Option.some.inj h
      rw [handleChatAddedToFolderList]
      split_ifs
      · exact hm
      · exact ⟨hm.mains, hm.first⟩
  | chatFoldersUpdated newChatFolders p => exact mainFirst_handleChatFoldersUpdated hm h

theorem mainFirst_run (es : List Event) : ∀ m ∈ run (lift step) (some new) es, MainFirst m :=
  invariant_lift mainFirst_step mainFirst_new es

theorem removeAll_eq_empty_iff {map : QHash Int Nat} {ids : List Int} :
    map.removeAll ids = QHash.empty ↔ ∀ k i, map.value k = some i → k ∈ ids := by
  constructor
  · intro h k i hk
    have hvalue := QHash.value_removeAll map ids k
    rw [h, QHash.value_empty, hk] at hvalue
    by_contra hnot
    rw [if_neg hnot] at hvalue
    cases hvalue
  · intro h
    funext k
    have hvalue := QHash.value_removeAll map ids k
    rw [QHash.value] at hvalue
    rw [hvalue]
    cases hk : map.value k with
    | none => exact ite_self _
    | some i => exact if_pos (h k i hk)

/-- **A reset keeps the main list alone** exactly where it is the first row already and the index map holds no key but
those of the folders; from no other row number does the model follow it. -/
theorem reset_keepsMain_iff (es : List Event) (m : ChatFoldersModel) (hm : m ∈ run (lift step) (some new) es) :
    (∃ m', reset m = some m' ∧ KeepsMain m m') ↔ m.mainChatListIndex = 0 ∧ HoldsFoldersOnly m := by
  have hmain := mainFirst_run es m hm
  have hids : ∀ rest : List ChatFolderData, m.chatFolders = ChatFolderData.main :: rest →
      ((∀ k i, m.chatFoldersIndexMap.value k = some i → k ∈ rest.map ChatFolderData.id) ↔ HoldsFoldersOnly m) := by
    intro rest hrest
    have hfolders := isFolder_of_mem_tail (hrest ▸ hmain.mains)
    refine forall₂_congr fun k i => imp_congr_right fun _ => ?_
    rw [List.mem_map, hrest]
    constructor
    · rintro ⟨row, hrow, hid⟩
      exact ⟨row, List.mem_cons_of_mem _ hrow, key_eq_some_iff.mpr ⟨hfolders row hrow, hid⟩⟩
    · rintro ⟨row, hrow, hkey⟩
      obtain ⟨hfolder, hid⟩ := key_eq_some_iff.mp hkey
      rcases List.mem_cons.mp hrow with rfl | hrow
      · exact absurd hfolder (by decide)
      · exact ⟨row, hrow, hid⟩
  constructor
  · rintro ⟨m', hreset, hkeeps⟩
    have hindex : m.mainChatListIndex = 0 := (reset_spec hreset).2.symm.trans hkeeps.index
    obtain ⟨rest, hrest⟩ := List.head?_eq_some_iff.mp (hmain.first hindex)
    obtain rfl := Option.some.inj ((reset_of_main_first hindex hrest).2.symm.trans hreset)
    exact ⟨hindex, (hids rest hrest).mp (removeAll_eq_empty_iff.mp hkeeps.map)⟩
  · rintro ⟨hindex, hholds⟩
    obtain ⟨rest, hrest⟩ := List.head?_eq_some_iff.mp (hmain.first hindex)
    obtain ⟨hrows, hreset⟩ := reset_of_main_first hindex hrest
    refine ⟨_, hreset, rfl, removeAll_eq_empty_iff.mpr ((hids rest hrest).mpr hholds), hindex, ?_⟩
    rw [hrows]
    exact isFolder_of_mem_tail (hrest ▸ hmain.mains)

theorem reset_keepsMain_new : ∃ m', reset new = some m' ∧ KeepsMain new m' :=
  (reset_keepsMain_iff [] new rfl).mpr ⟨rfl, fun _ _ h => by cases h⟩

/-- A folder before the main list: the removal enters the main list under its id `0`, and its old row number stays. -/
theorem not_reset_keepsMain :
    ¬ ∀ (es : List Event) (m : ChatFoldersModel), m ∈ run (lift step) (some new) es →
      ∃ m', reset m = some m' ∧ KeepsMain m m' := by
  intro h
  have hindex : ((run (lift step) (some new) [.chatFoldersUpdated [folderOf 1] 0,
      .chatFoldersUpdated [folderOf 1] 1]).map fun m => m.mainChatListIndex) = some 1 := by decide
  obtain ⟨m, hm, hone⟩ := Option.map_eq_some_iff.mp hindex
  obtain ⟨m', hreset, hkeeps⟩ := h _ m hm
  rw [(reset_spec hreset).2.symm.trans hkeeps.index] at hone
  cases hone

/-- Well-formed updates leave but one key that may be wrong. -/
theorem holdsFoldersOnly_iff {m : ChatFoldersModel} (h : Consistent m.chatFolders m.chatFoldersIndexMap) :
    HoldsFoldersOnly m ↔ m.chatFoldersIndexMap.value 0 = none := by
  constructor
  · intro hholds
    by_contra hsome
    obtain ⟨i, hi⟩ := Option.ne_none_iff_exists'.mp hsome
    obtain ⟨row, hrow, hkey⟩ := hholds 0 i hi
    exact h.key_ne_zero hrow hkey
  · intro hzero k i hk
    obtain ⟨row, hrow, hkey⟩ := ((h.indexes_iff.mpr hzero) k i).mp hk
    exact ⟨row, List.mem_of_getElem? hrow, hkey⟩

end ChatFoldersModel

end YaqtLib
