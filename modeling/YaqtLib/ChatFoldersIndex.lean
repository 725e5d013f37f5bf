import YaqtLib.ChatFoldersModel
import YaqtLib.Runs

/-! The rows of the folders and their index map. The map is the exact inverse of the folder rows but for the
key `0`, under which a removal also enters the main list. -/

namespace YaqtLib

open Containers IndexMap TdConst

namespace QVariantMap

theorem remove_remove (m : QVariantMap) (k : String) : remove (remove m k) k = remove m k := by
  simp [remove]

end QVariantMap

namespace ChatFolderData

theorem key_eq_some_iff {row : ChatFolderData} {id : Int} :
    row.key = some id ↔ row.isFolder = true ∧ row.id = id := by
  rw [key]
  split_ifs with h <;> simp [h]

theorem key_eq_none_iff {row : ChatFolderData} : row.key = none ↔ row.isFolder = false := by
  rw [key]
  split_ifs with h <;> simp [h]

/-- The row with the icon taken out of its data, as a new row has it. -/
def shown (row : ChatFolderData) : ChatFolderData := { row with data := row.data.remove ICON }

theorem id_ofFolder (data : QVariantMap) : (ofFolder data).id = (data.value ID).toInt := by
  rw [id, ofFolder]
  dsimp only
  rw [QVariantMap.value_remove_of_ne _ (by decide)]

theorem key_ofFolder (data : QVariantMap) : (ofFolder data).key = some (data.value ID).toInt :=
  key_eq_some_iff.mpr ⟨rfl, id_ofFolder data⟩

theorem key_shown (row : ChatFolderData) : row.shown.key = row.key := by
  have hid : row.shown.id = row.id := by
    rw [id, shown]
    dsimp only
    rw [QVariantMap.value_remove_of_ne _ (by decide)]
    rfl
  have hfolder : row.shown.isFolder = row.isFolder := rfl
  rw [key, key, hid, hfolder]

end ChatFolderData

namespace ChatFoldersModel

open ChatFolderData

/-- The rows are those of different folders and at most one for the main list, and the map holds the row of
each folder. -/
structure Consistent (rows : List ChatFolderData) (map : QHash Int Nat) : Prop where
  mains : (rows.filter fun row => !row.isFolder).Sublist [ChatFolderData.main]
  ids : ∀ row ∈ rows, row.isFolder = true → row.id ≠ 0
  indexed : Indexes ChatFolderData.key rows (map.remove 0)

theorem consistent_new : Consistent new.chatFolders new.chatFoldersIndexMap where
  mains := List.Sublist.refl _
  ids := by decide
  indexed := by
    intro k i
    simp only [new, QHash.value_remove, QHash.value_empty, ite_self, reduceCtorEq, false_iff, not_exists, not_and]
    intro row hrow
    have : row = ChatFolderData.main := by simpa using List.mem_of_getElem? hrow
    rw [this, key_eq_none_iff.mpr rfl]
    simp

namespace Consistent

variable {rows : List ChatFolderData} {map : QHash Int Nat}

theorem eq_main (h : Consistent rows map) {row : ChatFolderData} (hmem : row ∈ rows)
    (hrow : row.isFolder = false) : row = ChatFolderData.main := by
  have : row ∈ rows.filter fun row => !row.isFolder := List.mem_filter.mpr ⟨hmem, by rw [hrow]; rfl⟩
  exact List.mem_singleton.mp (h.mains.subset this)

theorem keysDistinct (h : Consistent rows map) : KeysDistinct ChatFolderData.key rows := h.indexed.keysDistinct

theorem id_eq_zero_iff (h : Consistent rows map) {row : ChatFolderData} (hmem : row ∈ rows) :
    row.id = 0 ↔ row.isFolder = false := by
  constructor
  · intro hid
    by_contra hfolder
    exact h.ids row hmem (by simpa using hfolder) hid
  · intro hfolder
    rw [h.eq_main hmem hfolder]
    rfl

/-- No folder has the key `0`. -/
theorem key_ne_zero (h : Consistent rows map) {row : ChatFolderData} (hmem : row ∈ rows) : row.key ≠ some 0 :=
  fun hkey => by
    obtain ⟨hfolder, hid⟩ := key_eq_some_iff.mp hkey
    exact h.ids row hmem hfolder hid

/-- The map is exact if it does not hold the key `0`. -/
theorem indexes_iff (h : Consistent rows map) : Indexes ChatFolderData.key rows map ↔ map.value 0 = none := by
  constructor
  · intro hindexed
    exact (hindexed.value_eq_none_iff 0).mpr fun row hrow => h.key_ne_zero hrow
  · intro hzero k i
    rw [← h.indexed k i, QHash.value_remove]
    split_ifs with hk
    · rw [hk, hzero]
      simp
    · rfl

/-- The main list is in the rows once, or not at all. -/
theorem exists_split_main (h : Consistent rows map) (hmain : ∃ row ∈ rows, row.isFolder = false) :
    ∃ pre post, rows = pre ++ ChatFolderData.main :: post ∧ (∀ row ∈ pre, row.isFolder = true) ∧
      ∀ row ∈ post, row.isFolder = true := by
  obtain ⟨row, hrow, hfolder⟩ := hmain
  obtain rfl := h.eq_main hrow hfolder
  obtain ⟨pre, post, hrows⟩ := List.append_of_mem hrow
  have hmains := h.mains
  rw [hrows, List.filter_append, List.filter_cons_of_pos (by decide)] at hmains
  have hlen := hmains.length_le
  simp only [List.length_append, List.length_cons, List.length_nil] at hlen
  have hnil : ∀ l : List ChatFolderData, (l.filter fun row => !row.isFolder).length = 0 →
      ∀ row ∈ l, row.isFolder = true := by
    intro l hl row hmem
    simpa using List.filter_eq_nil_iff.mp (List.length_eq_zero_iff.mp hl) row hmem
  exact ⟨pre, post, hrows, hnil pre (by omega), hnil post (by omega)⟩

/-- Entering rows under their keys does not concern the key `0`. -/
theorem remove_zero_reindex {window : List ChatFolderData} (h : ∀ row ∈ window, row.key ≠ some 0) (i : Nat)
    (map : QHash Int Nat) :
    (reindex ChatFolderData.key window i map).remove 0 = reindex ChatFolderData.key window i (map.remove 0) :=
  reindex_remove (fun row hrow => Or.inr ⟨rfl, h row hrow⟩) i map

/-- Some rows are taken out, their ids too, and the rows behind them are entered anew. -/
theorem erase {pre deleted post : List ChatFolderData} (h : Consistent (pre ++ (deleted ++ post)) map) :
    Consistent (pre ++ post)
      (insertFollowing (pre ++ post) pre.length (map.removeAll (deleted.map ChatFolderData.id))) := by
  have hsub : (pre ++ post).Sublist (pre ++ (deleted ++ post)) :=
    (List.sublist_append_right deleted post).append_left pre
  have hpost : ∀ row ∈ post, (some row.id = some 0 ∧ row.key = none) ∨ (some row.id = row.key ∧ some row.id ≠ some 0) := by
    intro row hrow
    have hmem := hsub.subset (List.mem_append_right pre hrow)
    cases hfolder : row.isFolder with
    | false => exact Or.inl ⟨by rw [(h.id_eq_zero_iff hmem).mpr hfolder], key_eq_none_iff.mpr hfolder⟩
    | true =>
        refine Or.inr ⟨(key_eq_some_iff.mpr ⟨hfolder, rfl⟩).symm, fun heq => ?_⟩
        exact h.ids row hmem hfolder (Option.some.inj heq)
  refine ⟨(hsub.filter _).trans h.mains, fun row hrow => h.ids row (hsub.subset hrow), ?_⟩
  rw [insertFollowing, List.drop_left, reindex_remove hpost]
  refine Indexes.rebuild _ h.indexed (h.keysDistinct.sublist hsub) fun k hk => ?_
  by_cases hzero : k = 0
  · rw [hzero, QHash.value_remove_self, QHash.value_remove_self, ite_self]
  rw [QHash.value_remove_of_ne _ hzero, QHash.value_remove_of_ne _ hzero, QHash.value_removeAll]
  have hiff : k ∈ deleted.map ChatFolderData.id ↔ ∃ row ∈ deleted ++ post, row.key = some k := by
    rw [List.mem_map]
    constructor
    · rintro ⟨row, hrow, rfl⟩
      have hfolder : row.isFolder = true := by
        by_contra hfolder
        exact hzero ((h.id_eq_zero_iff (by simp [hrow])).mpr (by simpa using hfolder))
      exact ⟨row, List.mem_append_left _ hrow, key_eq_some_iff.mpr ⟨hfolder, rfl⟩⟩
    · rintro ⟨row, hrow, hkey⟩
      rcases List.mem_append.mp hrow with hrow | hrow
      · exact ⟨row, hrow, (key_eq_some_iff.mp hkey).2⟩
      · exact absurd hkey (hk row hrow)
  simp only [hiff]

/-- A row is moved, entered at its new place, and the rows it has passed are patched. -/
theorem move {source target : Nat} {row : ChatFolderData} (h : Consistent rows map)
    (hrange : MoveInRange rows source target) (hrow : rows[source]? = some row) :
    Consistent (Containers.move rows source target)
      (reindexMoved ChatFolderData.key (Containers.move rows source target) source target
        (reindex ChatFolderData.key [row] target map)) ∧
    (reindexMoved ChatFolderData.key (Containers.move rows source target) source target
      (reindex ChatFolderData.key [row] target map)).value 0 = map.value 0 := by
  have hperm := move_perm rows source target
  have hkeys : ∀ row ∈ Containers.move rows source target, row.key ≠ some 0 := fun row hmem =>
    h.key_ne_zero (hperm.mem_iff.mp hmem)
  have hone : ∀ other ∈ [row], other.key ≠ some 0 := fun other hother =>
    h.key_ne_zero (List.mem_singleton.mp hother ▸ List.mem_of_getElem? hrow)
  have hindexed := h.indexed.move hrange hrow
  obtain ⟨window, i, hwindow, heq⟩ := @exists_reindexMoved _ _ _ ChatFolderData.key
    (Containers.move rows source target) source target
  have hkeys' : ∀ row ∈ window, row.key ≠ some 0 := fun row hmem => hkeys row (hwindow row hmem)
  rw [heq] at hindexed ⊢
  refine ⟨⟨?_, fun row hmem => h.ids row (hperm.mem_iff.mp hmem), ?_⟩, ?_⟩
  · have hfilter := hperm.filter fun row => !row.isFolder
    rcases List.sublist_singleton.mp h.mains with hnil | hmain
    · rw [hnil] at hfilter
      rw [hfilter.eq_nil]
      exact List.nil_sublist _
    · rw [hmain] at hfilter
      rw [hfilter.eq_singleton]
  · rwa [remove_zero_reindex hkeys', remove_zero_reindex hone]
  · rw [value_reindex_of_not_mem hkeys', value_reindex_of_not_mem hone]

/-- A row is replaced by one with the same key. -/
theorem congr {rows' : List ChatFolderData} (h : Consistent rows map)
    (hmains : (rows'.filter fun row => !row.isFolder) = rows.filter fun row => !row.isFolder)
    (hkeys : rows'.map ChatFolderData.key = rows.map ChatFolderData.key) : Consistent rows' map where
  mains := hmains ▸ h.mains
  ids := fun row hrow hfolder hid => by
    have hmem : some row.id ∈ rows'.map ChatFolderData.key :=
      List.mem_map.mpr ⟨row, hrow, key_eq_some_iff.mpr ⟨hfolder, rfl⟩⟩
    rw [hkeys, hid] at hmem
    obtain ⟨other, hother, hkey⟩ := List.mem_map.mp hmem
    exact h.key_ne_zero hother hkey
  indexed := (indexes_congr hkeys.symm).mp h.indexed

/-- A folder is put in, and the rows from its own on are entered. -/
theorem insert {pre post : List ChatFolderData} {row : ChatFolderData} (h : Consistent (pre ++ post) map)
    (hfolder : row.isFolder = true) (hid : row.id ≠ 0) (hnew : ∀ other ∈ pre ++ post, other.key ≠ some row.id) :
    Consistent (pre ++ row :: post) (reindex ChatFolderData.key (row :: post) pre.length map) ∧
    (reindex ChatFolderData.key (row :: post) pre.length map).value 0 = map.value 0 := by
  have hkey : row.key = some row.id := key_eq_some_iff.mpr ⟨hfolder, rfl⟩
  have hperm : (row :: (pre ++ post)).Perm (pre ++ row :: post) := List.perm_middle.symm
  have hkeys : ∀ other ∈ row :: post, other.key ≠ some 0 := by
    intro other hother
    rcases List.mem_cons.mp hother with rfl | hother
    · rw [hkey]
      exact fun heq => hid (Option.some.inj heq)
    · exact h.key_ne_zero (List.mem_append_right _ hother)
  refine ⟨⟨?_, fun other hother hother' => ?_, ?_⟩, value_reindex_of_not_mem hkeys _ _⟩
  · have hmains := h.mains
    rw [List.filter_append] at hmains ⊢
    rwa [List.filter_cons_of_neg (by simp [hfolder])]
  · rcases List.mem_cons.mp (hperm.mem_iff.mpr hother) with rfl | hother
    · exact hid
    · exact h.ids other hother hother'
  · rw [remove_zero_reindex hkeys]
    exact h.indexed.insert (h.keysDistinct.insert hkey hnew)

end Consistent

/-! ### The loops over the rows -/

/-- Updating the row numbers of a window enters the keys of its rows. -/
theorem foldl_updateChatFolderIndexAt (n i : Nat) (m : ChatFoldersModel) :
    ∃ mainChatListIndex, (List.range' i n).foldl updateChatFolderIndexAt m =
      { m with
        chatFoldersIndexMap :=
          reindex ChatFolderData.key ((m.chatFolders.drop i).take n) i m.chatFoldersIndexMap
        mainChatListIndex := mainChatListIndex } := by
  induction n generalizing i m with
  | zero => exact ⟨m.mainChatListIndex, by rw [List.take_zero]; rfl⟩
  | succ n ih =>
      rw [List.range'_succ, List.foldl_cons]
      cases hrow : m.chatFolders[i]? with
      | none =>
          have heq : updateChatFolderIndexAt m i = m := by rw [updateChatFolderIndexAt, hrow]
          obtain ⟨index, hindex⟩ := ih (i + 1) m
          have hlen := List.getElem?_eq_none_iff.mp hrow
          rw [List.drop_eq_nil_of_le (by omega)] at hindex
          rw [heq, hindex, List.drop_eq_nil_of_le hlen, List.take_nil, List.take_nil]
          exact ⟨index, rfl⟩
      | some row =>
          have heq : ∃ index, updateChatFolderIndexAt m i =
              { m with
                chatFoldersIndexMap := reindex ChatFolderData.key [row] i m.chatFoldersIndexMap
                mainChatListIndex := index } := by
            rw [updateChatFolderIndexAt, hrow]
            cases htype : row.type with
            | folderFolder =>
                exact ⟨m.mainChatListIndex, by simp [reindex, ChatFolderData.key, ChatFolderData.isFolder, htype]⟩
            | folderMain => exact ⟨i, by simp [reindex, ChatFolderData.key, ChatFolderData.isFolder, htype]⟩
            | folderArchive =>
                exact ⟨m.mainChatListIndex, by simp [reindex, ChatFolderData.key, ChatFolderData.isFolder, htype]⟩
          obtain ⟨index, heq⟩ := heq
          obtain ⟨index', hindex⟩ := ih (i + 1) (updateChatFolderIndexAt m i)
          obtain ⟨hlt, hget⟩ := List.getElem?_eq_some_iff.mp hrow
          rw [hindex, heq]
          refine ⟨index', ?_⟩
          dsimp only
          rw [List.drop_eq_getElem_cons hlt, hget, List.take_succ_cons]
          rfl

theorem finishMove_eq (m : ChatFoldersModel) (source target : Nat) :
    ∃ mainChatListIndex, finishMove m source target =
      { m with
        chatFoldersIndexMap :=
          reindexMoved ChatFolderData.key m.chatFolders source target m.chatFoldersIndexMap
        mainChatListIndex := mainChatListIndex } := by
  rw [finishMove, reindexMoved]
  split_ifs
  · exact foldl_updateChatFolderIndexAt _ _ m
  · exact foldl_updateChatFolderIndexAt _ _ m

/-! ### Resetting -/

theorem consistent_removeRange {m m' : ChatFoldersModel} {firstDeleted lastDeleted : Int}
    (h : Consistent m.chatFolders m.chatFoldersIndexMap) (heq : removeRange m firstDeleted lastDeleted = some m') :
    Consistent m'.chatFolders m'.chatFoldersIndexMap := by
  rw [removeRange] at heq
  split_ifs at heq with hrange hlast
  · obtain rfl := Option.some.inj heq
    dsimp only
    obtain ⟨first, rfl⟩ := Int.eq_ofNat_of_zero_le hrange.1
    obtain ⟨last, rfl⟩ := Int.eq_ofNat_of_zero_le (hrange.1.trans hrange.2)
    obtain ⟨-, hle⟩ := hrange
    have hsplit : m.chatFolders = m.chatFolders.take first ++
        ((m.chatFolders.drop first).take (last + 1 - first) ++ m.chatFolders.drop (last + 1)) := by
      have : m.chatFolders.drop (last + 1) = (m.chatFolders.drop first).drop (last + 1 - first) := by
        rw [List.drop_drop]
        congr 1
        omega
      rw [this, List.take_append_drop, List.take_append_drop]
    have hlen : (m.chatFolders.take first).length = first := List.length_take_of_le (by omega)
    rw [hsplit] at h
    have herase := h.erase
    rw [hlen] at herase
    exact herase
  · obtain rfl := Option.some.inj heq
    exact h

theorem consistent_reset {m m' : ChatFoldersModel} (h : Consistent m.chatFolders m.chatFoldersIndexMap)
    (heq : reset m = some m') : Consistent m'.chatFolders m'.chatFoldersIndexMap := by
  obtain ⟨m1, h1, heq⟩ := Option.bind_eq_some_iff.mp heq
  obtain ⟨m2, h2, rfl⟩ := Option.map_eq_some_iff.mp heq
  have := consistent_removeRange (consistent_removeRange h h1) h2
  exact this

end ChatFoldersModel

end YaqtLib
