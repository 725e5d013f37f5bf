import YaqtLib.ChatFoldersOrder

/-! What an update of the folders leaves behind. The rows are the given folders around the main list exactly
if the main list can be moved to its position at once, no kept folder is then left before it that belongs
behind it (the one that comes next apart), and the rows have the icons of the folders. The index map is
exact if in addition the main list has never been entered under its id `0`. -/

namespace YaqtLib

open Containers IndexMap Placing Runs TdConst

namespace ChatFoldersModel

open ChatFolderData

/-- The rows for the given folders, with the main list at row `p`. -/
def targetRows (newChatFolders : QVariantList) (p : Nat) : List ChatFolderData :=
  (newChatFolders.take p).map (fun folder => ofFolder folder.toMap) ++
    ChatFolderData.main :: (newChatFolders.drop p).map fun folder => ofFolder folder.toMap

/-- The model shows the given folders in their order, with the main list at row `p`. -/
structure Follows (newChatFolders : QVariantList) (p : Nat) (m : ChatFoldersModel) : Prop where
  rows : m.chatFolders.map shown = targetRows newChatFolders p
  indexed : Indexes ChatFolderData.key m.chatFolders m.chatFoldersIndexMap
  main : m.mainChatListIndex = p ∧ m.chatFolders[p]? = some ChatFolderData.main

/-- Different ids other than `0`, and a position among the folders. -/
def IsUpdate (newChatFolders : QVariantList) (p : Int) : Prop :=
  (idsOf newChatFolders).Nodup ∧ 0 ∉ idsOf newChatFolders ∧ 0 ≤ p ∧ p ≤ newChatFolders.length

instance (newChatFolders : QVariantList) (p : Int) : Decidable (IsUpdate newChatFolders p) :=
  inferInstanceAs (Decidable (_ ∧ _))

/-- The states an update can be followed in. -/
structure CanFollow (m : ChatFoldersModel) (newChatFolders : QVariantList) (p : Nat) : Prop where
  /-- the main list has its row -/
  main : ∃ row ∈ m.chatFolders, row.isFolder = false
  /-- as many folders are kept as stand before the main list -/
  enough : p ≤ (keptIds (idsOf newChatFolders) m.chatFolders).length
  /-- of the kept folders that stand before it, only the one that comes next may belong behind it -/
  strays : strays p (idsOf newChatFolders) ((keptIds (idsOf newChatFolders) m.chatFolders).take p) = [] ∨
    ∃ id, Placing.strays p (idsOf newChatFolders) ((keptIds (idsOf newChatFolders) m.chatFolders).take p) = [id] ∧
      (idsOf newChatFolders)[p]? = some id
  /-- no removed folder stands before the main list -/
  quiet : m.chatFolders.Pairwise (Quiet (idsOf newChatFolders))
  /-- the main list is not in the index map -/
  zero : m.chatFoldersIndexMap.value 0 = none
  icons : IconsMatch newChatFolders m.chatFolders

/-! ### The rows and their keys -/

theorem key_main : ChatFolderData.main.key = none := rfl

theorem map_key_targetRows (newChatFolders : QVariantList) (p : Nat) :
    (targetRows newChatFolders p).map ChatFolderData.key =
      ((idsOf newChatFolders).map some).take p ++ none :: ((idsOf newChatFolders).map some).drop p := by
  have hkeys : ∀ folders : QVariantList, (folders.map fun folder => ofFolder folder.toMap).map ChatFolderData.key =
      (idsOf folders).map some := by
    intro folders
    rw [idsOf, List.map_map, List.map_map]
    exact List.map_congr_left fun folder _ => key_ofFolder folder.toMap
  rw [targetRows, List.map_append, List.map_cons, hkeys, hkeys, key_main, ← List.map_take, ← List.map_drop]
  simp only [idsOf, List.map_take, List.map_drop]

/-- Rows that agree wherever their keys do. -/
theorem map_shown_eq {rows target : List ChatFolderData}
    (hkeys : rows.map ChatFolderData.key = target.map ChatFolderData.key)
    (hrows : ∀ row ∈ rows, ∀ row' ∈ target, row.key = row'.key → row.shown = row') :
    rows.map shown = target := by
  induction rows generalizing target with
  | nil => exact (List.map_eq_nil_iff.mp hkeys.symm).symm
  | cons row rows ih =>
      cases target with
      | nil => simp at hkeys
      | cons row' target =>
          obtain ⟨hkey, hkeys⟩ := List.cons.inj hkeys
          rw [List.map_cons, hrows row (List.mem_cons_self ..) row' (List.mem_cons_self ..) hkey,
            ih hkeys fun a ha b hb => hrows a (List.mem_cons_of_mem _ ha) b (List.mem_cons_of_mem _ hb)]

/-- The rows are the target's if their keys are and they have the icons of the folders. -/
theorem rows_iff {m m' : ChatFoldersModel} {newChatFolders : QVariantList} {p i : Nat}
    (h : PlacedAll m newChatFolders p i m') (hnodup : (idsOf newChatFolders).Nodup) :
    m'.chatFolders.map shown = targetRows newChatFolders p ↔
      m'.chatFolders.map ChatFolderData.key = (targetRows newChatFolders p).map ChatFolderData.key ∧
      IconsMatch newChatFolders m'.chatFolders := by
  have hmem : ∀ row ∈ targetRows newChatFolders p,
      row = ChatFolderData.main ∨ ∃ folder ∈ newChatFolders, row = ofFolder folder.toMap := by
    intro row hrow
    rcases List.mem_append.mp hrow with hrow | hrow
    · obtain ⟨folder, hfolder, rfl⟩ := List.mem_map.mp hrow
      exact Or.inr ⟨folder, List.mem_of_mem_take hfolder, rfl⟩
    rcases List.mem_cons.mp hrow with rfl | hrow
    · exact Or.inl rfl
    · obtain ⟨folder, hfolder, rfl⟩ := List.mem_map.mp hrow
      exact Or.inr ⟨folder, List.mem_of_mem_drop hfolder, rfl⟩
  constructor
  · intro hrows
    constructor
    · rw [← hrows, List.map_map]
      exact List.map_congr_left fun row _ => (key_shown row).symm
    · intro row hrow folder hfolder hkey
      have hshown : row.shown ∈ targetRows newChatFolders p := hrows ▸ List.mem_map_of_mem hrow
      rcases hmem _ hshown with heq | ⟨folder', hfolder', heq⟩
      · have := key_shown row
        rw [heq, key_main, hkey] at this
        exact absurd this.symm (Option.some_ne_none _)
      · have hkey' := key_shown row
        rw [heq, key_ofFolder, hkey] at hkey'
        obtain rfl := eq_of_id_eq hnodup hfolder' hfolder (Option.some.inj hkey')
        rw [← heq]
        rfl
  · rintro ⟨hkeys, hicons⟩
    refine map_shown_eq hkeys fun row hrow row' hrow' hkey => ?_
    rcases hmem row' hrow' with rfl | ⟨folder, hfolder, rfl⟩
    · rw [h.consistent.eq_main hrow (key_eq_none_iff.mp hkey)]
      rfl
    · rw [key_ofFolder] at hkey
      obtain ⟨hfolderRow, -⟩ := key_eq_some_iff.mp hkey
      have hdata := h.data row hrow folder hfolder hkey
      have hicon := hicons row hrow folder hfolder hkey
      have htype : row.type = .folderFolder := by simpa [isFolder] using hfolderRow
      rw [shown, hdata]
      cases row with
      | mk type icon data =>
          dsimp only at htype hicon
          rw [htype, hicon]
          rfl

/-- The keys of the kept folders. -/
theorem map_key_keptRows (ids : List Int) {rows : List ChatFolderData} (h : ∀ row ∈ rows, row.isFolder = true) :
    (keptRows ids rows).map ChatFolderData.key = (keptIds ids rows).map some := by
  induction rows with
  | nil => rfl
  | cons row rows ih =>
      have hrow := h row (List.mem_cons_self ..)
      have hkey : row.key = some row.id := key_eq_some_iff.mpr ⟨hrow, rfl⟩
      have ih := ih fun row hrow => h row (List.mem_cons_of_mem _ hrow)
      have hcons : keptRows ids (row :: rows) = keptRows ids [row] ++ keptRows ids rows :=
        keptRows_append ids [row] rows
      rw [hcons, keptRows_singleton, List.map_append, ih, keptIds, keptIds, List.filterMap_cons, hkey, List.filter_cons]
      by_cases hmem : row.id ∈ ids
      · rw [if_neg fun hremoved => hremoved.2 hmem]
        simp [hmem, hkey]
      · rw [if_pos ⟨hrow, hmem⟩]
        simp [hmem]

theorem keptIds_append (ids : List Int) (rows rows' : List ChatFolderData) :
    keptIds ids (rows ++ rows') = keptIds ids rows ++ keptIds ids rows' := by
  rw [keptIds, List.filterMap_append, List.filter_append]
  rfl

theorem strays_map_some (p : Nat) (as A : List Int) :
    strays p (as.map some) (A.map some) = (strays p as A).map some := by
  rw [strays, strays, List.filter_map, ← List.map_take]
  congr 1
  refine List.filter_congr fun a _ => ?_
  simp only [Function.comp, List.mem_map, Option.some.injEq, exists_eq_right]

/-- The main list ends at its position with the folders around it in their order exactly if no kept folder
strays before it. -/
theorem placeAround_keys_iff {ids kept : List Int} {p : Nat} (hp : p ≤ ids.length) (hids : ids.Nodup)
    (hkept : kept.Nodup) (hall : ∀ id ∈ kept, id ∈ ids) :
    placeAround p 0 (ids.map some) ((kept.map some).take p ++ none :: (kept.map some).drop p) =
        (ids.map some).take p ++ none :: (ids.map some).drop p ↔
      strays p ids (kept.take p) = [] ∨ ∃ id, strays p ids (kept.take p) = [id] ∧ ids[p]? = some id := by
  have hnodup : ((kept.map some).take p ++ (kept.map some).drop p : List (Option Int)).Nodup := by
    rw [List.take_append_drop]
    exact hkept.map (Option.some_injective Int)
  have hmem : ∀ k ∈ ((kept.map some).take p ++ (kept.map some).drop p : List (Option Int)), k ∈ ids.map some := by
    intro k hk
    rw [List.take_append_drop] at hk
    obtain ⟨id, hid, rfl⟩ := List.mem_map.mp hk
    exact List.mem_map_of_mem (hall id hid)
  rw [placeAround_slot_iff (by simpa using hp) (hids.map (Option.some_injective Int)) (by simp) hnodup hmem,
    ← List.map_take, strays_map_some, List.map_eq_nil_iff]
  refine or_congr_right ⟨?_, ?_⟩
  · rintro ⟨e, he, hget⟩
    rw [List.getElem?_map, Option.map_eq_some_iff] at hget
    obtain ⟨id, hid, rfl⟩ := hget
    have := List.map_injective_iff.mpr (Option.some_injective Int) (he.trans (List.map_singleton ..).symm)
    exact ⟨id, this, hid⟩
  · rintro ⟨id, hid, hget⟩
    exact ⟨some id, by rw [hid]; rfl, by rw [List.getElem?_map, hget]; rfl⟩

/-! ### The whole update -/

/-- The rows after the removals. -/
theorem removeChatFolders_all {ids : List Int} {m : ChatFoldersModel}
    (hm : Consistent m.chatFolders m.chatFoldersIndexMap) :
    (removeChatFolders ids m.chatFolders.length m).chatFolders = keptRows ids m.chatFolders ∧
    Consistent (removeChatFolders ids m.chatFolders.length m).chatFolders
      (removeChatFolders ids m.chatFolders.length m).chatFoldersIndexMap ∧
    ((removeChatFolders ids m.chatFolders.length m).chatFoldersIndexMap.value 0 = none ↔
      m.chatFoldersIndexMap.value 0 = none ∧ m.chatFolders.Pairwise (Quiet ids)) := by
  have := @removeChatFolders_spec ids m _ [] hm (List.append_nil _).symm
  simpa using this

theorem iconsMatch_keptRows (newChatFolders : QVariantList) (rows : List ChatFolderData) :
    IconsMatch newChatFolders (keptRows (idsOf newChatFolders) rows) ↔ IconsMatch newChatFolders rows := by
  constructor
  · intro h row hrow folder hfolder hkey
    refine h row (List.mem_filter.mpr ⟨hrow, decide_eq_true fun hremoved => hremoved.2 ?_⟩) folder hfolder hkey
    rw [(key_eq_some_iff.mp hkey).2]
    exact List.mem_map_of_mem hfolder
  · exact fun h row hrow => h row (List.mem_filter.mp hrow).1

/-- Without a row for the main list there is nothing to move. -/
theorem handleChatFoldersUpdated_of_no_main {m : ChatFoldersModel} (hm : Consistent m.chatFolders m.chatFoldersIndexMap)
    (h : ∀ row ∈ m.chatFolders, row.isFolder = true) (newChatFolders : QVariantList) (p : Nat) :
    handleChatFoldersUpdated m newChatFolders p = none := by
  obtain ⟨hrows, -⟩ := @removeChatFolders_all (idsOf newChatFolders) { m with mainChatListIndex := -1 } hm
  rw [handleChatFoldersUpdated]
  dsimp only at hrows ⊢
  rw [moveMainChatList_of_no_main, Option.bind_none]
  intro row hrow
  rw [hrows] at hrow
  exact h row (List.mem_filter.mp hrow).1

/-- The outcome of an update that stays within the range of the rows. -/
structure Updated (m : ChatFoldersModel) (newChatFolders : QVariantList) (p : Nat) (m' : ChatFoldersModel) :
    Prop where
  keys : m'.chatFolders.map ChatFolderData.key =
    placeAround p 0 ((idsOf newChatFolders).map some)
      (((keptIds (idsOf newChatFolders) m.chatFolders).map some).take p ++
        none :: ((keptIds (idsOf newChatFolders) m.chatFolders).map some).drop p)
  consistent : Consistent m'.chatFolders m'.chatFoldersIndexMap
  zero : m'.chatFoldersIndexMap.value 0 = none ↔
    m.chatFoldersIndexMap.value 0 = none ∧ m.chatFolders.Pairwise (Quiet (idsOf newChatFolders))
  rows_iff : m'.chatFolders.map shown = targetRows newChatFolders p ↔
    m'.chatFolders.map ChatFolderData.key = (targetRows newChatFolders p).map ChatFolderData.key ∧
    IconsMatch newChatFolders m.chatFolders
  mainIndex : m'.mainChatListIndex = p

theorem handleChatFoldersUpdated_of_main {m : ChatFoldersModel} {newChatFolders : QVariantList} {p : Nat}
    (hm : Consistent m.chatFolders m.chatFoldersIndexMap) (hmain : ∃ row ∈ m.chatFolders, row.isFolder = false)
    (hnodup : (idsOf newChatFolders).Nodup) (hzero : 0 ∉ idsOf newChatFolders) :
    (p ≤ (keptIds (idsOf newChatFolders) m.chatFolders).length →
      ∃ m', handleChatFoldersUpdated m newChatFolders p = some m' ∧ Updated m newChatFolders p m') ∧
    ((keptIds (idsOf newChatFolders) m.chatFolders).length < p →
      handleChatFoldersUpdated m newChatFolders p = none) := by
  obtain ⟨pre, post, hsplit, hpre, hpost⟩ := hm.exists_split_main hmain
  obtain ⟨hrows, hconsistent, hzero1⟩ :=
    @removeChatFolders_all (idsOf newChatFolders) { m with mainChatListIndex := -1 } hm
  generalize hm1 : removeChatFolders (idsOf newChatFolders) m.chatFolders.length { m with mainChatListIndex := -1 } = m1
    at hrows hconsistent hzero1
  dsimp only at hrows hzero1
  have hrows1 : m1.chatFolders = keptRows (idsOf newChatFolders) pre ++
      ChatFolderData.main :: keptRows (idsOf newChatFolders) post := by
    rw [hrows, hsplit, keptRows_append]
    rfl
  have hfolders : ∀ row ∈ pre ++ post, row.isFolder = true := fun row hrow =>
    (List.mem_append.mp hrow).elim (hpre row) (hpost row)
  have hkeptIds : keptIds (idsOf newChatFolders) m.chatFolders = keptIds (idsOf newChatFolders) (pre ++ post) := by
    rw [hsplit, keptIds_append, keptIds_append]
    rfl
  have hkeys := map_key_keptRows (idsOf newChatFolders) hfolders
  rw [keptRows_append] at hkeys
  have hlen : (keptRows (idsOf newChatFolders) pre).length + (keptRows (idsOf newChatFolders) post).length =
      (keptIds (idsOf newChatFolders) m.chatFolders).length := by
    have := congrArg List.length hkeys
    rw [List.length_map, List.length_map, List.length_append] at this
    rw [hkeptIds, this]
  obtain ⟨hmove, houtside⟩ := moveMainChatList_spec (p := p) hconsistent hrows1 fun row hrow =>
    hpre row (List.mem_filter.mp hrow).1
  rw [hlen] at hmove houtside
  constructor
  · intro hp
    obtain ⟨m2, heq2, hrows2, hconsistent2, hzero2⟩ := hmove hp
    have hkeys2 : m2.chatFolders.map ChatFolderData.key =
        ((keptIds (idsOf newChatFolders) m.chatFolders).map some).take p ++
          none :: ((keptIds (idsOf newChatFolders) m.chatFolders).map some).drop p := by
      rw [hrows2, List.map_append, List.map_cons, List.map_take, List.map_drop, hkeys, hkeptIds]
      rfl
    obtain ⟨m3, heq3, hplaced⟩ := @updateChatFolders_spec newChatFolders p m2 [] hconsistent2
      (by rw [hkeys2]; simp) (by simp) (by simpa using hnodup) hzero
    refine ⟨{ m3 with mainChatListIndex := p }, ?_, by rw [← hkeys2]; exact hplaced.keys, hplaced.consistent, ?_, ?_, rfl⟩
    · rw [handleChatFoldersUpdated]
      dsimp only
      rw [hm1, heq2, Option.bind_some]
      rw [List.length_nil] at heq3
      rw [heq3]
      rfl
    · dsimp only
      rw [hplaced.zero, hzero2, hzero1]
    · have hperm : ∀ row, row ∈ m2.chatFolders ↔ row ∈ m1.chatFolders := by
        intro row
        rw [hrows2, hrows1, List.mem_append, List.mem_cons, List.mem_append, List.mem_cons]
        have hmem : row ∈ keptRows (idsOf newChatFolders) pre ∨ row ∈ keptRows (idsOf newChatFolders) post ↔
            row ∈ (keptRows (idsOf newChatFolders) pre ++ keptRows (idsOf newChatFolders) post).take p ∨
            row ∈ (keptRows (idsOf newChatFolders) pre ++ keptRows (idsOf newChatFolders) post).drop p := by
          rw [← List.mem_append, ← List.mem_append, List.take_append_drop]
        rw [or_left_comm, ← hmem]
        exact or_left_comm
      have hicons : IconsMatch newChatFolders m3.chatFolders ↔ IconsMatch newChatFolders m.chatFolders := by
        rw [hplaced.icons newChatFolders (List.Subset.refl _) hnodup,
          ← iconsMatch_keptRows newChatFolders m.chatFolders, ← hrows]
        simp only [IconsMatch, hperm]
      have hiff := @rows_iff m2 m3 newChatFolders p _ hplaced hnodup
      rwa [hicons] at hiff
  · intro hp
    rw [handleChatFoldersUpdated]
    dsimp only
    rw [hm1, houtside hp, Option.bind_none]

/-- Every defined update keeps the rows consistent. -/
theorem consistent_handleChatFoldersUpdated {m m' : ChatFoldersModel} {newChatFolders : QVariantList} {p : Int}
    (hm : Consistent m.chatFolders m.chatFoldersIndexMap) (hupdate : IsUpdate newChatFolders p)
    (heq : handleChatFoldersUpdated m newChatFolders p = some m') :
    Consistent m'.chatFolders m'.chatFoldersIndexMap := by
  obtain ⟨hnodup, hzero, hp, -⟩ := hupdate
  obtain ⟨p, rfl⟩ := Int.eq_ofNat_of_zero_le hp
  by_cases hmain : ∃ row ∈ m.chatFolders, row.isFolder = false
  · obtain ⟨hinside, houtside⟩ := @handleChatFoldersUpdated_of_main m newChatFolders p hm hmain hnodup hzero
    rcases Nat.lt_or_ge (keptIds (idsOf newChatFolders) m.chatFolders).length p with hlt | hge
    · rw [houtside hlt] at heq
      exact absurd heq (by simp)
    · obtain ⟨m'', heq'', hupdated⟩ := hinside hge
      obtain rfl := Option.some.inj (heq''.symm.trans heq)
      exact hupdated.consistent
  · push Not at hmain
    rw [handleChatFoldersUpdated_of_no_main hm (by simpa using hmain)] at heq
    exact absurd heq (by simp)

theorem nodup_keptIds {m : ChatFoldersModel} (hm : Consistent m.chatFolders m.chatFoldersIndexMap) (ids : List Int) :
    (keptIds ids m.chatFolders).Nodup :=
  (keysDistinct_iff_nodup.mp hm.keysDistinct).filter _

/-- The update is followed exactly in the states it can be followed in. -/
theorem follows_iff {m : ChatFoldersModel} {newChatFolders : QVariantList} {p : Nat}
    (hm : Consistent m.chatFolders m.chatFoldersIndexMap) (hnodup : (idsOf newChatFolders).Nodup)
    (hzero : 0 ∉ idsOf newChatFolders) (hp : p ≤ newChatFolders.length) :
    (∃ m', handleChatFoldersUpdated m newChatFolders p = some m' ∧ Follows newChatFolders p m') ↔
      CanFollow m newChatFolders p := by
  have hlen : p ≤ (idsOf newChatFolders).length := by rw [idsOf, List.length_map]; exact hp
  have hkept : ∀ id ∈ keptIds (idsOf newChatFolders) m.chatFolders, id ∈ idsOf newChatFolders := by
    intro id hid
    simpa using (List.mem_filter.mp hid).2
  by_cases hmain : ∃ row ∈ m.chatFolders, row.isFolder = false
  · obtain ⟨hinside, houtside⟩ := @handleChatFoldersUpdated_of_main m newChatFolders p hm hmain hnodup hzero
    rcases Nat.lt_or_ge (keptIds (idsOf newChatFolders) m.chatFolders).length p with hlt | hge
    · rw [houtside hlt]
      constructor
      · rintro ⟨m', heq, -⟩
        exact absurd heq (by simp)
      · exact fun h => absurd h.enough (by omega)
    · obtain ⟨m', heq, hupdated⟩ := hinside hge
      have hkeys := placeAround_keys_iff hlen hnodup (nodup_keptIds hm _) hkept
      rw [← hupdated.keys, ← map_key_targetRows] at hkeys
      constructor
      · rintro ⟨m'', heq'', hfollows⟩
        obtain rfl := Option.some.inj (heq''.symm.trans heq)
        obtain ⟨hrowKeys, hicons⟩ := hupdated.rows_iff.mp hfollows.rows
        obtain ⟨hmapZero, hquiet⟩ := hupdated.zero.mp (hupdated.consistent.indexes_iff.mp hfollows.indexed)
        exact ⟨hmain, hge, hkeys.mp hrowKeys, hquiet, hmapZero, hicons⟩
      · intro h
        have hrowKeys := hkeys.mpr h.strays
        refine ⟨m', heq, hupdated.rows_iff.mpr ⟨hrowKeys, h.icons⟩,
          hupdated.consistent.indexes_iff.mpr (hupdated.zero.mpr ⟨h.zero, h.quiet⟩), hupdated.mainIndex, ?_⟩
        have hget : (m'.chatFolders.map ChatFolderData.key)[p]? = some none := by
          have htake : (((idsOf newChatFolders).map some).take p).length = p :=
            List.length_take_of_le (by simpa using hlen)
          rw [hrowKeys, map_key_targetRows, List.getElem?_append_right (Nat.le_of_eq htake), htake, Nat.sub_self]
          rfl
        rw [List.getElem?_map, Option.map_eq_some_iff] at hget
        obtain ⟨row, hrow, hkey⟩ := hget
        rw [hrow, hupdated.consistent.eq_main (List.mem_of_getElem? hrow) (key_eq_none_iff.mp hkey)]
  · have hnone := handleChatFoldersUpdated_of_no_main hm (by simpa using hmain) newChatFolders p
    rw [hnone]
    constructor
    · rintro ⟨m', heq, -⟩
      exact absurd heq (by simp)
    · exact fun h => absurd h.main hmain

/-! ### Runs -/

/-- The updates of a run hold different folders and a position among them. -/
def UpdateStep (_ : ChatFoldersModel) : Event → Prop
  | .chatFoldersUpdated newChatFolders p => IsUpdate newChatFolders p
  | _ => True

instance (m : ChatFoldersModel) : ∀ e : Event, Decidable (UpdateStep m e) := by
  rintro (_ | _) <;> dsimp only [UpdateStep] <;> infer_instance

theorem consistent_step (m : ChatFoldersModel) (e : Event) (m' : ChatFoldersModel)
    (hm : Consistent m.chatFolders m.chatFoldersIndexMap) (he : UpdateStep m e) (heq : step m e = some m') :
    Consistent m'.chatFolders m'.chatFoldersIndexMap := by
  cases e with
  | reset => exact consistent_reset hm heq
  | chatAddedToFolderList folderId chatData order isPinned =>
      obtain rfl := Option.some.inj heq
      rw [handleChatAddedToFolderList]
      split_ifs
      · exact hm
      · exact hm
  | chatFoldersUpdated newChatFolders p => exact consistent_handleChatFoldersUpdated hm he heq

/-- **The folders after an update.** In every state the model can reach, an update is followed exactly if the
state allows for it. -/
theorem chatFolders_follow_iff (es : List Event)
    (hes : Along (lift step) (fun s e => ∀ m ∈ s, UpdateStep m e) (some new) es) (m : ChatFoldersModel)
    (hm : m ∈ run (lift step) (some new) es) (newChatFolders : QVariantList) (p : Nat)
    (hupdate : IsUpdate newChatFolders p) :
    (∃ m', handleChatFoldersUpdated m newChatFolders p = some m' ∧ Follows newChatFolders p m') ↔
      CanFollow m newChatFolders p := by
  obtain ⟨hnodup, hzero, -, hp⟩ := hupdate
  have hconsistent := Along.invariant_lift consistent_step consistent_new hes m hm
  exact follows_iff hconsistent hnodup hzero (by omega)

/-- A folder with nothing but an id. -/
def folderOf (id : Int) : QVariant := .map [(ID, .longLong id)]

theorem canFollow_new (newChatFolders : QVariantList) : CanFollow new newChatFolders 0 where
  main := ⟨ChatFolderData.main, List.mem_singleton_self _, rfl⟩
  enough := Nat.zero_le _
  strays := Or.inl rfl
  quiet := List.pairwise_singleton _ _
  zero := rfl
  icons := fun row hrow _ _ hkey => by
    rw [List.mem_singleton.mp hrow, key_main] at hkey
    exact absurd hkey.symm (Option.some_ne_none _)

theorem chatFolders_follow_new :
    ∃ m', handleChatFoldersUpdated new [folderOf 1, folderOf 2] (0 : Nat) = some m' ∧
      Follows [folderOf 1, folderOf 2] 0 m' :=
  (chatFolders_follow_iff [] trivial new rfl [folderOf 1, folderOf 2] 0 (by decide)).mpr (canFollow_new _)

/-- A new folder that comes between the kept one and the main list leaves the main list behind its row. -/
theorem not_chatFolders_follow :
    ¬ ∀ es : List Event, Along (lift step) (fun s e => ∀ m ∈ s, UpdateStep m e) (some new) es →
      ∀ m ∈ run (lift step) (some new) es, ∀ (newChatFolders : QVariantList) (p : Nat), IsUpdate newChatFolders p →
        ∃ m', handleChatFoldersUpdated m newChatFolders p = some m' ∧ Follows newChatFolders p m' := by
  intro h
  have hsteps : Along (lift step) (fun s e => ∀ m ∈ s, UpdateStep m e) (some new)
      [.chatFoldersUpdated [folderOf 1] 0] := by decide
  cases hrun : run (lift step) (some new) [.chatFoldersUpdated [folderOf 1] 0] with
  | none =>
      have hsome : (run (lift step) (some new) [.chatFoldersUpdated [folderOf 1] 0]).isSome = true := by decide
      rw [hrun] at hsome
      exact absurd hsome (by decide)
  | some m =>
      have hids : ((run (lift step) (some new) [.chatFoldersUpdated [folderOf 1] 0]).bind fun m =>
          (handleChatFoldersUpdated m [folderOf 2, folderOf 3, folderOf 1] 1).map fun m =>
            m.chatFolders.map ChatFolderData.id) = some [2, 3, 0, 1] := by decide
      obtain ⟨m', heq, hfollows⟩ := h _ hsteps m (by rw [hrun]; rfl) [folderOf 2, folderOf 3, folderOf 1] 1 (by decide)
      have heq' : handleChatFoldersUpdated m [folderOf 2, folderOf 3, folderOf 1] 1 = some m' := heq
      rw [hrun, Option.bind_some, heq', Option.map_some] at hids
      have hmain := hfollows.main.2
      have hget : (m'.chatFolders.map ChatFolderData.id)[1]? = some 0 := by
        rw [List.getElem?_map, hmain]
        rfl
      rw [Option.some.inj hids] at hget
      exact absurd hget (by decide)

end ChatFoldersModel

end YaqtLib
