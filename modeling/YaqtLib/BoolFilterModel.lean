import YaqtLib.FilteredPositions
import YaqtLib.QVariant
import YaqtLib.Runs

/-! The rows of another model whose value of a role is true, or is false (`boolfiltermodel.cpp`), and how rows are
mapped between the two models. -/

namespace YaqtLib

open Filtered Runs TdConst

/-- What is read of a model: its rows, the value of a role in a row, and the names of its roles in an order in which
the hash is walked. -/
structure SourceModel where
  rowCount : Nat
  data : Nat → Int → QVariant
  roleNames : List (Int × String)

/-- `Qt::DisplayRole` -/
abbrev DISPLAY_ROLE : Int := 0

structure BoolFilterModel where
  sourceModel : Option SourceModel
  filterRoleName : String
  filterRole : Int
  filterValue : Bool

namespace BoolFilterModel

def new : BoolFilterModel :=
  { sourceModel := none, filterRoleName := "", filterRole := DISPLAY_ROLE, filterValue := true }

def findRole (model : Option SourceModel) (role : String) : Int :=
  match model with
  | none => -1
  | some model =>
      if role.isEmpty then -1
      else match model.roleNames.find? fun entry => entry.2 = role with
        | some entry => entry.1
        | none => -1

def updateFilterRole (m : BoolFilterModel) : BoolFilterModel :=
  let role := findRole m.sourceModel m.filterRoleName
  { m with filterRole := if 0 ≤ role then role else DISPLAY_ROLE }

/-- `setSourceModel`, with another model than the one that is set. -/
def setSourceModel (m : BoolFilterModel) (model : Option SourceModel) : BoolFilterModel :=
  updateFilterRole { m with sourceModel := model }

def setFilterRoleName (m : BoolFilterModel) (role : String) : BoolFilterModel :=
  if m.filterRoleName = role then m else updateFilterRole { m with filterRoleName := role }

def setFilterValue (m : BoolFilterModel) (value : Bool) : BoolFilterModel :=
  if value ≠ m.filterValue then { m with filterValue := value } else m

def filterAcceptsRow (m : BoolFilterModel) (sourceRow : Nat) : Bool :=
  match m.sourceModel with
  | none => false
  | some model => (model.data sourceRow m.filterRole).toBool == m.filterValue

/-! ### The rows of `QSortFilterProxyModel` -/

def sourceRowCount (m : BoolFilterModel) : Nat := (m.sourceModel.map SourceModel.rowCount).getD 0

/-- The rows of the source that are rows of the filter, in their order. -/
def rows (m : BoolFilterModel) : List Nat := positions m.filterAcceptsRow m.sourceRowCount

/-- `tryMap`: the row of an index of the source, none for an invalid one. -/
def tryMap (m : BoolFilterModel) (i : Nat) : Option Nat := m.rows.idxOf? i

/-- A row as the functions return it. -/
def rowOrInvalid : Option Nat → Int
  | some row => row
  | none => -1

def mapRowFromSource (m : BoolFilterModel) (i fallbackDirection : Int) : Int :=
  if m.sourceModel.isNone || decide (i < 0) then -1
  else match m.tryMap i.toNat with
    | some mapped => mapped
    | none =>
        if 0 < fallbackDirection then
          rowOrInvalid ((List.range' (i.toNat + 1) (m.sourceRowCount - (i.toNat + 1))).findSome? m.tryMap)
        else if fallbackDirection < 0 then rowOrInvalid ((List.range i.toNat).reverse.findSome? m.tryMap)
        else -1

def mapRowToSource (m : BoolFilterModel) (i : Int) : Int :=
  if m.sourceModel.isNone || decide (i < 0) then -1 else rowOrInvalid m.rows[i.toNat]?

/-! ### Runs -/

/-- What is set, and changes of the source, whose roles keep their names. -/
inductive Event where
  | setSourceModel (model : Option SourceModel)
  | setFilterRoleName (role : String)
  | setFilterValue (value : Bool)
  | sourceChanged (rowCount : Nat) (data : Nat → Int → QVariant)

def step (m : BoolFilterModel) : Event → BoolFilterModel
  | .setSourceModel model => m.setSourceModel model
  | .setFilterRoleName role => m.setFilterRoleName role
  | .setFilterValue value => m.setFilterValue value
  | .sourceChanged rowCount data =>
      { m with sourceModel := m.sourceModel.map fun model => { model with rowCount := rowCount, data := data } }

/-- A row of the source is the one that is looked for: the given row, if it is a row of the filter; and else the
nearest one that is, in the direction. -/
structure Leads (m : BoolFilterModel) (i : Nat) (fallbackDirection : Int) (j : Nat) : Prop where
  row : j ∈ m.rows
  nearest : (i ∈ m.rows → j = i) ∧ (i ∉ m.rows →
    (0 < fallbackDirection ∧ i < j ∧ ∀ k ∈ m.rows, i < k → j ≤ k) ∨
      (fallbackDirection < 0 ∧ j < i ∧ ∀ k ∈ m.rows, k < i → k ≤ j))

/-- The rows of the filter and how rows are mapped. A row that is mapped from the source and back is the one that is
looked for, and nothing is found exactly if there is none; a row of the filter is mapped to the source and back; and
rows keep their order. -/
structure MapsRows (m : BoolFilterModel) : Prop where
  role : m.updateFilterRole = m
  found : ∀ (i fallbackDirection : Int) (j : Nat), 0 ≤ i →
    (m.mapRowToSource (m.mapRowFromSource i fallbackDirection) = j ↔ m.Leads i.toNat fallbackDirection j)
  absent : ∀ i fallbackDirection : Int, m.mapRowFromSource i fallbackDirection = -1 ↔
    i < 0 ∨ ∀ j, ¬ m.Leads i.toNat fallbackDirection j
  back : ∀ (row : Nat) (fallbackDirection : Int), row < m.rows.length →
    m.mapRowFromSource (m.mapRowToSource row) fallbackDirection = row
  ordered : ∀ i i' fallbackDirection : Int, i ≤ i' → 0 ≤ m.mapRowFromSource i fallbackDirection →
    0 ≤ m.mapRowFromSource i' fallbackDirection →
    m.mapRowFromSource i fallbackDirection ≤ m.mapRowFromSource i' fallbackDirection

variable {m : BoolFilterModel}

theorem mem_rows {j : Nat} : j ∈ m.rows ↔ j < m.sourceRowCount ∧ m.filterAcceptsRow j = true := mem_positions

theorem tryMap_eq_some {i row : Nat} : m.tryMap i = some row ↔ m.rows[row]? = some i := idxOf?_positions

theorem tryMap_eq_none {i : Nat} : m.tryMap i = none ↔ i ∉ m.rows := List.idxOf?_eq_none_iff

theorem rows_of_isNone (h : m.sourceModel.isNone = true) : m.rows = [] := by
  rw [rows, sourceRowCount, Option.isNone_iff_eq_none.mp h]
  rfl

theorem Leads.unique {i j j' : Nat} {fallbackDirection : Int} (h : m.Leads i fallbackDirection j)
    (h' : m.Leads i fallbackDirection j') : j = j' := by
  by_cases hi : i ∈ m.rows
  · rw [h.nearest.1 hi, h'.nearest.1 hi]
  · rcases h.nearest.2 hi with ⟨hup, hlt, hfirst⟩ | ⟨hdown, hlt, hlast⟩
    · rcases h'.nearest.2 hi with ⟨-, hlt', hfirst'⟩ | ⟨hdown', -⟩
      · exact Nat.le_antisymm (hfirst j' h'.row hlt') (hfirst' j h.row hlt)
      · exact absurd hup (by omega)
    · rcases h'.nearest.2 hi with ⟨hup', -⟩ | ⟨-, hlt', hlast'⟩
      · exact absurd hup' (by omega)
      · exact Nat.le_antisymm (hlast' j h.row hlt) (hlast j' h'.row hlt')

/-- Trying the rows behind finds the next row of the filter. -/
theorem findSome?_up {i row : Nat} (hi : i ∉ m.rows) {fallbackDirection : Int} (hup : 0 < fallbackDirection) :
    (List.range' (i + 1) (m.sourceRowCount - (i + 1))).findSome? m.tryMap = some row ↔
      ∃ j, m.Leads i fallbackDirection j ∧ m.rows[row]? = some j := by
  have hmem : ∀ k, k ∈ List.range' (i + 1) (m.sourceRowCount - (i + 1)) ↔ i < k ∧ k < m.sourceRowCount := by
    intro k
    rw [List.mem_range'_1]
    omega
  rw [findSome?_of_sorted (r := (· < ·)) (fun _ _ => Nat.lt_asymm) List.pairwise_lt_range']
  refine exists_congr fun j => ?_
  rw [hmem, tryMap_eq_some]
  constructor
  · rintro ⟨⟨hlt, -⟩, hrow, hnone⟩
    refine ⟨⟨List.mem_of_getElem? hrow, fun h => absurd h hi, fun _ => Or.inl ⟨hup, hlt, fun k hk hik => ?_⟩⟩, hrow⟩
    by_contra hkj
    exact tryMap_eq_none.mp (hnone k ((hmem k).mpr ⟨hik, (mem_rows.mp hk).1⟩) (Nat.lt_of_not_le hkj)) hk
  · rintro ⟨hleads, hrow⟩
    rcases hleads.nearest.2 hi with ⟨-, hlt, hfirst⟩ | ⟨hdown, -⟩
    · refine ⟨⟨hlt, (mem_rows.mp hleads.row).1⟩, hrow, fun k hk hkj => tryMap_eq_none.mpr fun hrows => ?_⟩
      exact absurd (hfirst k hrows ((hmem k).mp hk).1) (Nat.not_le_of_lt hkj)
    · exact absurd hup (by omega)

/-- Trying the rows before finds the previous row of the filter. -/
theorem findSome?_down {i row : Nat} (hi : i ∉ m.rows) {fallbackDirection : Int} (hdown : fallbackDirection < 0) :
    (List.range i).reverse.findSome? m.tryMap = some row ↔
      ∃ j, m.Leads i fallbackDirection j ∧ m.rows[row]? = some j := by
  rw [findSome?_of_sorted (r := (· > ·)) (fun _ _ => Nat.lt_asymm) (List.pairwise_reverse.mpr List.pairwise_lt_range)]
  refine exists_congr fun j => ?_
  rw [List.mem_reverse, List.mem_range, tryMap_eq_some]
  constructor
  · rintro ⟨hlt, hrow, hnone⟩
    refine ⟨⟨List.mem_of_getElem? hrow, fun h => absurd h hi, fun _ => Or.inr ⟨hdown, hlt, fun k hk hki => ?_⟩⟩, hrow⟩
    by_contra hkj
    exact tryMap_eq_none.mp (hnone k (List.mem_reverse.mpr (List.mem_range.mpr hki)) (Nat.lt_of_not_le hkj)) hk
  · rintro ⟨hleads, hrow⟩
    rcases hleads.nearest.2 hi with ⟨hup, -⟩ | ⟨-, hlt, hlast⟩
    · exact absurd hup (by omega)
    · refine ⟨hlt, hrow, fun k hk hjk => tryMap_eq_none.mpr fun hrows => ?_⟩
      have hki := List.mem_range.mp (List.mem_reverse.mp hk)
      exact absurd (hlast k hrows hki) (Nat.not_le_of_lt hjk)

/-- The row that is found, if the given one is no invalid index. -/
def foundRow (m : BoolFilterModel) (i : Nat) (fallbackDirection : Int) : Option Nat :=
  match m.tryMap i with
  | some mapped => some mapped
  | none =>
      if 0 < fallbackDirection then (List.range' (i + 1) (m.sourceRowCount - (i + 1))).findSome? m.tryMap
      else if fallbackDirection < 0 then (List.range i).reverse.findSome? m.tryMap
      else none

theorem foundRow_eq_some {i row : Nat} {fallbackDirection : Int} :
    m.foundRow i fallbackDirection = some row ↔ ∃ j, m.Leads i fallbackDirection j ∧ m.rows[row]? = some j := by
  rw [foundRow]
  cases hmapped : m.tryMap i with
  | some mapped =>
      have hi := tryMap_eq_some.mp hmapped
      have hmem := List.mem_of_getElem? hi
      dsimp only
      constructor
      · intro heq
        rw [← Option.some.inj heq]
        exact ⟨i, ⟨hmem, fun _ => rfl, fun h => absurd hmem h⟩, hi⟩
      · rintro ⟨j, hleads, hrow⟩
        rw [hleads.nearest.1 hmem] at hrow
        exact hmapped.symm.trans (tryMap_eq_some.mpr hrow)
  | none =>
      have hi := tryMap_eq_none.mp hmapped
      dsimp only
      split_ifs with hup hdown
      · exact findSome?_up hi hup
      · exact findSome?_down hi hdown
      · refine iff_of_false (by simp) ?_
        rintro ⟨j, hleads, -⟩
        rcases hleads.nearest.2 hi with ⟨hup', -⟩ | ⟨hdown', -⟩
        · exact hup hup'
        · exact hdown hdown'

theorem foundRow_eq_none {i : Nat} {fallbackDirection : Int} :
    m.foundRow i fallbackDirection = none ↔ ∀ j, ¬ m.Leads i fallbackDirection j := by
  rw [Option.eq_none_iff_forall_ne_some]
  constructor
  · intro h j hleads
    obtain ⟨row, hrow⟩ := List.mem_iff_getElem?.mp hleads.row
    exact h row (foundRow_eq_some.mpr ⟨j, hleads, hrow⟩)
  · intro h row hrow
    obtain ⟨j, hleads, -⟩ := foundRow_eq_some.mp hrow
    exact h j hleads

theorem mapRowFromSource_of_nonneg {i : Int} (hi : 0 ≤ i) (fallbackDirection : Int) :
    m.mapRowFromSource i fallbackDirection = rowOrInvalid (m.foundRow i.toNat fallbackDirection) := by
  rw [mapRowFromSource, decide_eq_false (Int.not_lt.mpr hi), Bool.or_false]
  cases hnone : m.sourceModel.isNone with
  | true =>
      have habsent : m.foundRow i.toNat fallbackDirection = none := by
        refine foundRow_eq_none.mpr fun j hleads => ?_
        have hrow := hleads.row
        rw [rows_of_isNone hnone] at hrow
        exact absurd hrow List.not_mem_nil
      rw [habsent]
      rfl
  | false =>
      rw [if_neg Bool.false_ne_true, foundRow]
      cases m.tryMap i.toNat with
      | some mapped => rfl
      | none =>
          dsimp only
          split_ifs <;> rfl

theorem mapRowFromSource_of_neg {i : Int} (hi : i < 0) (fallbackDirection : Int) :
    m.mapRowFromSource i fallbackDirection = -1 := by
  rw [mapRowFromSource, decide_eq_true hi, Bool.or_true, if_pos rfl]

theorem rowOrInvalid_eq_natCast {row : Option Nat} {k : Nat} : rowOrInvalid row = k ↔ row = some k := by
  cases row with
  | none => exact iff_of_false (fun h => absurd (show (-1 : Int) = k from h) (by omega)) (by simp)
  | some row =>
      rw [rowOrInvalid, Option.some.injEq]
      omega

theorem rowOrInvalid_eq_neg_one {row : Option Nat} : rowOrInvalid row = -1 ↔ row = none := by
  cases row with
  | none => exact iff_of_true rfl rfl
  | some row => exact iff_of_false (fun h => absurd (show (row : Int) = -1 from h) (by omega)) (by simp)

theorem mapRowToSource_natCast (row : Nat) : m.mapRowToSource row = rowOrInvalid m.rows[row]? := by
  rw [mapRowToSource, decide_eq_false (Int.not_lt.mpr (Int.natCast_nonneg row)), Bool.or_false, Int.toNat_natCast]
  cases hnone : m.sourceModel.isNone with
  | true => rw [if_pos rfl, rows_of_isNone hnone, List.getElem?_nil, rowOrInvalid]
  | false => rw [if_neg Bool.false_ne_true]

/-- Rows that are looked for from rows in order are in order. -/
theorem Leads.mono {i i' j j' : Nat} {fallbackDirection : Int} (h : m.Leads i fallbackDirection j)
    (h' : m.Leads i' fallbackDirection j') (hle : i ≤ i') : j ≤ j' := by
  rcases Nat.lt_or_eq_of_le hle with hlt | rfl
  · by_cases hi : i ∈ m.rows
    · obtain rfl := h.nearest.1 hi
      by_cases hi' : i' ∈ m.rows
      · rw [h'.nearest.1 hi']
        exact hle
      · rcases h'.nearest.2 hi' with ⟨-, hbehind, -⟩ | ⟨-, -, hlast⟩
        · omega
        · exact hlast j hi hlt
    · rcases h.nearest.2 hi with ⟨hup, -, hfirst⟩ | ⟨hdown, hbefore, -⟩
      · refine hfirst j' h'.row ?_
        by_cases hi' : i' ∈ m.rows
        · rw [h'.nearest.1 hi']
          exact hlt
        · rcases h'.nearest.2 hi' with ⟨-, hbehind, -⟩ | ⟨hdown, -⟩
          · exact Nat.lt_trans hlt hbehind
          · exact absurd hup (by omega)
      · by_cases hi' : i' ∈ m.rows
        · rw [h'.nearest.1 hi']
          omega
        · rcases h'.nearest.2 hi' with ⟨hup, -⟩ | ⟨-, -, hlast⟩
          · exact absurd hup (by omega)
          · exact hlast j h.row (Nat.lt_trans hbefore hlt)
  · exact Nat.le_of_eq (h.unique h')

theorem mapsRows (hrole : m.updateFilterRole = m) : m.MapsRows where
  role := hrole
  found := by
    intro i fallbackDirection j hi
    rw [mapRowFromSource_of_nonneg hi]
    cases hfound : m.foundRow i.toNat fallbackDirection with
    | none =>
        refine iff_of_false (fun h => ?_) (foundRow_eq_none.mp hfound j)
        have hinvalid : m.mapRowToSource (rowOrInvalid none) = -1 := by
          rw [mapRowToSource, rowOrInvalid]
          simp
        rw [hinvalid] at h
        omega
    | some row =>
        obtain ⟨j', hleads, hrow⟩ := foundRow_eq_some.mp hfound
        rw [rowOrInvalid, mapRowToSource_natCast, hrow, rowOrInvalid, Int.natCast_inj]
        exact ⟨fun heq => heq ▸ hleads, fun h => hleads.unique h⟩
  absent := by
    intro i fallbackDirection
    by_cases hneg : i < 0
    · exact iff_of_true (mapRowFromSource_of_neg hneg _) (Or.inl hneg)
    · rw [mapRowFromSource_of_nonneg (Int.not_lt.mp hneg), rowOrInvalid_eq_neg_one, foundRow_eq_none,
        or_iff_right hneg]
  back := by
    intro row fallbackDirection hlt
    obtain ⟨j, hj⟩ : ∃ j, m.rows[row]? = some j := ⟨_, List.getElem?_eq_getElem hlt⟩
    have hmem := List.mem_of_getElem? hj
    rw [mapRowToSource_natCast, hj, rowOrInvalid, mapRowFromSource_of_nonneg (Int.natCast_nonneg j),
      rowOrInvalid_eq_natCast, Int.toNat_natCast, foundRow_eq_some]
    exact ⟨j, ⟨hmem, fun _ => rfl, fun h => absurd hmem h⟩, hj⟩
  ordered := by
    intro i i' fallbackDirection hle hfound hfound'
    have hi : 0 ≤ i := by
      by_contra hneg
      rw [mapRowFromSource_of_neg (Int.not_le.mp hneg)] at hfound
      omega
    have hi' : 0 ≤ i' := Int.le_trans hi hle
    rw [mapRowFromSource_of_nonneg hi] at hfound ⊢
    rw [mapRowFromSource_of_nonneg hi'] at hfound' ⊢
    cases hrow : m.foundRow i.toNat fallbackDirection with
    | none =>
        rw [hrow, rowOrInvalid] at hfound
        omega
    | some row =>
        cases hrow' : m.foundRow i'.toNat fallbackDirection with
        | none =>
            rw [hrow', rowOrInvalid] at hfound'
            omega
        | some row' =>
            obtain ⟨j, hleads, hj⟩ := foundRow_eq_some.mp hrow
            obtain ⟨j', hleads', hj'⟩ := foundRow_eq_some.mp hrow'
            have hmono := hleads.mono hleads' (by omega)
            have hnot : ¬ row' < row := fun hless => absurd ((lt_of_getElem? hj' hj).mp hless) (by omega)
            rw [rowOrInvalid, rowOrInvalid]
            omega

/-! ### What the steps keep -/

theorem updateFilterRole_updateFilterRole (m : BoolFilterModel) :
    m.updateFilterRole.updateFilterRole = m.updateFilterRole := rfl

/-- **Step lemma.** What the role is looked up by changes only together with the role. -/
theorem updateFilterRole_step (m : BoolFilterModel) (e : Event) (hm : m.updateFilterRole = m) :
    (m.step e).updateFilterRole = m.step e := by
  cases e with
  | setSourceModel model => exact updateFilterRole_updateFilterRole _
  | setFilterRoleName role =>
      rw [step, setFilterRoleName]
      split_ifs
      · exact hm
      · exact updateFilterRole_updateFilterRole _
  | setFilterValue value =>
      rw [step, setFilterValue]
      split_ifs
      · exact congrArg (fun m => { m with filterValue := value }) hm
      · exact hm
  | sourceChanged rowCount data =>
      have hsame : findRole (m.sourceModel.map fun model => { model with rowCount := rowCount, data := data })
          m.filterRoleName = findRole m.sourceModel m.filterRoleName := by
        cases m.sourceModel <;> rfl
      have hrole := congrArg BoolFilterModel.filterRole hm
      rw [updateFilterRole] at hrole
      rw [step, updateFilterRole]
      dsimp only at hrole ⊢
      rw [hsame, hrole]

theorem updateFilterRole_run (es : List Event) : (run step new es).updateFilterRole = run step new es := by
  have hstart : new.updateFilterRole = new := rfl
  exact Along.invariant (P := fun _ _ => True) (I := fun m => m.updateFilterRole = m)
    (fun m e hm _ => updateFilterRole_step m e hm) hstart (along_true new es)

/-- **Rows of the filter.** Whatever was set in which order, and however the source has changed, the filter goes by
the role that has the name in the source, and the rows are mapped to the nearest rows. -/
theorem rows_mapped (es : List Event) : (run step new es).MapsRows := mapsRows (updateFilterRole_run es)

end BoolFilterModel

end YaqtLib
