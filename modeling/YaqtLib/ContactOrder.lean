import YaqtLib.ContactsModel
import YaqtLib.KeyChains

/-! The order of the contacts (`contactsmodel.cpp`): both comparisons are chains of keys that end in the id of the
user, so rows of different users have one order. -/

namespace YaqtLib

open Account KeyChains TdConst

namespace ContactsListModel

variable (texts : UserTexts) (m : ContactsListModel)

/-- The units of a text of a row. -/
def numbersOf (role : UserRole) (index : QModelIndex) : List Nat := (m.dataString texts role index).numbers

/-- The id that a row shows. -/
def userIdOf (index : QModelIndex) : Int := (m.data texts index .userId).toLongLong

def statusOf (index : QModelIndex) : String := (m.data texts index .userStatus).toStr

def statusIndexOf (index : QModelIndex) : Int := indexOf statuses (m.statusOf texts index)

/-- When the user of a row was last online; for one that is not offline this does not count. -/
def lastOnlineOf (index : QModelIndex) : Int :=
  if m.statusOf texts index = TYPE_USER_STATUS_OFFLINE then (m.data texts index .userLastOnline).toInt else 0

/-! ### The comparisons as chains -/

theorem compareUsersByRoles_nil : m.compareUsersByRoles texts [] = byKey (m.userIdOf texts) := rfl

theorem compareUsersByRoles_cons (role : UserRole) (roles : List UserRole) :
    m.compareUsersByRoles texts (role :: roles) =
      thenBy (m.numbersOf texts role) (m.compareUsersByRoles texts roles) := by
  funext index1 index2
  rw [compareUsersByRoles]
  by_cases heq : m.dataString texts role index1 = m.dataString texts role index2
  · have hnumbers : m.numbersOf texts role index1 = m.numbersOf texts role index2 := congrArg QString.numbers heq
    rw [thenBy_of_eq _ hnumbers]
    exact if_neg (not_not.mpr heq)
  · have hnumbers : m.numbersOf texts role index1 ≠ m.numbersOf texts role index2 := QString.numbers_injective.ne heq
    refine (if_pos heq).trans (Bool.eq_iff_iff.mpr ?_)
    rw [QString.less_eq_true_iff, thenBy_eq_true_iff]
    exact ⟨Or.inl, fun h => h.resolve_right fun h => hnumbers h.1⟩

theorem strictOrder_compareUsersByRoles (roles : List UserRole) :
    StrictOrder (m.compareUsersByRoles texts roles) := by
  induction roles with
  | nil =>
      rw [compareUsersByRoles_nil]
      exact strictOrder_byKey _
  | cons role roles ih =>
      rw [compareUsersByRoles_cons]
      exact ih.thenBy _

theorem apart_compareUsersByRoles {index1 index2 : QModelIndex}
    (h : m.userIdOf texts index1 ≠ m.userIdOf texts index2) (roles : List UserRole) :
    Apart (m.compareUsersByRoles texts roles) index1 index2 := by
  induction roles with
  | nil =>
      rw [compareUsersByRoles_nil]
      exact (apart_byKey _).mpr h
  | cons role roles ih =>
      rw [compareUsersByRoles_cons]
      exact (apart_thenBy _).mpr (Or.inr ih)

/-- An unknown status has no index, so `userStatusOffline` alone has its index. -/
theorem indexOf_statuses_eq_three_iff (status : String) :
    indexOf statuses status = 3 ↔ status = TYPE_USER_STATUS_OFFLINE := by
  constructor
  · intro h
    simp only [indexOf, statuses, List.findIdx?_cons, List.findIdx?_nil] at h
    split_ifs at h <;> simp_all
  · rintro rfl
    decide

/-- The time counts only where both users are offline, since they have one status index there. -/
theorem compareUsersByStatus_eq :
    m.compareUsersByStatus texts =
      thenBy (m.statusIndexOf texts) (thenBy (m.lastOnlineOf texts) (m.compareUsersByName texts)) := by
  funext index1 index2
  rw [compareUsersByStatus, thenBy]
  dsimp only
  by_cases hstatus : m.statusIndexOf texts index1 = m.statusIndexOf texts index2
  swap
  · exact (if_pos hstatus).trans (if_pos hstatus).symm
  · refine (if_neg (not_not.mpr hstatus)).trans (Eq.trans ?_ (if_neg (not_not.mpr hstatus)).symm)
    by_cases hoffline : m.statusOf texts index1 = TYPE_USER_STATUS_OFFLINE
    · have hoffline' : m.statusOf texts index2 = TYPE_USER_STATUS_OFFLINE :=
        (indexOf_statuses_eq_three_iff _).mp (hstatus.symm.trans ((indexOf_statuses_eq_three_iff _).mpr hoffline))
      rw [thenBy, lastOnlineOf, lastOnlineOf, if_pos hoffline, if_pos hoffline']
      exact if_congr (and_iff_right hoffline) rfl rfl
    · have hoffline' : m.statusOf texts index2 ≠ TYPE_USER_STATUS_OFFLINE := fun h =>
        hoffline ((indexOf_statuses_eq_three_iff _).mp (hstatus.trans ((indexOf_statuses_eq_three_iff _).mpr h)))
      rw [thenBy, lastOnlineOf, lastOnlineOf, if_neg hoffline, if_neg hoffline', if_neg (not_not.mpr rfl)]
      exact if_neg fun h => hoffline h.1

/-- The comparison of valid rows. -/
def compareRows (byStatus : Bool) : QModelIndex → QModelIndex → Bool :=
  if byStatus then m.compareUsersByStatus texts else m.compareUsersByName texts

theorem strictOrder_compareRows (byStatus : Bool) : StrictOrder (m.compareRows texts byStatus) := by
  have hname : StrictOrder (m.compareUsersByName texts) := m.strictOrder_compareUsersByRoles texts _
  cases byStatus with
  | false => exact hname
  | true =>
      change StrictOrder (m.compareUsersByStatus texts)
      rw [compareUsersByStatus_eq]
      exact (hname.thenBy _).thenBy _

theorem apart_compareRows (byStatus : Bool) {index1 index2 : QModelIndex}
    (h : m.userIdOf texts index1 ≠ m.userIdOf texts index2) :
    Apart (m.compareRows texts byStatus) index1 index2 := by
  have hname : Apart (m.compareUsersByName texts) index1 index2 := m.apart_compareUsersByRoles texts h _
  cases byStatus with
  | false => exact hname
  | true =>
      change Apart (m.compareUsersByStatus texts) index1 index2
      rw [compareUsersByStatus_eq]
      exact (apart_thenBy _).mpr (Or.inr ((apart_thenBy _).mpr (Or.inr hname)))

/-- `compare` on rows. -/
def before (byStatus : Bool) (row1 row2 : Nat) : Bool := m.compare texts (some row1) (some row2) byStatus

theorem before_eq (byStatus : Bool) (row1 row2 : Nat) :
    m.before texts byStatus row1 row2 = m.compareRows texts byStatus (some row1) (some row2) := by
  cases byStatus <;> rfl

theorem strictOrder_before (byStatus : Bool) : StrictOrder (m.before texts byStatus) where
  irrefl row := by
    rw [before_eq]
    exact (m.strictOrder_compareRows texts byStatus).irrefl _
  trans row1 row2 row3 h12 h23 := by
    rw [before_eq] at h12 h23 ⊢
    exact (m.strictOrder_compareRows texts byStatus).trans _ _ _ h12 h23

theorem apart_before (byStatus : Bool) {row1 row2 : Nat}
    (h : m.userIdOf texts (some row1) ≠ m.userIdOf texts (some row2)) : Apart (m.before texts byStatus) row1 row2 := by
  rw [Apart, before_eq, before_eq]
  exact m.apart_compareRows texts byStatus h

/-- The user is stored under the id that it has. -/
def Knows (tdLibWrapper : TDLibData) (userId : Int) : Prop :=
  ((tdLibWrapper.getUserInformation userId).value ID).toLongLong = userId

theorem userIdOf_of_knows {tdLibWrapper : TDLibData} (hwrapper : m.tdLibWrapper = some tdLibWrapper) {row : Nat}
    {userId : Int} (hrow : m.userIds[row]? = some userId) (hknows : Knows tdLibWrapper userId) :
    m.userIdOf texts (some row) = userId := by
  have hdata : m.data texts (some row) .userId = UserRole.userId.of texts (tdLibWrapper.getUserInformation userId) := by
    simp only [data, hwrapper, hrow, Option.getD_some]
  rw [userIdOf, hdata]
  exact hknows

/-- **Contact comparison.** By name and by status, whatever the data of the users are, the comparison of rows is
irreflexive, asymmetric and transitive, and of two rows with different ids, as they are if two different users that the
account knows are listed there, one comes before the other; so rows whose ids are all different have exactly one sorted
arrangement. -/
theorem compare_strictTotalOrder (byStatus : Bool) :
    (∀ row, m.compare texts (some row) (some row) byStatus = false) ∧
      (∀ row1 row2, m.compare texts (some row1) (some row2) byStatus = true →
        m.compare texts (some row2) (some row1) byStatus = false) ∧
      (∀ row1 row2 row3, m.compare texts (some row1) (some row2) byStatus = true →
        m.compare texts (some row2) (some row3) byStatus = true →
        m.compare texts (some row1) (some row3) byStatus = true) ∧
      (∀ row1 row2, m.userIdOf texts (some row1) ≠ m.userIdOf texts (some row2) →
        m.compare texts (some row1) (some row2) byStatus = true ∨
          m.compare texts (some row2) (some row1) byStatus = true) ∧
      (∀ tdLibWrapper ∈ m.tdLibWrapper, ∀ row1 row2 userId1 userId2, m.userIds[row1]? = some userId1 →
        m.userIds[row2]? = some userId2 → Knows tdLibWrapper userId1 → Knows tdLibWrapper userId2 →
        userId1 ≠ userId2 → m.userIdOf texts (some row1) ≠ m.userIdOf texts (some row2)) ∧
      ∀ rows : List Nat, (rows.map fun row => m.userIdOf texts (some row)).Nodup →
        ∃! sorted : List Nat, sorted.Perm rows ∧
          sorted.Pairwise fun row1 row2 => m.compare texts (some row1) (some row2) byStatus = true := by
  have horder := m.strictOrder_before texts byStatus
  refine ⟨horder.irrefl, fun _ _ => horder.asymm, horder.trans, fun _ _ => m.apart_before texts byStatus,
    fun tdLibWrapper hwrapper row1 row2 userId1 userId2 hrow1 hrow2 hknows1 hknows2 hne => ?_,
    fun rows hrows => existsUnique_sorted horder ?_⟩
  · rw [m.userIdOf_of_knows texts hwrapper hrow1 hknows1, m.userIdOf_of_knows texts hwrapper hrow2 hknows2]
    exact hne
  · exact (List.pairwise_map.mp hrows).imp fun h => m.apart_before texts byStatus h

end ContactsListModel

end YaqtLib
