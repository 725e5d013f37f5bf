import YaqtLib.AccountData
import YaqtLib.QString
import Mathlib.Data.List.Lex

/-! The list of contacts (`usersmodel.cpp`, `contactsmodel.cpp`): what a row shows of its user, the order in which the
rows are shown, and the slots that fill the list. -/

namespace YaqtLib

open Account TdConst

namespace TdConst

abbrev LAST_NAME : String := "last_name"
abbrev EDITABLE_USERNAME : String := "editable_username"
abbrev PHONE_NUMBER : String := "phone_number"
abbrev PROFILE_PHOTO : String := "profile_photo"
abbrev WAS_ONLINE : String := "was_online"
abbrev IS_SUPPORT : String := "is_support"
abbrev TYPE_USER_STATUS_OFFLINE : String := "userStatusOffline"

end TdConst

namespace QString

/-- The numbers of the units. -/
def numbers (text : QString) : List Nat := text.map UInt16.toNat

/-- `operator<`, unit by unit. -/
def less (a b : QString) : Bool := a.numbers < b.numbers

theorem less_eq_true_iff (a b : QString) : a.less b = true ↔ a.numbers < b.numbers := decide_eq_true_iff

theorem numbers_injective : Function.Injective numbers :=
  List.map_injective_iff.mpr fun _ _ => UInt16.toNat_inj.mp

end QString

/-- The texts that stand for the name of a user, in the language of the app. -/
structure UserTexts where
  deletedAccount : String
  unknown : String

namespace Utilities

def getUnknownUserName (texts : UserTexts) (user : QVariantMap) : String :=
  let userType := ((user.value TYPE).toMap.value TYPE_).toStr
  if userType = "userTypeDeleted" ∨ userType = "userTypeUnknown" then texts.deletedAccount else texts.unknown

def getUserName (texts : UserTexts) (userInformation : QVariantMap) : String :=
  let firstName := (userInformation.value FIRST_NAME).toStr
  let lastName := (userInformation.value LAST_NAME).toStr
  let result := TDLibData.trimmed (firstName ++ " " ++ lastName)
  if result ≠ "" then result else getUnknownUserName texts userInformation

end Utilities

/-- The row of an index; an invalid index has none. -/
abbrev QModelIndex := Option Nat

inductive UserRole where
  | display
  | photo
  | title
  | userId
  | firstName
  | lastName
  | username
  | phoneNumber
  | userStatus
  | userLastOnline
  | isSupport
  | accentColorId
  deriving DecidableEq

/-- The roles of a user that is given as TDLib has it. -/
def UserRole.of (texts : UserTexts) (user : QVariantMap) : UserRole → QVariant
  | .display => .map user
  | .title => .string (Utilities.getUserName texts user)
  | .userId => .longLong (user.value ID).toLongLong
  | .firstName => .string (user.value FIRST_NAME).toStr
  | .lastName => .string (user.value LAST_NAME).toStr
  | .username => .string ((user.value USERNAMES).toMap.value EDITABLE_USERNAME).toStr
  | .phoneNumber => user.value PHONE_NUMBER
  | .photo => user.value PROFILE_PHOTO
  | .userStatus => (user.value STATUS).toMap.value TYPE_
  | .userLastOnline => (user.value STATUS).toMap.value WAS_ONLINE
  | .isSupport => .bool (user.value IS_SUPPORT).toBool
  | .accentColorId => .longLong (user.value ACCENT_COLOR_ID).toInt

/-- The wrapper is the account's data that are read through it. -/
structure ContactsListModel where
  tdLibWrapper : Option TDLibData
  userIds : List Int := []
  query : String := ""

namespace ContactsListModel

/-- `UsersModel::data` -/
def data (texts : UserTexts) (m : ContactsListModel) (index : QModelIndex) (role : UserRole) : QVariant :=
  match index, m.tdLibWrapper with
  | some row, some tdLibWrapper => role.of texts (tdLibWrapper.getUserInformation (m.userIds[row]?.getD 0))
  | _, _ => .invalid

section Compare

variable (texts : UserTexts) (m : ContactsListModel)

/-- `data(index, role).toString()` -/
def dataString (role : UserRole) (index : QModelIndex) : QString := QString.ofString (m.data texts index role).toStr

/-- The comparison by the first of the roles that differs. -/
def compareUsersByRoles : List UserRole → QModelIndex → QModelIndex → Bool
  | [], index1, index2 =>
      (m.data texts index1 .userId).toLongLong < (m.data texts index2 .userId).toLongLong
  | role :: roles, index1, index2 =>
      let value1 := m.dataString texts role index1
      let value2 := m.dataString texts role index2
      if value1 ≠ value2 then value1.less value2 else compareUsersByRoles roles index1 index2

def compareUsersByName (index1 index2 : QModelIndex) : Bool :=
  m.compareUsersByRoles texts [.title, .username, .phoneNumber] index1 index2

def statuses : List String :=
  ["userStatusEmpty", "userStatusLastMonth", "userStatusLastWeek", TYPE_USER_STATUS_OFFLINE, "userStatusRecently",
    "userStatusOnline"]

/-- `QStringList::indexOf` -/
def indexOf (list : List String) (s : String) : Int :=
  match list.findIdx? (· = s) with
  | some i => i
  | none => -1

def compareUsersByStatus (index1 index2 : QModelIndex) : Bool :=
  let status1 := (m.data texts index1 .userStatus).toStr
  let status2 := (m.data texts index2 .userStatus).toStr
  let statusIndex1 := indexOf statuses status1
  let statusIndex2 := indexOf statuses status2
  if statusIndex1 ≠ statusIndex2 then statusIndex1 < statusIndex2
  else
    let lastOnline1 := (m.data texts index1 .userLastOnline).toInt
    let lastOnline2 := (m.data texts index2 .userLastOnline).toInt
    if status1 = TYPE_USER_STATUS_OFFLINE ∧ lastOnline1 ≠ lastOnline2 then lastOnline1 < lastOnline2
    else m.compareUsersByName texts index1 index2

def compare (index1 index2 : QModelIndex) (byStatus : Bool) : Bool :=
  if index1 = none then false
  else if index2 = none then true
  else if byStatus then m.compareUsersByStatus texts index1 index2
  else m.compareUsersByName texts index1 index2

end Compare

/-! ### What fills the list -/

/-- The requests of the list. -/
inductive Request where
  | getContacts
  | searchContacts (query : String)
  deriving DecidableEq

/-- The extra field under which the reply comes back. -/
def Request.extra : Request → String
  | .getContacts => "contacts"
  | .searchContacts query => "contacts:" ++ query

def fetch (m : ContactsListModel) : List Request :=
  match m.tdLibWrapper with
  | none => []
  | some _ => if m.query = "" then [.getContacts] else [.searchContacts m.query]

/-- `UsersModel::setUserVariantIds` -/
def setUserVariantIds (m : ContactsListModel) (newUserIds : QVariantList) : ContactsListModel :=
  { m with userIds := newUserIds.map QVariant.toLongLong }

def handleUsersReceived (m : ContactsListModel) (extra : String) (userIds : QVariantList) : ContactsListModel :=
  if extra = "contacts" then m.setUserVariantIds userIds
  else if m.query ≠ "" ∧ extra = "contacts:" ++ m.query then m.setUserVariantIds userIds
  else m

/-- `removeAt(indexOf(userId))` removes the first occurrence. -/
def handleUserIsContactUpdated (m : ContactsListModel) (userId : Int) (isContact : Bool) : ContactsListModel :=
  if isContact then
    if userId ∈ m.userIds then m else { m with userIds := m.userIds ++ [userId] }
  else if userId ∈ m.userIds then { m with userIds := m.userIds.erase userId }
  else m

/-- `ContactsModel::setQuery` -/
def setQuery (m : ContactsListModel) (newQuery : String) : ContactsListModel × List Request :=
  if m.query ≠ newQuery then
    let m := { m with query := newQuery }
    (m, m.fetch)
  else (m, [])

end ContactsListModel

end YaqtLib
