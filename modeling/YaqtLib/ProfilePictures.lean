import YaqtLib.IndexMap
import YaqtLib.QVariant
import YaqtLib.Runs

/-! The pictures of a user (`userprofilepicturesmodel.cpp`): the photos of the user as they are received in chunks,
behind the personal and the public photo of the full info, and the index from photo ids to rows. -/

namespace YaqtLib

open Containers IndexMap TdConst

inductive PhotoType where
  | personalPhoto
  | publicPhoto
  | photo
  deriving DecidableEq

abbrev ProfilePhoto := PhotoType × QVariantMap

/-- The application has one wrapper, so that of `tdLibWrapper` it is only known whether it is set. -/
structure UserProfilePicturesModel where
  tdLibWrapper : Bool
  userId : Int
  profilePhotos : List ProfilePhoto
  indexMap : QHash Int Nat
  totalCount : Int
  currentPhotoId : Int
  additionalPhotosCount : Int
  userFullInfoLoaded : Bool

namespace UserProfilePicturesModel

abbrev PERSONAL_PHOTO : String := "personal_photo"
abbrev PUBLIC_PHOTO : String := "public_photo"

inductive Request where
  | getUserFullInfo (userId : Int)
  | getUserProfilePhotos (userId limit offset : Int)
  deriving DecidableEq

def new : UserProfilePicturesModel where
  tdLibWrapper := false
  userId := 0
  profilePhotos := []
  indexMap := QHash.empty
  totalCount := -1
  currentPhotoId := 0
  additionalPhotosCount := 0
  userFullInfoLoaded := false

def photoId (photo : QVariantMap) : Int := (photo.value ID).toLongLong

def setup (m : UserProfilePicturesModel) : UserProfilePicturesModel × List Request :=
  if m.tdLibWrapper ∧ m.userId ≠ 0 then
    (if m.profilePhotos.isEmpty then m
      else
        { m with
          profilePhotos := []
          indexMap := QHash.empty
          additionalPhotosCount := 0
          totalCount := -1
          currentPhotoId := 0
          userFullInfoLoaded := false },
      [.getUserFullInfo m.userId])
  else (m, [])

def setTDLibWrapper (m : UserProfilePicturesModel) : UserProfilePicturesModel × List Request :=
  if m.tdLibWrapper then (m, []) else setup { m with tdLibWrapper := true }

def setUserId (m : UserProfilePicturesModel) (userId : Int) : UserProfilePicturesModel × List Request :=
  if m.userId ≠ userId then setup { m with userId := userId } else (m, [])

/-- `myId` is what `myUserId()` says when the signal comes. -/
def handleUserFullInfo (m : UserProfilePicturesModel) (myId userId : Int) (userFullInfo : QVariantMap) :
    UserProfilePicturesModel × List Request :=
  if m.userFullInfoLoaded ∨ m.userId ≠ userId then (m, [])
  else
    let m := { m with userFullInfoLoaded := true, currentPhotoId := photoId (userFullInfo.value PHOTO).toMap }
    let containsPersonalPhoto := userFullInfo.contains PERSONAL_PHOTO
    let m :=
      if containsPersonalPhoto then
        { m with
          additionalPhotosCount := m.additionalPhotosCount + 1
          profilePhotos := (.personalPhoto, (userFullInfo.value PERSONAL_PHOTO).toMap) :: m.profilePhotos }
      else m
    let m :=
      if userFullInfo.contains PUBLIC_PHOTO ∧ (userFullInfo.contains PHOTO = false ∨ userId = myId) then
        { m with
          additionalPhotosCount := m.additionalPhotosCount + 1
          profilePhotos := insertAt m.profilePhotos (if containsPersonalPhoto then 1 else 0)
            (.publicPhoto, (userFullInfo.value PUBLIC_PHOTO).toMap) }
      else m
    (m, [.getUserProfilePhotos userId 100 0])

/-- A photo of a chunk is appended and entered into the index. -/
def appendPhoto (m : UserProfilePicturesModel) (photo : QVariantMap) : UserProfilePicturesModel :=
  let profilePhotos := m.profilePhotos ++ [(.photo, photo)]
  { m with profilePhotos := profilePhotos, indexMap := m.indexMap.insert (photoId photo) (profilePhotos.length - 1) }

def handleChatPhotosReceived (m : UserProfilePicturesModel) (chatId : Int) (photos : List QVariantMap)
    (totalCount : Int) : UserProfilePicturesModel :=
  if m.userId = chatId then photos.foldl appendPhoto { m with totalCount := totalCount } else m

/-- The photo whose deletion an extra field stands for. -/
def deletedPhoto : QVariant → Option Int
  | .string extra =>
      if "deleteProfilePhoto:".toList.isPrefixOf extra.toList then
        some (stringToLongLong (String.ofList (extra.toList.drop 19)))
      else none
  | _ => none

/-- The rows from `i` on are entered into the index, whatever their type. -/
def reindexFrom (m : UserProfilePicturesModel) (i : Nat) : UserProfilePicturesModel :=
  { m with indexMap := reindex (fun row : ProfilePhoto => some (photoId row.2)) (m.profilePhotos.drop i) i m.indexMap }

def handleOkReceived (m : UserProfilePicturesModel) (myId : Int) (extra : QVariant) : UserProfilePicturesModel :=
  if m.userId = myId then
    match deletedPhoto extra with
    | none => m
    | some id =>
        match m.indexMap.value id with
        | none => m
        | some index =>
            reindexFrom
              { m with indexMap := m.indexMap.remove id, profilePhotos := m.profilePhotos.eraseIdx index } index
  else m

/-- The photos that `loadMore` takes to be loaded. -/
def count (m : UserProfilePicturesModel) : Int := m.profilePhotos.length - m.additionalPhotosCount

def loadMore (m : UserProfilePicturesModel) : UserProfilePicturesModel × List Request :=
  if m.tdLibWrapper ∧ m.userId ≠ 0 ∧ (m.totalCount = -1 ∨ m.totalCount > m.count) then
    ({ m with totalCount := 0 }, [.getUserProfilePhotos m.userId 100 m.count])
  else (m, [])

inductive Event where
  | setTDLibWrapper
  | setUserId (userId : Int)
  | userFullInfoReceived (myId userId : Int) (userFullInfo : QVariantMap)
  | chatPhotosReceived (chatId : Int) (photos : List QVariantMap) (totalCount : Int)
  | okReceived (myId : Int) (extra : QVariant)
  | loadMore

/-- The signals of the wrapper are connected when it is set. -/
def handle (m : UserProfilePicturesModel) : Event → UserProfilePicturesModel × List Request
  | .setTDLibWrapper => m.setTDLibWrapper
  | .setUserId userId => m.setUserId userId
  | .userFullInfoReceived myId userId userFullInfo =>
      if m.tdLibWrapper then m.handleUserFullInfo myId userId userFullInfo else (m, [])
  | .chatPhotosReceived chatId photos totalCount =>
      (if m.tdLibWrapper then m.handleChatPhotosReceived chatId photos totalCount else m, [])
  | .okReceived myId extra => (if m.tdLibWrapper then m.handleOkReceived myId extra else m, [])
  | .loadMore => m.loadMore

def step (m : UserProfilePicturesModel) (e : Event) : UserProfilePicturesModel := (m.handle e).1

/-! ### What the steps do to the rows -/

/-- The key of an ordinary photo. -/
def key (row : ProfilePhoto) : Option Int := if row.1 = .photo then some (photoId row.2) else none

/-- The ids of the ordinary photos in the order of their rows. -/
def ordinaryIds (m : UserProfilePicturesModel) : List Int := m.profilePhotos.filterMap key

def ordinary (photo : QVariantMap) : ProfilePhoto := (.photo, photo)

/-- The rows that a full info adds in front. -/
def additionalPhotos (myId userId : Int) (userFullInfo : QVariantMap) : List ProfilePhoto :=
  (if userFullInfo.contains PERSONAL_PHOTO then [(.personalPhoto, (userFullInfo.value PERSONAL_PHOTO).toMap)]
    else []) ++
    if userFullInfo.contains PUBLIC_PHOTO ∧ (userFullInfo.contains PHOTO = false ∨ userId = myId) then
      [(.publicPhoto, (userFullInfo.value PUBLIC_PHOTO).toMap)]
    else []

theorem key_ordinary (photo : QVariantMap) : key (ordinary photo) = some (photoId photo) := rfl

theorem key_additionalPhotos {myId userId : Int} {userFullInfo : QVariantMap} :
    ∀ row ∈ additionalPhotos myId userId userFullInfo, key row = none := by
  intro row hrow
  rcases List.mem_append.mp hrow with hrow | hrow
  all_goals
    split_ifs at hrow
    · rw [List.mem_singleton.mp hrow]
      rfl
    · cases hrow

/-- **Full info.** The rows that it adds stand in front of all others, which the index does not get to know. -/
theorem handleUserFullInfo_eq {m : UserProfilePicturesModel} {myId userId : Int} {userFullInfo : QVariantMap}
    (hloaded : m.userFullInfoLoaded = false) (huser : m.userId = userId) :
    m.handleUserFullInfo myId userId userFullInfo =
      ({ m with
          userFullInfoLoaded := true
          currentPhotoId := photoId (userFullInfo.value PHOTO).toMap
          profilePhotos := additionalPhotos myId userId userFullInfo ++ m.profilePhotos
          additionalPhotosCount := m.additionalPhotosCount + (additionalPhotos myId userId userFullInfo).length },
        [.getUserProfilePhotos userId 100 0]) := by
  have hnot : ¬ (m.userFullInfoLoaded = true ∨ m.userId ≠ userId) := by simp [hloaded, huser]
  rw [handleUserFullInfo, if_neg hnot]
  cases m with
  | mk tdLibWrapper modelUserId profilePhotos indexMap totalCount currentPhotoId additionalPhotosCount loaded =>
      dsimp only
      unfold additionalPhotos
      by_cases hpersonal : userFullInfo.contains PERSONAL_PHOTO = true <;>
        by_cases hpublic : userFullInfo.contains PUBLIC_PHOTO = true ∧
          (userFullInfo.contains PHOTO = false ∨ userId = myId) <;>
        simp [hpersonal, hpublic, insertAt, add_assoc]

theorem handleUserFullInfo_ignored {m : UserProfilePicturesModel} {myId userId : Int} {userFullInfo : QVariantMap}
    (h : m.userFullInfoLoaded = true ∨ m.userId ≠ userId) : m.handleUserFullInfo myId userId userFullInfo = (m, []) :=
  if_pos h

/-- **Chunks.** A chunk is appended and indexed from the end of the rows on. -/
theorem foldl_appendPhoto (m : UserProfilePicturesModel) (photos : List QVariantMap) :
    photos.foldl appendPhoto m =
      { m with
        profilePhotos := m.profilePhotos ++ photos.map ordinary
        indexMap := reindex key (photos.map ordinary) m.profilePhotos.length m.indexMap } := by
  induction photos generalizing m with
  | nil => simp
  | cons photo photos ih =>
      rw [List.foldl_cons, ih]
      simp [appendPhoto, ordinary, reindex, key]

end UserProfilePicturesModel

end YaqtLib
