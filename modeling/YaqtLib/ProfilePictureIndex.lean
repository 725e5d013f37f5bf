import YaqtLib.ProfilePictures

/-! The index of a user's pictures (`userprofilepicturesmodel.cpp`) leads each photo to its row as long as the full
info comes before the photos and no chunk brings a photo again. -/

namespace YaqtLib

namespace UserProfilePicturesModel

open Containers IndexMap Runs TdConst

/-- The index holds exactly the rows of the ordinary photos, none of which occurs twice, and what is loaded next begins
behind them. -/
structure PicturesIndexed (m : UserProfilePicturesModel) : Prop where
  index : Indexes key m.profilePhotos m.indexMap
  once : m.ordinaryIds.Nodup
  offset : ∀ userId limit offset : Int, .getUserProfilePhotos userId limit offset ∈ m.loadMore.2 →
    offset = m.ordinaryIds.length

/-- What carries the runs: the additional photos stand in front, and are counted. -/
structure Framed (m : UserProfilePicturesModel) : Prop where
  index : Indexes key m.profilePhotos m.indexMap
  front : ∃ additional photos, m.profilePhotos = additional ++ photos ∧ (∀ row ∈ additional, key row = none) ∧
    (∀ row ∈ photos, row.1 = .photo) ∧ m.additionalPhotosCount = additional.length

/-- The full info that the model takes. -/
def TakesFullInfo (m : UserProfilePicturesModel) (userId : Int) : Prop :=
  m.tdLibWrapper = true ∧ m.userFullInfoLoaded = false ∧ m.userId = userId

/-- A full info that adds photos comes before the ordinary ones, and a chunk brings no photo twice or again. -/
def KeepsIndex (m : UserProfilePicturesModel) : Event → Prop
  | .userFullInfoReceived myId userId userFullInfo => TakesFullInfo m userId →
      additionalPhotos myId userId userFullInfo = [] ∨ m.ordinaryIds = []
  | .chatPhotosReceived chatId photos _ => m.tdLibWrapper = true → m.userId = chatId →
      (m.ordinaryIds ++ photos.map photoId).Nodup
  | _ => True

variable {m m' : UserProfilePicturesModel}

theorem filterMap_key_of_none {rows : List ProfilePhoto} (h : ∀ row ∈ rows, key row = none) :
    rows.filterMap key = [] := List.filterMap_eq_nil_iff.mpr h

theorem filterMap_key_ordinary (photos : List QVariantMap) :
    (photos.map ordinary).filterMap key = photos.map photoId := by
  rw [List.filterMap_map, ← List.filterMap_eq_map]
  rfl

theorem filterMap_key_photos {rows : List ProfilePhoto} (h : ∀ row ∈ rows, row.1 = .photo) :
    (rows.filterMap key).length = rows.length := by
  rw [List.filterMap_length_eq_length]
  intro row hrow
  rw [key, if_pos (h row hrow)]
  rfl

namespace Framed

theorem of_eq (h : m.Framed) (hrows : m'.profilePhotos = m.profilePhotos) (hindex : m'.indexMap = m.indexMap)
    (hcount : m'.additionalPhotosCount = m.additionalPhotosCount) : m'.Framed := by
  constructor
  · rw [hrows, hindex]
    exact h.index
  · rw [hrows, hcount]
    exact h.front

theorem of_empty (hrows : m.profilePhotos = []) (hindex : m.indexMap = QHash.empty)
    (hcount : m.additionalPhotosCount = 0) : m.Framed := by
  constructor
  · rw [hrows, hindex]
    exact Indexes.empty
  · exact ⟨[], [], hrows, by simp, by simp, hcount⟩

theorem count_eq (h : m.Framed) : m.count = m.ordinaryIds.length := by
  obtain ⟨additional, photos, hrows, hadditional, hphotos, hcount⟩ := h.front
  rw [count, ordinaryIds, hcount, hrows, List.filterMap_append, filterMap_key_of_none hadditional, List.nil_append,
    filterMap_key_photos hphotos, List.length_append]
  omega

theorem picturesIndexed (h : m.Framed) : m.PicturesIndexed := by
  refine ⟨h.index, keysDistinct_iff_nodup.mp h.index.keysDistinct, fun userId limit offset hrequest => ?_⟩
  unfold loadMore at hrequest
  split_ifs at hrequest
  · obtain ⟨-, -, rfl⟩ := Request.getUserProfilePhotos.inj (List.mem_singleton.mp hrequest)
    exact h.count_eq
  · cases hrequest

theorem setup (h : m.Framed) : m.setup.1.Framed := by
  unfold UserProfilePicturesModel.setup
  split_ifs
  · exact h.of_eq rfl rfl rfl
  · exact of_empty rfl rfl rfl
  · exact h

/-- A chunk of new photos. -/
theorem append (h : m.Framed) {photos : List QVariantMap} (hnew : (m.ordinaryIds ++ photos.map photoId).Nodup) :
    (photos.foldl appendPhoto m).Framed := by
  have hdistinct : KeysDistinct key (m.profilePhotos ++ photos.map ordinary) := by
    rw [keysDistinct_iff_nodup, List.filterMap_append, filterMap_key_ordinary]
    exact hnew
  rw [foldl_appendPhoto]
  refine ⟨h.index.append hdistinct, ?_⟩
  obtain ⟨additional, rows, hrows, hadditional, hordinary, hcount⟩ := h.front
  refine ⟨additional, rows ++ photos.map ordinary, ?_, hadditional, fun row hrow => ?_, hcount⟩
  · dsimp only
    rw [hrows, List.append_assoc]
  · rcases List.mem_append.mp hrow with hrow | hrow
    · exact hordinary row hrow
    · obtain ⟨photo, -, rfl⟩ := List.mem_map.mp hrow
      rfl

/-- A confirmed deletion takes the row of the photo, behind which there are ordinary photos only. -/
theorem delete (h : m.Framed) {id : Int} {index : Nat} (hvalue : m.indexMap.value id = some index) :
    (reindexFrom { m with indexMap := m.indexMap.remove id, profilePhotos := m.profilePhotos.eraseIdx index }
      index).Framed := by
  obtain ⟨pre, row, post, hsplit, rfl, hrow, hkey⟩ := h.index.leads.exists_split hvalue
  obtain ⟨additional, photos, hrows, hadditional, hphotos, hcount⟩ := h.front
  -- the photo is behind the additional ones
  obtain ⟨between, rfl⟩ : additional <+: pre := by
    have hfront : additional <+: m.profilePhotos := ⟨photos, hrows.symm⟩
    refine List.prefix_of_prefix_length_le hfront ⟨row :: post, hsplit.symm⟩ ?_
    by_contra! hshort
    rw [hrows, List.getElem?_append_left hshort] at hrow
    rw [hadditional row (List.mem_of_getElem? hrow)] at hkey
    cases hkey
  have hphotos' : photos = between ++ row :: post := by
    rw [hsplit, List.append_assoc] at hrows
    exact (List.append_cancel_left hrows).symm
  have hpost : ∀ row ∈ post, key row = some (photoId row.2) := by
    intro row hrow
    exact if_pos (hphotos row (by rw [hphotos']; simp [hrow]))
  have herase : m.profilePhotos.eraseIdx (additional ++ between).length = additional ++ between ++ post := by
    rw [hsplit, List.eraseIdx_append_of_length_le (Nat.le_refl _), Nat.sub_self, List.eraseIdx_cons_zero]
  unfold reindexFrom
  dsimp only
  rw [herase, List.drop_left, ← reindex_congr hpost]
  constructor
  · have hindex := h.index
    rw [hsplit] at hindex
    exact hindex.erase hkey
  · exact ⟨additional, between ++ post, by rw [List.append_assoc], hadditional,
      fun row hrow => hphotos row (by
        rw [hphotos']
        rcases List.mem_append.mp hrow with hrow | hrow <;> simp [hrow]), hcount⟩

theorem handleOkReceived (h : m.Framed) (myId : Int) (extra : QVariant) : (m.handleOkReceived myId extra).Framed := by
  unfold UserProfilePicturesModel.handleOkReceived
  split_ifs
  · cases deletedPhoto extra with
    | none => exact h
    | some id =>
        cases hvalue : m.indexMap.value id with
        | none =>
            simp only [hvalue]
            exact h
        | some index =>
            simp only [hvalue]
            exact h.delete hvalue
  · exact h

end Framed

/-- Behind rows that the index does not know of, the first ordinary photo is not where the index has it. -/
theorem ordinaryIds_eq_nil_of_indexes {rows additional : List ProfilePhoto} {index : QHash Int Nat}
    (h : Indexes key rows index) (hadditional : additional ≠ []) (h' : Indexes key (additional ++ rows) index) :
    rows.filterMap key = [] := by
  by_contra hne
  obtain ⟨id, hid⟩ := List.exists_mem_of_ne_nil _ hne
  obtain ⟨row, hrow, hkey⟩ := List.mem_filterMap.mp hid
  obtain ⟨i, hi⟩ := List.mem_iff_getElem?.mp hrow
  have hi' : (additional ++ rows)[additional.length + i]? = some row := by
    rw [List.getElem?_append_right (Nat.le_add_right _ _), Nat.add_sub_cancel_left]
    exact hi
  have heq := (h.value_of_getElem hi hkey).symm.trans (h'.value_of_getElem hi' hkey)
  have hlength := List.length_pos_iff.mpr hadditional
  have := Option.some.inj heq
  omega

/-- Rows without keys leave an index right that knows of none of the rows behind them. -/
theorem indexes_of_ordinaryIds_eq_nil {rows additional : List ProfilePhoto} {index : QHash Int Nat}
    (h : Indexes key rows index) (hadditional : ∀ row ∈ additional, key row = none) (hempty : rows.filterMap key = []) :
    Indexes key (additional ++ rows) index := by
  have hnone : ∀ row ∈ additional ++ rows, key row = none := by
    intro row hrow
    rcases List.mem_append.mp hrow with hrow | hrow
    · exact hadditional row hrow
    · exact List.filterMap_eq_nil_iff.mp hempty row hrow
  intro k i
  refine iff_of_false (fun hvalue => ?_) ?_
  · obtain ⟨row, hrow, hkey⟩ := h.exists_row hvalue
    rw [hnone row (List.mem_append_right _ (List.mem_of_getElem? hrow))] at hkey
    cases hkey
  · rintro ⟨row, hrow, hkey⟩
    rw [hnone row (List.mem_of_getElem? hrow)] at hkey
    cases hkey

/-- A full info that adds no photo, or comes before the ordinary ones. -/
theorem Framed.handleUserFullInfo (h : m.Framed) {myId userId : Int} {userFullInfo : QVariantMap}
    (hloaded : m.userFullInfoLoaded = false) (huser : m.userId = userId)
    (hkeeps : additionalPhotos myId userId userFullInfo = [] ∨ m.ordinaryIds = []) :
    (m.handleUserFullInfo myId userId userFullInfo).1.Framed := by
  obtain ⟨additional, photos, hrows, hfront, hphotos, hcount⟩ := h.front
  rw [handleUserFullInfo_eq hloaded huser]
  constructor
  · rcases hkeeps with hnone | hempty
    · simp only [hnone, List.nil_append]
      exact h.index
    · exact indexes_of_ordinaryIds_eq_nil h.index key_additionalPhotos hempty
  · refine ⟨additionalPhotos myId userId userFullInfo ++ additional, photos, ?_, fun row hrow => ?_, hphotos, ?_⟩
    · dsimp only
      rw [hrows, List.append_assoc]
    · rcases List.mem_append.mp hrow with hrow | hrow
      · exact key_additionalPhotos row hrow
      · exact hfront row hrow
    · dsimp only
      rw [hcount, List.length_append]
      push_cast
      omega

/-- **Step lemma.** -/
theorem step_picturesIndexed (m : UserProfilePicturesModel) (e : Event) (h : m.Framed) :
    ((m.step e).PicturesIndexed → m.KeepsIndex e) ∧ (m.KeepsIndex e → (m.step e).Framed) := by
  cases e with
  | setTDLibWrapper =>
      refine ⟨fun _ => trivial, fun _ => ?_⟩
      rw [step, handle, setTDLibWrapper]
      split_ifs
      · exact h
      · exact Framed.setup (h.of_eq rfl rfl rfl)
  | setUserId userId =>
      refine ⟨fun _ => trivial, fun _ => ?_⟩
      rw [step, handle, setUserId]
      split_ifs
      · exact Framed.setup (h.of_eq rfl rfl rfl)
      · exact h
  | userFullInfoReceived myId userId userFullInfo =>
      rw [step, handle]
      by_cases hwrapper : m.tdLibWrapper = true
      swap
      · rw [if_neg hwrapper]
        exact ⟨fun _ htakes => absurd htakes.1 hwrapper, fun _ => h⟩
      rw [if_pos hwrapper]
      by_cases htaken : m.userFullInfoLoaded = false ∧ m.userId = userId
      swap
      · have hignored : m.userFullInfoLoaded = true ∨ m.userId ≠ userId := by
          rwa [not_and_or, Bool.not_eq_false] at htaken
        rw [handleUserFullInfo_ignored hignored]
        exact ⟨fun _ htakes => absurd htakes.2 htaken, fun _ => h⟩
      · refine ⟨fun hindexed _ => ?_, fun hkeeps => h.handleUserFullInfo htaken.1 htaken.2 (hkeeps ⟨hwrapper, htaken⟩)⟩
        rw [handleUserFullInfo_eq htaken.1 htaken.2] at hindexed
        by_cases hadditional : additionalPhotos myId userId userFullInfo = []
        · exact .inl hadditional
        · exact .inr (ordinaryIds_eq_nil_of_indexes h.index hadditional hindexed.index)
  | chatPhotosReceived chatId photos totalCount =>
      rw [step, handle]
      dsimp only
      by_cases hwrapper : m.tdLibWrapper = true
      swap
      · rw [if_neg hwrapper]
        exact ⟨fun _ hset => absurd hset hwrapper, fun _ => h⟩
      rw [if_pos hwrapper, handleChatPhotosReceived]
      by_cases huser : m.userId = chatId
      swap
      · rw [if_neg huser]
        exact ⟨fun _ _ hset => absurd hset huser, fun _ => h⟩
      rw [if_pos huser]
      constructor
      · intro hindexed _ _
        have honce := hindexed.once
        rw [foldl_appendPhoto, ordinaryIds, List.filterMap_append, filterMap_key_ordinary] at honce
        exact honce
      · intro hkeeps
        exact Framed.append (m := { m with totalCount := totalCount }) (h.of_eq rfl rfl rfl) (hkeeps hwrapper huser)
  | okReceived myId extra =>
      refine ⟨fun _ => trivial, fun _ => ?_⟩
      rw [step, handle]
      dsimp only
      split_ifs
      · exact h.handleOkReceived myId extra
      · exact h
  | loadMore =>
      refine ⟨fun _ => trivial, fun _ => ?_⟩
      rw [step, handle, loadMore]
      split_ifs
      · exact h.of_eq rfl rfl rfl
      · exact h

/-- **The profile picture index.** In every run, the index leads the ordinary photos to their rows in all states exactly
if each additional photo comes before the ordinary ones and no chunk brings a photo again. -/
theorem picturesIndexed_iff (es : List Event) :
    (∀ es', es' <+: es → (run step new es').PicturesIndexed) ↔ Along step KeepsIndex new es :=
  Along.always_iff_of_stronger (I := Framed) (fun _ h => h.picturesIndexed) step_picturesIndexed
    (Framed.of_empty rfl rfl rfl) es

/-- The first chunk is asked for by `loadMore`, and again after the full info. -/
def loadedTwice : List Event :=
  [.setTDLibWrapper, .setUserId 5, .loadMore, .userFullInfoReceived 1 5 [], .chatPhotosReceived 5 [[(ID, .longLong 9)]] 1,
    .chatPhotosReceived 5 [[(ID, .longLong 9)]] 1]

theorem not_picturesIndexed_loadedTwice : ¬ ∀ es', es' <+: loadedTwice → (run step new es').PicturesIndexed := by
  intro h
  have honce := (h loadedTwice List.prefix_rfl).once
  revert honce
  decide

end UserProfilePicturesModel

end YaqtLib
