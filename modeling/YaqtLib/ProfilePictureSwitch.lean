import YaqtLib.ProfilePictures

/-! The model of a user's pictures after another user is set (`userprofilepicturesmodel.cpp`): it is as good as a new
one if it has rows, which it then drops with all the rest, or if it has nothing to drop. -/

namespace YaqtLib

namespace UserProfilePicturesModel

open Containers IndexMap Runs

/-- What the model shows, and where its paging stands. -/
structure Shown where
  profilePhotos : List ProfilePhoto
  currentPhotoId : Int
  totalCount : Int
  count : Int

def shown (m : UserProfilePicturesModel) : Shown where
  profilePhotos := m.profilePhotos
  currentPhotoId := m.currentPhotoId
  totalCount := m.totalCount
  count := m.count

/-- What may come while the pictures of a user are shown: the replies for the user, confirmed deletions and calls of
`loadMore`. -/
def RepliesFor (userId : Int) : Event → Prop
  | .userFullInfoReceived _ userId' _ => userId' = userId
  | .chatPhotosReceived chatId _ _ => chatId = userId
  | .okReceived _ _ => True
  | .loadMore => True
  | .setTDLibWrapper | .setUserId _ => False

/-- A new model that has the wrapper if `m` has it. -/
def freshFor (m : UserProfilePicturesModel) : UserProfilePicturesModel :=
  if m.tdLibWrapper then new.setTDLibWrapper.1 else new

/-- From `setUserId` on, the model shows and asks for what a new one does, whatever is replied. -/
def SwitchesAfresh (m : UserProfilePicturesModel) (userId : Int) : Prop :=
  ∀ es, (∀ e ∈ es, RepliesFor userId e) →
    (run step m (.setUserId userId :: es)).shown = (run step m.freshFor (.setUserId userId :: es)).shown ∧
      emitted handle m (.setUserId userId :: es) = emitted handle m.freshFor (.setUserId userId :: es)

/-- The model holds nothing of a user, and its index has no photo that a deletion could name. -/
structure Blank (m : UserProfilePicturesModel) : Prop where
  profilePhotos : m.profilePhotos = []
  totalCount : m.totalCount = -1
  currentPhotoId : m.currentPhotoId = 0
  additionalPhotosCount : m.additionalPhotosCount = 0
  userFullInfoLoaded : m.userFullInfoLoaded = false
  index : ∀ extra id, deletedPhoto extra = some id → m.indexMap.value id = none

/-- Another user is set, and the model is blank, or it has rows and there is a user to ask for. -/
def ForgetsFor (m : UserProfilePicturesModel) (userId : Int) : Prop :=
  (m.tdLibWrapper = true → userId ≠ 0 → m.userId ≠ userId) ∧
    (m.Blank ∨ m.tdLibWrapper = true ∧ userId ≠ 0 ∧ m.profilePhotos ≠ [])

variable {m m' : UserProfilePicturesModel} {userId : Int}

/-! ### Models that differ in the index only -/

/-- The model is `m` but for photos of the index that no deletion can name. -/
def SameButIndex (m m' : UserProfilePicturesModel) : Prop :=
  ∃ index, m' = { m with indexMap := index } ∧
    ∀ extra id, deletedPhoto extra = some id → index.value id = m.indexMap.value id

theorem SameButIndex.refl (m : UserProfilePicturesModel) : SameButIndex m m := ⟨m.indexMap, rfl, fun _ _ _ => rfl⟩

theorem SameButIndex.shown (h : SameButIndex m m') : m.shown = m'.shown := by
  obtain ⟨index, rfl, -⟩ := h
  rfl

/-- A patched window shows no difference where there was none. -/
theorem value_reindex_of_value_eq {α : Type} {key : α → Option Int} {index index' : QHash Int Nat} {id : Int}
    (h : index'.value id = index.value id) (window : List α) (i : Nat) :
    (reindex key window i index').value id = (reindex key window i index).value id := by
  induction window generalizing i index index' with
  | nil => exact h
  | cons row window ih =>
      rw [reindex, reindex]
      refine ih ?_ (i + 1)
      cases key row with
      | none => exact h
      | some k =>
          dsimp only
          rw [QHash.value_insert, QHash.value_insert, h]

theorem sameButIndex_handleOkReceived (h : SameButIndex m m') (myId : Int) (extra : QVariant) :
    SameButIndex (m.handleOkReceived myId extra) (m'.handleOkReceived myId extra) := by
  obtain ⟨index, rfl, hindex⟩ := h
  unfold handleOkReceived
  dsimp only
  split_ifs with hmine
  swap
  · exact ⟨index, rfl, hindex⟩
  · cases hid : deletedPhoto extra with
    | none => exact ⟨index, rfl, hindex⟩
    | some id =>
        dsimp only
        rw [hindex extra id hid]
        cases m.indexMap.value id with
        | none => exact ⟨index, rfl, hindex⟩
        | some i =>
            refine ⟨_, rfl, fun extra' id' hid' => ?_⟩
            refine value_reindex_of_value_eq ?_ _ i
            dsimp only
            rw [QHash.value_remove, QHash.value_remove, hindex extra' id' hid']

theorem sameButIndex_handle {e : Event} (h : SameButIndex m m') (he : RepliesFor userId e) :
    SameButIndex (m.handle e).1 (m'.handle e).1 ∧ (m.handle e).2 = (m'.handle e).2 := by
  cases e with
  | setTDLibWrapper => exact he.elim
  | setUserId userId' => exact he.elim
  | okReceived myId extra =>
      refine ⟨?_, rfl⟩
      have hwrapper : m'.tdLibWrapper = m.tdLibWrapper := by
        obtain ⟨index, rfl, -⟩ := h
        rfl
      rw [handle, handle, hwrapper]
      dsimp only
      split_ifs
      · exact sameButIndex_handleOkReceived h myId extra
      · exact h
  | userFullInfoReceived myId userId' userFullInfo =>
      obtain ⟨index, rfl, hindex⟩ := h
      rw [handle, handle]
      by_cases hwrapper : m.tdLibWrapper = true
      swap
      · rw [if_neg hwrapper, if_neg hwrapper]
        exact ⟨⟨index, rfl, hindex⟩, rfl⟩
      rw [if_pos hwrapper, if_pos hwrapper]
      by_cases htaken : m.userFullInfoLoaded = true ∨ m.userId ≠ userId'
      · rw [handleUserFullInfo_ignored htaken, handleUserFullInfo_ignored (m := { m with indexMap := index }) htaken]
        exact ⟨⟨index, rfl, hindex⟩, rfl⟩
      · rw [not_or, Bool.not_eq_true, not_not] at htaken
        rw [handleUserFullInfo_eq htaken.1 htaken.2,
          handleUserFullInfo_eq (m := { m with indexMap := index }) htaken.1 htaken.2]
        exact ⟨⟨index, rfl, hindex⟩, rfl⟩
  | chatPhotosReceived chatId photos totalCount =>
      obtain ⟨index, rfl, hindex⟩ := h
      refine ⟨?_, rfl⟩
      rw [handle, handle, handleChatPhotosReceived, handleChatPhotosReceived]
      dsimp only
      split_ifs
      · rw [foldl_appendPhoto, foldl_appendPhoto]
        exact ⟨_, rfl, fun extra id hid => value_reindex_of_value_eq (hindex extra id hid) _ _⟩
      · exact ⟨index, rfl, hindex⟩
      · exact ⟨index, rfl, hindex⟩
  | loadMore =>
      obtain ⟨index, rfl, hindex⟩ := h
      rw [handle, handle, loadMore, loadMore]
      have hcount : count { m with indexMap := index } = m.count := rfl
      dsimp only
      rw [hcount]
      split_ifs
      · exact ⟨⟨index, rfl, hindex⟩, rfl⟩
      · exact ⟨⟨index, rfl, hindex⟩, rfl⟩

theorem SameButIndex.run (h : SameButIndex m m') {es : List Event} (hes : ∀ e ∈ es, RepliesFor userId e) :
    (run step m es).shown = (run step m' es).shown ∧ emitted handle m es = emitted handle m' es := by
  obtain ⟨hlast, hemitted⟩ :=
    simulated_run (P := RepliesFor userId) (fun s t e hst he => @sameButIndex_handle s t userId e hst he) h hes
  exact ⟨hlast.shown, hemitted⟩

/-! ### Setting a user -/

theorem freshFor_eq (m : UserProfilePicturesModel) : m.freshFor = { new with tdLibWrapper := m.tdLibWrapper } := by
  unfold freshFor
  cases m.tdLibWrapper <;> rfl

/-- Without a user to ask for, or of a user without rows, everything is kept. -/
theorem setUserId_of_kept (hkept : ¬ (m.tdLibWrapper = true ∧ userId ≠ 0) ∨ m.profilePhotos = [])
    (hother : m.tdLibWrapper = true → userId ≠ 0 → m.userId ≠ userId) :
    m.setUserId userId = ({ m with userId := userId },
      if m.tdLibWrapper ∧ userId ≠ 0 then [.getUserFullInfo userId] else []) := by
  by_cases hsame : m.userId = userId
  · have hidle : ¬ (m.tdLibWrapper = true ∧ userId ≠ 0) := fun h => hother h.1 h.2 hsame
    rw [setUserId, if_neg (not_not.mpr hsame), if_neg hidle, ← hsame]
  · rw [setUserId, if_pos hsame, setup]
    dsimp only
    split_ifs with hasks hempty
    · rfl
    · exact absurd ((hkept.resolve_left (not_not.mpr hasks)) ▸ rfl) hempty
    · rfl

/-- The rows of a user are dropped with all the rest. -/
theorem setUserId_of_rows (hwrapper : m.tdLibWrapper = true) (huser : userId ≠ 0) (hrows : m.profilePhotos ≠ [])
    (hother : m.userId ≠ userId) :
    m.setUserId userId = ({ new with tdLibWrapper := true, userId := userId }, [.getUserFullInfo userId]) := by
  have hnot : ¬ m.profilePhotos.isEmpty = true := by rwa [List.isEmpty_iff]
  rw [setUserId, if_pos hother, setup, if_pos ⟨hwrapper, huser⟩, if_neg hnot]
  dsimp only
  rw [hwrapper]
  rfl

theorem setUserId_same (hsame : m.userId = userId) : m.setUserId userId = (m, []) :=
  if_neg (not_not.mpr hsame)

theorem setUserId_freshFor (m : UserProfilePicturesModel) (userId : Int) :
    m.freshFor.setUserId userId = ({ new with tdLibWrapper := m.tdLibWrapper, userId := userId },
      if m.tdLibWrapper ∧ userId ≠ 0 then [.getUserFullInfo userId] else []) := by
  have hnew : ({ new with tdLibWrapper := m.tdLibWrapper } : UserProfilePicturesModel).userId = 0 := rfl
  rw [freshFor_eq]
  refine setUserId_of_kept (.inr rfl) fun _ hne => ?_
  rw [hnew]
  exact Ne.symm hne

/-- From two models that ask for the same when the user is set, the runs go on from the states after it. -/
theorem switchesAfresh_iff (hrequests : (m.setUserId userId).2 = (m.freshFor.setUserId userId).2) :
    m.SwitchesAfresh userId ↔ ∀ es, (∀ e ∈ es, RepliesFor userId e) →
      (run step (m.setUserId userId).1 es).shown = (run step (m.freshFor.setUserId userId).1 es).shown ∧
        emitted handle (m.setUserId userId).1 es = emitted handle (m.freshFor.setUserId userId).1 es := by
  refine forall_congr' fun es => imp_congr_right fun _ => and_congr Iff.rfl ?_
  have hcons : ∀ s : UserProfilePicturesModel, emitted handle s (.setUserId userId :: es) =
      (s.setUserId userId).2 ++ emitted handle (s.setUserId userId).1 es := fun _ => rfl
  rw [hcons, hcons, hrequests]
  exact List.append_right_inj _

theorem Blank.sameButIndex (h : m.Blank) (userId : Int) :
    SameButIndex { m with userId := userId } { new with tdLibWrapper := m.tdLibWrapper, userId := userId } := by
  refine ⟨QHash.empty, ?_, fun extra id hid => (h.index extra id hid).symm⟩
  cases m with
  | mk tdLibWrapper modelUserId profilePhotos indexMap totalCount currentPhotoId additionalPhotosCount loaded =>
      obtain ⟨hrows, htotal, hcurrent, hcount, hloaded, -⟩ := h
      dsimp only at hrows htotal hcurrent hcount hloaded
      subst hrows htotal hcurrent hcount hloaded
      rfl

theorem ForgetsFor.switchesAfresh (h : m.ForgetsFor userId) : m.SwitchesAfresh userId := by
  obtain ⟨hother, hforgets⟩ := h
  have hfresh := m.setUserId_freshFor userId
  by_cases hrows : m.tdLibWrapper = true ∧ userId ≠ 0 ∧ m.profilePhotos ≠ []
  · obtain ⟨hwrapper, huser, hrows⟩ := hrows
    have hset := setUserId_of_rows hwrapper huser hrows (hother hwrapper huser)
    have hsame : m.setUserId userId = m.freshFor.setUserId userId := by
      rw [hset, hfresh, if_pos ⟨hwrapper, huser⟩, hwrapper]
    refine (switchesAfresh_iff (congrArg Prod.snd hsame)).mpr fun es _ => ?_
    rw [hsame]
    exact ⟨rfl, rfl⟩
  · have hblank := hforgets.resolve_right hrows
    have hset := setUserId_of_kept (.inr hblank.profilePhotos) hother
    refine (switchesAfresh_iff (by rw [hset, hfresh])).mpr fun es hes => ?_
    rw [hset, hfresh]
    exact (hblank.sameButIndex userId).run hes

/-! ### What a new model would not show -/

/-- Photos of another id, as many as make row `i` the last one. -/
def chunkWithout (id : Int) (i : Nat) : List QVariantMap :=
  List.replicate (i + 1) [(TdConst.ID, .longLong (id + 1))]

theorem key_chunkWithout (id : Int) (i : Nat) : ∀ row ∈ (chunkWithout id i).map ordinary, key row ≠ some id := by
  intro row hrow
  obtain ⟨photo, hphoto, rfl⟩ := List.mem_map.mp hrow
  have hid : photoId photo = id + 1 := by
    rw [List.eq_of_mem_replicate hphoto]
    rfl
  rw [key_ordinary, hid]
  intro heq
  have := Option.some.inj heq
  omega

/-- An entry of the index takes a row of another photo with it. -/
theorem length_after_deletion (hwrapper : m.tdLibWrapper = true) (huser : m.userId = userId)
    (hrows : m.profilePhotos = []) {extra : QVariant} {id : Int} (hid : deletedPhoto extra = some id) (i : Nat) :
    (run step m [.chatPhotosReceived userId (chunkWithout id i) 0, .okReceived userId extra]).shown.profilePhotos.length =
      if (m.indexMap.value id).any fun index => index < i + 1 then i else i + 1 := by
  have hchunk : step m (.chatPhotosReceived userId (chunkWithout id i) 0) =
      { m with
        totalCount := 0
        profilePhotos := (chunkWithout id i).map ordinary
        indexMap := reindex key ((chunkWithout id i).map ordinary) 0 m.indexMap } := by
    rw [step, handle, if_pos hwrapper, handleChatPhotosReceived, if_pos huser, foldl_appendPhoto]
    dsimp only
    rw [hrows]
    rfl
  have hvalue := value_reindex_of_not_mem (key_chunkWithout id i) 0 m.indexMap
  have hlength : ((chunkWithout id i).map ordinary).length = i + 1 := by
    rw [List.length_map, chunkWithout, List.length_replicate]
  rw [run_cons, hchunk, run_cons, run_nil, step, handle]
  dsimp only
  rw [if_pos hwrapper, handleOkReceived, if_pos huser, hid]
  dsimp only
  rw [hvalue]
  cases m.indexMap.value id with
  | none => exact hlength
  | some index =>
      simp only [shown, reindexFrom, List.length_eraseIdx, hlength, Option.any_some, decide_eq_true_eq]
      split_ifs <;> rfl

/-- A full info that has been taken is not taken again. -/
theorem not_loaded_of_requests (hwrapper : m.tdLibWrapper = true)
    (h : emitted handle m [.userFullInfoReceived 0 userId []] = [.getUserProfilePhotos userId 100 0]) :
    m.userFullInfoLoaded = false := by
  by_contra hloaded
  rw [Bool.not_eq_false] at hloaded
  rw [emitted, handle, if_pos hwrapper, handleUserFullInfo_ignored (.inl hloaded)] at h
  cases h

/-- A model that holds something shows it, in the end by a deletion that takes a row of another photo. -/
theorem blank_of_indistinguishable (hwrapper : m.tdLibWrapper = true) (huser : m.userId = userId)
    (h : ∀ es, (∀ e ∈ es, RepliesFor userId e) →
      (run step m es).shown = (run step { new with tdLibWrapper := m.tdLibWrapper, userId := userId } es).shown ∧
        emitted handle m es = emitted handle { new with tdLibWrapper := m.tdLibWrapper, userId := userId } es) :
    m.Blank := by
  have hshown := (h [] (by simp)).1
  have hrows : m.profilePhotos = [] := congrArg Shown.profilePhotos hshown
  have hcount : m.count = 0 := congrArg Shown.count hshown
  have hadditional : m.additionalPhotosCount = 0 := by
    rw [count, hrows, List.length_nil] at hcount
    omega
  have hloaded : m.userFullInfoLoaded = false := by
    refine @not_loaded_of_requests m userId hwrapper ?_
    rw [(h [.userFullInfoReceived 0 userId []] (by simp [RepliesFor])).2, emitted, handle, if_pos hwrapper,
      handleUserFullInfo_eq rfl rfl]
    rfl
  refine ⟨hrows, congrArg Shown.totalCount hshown, congrArg Shown.currentPhotoId hshown, hadditional, hloaded,
    fun extra id hid => ?_⟩
  by_contra hentry
  obtain ⟨i, hi⟩ := Option.ne_none_iff_exists'.mp hentry
  have hafter := congrArg (fun s : Shown => s.profilePhotos.length)
    (h [.chatPhotosReceived userId (chunkWithout id i) 0, .okReceived userId extra] (by simp [RepliesFor])).1
  have hold := length_after_deletion hwrapper huser hrows hid i
  have hnew := length_after_deletion (m := { new with tdLibWrapper := m.tdLibWrapper, userId := userId }) hwrapper rfl
    rfl
    hid i
  have hempty : new.indexMap.value id = none := rfl
  rw [hi, Option.any_some, if_pos (decide_eq_true (Nat.lt_succ_self i))] at hold
  dsimp only at hafter hnew
  rw [hempty, Option.any_none, if_neg Bool.false_ne_true] at hnew
  omega

theorem setup_tdLibWrapper (m : UserProfilePicturesModel) : m.setup.1.tdLibWrapper = m.tdLibWrapper := by
  rw [setup]
  split_ifs <;> rfl

theorem handleOkReceived_tdLibWrapper (m : UserProfilePicturesModel) (myId : Int) (extra : QVariant) :
    (m.handleOkReceived myId extra).tdLibWrapper = m.tdLibWrapper := by
  rw [handleOkReceived]
  split_ifs
  · cases deletedPhoto extra with
    | none => rfl
    | some id =>
        dsimp only
        cases m.indexMap.value id <;> rfl
  · rfl

/-- The wrapper stays. -/
theorem step_tdLibWrapper (h : m.tdLibWrapper = true) (e : Event) : (m.step e).tdLibWrapper = true := by
  cases e with
  | setTDLibWrapper =>
      rw [step, handle, setTDLibWrapper, if_pos h]
      exact h
  | setUserId userId =>
      rw [step, handle, setUserId]
      split_ifs
      · rw [setup_tdLibWrapper]
        exact h
      · exact h
  | userFullInfoReceived myId userId userFullInfo =>
      rw [step, handle, if_pos h]
      by_cases htaken : m.userFullInfoLoaded = true ∨ m.userId ≠ userId
      · rw [handleUserFullInfo_ignored htaken]
        exact h
      · rw [not_or, Bool.not_eq_true, not_not] at htaken
        rw [handleUserFullInfo_eq htaken.1 htaken.2]
        exact h
  | chatPhotosReceived chatId photos totalCount =>
      rw [step, handle, if_pos h, handleChatPhotosReceived]
      split_ifs
      · rw [foldl_appendPhoto]
        exact h
      · exact h
  | okReceived myId extra =>
      rw [step, handle, if_pos h, handleOkReceived_tdLibWrapper]
      exact h
  | loadMore =>
      rw [step, handle, loadMore]
      split_ifs <;> exact h

theorem Blank.of_eq (h : m.Blank) (userId : Int) : Blank { m with userId := userId } :=
  ⟨h.profilePhotos, h.totalCount, h.currentPhotoId, h.additionalPhotosCount, h.userFullInfoLoaded, h.index⟩

/-- Without the wrapper nothing is received. -/
theorem step_blank (h : m.Blank) (hwrapper : m.tdLibWrapper = false) (e : Event) :
    (m.step e).tdLibWrapper = true ∨ (m.step e).Blank := by
  have hnot : ¬ m.tdLibWrapper = true := by rw [hwrapper]; exact Bool.false_ne_true
  cases e with
  | setTDLibWrapper =>
      left
      rw [step, handle, setTDLibWrapper, if_neg hnot, setup_tdLibWrapper]
  | setUserId userId =>
      right
      have hkept : m.setUserId userId = _ := setUserId_of_kept (.inr h.profilePhotos) fun hset => absurd hset hnot
      rw [step, handle, hkept]
      exact h.of_eq userId
  | userFullInfoReceived myId userId userFullInfo =>
      right
      rw [step, handle, if_neg hnot]
      exact h
  | chatPhotosReceived chatId photos totalCount =>
      right
      rw [step, handle, if_neg hnot]
      exact h
  | okReceived myId extra =>
      right
      rw [step, handle, if_neg hnot]
      exact h
  | loadMore =>
      right
      rw [step, handle, loadMore, if_neg fun hset => hnot hset.1]
      exact h

theorem wrapper_or_blank (es : List Event) : (run step new es).tdLibWrapper = true ∨ (run step new es).Blank := by
  refine Along.invariant (I := fun s => s.tdLibWrapper = true ∨ s.Blank) (fun s e hs _ => ?_) (.inr ?_)
    (along_true new es)
  · by_cases hset : s.tdLibWrapper = true
    · exact .inl (step_tdLibWrapper hset e)
    · exact step_blank (hs.resolve_left hset) (Bool.not_eq_true _ ▸ hset) e
  · exact ⟨rfl, rfl, rfl, rfl, rfl, fun _ _ _ => rfl⟩

theorem SwitchesAfresh.forgetsFor (hreached : m.tdLibWrapper = true ∨ m.Blank) (h : m.SwitchesAfresh userId) :
    m.ForgetsFor userId := by
  have hfresh := m.setUserId_freshFor userId
  have hother : m.tdLibWrapper = true → userId ≠ 0 → m.userId ≠ userId := by
    intro hwrapper huser hsame
    have hrequests := (h [] (by simp)).2
    have hcons : ∀ s : UserProfilePicturesModel, emitted handle s [.setUserId userId] =
        (s.setUserId userId).2 ++ [] := fun _ => rfl
    rw [hcons, hcons, setUserId_same hsame, hfresh, if_pos ⟨hwrapper, huser⟩] at hrequests
    cases hrequests
  refine ⟨hother, ?_⟩
  by_cases hrows : m.tdLibWrapper = true ∧ userId ≠ 0 ∧ m.profilePhotos ≠ []
  · exact .inr hrows
  · left
    rcases hreached with hwrapper | hblank
    swap
    · exact hblank
    have hkept : ¬ (m.tdLibWrapper = true ∧ userId ≠ 0) ∨ m.profilePhotos = [] := by
      by_cases huser : userId = 0
      · exact .inl fun hset => hset.2 huser
      · exact .inr (by_contra fun hne => hrows ⟨hwrapper, huser, hne⟩)
    have hset := setUserId_of_kept hkept hother
    have hcontinued := (switchesAfresh_iff (by rw [hset, hfresh])).mp h
    rw [hset, hfresh] at hcontinued
    have hblank := blank_of_indistinguishable (m := { m with userId := userId }) hwrapper rfl hcontinued
    exact hblank.of_eq m.userId

/-- **Switching the user.** After any history, a model that is given a user goes on as a new one does exactly if
another user is set and the model is blank or has rows to drop. -/
theorem switchesAfresh_run_iff (es : List Event) (userId : Int) :
    (run step new es).SwitchesAfresh userId ↔ (run step new es).ForgetsFor userId :=
  ⟨SwitchesAfresh.forgetsFor (wrapper_or_blank es), ForgetsFor.switchesAfresh⟩

/-- A user without photos, whose full info leaves its flag. -/
def withoutPhotos : List Event := [.setTDLibWrapper, .setUserId 5, .userFullInfoReceived 1 5 []]

theorem not_switchesAfresh_withoutPhotos : ¬ (run step new withoutPhotos).SwitchesAfresh 6 := by
  intro h
  have hrequests := (h [.userFullInfoReceived 1 6 []] (by simp [RepliesFor])).2
  revert hrequests
  decide

end UserProfilePicturesModel

end YaqtLib
