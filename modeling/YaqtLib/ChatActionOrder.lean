import Mathlib.Algebra.BigOperators.Group.List.Basic
import Mathlib.Algebra.Order.BigOperators.Group.List
import Mathlib.Algebra.Order.Field.Rat
import Mathlib.Tactic.Linarith
import YaqtLib.ChatActions

/-! When the order of a chat's actions does not show in their summary (`utilities.cpp`). -/

namespace YaqtLib

namespace Utilities

open Account ChatAction

/-- The summary of the actions: in every order of them the main action has the same type and the progress is the
same, the progress is a fraction or `-1`, and for one action it does not depend on the kind of the chat. -/
structure Summarised (isUser : Bool) (actions : List ChatAction) : Prop where
  mainType : ∀ order, actions.Perm order →
    (getMainChatAction isUser order).type = (getMainChatAction isUser actions).type
  progress : ∀ order, actions.Perm order →
    getChatActionsProgress isUser order = getChatActionsProgress isUser actions
  range : getChatActionsProgress isUser actions = -1 ∨
    0 ≤ getChatActionsProgress isUser actions ∧ getChatActionsProgress isUser actions ≤ 1
  single : actions.length = 1 → getChatActionsProgress true actions = getChatActionsProgress false actions

/-- Actions of which some are unknown and the others are all the same: in front, the unknown ones are passed over. -/
def MixedWithUnknown (actions : List ChatAction) : Prop :=
  (∃ a ∈ actions, a.isInvalid = true) ∧ (∃ a ∈ actions, a.isInvalid = false) ∧
    ∀ a ∈ actions, ∀ b ∈ actions, a.isInvalid = false → b.isInvalid = false → a.eq b = true

/-- The actions of a private chat look alike, and no upload of them has got further than one percent. -/
def AlikeAndUnstarted (actions : List ChatAction) : Prop :=
  ∀ a ∈ actions, ∀ b ∈ actions, a.type = b.type ∧ a.progress = b.progress ∧ a.progress ≤ 1

/-- A single action has not got further than nothing. -/
def SingleUnstarted (actions : List ChatAction) : Prop := ∀ a, actions = [a] → a.progress ≤ 0

variable {actions order : List ChatAction} {a : ChatAction}

/-! ### The main action -/

theorem mainType_of_invalid {action : ChatAction} (h : ¬ action.isInvalid = false) : action.type = .cancel := by
  rw [Bool.not_eq_false] at h
  exact isInvalid_iff.mp h

/-- A main action that there is, with nothing unknown beside it, is one in every order. -/
theorem mainType_of_known (hknown : ∀ a ∈ actions, a.isInvalid = false)
    (hmain : (getMainChatAction false actions).isInvalid = false) (hperm : actions.Perm order) :
    (getMainChatAction false order).type = (getMainChatAction false actions).type := by
  have halike : ∀ a ∈ actions, a.eq (getMainChatAction false actions) = true := by
    intro a ha
    rw [getMainChatAction_group] at hmain ⊢
    exact eq_mainActionOf hmain a (List.mem_cons_of_mem _ ha) (hknown a ha)
  cases order with
  | nil =>
      rw [hperm.eq_nil]
  | cons first rest =>
      have hmem : ∀ a ∈ first :: rest, a ∈ actions := fun a ha => hperm.mem_iff.mpr ha
      have hfirst := hmem first List.mem_cons_self
      have hmain' : getMainChatAction false (first :: rest) = mainActionOf first rest := rfl
      have hall : ∀ action ∈ rest, first.eq action = true := fun action haction =>
        eq_trans (halike first hfirst) (eq_symm (halike action (hmem action (List.mem_cons_of_mem _ haction))))
      rw [hmain', mainActionOf_of_valid (hknown first hfirst), if_pos hall]
      exact (eq_iff.mp (halike first hfirst)).1

/-- Beside a main action there is nothing unknown unless the unknown ones are mixed in. -/
theorem known_of_main (hmixed : ¬ MixedWithUnknown actions)
    (hmain : (getMainChatAction false actions).isInvalid = false) : ∀ a ∈ actions, a.isInvalid = false := by
  rw [getMainChatAction_group] at hmain
  by_contra! hunknown
  obtain ⟨u, hu, hunknown⟩ := hunknown
  refine hmixed ⟨⟨u, hu, by simpa using hunknown⟩, ⟨_, ?_, hmain⟩, ?_⟩
  · refine (List.mem_cons.mp (mainActionOf_mem hmain)).resolve_left fun hnone => ?_
    rw [hnone] at hmain
    cases hmain
  · intro a ha b hb hvalid hvalid'
    exact eq_trans (eq_mainActionOf hmain a (List.mem_cons_of_mem _ ha) hvalid)
      (eq_symm (eq_mainActionOf hmain b (List.mem_cons_of_mem _ hb) hvalid'))

theorem MixedWithUnknown.perm (h : MixedWithUnknown actions) (hperm : actions.Perm order) : MixedWithUnknown order := by
  obtain ⟨⟨u, hu, hunknown⟩, ⟨v, hv, hvalid⟩, hall⟩ := h
  exact ⟨⟨u, hperm.mem_iff.mp hu, hunknown⟩, ⟨v, hperm.mem_iff.mp hv, hvalid⟩,
    fun a ha b hb => hall a (hperm.mem_iff.mpr ha) b (hperm.mem_iff.mpr hb)⟩

/-- The unknown ones first, the known action shows; the known ones first, nothing does. -/
theorem MixedWithUnknown.orders_differ (h : MixedWithUnknown actions) :
    ∃ order order', actions.Perm order ∧ actions.Perm order' ∧
      (getMainChatAction false order).type ≠ (getMainChatAction false order').type := by
  obtain ⟨⟨u, hu, hunknown⟩, ⟨v, hv, hvalid⟩, hall⟩ := h
  obtain ⟨first, rest, hknown⟩ : ∃ first rest, actions.filter (fun a => !a.isInvalid) = first :: rest := by
    refine List.exists_cons_of_ne_nil (List.ne_nil_of_mem (a := v) ?_)
    simp [hv, hvalid]
  have hmem : ∀ a ∈ first :: rest, a ∈ actions ∧ a.isInvalid = false := by
    intro a ha
    rw [← hknown] at ha
    simpa using ha
  have hfirst := hmem first List.mem_cons_self
  have hperm : actions.Perm (actions.filter ChatAction.isInvalid ++ first :: rest) := by
    rw [← hknown]
    exact (List.filter_append_perm ChatAction.isInvalid actions).symm
  refine ⟨_, _, hperm, hperm.trans List.perm_append_comm, ?_⟩
  have hshown : getMainChatAction false (actions.filter ChatAction.isInvalid ++ first :: rest) = first := by
    rw [getMainChatAction_group, mainActionOf_unknown_append (fun a ha => (List.mem_filter.mp ha).2) rfl,
      mainActionOf_of_valid hfirst.2, if_pos]
    intro action haction
    have haction := hmem action (List.mem_cons_of_mem _ haction)
    exact hall first hfirst.1 action haction.1 hfirst.2 haction.2
  have hhidden : getMainChatAction false (first :: rest ++ actions.filter ChatAction.isInvalid) = ChatAction.none := by
    have hmain : getMainChatAction false (first :: rest ++ actions.filter ChatAction.isInvalid) =
        mainActionOf first (rest ++ actions.filter ChatAction.isInvalid) := rfl
    rw [hmain, mainActionOf_of_valid hfirst.2, if_neg]
    intro hall'
    have hu' := hall' u (List.mem_append_right _ (List.mem_filter.mpr ⟨hu, hunknown⟩))
    rw [isInvalid_of_eq hu', hfirst.2] at hunknown
    cases hunknown
  rw [hshown, hhidden]
  intro hcancel
  have hinvalid := isInvalid_iff.mpr hcancel
  rw [hfirst.2] at hinvalid
  cases hinvalid

theorem mainType_group_iff : (∀ order, actions.Perm order →
    (getMainChatAction false order).type = (getMainChatAction false actions).type) ↔ ¬ MixedWithUnknown actions := by
  constructor
  · intro hsame hmixed
    obtain ⟨order, order', horder, horder', hdiffer⟩ := hmixed.orders_differ
    exact hdiffer ((hsame order horder).trans (hsame order' horder').symm)
  · intro hmixed order hperm
    have hmixed' : ¬ MixedWithUnknown order := fun h => hmixed (h.perm hperm.symm)
    by_cases hmain : (getMainChatAction false actions).isInvalid = false
    · exact mainType_of_known (known_of_main hmixed hmain) hmain hperm
    · by_cases hmain' : (getMainChatAction false order).isInvalid = false
      · exact (mainType_of_known (known_of_main hmixed' hmain') hmain' hperm.symm).symm
      · rw [mainType_of_invalid hmain, mainType_of_invalid hmain']

/-! ### The progress of a group -/

/-- All upload the same. -/
def UploadingTogether (actions : List ChatAction) : Prop :=
  actions ≠ [] ∧ ∀ a ∈ actions, 0 ≤ a.progress ∧ ∀ b ∈ actions, a.eq b = true

theorem UploadingTogether.perm (h : UploadingTogether actions) (hperm : actions.Perm order) :
    UploadingTogether order := by
  refine ⟨fun hnil => h.1 (hnil ▸ hperm).eq_nil, fun a ha => ?_⟩
  obtain ⟨hprogress, heq⟩ := h.2 a (hperm.mem_iff.mpr ha)
  exact ⟨hprogress, fun b hb => heq b (hperm.mem_iff.mpr hb)⟩

theorem progress_of_uploadingTogether (hstored : ∀ a ∈ actions, a.Stored) (h : UploadingTogether actions) :
    getChatActionsProgress false actions = totalProgress actions / (actions.length * 100 : Nat) := by
  obtain ⟨hne, hall⟩ := h
  cases actions with
  | nil => exact absurd rfl hne
  | cons first rest =>
      have hfirst := hall first List.mem_cons_self
      have hvalid := (hstored first List.mem_cons_self).valid_of_progress hfirst.1
      have hmain : getMainChatAction false (first :: rest) = first := by
        have hloop : getMainChatAction false (first :: rest) = mainActionOf first rest := rfl
        rw [hloop, mainActionOf_of_valid hvalid, if_pos]
        exact fun action haction => hfirst.2 action (List.mem_cons_of_mem _ haction)
      rw [getChatActionsProgress, if_neg Bool.false_ne_true, hmain, if_neg]
      rw [hvalid]
      rintro (hinvalid | hneg)
      · cases hinvalid
      · omega

theorem progress_of_not_uploadingTogether (hstored : ∀ a ∈ actions, a.Stored) (h : ¬ UploadingTogether actions) :
    getChatActionsProgress false actions = -1 := by
  cases actions with
  | nil => rfl
  | cons first rest =>
      rw [getChatActionsProgress, if_neg Bool.false_ne_true, if_pos]
      by_contra! hshown
      obtain ⟨hmain, hprogress⟩ := hshown
      have hvalid := (hstored first List.mem_cons_self).valid_of_progress hprogress
      have hloop : getMainChatAction false (first :: rest) = mainActionOf first rest := rfl
      rw [hloop, mainActionOf_of_valid hvalid] at hmain
      split_ifs at hmain with hall
      · -- one that uploads shows that all do, since they have its type
        have halike : ∀ a ∈ first :: rest, first.eq a = true := by
          intro a ha
          rcases List.mem_cons.mp ha with rfl | ha
          · exact eq_self a
          · exact hall a ha
        refine h ⟨List.cons_ne_nil _ _, fun a ha => ⟨?_, fun b hb => ?_⟩⟩
        · rw [(hstored a ha).progress_nonneg_iff, ← (eq_iff.mp (halike a ha)).1]
          exact (hstored first List.mem_cons_self).progress_nonneg_iff.mp hprogress
        · exact eq_trans (eq_symm (halike a ha)) (halike b hb)
      · exact hmain rfl

theorem totalProgress_perm (hperm : actions.Perm order) : totalProgress order = totalProgress actions :=
  (hperm.symm.map ChatAction.progress).sum_eq

theorem progress_group_perm (hstored : ∀ a ∈ actions, a.Stored) (hperm : actions.Perm order) :
    getChatActionsProgress false order = getChatActionsProgress false actions := by
  have hstored' : ∀ a ∈ order, a.Stored := fun a ha => hstored a (hperm.mem_iff.mpr ha)
  by_cases h : UploadingTogether actions
  · rw [progress_of_uploadingTogether hstored h, progress_of_uploadingTogether hstored' (h.perm hperm),
      totalProgress_perm hperm, hperm.length_eq]
  · rw [progress_of_not_uploadingTogether hstored h,
      progress_of_not_uploadingTogether hstored' fun h' => h (h'.perm hperm.symm)]

theorem totalProgress_nonneg (h : ∀ a ∈ actions, 0 ≤ a.progress) : 0 ≤ totalProgress actions :=
  List.sum_nonneg fun progress hprogress => by
    obtain ⟨a, ha, rfl⟩ := List.mem_map.mp hprogress
    exact h a ha

theorem totalProgress_le (h : ∀ a ∈ actions, a.progress ≤ 100) :
    totalProgress actions ≤ (actions.length * 100 : Nat) := by
  induction actions with
  | nil => exact le_rfl
  | cons a actions ih =>
      have hrest := ih fun b hb => h b (List.mem_cons_of_mem _ hb)
      have ha := h a List.mem_cons_self
      rw [totalProgress, List.map_cons, List.sum_cons, ← totalProgress, List.length_cons]
      push_cast at hrest ⊢
      linarith

theorem progress_group_range (hstored : ∀ a ∈ actions, a.Stored) : getChatActionsProgress false actions = -1 ∨
    0 ≤ getChatActionsProgress false actions ∧ getChatActionsProgress false actions ≤ 1 := by
  by_cases h : UploadingTogether actions
  · right
    rw [progress_of_uploadingTogether hstored h]
    have hlower : (0 : Rat) ≤ totalProgress actions := by
      exact_mod_cast totalProgress_nonneg fun a ha => (h.2 a ha).1
    have hupper : (totalProgress actions : Rat) ≤ (actions.length * 100 : Nat) := by
      exact_mod_cast totalProgress_le fun a ha => (hstored a ha).1
    exact ⟨div_nonneg hlower (Nat.cast_nonneg _), div_le_one_of_le₀ hupper (Nat.cast_nonneg _)⟩
  · exact .inl (progress_of_not_uploadingTogether hstored h)

/-! ### The progress of a private chat and of one action -/

theorem progress_single (a : ChatAction) (hstored : a.Stored) :
    getChatActionsProgress true [a] = getChatActionsProgress false [a] ↔ a.progress ≤ 0 := by
  have huser : getChatActionsProgress true [a] = a.progress := rfl
  have hstored' : ∀ b ∈ [a], b.Stored := by simpa using hstored
  rw [huser]
  by_cases h : 0 ≤ a.progress
  · have htogether : UploadingTogether [a] := ⟨List.cons_ne_nil _ _, by simp [h, ChatAction.eq_self]⟩
    rw [progress_of_uploadingTogether hstored' htogether]
    have htotal : totalProgress [a] = a.progress := by simp [totalProgress]
    rw [htotal, List.length_singleton, eq_div_iff (by norm_num)]
    constructor
    · intro heq
      have heq' : a.progress * 100 = a.progress := by exact_mod_cast heq
      omega
    · intro hle
      have hzero : a.progress = 0 := by omega
      simp [hzero]
  · rw [progress_of_not_uploadingTogether hstored' fun htogether => h (htogether.2 a List.mem_cons_self).1,
      hstored.progress_of_neg (by omega)]
    simp

theorem single_iff (hstored : ∀ a ∈ actions, a.Stored) :
    (actions.length = 1 → getChatActionsProgress true actions = getChatActionsProgress false actions) ↔
      SingleUnstarted actions := by
  constructor
  · rintro h a rfl
    exact (progress_single a (hstored a List.mem_cons_self)).mp (h rfl)
  · intro h hlength
    obtain ⟨a, rfl⟩ := List.length_eq_one_iff.mp hlength
    exact (progress_single a (hstored a List.mem_cons_self)).mpr (h a rfl)

/-- Every action can come first. -/
theorem exists_perm_cons (ha : a ∈ actions) : ∃ rest, actions.Perm (a :: rest) := by
  obtain ⟨before, after, rfl⟩ := List.append_of_mem ha
  exact ⟨before ++ after, List.perm_middle⟩

theorem progress_first (first : ChatAction) (rest : List ChatAction) :
    getChatActionsProgress true (first :: rest) = first.progress := rfl

theorem AlikeAndUnstarted.summarised (hstored : ∀ a ∈ actions, a.Stored) (h : AlikeAndUnstarted actions)
    (hsingle : SingleUnstarted actions) : Summarised true actions := by
  cases actions with
  | nil =>
      have hnil : ∀ order : List ChatAction, ([] : List ChatAction).Perm order → order = [] :=
        fun order hperm => hperm.symm.eq_nil
      exact ⟨fun order hperm => by rw [hnil order hperm], fun order hperm => by rw [hnil order hperm], .inl rfl,
        (single_iff hstored).mpr hsingle⟩
  | cons first rest =>
      have hfirst := h first List.mem_cons_self
      have horder : ∀ order, (first :: rest).Perm order → ∃ first' rest', order = first' :: rest' ∧
          first.type = first'.type ∧ first.progress = first'.progress := by
        intro order hperm
        cases order with
        | nil => cases hperm.eq_nil
        | cons first' rest' =>
            have hfirst' := hfirst first' (hperm.mem_iff.mpr List.mem_cons_self)
            exact ⟨first', rest', rfl, hfirst'.1, hfirst'.2.1⟩
      refine ⟨fun order hperm => ?_, fun order hperm => ?_, ?_, (single_iff hstored).mpr hsingle⟩
      · obtain ⟨first', rest', rfl, htype, -⟩ := horder order hperm
        exact htype.symm
      · obtain ⟨first', rest', rfl, -, hprogress⟩ := horder order hperm
        rw [progress_first, progress_first, hprogress]
      · rw [progress_first]
        have hupper : first.progress ≤ 1 := (hfirst first List.mem_cons_self).2.2
        by_cases hnonneg : 0 ≤ first.progress
        · exact .inr ⟨by exact_mod_cast hnonneg, by exact_mod_cast hupper⟩
        · rw [(hstored first List.mem_cons_self).progress_of_neg (by omega)]
          exact .inl (by norm_num)

theorem Summarised.alikeAndUnstarted (h : Summarised true actions) : AlikeAndUnstarted actions := by
  have hfirst : ∀ a ∈ actions, a.type = (getMainChatAction true actions).type ∧
      (a.progress : Rat) = getChatActionsProgress true actions := by
    intro a ha
    obtain ⟨rest, hperm⟩ := exists_perm_cons ha
    exact ⟨h.mainType _ hperm, h.progress _ hperm⟩
  intro a ha b hb
  have heq : (a.progress : Rat) = b.progress := (hfirst a ha).2.trans (hfirst b hb).2.symm
  refine ⟨(hfirst a ha).1.trans (hfirst b hb).1.symm, by exact_mod_cast heq, ?_⟩
  rcases h.range with hrange | hrange
  · rw [← (hfirst a ha).2] at hrange
    have hneg : a.progress = -1 := by exact_mod_cast hrange
    omega
  · rw [← (hfirst a ha).2] at hrange
    exact_mod_cast hrange.2

/-! ### The summary -/

/-- In a private chat the actions are alike and no upload has begun; in a group nothing unknown is mixed in; and an
upload that is the only action has not begun. -/
def Summarisable (isUser : Bool) (actions : List ChatAction) : Prop :=
  SingleUnstarted actions ∧ if isUser then AlikeAndUnstarted actions else ¬ MixedWithUnknown actions

theorem summarised_iff (isUser : Bool) (hstored : ∀ a ∈ actions, a.Stored) :
    Summarised isUser actions ↔ Summarisable isUser actions := by
  cases isUser with
  | true =>
      exact ⟨fun h => ⟨(single_iff hstored).mp h.single, h.alikeAndUnstarted⟩, fun h => h.2.summarised hstored h.1⟩
  | false =>
      constructor
      · intro h
        exact ⟨(single_iff hstored).mp h.single, mainType_group_iff.mp h.mainType⟩
      · rintro ⟨hsingle, hmixed⟩
        exact ⟨mainType_group_iff.mpr hmixed, fun _ => progress_group_perm hstored, progress_group_range hstored,
          (single_iff hstored).mpr hsingle⟩

end Utilities

end YaqtLib
