import Mathlib.Algebra.Ring.Int.Defs
import YaqtLib.ChatData

/-! What a chat shows of the actions in it (`utilities.cpp`): the action that all senders take, and the progress of
their uploads. The actions come in the order in which a hash is walked, so every order is looked at. -/

namespace YaqtLib

open Account

namespace Account

namespace ChatAction

/-- An action without a value, `ChatAction()`. -/
def none : ChatAction := { type := .cancel, progressOrEmoji := .invalid }

/-- `operator==` -/
def eq (action other : ChatAction) : Bool :=
  action.type = other.type && (action.type ≠ .watchingAnimations || action.progressOrEmoji = other.progressOrEmoji)

def isInvalid (action : ChatAction) : Bool := action.type = .cancel

def progress (action : ChatAction) : Int :=
  match action.progressOrEmoji with
  | .longLong n => n
  | _ => -1

end ChatAction

end Account

namespace Utilities

/-- The loop of `getMainChatAction` over the actions that are left. -/
def mainActionOf (mainAction : ChatAction) : List ChatAction → ChatAction
  | [] => mainAction
  | action :: chatActions =>
      if mainAction.isInvalid then mainActionOf action chatActions
      else if mainAction.eq action then mainActionOf mainAction chatActions
      else .none

def getMainChatAction (isUser : Bool) (chatActions : List ChatAction) : ChatAction :=
  match chatActions with
  | [] => .none
  | first :: _ => if isUser then first else mainActionOf .none chatActions

def totalProgress (chatActions : List ChatAction) : Int := (chatActions.map ChatAction.progress).sum

/-- A chat has far less senders than an `int` can add up the progress of. -/
def getChatActionsProgress (isUser : Bool) (chatActions : List ChatAction) : Rat :=
  match chatActions with
  | [] => -1
  | first :: _ =>
      if isUser then first.progress
      else if (getMainChatAction isUser chatActions).isInvalid ∨ first.progress < 0 then -1
      else totalProgress chatActions / (chatActions.length * 100 : Nat)

end Utilities

namespace Account

/-! ### Actions as they are stored -/

/-- The actions that have a progress. -/
def ChatActionType.uploads : ChatActionType → Bool
  | .uploadingVideo | .uploadingVoiceNote | .uploadingPhoto | .uploadingDocument | .uploadingVideoNote => true
  | _ => false

namespace ChatAction

/-- An upload has a percentage, any other action none. -/
def Stored (action : ChatAction) : Prop :=
  action.progress ≤ 100 ∧ if action.type.uploads then 0 ≤ action.progress else action.progress = -1

theorem of_stored {action : QVariantMap} (hlower : 0 ≤ (action.value "progress").toInt)
    (hupper : (action.value "progress").toInt ≤ 100) : (ChatAction.of action).Stored := by
  unfold Stored progress ChatAction.of
  cases getChatActionType (action.value TdConst.TYPE_).toStr <;> simp [ChatActionType.uploads, hlower, hupper]

variable {a b c : ChatAction}

theorem Stored.progress_nonneg_iff (h : a.Stored) : 0 ≤ a.progress ↔ a.type.uploads = true := by
  have huploads := h.2
  split_ifs at huploads with hu
  · exact iff_of_true huploads hu
  · refine iff_of_false ?_ hu
    omega

theorem Stored.progress_of_neg (h : a.Stored) (hneg : a.progress < 0) : a.progress = -1 := by
  have huploads := h.2
  split_ifs at huploads
  · omega
  · exact huploads

theorem isInvalid_iff : a.isInvalid = true ↔ a.type = .cancel := by simp [isInvalid]

/-- What is not known has no progress. -/
theorem Stored.valid_of_progress (h : a.Stored) (hnonneg : 0 ≤ a.progress) : a.isInvalid = false := by
  have huploads := h.progress_nonneg_iff.mp hnonneg
  rw [Bool.eq_false_iff, ne_eq, isInvalid_iff]
  intro hcancel
  rw [hcancel] at huploads
  cases huploads

theorem eq_iff :
    a.eq b = true ↔ a.type = b.type ∧ (a.type = .watchingAnimations → a.progressOrEmoji = b.progressOrEmoji) := by
  simp [eq, or_iff_not_imp_left]

theorem eq_self (a : ChatAction) : a.eq a = true := eq_iff.mpr ⟨rfl, fun _ => rfl⟩

theorem eq_symm (h : a.eq b = true) : b.eq a = true := by
  obtain ⟨htype, hemoji⟩ := eq_iff.mp h
  exact eq_iff.mpr ⟨htype.symm, fun hb => (hemoji (htype.trans hb)).symm⟩

theorem eq_trans (hab : a.eq b = true) (hbc : b.eq c = true) : a.eq c = true := by
  obtain ⟨htype, hemoji⟩ := eq_iff.mp hab
  obtain ⟨htype', hemoji'⟩ := eq_iff.mp hbc
  exact eq_iff.mpr ⟨htype.trans htype', fun ha => (hemoji ha).trans (hemoji' (htype ▸ ha))⟩

theorem isInvalid_of_eq (h : a.eq b = true) : b.isInvalid = a.isInvalid := by
  rw [isInvalid, isInvalid, (eq_iff.mp h).1]

end ChatAction

end Account

namespace Utilities

open ChatAction

/-! ### The main action of a group -/

variable {main : ChatAction} {actions : List ChatAction}

theorem mainActionOf_of_valid (hmain : main.isInvalid = false) (actions : List ChatAction) :
    mainActionOf main actions = if ∀ action ∈ actions, main.eq action = true then main else .none := by
  induction actions with
  | nil => simp [mainActionOf]
  | cons action actions ih =>
      rw [mainActionOf, hmain, if_neg Bool.false_ne_true]
      by_cases haction : main.eq action = true
      · simp [haction, ih]
      · simp [haction]

/-- As long as nothing is known, the next action is taken. -/
theorem mainActionOf_unknown_append {unknown : List ChatAction} (hunknown : ∀ action ∈ unknown, action.isInvalid = true)
    (hmain : main.isInvalid = true) {first : ChatAction} (rest : List ChatAction) :
    mainActionOf main (unknown ++ first :: rest) = mainActionOf first rest := by
  induction unknown generalizing main with
  | nil => rw [List.nil_append, mainActionOf, if_pos hmain]
  | cons action unknown ih =>
      rw [List.cons_append, mainActionOf, if_pos hmain]
      exact ih (fun a ha => hunknown a (List.mem_cons_of_mem _ ha)) (hunknown action List.mem_cons_self)

/-- Every known action equals the main action if there is one. -/
theorem eq_mainActionOf (hmain : (mainActionOf main actions).isInvalid = false) :
    ∀ action ∈ main :: actions, action.isInvalid = false → action.eq (mainActionOf main actions) = true := by
  induction actions generalizing main with
  | nil =>
      intro action haction _
      rw [List.mem_singleton.mp haction]
      exact eq_self main
  | cons next actions ih =>
      intro action haction hvalid
      by_cases hinvalid : main.isInvalid = true
      · rw [mainActionOf, if_pos hinvalid] at hmain ⊢
        rcases List.mem_cons.mp haction with rfl | hrest
        · rw [hvalid] at hinvalid
          cases hinvalid
        · exact ih hmain action hrest hvalid
      · rw [Bool.not_eq_true] at hinvalid
        rw [mainActionOf_of_valid hinvalid] at hmain ⊢
        split_ifs at hmain ⊢ with hall
        · rcases List.mem_cons.mp haction with rfl | hrest
          · exact eq_self _
          · exact eq_symm (hall action hrest)
        · cases hmain

/-- The main action is one of the actions unless it says nothing. -/
theorem mainActionOf_mem (hmain : (mainActionOf main actions).isInvalid = false) :
    mainActionOf main actions ∈ main :: actions := by
  induction actions generalizing main with
  | nil => exact List.mem_singleton_self main
  | cons next actions ih =>
      by_cases hinvalid : main.isInvalid = true
      · rw [mainActionOf, if_pos hinvalid] at hmain ⊢
        exact List.mem_cons_of_mem _ (ih hmain)
      · rw [Bool.not_eq_true] at hinvalid
        rw [mainActionOf_of_valid hinvalid] at hmain ⊢
        split_ifs at hmain ⊢
        · exact List.mem_cons_self
        · cases hmain

theorem getMainChatAction_group (actions : List ChatAction) :
    getMainChatAction false actions = mainActionOf .none actions := by
  cases actions <;> rfl

end Utilities

end YaqtLib
