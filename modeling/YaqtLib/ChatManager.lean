import YaqtLib.Runs
import Mathlib.Data.List.Perm.Basic
import Mathlib.Data.List.Count

/-! The chat page's manager: it opens its chat once TDLib's wrapper and the chat id are known, and closes it when it
is destroyed. -/

namespace YaqtLib

open Runs

/-- What the manager reads of its chat in TDLib's data; only what is known of a chat that is set. -/
structure ChatReads where
  isBot : Bool
  viewAsTopics : Bool
  lastReadInboxMessageId : Int

inductive ChatRequest where
  | openChat (chatId : Int)
  | closeChat (chatId : Int)
  | getChatSponsoredMessages (chatId : Int)
  | getChatHistory (chatId fromMessageId : Int)
  deriving DecidableEq

/-- A request, and the wrapper it is made through, if that is not a null pointer. -/
structure ChatRequestSent (W : Type) where
  wrapper : Option W
  request : ChatRequest

/-- `W` is what the wrappers are, `ChatManager` has a pointer to one or none; of the models it has the chat they were
made for. -/
structure ChatManager (W : Type) where
  tdLibWrapper : Option W
  chatId : Int
  mainModelsInitializationScheduled : Bool
  mainModelsInitializationScheduledFromMessageId : Int
  chatMessagesModel : Option Int
  topicsModel : Option Int

namespace ChatManager

variable {W : Type} [DecidableEq W]

def new : ChatManager W :=
  { tdLibWrapper := none, chatId := 0, mainModelsInitializationScheduled := false,
    mainModelsInitializationScheduledFromMessageId := 0, chatMessagesModel := none, topicsModel := none }

def reset (m : ChatManager W) (resetChatId : Bool) : ChatManager W :=
  { m with
    chatMessagesModel := none
    topicsModel := none
    chatId := if resetChatId then 0 else m.chatId
    mainModelsInitializationScheduled := false
    mainModelsInitializationScheduledFromMessageId := 0 }

/-- `getChatData` finds no data without a chat id and a wrapper. -/
def hasChatData (m : ChatManager W) : Bool := m.chatId ≠ 0 && m.tdLibWrapper.isSome

def isBot (m : ChatManager W) (data : ChatReads) : Bool := m.hasChatData && data.isBot

def viewAsTopics (m : ChatManager W) (data : ChatReads) : Bool := m.hasChatData && data.viewAsTopics

def initializeMainModels (m : ChatManager W) (data : ChatReads) (fromMessageId : Int) :
    ChatManager W × List (ChatRequestSent W) :=
  if m.tdLibWrapper.isNone then
    ({ m with
        mainModelsInitializationScheduled := true
        mainModelsInitializationScheduledFromMessageId := fromMessageId }, [])
  else
    let m := m.reset false
    if m.viewAsTopics data then ({ m with topicsModel := some m.chatId }, [])
    else
      ({ m with chatMessagesModel := some m.chatId },
        [⟨m.tdLibWrapper, .getChatHistory m.chatId
          (if fromMessageId ≠ 0 then fromMessageId else data.lastReadInboxMessageId)⟩])

def tryReinitializeMainModels (m : ChatManager W) (data : ChatReads) : ChatManager W × List (ChatRequestSent W) :=
  if m.chatMessagesModel.isSome || m.topicsModel.isSome then m.initializeMainModels data 0 else (m, [])

def finishInitialization (m : ChatManager W) (data : ChatReads) : ChatManager W × List (ChatRequestSent W) :=
  let sponsored : List (ChatRequestSent W) :=
    if m.isBot data then [⟨m.tdLibWrapper, .getChatSponsoredMessages m.chatId⟩] else []
  let (m', sent) := m.tryReinitializeMainModels data
  (m', ⟨m.tdLibWrapper, .openChat m.chatId⟩ :: sponsored ++ sent)

/-- The end of `setTDLibWrapper`, where a scheduled initialization is run. -/
def initializeScheduledModels (m : ChatManager W) (data : ChatReads) : ChatManager W × List (ChatRequestSent W) :=
  if m.mainModelsInitializationScheduled then
    let (m, sent) := m.initializeMainModels data m.mainModelsInitializationScheduledFromMessageId
    ({ m with
        mainModelsInitializationScheduled := false
        mainModelsInitializationScheduledFromMessageId := 0 }, sent)
  else (m, [])

def setTDLibWrapper (m : ChatManager W) (wrapper : Option W) (data : ChatReads) :
    ChatManager W × List (ChatRequestSent W) :=
  if m.tdLibWrapper ≠ wrapper then
    let m := { m with tdLibWrapper := wrapper }
    if wrapper.isSome then
      let (m, sent) := if m.chatId ≠ 0 then m.finishInitialization data else (m, [])
      let (m, sent') := m.initializeScheduledModels data
      (m, sent ++ sent')
    else (m, [])
  else (m, [])

def setChatId (m : ChatManager W) (chatId : Int) (data : ChatReads) : ChatManager W × List (ChatRequestSent W) :=
  if m.chatId = chatId then (m, [])
  else
    let m := { m with chatId := chatId }
    if m.tdLibWrapper.isSome then m.finishInitialization data else (m, [])

/-- `~ChatManager` -/
def destroy (m : ChatManager W) : List (ChatRequestSent W) :=
  if m.chatId ≠ 0 then [⟨m.tdLibWrapper, .closeChat m.chatId⟩] else []

/-- What is done with a manager, and what it reads of its chat then. -/
inductive Event (W : Type) where
  | setTDLibWrapper (wrapper : Option W) (data : ChatReads)
  | setChatId (chatId : Int) (data : ChatReads)
  | reset (resetChatId : Bool)
  | initializeMainModels (data : ChatReads) (fromMessageId : Int)
  | destroy

/-- The manager after an event, unless it is destroyed, and the requests that it makes. -/
def handle (m : ChatManager W) : Event W → Option (ChatManager W) × List (ChatRequestSent W)
  | .setTDLibWrapper wrapper data => (some (m.setTDLibWrapper wrapper data).1, (m.setTDLibWrapper wrapper data).2)
  | .setChatId chatId data => (some (m.setChatId chatId data).1, (m.setChatId chatId data).2)
  | .reset resetChatId => (some (m.reset resetChatId), [])
  | .initializeMainModels data fromMessageId =>
      (some (m.initializeMainModels data fromMessageId).1, (m.initializeMainModels data fromMessageId).2)
  | .destroy => (none, m.destroy)

end ChatManager

/-- The chats that were opened, in the order of the requests. -/
def openedChats {W : Type} (sent : List (ChatRequestSent W)) : List Int :=
  sent.filterMap fun r =>
    match r.request with
    | .openChat chatId => some chatId
    | _ => none

/-- The chats that were closed, in the order of the requests. -/
def closedChats {W : Type} (sent : List (ChatRequestSent W)) : List Int :=
  sent.filterMap fun r =>
    match r.request with
    | .closeChat chatId => some chatId
    | _ => none

/-- A manager, until it is destroyed, with all requests it made. -/
structure ChatSession (W : Type) where
  manager : Option (ChatManager W)
  sent : List (ChatRequestSent W)

namespace ChatSession

open ChatManager (Event)

variable {W : Type} [DecidableEq W]

def new : ChatSession W := { manager := some .new, sent := [] }

def step (s : ChatSession W) (e : Event W) : ChatSession W :=
  match s.manager with
  | none => s
  | some m => { manager := (m.handle e).1, sent := s.sent ++ (m.handle e).2 }

/-- No chat is closed more often than it was opened, no chat is opened that is none, no request is made without a
wrapper, and after the manager is gone every chat was closed as often as opened. -/
structure Balanced (s : ChatSession W) : Prop where
  closed : ∀ chatId, (closedChats s.sent).count chatId ≤ (openedChats s.sent).count chatId
  nonzero : 0 ∉ openedChats s.sent
  wrapper : ∀ r ∈ s.sent, r.wrapper.isSome = true
  matched : s.manager = none → ∀ chatId, (closedChats s.sent).count chatId = (openedChats s.sent).count chatId

end ChatSession

namespace ChatManager

variable {W : Type} [DecidableEq W]

/-- The manager has a wrapper and a chat: its chat is open. -/
def Open (m : ChatManager W) : Prop := m.tdLibWrapper.isSome = true ∧ m.chatId ≠ 0

instance (m : ChatManager W) : Decidable m.Open := inferInstanceAs (Decidable (_ ∧ _))

/-- An open chat and its wrapper stay as they are, and a manager that has a chat when it is destroyed has a wrapper. -/
def Keeps (m : ChatManager W) : Event W → Prop
  | .setTDLibWrapper wrapper _ => m.Open → wrapper = m.tdLibWrapper
  | .setChatId chatId _ => m.Open → chatId = m.chatId
  | .reset resetChatId => m.Open → resetChatId = false
  | .initializeMainModels _ _ => True
  | .destroy => m.chatId ≠ 0 → m.tdLibWrapper.isSome = true

end ChatManager

theorem ChatManager.open_congr {W : Type} {m m' : ChatManager W} (hwrapper : m'.tdLibWrapper = m.tdLibWrapper)
    (hchat : m'.chatId = m.chatId) : m'.Open ↔ m.Open := by
  unfold ChatManager.Open
  rw [hwrapper, hchat]

/-! ### What the functions send -/

section Sent

variable {W : Type}

@[simp] theorem openedChats_nil : openedChats ([] : List (ChatRequestSent W)) = [] := rfl

@[simp] theorem closedChats_nil : closedChats ([] : List (ChatRequestSent W)) = [] := rfl

@[simp] theorem openedChats_append (sent sent' : List (ChatRequestSent W)) :
    openedChats (sent ++ sent') = openedChats sent ++ openedChats sent' :=
  List.filterMap_append

@[simp] theorem closedChats_append (sent sent' : List (ChatRequestSent W)) :
    closedChats (sent ++ sent') = closedChats sent ++ closedChats sent' :=
  List.filterMap_append

/-- Requests that open the given chats, close none, and have a wrapper. -/
structure Opens (sent : List (ChatRequestSent W)) (chats : List Int) : Prop where
  opened : openedChats sent = chats
  closed : closedChats sent = []
  wrapper : ∀ r ∈ sent, r.wrapper.isSome = true

theorem Opens.nil : Opens ([] : List (ChatRequestSent W)) [] := ⟨rfl, rfl, fun _ hr => absurd hr List.not_mem_nil⟩

theorem Opens.append {sent sent' : List (ChatRequestSent W)} {chats chats' : List Int} (h : Opens sent chats)
    (h' : Opens sent' chats') : Opens (sent ++ sent') (chats ++ chats') := by
  refine ⟨by rw [openedChats_append, h.opened, h'.opened], by rw [closedChats_append, h.closed, h'.closed]; rfl, ?_⟩
  intro r hr
  rcases List.mem_append.mp hr with hr | hr
  · exact h.wrapper r hr
  · exact h'.wrapper r hr

end Sent

namespace ChatManager

variable {W : Type}

/-- A function that leaves the wrapper and the chat of the manager, and opens the given chats. -/
structure Sends (m : ChatManager W) (chats : List Int) (r : ChatManager W × List (ChatRequestSent W)) : Prop where
  wrapper : r.1.tdLibWrapper = m.tdLibWrapper
  chatId : r.1.chatId = m.chatId
  opens : Opens r.2 chats

theorem Sends.nil (m : ChatManager W) : m.Sends [] (m, []) := ⟨rfl, rfl, Opens.nil⟩

/-- A request that opens no chat goes through the manager's wrapper. -/
theorem Opens.singleton {m : ChatManager W} (hwrapper : m.tdLibWrapper.isSome = true) {request : ChatRequest}
    {chats : List Int} (hopened : openedChats [(⟨m.tdLibWrapper, request⟩ : ChatRequestSent W)] = chats)
    (hclosed : closedChats [(⟨m.tdLibWrapper, request⟩ : ChatRequestSent W)] = []) :
    Opens [(⟨m.tdLibWrapper, request⟩ : ChatRequestSent W)] chats := by
  refine ⟨hopened, hclosed, fun r hr => ?_⟩
  rw [List.mem_singleton.mp hr]
  exact hwrapper

variable (m : ChatManager W)

theorem sends_initializeMainModels (data : ChatReads) (fromMessageId : Int) :
    m.Sends [] (m.initializeMainModels data fromMessageId) := by
  rw [initializeMainModels]
  by_cases hwrapper : m.tdLibWrapper.isNone = true
  · rw [if_pos hwrapper]
    exact ⟨rfl, rfl, Opens.nil⟩
  · rw [if_neg hwrapper]
    have hsome : m.tdLibWrapper.isSome = true := by
      cases hm : m.tdLibWrapper with
      | none => exact absurd (by rw [hm]; rfl) hwrapper
      | some wrapper => rfl
    dsimp only
    by_cases htopics : (m.reset false).viewAsTopics data = true
    · rw [if_pos htopics]
      exact ⟨rfl, rfl, Opens.nil⟩
    · rw [if_neg htopics]
      exact ⟨rfl, rfl, @Opens.singleton _ m hsome _ _ rfl rfl⟩

theorem sends_tryReinitializeMainModels (data : ChatReads) : m.Sends [] (m.tryReinitializeMainModels data) := by
  rw [tryReinitializeMainModels]
  split_ifs
  · exact m.sends_initializeMainModels data 0
  · exact Sends.nil m

theorem sends_finishInitialization (data : ChatReads) (hwrapper : m.tdLibWrapper.isSome = true) :
    m.Sends [m.chatId] (m.finishInitialization data) := by
  obtain ⟨hsame, hchat, hmodels⟩ := m.sends_tryReinitializeMainModels data
  have hopen : Opens [(⟨m.tdLibWrapper, .openChat m.chatId⟩ : ChatRequestSent W)] [m.chatId] :=
    Opens.singleton hwrapper rfl rfl
  have hsponsored : Opens (if m.isBot data then
      [(⟨m.tdLibWrapper, .getChatSponsoredMessages m.chatId⟩ : ChatRequestSent W)] else []) [] := by
    split_ifs
    · exact Opens.singleton hwrapper rfl rfl
    · exact Opens.nil
  exact ⟨hsame, hchat, (hopen.append hsponsored).append hmodels⟩

theorem sends_initializeScheduledModels (data : ChatReads) : m.Sends [] (m.initializeScheduledModels data) := by
  rw [initializeScheduledModels]
  split_ifs
  · obtain ⟨hsame, hchat, hopens⟩ :=
      m.sends_initializeMainModels data m.mainModelsInitializationScheduledFromMessageId
    exact ⟨hsame, hchat, hopens⟩
  · exact Sends.nil m

theorem sends_setChatId (chatId : Int) (data : ChatReads) :
    ({ m with chatId := chatId } : ChatManager W).Sends
      (if m.chatId ≠ chatId ∧ m.tdLibWrapper.isSome then [chatId] else []) (m.setChatId chatId data) := by
  rw [setChatId]
  by_cases hsame : m.chatId = chatId
  · rw [if_pos hsame, if_neg fun h => h.1 hsame, ← hsame]
    exact Sends.nil m
  · rw [if_neg hsame]
    dsimp only
    by_cases hsome : m.tdLibWrapper.isSome = true
    · rw [if_pos hsome, if_pos ⟨hsame, hsome⟩]
      exact sends_finishInitialization { m with chatId := chatId } data hsome
    · rw [if_neg hsome, if_neg fun h => hsome h.2]
      exact Sends.nil _

variable [DecidableEq W]

theorem sends_setTDLibWrapper (wrapper : Option W) (data : ChatReads) :
    ({ m with tdLibWrapper := wrapper } : ChatManager W).Sends
      (if m.tdLibWrapper ≠ wrapper ∧ wrapper.isSome ∧ m.chatId ≠ 0 then [m.chatId] else [])
      (m.setTDLibWrapper wrapper data) := by
  rw [setTDLibWrapper]
  by_cases hchanged : m.tdLibWrapper ≠ wrapper
  · rw [if_pos hchanged]
    dsimp only
    by_cases hsome : wrapper.isSome = true
    · have hfinish : ({ m with tdLibWrapper := wrapper } : ChatManager W).Sends (if m.chatId ≠ 0 then [m.chatId] else [])
          (if m.chatId ≠ 0 then ({ m with tdLibWrapper := wrapper } : ChatManager W).finishInitialization data
            else ({ m with tdLibWrapper := wrapper }, [])) := by
        split_ifs
        · exact sends_finishInitialization { m with tdLibWrapper := wrapper } data hsome
        · exact Sends.nil _
      have hchats : (if m.tdLibWrapper ≠ wrapper ∧ wrapper.isSome ∧ m.chatId ≠ 0 then [m.chatId] else []) =
          (if m.chatId ≠ 0 then [m.chatId] else []) ++ [] := by
        simp only [hchanged, hsome, ne_eq, not_false_eq_true, true_and, List.append_nil]
      rw [if_pos hsome, hchats]
      obtain ⟨hwrapper, hchat, hopens⟩ := sends_initializeScheduledModels (if m.chatId ≠ 0 then
        ({ m with tdLibWrapper := wrapper } : ChatManager W).finishInitialization data
        else ({ m with tdLibWrapper := wrapper }, [])).1 data
      exact ⟨hwrapper.trans hfinish.wrapper, hchat.trans hfinish.chatId, hfinish.opens.append hopens⟩
    · rw [if_neg hsome, if_neg fun h => hsome h.2.1]
      exact Sends.nil _
  · rw [if_neg hchanged, if_neg fun h => hchanged h.1, ← not_not.mp hchanged]
    exact Sends.nil m

/-- What an event does to a manager that it does not destroy: it opens the chat whenever the manager gets a new wrapper
or chat, unless there is none to open. -/
theorem handle_alive {e : Event W} (he : e ≠ .destroy) : ∃ m', (m.handle e).1 = some m' ∧
    ((m.Keeps e ∧ m'.tdLibWrapper = m.tdLibWrapper ∧ m'.chatId = m.chatId ∧ Opens (m.handle e).2 []) ∨
      ((m.Keeps e ↔ ¬ m.Open) ∧ m'.Open ∧ Opens (m.handle e).2 [m'.chatId]) ∨
      ((m.Keeps e ↔ ¬ m.Open) ∧ ¬ m'.Open ∧ (Opens (m.handle e).2 [] ∨ m.Open ∧ Opens (m.handle e).2 [0]))) := by
  cases e with
  | setTDLibWrapper wrapper data =>
      obtain ⟨hwrapper, hchat, hopens⟩ := m.sends_setTDLibWrapper wrapper data
      change (m.setTDLibWrapper wrapper data).1.tdLibWrapper = wrapper at hwrapper
      change (m.setTDLibWrapper wrapper data).1.chatId = m.chatId at hchat
      refine ⟨_, rfl, ?_⟩
      by_cases hchanged : m.tdLibWrapper = wrapper
      · rw [if_neg fun h => h.1 hchanged] at hopens
        exact Or.inl ⟨fun _ => hchanged.symm, hwrapper.trans hchanged.symm, hchat, hopens⟩
      · have hkeeps : m.Keeps (.setTDLibWrapper wrapper data) ↔ ¬ m.Open :=
          ⟨fun h hopen => hchanged (h hopen).symm, fun h hopen => absurd hopen h⟩
        by_cases hopen : wrapper.isSome = true ∧ m.chatId ≠ 0
        · rw [if_pos ⟨hchanged, hopen⟩, ← hchat] at hopens
          refine Or.inr (Or.inl ⟨hkeeps, ⟨?_, fun h => hopen.2 (hchat.symm.trans h)⟩, hopens⟩)
          rw [hwrapper]
          exact hopen.1
        · rw [if_neg fun h => hopen h.2] at hopens
          refine Or.inr (Or.inr ⟨hkeeps, fun h => hopen ?_, Or.inl hopens⟩)
          exact ⟨hwrapper ▸ h.1, hchat ▸ h.2⟩
  | setChatId chatId data =>
      obtain ⟨hwrapper, hchat, hopens⟩ := m.sends_setChatId chatId data
      change (m.setChatId chatId data).1.tdLibWrapper = m.tdLibWrapper at hwrapper
      change (m.setChatId chatId data).1.chatId = chatId at hchat
      refine ⟨_, rfl, ?_⟩
      by_cases hchanged : m.chatId = chatId
      · rw [if_neg fun h => h.1 hchanged] at hopens
        exact Or.inl ⟨fun _ => hchanged.symm, hwrapper, hchat.trans hchanged.symm, hopens⟩
      · have hkeeps : m.Keeps (.setChatId chatId data) ↔ ¬ m.Open :=
          ⟨fun h hopen => hchanged (h hopen).symm, fun h hopen => absurd hopen h⟩
        by_cases hsome : m.tdLibWrapper.isSome = true
        · rw [if_pos ⟨hchanged, hsome⟩] at hopens
          by_cases hzero : chatId = 0
          · refine Or.inr (Or.inr ⟨hkeeps, fun h => h.2 (hchat.trans hzero), Or.inr ⟨⟨hsome, ?_⟩, hzero ▸ hopens⟩⟩)
            exact fun h => hchanged (h.trans hzero.symm)
          · refine Or.inr (Or.inl ⟨hkeeps, ⟨hwrapper ▸ hsome, fun h => hzero (hchat.symm.trans h)⟩, ?_⟩)
            exact hchat.symm ▸ hopens
        · rw [if_neg fun h => hsome h.2] at hopens
          exact Or.inr (Or.inr ⟨hkeeps, fun h => hsome (hwrapper ▸ h.1), Or.inl hopens⟩)
  | reset resetChatId =>
      refine ⟨_, rfl, ?_⟩
      cases resetChatId with
      | false => exact Or.inl ⟨fun _ => rfl, rfl, rfl, Opens.nil⟩
      | true =>
          refine Or.inr (Or.inr ⟨⟨fun h hopen => ?_, fun h hopen => absurd hopen h⟩, fun h => h.2 rfl,
            Or.inl Opens.nil⟩)
          exact absurd (h hopen) (by decide)
  | initializeMainModels data fromMessageId =>
      obtain ⟨hwrapper, hchat, hopens⟩ := m.sends_initializeMainModels data fromMessageId
      exact ⟨_, rfl, Or.inl ⟨trivial, hwrapper, hchat, hopens⟩⟩
  | destroy => exact absurd rfl he

end ChatManager

namespace ChatSession

open ChatManager (Event)

variable {W : Type}

/-- What every step keeps: a manager has closed no chat, and opened the chat that it has with a wrapper. -/
def Unclosed (s : ChatSession W) : Prop :=
  ∀ m ∈ s.manager, closedChats s.sent = [] ∧ (∀ r ∈ s.sent, r.wrapper.isSome = true) ∧
    (m.Open → m.chatId ∈ openedChats s.sent)

/-- A manager has opened its chat alone, once; one that is destroyed has closed what it opened. -/
def OpenedOnce (s : ChatSession W) : Prop :=
  match s.manager with
  | none => s.Balanced
  | some m => openedChats s.sent = if m.Open then [m.chatId] else []

/-- More chats were opened than are going to be closed. -/
def LeftOpen (s : ChatSession W) : Prop :=
  match s.manager with
  | none => ¬ s.Balanced
  | some m => (if m.Open then 1 else 0) < (openedChats s.sent).length

variable {s : ChatSession W}

theorem openedOnce_none (hs : s.manager = none) : s.OpenedOnce ↔ s.Balanced := by
  rw [OpenedOnce, hs]

theorem openedOnce_some {m : ChatManager W} (hs : s.manager = some m) :
    s.OpenedOnce ↔ openedChats s.sent = if m.Open then [m.chatId] else [] := by
  rw [OpenedOnce, hs]

theorem leftOpen_none (hs : s.manager = none) : s.LeftOpen ↔ ¬ s.Balanced := by
  rw [LeftOpen, hs]

theorem leftOpen_some {m : ChatManager W} (hs : s.manager = some m) :
    s.LeftOpen ↔ (if m.Open then 1 else 0) < (openedChats s.sent).length := by
  rw [LeftOpen, hs]

/-- What was opened once, without being closed, is balanced. -/
theorem OpenedOnce.balanced (hs : s.Unclosed) (h : s.OpenedOnce) : s.Balanced := by
  cases hm : s.manager with
  | none => exact (openedOnce_none hm).mp h
  | some m =>
      obtain ⟨hclosed, hwrapper, -⟩ := hs m hm
      refine ⟨fun chatId => ?_, ?_, hwrapper, fun hnone => nomatch hm.symm.trans hnone⟩
      · rw [hclosed]
        exact Nat.zero_le _
      · rw [(openedOnce_some hm).mp h]
        split_ifs with hopen
        · exact fun hmem => hopen.2 (List.mem_singleton.mp hmem).symm
        · exact List.not_mem_nil

/-- A manager that has not opened its chat alone, once, has opened too many. -/
theorem leftOpen_of_not {m : ChatManager W} (hm : s.manager = some m) (hs : s.Unclosed) (h : ¬ s.OpenedOnce) :
    s.LeftOpen := by
  rw [openedOnce_some hm] at h
  rw [leftOpen_some hm]
  split_ifs at h ⊢ with hopen
  · have hmem := (hs m hm).2.2 hopen
    by_contra hlength
    have hpos : 0 < (openedChats s.sent).length := List.length_pos_of_mem hmem
    obtain ⟨chatId, heq⟩ := List.length_eq_one_iff.mp (show (openedChats s.sent).length = 1 by omega)
    rw [heq] at hmem h
    exact h (by rw [List.mem_singleton.mp hmem])
  · exact List.length_pos_iff.mpr h

theorem openedChats_destroy (m : ChatManager W) : openedChats m.destroy = [] := by
  rw [ChatManager.destroy]
  split_ifs <;> rfl

theorem closedChats_destroy (m : ChatManager W) :
    closedChats m.destroy = if m.chatId ≠ 0 then [m.chatId] else [] := by
  rw [ChatManager.destroy]
  split_ifs <;> rfl

theorem wrapper_destroy (m : ChatManager W) :
    (∀ r ∈ m.destroy, r.wrapper.isSome = true) ↔ (m.chatId ≠ 0 → m.tdLibWrapper.isSome = true) := by
  rw [ChatManager.destroy]
  split_ifs with hchat
  · exact ⟨fun h _ => h _ List.mem_cons_self, fun h r hr => List.mem_singleton.mp hr ▸ h hchat⟩
  · exact ⟨fun _ h => absurd h hchat, fun _ r hr => absurd hr List.not_mem_nil⟩

/-- A manager that has a wrapper if it has a chat closes its chat exactly if that is open. -/
theorem closing_eq {m : ChatManager W} (h : m.chatId ≠ 0 → m.tdLibWrapper.isSome = true) :
    (if m.chatId ≠ 0 then [m.chatId] else []) = if m.Open then [m.chatId] else [] :=
  if_congr ⟨fun hchat => ⟨h hchat, hchat⟩, fun hopen => hopen.2⟩ rfl rfl

theorem unclosed_new : (new : ChatSession W).Unclosed := by
  intro m hm
  obtain rfl := Option.some.inj hm
  exact ⟨rfl, fun r hr => absurd hr List.not_mem_nil, fun hopen => absurd rfl hopen.2⟩

theorem openedOnce_new : (new : ChatSession W).OpenedOnce := by
  rw [openedOnce_some (s := new) rfl, if_neg fun hopen => hopen.2 rfl]
  rfl

variable [DecidableEq W]

theorem step_none (hs : s.manager = none) (e : Event W) : s.step e = s := by
  rw [step, hs]

theorem step_some {m : ChatManager W} (hs : s.manager = some m) (e : Event W) :
    s.step e = { manager := (m.handle e).1, sent := s.sent ++ (m.handle e).2 } := by
  rw [step, hs]

theorem Unclosed.step (h : s.Unclosed) (e : Event W) : (s.step e).Unclosed := by
  cases hs : s.manager with
  | none =>
      rw [step_none hs]
      exact h
  | some m =>
      obtain ⟨hclosed, hwrapper, hopened⟩ := h m hs
      rw [step_some hs]
      by_cases he : e = .destroy
      · subst he
        exact fun m' hm' => nomatch hm'
      · obtain ⟨m', hm', hcases⟩ := m.handle_alive he
        have hout : ∃ chats, Opens (m.handle e).2 chats ∧ (m'.Open → m'.chatId ∈ openedChats s.sent ++ chats) := by
          rcases hcases with ⟨-, hsame, hchat, hopens⟩ | ⟨-, -, hopens⟩ | ⟨-, hnot, hopens | ⟨-, hopens⟩⟩
          · refine ⟨_, hopens, fun hopen => List.mem_append_left _ ?_⟩
            rw [hchat]
            exact hopened ⟨hsame ▸ hopen.1, hchat ▸ hopen.2⟩
          · exact ⟨_, hopens, fun _ => List.mem_append_right _ List.mem_cons_self⟩
          · exact ⟨_, hopens, fun hopen => absurd hopen hnot⟩
          · exact ⟨_, hopens, fun hopen => absurd hopen hnot⟩
        obtain ⟨chats, hopens, hmem⟩ := hout
        intro m'' hm''
        obtain rfl : m' = m'' := Option.some.inj (hm'.symm.trans hm'')
        refine ⟨?_, fun r hr => ?_, fun hopen => ?_⟩
        · rw [closedChats_append, hclosed, hopens.closed]
          rfl
        · rcases List.mem_append.mp hr with hr | hr
          · exact hwrapper r hr
          · exact hopens.wrapper r hr
        · rw [openedChats_append, hopens.opened]
          exact hmem hopen

/-- A manager that is destroyed leaves the requests balanced exactly if it opened its chat alone, once, and has a
wrapper to close it. -/
theorem balanced_destroyed {m : ChatManager W} (hm : s.manager = some m) (hs : s.Unclosed) :
    (s.step .destroy).Balanced ↔ s.OpenedOnce ∧ m.Keeps .destroy := by
  obtain ⟨hclosed, hwrapper, -⟩ := hs m hm
  have hopened : openedChats (s.step .destroy).sent = openedChats s.sent := by
    rw [step_some hm]
    change openedChats (s.sent ++ m.destroy) = _
    rw [openedChats_append, openedChats_destroy, List.append_nil]
  have hclosing : closedChats (s.step .destroy).sent = if m.chatId ≠ 0 then [m.chatId] else [] := by
    rw [step_some hm]
    change closedChats (s.sent ++ m.destroy) = _
    rw [closedChats_append, hclosed, closedChats_destroy, List.nil_append]
  have hthrough : (∀ r ∈ (s.step .destroy).sent, r.wrapper.isSome = true) ↔ m.Keeps .destroy := by
    rw [step_some hm]
    change (∀ r ∈ s.sent ++ m.destroy, r.wrapper.isSome = true) ↔ _
    rw [List.forall_mem_append, wrapper_destroy]
    exact and_iff_right hwrapper
  have hgone : (s.step .destroy).manager = none := by
    rw [step_some hm]
    rfl
  rw [openedOnce_some hm]
  constructor
  · intro h
    have hkeeps := hthrough.mp h.wrapper
    refine ⟨?_, hkeeps⟩
    have hperm := List.perm_iff_count.mpr (h.matched hgone)
    rw [hopened, hclosing, closing_eq hkeeps] at hperm
    split_ifs at hperm ⊢ with hopen
    · exact List.singleton_perm.mp hperm |>.symm
    · exact List.nil_perm.mp hperm
  · rintro ⟨honce, hkeeps⟩
    have hsame : closedChats (s.step .destroy).sent = openedChats (s.step .destroy).sent := by
      rw [hclosing, hopened, honce, closing_eq hkeeps]
    refine ⟨fun chatId => Nat.le_of_eq (congrArg _ hsame), ?_, hthrough.mpr hkeeps, fun _ chatId => congrArg _ hsame⟩
    rw [hopened, honce]
    split_ifs with hopen
    · exact fun hmem => hopen.2 (List.mem_singleton.mp hmem).symm
    · exact List.not_mem_nil

/-- **Step lemma.** -/
theorem openedOnce_step (e : Event W) (hs : s.Unclosed) (h : s.OpenedOnce) :
    (s.step e).OpenedOnce ↔ ∀ m ∈ s.manager, m.Keeps e := by
  cases hm : s.manager with
  | none =>
      rw [step_none hm]
      exact iff_of_true h fun m hm' => nomatch hm'
  | some m =>
      have hkeeps : (∀ m' ∈ some m, m'.Keeps e) ↔ m.Keeps e :=
        ⟨fun h => h m rfl, fun h m' hm' => Option.some.inj hm' ▸ h⟩
      rw [hkeeps]
      by_cases he : e = .destroy
      · subst he
        have hgone : (s.step .destroy).manager = none := by
          rw [step_some hm]
          rfl
        rw [openedOnce_none hgone, balanced_destroyed hm hs]
        exact and_iff_right h
      · obtain ⟨m', hm', hcases⟩ := m.handle_alive he
        have hnext : (s.step e).manager = some m' := by
          rw [step_some hm, hm']
        have hopened : openedChats (s.step e).sent =
            (if m.Open then [m.chatId] else []) ++ openedChats (m.handle e).2 := by
          rw [step_some hm, openedChats_append, (openedOnce_some hm).mp h]
        rw [openedOnce_some hnext, hopened]
        rcases hcases with ⟨hkeep, hsame, hchat, hopens⟩ | ⟨hkeep, hopen, hopens⟩ | ⟨hkeep, hnot, hopens⟩
        · refine iff_of_true ?_ hkeep
          rw [hopens.opened, List.append_nil, if_congr (ChatManager.open_congr hsame hchat) rfl rfl, hchat]
        · rw [hkeep, hopens.opened, if_pos hopen]
          split_ifs with hbefore
          · simp [hbefore]
          · simp [hbefore]
        · rw [hkeep, if_neg hnot]
          rcases hopens with hopens | ⟨hbefore, hopens⟩
          · rw [hopens.opened, List.append_nil]
            split_ifs with hbefore
            · simp [hbefore]
            · simp [hbefore]
          · rw [hopens.opened, if_pos hbefore]
            simp [hbefore]

theorem LeftOpen.step (hs : s.Unclosed) (h : s.LeftOpen) (e : Event W) : (s.step e).LeftOpen := by
  cases hm : s.manager with
  | none =>
      rw [step_none hm]
      exact h
  | some m =>
      rw [leftOpen_some hm] at h
      by_cases he : e = .destroy
      · subst he
        have hgone : (s.step .destroy).manager = none := by
          rw [step_some hm]
          rfl
        rw [leftOpen_none hgone, balanced_destroyed hm hs, openedOnce_some hm]
        rintro ⟨honce, -⟩
        rw [honce] at h
        split_ifs at h
        · exact absurd h (Nat.lt_irrefl 1)
        · exact absurd h (Nat.lt_irrefl 0)
      · obtain ⟨m', hm', hcases⟩ := m.handle_alive he
        have hnext : (s.step e).manager = some m' := by
          rw [step_some hm, hm']
        have hlength : (openedChats (s.step e).sent).length =
            (openedChats s.sent).length + (openedChats (m.handle e).2).length := by
          rw [step_some hm, openedChats_append, List.length_append]
        rw [leftOpen_some hnext, hlength]
        rcases hcases with ⟨-, hsame, hchat, -⟩ | ⟨-, hopen, hopens⟩ | ⟨-, hnot, -⟩
        · rw [if_congr (ChatManager.open_congr hsame hchat) rfl rfl]
          omega
        · rw [hopens.opened, if_pos hopen, List.length_singleton]
          split_ifs at h <;> omega
        · rw [if_neg hnot]
          omega

/-- **Every opened chat is closed once**, if an open chat keeps its id and wrapper until the manager is destroyed; in a
run in which it is destroyed, only then. -/
theorem chats_balanced_iff (es : List (Event W)) :
    (Along step (fun s e => ∀ m ∈ s.manager, m.Keeps e) new es → ∀ es', es' <+: es → (run step new es').Balanced) ∧
      ((run step new es).manager = none → (∀ es', es' <+: es → (run step new es').Balanced) →
        Along step (fun s e => ∀ m ∈ s.manager, m.Keeps e) new es) := by
  have hunclosed : ∀ es' : List (Event W), (run step new es').Unclosed := fun es' =>
    Along.invariant (fun s e hs _ => hs.step e) unclosed_new (along_true new es')
  have hiff := Along.always_iff (I := OpenedOnce) (J := Unclosed) (fun _ e hs => hs.step e)
    (fun _ e hs h => openedOnce_step e hs h) unclosed_new openedOnce_new es
  refine ⟨fun halong es' hes' => (hiff.mpr halong es' hes').balanced (hunclosed es'), fun hgone h => hiff.mp ?_⟩
  intro es' hes'
  by_contra hnot
  obtain ⟨rest, rfl⟩ := hes'
  have hleft : (run step new es').LeftOpen := by
    cases hm : (run step new es').manager with
    | none =>
        rw [openedOnce_none hm] at hnot
        exact absurd (h es' (List.prefix_append _ _)) hnot
    | some m => exact leftOpen_of_not hm (hunclosed es') hnot
  have hend : (run step new (es' ++ rest)).LeftOpen := by
    rw [run_append]
    exact (Along.invariant (I := fun s : ChatSession W => s.Unclosed ∧ s.LeftOpen)
      (fun s e hs _ => ⟨hs.1.step e, hs.2.step hs.1 e⟩) ⟨hunclosed es', hleft⟩ (along_true _ rest)).2
  exact (leftOpen_none hgone).mp hend (h _ (List.prefix_refl _))

/-- A chat that is left for another one is not closed. -/
theorem not_chats_balanced :
    ¬ ∀ es' : List (Event Unit),
      es' <+: [.setTDLibWrapper (some ()) ⟨false, false, 0⟩, .setChatId 5 ⟨false, false, 0⟩,
        .setChatId 6 ⟨false, false, 0⟩, .destroy] → (run step new es').Balanced := by
  intro h
  exact absurd ((h _ (List.prefix_refl _)).matched rfl 5) (by decide)

end ChatSession

end YaqtLib
