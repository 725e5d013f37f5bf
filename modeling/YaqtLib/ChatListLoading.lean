import YaqtLib.Containers
import YaqtLib.EntityLinks
import YaqtLib.LinkExtras
import YaqtLib.RunTotals
import Mathlib.Data.List.Induction

/-! The loading of the chat lists (`chatlistmodel.cpp`, `folderchatlistmodel.cpp`, `chatfoldersmodel.cpp`). The model of a
list asks the wrapper for more chats and asks no more until TDLib has answered; the wrapper finds the list of an answer in
the extra of its request, among the answers to everything else that was asked. -/

namespace YaqtLib

open Runs Containers TdConst TDLibReceiver

namespace TDLibWrapper

/-- The lists of chats, that of a folder by the id of the folder. -/
inductive ChatListId where
  | main
  | archive
  | folder (folderId : Int)
  deriving DecidableEq

/-- What `handleOkReceived` emits. -/
inductive OkOutput where
  | mainChatListChatsLoaded
  | archiveChatListChatsLoaded
  | folderChatListChatsLoaded (folderId : Int)
  | okReceived (extra : QVariant)

/-- `QString::toInt`. -/
def stringToInt (s : String) : Int :=
  if -2 ^ 31 ≤ stringToLongLong s ∧ stringToLongLong s < 2 ^ 31 then stringToLongLong s else 0

def handleOkReceived (extra : QVariant) : OkOutput :=
  match extra with
  | .string extraString =>
      let parts := splitExtra extraString
      if extraString ≠ "" ∧ parts.length = 2 ∧ part parts 0 = TYPE_LOAD_CHATS then
        if part parts 1 ≠ "" then .archiveChatListChatsLoaded else .mainChatListChatsLoaded
      else if extraString ≠ "" ∧ parts.length = 2 ∧ part parts 0 = EXTRA_LOAD_CHATS_FOR_FOLDER then
        .folderChatListChatsLoaded (stringToInt (part parts 1))
      else .okReceived extra
  | _ => .okReceived extra

/-- The request a list sends for more chats, its `doLoad`. -/
def ChatListId.doLoad : ChatListId → Call
  | .main => .loadChats false
  | .archive => .loadChats true
  | .folder folderId => .loadChatsForFolder folderId

/-- The list whose chats a request loads. -/
def Call.loads : Call → Option ChatListId
  | .loadChats archive => some (if archive then .archive else .main)
  | .loadChatsForFolder folderId => some (.folder folderId)
  | _ => none

/-- What TDLib answers. The results of the other requests are nothing to the lists. -/
inductive Answer where
  | ok
  | error (code : Int) (message : String)
  | result

/-- The `loading` of the models of the lists, those of the folders in `chatModels`, and the requests that TDLib has not
answered yet. -/
structure ListsSession where
  mainLoading : Bool
  archiveLoading : Bool
  chatModels : QHash Int Bool
  pending : List Call

inductive ListsEvent where
  /-- `ChatListModel::load` of the model of a list. -/
  | load (list : ChatListId)
  /-- `ChatListModel::reset` of the model of a list. -/
  | reset (list : ChatListId)
  /-- `ChatFoldersModel::handleReady`. -/
  | ready
  /-- `ChatFoldersModel::reset`, which resets the models of the main list and of the archive. -/
  | clearContent
  | chatAddedToFolderList (folderId : Int)
  /-- Another function of the wrapper, also one that a handler of an error calls. -/
  | call (call : Call)
  /-- TDLib answers one of the requests. -/
  | reply (i : Nat) (answer : Answer)

namespace ListsSession

def new : ListsSession :=
  { mainLoading := false, archiveLoading := false, chatModels := .empty, pending := [] }

/-- The `loading` of the model of a list, if the list has a model. -/
def loading (s : ListsSession) : ChatListId → Option Bool
  | .main => some s.mainLoading
  | .archive => some s.archiveLoading
  | .folder folderId => s.chatModels.value folderId

def setLoading (s : ListsSession) (list : ChatListId) (loading : Bool) : ListsSession :=
  match list with
  | .main => { s with mainLoading := loading }
  | .archive => { s with archiveLoading := loading }
  | .folder folderId =>
      if s.chatModels.contains folderId then { s with chatModels := s.chatModels.insert folderId loading } else s

def send (s : ListsSession) (call : Call) : ListsSession := { s with pending := s.pending ++ [call] }

/-- `ChatListModel::load`. -/
def load (s : ListsSession) (list : ChatListId) : ListsSession :=
  if s.loading list = some false then (s.setLoading list true).send list.doLoad else s

/-- `handleChatsLoaded` of the model of the list, or of none. -/
def handleOkOutput (s : ListsSession) : OkOutput → ListsSession
  | .mainChatListChatsLoaded => s.setLoading .main false
  | .archiveChatListChatsLoaded => s.setLoading .archive false
  | .folderChatListChatsLoaded folderId => s.setLoading (.folder folderId) false
  | .okReceived _ => s

/-- The request is answered. An answer to a request with an id goes to the response that waits for it, and errors change
no list: the handler emits signals of other kinds, or nothing. -/
def reply (s : ListsSession) (i : Nat) (answer : Answer) : ListsSession :=
  match s.pending[i]? with
  | none => s
  | some call =>
      let s := { s with pending := s.pending.eraseIdx i }
      match answer with
      | .ok => s.handleOkOutput (handleOkReceived call.extra.toVariant)
      | .error _ _ | .result => s

def step (s : ListsSession) : ListsEvent → ListsSession
  | .load list => s.load list
  | .reset list => s.setLoading list false
  | .ready => (s.send (.loadChats false)).send (.loadChats true)
  | .clearContent => (s.setLoading .main false).setLoading .archive false
  | .chatAddedToFolderList folderId =>
      if s.chatModels.contains folderId then s
      else { s with chatModels := s.chatModels.insert folderId false }
  | .call call => s.send call
  | .reply i answer => s.reply i answer

/-! ### One flag and the others -/

@[simp] theorem pending_setLoading (s : ListsSession) (list : ChatListId) (loading : Bool) :
    (s.setLoading list loading).pending = s.pending := by
  cases list with
  | main => rfl
  | archive => rfl
  | folder folderId =>
      rw [setLoading]
      split_ifs <;> rfl

@[simp] theorem loading_send (s : ListsSession) (call : Call) (list : ChatListId) :
    (s.send call).loading list = s.loading list := by
  cases list <;> rfl

/-- The model of one list takes the flag, if the list has a model. -/
theorem loading_setLoading (s : ListsSession) (list list' : ChatListId) (loading : Bool) :
    (s.setLoading list loading).loading list' =
      if list' = list then (s.loading list).map fun _ => loading else s.loading list' := by
  cases list with
  | main => cases list' <;> rfl
  | archive => cases list' <;> rfl
  | folder folderId =>
      rw [setLoading]
      cases hmodel : s.chatModels.value folderId with
      | none =>
          rw [if_neg (by rw [QHash.contains, hmodel]; exact Bool.false_ne_true)]
          split_ifs with hsame
          · rw [hsame]
            simp only [ListsSession.loading, hmodel, Option.map_none]
          · rfl
      | some old =>
          rw [if_pos (by rw [QHash.contains, hmodel]; rfl)]
          cases list' with
          | main => rfl
          | archive => rfl
          | folder folderId' =>
              simp only [ListsSession.loading, ChatListId.folder.injEq, QHash.value_insert, hmodel, Option.map_some]

end ListsSession

/-! ### The list of an answer -/

/-- The list whose model is told, if any. -/
def OkOutput.list : OkOutput → Option ChatListId
  | .mainChatListChatsLoaded => some .main
  | .archiveChatListChatsLoaded => some .archive
  | .folderChatListChatsLoaded folderId => some (.folder folderId)
  | .okReceived _ => none

theorem ListsSession.handleOkOutput_eq (s : ListsSession) (output : OkOutput) :
    s.handleOkOutput output = output.list.elim s fun list => s.setLoading list false := by
  cases output <;> rfl

/-- The ids of folders are numbers of 32 bits. -/
def IsFolderId (n : Int) : Prop := -2 ^ 31 ≤ n ∧ n < 2 ^ 31

/-- The text of a number is digits, behind a sign if it is negative. -/
theorem toString_cases (n : Int) : (∃ k : Nat, n = k ∧ toString n = String.ofList (Nat.toDigits 10 k)) ∨
    ∃ k : Nat, n = -k ∧ toString n = String.ofList ('-' :: Nat.toDigits 10 k) := by
  cases n with
  | ofNat k => exact Or.inl ⟨k, rfl, rfl⟩
  | negSucc k =>
      refine Or.inr ⟨k + 1, Int.negSucc_eq k, ?_⟩
      rw [String.ofList_cons]
      rfl

theorem stringToLongLong_toString {n : Int} (h : IsFolderId n) : stringToLongLong (toString n) = n := by
  obtain ⟨hlow, hhigh⟩ := h
  rcases toString_cases n with ⟨k, hk, htext⟩ | ⟨k, hk, htext⟩
  · rw [htext, stringToLongLong_toDigits (by omega), hk]
  · rw [htext, EntityLinks.stringToLongLong_neg (by omega), hk]

theorem stringToInt_toString {n : Int} (h : IsFolderId n) : stringToInt (toString n) = n := by
  rw [stringToInt, stringToLongLong_toString h]
  exact if_pos h

/-- A number has no colon. -/
theorem splitExtra_toString (n : Int) : splitExtra (toString n) = [toString n] := by
  have hdigits : ∀ k : Nat, ':' ∉ Nat.toDigits 10 k := fun k hmem =>
    absurd (isDigit_of_mem_toDigits ':' hmem) (by decide)
  have hcolon : ':' ∉ (toString n).toList := by
    rcases toString_cases n with ⟨k, -, htext⟩ | ⟨k, -, htext⟩
    · rw [htext, String.toList_ofList]
      exact hdigits k
    · rw [htext, String.toList_ofList, List.mem_cons]
      exact not_or.mpr ⟨by decide, hdigits k⟩
  rw [splitExtra, List.splitOn_eq_singleton hcolon, List.map_singleton, String.ofList_toList]

theorem splitExtra_loadChatsForFolder (folderId : Int) :
    splitExtra ("loadChatsForFolder:" ++ toString folderId) = [EXTRA_LOAD_CHATS_FOR_FOLDER, toString folderId] := by
  have hword : splitExtra ("loadChatsForFolder:" ++ toString folderId) =
      EXTRA_LOAD_CHATS_FOR_FOLDER :: splitExtra (toString folderId) :=
    splitExtra_append (toString folderId) (by decide) rfl
  rw [hword, splitExtra_toString]

theorem recognises_doLoad (list : ChatListId) : ErrorKind.Recognises .loadChats list.doLoad.extra.toVariant := by
  cases list with
  | main => exact ⟨"", Or.inl (by decide +kernel)⟩
  | archive => exact ⟨"!", Or.inl (by decide +kernel)⟩
  | folder folderId => exact ⟨toString folderId, Or.inr (splitExtra_loadChatsForFolder folderId)⟩

theorem list_handleOkReceived_doLoad {list : ChatListId} (h : ∀ folderId, list = .folder folderId → IsFolderId folderId) :
    (handleOkReceived list.doLoad.extra.toVariant).list = some list := by
  cases list with
  | main => decide +kernel
  | archive => decide +kernel
  | folder folderId =>
      have hne : "loadChatsForFolder:" ++ toString folderId ≠ "" := fun h => by
        have hlength := congrArg String.length h
        rw [String.length_append] at hlength
        exact absurd (Nat.eq_zero_of_add_eq_zero_right hlength) (by decide)
      have hextra : (ChatListId.folder folderId).doLoad.extra.toVariant =
          .string ("loadChatsForFolder:" ++ toString folderId) := rfl
      rw [hextra, handleOkReceived, splitExtra_loadChatsForFolder, if_neg, if_pos ⟨hne, rfl, rfl⟩]
      · exact congrArg (fun n => some (ChatListId.folder n)) (stringToInt_toString (h folderId rfl))
      · rintro ⟨-, -, hword⟩
        have hfirst : part [EXTRA_LOAD_CHATS_FOR_FOLDER, toString folderId] 0 = EXTRA_LOAD_CHATS_FOR_FOLDER := rfl
        rw [hfirst] at hword
        exact absurd hword (by decide)

/-- The answer to a request that does not load chats tells no list. -/
theorem list_handleOkReceived_of_unmistakable {call : Call} (htype : call.type ≠ TYPE_LOAD_CHATS)
    (h : call.Harmless) : (handleOkReceived call.extra.toVariant).list = none := by
  have hapart := Call.unmistakable h
  cases hextra : call.extra.toVariant with
  | string text =>
      have hnot : ∀ word, word = TYPE_LOAD_CHATS ∨ word = EXTRA_LOAD_CHATS_FOR_FOLDER →
          ¬ ((splitExtra text).length = 2 ∧ part (splitExtra text) 0 = word) := by
        rintro word hword ⟨hlength, hfirst⟩
        obtain ⟨a, hparts⟩ := exists_of_length_two hlength hfirst
        have hkind : ErrorKind.Recognises .loadChats call.extra.toVariant := by
          rw [hextra]
          refine ⟨a, ?_⟩
          rcases hword with rfl | rfl
          · exact Or.inl hparts
          · exact Or.inr hparts
        exact htype (List.mem_singleton.mp (hapart.error .loadChats hkind))
      rw [handleOkReceived, if_neg fun h => hnot _ (Or.inl rfl) h.2, if_neg fun h => hnot _ (Or.inr rfl) h.2]
      rfl
  | _ => rfl

/-! ### Runs -/

/-- The list whose chats the request at a place loads. -/
def ListsSession.loadsAt (s : ListsSession) (i : Nat) : Option ChatListId := s.pending[i]?.bind Call.loads

/-- What the rest of the program and TDLib do: the other functions do not load chats and hand over extras that are not
mistaken, the ids of folders are `int`s, and TDLib answers a request for chats with `ok` or an error. -/
def Expected (s : ListsSession) : ListsEvent → Prop
  | .chatAddedToFolderList folderId => IsFolderId folderId
  | .call call => call.type ≠ TYPE_LOAD_CHATS ∧ call.Harmless
  | .reply i .result => s.loadsAt i = none
  | _ => True

/-- An answer to the request tells its list, and only it. -/
def Routed (call : Call) : Prop := (handleOkReceived call.extra.toVariant).list = call.loads

structure ListsInvariant (s : ListsSession) : Prop where
  folders : ∀ folderId, s.chatModels.contains folderId = true → IsFolderId folderId
  routed : ∀ call ∈ s.pending, Routed call

theorem loads_doLoad (list : ChatListId) : list.doLoad.loads = some list := by
  cases list <;> rfl

theorem loads_of_type {call : Call} (h : call.type ≠ TYPE_LOAD_CHATS) : call.loads = none := by
  cases call with
  | loadChats archive => exact absurd rfl h
  | loadChatsForFolder folderId => exact absurd rfl h
  | _ => rfl

theorem routed_doLoad {list : ChatListId} (h : ∀ folderId, list = .folder folderId → IsFolderId folderId) :
    Routed list.doLoad :=
  (list_handleOkReceived_doLoad h).trans (loads_doLoad list).symm

namespace ListsSession

variable {s : ListsSession}

theorem contains_chatModels (s : ListsSession) (folderId : Int) :
    s.chatModels.contains folderId = (s.loading (.folder folderId)).isSome := rfl

/-- Only a new folder gets a model. -/
theorem contains_chatModels_setLoading (s : ListsSession) (list : ChatListId) (loading : Bool) (folderId : Int) :
    (s.setLoading list loading).chatModels.contains folderId = s.chatModels.contains folderId := by
  rw [contains_chatModels, loading_setLoading, contains_chatModels]
  split_ifs with hlist
  · rw [← hlist, Option.isSome_map]
  · rfl

theorem invariant_setLoading (h : ListsInvariant s) (list : ChatListId) (loading : Bool) :
    ListsInvariant (s.setLoading list loading) where
  folders folderId hfolder := h.folders folderId (by rwa [contains_chatModels_setLoading] at hfolder)
  routed call hcall := h.routed call (by rwa [pending_setLoading] at hcall)

theorem invariant_send (h : ListsInvariant s) {call : Call} (hcall : Routed call) : ListsInvariant (s.send call) where
  folders := h.folders
  routed := List.forall_mem_append.mpr ⟨h.routed, List.forall_mem_singleton.mpr hcall⟩

theorem invariant_erase (h : ListsInvariant s) (i : Nat) : ListsInvariant { s with pending := s.pending.eraseIdx i } where
  folders := h.folders
  routed call hcall := h.routed call (List.mem_of_mem_eraseIdx hcall)

/-- The answer to a request that is not answered yet. -/
theorem reply_of_getElem? (h : ListsInvariant s) {i : Nat} {call : Call} (hcall : s.pending[i]? = some call)
    (answer : Answer) : s.reply i answer =
      match answer with
      | .ok => call.loads.elim { s with pending := s.pending.eraseIdx i } fun list =>
          { s with pending := s.pending.eraseIdx i }.setLoading list false
      | _ => { s with pending := s.pending.eraseIdx i } := by
  rw [reply, hcall]
  cases answer with
  | ok =>
      have hrouted : Routed call := h.routed call (List.mem_of_getElem? hcall)
      simp only [handleOkOutput_eq, show (handleOkReceived call.extra.toVariant).list = call.loads from hrouted]
  | error code message => rfl
  | result => rfl

/-- **Step lemma.** -/
theorem invariant_step (e : ListsEvent) (h : ListsInvariant s) (he : Expected s e) : ListsInvariant (s.step e) := by
  cases e with
  | load list =>
      rw [step, load]
      split_ifs with hloading
      · refine invariant_send (invariant_setLoading h list true) (routed_doLoad fun folderId hlist => ?_)
        refine h.folders folderId ?_
        rw [contains_chatModels, ← hlist, hloading]
        rfl
      · exact h
  | reset list => exact invariant_setLoading h list false
  | ready =>
      have hmain : Routed (ChatListId.doLoad .main) := routed_doLoad fun folderId hfolder => by cases hfolder
      have harchive : Routed (ChatListId.doLoad .archive) := routed_doLoad fun folderId hfolder => by cases hfolder
      exact invariant_send (invariant_send h hmain) harchive
  | clearContent => exact invariant_setLoading (invariant_setLoading h .main false) .archive false
  | chatAddedToFolderList folderId =>
      rw [step]
      split_ifs with hmodel
      · exact h
      · refine ⟨fun folderId' hfolder => ?_, h.routed⟩
        by_cases hsame : folderId' = folderId
        · exact hsame ▸ he
        · refine h.folders folderId' ?_
          rwa [QHash.contains, QHash.value_insert_of_ne _ _ hsame] at hfolder
  | call call =>
      exact invariant_send h ((list_handleOkReceived_of_unmistakable he.1 he.2).trans (loads_of_type he.1).symm)
  | reply i answer =>
      rw [step]
      cases hcall : s.pending[i]? with
      | none =>
          rw [reply, hcall]
          exact h
      | some call =>
          rw [reply_of_getElem? h hcall]
          cases answer with
          | ok =>
              cases hloads : call.loads with
              | none => exact invariant_erase h i
              | some list => exact invariant_setLoading (invariant_erase h i) list false
          | error code message => exact invariant_erase h i
          | result => exact invariant_erase h i

end ListsSession

/-! ### Accounts -/

section

variable (list : ChatListId)

/-- The list asks for more chats by its own. -/
def asks (s : ListsSession) : ListsEvent → Nat
  | .load list' => if list' = list ∧ s.loading list = some false then 1 else 0
  | _ => 0

/-- The chats of the list are asked for when the client is ready. -/
def asksReady (_ : ListsSession) : ListsEvent → Nat
  | .ready => if list = .main ∨ list = .archive then 1 else 0
  | _ => 0

/-- A list that waits is told that chats were loaded, or is reset. -/
def frees (s : ListsSession) : ListsEvent → Nat
  | .reset list' => if list' = list ∧ s.loading list = some true then 1 else 0
  | .clearContent => if (list = .main ∨ list = .archive) ∧ s.loading list = some true then 1 else 0
  | .reply i .ok => if s.loadsAt i = some list ∧ s.loading list = some true then 1 else 0
  | _ => 0

/-- A request for chats of the list is answered. -/
def answers (s : ListsSession) : ListsEvent → Nat
  | .reply i _ => if s.loadsAt i = some list then 1 else 0
  | _ => 0

/-- Whether the list waits for an answer. -/
def waits (s : ListsSession) : Nat := if s.loading list = some true then 1 else 0

/-- The requests for chats of the list that are not answered yet. -/
def outstanding (s : ListsSession) : Nat := s.pending.countP fun call => call.loads = some list

end

section

variable {list : ChatListId} {s : ListsSession}

theorem waits_congr {s' : ListsSession} (h : s'.loading list = s.loading list) : waits list s' = waits list s := by
  rw [waits, h, waits]

/-- The model of a list is told or reset. -/
theorem waits_setLoading_false (list list' : ChatListId) (s : ListsSession) :
    waits list (s.setLoading list' false) + (if list' = list ∧ s.loading list = some true then 1 else 0) =
      waits list s := by
  by_cases hlist : list = list'
  · subst hlist
    rw [waits, ListsSession.loading_setLoading, if_pos rfl, waits]
    cases s.loading list with
    | none => simp
    | some loading => cases loading <;> simp
  · rw [if_neg fun hboth => hlist hboth.1.symm, Nat.add_zero]
    exact waits_congr (by rw [ListsSession.loading_setLoading, if_neg hlist])

theorem outstanding_send (list : ChatListId) (s : ListsSession) (call : Call) :
    outstanding list (s.send call) = outstanding list s + if call.loads = some list then 1 else 0 := by
  rw [outstanding, ListsSession.send, List.countP_append, List.countP_singleton, outstanding]
  simp only [decide_eq_true_eq]

theorem outstanding_setLoading (list list' : ChatListId) (s : ListsSession) (loading : Bool) :
    outstanding list (s.setLoading list' loading) = outstanding list s := by
  rw [outstanding, ListsSession.pending_setLoading, outstanding]

theorem outstanding_erase (list : ChatListId) (s : ListsSession) {i : Nat} {call : Call}
    (hcall : s.pending[i]? = some call) :
    outstanding list { s with pending := s.pending.eraseIdx i } + (if call.loads = some list then 1 else 0) =
      outstanding list s := by
  obtain ⟨pre, post, hpending, hi⟩ := exists_split_of_getElem? hcall
  rw [outstanding, outstanding, hpending, ← hi, eraseIdx_append_cons]
  simp only [List.countP_append, List.countP_cons, decide_eq_true_eq]
  omega

theorem waits_load (list list' : ChatListId) (s : ListsSession) :
    waits list (s.load list') = waits list s + if list' = list ∧ s.loading list = some false then 1 else 0 := by
  rw [ListsSession.load]
  by_cases hlist : list = list'
  · subst hlist
    by_cases hfree : s.loading list = some false
    · rw [if_pos hfree, if_pos ⟨rfl, hfree⟩, waits, ListsSession.loading_send, ListsSession.loading_setLoading,
        if_pos rfl, waits, hfree]
      rfl
    · rw [if_neg hfree, if_neg fun hboth => hfree hboth.2, Nat.add_zero]
  · rw [if_neg (c := list' = list ∧ s.loading list = some false) fun hboth => hlist hboth.1.symm, Nat.add_zero]
    split_ifs
    · exact waits_congr (by rw [ListsSession.loading_send, ListsSession.loading_setLoading, if_neg hlist])
    · rfl

theorem waits_clearContent (list : ChatListId) (s : ListsSession) :
    waits list ((s.setLoading .main false).setLoading .archive false) +
      (if (list = .main ∨ list = .archive) ∧ s.loading list = some true then 1 else 0) = waits list s := by
  cases list with
  | main => simp [waits, ListsSession.setLoading, ListsSession.loading]
  | archive => simp [waits, ListsSession.setLoading, ListsSession.loading]
  | folder folderId =>
      rw [if_neg fun hboth => by rcases hboth.1 with hmain | harchive <;> contradiction, Nat.add_zero]
      exact waits_congr rfl

/-- A new model does not load. -/
theorem waits_chatAddedToFolderList (list : ChatListId) (s : ListsSession) (folderId : Int) :
    waits list (s.step (.chatAddedToFolderList folderId)) = waits list s := by
  rw [ListsSession.step]
  split_ifs with hmodel
  · rfl
  · have hnone : s.chatModels.value folderId = none :=
      (QHash.contains_eq_false_iff _ _).mp (Bool.not_eq_true _ ▸ hmodel)
    cases list with
    | main => rfl
    | archive => rfl
    | folder folderId' =>
        by_cases hsame : folderId' = folderId
        · simp [waits, ListsSession.loading, hsame, hnone]
        · exact waits_congr (QHash.value_insert_of_ne _ _ hsame)

theorem waits_reply (list : ChatListId) (h : ListsInvariant s) (i : Nat) (answer : Answer) :
    waits list (s.reply i answer) + frees list s (.reply i answer) = waits list s := by
  cases hcall : s.pending[i]? with
  | none =>
      rw [ListsSession.reply, hcall]
      cases answer with
      | ok =>
          change waits list s + (if s.loadsAt i = some list ∧ s.loading list = some true then 1 else 0) = waits list s
          rw [if_neg, Nat.add_zero]
          rintro ⟨hloads, -⟩
          rw [ListsSession.loadsAt, hcall] at hloads
          cases hloads
      | error code message => rfl
      | result => rfl
  | some call =>
      have hloads : s.loadsAt i = call.loads := by rw [ListsSession.loadsAt, hcall, Option.bind_some]
      rw [ListsSession.reply_of_getElem? h hcall]
      cases answer with
      | ok =>
          change _ + (if s.loadsAt i = some list ∧ s.loading list = some true then 1 else 0) = waits list s
          rw [hloads]
          cases call.loads with
          | none => rfl
          | some list' =>
              have htold := waits_setLoading_false list list' { s with pending := s.pending.eraseIdx i }
              simp only [Option.elim_some, Option.some_inj]
              exact htold
      | error code message => rfl
      | result => rfl

/-- **Step lemma.** The list waits from the request it sends until it is told or reset. -/
theorem waits_step (list : ChatListId) (e : ListsEvent) (h : ListsInvariant s) :
    waits list (s.step e) + frees list s e = waits list s + asks list s e := by
  cases e with
  | load list' => exact waits_load list list' s
  | reset list' => exact waits_setLoading_false list list' s
  | ready => exact waits_congr (by rw [ListsSession.step, ListsSession.loading_send, ListsSession.loading_send])
  | clearContent => exact waits_clearContent list s
  | chatAddedToFolderList folderId => exact waits_chatAddedToFolderList list s folderId
  | call call => exact waits_congr (ListsSession.loading_send s call list)
  | reply i answer => exact waits_reply list h i answer

/-- **Step lemma.** Every request is answered at most once. -/
theorem outstanding_step (list : ChatListId) (e : ListsEvent) (h : ListsInvariant s) (he : Expected s e) :
    outstanding list (s.step e) + answers list s e = outstanding list s + (asks list s e + asksReady list s e) := by
  cases e with
  | load list' =>
      change outstanding list (s.load list') = outstanding list s +
        (if list' = list ∧ s.loading list = some false then 1 else 0)
      rw [ListsSession.load]
      by_cases hfree : s.loading list' = some false
      · rw [if_pos hfree, outstanding_send, outstanding_setLoading, loads_doLoad]
        by_cases hlist : list' = list
        · subst hlist
          simp [hfree]
        · simp [hlist]
      · rw [if_neg hfree, if_neg, Nat.add_zero]
        rintro ⟨rfl, hboth⟩
        exact hfree hboth
  | reset list' => exact outstanding_setLoading list list' s false
  | ready =>
      change outstanding list ((s.send (.loadChats false)).send (.loadChats true)) = outstanding list s +
        (0 + if list = .main ∨ list = .archive then 1 else 0)
      rw [outstanding_send, outstanding_send]
      cases list <;> simp [Call.loads]
  | clearContent =>
      change outstanding list ((s.setLoading .main false).setLoading .archive false) = outstanding list s
      rw [outstanding_setLoading, outstanding_setLoading]
  | chatAddedToFolderList folderId =>
      change outstanding list (s.step (.chatAddedToFolderList folderId)) = outstanding list s
      rw [ListsSession.step]
      split_ifs <;> rfl
  | call call =>
      change outstanding list (s.send call) = outstanding list s
      rw [outstanding_send, loads_of_type he.1]
      rfl
  | reply i answer =>
      change outstanding list (s.reply i answer) + (if s.loadsAt i = some list then 1 else 0) = outstanding list s
      cases hcall : s.pending[i]? with
      | none =>
          rw [ListsSession.reply, hcall, ListsSession.loadsAt, hcall]
          rfl
      | some call =>
          have herase := outstanding_erase list s hcall
          rw [ListsSession.reply_of_getElem? h hcall, ListsSession.loadsAt, hcall, Option.bind_some]
          cases answer with
          | ok =>
              cases hloads : call.loads with
              | none =>
                  rw [hloads] at herase
                  exact herase
              | some list' =>
                  rw [hloads] at herase
                  rw [Option.elim_some, outstanding_setLoading]
                  exact herase
          | error code message => exact herase
          | result => exact herase

end

/-! ### Any order of loads and answers -/

theorem listsInvariant_new : ListsInvariant .new where
  folders _ h := absurd h Bool.false_ne_true
  routed _ h := absurd h List.not_mem_nil

theorem listsInvariant_run {es : List ListsEvent} (hes : Along ListsSession.step Expected .new es) :
    ListsInvariant (run ListsSession.step .new es) :=
  Along.invariant (fun _ e hs he => ListsSession.invariant_step e hs he) listsInvariant_new hes

/-- What an answer does to the flag of a list. -/
theorem loading_reply {s : ListsSession} (h : ListsInvariant s) (list : ChatListId) (i : Nat) (answer : Answer) :
    (s.reply i answer).loading list = s.loading list ∨
      s.loadsAt i = some list ∧ answer = .ok ∧ (s.reply i answer).loading list = (s.loading list).map fun _ => false := by
  cases hcall : s.pending[i]? with
  | none =>
      rw [ListsSession.reply, hcall]
      exact Or.inl rfl
  | some call =>
      rw [ListsSession.loadsAt, hcall, ListsSession.reply_of_getElem? h hcall, Option.bind_some]
      cases answer with
      | ok =>
          cases call.loads with
          | none => exact Or.inl rfl
          | some list' =>
              rw [Option.elim_some, ListsSession.loading_setLoading]
              by_cases hlist : list = list'
              · subst hlist
                exact Or.inr ⟨rfl, rfl, if_pos rfl⟩
              · exact Or.inl (if_neg hlist)
      | error code message => exact Or.inl rfl
      | result => exact Or.inl rfl

/-- An error answers a request for chats of the list. -/
def Refuses (list : ChatListId) (s : ListsSession) : ListsEvent → Prop
  | .reply i (.error _ _) => s.loadsAt i = some list
  | _ => False

/-- What can make a list ask again: a reset, or the client that gets ready. -/
def Revives (list : ChatListId) : ListsEvent → Prop
  | .reset list' => list' = list
  | .clearContent | .ready => list = .main ∨ list = .archive
  | _ => False

/-- A list that waits has a request that is not answered, or one of its requests was refused while it waited. -/
def WaitsForAnswer (list : ChatListId) (es : List ListsEvent) : Prop :=
  let s := run ListsSession.step .new es
  0 < outstanding list s ∨ ∃ es₁ e es₂, es = es₁ ++ e :: es₂ ∧ Refuses list (run ListsSession.step .new es₁) e ∧
    ∀ es', es' <+: es₂ → (run ListsSession.step .new (es₁ ++ e :: es')).loading list = some true

theorem waits_eq_one {list : ChatListId} {s : ListsSession} : waits list s = 1 ↔ s.loading list = some true := by
  rw [waits]
  split_ifs with h
  · simp [h]
  · simp [h]

theorem outstanding_pos {list : ChatListId} {s : ListsSession} {i : Nat} (h : s.loadsAt i = some list) :
    0 < outstanding list s := by
  obtain ⟨call, hcall, hloads⟩ := Option.bind_eq_some_iff.mp h
  exact List.countP_pos_iff.mpr ⟨call, List.mem_of_getElem? hcall, decide_eq_true hloads⟩

/-- The last request of a list that goes on waiting was refused. -/
theorem refuses_of_answers {list : ChatListId} {s : ListsSession} (h : ListsInvariant s) {e : ListsEvent}
    (he : Expected s e) (hanswers : answers list s e ≠ 0) (hloading : (s.step e).loading list = some true) :
    Refuses list s e := by
  cases e with
  | reply i answer =>
      have hloads : s.loadsAt i = some list := by
        by_contra hnot
        exact hanswers (if_neg hnot)
      cases answer with
      | ok =>
          -- a list that is told does not wait
          have hbalance : waits list (s.step (.reply i .ok)) +
            (if s.loadsAt i = some list ∧ s.loading list = some true then 1 else 0) = waits list s := waits_reply list h i .ok
          rw [waits_eq_one.mpr hloading, waits] at hbalance
          by_cases hwaits : s.loading list = some true
          · rw [if_pos ⟨hloads, hwaits⟩, if_pos hwaits] at hbalance
            omega
          · rw [if_neg fun hboth => hwaits hboth.2, if_neg hwaits] at hbalance
            omega
      | error code message => exact hloads
      | result =>
          rw [show s.loadsAt i = none from he] at hloads
          cases hloads
  | _ => exact absurd rfl hanswers

theorem waitsForAnswer_append {list : ChatListId} {es : List ListsEvent} {e : ListsEvent}
    (hes : Along ListsSession.step Expected .new es) (he : Expected (run ListsSession.step .new es) e)
    (hwaits : (run ListsSession.step .new es).loading list = some true → WaitsForAnswer list es)
    (hloading : (run ListsSession.step .new (es ++ [e])).loading list = some true) :
    WaitsForAnswer list (es ++ [e]) := by
  have hinv := listsInvariant_run hes
  have hlast : run ListsSession.step .new (es ++ [e]) = (run ListsSession.step .new es).step e := run_append _ _ _
  rw [WaitsForAnswer]
  rw [hlast] at hloading ⊢
  have hflag := waits_step list e hinv
  have hcount := outstanding_step list e hinv he
  by_cases hpending : 0 < outstanding list ((run ListsSession.step .new es).step e)
  · exact Or.inl hpending
  by_cases hanswered : answers list (run ListsSession.step .new es) e = 0
  · -- nothing was asked, so the list waited before
    rw [waits_eq_one.mpr hloading] at hflag
    have hbefore : (run ListsSession.step .new es).loading list = some true := by
      rw [← waits_eq_one]
      have hle : waits list (run ListsSession.step .new es) ≤ 1 := by
        rw [waits]
        split_ifs <;> omega
      omega
    rcases hwaits hbefore with hstill | ⟨es₁, e', es₂, rfl, hrefuses, hall⟩
    · omega
    · refine Or.inr ⟨es₁, e', es₂ ++ [e], by rw [List.append_assoc, List.cons_append], hrefuses, fun es' hes' => ?_⟩
      rcases List.prefix_concat_iff.mp hes' with rfl | hprefix
      · rw [← List.cons_append, ← List.append_assoc, hlast]
        exact hloading
      · exact hall es' hprefix
  · refine Or.inr ⟨es, e, [], rfl, refuses_of_answers hinv he hanswered hloading, fun es' hes' => ?_⟩
    rw [List.prefix_nil.mp hes', hlast]
    exact hloading

theorem waitsForAnswer_run {list : ChatListId} (es : List ListsEvent) (hes : Along ListsSession.step Expected .new es)
    (hloading : (run ListsSession.step .new es).loading list = some true) : WaitsForAnswer list es := by
  induction es using List.reverseRecOn with
  | nil => cases list <;> cases hloading
  | append_singleton es e ih =>
      obtain ⟨hes, he⟩ := (along_append _ _ _).mp hes
      exact waitsForAnswer_append hes he.1 (ih hes) hloading

/-- A list that waits for nothing goes on so. -/
theorem cooldown_step {list : ChatListId} {s : ListsSession} (h : ListsInvariant s) {e : ListsEvent}
    (he : Expected s e) (hrevives : ¬ Revives list e) (hloading : s.loading list = some true)
    (hnone : outstanding list s = 0) : (s.step e).loading list = some true ∧ outstanding list (s.step e) = 0 := by
  have hflag := waits_step list e h
  have hcount := outstanding_step list e h he
  have hasks : asks list s e = 0 := by
    cases e with
    | load list' =>
        refine if_neg fun hboth => ?_
        rw [hloading] at hboth
        cases hboth.2
    | _ => rfl
  have hready : asksReady list s e = 0 := by
    cases e with
    | ready => exact if_neg hrevives
    | _ => rfl
  have hfrees : frees list s e = 0 := by
    cases e with
    | reset list' => exact if_neg fun hboth => hrevives hboth.1
    | clearContent => exact if_neg fun hboth => hrevives hboth.1
    | reply i answer =>
        cases answer with
        | ok =>
            refine if_neg fun hboth => ?_
            have hpos := outstanding_pos hboth.1
            omega
        | _ => rfl
    | _ => rfl
  rw [waits_eq_one.mpr hloading] at hflag
  refine ⟨waits_eq_one.mp (by omega), by omega⟩

end TDLibWrapper

end YaqtLib
