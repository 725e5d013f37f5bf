import YaqtLib.FilteredRows
import YaqtLib.Paging
import YaqtLib.StaleBatches

/-! Paging through the results of a search. The models ask for slices beyond their rows until an end counts as
reached, and an end counts as reached with an answer whose total count is zero; that of a search is the number of all
results. -/

namespace YaqtLib

open Containers IndexMap Runs TdConst Requests MessagesModel JumpableMessagesModel

/-! ### The server -/

/-- The results from a cursor on, the newest first: those before the cursor, with as many after it as a negative offset
asks for. The cursor 0 stands behind the newest one. -/
def searchWindow (history : List QVariantMap) (fromMessageId offset : Int) : List QVariantMap :=
  let newer : Int := if fromMessageId = 0 then 0
    else (history.takeWhile fun message => fromMessageId ≤ messageIdOf message).length
  history.drop (newer + offset).toNat

/-- A correct answer to a search: a page from the cursor on that is empty only if nothing is left, the number of all
results, and the last message of the page as the next cursor, or 0 if nothing is left behind it. -/
structure AnswersSearch (history : List QVariantMap) (fromMessageId limit offset : Int) (a : Slice) : Prop where
  page : a.messages <+: searchWindow history fromMessageId offset
  within : a.messages.length ≤ limit
  progress : searchWindow history fromMessageId offset ≠ [] → a.messages ≠ []
  totalCount : a.totalCount = history.length
  cursor : (∃ last, a.messages.getLast? = some last ∧ a.nextFromMessageId = messageIdOf last) ∨
    a.nextFromMessageId = 0 ∧ a.messages = searchWindow history fromMessageId offset

/-- The server answers the search requests. -/
def Answers (history : List QVariantMap) : Request → Slice → Prop
  | .searchChatMessages _ _ _ fromMessageId _ limit offset, a => AnswersSearch history fromMessageId limit offset a
  | _, _ => False

/-- A search request with room for an answer. -/
def IsSearch : Request → Prop
  | .searchChatMessages _ _ _ _ _ limit _ => 0 < limit
  | _ => False

theorem exists_answer (history : List QVariantMap) {r : Request} (h : IsSearch r) : ∃ a, Answers history r a := by
  cases r with
  | searchChatMessages chatId query extra fromMessageId filter limit offset =>
      have hlimit : 0 < limit := h
      obtain ⟨window, hwindow⟩ : ∃ window, searchWindow history fromMessageId offset = window := ⟨_, rfl⟩
      have hlength : ((window.take limit.toNat).length : Int) ≤ limit := by
        rw [List.length_take]
        omega
      have hprogress : window ≠ [] → window.take limit.toNat ≠ [] := by
        intro hne htake
        rcases List.take_eq_nil_iff.mp htake with hzero | hnil
        · omega
        · exact hne hnil
      cases hlast : (window.take limit.toNat).getLast? with
      | none =>
          have hnil : window.take limit.toNat = [] := List.getLast?_eq_none_iff.mp hlast
          have hwindownil : window = [] := by
            by_contra hne
            exact hprogress hne hnil
          refine ⟨⟨[], history.length, 0⟩, ?_⟩
          subst hwindow
          exact ⟨List.nil_prefix, by simpa using Int.le_of_lt hlimit, fun hne => absurd hwindownil hne, rfl,
            Or.inr ⟨rfl, hwindownil.symm⟩⟩
      | some last =>
          refine ⟨⟨window.take limit.toNat, history.length, messageIdOf last⟩, ?_⟩
          subst hwindow
          exact ⟨List.take_prefix _ _, hlength, hprogress, rfl, Or.inl ⟨last, hlast, rfl⟩⟩
  | getChatHistory | getForumTopicHistory | getChatMessageCount | getChatSponsoredMessages | getMessage
  | viewMessage => exact h.elim

/-- Without any results there is one answer. -/
theorem answer_nil {r : Request} {a : Slice} (h : Answers [] r a) : a.messages = [] ∧ a.totalCount = 0 := by
  cases r with
  | searchChatMessages chatId query extra fromMessageId filter limit offset =>
      have hanswers : AnswersSearch [] fromMessageId limit offset a := h
      have hpage := hanswers.page
      rw [searchWindow, List.drop_nil] at hpage
      exact ⟨List.prefix_nil.mp hpage, hanswers.totalCount⟩
  | getChatHistory | getForumTopicHistory | getChatMessageCount | getChatSponsoredMessages | getMessage
  | viewMessage => exact h.elim

theorem totalCount_answer {history : List QVariantMap} {r : Request} {a : Slice} (h : Answers history r a) :
    a.totalCount = history.length := by
  cases r with
  | searchChatMessages => exact AnswersSearch.totalCount h
  | getChatHistory | getForumTopicHistory | getChatMessageCount | getChatSponsoredMessages | getMessage
  | viewMessage => exact h.elim

/-! ### What an answer does -/

namespace JumpableMessagesModel

variable {Own : Type} [Virtuals Own]

omit [Virtuals Own] in
/-- An answer sets no flag as long as there are results. -/
theorem handlePrepare_of_ne_zero (m : MessagesModel Own) {totalCount : Int} (h : totalCount ≠ 0)
    (fromUpdate : UpdateType) :
    JumpableMessagesModel.handlePrepareMessagesReceived m totalCount fromUpdate = m := by
  unfold JumpableMessagesModel.handlePrepareMessagesReceived
  rw [if_neg h]

/-- The requests that handling a batch sends are those for more of a short first batch. -/
theorem handleMessagesReceived_sends [RequestingVirtuals Own] {R : Request → Prop} {m : MessagesModel Own}
    (hload : ∀ (m' : MessagesModel Own) extra fromMessageId offset, m'.own = m.own →
      OnlyRequests R (Virtuals.loadMessages m' extra fromMessageId offset))
    (fromUpdate : UpdateType) (messages : List QVariantMap) (totalCount : Int) {r : Request}
    (hr : .send r ∈ effects (handleMessagesReceived m fromUpdate messages totalCount).2) : R r := by
  obtain ⟨hmem, hslice⟩ := mem_effects_send.mp hr
  have hprepare : ∀ m' : MessagesModel Own, .request r ∉ (notifyMessagesLoaded m' fromUpdate totalCount).2 := by
    intro m' hrequest
    have hnone := (RequestingVirtuals.handlePrepareMessagesReceived _ totalCount fromUpdate).request hrequest
    rw [hnone] at hslice
    exact absurd hslice Bool.false_ne_true
  rw [handleMessagesReceived] at hmem
  split_ifs at hmem
  · exact absurd hmem (hprepare m)
  · rcases List.mem_append.mp hmem with hinserted | hafter
    · rw [insertionOutput] at hinserted
      split_ifs at hinserted
      · exact absurd hinserted List.not_mem_nil
      · exact absurd (List.mem_singleton.mp hinserted) (by simp)
    · have hown := handleInsertMessages_own m messages
      unfold afterInsertion at hafter
      split at hafter
      · split_ifs at hafter
        · have hmore := hload ((m.handleInsertMessages messages).1.setWaitingFor .updateReload true)
          exact (hmore _ _ _ hown).request hafter
        · exact absurd hafter (hprepare _)
      · exact absurd hafter (hprepare _)
  · exact absurd hmem List.not_mem_nil

end JumpableMessagesModel

/-! ### Invariants of paging -/

section Invariants

variable {Own : Type} {x : Exchange (MessagesModel Own) Request}

/-- A search whose start is open. -/
structure Unfinished (K : Own → Prop) (x : Exchange (MessagesModel Own) Request) : Prop where
  startReached : x.client.startReached = false
  members : K x.client.own
  pending : ∀ t ∈ x.pending, IsSearch t.request

theorem Unfinished.after {K : Own → Prop} (hx : Unfinished K x)
    {result : MessagesModel Own × List (Effect Request (List MessageData))} (hstart : result.1.startReached = false)
    (hmembers : K result.1.own) (hsent : ∀ r, .send r ∈ result.2 → IsSearch r) : Unfinished K (x.after result) := by
  refine ⟨?_, ?_, fun t ht => ?_⟩
  · rwa [Exchange.client_after]
  · rwa [Exchange.client_after]
  · exact (Exchange.mem_pending_after ht).elim (hx.pending t) (hsent t.request)

theorem Unfinished.eraseIdx {K : Own → Prop} (hx : Unfinished K x) (i : Nat) :
    Unfinished K { x with pending := x.pending.eraseIdx i } :=
  ⟨hx.startReached, hx.members, fun t ht => hx.pending t (List.mem_of_mem_eraseIdx ht)⟩

/-- The first request of a search. -/
def AsksInitially (chatId : Int) (filter : SearchMessagesFilter) (r : Request) : Prop :=
  ∃ query fromMessageId limit offset,
    r = .searchChatMessages chatId query .updateInitial fromMessageId filter limit offset

/-- A search that finds nothing: the answer to its first request, or its count, says so. -/
structure FindsNothing (filterOf : Own → SearchMessagesFilter) (x : Exchange (MessagesModel Own) Request) : Prop where
  messages : x.client.messages = []
  pending : ∀ t ∈ x.pending, AsksInitially x.client.chatId (filterOf x.client.own) t.request
  reached : x.pending = [] → x.client.startReached = true ∧ x.client.endReached = true

variable {filterOf : Own → SearchMessagesFilter}

/-- The search was answered. -/
theorem FindsNothing.answered (hx : FindsNothing filterOf x) (i : Nat)
    {result : MessagesModel Own × List (Effect Request (List MessageData))} (hmessages : result.1.messages = [])
    (hchat : result.1.chatId = x.client.chatId) (hfilter : filterOf result.1.own = filterOf x.client.own)
    (hreached : result.1.startReached = true ∧ result.1.endReached = true) (hsent : sends result.2 = 0) :
    FindsNothing filterOf ({ x with pending := x.pending.eraseIdx i }.after result) := by
  refine ⟨?_, fun t ht => ?_, fun _ => ?_⟩
  · rwa [Exchange.client_after]
  · rw [Exchange.client_after, hchat, hfilter]
    rcases Exchange.mem_pending_after ht with hold | hnew
    · exact hx.pending t (List.mem_of_mem_eraseIdx hold)
    · exact absurd hnew (sends_eq_zero.mp hsent t.request)
  · rwa [Exchange.client_after]

/-- Without rows the calls that load more do nothing. -/
theorem loadMoreHistory_of_empty [Virtuals Own] {m : MessagesModel Own} (h : m.messages = []) :
    loadMoreHistory m = (m, []) := by
  rw [loadMoreHistory, h]
  simp

theorem loadMoreFuture_of_empty [Virtuals Own] {m : MessagesModel Own} (h : m.messages = []) :
    loadMoreFuture m = (m, []) := by
  rw [loadMoreFuture, h]
  simp

/-- A call for more of nothing. -/
theorem FindsNothing.called [Virtuals Own] {κ α : Type}
    {C : Client (MessagesModel Own) κ Request α (List MessageData)} (hx : FindsNothing filterOf x) {c : κ}
    (hcall : C.call x.client c = ((loadMoreHistory x.client).1, effects (loadMoreHistory x.client).2) ∨
      C.call x.client c = ((loadMoreFuture x.client).1, effects (loadMoreFuture x.client).2)) :
    FindsNothing filterOf (C.step x (.call c)) ∧ sends (C.effectsOf x (.call c)) = 0 := by
  have hnothing : C.call x.client c = (x.client, []) := by
    rcases hcall with heq | heq
    · rw [heq, loadMoreHistory_of_empty hx.messages]
      rfl
    · rw [heq, loadMoreFuture_of_empty hx.messages]
      rfl
  rw [Client.step, Client.effectsOf, hnothing]
  exact ⟨hx, rfl⟩

/-- The two directions of paging, for a client that is unfinished as long as there are results, and that asks for
nothing more once there are none. -/
theorem pages_iff_nil {κ : Type} {C : Client (MessagesModel Own) κ Request Slice (List MessageData)} {back forth : κ}
    {K : Own → Prop} {history : List QVariantMap}
    (hunfinished : history ≠ [] → Unfinished K x ∧ ∀ x move, Unfinished K x →
      Client.Serves back (Answers history) x move → Unfinished K (C.step x move))
    (hnothing : history = [] → FindsNothing filterOf x ∧ ∀ call, call = back ∨ call = forth → ∀ x move,
      FindsNothing filterOf x → Client.Serves call (Answers []) x move →
        FindsNothing filterOf (C.step x move) ∧ sends (C.effectsOf x move) = 0) :
    C.Terminates back (Answers history)
        (fun m => m.startReached = true ∧ ∀ message ∈ history, messageIdOf message ∈ m.ids) x ∧
      C.Terminates forth (Answers history) (fun m => m.endReached = true) x ↔ history = [] := by
  constructor
  · rintro ⟨hback, -⟩
    by_contra hne
    obtain ⟨hstart, hstep⟩ := hunfinished hne
    refine Client.not_terminates hstep (fun x hx t ht => exists_answer history (hx.pending t ht))
      (fun x hx hdone => ?_) hstart hback
    exact Bool.false_ne_true (hx.startReached.symm.trans hdone.1)
  · rintro rfl
    obtain ⟨hstart, hstep⟩ := hnothing rfl
    refine ⟨?_, ?_⟩
    · refine Client.Terminates.of_silent (hstep back (Or.inl rfl)) (fun x hx hnil => ?_) hstart
      exact ⟨(hx.reached hnil).1, fun message hmem => absurd hmem List.not_mem_nil⟩
    · exact Client.Terminates.of_silent (hstep forth (Or.inr rfl)) (fun x hx hnil => (hx.reached hnil).2) hstart

/-- An answer without messages, of a search that has no results. -/
theorem handleMessagesReceived_nothing [Virtuals Own] (m : MessagesModel Own) :
    handleMessagesReceived m .updateInitial [] 0 =
      ((Virtuals.handlePrepareMessagesReceived (m.setWaitingFor .updateInitial false) 0 .updateInitial).1.setWaitingFor
          .updateInitial false,
        (Virtuals.handlePrepareMessagesReceived (m.setWaitingFor .updateInitial false) 0 .updateInitial).2) := rfl

end Invariants

/-! ### Chats -/

namespace ChatMessagesModel

/-- A search is entered in the chat, whatever it shows. -/
def searching (m : ChatMessagesModel) (query : String) : Exchange ChatMessagesModel Request :=
  client.step (.start m) (.call ⟨.setSearchQuery query, rfl⟩)

/-- Paging back through the results: repeated `loadMoreHistory` comes to an end at the start, with everything loaded. -/
def PagesBack (history : List QVariantMap) : Exchange ChatMessagesModel Request → Prop :=
  client.Terminates ⟨.loadMoreHistory, rfl⟩ (Answers history) fun m =>
    m.startReached = true ∧ ∀ message ∈ history, messageIdOf message ∈ m.ids

/-- Paging on through the results: repeated `loadMoreFuture` comes to an end at the end. -/
def PagesOn (history : List QVariantMap) : Exchange ChatMessagesModel Request → Prop :=
  client.Terminates ⟨.loadMoreFuture, rfl⟩ (Answers history) fun m => m.endReached = true

/-- What the members of a chat say in a search. -/
def InSearch (own : ChatMembers) : Prop := own.containsSponsoredMessages = false ∧ own.searchQuery ≠ ""

theorem loadMessages_search {m : ChatMessagesModel} (hquery : m.own.searchQuery ≠ "") (extra : UpdateType)
    (fromMessageId offset : Int) : OnlyRequests IsSearch (loadMessages m extra fromMessageId offset) := by
  rw [loadMessages, if_neg hquery]
  exact .singleton (by decide : (0 : Int) < 50)

/-- An answer to a search leaves the start open as long as there are results. -/
theorem handleMessagesReceived_searching {m : ChatMessagesModel} (hstart : m.startReached = false)
    (hplain : m.own.containsSponsoredMessages = false) (fromUpdate : UpdateType) (messages : List QVariantMap)
    {totalCount : Int} (htotal : totalCount ≠ 0) :
    (JumpableMessagesModel.handleMessagesReceived m fromUpdate messages totalCount).1.startReached = false ∧
      (JumpableMessagesModel.handleMessagesReceived m fromUpdate messages totalCount).1.own = m.own := by
  have hends : InsertsAtEnds m := PlainReadable.insertsAtEnds hplain
  have hmembers := withBatch_sameMembers hends fromUpdate messages
  refine @handleMessagesReceived_of _ _ (fun m' => m'.startReached = false ∧ m'.own = m.own) m _ _ _
    (fun _ h => h) ⟨hmembers.startReached.trans hstart, hmembers.own⟩ fun _ waitingFor => ?_
  have hplain' : (withBatch m fromUpdate messages).own.containsSponsoredMessages = false := by rwa [hmembers.own]
  rw [PlainReadable.handlePrepare_eq totalCount fromUpdate hplain']
  unfold ReadableMessagesModel.handlePrepareMessagesReceived
  rw [handlePrepare_of_ne_zero _ htotal]
  split_ifs
  · exact ⟨hmembers.startReached.trans hstart, hmembers.own⟩
  · exact ⟨hmembers.startReached.trans hstart, hmembers.own⟩

theorem unfinished_step {history : List QVariantMap} (hne : history ≠ []) (x : Exchange ChatMessagesModel Request)
    (move : Move { e : Event // e.bringsSlice = false } Slice) (hx : Unfinished InSearch x)
    (hserves : Client.Serves ⟨.loadMoreHistory, rfl⟩ (Answers history) x move) :
    Unfinished InSearch (client.step x move) := by
  cases move with
  | call c =>
      obtain rfl : c = ⟨.loadMoreHistory, rfl⟩ := hserves
      change Unfinished InSearch (x.after ((loadMoreHistory x.client).1, effects (loadMoreHistory x.client).2))
      rw [loadMoreHistory]
      split_ifs
      · refine hx.after hx.startReached hx.members fun r hr => ?_
        exact (loadMessages_search hx.members.2 _ _ _).request (mem_effects_send.mp hr).1
      · exact hx.after hx.startReached hx.members fun r hr => absurd hr List.not_mem_nil
  | answer i a =>
      obtain ⟨t, ht, ha⟩ := hserves
      have htotal : a.totalCount ≠ 0 := by
        rw [totalCount_answer ha]
        exact_mod_cast fun h => hne (List.length_eq_zero_iff.mp h)
      rw [Client.step, ht]
      dsimp only
      cases hr : t.request with
      | searchChatMessages chatId query extra fromMessageId filter limit offset =>
          change Unfinished InSearch (Exchange.after _
            ((handleFoundChatMessagesReceived x.client chatId filter extra a.messages a.totalCount).1,
              effects (handleFoundChatMessagesReceived x.client chatId filter extra a.messages a.totalCount).2))
          rw [handleFoundChatMessagesReceived]
          split_ifs
          · have hsearching := handleMessagesReceived_searching hx.startReached hx.members.1 extra a.messages htotal
            refine (hx.eraseIdx i).after hsearching.1 (hsearching.2 ▸ hx.members) fun r hsent => ?_
            refine handleMessagesReceived_sends (fun m' extra fromMessageId offset hown => ?_) extra a.messages
              a.totalCount hsent
            exact loadMessages_search (hown ▸ hx.members.2) extra fromMessageId offset
          · exact (hx.eraseIdx i).after hx.startReached hx.members fun r hsent => absurd hsent List.not_mem_nil
      | getChatHistory | getForumTopicHistory | getChatMessageCount | getChatSponsoredMessages | getMessage
      | viewMessage =>
          have hsearch := hx.pending t (List.mem_of_getElem? ht)
          rw [hr] at hsearch
          exact hsearch.elim

theorem searching_eq {m : ChatMessagesModel} {query : String} (hchanged : m.own.searchQuery ≠ query)
    (hquery : query ≠ "") : searching m query =
      { client :=
          { (JumpableMessagesModel.clear m).1 with
            own := { (JumpableMessagesModel.clear m).1.own with searchQuery := query } }
        generation := 1
        pending := [⟨.searchChatMessages m.chatId query .updateInitial 0 .empty 50 0, 1⟩] } := by
  have hcall : client.call m ⟨.setSearchQuery query, rfl⟩ =
      ((setSearchQuery m query).1, effects (setSearchQuery m query).2) := rfl
  have hchat : m.clear.chatId = m.chatId := by
    rw [MessagesModel.clear]
    split_ifs <;> rfl
  rw [searching, Client.step, Exchange.start]
  dsimp only
  rw [hcall, setSearchQuery, if_pos hchanged]
  dsimp only
  rw [loadMessages, if_neg hquery, if_neg hquery, ← hchat]
  rfl

theorem unfinished_searching {m : ChatMessagesModel} {query : String} (hchanged : m.own.searchQuery ≠ query)
    (hquery : query ≠ "") : Unfinished InSearch (searching m query) := by
  rw [searching_eq hchanged hquery]
  refine ⟨rfl, ⟨rfl, hquery⟩, fun t ht => ?_⟩
  rw [List.mem_singleton.mp ht]
  exact (by decide : (0 : Int) < 50)

theorem findsNothing_searching {m : ChatMessagesModel} {query : String} (hchanged : m.own.searchQuery ≠ query)
    (hquery : query ≠ "") : FindsNothing (fun _ => .empty) (searching m query) := by
  rw [searching_eq hchanged hquery]
  refine ⟨messages_clear m, fun t ht => ?_, fun h => absurd h (List.cons_ne_nil _ _)⟩
  have hchat : m.clear.chatId = m.chatId := by
    rw [MessagesModel.clear]
    split_ifs <;> rfl
  rw [List.mem_singleton.mp ht]
  refine ⟨query, 0, 50, 0, ?_⟩
  rw [← hchat]
  rfl

/-- What the answer of a search without results does. -/
theorem handlePrepare_nothing (m : ChatMessagesModel) :
    (handlePrepareMessagesReceived m 0 .updateInitial).1.messages = m.messages ∧
      (handlePrepareMessagesReceived m 0 .updateInitial).1.chatId = m.chatId ∧
      (handlePrepareMessagesReceived m 0 .updateInitial).1.startReached = true ∧
      (handlePrepareMessagesReceived m 0 .updateInitial).1.endReached = true := by
  rw [handlePrepareMessagesReceived, insertPendingSponsoredMessages]
  dsimp only
  rw [if_neg fun h => absurd h.1 (by decide)]
  unfold ReadableMessagesModel.handlePrepareMessagesReceived
  split_ifs
  · exact ⟨rfl, rfl, rfl, rfl⟩
  · exact ⟨rfl, rfl, rfl, rfl⟩

theorem findsNothing_step {call : { e : Event // e.bringsSlice = false }}
    (hcall : call.1 = .loadMoreHistory ∨ call.1 = .loadMoreFuture) (x : Exchange ChatMessagesModel Request)
    (move : Move { e : Event // e.bringsSlice = false } Slice) (hx : FindsNothing (fun _ => .empty) x)
    (hserves : Client.Serves call (Answers []) x move) :
    FindsNothing (fun _ => .empty) (client.step x move) ∧ sends (client.effectsOf x move) = 0 := by
  cases move with
  | call c =>
      obtain rfl : c = call := hserves
      obtain ⟨e, he⟩ := c
      rcases hcall with rfl | rfl
      · exact hx.called (Or.inl rfl)
      · exact hx.called (Or.inr rfl)
  | answer i a =>
      obtain ⟨t, ht, ha⟩ := hserves
      obtain ⟨query, fromMessageId, limit, offset, hr⟩ := hx.pending t (List.mem_of_getElem? ht)
      obtain ⟨hmessages, htotal⟩ := answer_nil ha
      have hanswer : client.answer x.client t.request a =
          ((JumpableMessagesModel.handleMessagesReceived x.client .updateInitial [] 0).1,
            effects (JumpableMessagesModel.handleMessagesReceived x.client .updateInitial [] 0).2) := by
        rw [hr]
        change ((handleFoundChatMessagesReceived x.client x.client.chatId .empty .updateInitial a.messages
            a.totalCount).1, effects (handleFoundChatMessagesReceived x.client x.client.chatId .empty .updateInitial
            a.messages a.totalCount).2) = _
        rw [handleFoundChatMessagesReceived, if_pos ⟨rfl, rfl⟩, hmessages, htotal]
      have hprepare := handlePrepare_nothing (x.client.setWaitingFor .updateInitial false)
      have hsent : sends (client.answer x.client t.request a).2 = 0 := by
        rw [hanswer, handleMessagesReceived_nothing]
        refine sends_eq_zero.mpr fun r hr => ?_
        obtain ⟨hmem, hslice⟩ := mem_effects_send.mp hr
        rw [(handlePrepare_requests _ 0 .updateInitial).request hmem] at hslice
        exact absurd hslice Bool.false_ne_true
      rw [Client.step, Client.effectsOf, ht]
      dsimp only
      refine ⟨hx.answered i ?_ ?_ rfl ?_ hsent, hsent⟩
      · rw [hanswer, handleMessagesReceived_nothing]
        exact hprepare.1.trans hx.messages
      · rw [hanswer, handleMessagesReceived_nothing]
        exact hprepare.2.1
      · rw [hanswer, handleMessagesReceived_nothing]
        exact hprepare.2.2

/-- The pages of a search in a chat come to an end exactly if it finds nothing. -/
theorem pages_searching_iff (history : List QVariantMap) {m : ChatMessagesModel} {query : String}
    (hchanged : m.own.searchQuery ≠ query) (hquery : query ≠ "") :
    PagesBack history (searching m query) ∧ PagesOn history (searching m query) ↔ history = [] := by
  refine pages_iff_nil (fun hne => ⟨unfinished_searching hchanged hquery, unfinished_step hne⟩) fun _ =>
    ⟨findsNothing_searching hchanged hquery, fun call hcall => findsNothing_step ?_⟩
  rcases hcall with rfl | rfl
  · exact Or.inl rfl
  · exact Or.inr rfl

end ChatMessagesModel

/-! ### Media models -/

namespace MediaMessagesModel

/-- A media model is opened at a message or at the newest one, whatever it shows; if it asks for the number of its
messages first, that comes in. -/
def opened (history : List QVariantMap) (m : MediaMessagesModel) (chatId fromMessageId : Int) (checkCount : Bool) :
    Exchange MediaMessagesModel Request :=
  let x := client.step (.start m) (.call ⟨.init chatId fromMessageId checkCount true, rfl⟩)
  if checkCount && m.own.searchMessagesFilter != .empty && fromMessageId == 0 then
    client.step x (.call ⟨.chatMessageCountReceived history.length chatId m.own.searchMessagesFilter, rfl⟩)
  else x

/-- Paging back through the messages: repeated `loadMoreHistory` comes to an end at the start, with everything
loaded. -/
def PagesBack (history : List QVariantMap) : Exchange MediaMessagesModel Request → Prop :=
  client.Terminates ⟨.loadMoreHistory, rfl⟩ (Answers history) fun m =>
    m.startReached = true ∧ ∀ message ∈ history, messageIdOf message ∈ m.ids

/-- Paging on through the messages: repeated `loadMoreFuture` comes to an end at the end. -/
def PagesOn (history : List QVariantMap) : Exchange MediaMessagesModel Request → Prop :=
  client.Terminates ⟨.loadMoreFuture, rfl⟩ (Answers history) fun m => m.endReached = true

theorem loadMessages_search (m : MediaMessagesModel) (extra : UpdateType) (fromMessageId offset : Int) {limit : Int}
    (hlimit : 0 < limit) : OnlyRequests IsSearch (loadMessagesWithLimit m extra fromMessageId offset limit) :=
  .singleton hlimit

theorem startReached_updateTotalCount (m : MediaMessagesModel) (count : Int) :
    (updateTotalCount m count).startReached = m.startReached := by
  obtain ⟨totalCount, heq⟩ := updateTotalCount_eq m count
  rw [heq]

/-- An answer leaves the start open as long as there are messages. -/
theorem handleMessagesReceived_opened {m : MediaMessagesModel} (hstart : m.startReached = false)
    (fromUpdate : UpdateType) (messages : List QVariantMap) {totalCount : Int} (htotal : totalCount ≠ 0) :
    (JumpableMessagesModel.handleMessagesReceived m fromUpdate messages totalCount).1.startReached = false := by
  have hbatch := (withBatch_sameMembers (insertsAtEnds m) fromUpdate messages).startReached.trans hstart
  refine @handleMessagesReceived_of _ _ (fun m' => m'.startReached = false) m _ _ _ (fun _ h => h) hbatch
    fun _ waitingFor => ?_
  change (JumpableMessagesModel.handlePrepareMessagesReceived (updateTotalCount _ totalCount) totalCount
    fromUpdate).startReached = false
  rw [handlePrepare_of_ne_zero _ htotal, startReached_updateTotalCount]
  exact hbatch

theorem unfinished_step {history : List QVariantMap} (hne : history ≠ []) (x : Exchange MediaMessagesModel Request)
    (move : Move { e : Event // e.bringsSlice = false } Slice) (hx : Unfinished (fun _ => True) x)
    (hserves : Client.Serves ⟨.loadMoreHistory, rfl⟩ (Answers history) x move) :
    Unfinished (fun _ => True) (client.step x move) := by
  cases move with
  | call c =>
      obtain rfl : c = ⟨.loadMoreHistory, rfl⟩ := hserves
      change Unfinished _ (x.after ((loadMoreHistory x.client).1, effects (loadMoreHistory x.client).2))
      rw [loadMoreHistory]
      split_ifs
      · refine hx.after hx.startReached trivial fun r hr => ?_
        exact (loadMessages_search _ _ _ _ (by decide : (0 : Int) < 100)).request (mem_effects_send.mp hr).1
      · exact hx.after hx.startReached trivial fun r hr => absurd hr List.not_mem_nil
  | answer i a =>
      obtain ⟨t, ht, ha⟩ := hserves
      have htotal : a.totalCount ≠ 0 := by
        rw [totalCount_answer ha]
        exact_mod_cast fun h => hne (List.length_eq_zero_iff.mp h)
      rw [Client.step, ht]
      dsimp only
      cases hr : t.request with
      | searchChatMessages chatId query extra fromMessageId filter limit offset =>
          change Unfinished _ (Exchange.after _
            ((handleMessagesReceived x.client chatId filter extra a.messages a.totalCount a.nextFromMessageId).1,
              effects (handleMessagesReceived x.client chatId filter extra a.messages a.totalCount
                a.nextFromMessageId).2))
          rw [handleMessagesReceived]
          split_ifs
          · refine (hx.eraseIdx i).after ?_ trivial fun r hsent => ?_
            · dsimp only
              rw [startReached_updateTotalCount]
              exact handleMessagesReceived_opened hx.startReached extra a.messages htotal
            · refine handleMessagesReceived_sends (fun m' extra fromMessageId offset _ => ?_) extra a.messages
                a.totalCount hsent
              exact loadMessages_search m' extra fromMessageId offset (by decide)
          · exact (hx.eraseIdx i).after hx.startReached trivial fun r hsent => absurd hsent List.not_mem_nil
      | getChatHistory | getForumTopicHistory | getChatMessageCount | getChatSponsoredMessages | getMessage
      | viewMessage =>
          have hsearch := hx.pending t (List.mem_of_getElem? ht)
          rw [hr] at hsearch
          exact hsearch.elim

/-- The model without its rows that has been opened. -/
def atOpening (m : MediaMessagesModel) (chatId fromMessageId : Int) : MediaMessagesModel :=
  { (JumpableMessagesModel.clear m).1 with chatId := chatId, highlightedMessageId := fromMessageId }

/-- The model asks for its messages at once, or the number of them has come in. -/
theorem opened_cases (history : List QVariantMap) (m : MediaMessagesModel) (chatId fromMessageId : Int)
    (checkCount : Bool) :
    opened history m chatId fromMessageId checkCount =
      { client := atOpening m chatId fromMessageId, generation := 1, pending := [⟨.searchChatMessages chatId m.own.query
        .updateInitial fromMessageId m.own.searchMessagesFilter 32 (-16), 1⟩] } ∨
    opened history m chatId fromMessageId checkCount =
      client.step { client := atOpening m chatId fromMessageId, generation := 1, pending := [] }
        (.call ⟨.chatMessageCountReceived history.length chatId m.own.searchMessagesFilter, rfl⟩) := by
  have hcall : client.call m ⟨.init chatId fromMessageId checkCount true, rfl⟩ =
      (atOpening m chatId fromMessageId, effects (.cleared ::
        if !checkCount || m.own.searchMessagesFilter == .empty || fromMessageId != 0 then
          [.request (.searchChatMessages chatId m.own.query .updateInitial fromMessageId m.own.searchMessagesFilter 32
            (-16))]
        else [.request (.getChatMessageCount chatId m.own.searchMessagesFilter)])) := rfl
  have hneg : (checkCount && m.own.searchMessagesFilter != .empty && fromMessageId == 0) =
      !(!checkCount || m.own.searchMessagesFilter == .empty || fromMessageId != 0) := by
    cases checkCount <;> simp [bne]
  unfold opened
  rw [hneg]
  generalize (!checkCount || m.own.searchMessagesFilter == .empty || fromMessageId != 0) = asks at hcall ⊢
  have hopened : client.step (.start m) (.call ⟨.init chatId fromMessageId checkCount true, rfl⟩) =
      (Exchange.start m).after (client.call m ⟨.init chatId fromMessageId checkCount true, rfl⟩) := rfl
  rw [hopened, hcall]
  cases asks with
  | true => exact Or.inl rfl
  | false => exact Or.inr rfl

/-- The number of messages comes in: an empty model is complete, and another one asks for its messages. -/
theorem countReceived_atOpening (m : MediaMessagesModel) (chatId fromMessageId count : Int) :
    handleChatMessageCountReceived (atOpening m chatId fromMessageId) count chatId m.own.searchMessagesFilter =
      if count = 0 then
        ({ updateTotalCount (atOpening m chatId fromMessageId) count with endReached := true, startReached := true },
          [])
      else ({ updateTotalCount (atOpening m chatId fromMessageId) count with endReached := true },
        loadMessages { updateTotalCount (atOpening m chatId fromMessageId) count with endReached := true }
          .updateInitial 0 0) := by
  have hloading : JumpableMessagesModel.loading (updateTotalCount (atOpening m chatId fromMessageId) count) = true := by
    have hrows : (atOpening m chatId fromMessageId).messages = [] := messages_clear m
    rw [JumpableMessagesModel.loading, updateTotalCount]
    split_ifs
    · dsimp only
      rw [hrows]
      rfl
    · rw [hrows]
      rfl
  rw [handleChatMessageCountReceived, if_pos ⟨rfl, rfl⟩]
  dsimp only
  rw [if_pos hloading]

theorem unfinished_opened {history : List QVariantMap} (hne : history ≠ []) (m : MediaMessagesModel)
    (chatId fromMessageId : Int) (checkCount : Bool) :
    Unfinished (fun _ => True) (opened history m chatId fromMessageId checkCount) := by
  rcases opened_cases history m chatId fromMessageId checkCount with heq | heq
  · rw [heq]
    refine ⟨rfl, trivial, fun t ht => ?_⟩
    rw [List.mem_singleton.mp ht]
    exact (by decide : (0 : Int) < 32)
  · have hcount : (history.length : Int) ≠ 0 := by
      exact_mod_cast fun h => hne (List.length_eq_zero_iff.mp h)
    have hopening : Unfinished (fun _ => True)
        { client := atOpening m chatId fromMessageId, generation := 1, pending := [] } :=
      ⟨rfl, trivial, fun t ht => absurd ht List.not_mem_nil⟩
    rw [heq]
    change Unfinished _ (Exchange.after _
      ((handleChatMessageCountReceived (atOpening m chatId fromMessageId) history.length chatId
          m.own.searchMessagesFilter).1,
        effects (handleChatMessageCountReceived (atOpening m chatId fromMessageId) history.length chatId
          m.own.searchMessagesFilter).2))
    rw [countReceived_atOpening, if_neg hcount]
    refine hopening.after ?_ trivial fun r hr => ?_
    · exact startReached_updateTotalCount _ _
    · exact (loadMessages_search _ _ _ _ (by decide : (0 : Int) < 100)).request (mem_effects_send.mp hr).1

theorem findsNothing_opened (m : MediaMessagesModel) (chatId fromMessageId : Int) (checkCount : Bool) :
    FindsNothing MediaMembers.searchMessagesFilter (opened [] m chatId fromMessageId checkCount) := by
  have hrows : (atOpening m chatId fromMessageId).messages = [] := messages_clear m
  rcases opened_cases [] m chatId fromMessageId checkCount with heq | heq
  · rw [heq]
    refine ⟨hrows, fun t ht => ?_, fun h => absurd h (List.cons_ne_nil _ _)⟩
    rw [List.mem_singleton.mp ht]
    exact ⟨m.own.query, fromMessageId, 32, -16, rfl⟩
  · rw [heq]
    change FindsNothing _ (Exchange.after _
      ((handleChatMessageCountReceived (atOpening m chatId fromMessageId) 0 chatId m.own.searchMessagesFilter).1,
        effects (handleChatMessageCountReceived (atOpening m chatId fromMessageId) 0 chatId
          m.own.searchMessagesFilter).2))
    rw [countReceived_atOpening, if_pos rfl]
    refine ⟨?_, fun t ht => absurd ht List.not_mem_nil, fun _ => ⟨rfl, rfl⟩⟩
    change (updateTotalCount (atOpening m chatId fromMessageId) 0).messages = []
    rw [updateTotalCount]
    split_ifs
    · exact hrows
    · exact hrows

/-- What the answer of a search without results does. -/
theorem handleMessagesReceived_nothing (m : MediaMessagesModel) (nextFromMessageId : Int) (m' : MediaMessagesModel)
    (h : m' = (handleMessagesReceived m m.chatId m.own.searchMessagesFilter .updateInitial [] 0 nextFromMessageId).1) :
    m'.messages = m.messages ∧ m'.chatId = m.chatId ∧ m'.own.searchMessagesFilter = m.own.searchMessagesFilter ∧
      m'.startReached = true ∧ m'.endReached = true := by
  have hrows := handleMessagesReceived_rows (preparesFlags m.own) .updateInitial [] 0
  have hfilter := filter_handleMessagesReceived m .updateInitial [] 0
  have hstart : (JumpableMessagesModel.handleMessagesReceived m .updateInitial [] 0).1.startReached = true := rfl
  have hend : (JumpableMessagesModel.handleMessagesReceived m .updateInitial [] 0).1.endReached = true := rfl
  have hnil : withBatch m .updateInitial [] = m := by rw [withBatch, handleInsertMessages_nil, ite_self]
  rw [handleMessagesReceived, if_pos ⟨rfl, rfl⟩] at h
  generalize JumpableMessagesModel.handleMessagesReceived m .updateInitial [] 0 = result at h hrows hfilter hstart hend
  obtain ⟨totalCount, heq⟩ := updateTotalCount_eq
    { result.1 with own := { result.1.own with nextFromMessageId := nextFromMessageId } } 0
  dsimp only at h
  rw [h, heq]
  exact ⟨hrows.rows.trans (congrArg _ hnil), hrows.chatId.trans (congrArg _ hnil), hfilter, hstart, hend⟩

theorem findsNothing_step {call : { e : Event // e.bringsSlice = false }}
    (hcall : call.1 = .loadMoreHistory ∨ call.1 = .loadMoreFuture) (x : Exchange MediaMessagesModel Request)
    (move : Move { e : Event // e.bringsSlice = false } Slice) (hx : FindsNothing MediaMembers.searchMessagesFilter x)
    (hserves : Client.Serves call (Answers []) x move) :
    FindsNothing MediaMembers.searchMessagesFilter (client.step x move) ∧ sends (client.effectsOf x move) = 0 := by
  cases move with
  | call c =>
      obtain rfl : c = call := hserves
      obtain ⟨e, he⟩ := c
      rcases hcall with rfl | rfl
      · exact hx.called (Or.inl rfl)
      · exact hx.called (Or.inr rfl)
  | answer i a =>
      obtain ⟨t, ht, ha⟩ := hserves
      obtain ⟨query, fromMessageId, limit, offset, hr⟩ := hx.pending t (List.mem_of_getElem? ht)
      obtain ⟨hmessages, htotal⟩ := answer_nil ha
      have hanswer : client.answer x.client t.request a =
          ((handleMessagesReceived x.client x.client.chatId x.client.own.searchMessagesFilter .updateInitial [] 0
              a.nextFromMessageId).1,
            effects (handleMessagesReceived x.client x.client.chatId x.client.own.searchMessagesFilter .updateInitial []
              0 a.nextFromMessageId).2) := by
        rw [hr, ← hmessages, ← htotal]
        rfl
      have hresult := handleMessagesReceived_nothing x.client a.nextFromMessageId _ rfl
      have hsent : sends (client.answer x.client t.request a).2 = 0 := by
        rw [hanswer, handleMessagesReceived, if_pos ⟨rfl, rfl⟩]
        rfl
      rw [Client.step, Client.effectsOf, ht]
      dsimp only
      rw [hanswer] at hsent ⊢
      exact ⟨hx.answered i (hresult.1.trans hx.messages) hresult.2.1 hresult.2.2.1 hresult.2.2.2 hsent, hsent⟩

/-- The pages of a media model come to an end exactly if there are none. -/
theorem pages_opened_iff (history : List QVariantMap) (m : MediaMessagesModel) (chatId fromMessageId : Int)
    (checkCount : Bool) :
    PagesBack history (opened history m chatId fromMessageId checkCount) ∧
      PagesOn history (opened history m chatId fromMessageId checkCount) ↔ history = [] := by
  refine pages_iff_nil
    (fun hne => ⟨unfinished_opened hne m chatId fromMessageId checkCount, unfinished_step hne⟩) fun hnil =>
      ⟨?_, fun call hcall => findsNothing_step ?_⟩
  · rw [hnil]
    exact findsNothing_opened m chatId fromMessageId checkCount
  · rcases hcall with rfl | rfl
    · exact Or.inl rfl
    · exact Or.inr rfl

end MediaMessagesModel

open MediaMessagesModel (opened videoOf)

/-- **Paging.** Repeated calls for more come to an end in both directions, at the flags and with everything loaded,
exactly if the search finds nothing: the total count of a search is never zero otherwise. -/
theorem pages_iff (history : List QVariantMap) :
    (∀ (m : ChatMessagesModel) (query : String), m.own.searchQuery ≠ query → query ≠ "" →
      (ChatMessagesModel.PagesBack history (m.searching query) ∧
        ChatMessagesModel.PagesOn history (m.searching query) ↔ history = [])) ∧
    (∀ (m : MediaMessagesModel) (chatId fromMessageId : Int) (checkCount : Bool),
      MediaMessagesModel.PagesBack history (opened history m chatId fromMessageId checkCount) ∧
        MediaMessagesModel.PagesOn history (opened history m chatId fromMessageId checkCount) ↔ history = []) :=
  ⟨fun _ _ hchanged hquery => ChatMessagesModel.pages_searching_iff history hchanged hquery,
    fun m chatId fromMessageId checkCount =>
      MediaMessagesModel.pages_opened_iff history m chatId fromMessageId checkCount⟩

theorem pages_iff_nothing :
    ChatMessagesModel.PagesBack [] ((ChatMessagesModel.new 7 []).searching "a") ∧
      ¬ (ChatMessagesModel.PagesBack [messageOf 7 5] ((ChatMessagesModel.new 7 []).searching "a") ∧
        ChatMessagesModel.PagesOn [messageOf 7 5] ((ChatMessagesModel.new 7 []).searching "a")) := by
  refine ⟨(((pages_iff []).1 (ChatMessagesModel.new 7 []) "a" (by decide) (by decide)).mpr rfl).1, fun h => ?_⟩
  exact absurd (((pages_iff [messageOf 7 5]).1 (ChatMessagesModel.new 7 []) "a" (by decide) (by decide)).mp h)
    (List.cons_ne_nil _ _)

/-- In a chat with one video the start of the videos never counts as reached. -/
theorem not_pages :
    ¬ (MediaMessagesModel.PagesBack [videoOf 7 5] (opened [videoOf 7 5] (.new false .video) 7 0 false) ∧
      MediaMessagesModel.PagesOn [videoOf 7 5] (opened [videoOf 7 5] (.new false .video) 7 0 false)) := by
  rw [MediaMessagesModel.pages_opened_iff]
  exact List.cons_ne_nil _ _

end YaqtLib
