import YaqtLib.ContactsModel
import YaqtLib.Requests

/-! The list of contacts under a query (`contactsmodel.cpp`), while the replies to its requests come in any order, with
those to the requests of other objects among them, and users are added to the contacts and removed. -/

namespace YaqtLib

open Requests Runs

namespace ContactsListModel

inductive Call where
  | setQuery (newQuery : String)
  | userIsContactUpdated (userId : Int) (isContact : Bool)
  | usersReceived (extra : String) (userIds : QVariantList)

/-- A list that starts over with each new query. -/
def client : Client ContactsListModel Call Request QVariantList Unit where
  call m
    | .setQuery newQuery =>
        let (m', requests) := m.setQuery newQuery
        (m', if m.query ≠ newQuery then .restart :: requests.map .send else [])
    | .userIsContactUpdated userId isContact => (m.handleUserIsContactUpdated userId isContact, [])
    | .usersReceived extra userIds => (m.handleUsersReceived extra userIds, [])
  answer m request userIds := (m.handleUsersReceived request.extra userIds, [])

end ContactsListModel

/-- A list of contacts in a run, with the ids of the reply to its latest request, once it is there, less the users who
were removed from the contacts since. -/
structure ContactsSession where
  exchange : Exchange ContactsListModel ContactsListModel.Request
  answered : Option (List Int)

namespace ContactsSession

open ContactsListModel

abbrev model (s : ContactsSession) : ContactsListModel := s.exchange.client

/-- A list that gets its wrapper, under any query. -/
def start (tdLibWrapper : Account.TDLibData) (query : String) : ContactsSession :=
  let m : ContactsListModel := { tdLibWrapper := some tdLibWrapper, query := query }
  { exchange := { client := m, generation := 0, pending := m.fetch.map fun request => ⟨request, 0⟩ }, answered := none }

/-- What a call says of the reply. -/
def answeredAfterCall (s : ContactsSession) : ContactsListModel.Call → Option (List Int)
  | .setQuery newQuery => if s.model.query ≠ newQuery then none else s.answered
  | .userIsContactUpdated userId isContact =>
      if isContact then s.answered else s.answered.map fun ids => ids.filter (· ≠ userId)
  | .usersReceived _ _ => s.answered

/-- The reply to the latest request counts, that to an earlier one does not. -/
def answeredAfterReply (s : ContactsSession) (i : Nat) (userIds : QVariantList) : Option (List Int) :=
  match s.exchange.pending[i]? with
  | none => s.answered
  | some t => if t.generation = s.exchange.generation then some (userIds.map QVariant.toLongLong) else s.answered

def step (s : ContactsSession) (move : Move ContactsListModel.Call QVariantList) : ContactsSession where
  exchange := client.step s.exchange move
  answered :=
    match move with
    | .call c => s.answeredAfterCall c
    | .answer i userIds => s.answeredAfterReply i userIds

/-- Under a query whose reply is there, the list has its users and no others. -/
def ShowsQuery (s : ContactsSession) : Prop :=
  s.model.query ≠ "" → ∀ ids ∈ s.answered, ∀ userId, userId ∈ s.model.userIds ↔ userId ∈ ids

/-- The list takes replies with this extra field. -/
def Accepts (m : ContactsListModel) (extra : String) : Prop :=
  extra = "contacts" ∨ m.query ≠ "" ∧ extra = "contacts:" ++ m.query

/-- A reply to another request than the latest one is not taken, or has the users that are to be shown. -/
def Agrees (s : ContactsSession) (extra : String) (userIds : QVariantList) : Prop :=
  Accepts s.model extra → s.model.query ≠ "" → ∀ ids ∈ s.answered, ∀ userId,
    userId ∈ userIds.map QVariant.toLongLong ↔ userId ∈ ids

/-- Under a query whose reply is there, no other reply is taken, unless it has the same users, no user is added to the
contacts who is not in the reply, and no user is removed who is listed twice. -/
def KeepsQuery (s : ContactsSession) : Move ContactsListModel.Call QVariantList → Prop
  | .call (.setQuery _) => True
  | .call (.userIsContactUpdated userId true) => s.model.query ≠ "" → ∀ ids ∈ s.answered, userId ∈ ids
  | .call (.userIsContactUpdated userId false) =>
      s.model.query ≠ "" → ∀ _ids ∈ s.answered, s.model.userIds.count userId ≤ 1
  | .call (.usersReceived extra userIds) => s.Agrees extra userIds
  | .answer i userIds =>
      ∀ t ∈ s.exchange.pending[i]?, t.generation ≠ s.exchange.generation → s.Agrees t.request.extra userIds

/-- What every step keeps: the pending request that is not overtaken is that for the query. -/
structure Asked (s : ContactsSession) : Prop where
  bounded : s.exchange.Bounded
  current : s.exchange.Current fun r => r ∈ s.model.fetch

variable {s : ContactsSession}

/-! ### Steps -/

theorem handleUsersReceived_of_accepts {m : ContactsListModel} {extra : String} (h : Accepts m extra)
    (userIds : QVariantList) : m.handleUsersReceived extra userIds = m.setUserVariantIds userIds := by
  rw [handleUsersReceived]
  split_ifs with hall hquery
  · rfl
  · rfl
  · exact absurd h (not_or.mpr ⟨hall, hquery⟩)

theorem handleUsersReceived_of_not_accepts {m : ContactsListModel} {extra : String} (h : ¬ Accepts m extra)
    (userIds : QVariantList) : m.handleUsersReceived extra userIds = m := by
  obtain ⟨hall, hquery⟩ := not_or.mp h
  rw [handleUsersReceived, if_neg hall, if_neg hquery]

theorem query_handleUsersReceived (m : ContactsListModel) (extra : String) (userIds : QVariantList) :
    (m.handleUsersReceived extra userIds).query = m.query ∧
      (m.handleUsersReceived extra userIds).tdLibWrapper = m.tdLibWrapper := by
  by_cases h : Accepts m extra
  · rw [handleUsersReceived_of_accepts h]
    exact ⟨rfl, rfl⟩
  · rw [handleUsersReceived_of_not_accepts h]
    exact ⟨rfl, rfl⟩

theorem query_handleUserIsContactUpdated (m : ContactsListModel) (userId : Int) (isContact : Bool) :
    (m.handleUserIsContactUpdated userId isContact).query = m.query ∧
      (m.handleUserIsContactUpdated userId isContact).tdLibWrapper = m.tdLibWrapper := by
  rw [handleUserIsContactUpdated]
  split_ifs <;> exact ⟨rfl, rfl⟩

/-- The request is made from the query and the wrapper. -/
theorem fetch_congr {m m' : ContactsListModel} (h : m'.query = m.query ∧ m'.tdLibWrapper = m.tdLibWrapper) :
    m'.fetch = m.fetch := by
  rw [fetch, fetch, h.1, h.2]

/-- The reply to the request for the query is taken. -/
theorem accepts_of_mem_fetch {m : ContactsListModel} {r : ContactsListModel.Request} (h : r ∈ m.fetch) :
    Accepts m r.extra := by
  rw [fetch] at h
  cases hwrapper : m.tdLibWrapper with
  | none =>
      rw [hwrapper] at h
      exact absurd h List.not_mem_nil
  | some tdLibWrapper =>
      rw [hwrapper] at h
      dsimp only at h
      split_ifs at h with hquery
      · rw [List.mem_singleton.mp h]
        exact Or.inl rfl
      · rw [List.mem_singleton.mp h]
        exact Or.inr ⟨hquery, rfl⟩

/-- The pending requests, from those before a step. -/
theorem keeps_fetch : client.Keeps fun m r => r ∈ m.fetch where
  call m c := by
    cases c with
    | setQuery newQuery =>
        by_cases hquery : m.query = newQuery
        · right
          simp [client, setQuery, hquery]
        · left
          simp [client, hquery, Restarts]
    | userIsContactUpdated userId isContact =>
        right
        intro r hr
        rw [client]
        dsimp only
        rw [fetch_congr (query_handleUserIsContactUpdated m userId isContact)]
        exact hr
    | usersReceived extra userIds =>
        right
        intro r hr
        rw [client]
        dsimp only
        rw [fetch_congr (query_handleUsersReceived m extra userIds)]
        exact hr
  call_sent m c r hr := by
    cases c with
    | setQuery newQuery =>
        by_cases hquery : m.query = newQuery
        · simp [client, hquery] at hr
        · simpa [client, setQuery, hquery] using hr
    | userIsContactUpdated userId isContact => exact absurd hr List.not_mem_nil
    | usersReceived extra userIds => exact absurd hr List.not_mem_nil
  answer m r userIds := by
    right
    intro r' hr'
    rw [client]
    dsimp only
    rw [fetch_congr (query_handleUsersReceived m r.extra userIds)]
    exact hr'
  answer_sent m r userIds r' hr' := absurd hr' List.not_mem_nil

theorem Asked.step (h : s.Asked) (move : Move ContactsListModel.Call QVariantList) : (s.step move).Asked where
  bounded := Client.bounded_step h.bounded move
  current := keeps_fetch.current_step h.bounded h.current move

theorem asked_start (tdLibWrapper : Account.TDLibData) (query : String) : (start tdLibWrapper query).Asked := by
  constructor
  · intro t ht
    obtain ⟨request, -, rfl⟩ := List.mem_map.mp ht
    exact le_rfl
  · intro t ht _
    obtain ⟨request, hrequest, rfl⟩ := List.mem_map.mp ht
    exact hrequest

/-! ### What a step does to the list -/

/-- A reply that is not the latest one keeps the list right exactly if it agrees with it. -/
theorem showsQuery_usersReceived_iff (h : s.ShowsQuery) (extra : String) (userIds : QVariantList)
    {s' : ContactsSession} (hmodel : s'.model = s.model.handleUsersReceived extra userIds)
    (hanswered : s'.answered = s.answered) : s'.ShowsQuery ↔ s.Agrees extra userIds := by
  rw [ShowsQuery, hmodel, hanswered, (query_handleUsersReceived s.model extra userIds).1, Agrees]
  by_cases haccepts : Accepts s.model extra
  · rw [handleUsersReceived_of_accepts haccepts]
    exact ⟨fun hshows _ => hshows, fun hagrees => hagrees haccepts⟩
  · rw [handleUsersReceived_of_not_accepts haccepts]
    exact iff_of_true h fun hnot => absurd hnot haccepts

/-- A user who is added is shown. -/
theorem mem_handleUserIsContactUpdated_true (m : ContactsListModel) (userId userId' : Int) :
    userId' ∈ (m.handleUserIsContactUpdated userId true).userIds ↔ userId' ∈ m.userIds ∨ userId' = userId := by
  rw [handleUserIsContactUpdated, if_pos rfl]
  split_ifs with hmem
  · exact ⟨Or.inl, fun h => h.elim id fun heq => heq ▸ hmem⟩
  · rw [List.mem_append, List.mem_singleton]

/-- Of a user who is removed one row is lost. -/
theorem userIds_handleUserIsContactUpdated_false (m : ContactsListModel) (userId : Int) :
    (m.handleUserIsContactUpdated userId false).userIds = m.userIds.erase userId := by
  rw [handleUserIsContactUpdated, if_neg Bool.false_ne_true]
  split_ifs with hmem
  · rfl
  · exact (List.erase_of_not_mem hmem).symm

theorem mem_erase_self_iff {l : List Int} {userId : Int} : userId ∈ l.erase userId ↔ ¬ l.count userId ≤ 1 := by
  rw [← List.count_pos_iff, List.count_erase_self]
  omega

theorem showsQuery_contactAdded_iff (h : s.ShowsQuery) (userId : Int) :
    (s.step (.call (.userIsContactUpdated userId true))).ShowsQuery ↔
      s.KeepsQuery (.call (.userIsContactUpdated userId true)) := by
  constructor
  · intro hshows hquery ids hids
    refine (hshows ?_ ids hids userId).mp ?_
    · exact (query_handleUserIsContactUpdated s.model userId true).1.trans_ne hquery
    · exact (mem_handleUserIsContactUpdated_true s.model userId userId).mpr (Or.inr rfl)
  · intro hkeeps hquery ids hids userId'
    have hquery' : s.model.query ≠ "" := (query_handleUserIsContactUpdated s.model userId true).1.symm.trans_ne hquery
    refine (mem_handleUserIsContactUpdated_true s.model userId userId').trans ?_
    rw [h hquery' ids hids userId']
    exact ⟨fun hmem => hmem.elim id fun heq => heq ▸ hkeeps hquery' ids hids, Or.inl⟩

theorem showsQuery_contactRemoved_iff (h : s.ShowsQuery) (userId : Int) :
    (s.step (.call (.userIsContactUpdated userId false))).ShowsQuery ↔
      s.KeepsQuery (.call (.userIsContactUpdated userId false)) := by
  have hquery : (s.step (.call (.userIsContactUpdated userId false))).model.query = s.model.query :=
    (query_handleUserIsContactUpdated s.model userId false).1
  have hlist : (s.step (.call (.userIsContactUpdated userId false))).model.userIds = s.model.userIds.erase userId :=
    userIds_handleUserIsContactUpdated_false s.model userId
  rw [ShowsQuery, hquery, hlist, KeepsQuery]
  refine imp_congr_right fun hne => ?_
  constructor
  · intro hshows ids hids
    by_contra hcount
    have hmem := (hshows _ (Option.mem_map_of_mem _ hids) userId).mp (mem_erase_self_iff.mpr hcount)
    exact of_decide_eq_true (List.mem_filter.mp hmem).2 rfl
  · intro hcount ids' hids' userId'
    obtain ⟨ids, hids, rfl⟩ := Option.mem_map.mp hids'
    rw [List.mem_filter, decide_eq_true_eq, ← h hne ids hids userId']
    by_cases heq : userId' = userId
    · subst heq
      rw [mem_erase_self_iff]
      exact iff_of_false (not_not.mpr (hcount ids hids)) fun hmem => hmem.2 rfl
    · rw [List.mem_erase_of_ne heq]
      exact (and_iff_left heq).symm

/-- The reply to the latest request fills the list. -/
theorem showsQuery_latest (hasked : s.Asked) {i : Nat} {t : Ticket ContactsListModel.Request}
    (ht : s.exchange.pending[i]? = some t) (hlatest : t.generation = s.exchange.generation) (userIds : QVariantList) :
    (s.step (.answer i userIds)).ShowsQuery := by
  have haccepts : Accepts s.model t.request.extra :=
    accepts_of_mem_fetch (hasked.current t (List.mem_of_getElem? ht) hlatest)
  have hmodel : (s.step (.answer i userIds)).model = s.model.setUserVariantIds userIds := by
    rw [← handleUsersReceived_of_accepts haccepts, model, step, Client.step, ht]
    exact Exchange.client_after _ _
  have hanswered : (s.step (.answer i userIds)).answered = some (userIds.map QVariant.toLongLong) := by
    rw [step, answeredAfterReply, ht]
    exact if_pos hlatest
  intro _ ids hids userId
  rw [hanswered] at hids
  rw [hmodel, ← Option.some.inj hids]
  exact Iff.rfl

/-- **Step lemma.** -/
theorem showsQuery_step_iff (hasked : s.Asked) (h : s.ShowsQuery) (move : Move ContactsListModel.Call QVariantList) :
    (s.step move).ShowsQuery ↔ s.KeepsQuery move := by
  cases move with
  | call c =>
      cases c with
      | setQuery newQuery =>
          refine iff_of_true ?_ trivial
          by_cases hquery : s.model.query = newQuery
          · have hsame : (s.step (.call (.setQuery newQuery))).model = s.model ∧
                (s.step (.call (.setQuery newQuery))).answered = s.answered := by
              simp [step, answeredAfterCall, Client.step, client, setQuery, hquery, Exchange.after]
            rw [ShowsQuery, hsame.1, hsame.2]
            exact h
          · have hnone : (s.step (.call (.setQuery newQuery))).answered = none := by
              rw [step, answeredAfterCall]
              exact if_pos hquery
            rw [ShowsQuery, hnone]
            rintro - _ ⟨⟩
      | userIsContactUpdated userId isContact =>
          cases isContact with
          | true => exact showsQuery_contactAdded_iff h userId
          | false => exact showsQuery_contactRemoved_iff h userId
      | usersReceived extra userIds => exact showsQuery_usersReceived_iff h extra userIds rfl rfl
  | answer i userIds =>
      rw [KeepsQuery]
      cases ht : s.exchange.pending[i]? with
      | none =>
          refine iff_of_true ?_ (by rintro _ ⟨⟩)
          have hsame : (s.step (.answer i userIds)).model = s.model ∧
              (s.step (.answer i userIds)).answered = s.answered := by
            simp [step, answeredAfterReply, Client.step, ht]
          rw [ShowsQuery, hsame.1, hsame.2]
          exact h
      | some t =>
          by_cases hlatest : t.generation = s.exchange.generation
          · refine iff_of_true (showsQuery_latest hasked ht hlatest userIds) fun t' ht' hne => ?_
            rw [← Option.some.inj ht'] at hne
            exact absurd hlatest hne
          · have hmodel : (s.step (.answer i userIds)).model =
                s.model.handleUsersReceived t.request.extra userIds := by
              rw [model, step, Client.step, ht]
              exact Exchange.client_after _ _
            have hanswered : (s.step (.answer i userIds)).answered = s.answered := by
              rw [step, answeredAfterReply, ht]
              exact if_neg hlatest
            rw [showsQuery_usersReceived_iff h t.request.extra userIds hmodel hanswered]
            refine ⟨fun hagrees t' ht' _ => ?_, fun hall => hall t rfl hlatest⟩
            rw [← Option.some.inj ht']
            exact hagrees

/-- **Contacts under a query.** In all states of a run the list under a query has the users of the reply to its latest
request, less those removed since, exactly if no step of the run takes another reply, adds a user to it or removes
one who is listed twice. -/
theorem showsQuery_iff (tdLibWrapper : Account.TDLibData) (query : String)
    (moves : List (Move ContactsListModel.Call QVariantList)) :
    (∀ moves', moves' <+: moves → (run step (start tdLibWrapper query) moves').ShowsQuery) ↔
      Along step KeepsQuery (start tdLibWrapper query) moves :=
  Along.always_iff (J := Asked) (fun _ move h => h.step move)
    (fun _ move hasked h => showsQuery_step_iff hasked h move) (asked_start tdLibWrapper query)
    (by rintro - _ ⟨⟩) moves

/-- The reply to the search is followed by that of all contacts, which was requested before. -/
theorem not_showsQuery :
    ¬ ∀ moves', moves' <+: [.call (.setQuery "a"), .answer 1 [.longLong 7], .answer 0 [.longLong 7, .longLong 8]] →
      (run step (start (.new ⟨0, 0, 0⟩) "") moves').ShowsQuery := by
  intro h
  have hshows := h _ (List.prefix_refl _)
  have hmem := (hshows (by decide) [7] rfl 8).mp (by decide)
  exact absurd hmem (by decide)

end ContactsSession

end YaqtLib
