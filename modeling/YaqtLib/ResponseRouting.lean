import YaqtLib.RequestExtras
import YaqtLib.Runs

/-! Requests and their replies in any order: a `TDLibResponse` waits for the reply with the id of its request, other
replies go to the handlers of their types, and errors to the branches of the error handler. -/

namespace YaqtLib

open Runs TdConst TDLibReceiver

namespace TDLibWrapper

/-- A request that TDLib has not answered yet. -/
structure Pending where
  type : String
  extra : QVariant
  id : Option Nat

/-- A `TDLibResponse` is the number it waits for. -/
structure Session where
  nextRequestId : Nat
  pending : List Pending
  waiting : List Nat

inductive SessionEvent where
  | call (call : Call)
  /-- TDLib answers one of the requests. -/
  | reply (i : Nat) (answer : QVariantMap)

/-- What `TDLibReceiver` gets for an answer: TDLib adds the extra of the request. -/
def document (clientId : Int) (p : Pending) (answer : QVariantMap) : QVariantMap :=
  (if p.extra = .invalid then answer.remove EXTRA_ else answer.insert EXTRA_ p.extra).insert CLIENT_ID
    (.longLong clientId)

/-- The branch of the error handler a document takes. -/
def errorHandling (clientId : Int) (doc : QVariantMap) : Option ErrorKind :=
  if route clientId doc = .handler "error" then errorKind (doc.value "code").toInt (doc.value EXTRA_) else none

namespace Session

def new : Session where
  nextRequestId := 0
  pending := []
  waiting := []

/-- `sendRequest`, or `sendRequestWithId` with `prepareRequestWithIdObject`. The counter is a signed number of 64 bits;
its overflow is undefined. -/
def call (s : Session) (c : Call) : Option Session :=
  if c.withId then
    if s.nextRequestId + 1 < 2 ^ 63 then
      some
        { nextRequestId := s.nextRequestId + 1
          pending := s.pending ++ [{ type := c.type, extra := .string ("R" ++ toString s.nextRequestId)
                                     id := some s.nextRequestId }]
          waiting := s.waiting ++ [s.nextRequestId] }
    else none
  else some { s with pending := s.pending ++ [{ type := c.type, extra := c.extra.toVariant, id := none }] }

/-- The responses that a document finishes. -/
def finished (clientId : Int) (s : Session) (doc : QVariantMap) : List Nat :=
  match route clientId doc with
  | .response requestId => s.waiting.filter fun n => (n : Int) = requestId
  | _ => []

def reply (clientId : Int) (s : Session) (i : Nat) (answer : QVariantMap) : Session :=
  match s.pending[i]? with
  | none => s
  | some p =>
      { s with
        pending := s.pending.eraseIdx i
        waiting := s.waiting.filter fun n => n ∉ s.finished clientId (document clientId p answer) }

def step (clientId : Int) (s : Session) : SessionEvent → Option Session
  | .call c => s.call c
  | .reply i answer => some (s.reply clientId i answer)

end Session

/-- A reply goes where it belongs. -/
structure RoutedProperly (clientId : Int) (s : Session) (p : Pending) (doc : QVariantMap) : Prop where
  /-- A response finishes only with the reply to the request with its id. -/
  responses : ∀ n ∈ s.finished clientId doc, p.id = some n
  /-- The reply to a request without an id reaches the handler of its type. -/
  handler : p.id = none → ∀ key, handlerOf (doc.value TYPE_).toStr = some key → route clientId doc = .handler key
  /-- An error is handled as one of its kind of requests. -/
  error : ∀ kind ∈ errorHandling clientId doc, p.type ∈ kind.types

/-- Every reply of the run goes where it belongs. -/
def StepRouted (clientId : Int) (s : Session) : SessionEvent → Prop
  | .call _ => True
  | .reply i answer => ∀ p ∈ s.pending[i]?, RoutedProperly clientId s p (document clientId p answer)

/-- However these calls are made, and their replies come, every reply goes where it belongs. -/
def RoutesProperly (clientId : Int) (calls : List Call) : Prop :=
  ∀ events : List SessionEvent, (∀ c, .call c ∈ events → c ∈ calls) →
    Along (lift (Session.step clientId)) (fun s e => ∀ m ∈ s, StepRouted clientId m e) (some .new) events

/-! ### One reply -/

section Reply

variable {clientId : Int} {p : Pending} {answer : QVariantMap}

theorem value_document_extra : (document clientId p answer).value EXTRA_ = p.extra := by
  rw [document, QVariantMap.value_insert_of_ne _ _ (by decide)]
  split_ifs with h
  · rw [h]
    exact QVariantMap.value_of_contains_eq_false (QVariantMap.contains_remove_self _ _)
  · exact QVariantMap.value_insert_self _ _ _

theorem value_document_clientId : ((document clientId p answer).value CLIENT_ID).toInt = clientId := by
  rw [document, QVariantMap.value_insert_self]
  rfl

theorem value_document {k : String} (hextra : k ≠ EXTRA_) (hclient : k ≠ CLIENT_ID) :
    (document clientId p answer).value k = answer.value k := by
  rw [document, QVariantMap.value_insert_of_ne _ _ hclient]
  split_ifs
  · exact QVariantMap.value_remove_of_ne _ hextra
  · exact QVariantMap.value_insert_of_ne _ _ hextra

theorem route_document {digits : List Char} (h : requestIdMatch p.extra.toStr = some digits) :
    route clientId (document clientId p answer) = .response (stringToLongLong (String.ofList digits)) := by
  rw [route, if_neg (not_not_intro value_document_clientId), value_document_extra, h]

theorem route_document_of_none (h : requestIdMatch p.extra.toStr = none) :
    route clientId (document clientId p answer) =
      match handlerOf ((document clientId p answer).value TYPE_).toStr with
      | some key => .handler key
      | none => .unhandled := by
  cases hkey : handlerOf ((document clientId p answer).value TYPE_).toStr <;>
    simp only [route, value_document_clientId, value_document_extra, h, hkey, ne_eq, not_true_eq_false, if_false]

/-- A pending request has its id as its extra, or none that is mistaken for one or for the extra of other errors. -/
def Pending.Good (p : Pending) : Prop :=
  match p.id with
  | some n => p.extra = .string ("R" ++ toString n) ∧ n < 2 ^ 63
  | none => Unmistakable p.type p.extra

theorem routedProperly_of_id {s : Session} {n : Nat} (hid : p.id = some n)
    (hextra : p.extra = .string ("R" ++ toString n)) (hn : n < 2 ^ 63) :
    RoutedProperly clientId s p (document clientId p answer) := by
  have hroute : route clientId (document clientId p answer) = .response n := by
    have hmatch : requestIdMatch p.extra.toStr = some (Nat.toDigits 10 n) := by
      rw [hextra]
      exact requestIdMatch_toString n
    rw [route_document hmatch, stringToLongLong_toDigits hn]
  refine ⟨fun m hm => ?_, fun hnone => ?_, fun kind hkind => ?_⟩
  · rw [Session.finished, hroute] at hm
    have hmn : m = n := Int.ofNat.inj (of_decide_eq_true (List.mem_filter.mp hm).2)
    rw [hid, hmn]
  · rw [hid] at hnone
    cases hnone
  · rw [errorHandling, hroute, if_neg nofun] at hkind
    cases hkind

theorem routedProperly_of_unmistakable {s : Session} (h : Unmistakable p.type p.extra) :
    RoutedProperly clientId s p (document clientId p answer) := by
  have hroute := @route_document_of_none clientId p answer h.noRequestId
  refine ⟨fun m hm => ?_, fun _ key hkey => ?_, fun kind hkind => ?_⟩
  · rw [Session.finished, hroute] at hm
    cases hhandler : handlerOf ((document clientId p answer).value TYPE_).toStr <;>
      rw [hhandler] at hm <;> exact absurd hm List.not_mem_nil
  · rw [hroute, hkey]
  · rw [errorHandling] at hkind
    split_ifs at hkind
    · rw [value_document_extra] at hkind
      exact h.error kind (recognises_of_errorKind hkind)
    · cases hkind

theorem Pending.Good.routedProperly {s : Session} (h : p.Good) :
    RoutedProperly clientId s p (document clientId p answer) := by
  rw [Pending.Good] at h
  cases hid : p.id with
  | some n =>
      rw [hid] at h
      exact routedProperly_of_id hid h.1 h.2
  | none =>
      rw [hid] at h
      exact routedProperly_of_unmistakable h

end Reply

/-! ### Runs -/

/-- All requests on their way are good. -/
def Session.Good (s : Session) : Prop := ∀ p ∈ s.pending, p.Good

theorem Session.Good.call {s s' : Session} {c : Call} (hs : s.Good) (hc : c.Harmless) (h : s.call c = some s') :
    s'.Good := by
  rw [Session.call] at h
  split_ifs at h with hid hcount
  · rw [← Option.some.inj h]
    intro p hp
    rcases List.mem_append.mp hp with hold | hnew
    · exact hs p hold
    · rw [List.mem_singleton.mp hnew]
      exact ⟨rfl, Nat.lt_of_succ_lt hcount⟩
  · rw [← Option.some.inj h]
    intro p hp
    rcases List.mem_append.mp hp with hold | hnew
    · exact hs p hold
    · rw [List.mem_singleton.mp hnew]
      exact c.unmistakable hc

theorem Session.Good.reply {s : Session} (clientId : Int) (hs : s.Good) (i : Nat) (answer : QVariantMap) :
    (s.reply clientId i answer).Good := by
  rw [Session.reply]
  cases s.pending[i]? with
  | none => exact hs
  | some p => exact fun q hq => hs q (List.mem_of_mem_eraseIdx hq)

theorem Session.Good.stepRouted {s : Session} (clientId : Int) (hs : s.Good) (e : SessionEvent) :
    StepRouted clientId s e := by
  cases e with
  | call c => trivial
  | reply i answer => exact fun p hp => (hs p (List.mem_of_getElem? hp)).routedProperly

/-- Harmless calls are routed properly. -/
theorem routesProperly_of_harmless {clientId : Int} {calls : List Call} (h : ∀ c ∈ calls, c.Harmless) :
    RoutesProperly clientId calls := by
  intro events hevents
  have hharmless : Along (lift (Session.step clientId))
      (fun _ e => ∀ c, e = SessionEvent.call c → c.Harmless) (some Session.new) events :=
    along_of_forall (P := fun e => ∀ c, e = SessionEvent.call c → c.Harmless)
      (fun e he c hc => h c (hevents c (by rw [← hc]; exact he))) _
  refine Along.mono (I := fun s : Option Session => ∀ m ∈ s, m.Good) (fun s e hs he m hm => ?_)
    (fun s e hs _ m hm => (hs m hm).stepRouted clientId e) (fun m hm => ?_) hharmless
  · obtain ⟨s0, rfl, hm⟩ := Option.bind_eq_some_iff.mp hm
    have hgood := hs s0 rfl
    cases e with
    | call c => exact hgood.call (he c rfl) hm
    | reply i answer =>
        rw [← Option.some.inj hm]
        exact hgood.reply clientId i answer
  · rw [← Option.some.inj hm]
    exact fun p hp => absurd hp List.not_mem_nil

/-- An error, as TDLib reports that something is not found. -/
def notFound : QVariantMap := [(TYPE_, .string "error"), ("code", .longLong 404)]

/-- A call whose replies are always routed properly is harmless. -/
theorem harmless_of_routesProperly {clientId : Int} {calls : List Call} (h : RoutesProperly clientId calls) {c : Call}
    (hc : c ∈ calls) : c.Harmless := by
  intro v hv
  have hextra : c.extra = .given v := by
    rw [Call.given] at hv
    split at hv
    · rename_i v' hgiven
      rw [hgiven, Option.some.inj hv]
    · cases hv
  have hid : c.withId = false := by
    cases c <;> first | rfl | cases hextra
  let p : Pending := { type := c.type, extra := v, id := none }
  have hcall : Session.call .new c = some { Session.new with pending := [p] } := by
    rw [Session.call, hid, if_neg Bool.false_ne_true, hextra]
    rfl
  have hrouted : RoutedProperly clientId { Session.new with pending := [p] } p (document clientId p notFound) := by
    have hrun := h [.call c, .reply 0 notFound] fun c' hc' => by
      rcases List.mem_cons.mp hc' with heq | hmem
      · rw [SessionEvent.call.inj heq]
        exact hc
      · exact absurd (List.mem_singleton.mp hmem) (by rintro ⟨⟩)
    exact hrun.2.1 _ hcall p rfl
  have hnone : requestIdMatch v.toStr = none := by
    cases hmatch : requestIdMatch v.toStr with
    | none => rfl
    | some digits =>
        have hroute := hrouted.handler rfl "error" (by rw [value_document (by decide) (by decide)]; decide)
        rw [@route_document clientId p notFound digits hmatch] at hroute
        cases hroute
  refine ⟨hnone, fun kind hkind => hrouted.error kind ?_⟩
  have hroute : route clientId (document clientId p notFound) = .handler "error" :=
    hrouted.handler rfl "error" (by rw [value_document (by decide) (by decide)]; decide)
  rw [errorHandling, if_pos hroute, value_document (by decide) (by decide), value_document_extra]
  exact errorKind_of_recognises hkind

/-- Replies go where they belong exactly if no extra that a caller hands over reads as a request id, or as the extra of
a request whose errors are handled apart, unless the request is one of these. -/
theorem routesProperly_iff (clientId : Int) (calls : List Call) :
    RoutesProperly clientId calls ↔ ∀ c ∈ calls, c.Harmless :=
  ⟨fun h _ hc => harmless_of_routesProperly h hc, routesProperly_of_harmless⟩

/-- The response of the first request finishes with emojis. -/
theorem not_routesProperly : ¬ RoutesProperly 1
    [.sendRequestWithId [(TYPE_, .string TYPE_GET_MESSAGE)], .searchEmojis "R0"] := by
  intro h
  have hharmless := harmless_of_routesProperly h (c := .searchEmojis "R0") (by simp)
  exact absurd (hharmless (.string "R0") rfl).noRequestId (by decide)

/-! ### Ids -/

/-- The ids of pending requests lie below the counter, each at one request. -/
def Session.IdsApart (s : Session) : Prop :=
  (s.pending.filterMap Pending.id).Nodup ∧ ∀ n ∈ s.pending.filterMap Pending.id, n < s.nextRequestId

theorem Session.IdsApart.step {clientId : Int} {s s' : Session} {e : SessionEvent} (hs : s.IdsApart)
    (h : s.step clientId e = some s') : s'.IdsApart := by
  cases e with
  | call c =>
      rw [Session.step, Session.call] at h
      split_ifs at h with hid hcount
      · rw [← Option.some.inj h, Session.IdsApart, List.filterMap_append]
        have hlt : ∀ n ∈ s.pending.filterMap Pending.id, n ≠ s.nextRequestId := fun n hn =>
          Nat.ne_of_lt (hs.2 n hn)
        refine ⟨List.nodup_append.mpr ⟨hs.1, List.nodup_singleton _, fun n hn m hm => ?_⟩, fun n hn => ?_⟩
        · rw [List.mem_singleton.mp hm]
          exact hlt n hn
        · rcases List.mem_append.mp hn with hold | hnew
          · exact Nat.lt_succ_of_lt (hs.2 n hold)
          · rw [List.mem_singleton.mp hnew]
            exact Nat.lt_succ_self _
      · rw [← Option.some.inj h, Session.IdsApart, List.filterMap_append, List.filterMap_cons_none rfl,
          List.filterMap_nil, List.append_nil]
        exact hs
  | reply i answer =>
      rw [Session.step, Option.some.injEq] at h
      rw [← h, Session.reply]
      cases s.pending[i]? with
      | none => exact hs
      | some p =>
          have hsub := (List.eraseIdx_sublist s.pending i).filterMap Pending.id
          exact ⟨hs.1.sublist hsub, fun n hn => hs.2 n (hsub.subset hn)⟩

/-- In every run an id is that of one request. -/
theorem idsApart_run (clientId : Int) (events : List SessionEvent) :
    ∀ s ∈ run (lift (Session.step clientId)) (some .new) events, s.IdsApart :=
  invariant_lift (fun _ _ _ hs h => hs.step h) ⟨List.nodup_nil, fun _ hn => absurd hn List.not_mem_nil⟩ events

end TDLibWrapper

end YaqtLib
