import YaqtLib.Containers
import YaqtLib.QVariant
import YaqtLib.Runs

/-! The carriers of web proxies (`webproxymanager.cpp`): TDLib opens a carrier, sends data to it and closes it, and the
manager has an object of the application for every open one. The objects are counted in the order in which they were
made. -/

namespace YaqtLib

open Containers Runs TdConst

/-- An object of the application, with the data it was given and how often it was to be deleted. -/
structure WebProxyCarrier where
  id : Int
  url : String
  origin : String
  pathPrefix : String
  processed : List String
  deletions : Nat

inductive WebProxyCarrierError where
  | unsupported
  | paused
  | terminated
  | refused

def WebProxyCarrierError.type : WebProxyCarrierError → String
  | .unsupported => "webProxyCarrierErrorUnsupported"
  | .paused => "webProxyCarrierErrorPaused"
  | .terminated => "webProxyCarrierErrorTerminated"
  | .refused => "webProxyCarrierErrorRefused"

/-- The request of `TDLibWrapper::reportWebProxyCarrierError`. -/
def reportWebProxyCarrierError (carrierId : Int) (error : WebProxyCarrierError) : QVariantMap :=
  [(TYPE_, .string "reportWebProxyCarrierError"), ("carrier_id", .longLong carrierId),
    ("error", .map [(TYPE_, .string error.type)])]

/-- The open carriers by their ids, the objects that were made, and the requests that were sent. -/
structure WebProxyManager where
  carriers : QHash Int Nat
  objects : List WebProxyCarrier
  requests : List QVariantMap

namespace WebProxyManager

def new : WebProxyManager := { carriers := QHash.empty, objects := [], requests := [] }

def deleteLater (m : WebProxyManager) (object : Nat) : WebProxyManager :=
  { m with objects := m.objects.modify object fun carrier => { carrier with deletions := carrier.deletions + 1 } }

def processData (m : WebProxyManager) (object : Nat) (data : String) : WebProxyManager :=
  { m with objects := m.objects.modify object fun carrier => { carrier with processed := carrier.processed ++ [data] } }

/-- `carriers.take(carrierId)->deleteLater()`, for a carrier that is open. -/
def drop (m : WebProxyManager) (carrierId : Int) : WebProxyManager :=
  match m.carriers.value carrierId with
  | none => m
  | some object => { m.deleteLater object with carriers := m.carriers.remove carrierId }

/-- A carrier is opened; whether `createCarrier` makes an object for it is up to the application. -/
def handleWebProxyCarrierOpened (m : WebProxyManager) (carrierId : Int) (carrier : QVariantMap) (creates : Bool) :
    WebProxyManager :=
  let m := m.drop carrierId
  if creates then
    { m with
      carriers := m.carriers.insert carrierId m.objects.length
      objects := m.objects ++
        [{ id := carrierId
           url := (carrier.value "url").toStr
           origin := (carrier.value "origin").toStr
           pathPrefix := (carrier.value "path_prefix").toStr
           processed := []
           deletions := 0 }] }
  else { m with requests := m.requests ++ [reportWebProxyCarrierError carrierId .unsupported] }

def handleWebProxyCarrierDataReceived (m : WebProxyManager) (carrierId : Int) (data : String) : WebProxyManager :=
  match m.carriers.value carrierId with
  | none => m
  | some object => m.processData object data

def handleWebProxyCarrierClosed (m : WebProxyManager) (carrierId : Int) : WebProxyManager := m.drop carrierId

inductive Event where
  | opened (carrierId : Int) (carrier : QVariantMap) (creates : Bool)
  | dataReceived (carrierId : Int) (data : String)
  | closed (carrierId : Int)

def step (m : WebProxyManager) : Event → WebProxyManager
  | .opened carrierId carrier creates => m.handleWebProxyCarrierOpened carrierId carrier creates
  | .dataReceived carrierId data => m.handleWebProxyCarrierDataReceived carrierId data
  | .closed carrierId => m.handleWebProxyCarrierClosed carrierId

/-! ### What the updates say -/

/-- A carrier ends when it is closed, and when one with its id is opened. -/
def ends (carrierId : Int) : Event → Bool
  | .opened carrierId' _ _ => carrierId' = carrierId
  | .dataReceived _ _ => false
  | .closed carrierId' => carrierId' = carrierId

/-- The events of a carrier, of those after it was opened. -/
def during (carrierId : Int) (es : List Event) : List Event := es.takeWhile fun e => !ends carrierId e

def dataFor (carrierId : Int) : Event → Option String
  | .dataReceived carrierId' data => if carrierId' = carrierId then some data else none
  | _ => none

def creation : Event → Option (Int × QVariantMap)
  | .opened carrierId carrier true => some (carrierId, carrier)
  | _ => none

def failure : Event → Option Int
  | .opened carrierId _ false => some carrierId
  | _ => none

/-- The object of a carrier, with the events after it was opened. -/
def carrierAfter (carrierId : Int) (carrier : QVariantMap) (es : List Event) : WebProxyCarrier :=
  { id := carrierId
    url := (carrier.value "url").toStr
    origin := (carrier.value "origin").toStr
    pathPrefix := (carrier.value "path_prefix").toStr
    processed := (during carrierId es).filterMap (dataFor carrierId)
    deletions := if es.any (ends carrierId) then 1 else 0 }

/-- The objects that a list of events leaves, each with the data that came while its carrier was open, and deleted
once it ended. -/
def carriersOf : List Event → List WebProxyCarrier
  | [] => []
  | e :: es =>
      match creation e with
      | some (carrierId, carrier) => carrierAfter carrierId carrier es :: carriersOf es
      | none => carriersOf es

/-! ### What the steps keep -/

/-- The open carriers are the objects that are not to be deleted, each under its id. -/
def Carried (m : WebProxyManager) : Prop :=
  ∀ carrierId object, m.carriers.value carrierId = some object ↔
    ∃ carrier, m.objects[object]? = some carrier ∧ carrier.id = carrierId ∧ carrier.deletions = 0

/-- What becomes of an object in a list of events: if its carrier is open it gets the data until it is deleted, and
else nothing. -/
def objectAfter (carriers : QHash Int Nat) (object : Nat) (carrier : WebProxyCarrier) (es : List Event) :
    WebProxyCarrier :=
  if carriers.value carrier.id = some object then
    { carrier with
      processed := carrier.processed ++ (during carrier.id es).filterMap (dataFor carrier.id)
      deletions := carrier.deletions + if es.any (ends carrier.id) then 1 else 0 }
  else carrier

variable {m : WebProxyManager}

theorem objectAfter_nil (carriers : QHash Int Nat) (object : Nat) (carrier : WebProxyCarrier) :
    objectAfter carriers object carrier [] = carrier := by
  rw [objectAfter]
  simp [during]

theorem during_cons_of_ends {carrierId : Int} {e : Event} (h : ends carrierId e = true) (es : List Event) :
    during carrierId (e :: es) = [] := by
  rw [during, List.takeWhile_cons, h]
  rfl

theorem during_cons_of_not_ends {carrierId : Int} {e : Event} (h : ends carrierId e = false) (es : List Event) :
    during carrierId (e :: es) = e :: during carrierId es := by
  rw [during, List.takeWhile_cons, h]
  rfl

/-- An event that is not about the carrier of an object. -/
theorem objectAfter_other (carriers : QHash Int Nat) (object : Nat) {carrier : WebProxyCarrier} {e : Event}
    (hends : ends carrier.id e = false) (hdata : dataFor carrier.id e = none) (es : List Event) :
    objectAfter carriers object carrier (e :: es) = objectAfter carriers object carrier es := by
  rw [objectAfter, objectAfter, during_cons_of_not_ends hends, List.filterMap_cons_none hdata, List.any_cons, hends,
    Bool.false_or]

/-- An event that ends the carrier of an object, if it is open. -/
theorem objectAfter_ends {carriers carriers' : QHash Int Nat} {object : Nat} {carrier : WebProxyCarrier} {e : Event}
    (hopen : carriers.value carrier.id = some object) (hclosed : carriers'.value carrier.id ≠ some object)
    (hends : ends carrier.id e = true) (es : List Event) :
    objectAfter carriers object carrier (e :: es) =
      objectAfter carriers' object { carrier with deletions := carrier.deletions + 1 } es := by
  rw [objectAfter, objectAfter, if_pos hopen, if_neg hclosed, during_cons_of_ends hends, List.any_cons, hends]
  simp

theorem objectAfter_of_not_open {carriers : QHash Int Nat} {object : Nat} {carrier : WebProxyCarrier}
    (h : carriers.value carrier.id ≠ some object) (es : List Event) :
    objectAfter carriers object carrier es = carrier := if_neg h

theorem carried_new : new.Carried := by
  intro carrierId object
  simp [new]

/-- **Dropping.** An open carrier is deleted, and all else stays. -/
theorem Carried.drop (hm : m.Carried) (carrierId : Int) : (m.drop carrierId).Carried ∧
    (m.drop carrierId).carriers = m.carriers.remove carrierId ∧ (m.drop carrierId).requests = m.requests ∧
    (m.drop carrierId).objects.length = m.objects.length ∧
    ∀ object, (m.drop carrierId).objects[object]? = (m.objects[object]?).map fun carrier =>
      if m.carriers.value carrierId = some object then { carrier with deletions := carrier.deletions + 1 }
      else carrier := by
  rw [WebProxyManager.drop]
  cases hvalue : m.carriers.value carrierId with
  | none =>
      have hremove : m.carriers.remove carrierId = m.carriers := by
        refine funext fun k => ?_
        change (m.carriers.remove carrierId).value k = m.carriers.value k
        rw [QHash.value_remove]
        split_ifs with hk
        · rw [hk, hvalue]
        · rfl
      refine ⟨hm, hremove.symm, rfl, rfl, fun object => ?_⟩
      simp
  | some object =>
      obtain ⟨carrier, hcarrier, rfl, hdeletions⟩ := (hm carrierId object).mp hvalue
      have hmodified : ∀ other, (m.objects.modify object fun carrier =>
          { carrier with deletions := carrier.deletions + 1 })[other]? = (m.objects[other]?).map fun carrier' =>
            if m.carriers.value carrier.id = some other then { carrier' with deletions := carrier'.deletions + 1 }
            else carrier' := by
        intro other
        rw [List.getElem?_modify, hvalue]
        simp only [Option.some.injEq]
        rfl
      refine ⟨fun k other => ?_, rfl, rfl, List.length_modify _ _ _, fun other => ?_⟩
      · dsimp only [deleteLater]
        rw [QHash.value_remove, hmodified]
        by_cases hother : other = object
        · subst hother
          rw [hcarrier, hvalue, Option.map_some, if_pos rfl]
          refine iff_of_false (fun h => ?_) (by rintro ⟨carrier', heq, -, hzero⟩; cases heq; cases hzero)
          split_ifs at h with hk
          obtain ⟨carrier', hcarrier', rfl, -⟩ := (hm k other).mp h
          exact hk (congrArg WebProxyCarrier.id (Option.some.inj (hcarrier'.symm.trans hcarrier)))
        · have hne : m.carriers.value carrier.id ≠ some other := by
            rw [hvalue]
            exact fun heq => hother (Option.some.inj heq).symm
          simp only [if_neg hne, Option.map_id']
          rw [← hm k other]
          split_ifs with hk
          · rw [hk]
            exact iff_of_false (by simp) hne
          · exact Iff.rfl
      · rw [hvalue] at hmodified
        exact hmodified other

theorem Carried.lt_length (hm : m.Carried) {carrierId : Int} {object : Nat}
    (h : m.carriers.value carrierId = some object) : object < m.objects.length := by
  obtain ⟨carrier, hcarrier, -⟩ := (hm carrierId object).mp h
  exact (List.getElem?_eq_some_iff.mp hcarrier).1

/-- An object that is made is the open one of its id, if there is none. -/
theorem Carried.insert (hm : m.Carried) {carrier : WebProxyCarrier} (hnone : m.carriers.value carrier.id = none)
    (hdeletions : carrier.deletions = 0) : Carried { m with
      carriers := m.carriers.insert carrier.id m.objects.length
      objects := m.objects ++ [carrier] } := by
  intro k object
  dsimp only
  rw [QHash.value_insert, List.getElem?_append]
  by_cases hlt : object < m.objects.length
  · rw [if_pos hlt, ← hm k object]
    split_ifs with hk
    · rw [hk, hnone]
      exact iff_of_false (fun heq => absurd (Option.some.inj heq) hlt.ne') (by simp)
    · exact Iff.rfl
  · rw [if_neg hlt]
    by_cases heq : object = m.objects.length
    · subst heq
      rw [Nat.sub_self, List.getElem?_cons_zero]
      split_ifs with hk
      · exact iff_of_true rfl ⟨carrier, rfl, hk.symm, hdeletions⟩
      · refine iff_of_false (fun h => hlt (hm.lt_length h)) ?_
        rintro ⟨carrier', hcarrier', hid, -⟩
        exact hk (Option.some.inj hcarrier' ▸ hid.symm)
    · have hnew : ([carrier] : List WebProxyCarrier)[object - m.objects.length]? = none :=
        List.getElem?_eq_none (by simp; omega)
      rw [hnew]
      refine iff_of_false (fun h => ?_) (by simp)
      split_ifs at h with hk
      · exact heq (Option.some.inj h).symm
      · exact hlt (hm.lt_length h)

/-- What one event does to the objects, in terms of what becomes of them later. -/
structure Carries (m m' : WebProxyManager) (e : Event) : Prop where
  carried : m'.Carried
  requests : m'.requests =
    m.requests ++ (failure e).toList.map fun carrierId => reportWebProxyCarrierError carrierId .unsupported
  objects : ∀ es, (m'.objects.mapIdx fun object carrier => objectAfter m'.carriers object carrier es) ++ carriersOf es =
    (m.objects.mapIdx fun object carrier => objectAfter m.carriers object carrier (e :: es)) ++ carriersOf (e :: es)

/-- For an event that makes no object, what it does to each object is all that it does. -/
theorem Carries.of_pointwise {m' : WebProxyManager} {e : Event} (hcarried : m'.Carried)
    (hrequests : m'.requests =
      m.requests ++ (failure e).toList.map fun carrierId => reportWebProxyCarrierError carrierId .unsupported)
    (hcreation : creation e = none) {f : Nat → WebProxyCarrier → WebProxyCarrier}
    (hobjects : ∀ object, m'.objects[object]? = (m.objects[object]?).map (f object))
    (hafter : ∀ object carrier es, m.objects[object]? = some carrier →
      objectAfter m'.carriers object (f object carrier) es = objectAfter m.carriers object carrier (e :: es)) :
    Carries m m' e := by
  refine ⟨hcarried, hrequests, fun es => ?_⟩
  rw [carriersOf, hcreation]
  dsimp only
  refine congrArg (· ++ carriersOf es) (List.ext_getElem? fun object => ?_)
  rw [List.getElem?_mapIdx, List.getElem?_mapIdx, hobjects]
  cases hcarrier : m.objects[object]? with
  | none => rfl
  | some carrier => exact congrArg some (hafter object carrier es hcarrier)

theorem dataFor_dataReceived (carrierId k : Int) (data : String) :
    dataFor k (.dataReceived carrierId data) = if carrierId = k then some data else none := rfl

/-- Data that does not come to an object. -/
theorem objectAfter_dataReceived {carrierId : Int} (data : String) {object : Nat} {carrier : WebProxyCarrier}
    (hother : m.carriers.value carrierId ≠ some object) (es : List Event) :
    objectAfter m.carriers object carrier es =
      objectAfter m.carriers object carrier (.dataReceived carrierId data :: es) := by
  by_cases hid : carrierId = carrier.id
  · subst hid
    rw [objectAfter_of_not_open hother, objectAfter_of_not_open hother]
  · have hdata : dataFor carrier.id (.dataReceived carrierId data) = none :=
      (dataFor_dataReceived _ _ _).trans (if_neg hid)
    exact (objectAfter_other _ _ rfl hdata es).symm

theorem Carried.dataReceived (hm : m.Carried) (carrierId : Int) (data : String) :
    Carries m (m.handleWebProxyCarrierDataReceived carrierId data) (.dataReceived carrierId data) := by
  rw [handleWebProxyCarrierDataReceived]
  cases hvalue : m.carriers.value carrierId with
  | none =>
      refine Carries.of_pointwise hm (List.append_nil _).symm rfl (f := fun _ carrier => carrier) (by simp) ?_
      intro object carrier es _
      refine objectAfter_dataReceived data ?_ es
      rw [hvalue]
      simp
  | some object =>
      obtain ⟨carrier, hcarrier, rfl, hdeletions⟩ := (hm carrierId object).mp hvalue
      have hobjects : ∀ other, (m.processData object data).objects[other]? = (m.objects[other]?).map fun carrier =>
          if object = other then { carrier with processed := carrier.processed ++ [data] } else carrier := by
        intro other
        dsimp only [processData]
        rw [List.getElem?_modify]
        rfl
      refine Carries.of_pointwise (fun k other => ?_) (List.append_nil _).symm rfl hobjects ?_
      · rw [hobjects]
        refine (hm k other).trans ?_
        cases m.objects[other]? with
        | none => simp
        | some carrier' =>
            simp only [Option.map_some, Option.some.injEq, exists_eq_left']
            split_ifs <;> rfl
      · intro other carrier' es hcarrier'
        dsimp only [processData]
        split_ifs with hother
        · subst hother
          obtain rfl := Option.some.inj (hcarrier.symm.trans hcarrier')
          have hdata : dataFor carrier.id (.dataReceived carrier.id data) = some data :=
            (dataFor_dataReceived _ _ _).trans (if_pos rfl)
          rw [objectAfter, objectAfter, if_pos hvalue, if_pos hvalue, during_cons_of_not_ends rfl,
            List.filterMap_cons_some hdata, List.append_assoc]
          rfl
        · refine objectAfter_dataReceived data ?_ es
          rw [hvalue]
          exact fun heq => hother (Option.some.inj heq)

theorem Carried.drop_after (hm : m.Carried) {carrierId : Int} {e : Event}
    (hends : ∀ k, ends k e = decide (carrierId = k)) (hdata : ∀ k, dataFor k e = none)
    {carriers : QHash Int Nat} (hcarriers : ∀ k object, object < m.objects.length →
      (carriers.value k = some object ↔ k ≠ carrierId ∧ m.carriers.value k = some object))
    (object : Nat) (carrier : WebProxyCarrier) (es : List Event) (hcarrier : m.objects[object]? = some carrier) :
    objectAfter carriers object (if m.carriers.value carrierId = some object then
        { carrier with deletions := carrier.deletions + 1 } else carrier) es =
      objectAfter m.carriers object carrier (e :: es) := by
  have hlt := (List.getElem?_eq_some_iff.mp hcarrier).1
  by_cases hid : carrier.id = carrierId
  · subst hid
    have hclosed : carriers.value carrier.id ≠ some object := fun h => ((hcarriers _ _ hlt).mp h).1 rfl
    split_ifs with hopen
    · exact (objectAfter_ends hopen hclosed ((hends _).trans (decide_eq_true rfl)) es).symm
    · rw [objectAfter_of_not_open hclosed, objectAfter_of_not_open hopen]
  · have hother : m.carriers.value carrierId ≠ some object := by
      intro h
      obtain ⟨carrier', hcarrier', hid', -⟩ := (hm carrierId object).mp h
      obtain rfl := Option.some.inj (hcarrier.symm.trans hcarrier')
      exact hid hid'
    rw [if_neg hother, objectAfter_other _ _ ((hends _).trans (decide_eq_false fun h => hid h.symm)) (hdata _)]
    by_cases hopen : m.carriers.value carrier.id = some object
    · rw [objectAfter, objectAfter, if_pos hopen, if_pos ((hcarriers _ _ hlt).mpr ⟨hid, hopen⟩)]
    · rw [objectAfter_of_not_open hopen, objectAfter_of_not_open fun h => hopen ((hcarriers _ _ hlt).mp h).2]

theorem value_remove_iff (carriers : QHash Int Nat) (carrierId k : Int) (object : Nat) :
    (carriers.remove carrierId).value k = some object ↔ k ≠ carrierId ∧ carriers.value k = some object := by
  rw [QHash.value_remove]
  split_ifs with hk <;> simp [hk]

theorem Carried.closed (hm : m.Carried) (carrierId : Int) :
    Carries m (m.handleWebProxyCarrierClosed carrierId) (.closed carrierId) := by
  obtain ⟨hcarried, hcarriers, hrequests, -, hobjects⟩ := hm.drop carrierId
  refine Carries.of_pointwise hcarried (hrequests.trans (List.append_nil _).symm) rfl hobjects ?_
  rw [show (m.handleWebProxyCarrierClosed carrierId).carriers = m.carriers.remove carrierId from hcarriers]
  exact hm.drop_after (fun _ => rfl) (fun _ => rfl) fun k object _ => value_remove_iff _ _ _ _

theorem Carried.opened (hm : m.Carried) (carrierId : Int) (carrier : QVariantMap) (creates : Bool) :
    Carries m (m.handleWebProxyCarrierOpened carrierId carrier creates) (.opened carrierId carrier creates) := by
  obtain ⟨hcarried, hcarriers, hrequests, hlength, hobjects⟩ := hm.drop carrierId
  cases creates with
  | false =>
      refine Carries.of_pointwise hcarried (congrArg (· ++ _) hrequests) rfl hobjects ?_
      rw [show (m.handleWebProxyCarrierOpened carrierId carrier false).carriers = m.carriers.remove carrierId
        from hcarriers]
      exact hm.drop_after (fun _ => rfl) (fun _ => rfl) fun k object _ => value_remove_iff _ _ _ _
  | true =>
      have hnone : (m.drop carrierId).carriers.value carrierId = none := by
        rw [hcarriers, QHash.value_remove, if_pos rfl]
      have hinsert := @Carried.insert (m.drop carrierId) hcarried (carrierAfter carrierId carrier []) hnone rfl
      refine ⟨hinsert, hrequests.trans (List.append_nil _).symm, fun es => ?_⟩
      change ((m.drop carrierId).objects ++ [carrierAfter carrierId carrier []]).mapIdx (fun object carrier' =>
        objectAfter ((m.drop carrierId).carriers.insert carrierId (m.drop carrierId).objects.length) object carrier' es)
          ++ carriersOf es = _ ++ carrierAfter carrierId carrier es :: carriersOf es
      rw [hcarriers, hlength, List.mapIdx_append, List.append_assoc]
      refine congrArg₂ (· ++ ·) (List.ext_getElem? fun object => ?_) ?_
      · rw [List.getElem?_mapIdx, List.getElem?_mapIdx, hobjects]
        cases hcarrier : m.objects[object]? with
        | none => rfl
        | some carrier' =>
            refine congrArg some (hm.drop_after (fun _ => rfl) (fun _ => rfl) (fun k object hlt => ?_) _ _ _ hcarrier)
            rw [← value_remove_iff, QHash.value_insert, QHash.value_remove]
            split_ifs with hk
            · exact iff_of_false (fun heq => hlt.ne' (Option.some.inj heq)) (by simp)
            · exact Iff.rfl
      · have hopen : ((m.carriers.remove carrierId).insert carrierId m.objects.length).value
            (carrierAfter carrierId carrier []).id = some m.objects.length := QHash.value_insert_self _ _ _
        rw [hlength, List.mapIdx_cons, List.mapIdx_nil, Nat.zero_add, objectAfter, if_pos hopen]
        simp [carrierAfter, during]

/-- **Step lemma.** -/
theorem carries_step (hm : m.Carried) (e : Event) : Carries m (m.step e) e := by
  cases e with
  | opened carrierId carrier creates => exact hm.opened carrierId carrier creates
  | dataReceived carrierId data => exact hm.dataReceived carrierId data
  | closed carrierId => exact hm.closed carrierId

/-- What a run makes of the objects there are, and the objects and requests it adds. -/
theorem carries_run (hm : m.Carried) (es : List Event) : (run step m es).Carried ∧
    (run step m es).objects =
      (m.objects.mapIdx fun object carrier => objectAfter m.carriers object carrier es) ++ carriersOf es ∧
    (run step m es).requests = m.requests ++
      (es.filterMap failure).map fun carrierId => reportWebProxyCarrierError carrierId .unsupported := by
  induction es generalizing m with
  | nil =>
      refine ⟨hm, ?_, (List.append_nil _).symm⟩
      simp only [objectAfter_nil, carriersOf, List.append_nil]
      exact List.ext_getElem? fun object => by simp
  | cons e es ih =>
      have hcarries := carries_step hm e
      obtain ⟨hcarried, hobjects, hrequests⟩ := ih hcarries.carried
      refine ⟨hcarried, hobjects.trans (hcarries.objects es), ?_⟩
      rw [run_cons, hrequests, hcarries.requests, List.append_assoc, ← List.map_append]
      cases hfailure : failure e with
      | none => rw [List.filterMap_cons_none hfailure, Option.toList_none, List.nil_append]
      | some carrierId => rw [List.filterMap_cons_some hfailure, Option.toList_some, List.singleton_append]

/-- **Carriers.** Whatever TDLib opens, sends and closes in which order, and wherever the application has no object to
offer, the objects that were made are those the updates tell of: each was given exactly the data that came while its
carrier was open, in this order, and is deleted exactly if the carrier has ended, and then once. The open carriers are
the objects that are not deleted, and each carrier without an object was reported. -/
theorem carriers_follow_updates (es : List Event) : (run step new es).objects = carriersOf es ∧
    (∀ carrierId object, (run step new es).carriers.value carrierId = some object ↔
      ∃ carrier, (carriersOf es)[object]? = some carrier ∧ carrier.id = carrierId ∧ carrier.deletions = 0) ∧
    (run step new es).requests =
      (es.filterMap failure).map fun carrierId => reportWebProxyCarrierError carrierId .unsupported := by
  obtain ⟨hcarried, hobjects, hrequests⟩ := carries_run carried_new es
  have hobjects' : (run step new es).objects = carriersOf es := hobjects
  refine ⟨hobjects', fun carrierId object => ?_, hrequests⟩
  rw [← hobjects']
  exact hcarried carrierId object

end WebProxyManager

end YaqtLib
