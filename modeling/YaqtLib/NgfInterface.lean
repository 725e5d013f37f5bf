import YaqtLib.Containers
import YaqtLib.QVariant
import YaqtLib.SortedMap
import Mathlib.Data.String.Basic

/-! The client of the feedback daemon (`ngfinterface.cpp`): the sounds it knows of and the requests it sends. The
daemon answers a request to play a sound later, with the id of the sound or an error, and tells when a sound is over. -/

namespace YaqtLib

open Containers

inductive NgfStatus where
  | failed
  | completed
  | playing
  | paused

def NgfStatus.toNat : NgfStatus → Nat
  | .failed => 0
  | .completed => 1
  | .playing => 2
  | .paused => 3

structure NgfInterface where
  playingEvents : QMap String Nat
  /-- The events of the `Play` calls without an answer, in the order of the calls. -/
  watchers : List String

/-- The calls of the daemon. -/
inductive NgfRequest where
  | play (event : String) (props : QVariantMap)
  | pause (id : Nat)
  | stop (id : Nat)
  deriving DecidableEq

namespace NgfInterface

def new : NgfInterface := { playingEvents := .empty, watchers := [] }

def playProperties (mode soundFileName type : String) : QVariantMap :=
  let props : QVariantMap := [("type", .string type)]
  let props := if mode.isEmpty then props else props.insert "play.mode" (.string mode)
  if soundFileName.isEmpty then props else props.insert "sound.filename" (.string soundFileName)

def play (m : NgfInterface) (event : String) (props : QVariantMap) : NgfInterface × List NgfRequest :=
  if m.playingEvents.contains event then (m, [])
  else ({ m with watchers := m.watchers ++ [event] }, [.play event props])

/-- The answer to a `Play` call, none for an error. -/
def handlePlayFinished (m : NgfInterface) (watcher : Nat) (reply : Option Nat) : NgfInterface :=
  match m.watchers[watcher]? with
  | none => m
  | some event =>
      { playingEvents := match reply with
          | none => m.playingEvents
          | some id => m.playingEvents.insert event id
        watchers := m.watchers.eraseIdx watcher }

def pause (m : NgfInterface) (event : String) : List NgfRequest :=
  match m.playingEvents.value event with
  | none => []
  | some id => [.pause id]

def stop (m : NgfInterface) (event : String) : List NgfRequest :=
  match m.playingEvents.value event with
  | none => []
  | some id => [.stop id]

def handleEventStatusChanged (m : NgfInterface) (serverEventId status : Nat) : NgfInterface :=
  match m.playingEvents.key serverEventId with
  | none => m
  | some event =>
      if event.isEmpty then m
      else if status ≠ NgfStatus.playing.toNat then { m with playingEvents := m.playingEvents.remove event } else m

end NgfInterface

/-- A `Play` call without an answer, and whether another command for its event came after it. -/
structure PlayRequest where
  event : String
  overtaken : Bool

/-- A sound the daemon has started and not ended, whether the call that started it was overtaken, and whether the
daemon was asked to stop it. -/
structure Sound where
  event : String
  id : Nat
  overtaken : Bool
  stopped : Bool

/-- The client, its calls without an answer, and the sounds of the daemon. -/
structure NgfSession where
  ngf : NgfInterface
  requests : List PlayRequest
  sounds : List Sound

namespace PlayRequest

def overtake (event : String) (r : PlayRequest) : PlayRequest :=
  if r.event = event then { r with overtaken := true } else r

@[simp] theorem event_overtake (event : String) (r : PlayRequest) : (r.overtake event).event = r.event := by
  rw [overtake]
  split_ifs <;> rfl

theorem overtaken_of_overtake {event : String} {r : PlayRequest} (h : (r.overtake event).overtaken = false) :
    r.event ≠ event ∧ r.overtaken = false := by
  rw [overtake] at h
  split_ifs at h with hevent
  exact ⟨hevent, h⟩

theorem overtaken_mono (event : String) {r : PlayRequest} (h : r.overtaken = true) :
    (r.overtake event).overtaken = true := by
  rw [overtake]
  split_ifs
  · rfl
  · exact h

theorem overtaken_self (r : PlayRequest) : (r.overtake r.event).overtaken = true := by rw [overtake, if_pos rfl]

end PlayRequest

def Sound.askToStop (requests : List NgfRequest) (sound : Sound) : Sound :=
  { sound with stopped := sound.stopped || decide (NgfRequest.stop sound.id ∈ requests) }

namespace NgfSession

inductive Event where
  | play (event : String) (props : QVariantMap)
  | stop (event : String)
  | playFinished (watcher : Nat) (reply : Option Nat)
  | eventStatusChanged (serverEventId status : Nat)

def new : NgfSession := { ngf := .new, requests := [], sounds := [] }

def play (s : NgfSession) (event : String) (props : QVariantMap) : NgfSession :=
  { s with
    ngf := (s.ngf.play event props).1
    requests := s.requests.map (PlayRequest.overtake event) ++
      if (s.ngf.play event props).2.isEmpty then []
      else [{ event := event, overtaken := s.requests.any fun r => r.event = event }] }

def stop (s : NgfSession) (event : String) : NgfSession :=
  { s with
    requests := s.requests.map (PlayRequest.overtake event)
    sounds := s.sounds.map (Sound.askToStop (s.ngf.stop event)) }

def playFinished (s : NgfSession) (watcher : Nat) (reply : Option Nat) : NgfSession :=
  { ngf := s.ngf.handlePlayFinished watcher reply
    requests := s.requests.eraseIdx watcher
    sounds := s.sounds ++
      match s.requests[watcher]? with
      | none => []
      | some r => (reply.map fun id => Sound.mk r.event id r.overtaken false).toList }

/-- A status other than that it is playing ends a sound. -/
def eventStatusChanged (s : NgfSession) (serverEventId status : Nat) : NgfSession :=
  { s with
    ngf := s.ngf.handleEventStatusChanged serverEventId status
    sounds := s.sounds.filter fun sound => status = NgfStatus.playing.toNat ∨ sound.id ≠ serverEventId }

def step (s : NgfSession) : Event → NgfSession
  | .play event props => s.play event props
  | .stop event => s.stop event
  | .playFinished watcher reply => s.playFinished watcher reply
  | .eventStatusChanged serverEventId status => s.eventStatusChanged serverEventId status

/-- Events have names, and the daemon gives no sound the id of another one that it has not ended. -/
def Expected (s : NgfSession) : Event → Prop
  | .play event _ => event ≠ ""
  | .playFinished _ (some id) => ∀ sound ∈ s.sounds, sound.id ≠ id
  | _ => True

instance (s : NgfSession) : ∀ e : Event, Decidable (s.Expected e)
  | .play event _ => inferInstanceAs (Decidable (event ≠ ""))
  | .playFinished _ (some id) => inferInstanceAs (Decidable (∀ sound ∈ s.sounds, sound.id ≠ id))
  | .playFinished _ none => inferInstanceAs (Decidable True)
  | .stop _ => inferInstanceAs (Decidable True)
  | .eventStatusChanged _ _ => inferInstanceAs (Decidable True)

/-- What the client knows of the sounds: a recorded sound is one of the daemon's, and a sound whose call was not
overtaken is the recorded one of its event. No event has two calls without an answer, or one beside a recorded sound,
but overtaken ones. -/
structure Consistent (s : NgfSession) : Prop where
  watchers : s.ngf.watchers = s.requests.map PlayRequest.event
  nodup : (s.sounds.map Sound.id).Nodup
  live : ∀ event id, s.ngf.playingEvents.value event = some id →
    event ≠ "" ∧ ∃ sound ∈ s.sounds, sound.event = event ∧ sound.id = id
  recorded : ∀ sound ∈ s.sounds, sound.overtaken = false →
    s.ngf.playingEvents.value sound.event = some sound.id ∧ ∀ r ∈ s.requests, r.event ≠ sound.event
  unrecorded : ∀ r ∈ s.requests, r.overtaken = false → s.ngf.playingEvents.value r.event = none
  apart : s.requests.Pairwise fun r r' => r.event = r'.event → r.overtaken = true ∧ r'.overtaken = true
  named : ∀ r ∈ s.requests, r.event ≠ ""

variable {s : NgfSession}

theorem consistent_new : new.Consistent := by
  refine ⟨rfl, List.nodup_nil, fun event id h => ?_, fun _ h => ?_, fun _ h => ?_, List.Pairwise.nil, fun _ h => ?_⟩
  · cases h
  all_goals cases h

/-- Marking the calls of an event keeps what is known. -/
theorem Consistent.overtake (hs : s.Consistent) (event : String) :
    Consistent { s with requests := s.requests.map (PlayRequest.overtake event) } := by
  refine ⟨?_, hs.nodup, hs.live, fun sound hsound hfirst => ⟨(hs.recorded sound hsound hfirst).1, ?_⟩, ?_, ?_, ?_⟩
  · dsimp only
    rw [hs.watchers, List.map_map]
    exact List.map_congr_left fun r _ => (PlayRequest.event_overtake event r).symm
  · intro r hr
    obtain ⟨r', hr', rfl⟩ := List.mem_map.mp hr
    rw [PlayRequest.event_overtake]
    exact (hs.recorded sound hsound hfirst).2 r' hr'
  · intro r hr hfirst
    obtain ⟨r', hr', rfl⟩ := List.mem_map.mp hr
    rw [PlayRequest.event_overtake]
    exact hs.unrecorded r' hr' (PlayRequest.overtaken_of_overtake hfirst).2
  · refine List.pairwise_map.mpr (hs.apart.imp fun {r r'} h heq => ?_)
    rw [PlayRequest.event_overtake, PlayRequest.event_overtake] at heq
    exact ⟨PlayRequest.overtaken_mono event (h heq).1, PlayRequest.overtaken_mono event (h heq).2⟩
  · intro r hr
    obtain ⟨r', hr', rfl⟩ := List.mem_map.mp hr
    rw [PlayRequest.event_overtake]
    exact hs.named r' hr'

/-- So does a new call for an event without a recorded sound, if the calls for the event are overtaken. -/
theorem Consistent.request (hs : s.Consistent) {event : String} {overtaken : Bool} (hnamed : event ≠ "")
    (hnone : s.ngf.playingEvents.value event = none)
    (hovertaken : ∀ r ∈ s.requests, r.event = event → r.overtaken = true ∧ overtaken = true) :
    Consistent { s with
      ngf := { s.ngf with watchers := s.ngf.watchers ++ [event] }
      requests := s.requests ++ [{ event := event, overtaken := overtaken }] } := by
  refine ⟨?_, hs.nodup, hs.live, fun sound hsound hfirst => ⟨(hs.recorded sound hsound hfirst).1, ?_⟩, ?_, ?_, ?_⟩
  · dsimp only
    rw [List.map_append, hs.watchers]
    rfl
  · intro r hr
    rcases List.mem_append.mp hr with hr | hr
    · exact (hs.recorded sound hsound hfirst).2 r hr
    · rw [List.mem_singleton.mp hr]
      intro heq
      have hrecorded := (hs.recorded sound hsound hfirst).1
      rw [← heq, hnone] at hrecorded
      cases hrecorded
  · intro r hr hfirst
    rcases List.mem_append.mp hr with hr | hr
    · exact hs.unrecorded r hr hfirst
    · rw [List.mem_singleton.mp hr]
      exact hnone
  · refine List.pairwise_append.mpr ⟨hs.apart, List.pairwise_singleton _ _, fun r hr r' hr' heq => ?_⟩
    rw [List.mem_singleton.mp hr'] at heq ⊢
    exact hovertaken r hr heq
  · intro r hr
    rcases List.mem_append.mp hr with hr | hr
    · exact hs.named r hr
    · rw [List.mem_singleton.mp hr]
      exact hnamed

/-- What is known of the sounds does not depend on whether they are asked to stop. -/
theorem Consistent.askToStop (hs : s.Consistent) (requests : List NgfRequest) :
    Consistent { s with sounds := s.sounds.map (Sound.askToStop requests) } := by
  refine ⟨hs.watchers, ?_, fun event id hvalue => ?_, ?_, hs.unrecorded, hs.apart, hs.named⟩
  · dsimp only
    rw [List.map_map]
    exact hs.nodup
  · obtain ⟨hnamed, sound, hsound, heq⟩ := hs.live event id hvalue
    exact ⟨hnamed, _, List.mem_map_of_mem hsound, heq⟩
  · intro sound hsound
    obtain ⟨before, hbefore, rfl⟩ := List.mem_map.mp hsound
    exact hs.recorded before hbefore

theorem play_of_recorded {event : String} (h : s.ngf.playingEvents.contains event = true) (props : QVariantMap) :
    s.play event props = { s with requests := s.requests.map (PlayRequest.overtake event) } := by
  have hplay : s.ngf.play event props = (s.ngf, []) := if_pos h
  rw [play, hplay]
  simp

theorem play_of_unrecorded {event : String} (h : s.ngf.playingEvents.value event = none) (props : QVariantMap) :
    s.play event props = { s with
      ngf := { s.ngf with watchers := s.ngf.watchers ++ [event] }
      requests := s.requests.map (PlayRequest.overtake event) ++
        [{ event := event, overtaken := s.requests.any fun r => r.event = event }] } := by
  have hcontains : ¬ s.ngf.playingEvents.contains event = true := by
    rw [(QMap.contains_eq_false_iff _ _).mpr h]
    exact Bool.false_ne_true
  have hplay : s.ngf.play event props =
      ({ s.ngf with watchers := s.ngf.watchers ++ [event] }, [.play event props]) := if_neg hcontains
  rw [play, hplay]
  rfl

theorem Consistent.play (hs : s.Consistent) {event : String} (hnamed : event ≠ "") (props : QVariantMap) :
    (s.play event props).Consistent := by
  cases hvalue : s.ngf.playingEvents.value event with
  | some id =>
      rw [play_of_recorded ((QMap.contains_iff _ _).mpr ⟨id, hvalue⟩)]
      exact hs.overtake event
  | none =>
      rw [play_of_unrecorded hvalue]
      refine (hs.overtake event).request hnamed hvalue fun r hr heq => ?_
      obtain ⟨before, hbefore, rfl⟩ := List.mem_map.mp hr
      rw [PlayRequest.event_overtake] at heq
      subst heq
      exact ⟨PlayRequest.overtaken_self before, List.any_eq_true.mpr ⟨before, hbefore, decide_eq_true rfl⟩⟩

theorem Consistent.stop (hs : s.Consistent) (event : String) : (s.stop event).Consistent :=
  (hs.overtake event).askToStop (s.ngf.stop event)

/-- A call that is answered leaves the calls. -/
theorem Consistent.forget (hs : s.Consistent) {pre post : List PlayRequest} {r : PlayRequest}
    (hrequests : s.requests = pre ++ r :: post) :
    Consistent { s with
      ngf := { s.ngf with watchers := (pre ++ post).map PlayRequest.event }
      requests := pre ++ post } := by
  have hsublist : (pre ++ post).Sublist s.requests := by
    rw [hrequests]
    exact List.Sublist.append_left (List.sublist_cons_self r post) pre
  have hmem : ∀ r' ∈ pre ++ post, r' ∈ s.requests := fun r' hr' => hsublist.subset hr'
  refine ⟨rfl, hs.nodup, hs.live, fun sound hsound hfirst => ?_, ?_, hs.apart.sublist hsublist, ?_⟩
  · obtain ⟨hvalue, hne⟩ := hs.recorded sound hsound hfirst
    exact ⟨hvalue, fun r' hr' => hne r' (hmem r' hr')⟩
  · exact fun r' hr' => hs.unrecorded r' (hmem r' hr')
  · exact fun r' hr' => hs.named r' (hmem r' hr')

/-- A sound that starts is recorded. The other calls for its event are overtaken, the older sounds of the event were,
and if its own call was not then there is no other call. -/
theorem Consistent.started (hs : s.Consistent) {event : String} {id : Nat} {overtaken : Bool} (hnamed : event ≠ "")
    (hfresh : ∀ sound ∈ s.sounds, sound.id ≠ id)
    (hsounds : ∀ sound ∈ s.sounds, sound.overtaken = false → sound.event ≠ event)
    (hrequests : ∀ r ∈ s.requests, r.event = event → r.overtaken = true ∧ overtaken = true) :
    Consistent { s with
      ngf := { s.ngf with playingEvents := s.ngf.playingEvents.insert event id }
      sounds := s.sounds ++ [Sound.mk event id overtaken false] } := by
  refine ⟨hs.watchers, ?_, fun event' id' hvalue => ?_, fun sound hsound hfirst => ?_, fun r hr hfirst => ?_, hs.apart,
    hs.named⟩
  · dsimp only
    rw [List.map_append, List.nodup_append]
    refine ⟨hs.nodup, List.nodup_singleton _, fun id' hid' id'' hid'' heq => ?_⟩
    obtain ⟨sound, hsound, rfl⟩ := List.mem_map.mp hid'
    exact hfresh sound hsound (heq.trans (List.mem_singleton.mp hid''))
  · dsimp only at hvalue
    rw [QMap.value_insert] at hvalue
    split_ifs at hvalue with hevent
    · exact ⟨hevent ▸ hnamed, _, List.mem_append_right _ List.mem_cons_self, hevent.symm, Option.some.inj hvalue⟩
    · obtain ⟨hnamed', sound, hsound, heq⟩ := hs.live event' id' hvalue
      exact ⟨hnamed', sound, List.mem_append_left _ hsound, heq⟩
  · dsimp only
    rw [QMap.value_insert]
    rcases List.mem_append.mp hsound with hsound | hsound
    · obtain ⟨hvalue, hne⟩ := hs.recorded sound hsound hfirst
      rw [if_neg (hsounds sound hsound hfirst)]
      exact ⟨hvalue, hne⟩
    · obtain rfl := List.mem_singleton.mp hsound
      refine ⟨if_pos rfl, fun r hr heq => ?_⟩
      exact absurd ((hrequests r hr heq).2.symm.trans hfirst) Bool.true_eq_false.mp
  · dsimp only
    rw [QMap.value_insert, if_neg]
    · exact hs.unrecorded r hr hfirst
    · intro heq
      exact absurd ((hrequests r hr heq).1.symm.trans hfirst) Bool.true_eq_false.mp

theorem Consistent.playFinished (hs : s.Consistent) {watcher : Nat} {reply : Option Nat}
    (hfresh : s.Expected (.playFinished watcher reply)) : (s.playFinished watcher reply).Consistent := by
  have hwatcher : s.ngf.watchers[watcher]? = (s.requests[watcher]?).map PlayRequest.event := by
    rw [hs.watchers, List.getElem?_map]
  rw [NgfSession.playFinished, NgfInterface.handlePlayFinished, hwatcher]
  cases hr : s.requests[watcher]? with
  | none =>
      rw [List.eraseIdx_of_length_le (List.getElem?_eq_none_iff.mp hr)]
      simpa using hs
  | some r =>
      obtain ⟨pre, post, hrequests, rfl⟩ := exists_split_of_getElem? hr
      have hforget := hs.forget hrequests
      have hwatchers : s.ngf.watchers.eraseIdx pre.length = (pre ++ post).map PlayRequest.event := by
        rw [hs.watchers, List.eraseIdx_map, hrequests, eraseIdx_append_cons]
      have hmem : r ∈ s.requests := List.mem_of_getElem? hr
      dsimp only [Option.map_some]
      rw [hwatchers, hrequests, eraseIdx_append_cons]
      cases reply with
      | none =>
          dsimp only [Option.map_none, Option.toList]
          rw [List.append_nil]
          exact hforget
      | some id =>
          refine hforget.started (hs.named r hmem) hfresh (fun sound hsound hfirst heq => ?_) fun r' hr' heq => ?_
          · exact (hs.recorded sound hsound hfirst).2 r hmem heq.symm
          · have hapart := hs.apart
            rw [hrequests] at hapart
            obtain ⟨-, hright, hacross⟩ := List.pairwise_append.mp hapart
            rcases List.mem_append.mp hr' with hr' | hr'
            · exact hacross r' hr' r List.mem_cons_self heq
            · exact ((List.pairwise_cons.mp hright).1 r' hr' heq.symm).symm

/-- Only one event has a sound with a given id recorded, and it is the one that is found for the id. -/
theorem Consistent.key_eq_some (hs : s.Consistent) {event : String} {id : Nat}
    (hvalue : s.ngf.playingEvents.value event = some id) : s.ngf.playingEvents.key id = some event := by
  cases hkey : s.ngf.playingEvents.key id with
  | none => exact absurd hvalue (QMap.value_ne_of_key _ hkey event)
  | some event' =>
      obtain ⟨-, sound, hsound, rfl, hid⟩ := hs.live event id hvalue
      obtain ⟨-, sound', hsound', rfl, hid'⟩ := hs.live event' id (QMap.value_of_key _ hkey)
      rw [List.inj_on_of_nodup_map hs.nodup hsound hsound' (hid.trans hid'.symm)]

/-- The sounds that are recorded after one of them is over. -/
theorem Consistent.value_handleEventStatusChanged (hs : s.Consistent) (serverEventId : Nat) {status : Nat}
    (hover : status ≠ NgfStatus.playing.toNat) (event : String) :
    (s.ngf.handleEventStatusChanged serverEventId status).playingEvents.value event =
      if s.ngf.playingEvents.value event = some serverEventId then none else s.ngf.playingEvents.value event := by
  rw [NgfInterface.handleEventStatusChanged]
  cases hkey : s.ngf.playingEvents.key serverEventId with
  | none => exact (if_neg (QMap.value_ne_of_key _ hkey event)).symm
  | some event' =>
      have hvalue := QMap.value_of_key _ hkey
      have hnamed : event'.isEmpty = false := by
        rw [← Bool.not_eq_true, String.isEmpty_iff]
        exact (hs.live event' serverEventId hvalue).1
      dsimp only
      rw [hnamed, if_neg Bool.false_ne_true, if_pos hover]
      dsimp only
      rw [QMap.value_remove]
      by_cases hevent : event = event'
      · rw [if_pos hevent, hevent, if_pos hvalue]
      · have hother : s.ngf.playingEvents.value event ≠ some serverEventId := by
          intro hvalue'
          exact hevent (Option.some.inj ((hs.key_eq_some hvalue').symm.trans hkey))
        rw [if_neg hevent, if_neg hother]

theorem Consistent.eventStatusChanged (hs : s.Consistent) (serverEventId status : Nat) :
    (s.eventStatusChanged serverEventId status).Consistent := by
  by_cases hplaying : status = NgfStatus.playing.toNat
  · have heq : s.eventStatusChanged serverEventId status = s := by
      rw [NgfSession.eventStatusChanged, NgfInterface.handleEventStatusChanged]
      cases s.ngf.playingEvents.key serverEventId <;> simp [hplaying]
    rw [heq]
    exact hs
  · have hwatchers : (s.ngf.handleEventStatusChanged serverEventId status).watchers = s.ngf.watchers := by
      rw [NgfInterface.handleEventStatusChanged]
      cases s.ngf.playingEvents.key serverEventId with
      | none => rfl
      | some event =>
          dsimp only
          split_ifs <;> rfl
    have hmem : ∀ sound, sound ∈ (s.eventStatusChanged serverEventId status).sounds ↔
        sound ∈ s.sounds ∧ sound.id ≠ serverEventId := by
      intro sound
      rw [NgfSession.eventStatusChanged]
      simp [hplaying]
    have hvalue := hs.value_handleEventStatusChanged serverEventId hplaying
    refine ⟨hwatchers.trans hs.watchers, ?_, fun event id hrecorded => ?_, fun sound hsound hfirst => ?_,
      fun r hr hfirst => ?_, hs.apart, hs.named⟩
    · exact hs.nodup.sublist (List.filter_sublist.map Sound.id)
    · change (s.ngf.handleEventStatusChanged serverEventId status).playingEvents.value event = some id at hrecorded
      rw [hvalue] at hrecorded
      split_ifs at hrecorded with hid
      obtain ⟨hnamed, sound, hsound, hevent, rfl⟩ := hs.live event id hrecorded
      refine ⟨hnamed, sound, (hmem sound).mpr ⟨hsound, fun heq => hid ?_⟩, hevent, rfl⟩
      rw [hrecorded, heq]
    · obtain ⟨hsound, hid⟩ := (hmem sound).mp hsound
      obtain ⟨hrecorded, hne⟩ := hs.recorded sound hsound hfirst
      refine ⟨?_, hne⟩
      change (s.ngf.handleEventStatusChanged serverEventId status).playingEvents.value sound.event = some sound.id
      rw [hvalue, hrecorded, if_neg fun heq => hid (Option.some.inj heq)]
    · change (s.ngf.handleEventStatusChanged serverEventId status).playingEvents.value r.event = none
      rw [hvalue, hs.unrecorded r hr hfirst]
      rfl

/-! ### Silence and sound -/

/-- No call for the event is without an answer but overtaken ones, and its sounds that are not due to overtaken calls
were asked to stop. -/
structure Quiet (s : NgfSession) (event : String) : Prop where
  requests : ∀ r ∈ s.requests, r.event = event → r.overtaken = true
  sounds : ∀ sound ∈ s.sounds, sound.event = event → sound.overtaken = false → sound.stopped = true

/-- There is a sound of the event, or a call for one without an answer. -/
def Sounding (s : NgfSession) (event : String) : Prop :=
  (∃ r ∈ s.requests, r.event = event) ∨ ∃ sound ∈ s.sounds, sound.event = event

/-- The daemon refuses a sound of the event or ends one. -/
def givesUp (s : NgfSession) (event : String) : Event → Bool
  | .playFinished watcher none => (s.requests[watcher]?).any fun r => r.event = event
  | .eventStatusChanged serverEventId status =>
      decide (status ≠ NgfStatus.playing.toNat) &&
        s.sounds.any fun sound => sound.id = serverEventId && sound.event = event
  | _ => false

def PlaysOther (event : String) : Event → Prop
  | .play event' _ => event' ≠ event
  | _ => True

theorem quiet_new (event : String) : new.Quiet event := ⟨fun _ h => absurd h List.not_mem_nil, fun _ h => absurd h List.not_mem_nil⟩

/-- **Stopping.** The recorded sound is asked to stop, and the calls without an answer are overtaken. -/
theorem Consistent.quiet_stop (hs : s.Consistent) (event : String) : (s.stop event).Quiet event := by
  constructor
  · intro r hr heq
    obtain ⟨before, hbefore, rfl⟩ := List.mem_map.mp hr
    rw [PlayRequest.event_overtake] at heq
    subst heq
    exact PlayRequest.overtaken_self before
  · intro sound hsound heq hfirst
    obtain ⟨before, hbefore, rfl⟩ := List.mem_map.mp hsound
    have hvalue : s.ngf.playingEvents.value event = some before.id := heq ▸ (hs.recorded before hbefore hfirst).1
    have hrequest : NgfRequest.stop before.id ∈ s.ngf.stop event := by
      rw [NgfInterface.stop, hvalue]
      exact List.mem_cons_self
    exact Bool.or_eq_true_iff.mpr (Or.inr (decide_eq_true hrequest))

theorem Quiet.step {event : String} (h : s.Quiet event) {e : Event} (he : PlaysOther event e) :
    (s.step e).Quiet event := by
  cases e with
  | play event' props =>
      refine ⟨fun r hr heq => ?_, h.sounds⟩
      rcases List.mem_append.mp hr with hr | hr
      · obtain ⟨before, hbefore, rfl⟩ := List.mem_map.mp hr
        rw [PlayRequest.event_overtake] at heq
        exact PlayRequest.overtaken_mono event' (h.requests before hbefore heq)
      · split at hr
        · cases hr
        · rw [List.mem_singleton.mp hr] at heq
          exact absurd heq he
  | stop event' =>
      refine ⟨fun r hr heq => ?_, fun sound hsound heq hfirst => ?_⟩
      · obtain ⟨before, hbefore, rfl⟩ := List.mem_map.mp hr
        rw [PlayRequest.event_overtake] at heq
        exact PlayRequest.overtaken_mono event' (h.requests before hbefore heq)
      · obtain ⟨before, hbefore, rfl⟩ := List.mem_map.mp hsound
        exact Bool.or_eq_true_iff.mpr (Or.inl (h.sounds before hbefore heq hfirst))
  | playFinished watcher reply =>
      refine ⟨fun r hr => h.requests r (List.mem_of_mem_eraseIdx hr), fun sound hsound heq hfirst => ?_⟩
      rcases List.mem_append.mp hsound with hsound | hsound
      · exact h.sounds sound hsound heq hfirst
      · cases hr : s.requests[watcher]? with
        | none =>
            rw [hr] at hsound
            cases hsound
        | some r =>
            rw [hr] at hsound
            obtain ⟨id, -, rfl⟩ := Option.map_eq_some_iff.mp (Option.mem_toList.mp hsound)
            exact absurd ((h.requests r (List.mem_of_getElem? hr) heq).symm.trans hfirst) Bool.true_eq_false.mp
  | eventStatusChanged serverEventId status =>
      exact ⟨h.requests, fun sound hsound => h.sounds sound (List.mem_of_mem_filter hsound)⟩

/-- **Playing.** A sound is recorded, or it is asked for. -/
theorem Consistent.sounding_play (hs : s.Consistent) (event : String) (props : QVariantMap) :
    (s.play event props).Sounding event := by
  cases hvalue : s.ngf.playingEvents.value event with
  | some id =>
      obtain ⟨-, sound, hsound, hevent, -⟩ := hs.live event id hvalue
      exact Or.inr ⟨sound, hsound, hevent⟩
  | none =>
      rw [play_of_unrecorded hvalue]
      exact Or.inl ⟨_, List.mem_append_right _ List.mem_cons_self, rfl⟩

theorem Sounding.step {event : String} (h : s.Sounding event) (e : Event) :
    (s.step e).Sounding event ∨ s.givesUp event e = true := by
  have hovertake : ∀ event', (∃ r ∈ s.requests, r.event = event) →
      ∃ r ∈ s.requests.map (PlayRequest.overtake event'), r.event = event := by
    rintro event' ⟨r, hr, heq⟩
    exact ⟨_, List.mem_map_of_mem hr, (PlayRequest.event_overtake event' r).trans heq⟩
  cases e with
  | play event' props =>
      refine Or.inl (h.imp_left fun hrequests => ?_)
      obtain ⟨r, hr, heq⟩ := hovertake event' hrequests
      exact ⟨r, List.mem_append_left _ hr, heq⟩
  | stop event' =>
      refine Or.inl (h.imp (hovertake event') ?_)
      rintro ⟨sound, hsound, heq⟩
      exact ⟨_, List.mem_map_of_mem hsound, heq⟩
  | playFinished watcher reply =>
      rcases h with ⟨r, hr, heq⟩ | ⟨sound, hsound, heq⟩
      · cases hanswered : s.requests[watcher]? with
        | none =>
            refine Or.inl (Or.inl ⟨r, ?_, heq⟩)
            change r ∈ s.requests.eraseIdx watcher
            rw [List.eraseIdx_of_length_le (List.getElem?_eq_none_iff.mp hanswered)]
            exact hr
        | some answered =>
            obtain ⟨pre, post, hrequests, rfl⟩ := exists_split_of_getElem? hanswered
            rw [hrequests, List.mem_append, List.mem_cons] at hr
            have hkept : r ∈ pre ++ post → (s.step (.playFinished pre.length reply)).Sounding event := by
              intro hmem
              refine Or.inl ⟨r, ?_, heq⟩
              change r ∈ s.requests.eraseIdx pre.length
              rw [hrequests, eraseIdx_append_cons]
              exact hmem
            rcases hr with hr | rfl | hr
            · exact Or.inl (hkept (List.mem_append_left _ hr))
            · cases reply with
              | none =>
                  refine Or.inr ?_
                  rw [givesUp, hanswered]
                  exact decide_eq_true heq
              | some id =>
                  refine Or.inl (Or.inr ⟨Sound.mk r.event id r.overtaken false, ?_, heq⟩)
                  change _ ∈ s.sounds ++ _
                  rw [hanswered]
                  exact List.mem_append_right _ List.mem_cons_self
            · exact Or.inl (hkept (List.mem_append_right _ hr))
      · exact Or.inl (Or.inr ⟨sound, List.mem_append_left _ hsound, heq⟩)
  | eventStatusChanged serverEventId status =>
      rcases h with hrequests | ⟨sound, hsound, heq⟩
      · exact Or.inl (Or.inl hrequests)
      · by_cases hkept : status = NgfStatus.playing.toNat ∨ sound.id ≠ serverEventId
        · exact Or.inl (Or.inr ⟨sound, List.mem_filter.mpr ⟨hsound, decide_eq_true hkept⟩, heq⟩)
        · rw [not_or, not_not] at hkept
          refine Or.inr (Bool.and_eq_true_iff.mpr ⟨decide_eq_true hkept.1, List.any_eq_true.mpr ⟨sound, hsound, ?_⟩⟩)
          rw [decide_eq_true hkept.2, decide_eq_true heq]
          rfl

theorem consistent_step (s : NgfSession) (e : Event) (hs : s.Consistent) (he : s.Expected e) : (s.step e).Consistent := by
  cases e with
  | play event props => exact hs.play he props
  | stop event => exact hs.stop event
  | playFinished watcher reply => exact hs.playFinished he
  | eventStatusChanged serverEventId status => exact hs.eventStatusChanged serverEventId status

end NgfSession

end YaqtLib
