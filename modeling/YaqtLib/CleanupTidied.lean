import Mathlib.Logic.Relation
import YaqtLib.CleanupSlots

/-! What `cleanupMap` leaves of an object, at any depth: whether a second call changes nothing, and whether every field
is kept but for those that it is meant to add, replace or drop. Of an object with slots both hold exactly if they hold
of the objects in its slots. -/

namespace YaqtLib

open TdConst

namespace TDLibReceiver

/-! ### The objects that are visited -/

/-- The keys of slots. -/
def slotKeys : List String :=
  [STICKER, CONTENT, ANIMATED_EMOJI, COVERS, STICKERS, INITIAL_STATE, FINAL_STATE, BACKGROUND, LEVER, LEFT_REEL,
    CENTER_REEL, RIGHT_REEL, VOICE_NOTE]

/-- The slots of each type. -/
theorem slots_rule {P : List Slot → Prop} (type : String) (nil : P []) (one : ∀ key ∈ slotKeys, ∀ isList, P [⟨key, isList⟩])
    (dice : P [⟨INITIAL_STATE, false⟩, ⟨FINAL_STATE, false⟩])
    (slotMachine :
      P [⟨BACKGROUND, false⟩, ⟨LEVER, false⟩, ⟨LEFT_REEL, false⟩, ⟨CENTER_REEL, false⟩, ⟨RIGHT_REEL, false⟩]) :
    P (slots type) := by
  rw [slots]
  refine iteInduction (fun _ => one _ (by decide) _) fun _ => ?_
  refine iteInduction (fun _ => one _ (by decide) _) fun _ => ?_
  refine iteInduction (fun _ => one _ (by decide) _) fun _ => ?_
  refine iteInduction (fun _ => one _ (by decide) _) fun _ => ?_
  refine iteInduction (fun _ => one _ (by decide) _) fun _ => ?_
  refine iteInduction (fun _ => one _ (by decide) _) fun _ => ?_
  refine iteInduction (fun _ => dice) fun _ => ?_
  refine iteInduction (fun _ => one _ (by decide) _) fun _ => ?_
  refine iteInduction (fun _ => slotMachine) fun _ => ?_
  exact iteInduction (fun _ => one _ (by decide) _) fun _ => nil

theorem nodup_slots (type : String) : ((slots type).map Slot.key).Nodup :=
  slots_rule (P := fun slots => (slots.map Slot.key).Nodup) type List.nodup_nil (fun _ _ _ => List.nodup_singleton _)
    (by decide) (by decide)

theorem key_mem_slotKeys {type : String} {slot : Slot} (h : slot ∈ slots type) : slot.key ∈ slotKeys := by
  revert slot
  refine slots_rule (P := fun slots => ∀ {slot : Slot}, slot ∈ slots → slot.key ∈ slotKeys) type
    (fun h => absurd h List.not_mem_nil) (fun key hkey isList slot h => ?_) (fun {slot} h => ?_) (fun {slot} h => ?_)
  · rwa [List.mem_singleton.mp h]
  · revert slot
    decide
  · revert slot
    decide

theorem key_ne {type key : String} (hkey : key ∉ slotKeys) {slot : Slot} (h : slot ∈ slots type) : slot.key ≠ key :=
  fun heq => hkey (heq ▸ key_mem_slotKeys h)

/-- The objects in a slot. -/
def objectsOf (isList : Bool) (v : QVariant) : List QVariantMap := if isList then v.toList.map QVariant.toMap else [v.toMap]

/-- An object in a slot of another one. -/
def Child (map object : QVariantMap) : Prop :=
  ∃ slot ∈ slots (typeOf map), object ∈ objectsOf slot.isList (map.value slot.key)

/-- The objects that `cleanupMap` comes to. -/
abbrev Visited : QVariantMap → QVariantMap → Prop := Relation.ReflTransGen Child

theorem inside_of_child {map object : QVariantMap} (h : Child map object) : Inside object map := by
  obtain ⟨slot, -, hobject⟩ := h
  rw [objectsOf] at hobject
  split_ifs at hobject
  · obtain ⟨entry, hentry, rfl⟩ := List.mem_map.mp hobject
    exact ⟨slot.key, Or.inr ⟨entry, hentry, rfl⟩⟩
  · exact ⟨slot.key, Or.inl (List.mem_singleton.mp hobject)⟩

theorem not_child_nil (object : QVariantMap) : ¬ Child [] object := by
  rintro ⟨slot, hslot, -⟩
  have hslots : slots (typeOf []) = [] := by decide
  rw [hslots] at hslot
  exact absurd hslot List.not_mem_nil

/-- What holds of an object exactly if something holds of it alone and it holds of the objects in its slots, holds
exactly if that something holds of every object that is visited. -/
theorem forall_visited_iff {Q L : QVariantMap → Prop}
    (hstep : ∀ map, Q map ↔ L map ∧ ∀ object, Child map object → Q object) (map : QVariantMap) :
    Q map ↔ ∀ object, Visited map object → L object := by
  constructor
  · intro hQ object hvisited
    have hobject : Q object := by
      induction hvisited with
      | refl => exact hQ
      | tail _ hchild ih => exact ((hstep _).mp ih).2 _ hchild
    exact ((hstep object).mp hobject).1
  · intro hL
    induction hdepth : depthOfEntries map using Nat.strongRecOn generalizing map with
    | ind depth ih =>
        subst hdepth
        refine (hstep map).mpr ⟨hL map .refl, fun object hchild => ?_⟩
        have hobject : ∀ other, Visited object other → L other := fun other hother => hL other (.head hchild hother)
        by_cases hne : object = []
        · subst hne
          exact (hstep []).mpr ⟨hobject [] .refl, fun other hother => absurd hother (not_child_nil other)⟩
        · exact ih _ (depthOfEntries_lt_of_inside (inside_of_child hchild) hne) object hobject rfl

/-! ### The values of the slots -/

section Values

variable (charSigned : Bool)

/-- The value of a slot after a call. -/
abbrev tidyValue (isList : Bool) (v : QVariant) : QVariant := (cleanupValue (cleanup charSigned) isList v).1

theorem tidyValue_map (map : QVariantMap) :
    tidyValue charSigned false (.map map) = .map (cleanupMap charSigned map) := by
  show (if (cleanup charSigned map).2 then QVariant.map (cleanup charSigned map).1 else .map map) = _
  split_ifs with hcleaned
  · rfl
  · rw [cleanupMap, cleanup_unchanged charSigned map ((Bool.not_eq_true _).mp hcleaned)]

theorem tidyValue_of_toMap {v : QVariant} (h : v.toMap = []) : tidyValue charSigned false v = v := by
  apply cleanupValue_unchanged
  show ¬ (cleanup charSigned v.toMap).2 = true
  rw [h, cleanup_nil]
  exact Bool.false_ne_true

/-- The entries of a list are cleaned as the values of slots are. -/
theorem tidyValue_list (list : QVariantList) :
    tidyValue charSigned true (.list list) = .list (list.map (tidyValue charSigned false)) := by
  by_cases hany : (list.map fun entry => cleanup charSigned entry.toMap).any Prod.snd = true
  · have hlist : cleanupList (cleanup charSigned) list = (list.map (tidyValue charSigned false), true) := if_pos hany
    show (if (cleanupList (cleanup charSigned) list).2 then QVariant.list (cleanupList (cleanup charSigned) list).1
      else .list list) = _
    rw [hlist]
    rfl
  · have hlist : cleanupList (cleanup charSigned) list = (list, false) := if_neg hany
    have hentries : list.map (tidyValue charSigned false) = list := by
      refine (List.map_congr_left fun entry hentry => ?_).trans (List.map_id list)
      refine cleanupValue_unchanged _ fun hcleaned => hany ?_
      exact List.any_eq_true.mpr ⟨_, List.mem_map_of_mem hentry, hcleaned⟩
    show (if (cleanupList (cleanup charSigned) list).2 then QVariant.list (cleanupList (cleanup charSigned) list).1
      else .list list) = _
    rw [hlist, hentries]
    rfl

theorem tidyValue_of_toList {v : QVariant} (h : v.toList = []) : tidyValue charSigned true v = v := by
  apply cleanupValue_unchanged
  show ¬ (cleanupList (cleanup charSigned) v.toList).2 = true
  rw [h]
  exact Bool.false_ne_true

theorem toList_cases (v : QVariant) : v.toList = [] ∨ ∃ list, v = .list list := by
  cases v with
  | list list => exact .inr ⟨list, rfl⟩
  | _ => exact .inl rfl

theorem toMap_cases (v : QVariant) : v.toMap = [] ∨ ∃ map, v = .map map := by
  cases v with
  | map map => exact .inr ⟨map, rfl⟩
  | _ => exact .inl rfl

/-- A second call changes nothing. -/
def Settled (map : QVariantMap) : Prop := cleanupMap charSigned (cleanupMap charSigned map) = cleanupMap charSigned map

theorem settled_nil : Settled charSigned [] := rfl

theorem tidyValue_tidyValue_iff_toMap (v : QVariant) :
    tidyValue charSigned false (tidyValue charSigned false v) = tidyValue charSigned false v ↔
      Settled charSigned v.toMap := by
  rcases toMap_cases v with hnil | ⟨map, rfl⟩
  · rw [tidyValue_of_toMap charSigned hnil, tidyValue_of_toMap charSigned hnil, hnil]
    exact iff_of_true rfl (settled_nil charSigned)
  · rw [tidyValue_map, tidyValue_map, QVariant.map.injEq]
    exact Iff.rfl

/-- The value of a slot is settled if the objects in it are. -/
theorem tidyValue_tidyValue_iff (isList : Bool) (v : QVariant) :
    tidyValue charSigned isList (tidyValue charSigned isList v) = tidyValue charSigned isList v ↔
      ∀ object ∈ objectsOf isList v, Settled charSigned object := by
  cases isList with
  | false =>
      rw [tidyValue_tidyValue_iff_toMap]
      exact List.forall_mem_singleton.symm
  | true =>
      have hobjects : (∀ object ∈ objectsOf true v, Settled charSigned object) ↔
          ∀ entry ∈ v.toList, Settled charSigned entry.toMap := List.forall_mem_map
      rw [hobjects]
      rcases toList_cases v with hnil | ⟨list, rfl⟩
      · rw [tidyValue_of_toList charSigned hnil, tidyValue_of_toList charSigned hnil, hnil]
        exact iff_of_true rfl (List.forall_mem_nil _)
      · rw [tidyValue_list, tidyValue_list, QVariant.list.injEq, List.map_map, List.map_inj_left]
        exact forall₂_congr fun entry _ => tidyValue_tidyValue_iff_toMap charSigned entry

end Values

/-! ### The documented changes -/

/-- The changes of an object's fields that a call is meant to make. -/
inductive Documented (charSigned : Bool) (map result : QVariantMap) : String → Prop
  | replyToMessageId (hreply : typeOf map = TYPE_MESSAGE ∧ IsReply map ∨ IsReplyDraft map)
      (habsent : map.contains REPLY_TO_MESSAGE_ID = false)
      (hvalue : result.value REPLY_TO_MESSAGE_ID = (replyTo map).value MESSAGE_ID) :
      Documented charSigned map result REPLY_TO_MESSAGE_ID
  | replyInChatId (hreply : typeOf map = TYPE_MESSAGE ∧ IsReply map) (habsent : map.contains REPLY_IN_CHAT_ID = false)
      (hvalue : result.value REPLY_IN_CHAT_ID = (replyTo map).value CHAT_ID) :
      Documented charSigned map result REPLY_IN_CHAT_ID
  | emojis (hset : typeOf map = TYPE_STICKER_SET) (hdropped : result.contains EMOJIS = false) :
      Documented charSigned map result EMOJIS
  | waveform (hvoice : typeOf map = TYPE_VOICE_NOTE) (hdropped : result.contains WAVEFORM = false) :
      Documented charSigned map result WAVEFORM
  | decodedWaveform (hvoice : typeOf map = TYPE_VOICE_NOTE) (hwaveform : map.contains WAVEFORM = true)
      (hvalue : result.value DECODED_WAVEFORM =
        .list ((WaveformManager.decodeWaveform charSigned (map.value WAVEFORM).toStr).map .double)) :
      Documented charSigned map result DECODED_WAVEFORM
  | type (hsponsored : typeOf map = TYPE_SPONSORED_CHAT) (hdropped : result.contains TYPE_ = false) :
      Documented charSigned map result TYPE_
  | uniqueId (hsponsored : typeOf map = TYPE_SPONSORED_CHAT) (hdropped : result.contains UNIQUE_ID = false) :
      Documented charSigned map result UNIQUE_ID

theorem Documented.contains_waveform {charSigned : Bool} {map result : QVariantMap} {key : String}
    (h : Documented charSigned map result key) (hkey : key = DECODED_WAVEFORM) : map.contains WAVEFORM = true := by
  cases h with
  | decodedWaveform _ hwaveform _ => exact hwaveform
  | _ => exact absurd hkey (by decide)

theorem Documented.typeOf_eq {charSigned : Bool} {map result : QVariantMap} {key : String}
    (h : Documented charSigned map result key) (hkey : key = TYPE_) : typeOf map = TYPE_SPONSORED_CHAT := by
  cases h with
  | type hsponsored _ => exact hsponsored
  | _ => exact absurd hkey (by decide)

/-- A value whose objects have no other changes, at any depth. -/
inductive Tidied (charSigned : Bool) : QVariant → QVariant → Prop
  | same (v : QVariant) : Tidied charSigned v v
  | list {list list' : QVariantList} (h : List.Forall₂ (Tidied charSigned) list list') :
      Tidied charSigned (.list list) (.list list')
  | map {map map' : QVariantMap}
      (hcontains : ∀ key, ¬ Documented charSigned map map' key → map'.contains key = map.contains key)
      (hvalue : ∀ key, ¬ Documented charSigned map map' key → Tidied charSigned (map.value key) (map'.value key)) :
      Tidied charSigned (.map map) (.map map')

section Tidied

variable {charSigned : Bool}

/-- A call makes no other change of the object. -/
abbrev OnlyDocumented (charSigned : Bool) (map : QVariantMap) : Prop :=
  Tidied charSigned (.map map) (.map (cleanupMap charSigned map))

theorem Tidied.of_string {s : String} {v : QVariant} (h : Tidied charSigned (.string s) v) : v = .string s := by
  cases h
  rfl

theorem Tidied.of_nil {v : QVariant} (h : Tidied charSigned v (.list [])) : v = .list [] := by
  cases h with
  | same => rfl
  | list hentries => rw [List.forall₂_nil_right_iff.mp hentries]

theorem tidied_tidyValue_iff_toMap (v : QVariant) :
    Tidied charSigned v (tidyValue charSigned false v) ↔ OnlyDocumented charSigned v.toMap := by
  rcases toMap_cases v with hnil | ⟨map, rfl⟩
  · rw [tidyValue_of_toMap charSigned hnil, hnil]
    exact iff_of_true (.same _) (.same _)
  · rw [tidyValue_map]
    exact Iff.rfl

/-- The value of a slot is tidied if the objects in it are. -/
theorem tidied_tidyValue_iff (isList : Bool) (v : QVariant) :
    Tidied charSigned v (tidyValue charSigned isList v) ↔
      ∀ object ∈ objectsOf isList v, OnlyDocumented charSigned object := by
  cases isList with
  | false =>
      rw [tidied_tidyValue_iff_toMap]
      exact List.forall_mem_singleton.symm
  | true =>
      have hobjects : (∀ object ∈ objectsOf true v, OnlyDocumented charSigned object) ↔
          ∀ entry ∈ v.toList, OnlyDocumented charSigned entry.toMap := List.forall_mem_map
      rw [hobjects]
      rcases toList_cases v with hnil | ⟨list, rfl⟩
      · rw [tidyValue_of_toList charSigned hnil, hnil]
        exact iff_of_true (.same _) (List.forall_mem_nil _)
      · rw [tidyValue_list]
        have hentries : (∀ entry ∈ list, OnlyDocumented charSigned entry.toMap) ↔
            ∀ entry ∈ list, Tidied charSigned entry (tidyValue charSigned false entry) :=
          forall₂_congr fun entry _ => (tidied_tidyValue_iff_toMap entry).symm
        refine Iff.trans ⟨fun h => ?_, fun h => .list ?_⟩ hentries.symm
        · generalize hlist : list.map (tidyValue charSigned false) = list' at h
          cases h with
          | same =>
              intro entry hentry
              have hsame : tidyValue charSigned false entry = entry := by
                rw [← List.map_id list, List.map_map, Function.comp_id] at hlist
                exact List.map_inj_left.mp hlist entry hentry
              rw [hsame]
              exact .same _
          | list hforall =>
              rw [← hlist, List.forall₂_map_right_iff, List.forall₂_same] at hforall
              exact hforall
        · rw [List.forall₂_map_right_iff, List.forall₂_same]
          exact h

end Tidied

/-! ### The objects with slots -/

/-- A key reads as before. -/
def SameAt (map result : QVariantMap) (key : String) : Prop :=
  result.contains key = map.contains key ∧ result.value key = map.value key

section SameAt

variable {map result : QVariantMap} {key : String}

theorem SameAt.trans {result' : QVariantMap} (h : SameAt map result key) (h' : SameAt result result' key) :
    SameAt map result' key := ⟨h'.1.trans h.1, h'.2.trans h.2⟩

theorem sameAt_insert (map : QVariantMap) {key' : String} (v : QVariant) (h : key ≠ key') :
    SameAt map (map.insert key' v) key := by
  refine ⟨?_, QVariantMap.value_insert_of_ne _ _ h⟩
  rw [QVariantMap.contains_insert, decide_eq_false h.symm, Bool.false_or]

theorem sameAt_remove (map : QVariantMap) {key' : String} (h : key ≠ key') : SameAt map (map.remove key') key :=
  ⟨QVariantMap.contains_remove_of_ne _ h, QVariantMap.value_remove_of_ne _ h⟩

theorem sameAt_copyMissing (source map : QVariantMap) (sourceKey : String) {key' : String} (h : key ≠ key') :
    SameAt map (copyMissing source sourceKey map key') key :=
  ⟨contains_copyMissing_of_ne _ _ _ h.symm, value_copyMissing_of_ne _ _ _ h⟩

/-- A key is copied, or it reads as before. -/
theorem sameAt_or_copied (source map : QVariantMap) (sourceKey key : String) :
    SameAt map (copyMissing source sourceKey map key) key ∨
      map.contains key = false ∧ (copyMissing source sourceKey map key).value key = source.value sourceKey := by
  by_cases hcopied : (source.contains sourceKey && !map.contains key) = true
  · refine .inr ⟨?_, ?_⟩
    · rw [Bool.and_eq_true, Bool.not_eq_true'] at hcopied
      exact hcopied.2
    · rw [copyMissing, if_pos hcopied, QVariantMap.value_insert_self]
  · rw [copyMissing, if_neg hcopied]
    exact .inl ⟨rfl, rfl⟩

theorem Tidied.of_sameAt {charSigned : Bool} (h : SameAt map result key) :
    Tidied charSigned (map.value key) (result.value key) := by
  rw [h.2]
  exact .same _

end SameAt

section Slots

variable (charSigned : Bool) {map : QVariantMap}

/-- An object with the values of its slots cleaned. -/
abbrev withSlots (map : QVariantMap) : Cleaned QVariantMap :=
  writeSlots (cleanup charSigned) map (slots (typeOf map))

theorem cleanup_eq_afterSlots (map : QVariantMap) :
    cleanup charSigned map = afterSlots charSigned map (withSlots charSigned map) := by
  rw [cleanup_eq, cleanupStep_eq]

theorem typeOf_ne_of_slots (hslots : slots (typeOf map) ≠ []) {type : String} (htype : slots type = []) :
    typeOf map ≠ type := by
  rintro rfl
  exact hslots htype

/-- What is done to an object with slots: the ids of a reply are copied, the emojis of a sticker set dropped. -/
theorem afterSlots_of_slots (hslots : slots (typeOf map) ≠ []) (written : Cleaned QVariantMap) :
    afterSlots charSigned map written =
      if typeOf map = TYPE_MESSAGE ∧ IsReply map then (copyReplies map written.1, true)
      else if typeOf map = TYPE_STICKER_SET ∧ written.2 = true then (written.1.remove EMOJIS, true)
      else written := by
  have hdraft : ¬ IsReplyDraft map := fun hdraft => typeOf_ne_of_slots hslots (by decide) hdraft.1
  rw [afterSlots, if_neg (typeOf_ne_of_slots hslots (by decide)), if_neg hdraft,
    if_neg (typeOf_ne_of_slots hslots (by decide) : typeOf map ≠ TYPE_SPONSORED_CHAT),
    if_neg (typeOf_ne_of_slots hslots (by decide) : typeOf map ≠ TYPE_VOICE_NOTE)]
  by_cases hmessage : typeOf map = TYPE_MESSAGE
  · have hset : typeOf map ≠ TYPE_STICKER_SET := by
      rw [hmessage]
      decide
    rw [if_pos hmessage]
    by_cases hreply : IsReply map
    · rw [if_pos hreply, if_pos ⟨hmessage, hreply⟩]
    · rw [if_neg hreply, if_neg fun h => hreply h.2, if_neg fun h => hset h.1]
  · have hreply : ¬ (typeOf map = TYPE_MESSAGE ∧ IsReply map) := fun h => hmessage h.1
    rw [if_neg hmessage, if_neg hreply]
    by_cases hset : typeOf map = TYPE_STICKER_SET
    · rw [if_pos hset]
      by_cases hwritten : written.2 = true
      · rw [if_pos hwritten, if_pos ⟨hset, hwritten⟩, hwritten]
      · rw [if_neg hwritten, if_neg fun h => hwritten h.2]
    · have hdropped : ¬ (typeOf map = TYPE_STICKER_SET ∧ written.2 = true) := fun h => hset h.1
      rw [if_neg hset, if_neg hdropped]

/-- The fields besides the slots that may change in an object with slots. -/
def besides : List String := [REPLY_TO_MESSAGE_ID, REPLY_IN_CHAT_ID, EMOJIS]

theorem sameAt_afterSlots (hslots : slots (typeOf map) ≠ []) (written : Cleaned QVariantMap) {key : String}
    (hkey : key ∉ besides) : SameAt written.1 (afterSlots charSigned map written).1 key := by
  simp only [besides, List.mem_cons, List.not_mem_nil, or_false, not_or] at hkey
  obtain ⟨hmessageId, hchatId, hemojis⟩ := hkey
  rw [afterSlots_of_slots charSigned hslots]
  split_ifs
  · exact (sameAt_copyMissing _ _ _ hmessageId).trans (sameAt_copyMissing _ _ _ hchatId)
  · exact sameAt_remove _ hemojis
  · exact ⟨rfl, rfl⟩

theorem sameAt_withSlots (hslots : slots (typeOf map) ≠ []) {key : String} (hkey : key ∉ besides) :
    SameAt (withSlots charSigned map).1 (cleanupMap charSigned map) key := by
  rw [cleanupMap, cleanup_eq_afterSlots]
  exact sameAt_afterSlots charSigned hslots _ hkey

theorem notMem_besides {key : String} (h : key ∈ slotKeys) : key ∉ besides := by
  revert key
  decide

theorem value_cleanupMap_slot {slot : Slot} (hslot : slot ∈ slots (typeOf map)) :
    (cleanupMap charSigned map).value slot.key = tidyValue charSigned slot.isList (map.value slot.key) := by
  rw [(sameAt_withSlots charSigned (List.ne_nil_of_mem hslot) (notMem_besides (key_mem_slotKeys hslot))).2]
  exact value_writeSlots _ map (nodup_slots _) hslot

/-- A field that is no slot is kept. -/
theorem sameAt_cleanupMap (hslots : slots (typeOf map) ≠ []) {key : String} (hkey : key ∉ besides)
    (hslot : ∀ slot ∈ slots (typeOf map), slot.key ≠ key) : SameAt map (cleanupMap charSigned map) key := by
  refine SameAt.trans ⟨?_, ?_⟩ (sameAt_withSlots charSigned hslots hkey)
  · exact contains_writeSlots map rfl _ _
  · exact value_writeSlots_of_notMem _ map hslot

theorem typeOf_cleanupMap (hslots : slots (typeOf map) ≠ []) : typeOf (cleanupMap charSigned map) = typeOf map := by
  have hsame : SameAt map (cleanupMap charSigned map) TYPE_ :=
    sameAt_cleanupMap charSigned hslots (by decide) fun slot hslot => key_ne (by decide) hslot
  rw [typeOf, hsame.2]

/-- The objects in the slots of a settled object are settled. -/
theorem Settled.of_child {object : QVariantMap} (h : Settled charSigned map) (hchild : Child map object) :
    Settled charSigned object := by
  obtain ⟨slot, hslot, hobject⟩ := hchild
  have htype := typeOf_cleanupMap charSigned (List.ne_nil_of_mem hslot)
  have hvalue : tidyValue charSigned slot.isList ((cleanupMap charSigned map).value slot.key) =
      (cleanupMap charSigned map).value slot.key := by
    have hagain : (cleanupMap charSigned (cleanupMap charSigned map)).value slot.key =
        tidyValue charSigned slot.isList ((cleanupMap charSigned map).value slot.key) :=
      value_cleanupMap_slot charSigned (by rw [htype]; exact hslot)
    rw [← hagain, h]
  rw [value_cleanupMap_slot charSigned hslot] at hvalue
  exact (tidyValue_tidyValue_iff charSigned _ _).mp hvalue object hobject

/-- An object with slots is settled if the objects in them are. -/
theorem settled_of_children (hslots : slots (typeOf map) ≠ [])
    (h : ∀ object, Child map object → Settled charSigned object) : Settled charSigned map := by
  have htype := typeOf_cleanupMap charSigned hslots
  have hreplyTo : SameAt map (cleanupMap charSigned map) REPLY_TO :=
    sameAt_cleanupMap charSigned hslots (by decide) fun slot hslot => key_ne (by decide) hslot
  have hwritten : (withSlots charSigned (cleanupMap charSigned map)).1 = cleanupMap charSigned map := by
    refine writeSlots_of_clean _ rfl fun slot hslot => ?_
    rw [htype] at hslot
    rw [value_cleanupMap_slot charSigned hslot]
    exact (tidyValue_tidyValue_iff charSigned _ _).mpr fun object hobject => h object ⟨slot, hslot, hobject⟩
  have hresult : cleanupMap charSigned map = (afterSlots charSigned map (withSlots charSigned map)).1 := by
    rw [cleanupMap, cleanup_eq_afterSlots]
  rw [Settled]
  generalize cleanupMap charSigned map = result at htype hreplyTo hwritten hresult
  rw [cleanupMap, cleanup_eq_afterSlots, afterSlots_of_slots charSigned (by rwa [htype]), hwritten, htype]
  have hreply : IsReply result ↔ IsReply map := by rw [IsReply, IsReply, replyTo, replyTo, hreplyTo.1, hreplyTo.2]
  rw [afterSlots_of_slots charSigned hslots] at hresult
  by_cases hmessage : typeOf map = TYPE_MESSAGE ∧ IsReply map
  · -- the ids are there by now
    rw [if_pos hmessage] at hresult
    rw [if_pos ⟨hmessage.1, hreply.mpr hmessage.2⟩]
    have hcopy : copyReplies result result = copyReplies map result := by
      rw [copyReplies, copyReplies, replyTo, replyTo, hreplyTo.2]
    have hmessageId : (replyTo map).contains MESSAGE_ID = true → result.contains REPLY_TO_MESSAGE_ID = true := by
      intro hcontains
      rw [hresult, copyReplies, contains_copyMissing_of_ne _ _ _ (by decide)]
      exact contains_copyMissing hcontains
    have hchatId : (replyTo map).contains CHAT_ID = true → result.contains REPLY_IN_CHAT_ID = true := by
      intro hcontains
      rw [hresult]
      exact contains_copyMissing hcontains
    show copyReplies result result = result
    rw [hcopy, copyReplies, copyMissing_of_contains hmessageId, copyMissing_of_contains hchatId]
  · rw [if_neg hmessage] at hresult
    rw [if_neg fun h => hmessage ⟨h.1, hreply.mp h.2⟩]
    split_ifs with hset
    · -- the emojis are gone by now
      by_cases hcleaned : (withSlots charSigned map).2 = true
      · rw [if_pos ⟨hset.1, hcleaned⟩] at hresult
        have hnone : result.contains EMOJIS = false := by
          rw [hresult]
          exact QVariantMap.contains_remove_self _ _
        exact QVariantMap.remove_of_contains hnone
      · have hsame : result = map := by
          have hunchanged := writeSlots_unchanged _ map _ ((Bool.not_eq_true _).mp hcleaned)
          rw [if_neg fun h => hcleaned h.2] at hresult
          exact hresult.trans (congrArg Prod.fst hunchanged)
        rw [hsame] at hset
        exact absurd hset.2 hcleaned
    · exact hwritten

/-- The objects in the slots of a tidied object are tidied. -/
theorem OnlyDocumented.of_child {object : QVariantMap} (h : OnlyDocumented charSigned map) (hchild : Child map object) :
    OnlyDocumented charSigned object := by
  obtain ⟨slot, hslot, hobject⟩ := hchild
  refine (tidied_tidyValue_iff slot.isList (map.value slot.key)).mp ?_ object hobject
  rw [← value_cleanupMap_slot charSigned hslot]
  have hkey := key_mem_slotKeys hslot
  rw [OnlyDocumented] at h
  generalize cleanupMap charSigned map = result at h
  cases h with
  | same => exact .same _
  | map _ hvalue =>
      refine hvalue slot.key fun hdocumented => ?_
      generalize slot.key = key at hkey hdocumented
      cases hdocumented <;> exact absurd hkey (by decide)

/-- The fields besides the slots are kept, or changed as documented. -/
theorem sameAt_or_documented (hslots : slots (typeOf map) ≠ []) {key : String} (hkey : key ∈ besides) :
    SameAt map (cleanupMap charSigned map) key ∨ Documented charSigned map (cleanupMap charSigned map) key := by
  have hbefore : ∀ key ∈ besides, SameAt map (withSlots charSigned map).1 key := fun key hkey =>
    ⟨contains_writeSlots map rfl _ _, value_writeSlots_of_notMem _ map fun slot hslot heq =>
      notMem_besides (key_mem_slotKeys hslot) (heq ▸ hkey)⟩
  have hresult : cleanupMap charSigned map = (afterSlots charSigned map (withSlots charSigned map)).1 := by
    rw [cleanupMap, cleanup_eq_afterSlots]
  generalize cleanupMap charSigned map = result at hresult
  rw [afterSlots_of_slots charSigned hslots] at hresult
  have hcases : key = REPLY_TO_MESSAGE_ID ∨ key = REPLY_IN_CHAT_ID ∨ key = EMOJIS := by
    simpa only [besides, List.mem_cons, List.not_mem_nil, or_false] using hkey
  have hafter : SameAt (withSlots charSigned map).1 result key → SameAt map result key := (hbefore key hkey).trans
  split_ifs at hresult with hmessage hset
  · -- a message that replies to another one
    let copied := copyMissing (replyTo map) MESSAGE_ID (withSlots charSigned map).1 REPLY_TO_MESSAGE_ID
    have hchat : result = copyMissing (replyTo map) CHAT_ID copied REPLY_IN_CHAT_ID := hresult
    rcases hcases with rfl | rfl | rfl
    · have hlast : SameAt copied result REPLY_TO_MESSAGE_ID := hchat ▸ sameAt_copyMissing _ _ _ (by decide)
      rcases sameAt_or_copied (replyTo map) (withSlots charSigned map).1 MESSAGE_ID REPLY_TO_MESSAGE_ID with
        hsame | ⟨habsent, hvalue⟩
      · exact .inl (hafter (hsame.trans hlast))
      · refine .inr (.replyToMessageId (.inl hmessage) ?_ (hlast.2.trans hvalue))
        rw [← (hbefore _ hkey).1, habsent]
    · have hfirst : SameAt (withSlots charSigned map).1 copied REPLY_IN_CHAT_ID :=
        sameAt_copyMissing _ _ _ (by decide)
      rcases sameAt_or_copied (replyTo map) copied CHAT_ID REPLY_IN_CHAT_ID with hsame | ⟨habsent, hvalue⟩
      · exact .inl (hafter (hfirst.trans (hchat ▸ hsame)))
      · refine .inr (.replyInChatId hmessage ?_ (hchat ▸ hvalue))
        rw [← (hbefore _ hkey).1, ← hfirst.1, habsent]
    · have hfirst : SameAt (withSlots charSigned map).1 copied EMOJIS := sameAt_copyMissing _ _ _ (by decide)
      exact .inl (hafter (hfirst.trans (hchat ▸ sameAt_copyMissing _ _ _ (by decide))))
  · -- a sticker set
    have hremoved : result = (withSlots charSigned map).1.remove EMOJIS := hresult
    rcases hcases with rfl | rfl | rfl
    · exact .inl (hafter (hremoved ▸ sameAt_remove _ (by decide)))
    · exact .inl (hafter (hremoved ▸ sameAt_remove _ (by decide)))
    · exact .inr (.emojis hset.1 (hremoved ▸ QVariantMap.contains_remove_self _ _))
  · exact .inl (hafter (hresult ▸ ⟨rfl, rfl⟩))

/-- An object with slots is tidied if the objects in them are. -/
theorem onlyDocumented_of_children (hslots : slots (typeOf map) ≠ [])
    (h : ∀ object, Child map object → OnlyDocumented charSigned object) : OnlyDocumented charSigned map := by
  have hkept : ∀ key, ¬ Documented charSigned map (cleanupMap charSigned map) key → key ∈ besides →
      SameAt map (cleanupMap charSigned map) key := fun key hdocumented hkey =>
    (sameAt_or_documented charSigned hslots hkey).resolve_right hdocumented
  refine .map (fun key hdocumented => ?_) fun key hdocumented => ?_
  · by_cases hkey : key ∈ besides
    · exact (hkept key hdocumented hkey).1
    · rw [(sameAt_withSlots charSigned hslots hkey).1]
      exact contains_writeSlots map rfl _ _
  · by_cases hkey : key ∈ besides
    · exact .of_sameAt (hkept key hdocumented hkey)
    · by_cases hslot : ∃ slot ∈ slots (typeOf map), slot.key = key
      · obtain ⟨slot, hslot, rfl⟩ := hslot
        rw [value_cleanupMap_slot charSigned hslot]
        exact (tidied_tidyValue_iff _ _).mpr fun object hobject => h object ⟨slot, hslot, hobject⟩
      · exact .of_sameAt (sameAt_cleanupMap charSigned hslots hkey fun slot hmem hkey => hslot ⟨slot, hmem, hkey⟩)

end Slots

end TDLibReceiver

end YaqtLib
