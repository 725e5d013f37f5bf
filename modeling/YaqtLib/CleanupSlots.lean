import YaqtLib.CleanupMap
import YaqtLib.QString

/-! Which fields `cleanupMap` goes down into, and what one call does besides. The cases of its kinds of objects are one
walk over the fields that may hold objects to be cleaned, followed by what is particular to a kind. -/

namespace YaqtLib

open TdConst

/-- A name that no number and no truth value is written as. -/
def IsName (name : String) : Prop :=
  name ≠ "" ∧ name ≠ "true" ∧ name ≠ "false" ∧ name.toList.any (fun c => decide (0x39 < c.toNat)) = true

instance (name : String) : Decidable (IsName name) := inferInstanceAs (Decidable (_ ∧ _))

theorem QVariant.eq_string_of_toStr {v : QVariant} {name : String} (hname : IsName name) (h : v.toStr = name) :
    v = .string name := by
  obtain ⟨hempty, htrue, hfalse, hchar⟩ := hname
  cases v with
  | string s => rw [← h]; rfl
  | longLong n =>
      obtain ⟨c, hc, hlarge⟩ := List.any_eq_true.mp hchar
      rw [← h] at hc
      exact absurd (of_decide_eq_true hlarge) (Nat.not_lt.mpr (QString.bounds_of_mem_toString hc).2)
  | bool b =>
      cases b with
      | false => exact absurd h.symm hfalse
      | true => exact absurd h.symm htrue
  | invalid => exact absurd h.symm hempty
  | double x => exact absurd h.symm hempty
  | list l => exact absurd h.symm hempty
  | map m => exact absurd h.symm hempty

namespace TDLibReceiver

/-- A field with an object, or with a list of objects. -/
structure Slot where
  key : String
  isList : Bool
deriving DecidableEq

/-- The fields of an object of a type that are cleaned. -/
def slots (type : String) : List Slot :=
  if type = TYPE_ANIMATED_EMOJI then [⟨STICKER, false⟩]
  else if type = TYPE_MESSAGE then [⟨CONTENT, false⟩]
  else if type = TYPE_MESSAGE_STICKER then [⟨STICKER, false⟩]
  else if type = TYPE_MESSAGE_ANIMATED_EMOJI then [⟨ANIMATED_EMOJI, false⟩]
  else if type = TYPE_STICKER_SET_INFO then [⟨COVERS, true⟩]
  else if type = TYPE_STICKER_SET then [⟨STICKERS, true⟩]
  else if type = TYPE_MESSAGE_DICE then [⟨INITIAL_STATE, false⟩, ⟨FINAL_STATE, false⟩]
  else if type = TYPE_DICE_STICKERS_REGULAR then [⟨STICKER, false⟩]
  else if type = TYPE_DICE_STICKERS_SLOT_MACHINE then
    [⟨BACKGROUND, false⟩, ⟨LEVER, false⟩, ⟨LEFT_REEL, false⟩, ⟨CENTER_REEL, false⟩, ⟨RIGHT_REEL, false⟩]
  else if type = TYPE_MESSAGE_VOICE_NOTE then [⟨VOICE_NOTE, false⟩]
  else []

section Write

variable (clean : QVariantMap → Cleaned QVariantMap)

/-- The value of a slot with its objects cleaned. -/
def cleanupValue (isList : Bool) (v : QVariant) : Cleaned QVariant :=
  if isList then
    let (entries, cleaned) := cleanupList clean v.toList
    (if cleaned then .list entries else v, cleaned)
  else
    let (nested, cleaned) := clean v.toMap
    (if cleaned then .map nested else v, cleaned)

theorem cleanupValue_unchanged {isList : Bool} {v : QVariant} (h : ¬ (cleanupValue clean isList v).2 = true) :
    (cleanupValue clean isList v).1 = v := by
  cases isList with
  | false => exact if_neg h
  | true => exact if_neg h

/-- One slot of the walk. -/
def writeSlot (map : QVariantMap) (result : Cleaned QVariantMap) (slot : Slot) : Cleaned QVariantMap :=
  let (v, cleaned) := cleanupValue clean slot.isList (map.value slot.key)
  if cleaned then (result.1.insert slot.key v, true) else result

def writeSlots (map : QVariantMap) (slots : List Slot) : Cleaned QVariantMap :=
  slots.foldl (writeSlot clean map) (map, false)

variable (map : QVariantMap)

/-- What the walk is left with, one slot after the other. -/
theorem writeSlots_rule {P : Cleaned QVariantMap → Prop} (slots : List Slot) (same : P (map, false))
    (write : ∀ result, P result → ∀ slot ∈ slots, (cleanupValue clean slot.isList (map.value slot.key)).2 = true →
      P (result.1.insert slot.key (cleanupValue clean slot.isList (map.value slot.key)).1, true)) :
    P (writeSlots clean map slots) := by
  rw [writeSlots]
  generalize (map, false) = result at same
  induction slots generalizing result with
  | nil => exact same
  | cons slot slots ih =>
      rw [List.foldl_cons]
      refine ih (fun result hresult slot hslot => write result hresult slot (List.mem_cons_of_mem _ hslot)) _ ?_
      exact iteInduction (fun hcleaned => write result same slot List.mem_cons_self hcleaned) fun _ => same

theorem cleanupFields_eq_writeSlots (fields : List String) :
    cleanupFields clean map fields = writeSlots clean map (fields.map fun field => ⟨field, false⟩) := by
  rw [cleanupFields, writeSlots, List.foldl_map]
  congr 1
  funext result field
  simp only [writeSlot, cleanupValue, Bool.false_eq_true, if_false]
  split_ifs <;> rfl

theorem value_writeSlot_self {result : Cleaned QVariantMap} {slot : Slot}
    (h : result.1.value slot.key = map.value slot.key) : (writeSlot clean map result slot).1.value slot.key =
      (cleanupValue clean slot.isList (map.value slot.key)).1 := by
  simp only [writeSlot]
  split_ifs with hcleaned
  · exact QVariantMap.value_insert_self _ _ _
  · rw [h, cleanupValue_unchanged clean hcleaned]

theorem value_writeSlot_of_ne (result : Cleaned QVariantMap) {slot : Slot} {key : String} (h : key ≠ slot.key) :
    (writeSlot clean map result slot).1.value key = result.1.value key := by
  simp only [writeSlot]
  split_ifs
  · exact QVariantMap.value_insert_of_ne _ _ h
  · rfl

theorem value_foldl_writeSlot_of_ne (slots : List Slot) (result : Cleaned QVariantMap) {key : String}
    (h : ∀ slot ∈ slots, key ≠ slot.key) :
    (slots.foldl (writeSlot clean map) result).1.value key = result.1.value key := by
  induction slots generalizing result with
  | nil => rfl
  | cons slot slots ih =>
      rw [List.foldl_cons, ih _ fun slot hslot => h slot (List.mem_cons_of_mem _ hslot),
        value_writeSlot_of_ne _ _ _ (h slot List.mem_cons_self)]

/-- The walk writes every slot's own value. -/
theorem value_writeSlots {slots : List Slot} (hnodup : (slots.map Slot.key).Nodup) {slot : Slot} (hmem : slot ∈ slots) :
    (writeSlots clean map slots).1.value slot.key = (cleanupValue clean slot.isList (map.value slot.key)).1 := by
  have hfold (result : Cleaned QVariantMap) (hresult : ∀ slot ∈ slots, result.1.value slot.key = map.value slot.key) :
      (slots.foldl (writeSlot clean map) result).1.value slot.key =
        (cleanupValue clean slot.isList (map.value slot.key)).1 := by
    induction slots generalizing result with
    | nil => exact absurd hmem List.not_mem_nil
    | cons first slots ih =>
        rw [List.map_cons, List.nodup_cons] at hnodup
        have hne : ∀ slot ∈ slots, slot.key ≠ first.key := fun slot hslot heq =>
          hnodup.1 (heq ▸ List.mem_map_of_mem hslot)
        rw [List.foldl_cons]
        rcases List.mem_cons.mp hmem with rfl | hmem
        · rw [value_foldl_writeSlot_of_ne _ _ _ _ fun other hother => (hne other hother).symm]
          exact value_writeSlot_self clean map (hresult _ List.mem_cons_self)
        · refine ih hnodup.2 hmem _ fun other hother => ?_
          rw [value_writeSlot_of_ne _ _ _ (hne other hother)]
          exact hresult other (List.mem_cons_of_mem _ hother)
  exact hfold (map, false) fun _ _ => rfl

/-- What is written in other fields leaves a field as it is. -/
theorem value_writeSlots_of_notMem {slots : List Slot} {key : String} (h : ∀ slot ∈ slots, slot.key ≠ key) :
    (writeSlots clean map slots).1.value key = map.value key :=
  writeSlots_rule (P := fun result => result.1.value key = map.value key) clean map slots rfl
    fun _ hresult slot hslot _ => (QVariantMap.value_insert_of_ne _ _ (h slot hslot).symm).trans hresult

/-- Slots that are not reported as cleaned leave the map as it is. -/
theorem writeSlots_unchanged (slots : List Slot) (h : (writeSlots clean map slots).2 = false) :
    writeSlots clean map slots = (map, false) := by
  revert h
  exact writeSlots_rule (P := fun result => result.2 = false → result = (map, false)) clean map slots (fun _ => rfl)
    fun _ _ _ _ _ h => Bool.noConfusion h

variable {clean}

theorem value_ne_invalid (hnil : (clean []).2 = false) {slot : Slot}
    (h : (cleanupValue clean slot.isList (map.value slot.key)).2 = true) : map.value slot.key ≠ .invalid := by
  intro hinvalid
  rw [hinvalid] at h
  obtain ⟨key, isList⟩ := slot
  cases isList with
  | false => exact Bool.false_ne_true (hnil.symm.trans h)
  | true => exact Bool.false_ne_true h

/-- No slot is added. -/
theorem contains_writeSlots (hnil : (clean []).2 = false) (slots : List Slot) (key : String) :
    (writeSlots clean map slots).1.contains key = map.contains key := by
  refine writeSlots_rule (P := fun result => result.1.contains key = map.contains key) clean map slots rfl
    fun result hresult slot _ hcleaned => ?_
  rw [QVariantMap.contains_insert, hresult]
  by_cases hkey : slot.key = key
  · rw [decide_eq_true hkey, Bool.true_or, ← hkey,
      QVariantMap.contains_of_value_ne (value_ne_invalid map hnil hcleaned)]
  · rw [decide_eq_false hkey, Bool.false_or]

/-- Slots that are clean already are written as they are. -/
theorem writeSlots_of_clean (hnil : (clean []).2 = false) {slots : List Slot}
    (h : ∀ slot ∈ slots, (cleanupValue clean slot.isList (map.value slot.key)).1 = map.value slot.key) :
    (writeSlots clean map slots).1 = map := by
  refine writeSlots_rule (P := fun result => result.1 = map) clean map slots rfl
    fun result hresult slot hslot hcleaned => ?_
  rw [h slot hslot, hresult]
  exact QVariantMap.insert_of_value rfl (value_ne_invalid map hnil hcleaned)

end Write

/-! ### One call -/

abbrev typeOf (map : QVariantMap) : String := (map.value TYPE_).toStr

/-- The object a message or a draft replies to. -/
abbrev replyTo (map : QVariantMap) : QVariantMap := (map.value REPLY_TO).toMap

/-- The ids of the reply where older versions of TDLib have them. -/
def copyReplies (map result : QVariantMap) : QVariantMap :=
  copyMissing (replyTo map) CHAT_ID (copyMissing (replyTo map) MESSAGE_ID result REPLY_TO_MESSAGE_ID) REPLY_IN_CHAT_ID

/-- A message replies to another one. -/
def IsReply (map : QVariantMap) : Prop :=
  map.contains REPLY_TO = true ∧ typeOf (replyTo map) = TYPE_MESSAGE_REPLY_TO_MESSAGE

instance (map : QVariantMap) : Decidable (IsReply map) := inferInstanceAs (Decidable (_ ∧ _))

/-- A draft of a reply. -/
def IsReplyDraft (map : QVariantMap) : Prop :=
  typeOf map = TYPE_DRAFT_MESSAGE ∧ typeOf (replyTo map) = TYPE_INPUT_MESSAGE_REPLY_TO_MESSAGE

instance (map : QVariantMap) : Decidable (IsReplyDraft map) := inferInstanceAs (Decidable (_ ∧ _))

/-- What one call does to an object whose slots are written. -/
def afterSlots (charSigned : Bool) (map : QVariantMap) (written : Cleaned QVariantMap) : Cleaned QVariantMap :=
  if typeOf map = STICKER then (map, true)
  else if typeOf map = TYPE_MESSAGE then
    if IsReply map then (copyReplies map written.1, true) else written
  else if IsReplyDraft map then
    ((copyMissing (replyTo map) MESSAGE_ID map REPLY_TO_MESSAGE_ID).insert TYPE_ (.string DRAFT_MESSAGE), true)
  else if typeOf map = TYPE_STICKER_SET then (if written.2 then written.1.remove EMOJIS else written.1, written.2)
  else if typeOf map = TYPE_SPONSORED_CHAT then ((map.remove TYPE_).remove UNIQUE_ID, true)
  else if typeOf map = TYPE_VOICE_NOTE then (cleanupVoiceNote charSigned map, true)
  else written

section Step

variable (clean : QVariantMap → Cleaned QVariantMap) {map : QVariantMap}

/-- Writing the type of an object changes nothing. -/
theorem insert_type {result : QVariantMap} {type : String} (htype : typeOf map = type) (hname : IsName type)
    (hkept : result.value TYPE_ = map.value TYPE_) : result.insert TYPE_ (.string type) = result :=
  QVariantMap.insert_of_value (hkept.trans (QVariant.eq_string_of_toStr hname htype)) (by rintro ⟨⟩)

theorem cleanupNested_eq_writeSlots {type : String} (htype : typeOf map = type) (hname : IsName type) {field : String}
    (hfield : field ≠ TYPE_) : cleanupNested clean field type map = writeSlots clean map [⟨field, false⟩] := by
  rw [cleanupNested_eq, writeSlots, List.foldl_cons, List.foldl_nil]
  simp only [writeSlot, cleanupValue, Bool.false_eq_true, if_false]
  split_ifs
  · rw [insert_type htype hname (QVariantMap.value_insert_of_ne _ _ hfield.symm)]
  · rfl

theorem writeSlots_list (key : String) :
    writeSlots clean map [⟨key, true⟩] =
      if (cleanupList clean (map.value key).toList).2 then
        (map.insert key (.list (cleanupList clean (map.value key).toList).1), true)
      else (map, false) := by
  rw [writeSlots, List.foldl_cons, List.foldl_nil]
  simp only [writeSlot, cleanupValue, if_true]
  split_ifs <;> rfl

theorem value_copyReplies (map result : QVariantMap) {key : String} (hmessage : key ≠ REPLY_TO_MESSAGE_ID)
    (hchat : key ≠ REPLY_IN_CHAT_ID) : (copyReplies map result).value key = result.value key := by
  rw [copyReplies, value_copyMissing_of_ne _ _ _ hchat, value_copyMissing_of_ne _ _ _ hmessage]

theorem value_eq_map_of_typeOf {key type : String} (hname : IsName type) (h : typeOf (map.value key).toMap = type) :
    map.value key = .map (map.value key).toMap := by
  refine QVariant.eq_map_of_toMap_ne_nil fun hnil => ?_
  rw [hnil] at h
  exact hname.1 h.symm

/-- The reply of a message is written as it was. -/
theorem insert_replyTo {result : QVariantMap} {type : String} (hname : IsName type) (h : typeOf (replyTo map) = type)
    (hkept : result.value REPLY_TO = map.value REPLY_TO) :
    result.insert REPLY_TO (.map ((replyTo map).insert TYPE_ (.string type))) = result := by
  rw [insert_type h hname rfl, ← value_eq_map_of_typeOf hname h]
  refine QVariantMap.insert_of_value hkept fun hinvalid => ?_
  rw [replyTo, hinvalid] at h
  exact hname.1 h.symm

theorem cleanupMessage_eq_writeSlots (htype : typeOf map = TYPE_MESSAGE) :
    cleanupMessage clean map =
      if IsReply map then (copyReplies map (writeSlots clean map [⟨CONTENT, false⟩]).1, true)
      else writeSlots clean map [⟨CONTENT, false⟩] := by
  have hname : IsName TYPE_MESSAGE := by decide
  have hwritten : writeSlots clean map [⟨CONTENT, false⟩] =
      (withCleanContent clean map, (clean (map.value CONTENT).toMap).2) := by
    rw [← cleanupNested_eq_writeSlots clean htype hname (by decide), cleanupNested_eq, withCleanContent]
    split_ifs with hcleaned
    · rw [insert_type htype hname (QVariantMap.value_insert_of_ne _ _ (by decide)), hcleaned]
    · rw [(Bool.not_eq_true _).mp hcleaned]
  have hkept {key : String} (hkey : key ≠ CONTENT) : (withCleanContent clean map).value key = map.value key := by
    have hvalue := @value_writeSlots_of_notMem clean map [⟨CONTENT, false⟩] key (by simpa using hkey.symm)
    rwa [hwritten] at hvalue
  have hreply : replyToOf clean map = replyTo map := by rw [replyToOf, hkept (by decide)]
  rw [cleanupMessage_eq, hwritten, hreply]
  by_cases h : IsReply map
  · have hcondition : (map.contains REPLY_TO && decide (typeOf (replyTo map) = TYPE_MESSAGE_REPLY_TO_MESSAGE)) = true := by
      rw [h.1, decide_eq_true h.2, Bool.and_self]
    have hcopied {key : String} (hmessage : key ≠ REPLY_TO_MESSAGE_ID) (hchat : key ≠ REPLY_IN_CHAT_ID)
        (hcontent : key ≠ CONTENT) : (copyReplies map (withCleanContent clean map)).value key = map.value key :=
      (value_copyReplies map _ hmessage hchat).trans (hkept hcontent)
    rw [if_pos hcondition, if_pos h]
    refine congrArg (·, true) ?_
    refine Eq.trans (congrArg (QVariantMap.insert · TYPE_ _) (insert_replyTo (by decide) h.2 ?_)) ?_
    · exact hcopied (by decide) (by decide) (by decide)
    · exact insert_type htype hname (hcopied (by decide) (by decide) (by decide))
  · have hcondition : ¬ (map.contains REPLY_TO && decide (typeOf (replyTo map) = TYPE_MESSAGE_REPLY_TO_MESSAGE)) = true := by
      rw [Bool.and_eq_true, decide_eq_true_eq]
      exact h
    rw [if_neg hcondition, if_neg h]
    split_ifs with hcleaned
    · rw [insert_type htype hname (hkept (by decide)), hcleaned]
    · rw [withCleanContent, if_neg hcleaned, (Bool.not_eq_true _).mp hcleaned]

theorem cleanupDraftMessage_eq (htype : typeOf map = TYPE_DRAFT_MESSAGE) :
    cleanupDraftMessage map =
      if IsReplyDraft map then
        ((copyMissing (replyTo map) MESSAGE_ID map REPLY_TO_MESSAGE_ID).insert TYPE_ (.string DRAFT_MESSAGE), true)
      else (map, false) := by
  rw [cleanupDraftMessage]
  by_cases h : IsReplyDraft map
  · rw [if_pos h.2, if_pos h]
    refine congrArg (fun result => (QVariantMap.insert result TYPE_ (.string DRAFT_MESSAGE), true)) ?_
    exact insert_replyTo (by decide) h.2 (value_copyMissing_of_ne _ _ _ (by decide))
  · rw [if_neg fun hreply => h ⟨htype, hreply⟩, if_neg h]

theorem not_isReplyDraft {type : String} (htype : typeOf map = type) (hne : type ≠ TYPE_DRAFT_MESSAGE) :
    ¬ IsReplyDraft map := fun h => hne (htype.symm.trans h.1)

/-- What is done to an object whose type is none of those with something particular. -/
theorem afterSlots_of_plain (charSigned : Bool) {type : String} (htype : typeOf map = type)
    (hplain : type ∉ [STICKER, TYPE_MESSAGE, TYPE_DRAFT_MESSAGE, TYPE_STICKER_SET, TYPE_SPONSORED_CHAT, TYPE_VOICE_NOTE])
    (written : Cleaned QVariantMap) : afterSlots charSigned map written = written := by
  simp only [List.mem_cons, List.not_mem_nil, or_false, not_or] at hplain
  obtain ⟨hsticker, hmessage, hdraft, hset, hsponsored, hvoice⟩ := hplain
  rw [afterSlots, htype, if_neg hsticker, if_neg hmessage, if_neg (not_isReplyDraft htype hdraft), if_neg hset,
    if_neg hsponsored, if_neg hvoice]

variable (charSigned : Bool) {type : String} (htype : typeOf map = type)

include htype

theorem cleanupNested_eq_slots (hname : IsName type) {field : String} (hfield : field ≠ TYPE_)
    (hslots : slots type = [⟨field, false⟩])
    (hplain : type ∉ [STICKER, TYPE_MESSAGE, TYPE_DRAFT_MESSAGE, TYPE_STICKER_SET, TYPE_SPONSORED_CHAT, TYPE_VOICE_NOTE]) :
    cleanupNested clean field type map = afterSlots charSigned map (writeSlots clean map (slots type)) := by
  rw [afterSlots_of_plain charSigned htype hplain, hslots, cleanupNested_eq_writeSlots clean htype hname hfield]

theorem cleanupDraftMessage_eq_slots (hdraft : type = TYPE_DRAFT_MESSAGE) :
    cleanupDraftMessage map = afterSlots charSigned map (writeSlots clean map (slots type)) := by
  have hslots : slots TYPE_DRAFT_MESSAGE = [] := by decide
  subst hdraft
  rw [hslots, afterSlots, htype, if_neg (by decide), if_neg (by decide)]
  by_cases hreply : IsReplyDraft map
  · rw [if_pos hreply, cleanupDraftMessage_eq htype, if_pos hreply]
  · rw [if_neg hreply, if_neg (by decide), if_neg (by decide), if_neg (by decide), cleanupDraftMessage_eq htype,
      if_neg hreply]
    rfl

/-- The covers of a sticker set's description. -/
theorem cleanupCovers_eq_slots (hinfo : type = TYPE_STICKER_SET_INFO) :
    (if (cleanupList clean (map.value COVERS).toList).2 then
      ((map.insert COVERS (.list (cleanupList clean (map.value COVERS).toList).1)).insert TYPE_
        (.string TYPE_STICKER_SET_INFO), true)
      else (map, false)) = afterSlots charSigned map (writeSlots clean map (slots type)) := by
  have hslots : slots TYPE_STICKER_SET_INFO = [⟨COVERS, true⟩] := by decide
  subst hinfo
  rw [afterSlots_of_plain charSigned htype (by decide), hslots, writeSlots_list,
    insert_type htype (by decide) (QVariantMap.value_insert_of_ne _ _ (by decide))]

/-- The stickers of a sticker set, whose emojis are dropped. -/
theorem cleanupStickers_eq_slots (hset : type = TYPE_STICKER_SET) :
    (if (cleanupList clean (map.value STICKERS).toList).2 then
      (((map.insert STICKERS (.list (cleanupList clean (map.value STICKERS).toList).1)).remove EMOJIS).insert TYPE_
        (.string TYPE_STICKER_SET), true)
      else (map, false)) = afterSlots charSigned map (writeSlots clean map (slots type)) := by
  have hslots : slots TYPE_STICKER_SET = [⟨STICKERS, true⟩] := by decide
  have hkept (list : QVariantList) : ((map.insert STICKERS (.list list)).remove EMOJIS).value TYPE_ = map.value TYPE_ :=
    (QVariantMap.value_remove_of_ne _ (by decide)).trans (QVariantMap.value_insert_of_ne _ _ (by decide))
  have hafter (written : Cleaned QVariantMap) :
      afterSlots charSigned map written = (if written.2 then written.1.remove EMOJIS else written.1, written.2) := by
    rw [afterSlots, htype, hset, if_neg (by decide), if_neg (by decide),
      if_neg (not_isReplyDraft (htype.trans hset) (by decide)), if_pos rfl]
  subst hset
  rw [hafter, hslots, writeSlots_list, insert_type htype (by decide) (hkept _)]
  by_cases hcleaned : (cleanupList clean (map.value STICKERS).toList).2 = true
  · rw [if_pos hcleaned, if_pos hcleaned]
    rfl
  · rw [if_neg hcleaned, if_neg hcleaned]
    rfl

/-- The states of a dice. -/
theorem cleanupDice_eq_slots (hdice : type = TYPE_MESSAGE_DICE) :
    (if (cleanupFields clean map [INITIAL_STATE, FINAL_STATE]).2 then
      ((cleanupFields clean map [INITIAL_STATE, FINAL_STATE]).1.insert TYPE_ (.string TYPE_MESSAGE_DICE), true)
      else (map, false)) = afterSlots charSigned map (writeSlots clean map (slots type)) := by
  have hslots : slots TYPE_MESSAGE_DICE = [INITIAL_STATE, FINAL_STATE].map fun field => ⟨field, false⟩ := by decide
  have hkept : (cleanupFields clean map [INITIAL_STATE, FINAL_STATE]).1.value TYPE_ = map.value TYPE_ := by
    rw [cleanupFields_eq_writeSlots]
    exact value_writeSlots_of_notMem clean map (by decide)
  subst hdice
  rw [afterSlots_of_plain charSigned htype (by decide), hslots, ← cleanupFields_eq_writeSlots,
    insert_type htype (by decide) hkept]
  split_ifs with hcleaned
  · rw [← hcleaned]
  · rw [cleanupFields_eq_writeSlots] at hcleaned ⊢
    exact (writeSlots_unchanged clean map _ ((Bool.not_eq_true _).mp hcleaned)).symm

omit htype

/-- **One call** is the walk over the slots and what follows it. -/
theorem cleanupStep_eq :
    cleanupStep clean charSigned map = afterSlots charSigned map (writeSlots clean map (slots (typeOf map))) := by
  generalize htype : typeOf map = type
  have hvalue : (map.value TYPE_).toStr = type := htype
  rw [cleanupStep, hvalue]
  by_cases hsticker : type = STICKER
  · rw [if_pos hsticker]
    rw [afterSlots, htype, if_pos hsticker, insert_type (htype.trans hsticker) (by decide) rfl]
  rw [if_neg hsticker]
  by_cases hanimated : type = TYPE_ANIMATED_EMOJI
  · subst hanimated
    rw [if_pos rfl]
    exact cleanupNested_eq_slots clean charSigned htype (by decide) (by decide) (by decide) (by decide)
  rw [if_neg hanimated]
  by_cases hmessage : type = TYPE_MESSAGE
  · rw [if_pos hmessage]
    have hslots : slots TYPE_MESSAGE = [⟨CONTENT, false⟩] := by decide
    rw [cleanupMessage_eq_writeSlots clean (htype.trans hmessage), afterSlots, htype, if_neg hsticker, if_pos hmessage,
      hmessage, hslots]
  rw [if_neg hmessage]
  by_cases hdraft : type = TYPE_DRAFT_MESSAGE
  · rw [if_pos hdraft]
    exact cleanupDraftMessage_eq_slots clean charSigned htype hdraft
  rw [if_neg hdraft]
  by_cases hmessageSticker : type = TYPE_MESSAGE_STICKER
  · subst hmessageSticker
    rw [if_pos rfl]
    exact cleanupNested_eq_slots clean charSigned htype (by decide) (by decide) (by decide) (by decide)
  rw [if_neg hmessageSticker]
  by_cases hmessageAnimated : type = TYPE_MESSAGE_ANIMATED_EMOJI
  · subst hmessageAnimated
    rw [if_pos rfl]
    exact cleanupNested_eq_slots clean charSigned htype (by decide) (by decide) (by decide) (by decide)
  rw [if_neg hmessageAnimated]
  by_cases hinfo : type = TYPE_STICKER_SET_INFO
  · rw [if_pos hinfo]
    exact cleanupCovers_eq_slots clean charSigned htype hinfo
  rw [if_neg hinfo]
  by_cases hset : type = TYPE_STICKER_SET
  · rw [if_pos hset]
    exact cleanupStickers_eq_slots clean charSigned htype hset
  rw [if_neg hset]
  by_cases hsponsored : type = TYPE_SPONSORED_CHAT
  · rw [if_pos hsponsored]
    rw [afterSlots, htype, if_neg hsticker, if_neg hmessage, if_neg (not_isReplyDraft htype hdraft), if_neg hset,
      if_pos hsponsored]
  rw [if_neg hsponsored]
  by_cases hdice : type = TYPE_MESSAGE_DICE
  · rw [if_pos hdice]
    exact cleanupDice_eq_slots clean charSigned htype hdice
  rw [if_neg hdice]
  by_cases hregular : type = TYPE_DICE_STICKERS_REGULAR
  · subst hregular
    rw [if_pos rfl]
    exact cleanupNested_eq_slots clean charSigned htype (by decide) (by decide) (by decide) (by decide)
  rw [if_neg hregular]
  by_cases hslotMachine : type = TYPE_DICE_STICKERS_SLOT_MACHINE
  · rw [if_pos hslotMachine]
    subst hslotMachine
    rw [afterSlots_of_plain charSigned htype (by decide), cleanupFields_eq_writeSlots]
    rfl
  rw [if_neg hslotMachine]
  by_cases hmessageVoice : type = TYPE_MESSAGE_VOICE_NOTE
  · subst hmessageVoice
    rw [if_pos rfl]
    exact cleanupNested_eq_slots clean charSigned htype (by decide) (by decide) (by decide) (by decide)
  rw [if_neg hmessageVoice]
  by_cases hvoice : type = TYPE_VOICE_NOTE
  · rw [if_pos hvoice]
    rw [afterSlots, htype, if_neg hsticker, if_neg hmessage, if_neg (not_isReplyDraft htype hdraft), if_neg hset,
      if_neg hsponsored, if_pos hvoice]
  rw [if_neg hvoice]
  rw [afterSlots_of_plain charSigned htype (by simp [hsticker, hmessage, hdraft, hset, hsponsored, hvoice]), slots,
    if_neg hanimated, if_neg hmessage, if_neg hmessageSticker, if_neg hmessageAnimated, if_neg hinfo, if_neg hset,
    if_neg hdice, if_neg hregular, if_neg hslotMachine, if_neg hmessageVoice]
  rfl

end Step

end TDLibReceiver

end YaqtLib
