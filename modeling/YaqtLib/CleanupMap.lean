import YaqtLib.QVariant
import YaqtLib.WaveformManager

/-! `TDLibReceiver::cleanupMap`: the form in which the objects of TDLib are kept. It descends into the objects that
hold stickers, replies and voice notes. -/

namespace YaqtLib

open TdConst

namespace TdConst

abbrev REPLY_TO : String := "reply_to"
abbrev REPLY_IN_CHAT_ID : String := "reply_in_chat_id"
abbrev REPLY_TO_MESSAGE_ID : String := "reply_to_message_id"
abbrev STICKER : String := "sticker"
abbrev STICKERS : String := "stickers"
abbrev ANIMATED_EMOJI : String := "animated_emoji"
abbrev COVERS : String := "covers"
abbrev EMOJIS : String := "emojis"
abbrev UNIQUE_ID : String := "unique_id"
abbrev INITIAL_STATE : String := "initial_state"
abbrev BACKGROUND : String := "background"
abbrev LEVER : String := "lever"
abbrev LEFT_REEL : String := "left_reel"
abbrev CENTER_REEL : String := "center_reel"
abbrev RIGHT_REEL : String := "right_reel"
abbrev VOICE_NOTE : String := "voice_note"
abbrev WAVEFORM : String := "waveform"
abbrev DECODED_WAVEFORM : String := "decoded_waveform"
abbrev TYPE_ANIMATED_EMOJI : String := "animatedEmoji"
abbrev TYPE_DRAFT_MESSAGE : String := "draftMessage"
abbrev TYPE_MESSAGE_REPLY_TO_MESSAGE : String := "messageReplyToMessage"
abbrev TYPE_INPUT_MESSAGE_REPLY_TO_MESSAGE : String := "inputMessageReplyToMessage"
abbrev TYPE_MESSAGE_STICKER : String := "messageSticker"
abbrev TYPE_MESSAGE_ANIMATED_EMOJI : String := "messageAnimatedEmoji"
abbrev TYPE_STICKER_SET_INFO : String := "stickerSetInfo"
abbrev TYPE_STICKER_SET : String := "stickerSet"
abbrev TYPE_SPONSORED_CHAT : String := "sponsoredChat"
abbrev TYPE_DICE_STICKERS_REGULAR : String := "diceStickersRegular"
abbrev TYPE_DICE_STICKERS_SLOT_MACHINE : String := "diceStickersSlotMachine"
abbrev TYPE_VOICE_NOTE : String := "voiceNote"

end TdConst

namespace TDLibReceiver

/-- A map and whether it was changed, as the out parameter `updated` says. -/
abbrev Cleaned (α : Type) := α × Bool

section Step

variable (clean : QVariantMap → Cleaned QVariantMap)

/-- An object with one object in it that is cleaned. -/
def cleanupNested (field type : String) (map : QVariantMap) : Cleaned QVariantMap :=
  let (nested, cleaned) := clean (map.value field).toMap
  if cleaned then ((map.insert field (.map nested)).insert TYPE_ (.string type), true) else (map, false)

/-- The objects in the fields of a map, one after the other. -/
def cleanupFields (map : QVariantMap) (fields : List String) : Cleaned QVariantMap :=
  fields.foldl (fun result field =>
    let (nested, cleaned) := clean (map.value field).toMap
    if cleaned then (result.1.insert field (.map nested), true) else result) (map, false)

def cleanupList (list : QVariantList) : Cleaned QVariantList :=
  let entries := list.map fun entry => clean entry.toMap
  if entries.any Prod.snd then
    (list.map fun entry => if (clean entry.toMap).2 then .map (clean entry.toMap).1 else entry, true)
  else (list, false)

/-- A key is copied unless it is there. -/
def copyMissing (source : QVariantMap) (sourceKey : String) (target : QVariantMap) (targetKey : String) :
    QVariantMap :=
  if source.contains sourceKey && !target.contains targetKey then target.insert targetKey (source.value sourceKey)
  else target

def cleanupMessage (map : QVariantMap) : Cleaned QVariantMap :=
  let (content, messageChanged) := clean (map.value CONTENT).toMap
  let message := if messageChanged then map.insert CONTENT (.map content) else map
  let replyTo := (message.value REPLY_TO).toMap
  if map.contains REPLY_TO && (replyTo.value TYPE_).toStr = TYPE_MESSAGE_REPLY_TO_MESSAGE then
    let message := copyMissing replyTo MESSAGE_ID message REPLY_TO_MESSAGE_ID
    let message := copyMissing replyTo CHAT_ID message REPLY_IN_CHAT_ID
    let message := message.insert REPLY_TO (.map (replyTo.insert TYPE_ (.string TYPE_MESSAGE_REPLY_TO_MESSAGE)))
    (message.insert TYPE_ (.string TYPE_MESSAGE), true)
  else if messageChanged then (message.insert TYPE_ (.string TYPE_MESSAGE), true)
  else (map, false)

/-- The type of the draft is replaced by the name of the field it is kept in. -/
def cleanupDraftMessage (map : QVariantMap) : Cleaned QVariantMap :=
  let replyTo := (map.value REPLY_TO).toMap
  if (replyTo.value TYPE_).toStr = TYPE_INPUT_MESSAGE_REPLY_TO_MESSAGE then
    let draftMessage := copyMissing replyTo MESSAGE_ID map REPLY_TO_MESSAGE_ID
    let draftMessage :=
      draftMessage.insert REPLY_TO (.map (replyTo.insert TYPE_ (.string TYPE_INPUT_MESSAGE_REPLY_TO_MESSAGE)))
    (draftMessage.insert TYPE_ (.string DRAFT_MESSAGE), true)
  else (map, false)

def cleanupVoiceNote (charSigned : Bool) (map : QVariantMap) : QVariantMap :=
  let voiceNote := map.insert TYPE_ (.string TYPE_VOICE_NOTE)
  let decodedWaveform := WaveformManager.decodeWaveform charSigned (voiceNote.value WAVEFORM).toStr
  (voiceNote.insert DECODED_WAVEFORM (.list (decodedWaveform.map .double))).remove WAVEFORM

/-- One call of `cleanupMap`; `clean` stands for the calls inside. -/
def cleanupStep (charSigned : Bool) (map : QVariantMap) : Cleaned QVariantMap :=
  let type := (map.value TYPE_).toStr
  if type = STICKER then (map.insert TYPE_ (.string STICKER), true)
  else if type = TYPE_ANIMATED_EMOJI then cleanupNested clean STICKER TYPE_ANIMATED_EMOJI map
  else if type = TYPE_MESSAGE then cleanupMessage clean map
  else if type = TYPE_DRAFT_MESSAGE then cleanupDraftMessage map
  else if type = TYPE_MESSAGE_STICKER then cleanupNested clean STICKER TYPE_MESSAGE_STICKER map
  else if type = TYPE_MESSAGE_ANIMATED_EMOJI then cleanupNested clean ANIMATED_EMOJI TYPE_MESSAGE_ANIMATED_EMOJI map
  else if type = TYPE_STICKER_SET_INFO then
    let (covers, cleaned) := cleanupList clean (map.value COVERS).toList
    if cleaned then ((map.insert COVERS (.list covers)).insert TYPE_ (.string TYPE_STICKER_SET_INFO), true)
    else (map, false)
  else if type = TYPE_STICKER_SET then
    let (stickers, cleaned) := cleanupList clean (map.value STICKERS).toList
    if cleaned then
      (((map.insert STICKERS (.list stickers)).remove EMOJIS).insert TYPE_ (.string TYPE_STICKER_SET), true)
    else (map, false)
  else if type = TYPE_SPONSORED_CHAT then ((map.remove TYPE_).remove UNIQUE_ID, true)
  else if type = TYPE_MESSAGE_DICE then
    let (messageDice, messageDiceChanged) := cleanupFields clean map [INITIAL_STATE, FINAL_STATE]
    if messageDiceChanged then (messageDice.insert TYPE_ (.string TYPE_MESSAGE_DICE), true) else (map, false)
  else if type = TYPE_DICE_STICKERS_REGULAR then cleanupNested clean STICKER TYPE_DICE_STICKERS_REGULAR map
  else if type = TYPE_DICE_STICKERS_SLOT_MACHINE then
    cleanupFields clean map [BACKGROUND, LEVER, LEFT_REEL, CENTER_REEL, RIGHT_REEL]
  else if type = TYPE_MESSAGE_VOICE_NOTE then cleanupNested clean VOICE_NOTE TYPE_MESSAGE_VOICE_NOTE map
  else if type = TYPE_VOICE_NOTE then (cleanupVoiceNote charSigned map, true)
  else (map, false)

end Step

/-- `cleanupMap` down to a depth of nested calls. -/
def cleanupTo (charSigned : Bool) : Nat → QVariantMap → Cleaned QVariantMap
  | 0, map => (map, false)
  | depth + 1, map => cleanupStep (cleanupTo charSigned depth) charSigned map

mutual

/-- How deep objects are nested in a value. -/
def depthOf : QVariant → Nat
  | .list l => depthOfList l
  | .map m => depthOfEntries m + 1
  | _ => 0

def depthOfList : List QVariant → Nat
  | [] => 0
  | v :: l => max (depthOf v) (depthOfList l)

def depthOfEntries : List (String × QVariant) → Nat
  | [] => 0
  | (_, v) :: m => max (depthOf v) (depthOfEntries m)

end

/-- `cleanupMap` with its out parameter. -/
def cleanup (charSigned : Bool) (map : QVariantMap) : Cleaned QVariantMap :=
  cleanupTo charSigned (depthOfEntries map + 1) map

def cleanupMap (charSigned : Bool) (map : QVariantMap) : QVariantMap := (cleanup charSigned map).1

/-! ### The calls inside go down -/

/-- The objects one call of `cleanupMap` may go down into. -/
def Inside (object map : QVariantMap) : Prop :=
  ∃ key, object = (map.value key).toMap ∨ ∃ entry ∈ (map.value key).toList, object = entry.toMap

theorem inside_field (map : QVariantMap) (key : String) : Inside (map.value key).toMap map := ⟨key, .inl rfl⟩

theorem depthOf_value_le (map : QVariantMap) (key : String) : depthOf (map.value key) ≤ depthOfEntries map := by
  induction map with
  | nil => exact Nat.le_refl 0
  | cons entry map ih =>
      obtain ⟨k, v⟩ := entry
      rw [QVariantMap.value, depthOfEntries]
      split_ifs
      · exact Nat.le_max_left _ _
      · exact ih.trans (Nat.le_max_right _ _)

theorem depthOf_le_of_mem {list : QVariantList} {entry : QVariant} (h : entry ∈ list) :
    depthOf entry ≤ depthOfList list := by
  induction list with
  | nil => exact absurd h (by simp)
  | cons v list ih =>
      rw [depthOfList]
      rcases List.mem_cons.mp h with rfl | hmem
      · exact Nat.le_max_left _ _
      · exact (ih hmem).trans (Nat.le_max_right _ _)

theorem depthOf_toMap_lt {v : QVariant} (h : v.toMap ≠ []) : depthOfEntries v.toMap < depthOf v := by
  rw [QVariant.eq_map_of_toMap_ne_nil h, depthOf]
  exact Nat.lt_succ_self _

theorem depthOfEntries_lt_of_inside {object map : QVariantMap} (h : Inside object map) (hne : object ≠ []) :
    depthOfEntries object < depthOfEntries map := by
  obtain ⟨key, rfl | ⟨entry, hentry, rfl⟩⟩ := h
  · exact (depthOf_toMap_lt hne).trans_le (depthOf_value_le map key)
  · refine (depthOf_toMap_lt hne).trans_le ((depthOf_le_of_mem hentry).trans ?_)
    have hlist : depthOfList (map.value key).toList ≤ depthOf (map.value key) := by
      cases map.value key <;> simp [QVariant.toList, depthOf, depthOfList]
    exact hlist.trans (depthOf_value_le map key)

section Congr

variable {clean clean' : QVariantMap → Cleaned QVariantMap} {map : QVariantMap}

theorem cleanupNested_congr (h : ∀ object, Inside object map → clean object = clean' object) (field type : String) :
    cleanupNested clean field type map = cleanupNested clean' field type map := by
  rw [cleanupNested, cleanupNested, h _ (inside_field map field)]

theorem cleanupFields_congr (h : ∀ object, Inside object map → clean object = clean' object) (fields : List String) :
    cleanupFields clean map fields = cleanupFields clean' map fields := by
  rw [cleanupFields, cleanupFields]
  congr 1
  funext result field
  rw [h _ (inside_field map field)]

theorem cleanupList_congr {list : QVariantList} (h : ∀ entry ∈ list, clean entry.toMap = clean' entry.toMap) :
    cleanupList clean list = cleanupList clean' list := by
  have hentries : (list.map fun entry => clean entry.toMap) = list.map fun entry => clean' entry.toMap :=
    List.map_congr_left h
  have hcleaned : (list.map fun entry => if (clean entry.toMap).2 then .map (clean entry.toMap).1 else entry) =
      list.map fun entry => if (clean' entry.toMap).2 then .map (clean' entry.toMap).1 else entry :=
    List.map_congr_left fun entry hentry => by rw [h entry hentry]
  rw [cleanupList, cleanupList, hentries, hcleaned]

theorem cleanupStep_congr (h : ∀ object, Inside object map → clean object = clean' object) (charSigned : Bool) :
    cleanupStep clean charSigned map = cleanupStep clean' charSigned map := by
  have hlist : ∀ key, cleanupList clean (map.value key).toList = cleanupList clean' (map.value key).toList :=
    fun key => cleanupList_congr fun entry hentry => h _ ⟨key, .inr ⟨entry, hentry, rfl⟩⟩
  have hmessage : cleanupMessage clean map = cleanupMessage clean' map := by
    rw [cleanupMessage, cleanupMessage, h _ (inside_field map CONTENT)]
  simp only [cleanupStep, cleanupNested_congr h, cleanupFields_congr h, hlist, hmessage]

end Congr

theorem cleanupTo_nil (charSigned : Bool) (depth : Nat) : cleanupTo charSigned depth [] = ([], false) := by
  cases depth <;> rfl

/-- Past the depth of the object, the number of calls does not matter. -/
theorem cleanupTo_eq (charSigned : Bool) {depth depth' : Nat} {map : QVariantMap} (h : depthOfEntries map < depth)
    (h' : depthOfEntries map < depth') : cleanupTo charSigned depth map = cleanupTo charSigned depth' map := by
  induction depth generalizing depth' map with
  | zero => exact absurd h (Nat.not_lt_zero _)
  | succ depth ih =>
      obtain ⟨depth', rfl⟩ := Nat.exists_eq_succ_of_ne_zero (Nat.ne_of_gt (Nat.zero_lt_of_lt h'))
      rw [cleanupTo, cleanupTo]
      refine cleanupStep_congr (fun object hinside => ?_) charSigned
      by_cases hne : object = []
      · rw [hne, cleanupTo_nil, cleanupTo_nil]
      · have hlt := depthOfEntries_lt_of_inside hinside hne
        exact ih (by omega) (by omega)

/-- The calls inside are calls of the function itself. -/
theorem cleanup_eq (charSigned : Bool) (map : QVariantMap) :
    cleanup charSigned map = cleanupStep (cleanup charSigned) charSigned map := by
  rw [cleanup, cleanupTo]
  refine cleanupStep_congr (fun object hinside => ?_) charSigned
  by_cases hne : object = []
  · rw [hne, cleanup, cleanupTo_nil, cleanupTo_nil]
  · have hlt := depthOfEntries_lt_of_inside hinside hne
    exact cleanupTo_eq charSigned hlt (Nat.lt_succ_self _)

@[simp] theorem cleanup_nil (charSigned : Bool) : cleanup charSigned [] = ([], false) := rfl

/-! ### What a call leaves alone -/

section Unchanged

variable (clean : QVariantMap → Cleaned QVariantMap) (map : QVariantMap)

theorem cleanupNested_eq (field type : String) : cleanupNested clean field type map =
    if (clean (map.value field).toMap).2 then
      ((map.insert field (.map (clean (map.value field).toMap).1)).insert TYPE_ (.string type), true)
    else (map, false) := rfl

/-- A message with its content cleaned. -/
def withCleanContent : QVariantMap :=
  if (clean (map.value CONTENT).toMap).2 then map.insert CONTENT (.map (clean (map.value CONTENT).toMap).1) else map

/-- The object a message with its content cleaned replies to. -/
def replyToOf : QVariantMap := ((withCleanContent clean map).value REPLY_TO).toMap

theorem cleanupMessage_eq : cleanupMessage clean map =
    if map.contains REPLY_TO && ((replyToOf clean map).value TYPE_).toStr = TYPE_MESSAGE_REPLY_TO_MESSAGE then
      (((copyMissing (replyToOf clean map) CHAT_ID
        (copyMissing (replyToOf clean map) MESSAGE_ID (withCleanContent clean map) REPLY_TO_MESSAGE_ID)
        REPLY_IN_CHAT_ID).insert REPLY_TO
          (.map ((replyToOf clean map).insert TYPE_ (.string TYPE_MESSAGE_REPLY_TO_MESSAGE)))).insert TYPE_
            (.string TYPE_MESSAGE), true)
    else if (clean (map.value CONTENT).toMap).2 then
      ((withCleanContent clean map).insert TYPE_ (.string TYPE_MESSAGE), true)
    else (map, false) := rfl

/-- The cases of one call, by what is done to the map. -/
theorem cleanupStep_cases (charSigned : Bool) {P : Cleaned QVariantMap → Prop} (same : P (map, false))
    (sticker : P (map.insert TYPE_ (.string STICKER), true))
    (nested : ∀ field ∈ [STICKER, ANIMATED_EMOJI, VOICE_NOTE], ∀ type, P (cleanupNested clean field type map))
    (message : P (cleanupMessage clean map)) (draftMessage : P (cleanupDraftMessage map))
    (covers : ∀ list, P ((map.insert COVERS (.list list)).insert TYPE_ (.string TYPE_STICKER_SET_INFO), true))
    (stickers : ∀ list,
      P (((map.insert STICKERS (.list list)).remove EMOJIS).insert TYPE_ (.string TYPE_STICKER_SET), true))
    (sponsoredChat : P ((map.remove TYPE_).remove UNIQUE_ID, true))
    (dice : P ((cleanupFields clean map [INITIAL_STATE, FINAL_STATE]).1.insert TYPE_ (.string TYPE_MESSAGE_DICE), true))
    (slotMachine : P (cleanupFields clean map [BACKGROUND, LEVER, LEFT_REEL, CENTER_REEL, RIGHT_REEL]))
    (voiceNote : P (cleanupVoiceNote charSigned map, true)) : P (cleanupStep clean charSigned map) := by
  rw [cleanupStep]
  refine iteInduction (fun _ => sticker) fun _ => ?_
  refine iteInduction (fun _ => nested _ (by simp) _) fun _ => ?_
  refine iteInduction (fun _ => message) fun _ => ?_
  refine iteInduction (fun _ => draftMessage) fun _ => ?_
  refine iteInduction (fun _ => nested _ (by simp) _) fun _ => ?_
  refine iteInduction (fun _ => nested _ (by simp) _) fun _ => ?_
  refine iteInduction (fun _ => iteInduction (fun _ => covers _) fun _ => same) fun _ => ?_
  refine iteInduction (fun _ => iteInduction (fun _ => stickers _) fun _ => same) fun _ => ?_
  refine iteInduction (fun _ => sponsoredChat) fun _ => ?_
  refine iteInduction (fun _ => iteInduction (fun _ => dice) fun _ => same) fun _ => ?_
  refine iteInduction (fun _ => nested _ (by simp) _) fun _ => ?_
  refine iteInduction (fun _ => slotMachine) fun _ => ?_
  refine iteInduction (fun _ => nested _ (by simp) _) fun _ => ?_
  exact iteInduction (fun _ => voiceNote) fun _ => same

/-- The fields are cleaned one after the other; what each of them keeps is kept. -/
theorem cleanupFields_rule {P : Cleaned QVariantMap → Prop} (fields : List String) (same : P (map, false))
    (write : ∀ result, P result → ∀ field ∈ fields, (clean (map.value field).toMap).2 = true →
      P (result.1.insert field (.map (clean (map.value field).toMap).1), true)) :
    P (cleanupFields clean map fields) := by
  rw [cleanupFields]
  generalize (map, false) = result at same
  induction fields generalizing result with
  | nil => exact same
  | cons field fields ih =>
      rw [List.foldl_cons]
      refine ih (fun result hresult field hfield => write result hresult field (List.mem_cons_of_mem _ hfield)) _ ?_
      exact iteInduction (fun hcleaned => write result same field List.mem_cons_self hcleaned) fun _ => same

/-- A map that is not reported as changed is not changed. -/
theorem cleanupStep_unchanged (charSigned : Bool) :
    (cleanupStep clean charSigned map).2 = false → (cleanupStep clean charSigned map).1 = map := by
  let P : Cleaned QVariantMap → Prop := fun result => result.2 = false → result.1 = map
  have hsame : P (map, false) := fun _ => rfl
  have hchanged : ∀ result, P (result, true) := fun _ h => Bool.noConfusion h
  have hfields : ∀ fields, P (cleanupFields clean map fields) := fun fields =>
    cleanupFields_rule clean map fields hsame fun _ _ _ _ _ => hchanged _
  refine cleanupStep_cases clean map charSigned hsame (hchanged _) (fun field _ type => ?_) ?_ ?_ (fun _ => hchanged _)
    (fun _ => hchanged _) (hchanged _) (hchanged _) (hfields _) (hchanged _)
  · exact iteInduction (motive := P) (fun _ => hchanged _) fun _ => hsame
  · rw [cleanupMessage]
    exact iteInduction (motive := P) (fun _ => hchanged _) fun _ =>
      iteInduction (motive := P) (fun _ => hchanged _) fun _ => hsame
  · rw [cleanupDraftMessage]
    exact iteInduction (motive := P) (fun _ => hchanged _) fun _ => hsame

/-- The keys a call writes or removes. -/
def touchedKeys : List String :=
  [TYPE_, CONTENT, REPLY_TO, REPLY_TO_MESSAGE_ID, REPLY_IN_CHAT_ID, STICKER, ANIMATED_EMOJI, COVERS, STICKERS, EMOJIS,
    UNIQUE_ID, INITIAL_STATE, FINAL_STATE, BACKGROUND, LEVER, LEFT_REEL, CENTER_REEL, RIGHT_REEL, VOICE_NOTE,
    DECODED_WAVEFORM, WAVEFORM]

variable {map} {key : String}

/-- The map reads as before at a key that is not touched. -/
def Keeps (map : QVariantMap) (key : String) (result : QVariantMap) : Prop := result.value key = map.value key

theorem Keeps.insert {result : QVariantMap} (h : Keeps map key result) (hkey : key ∉ touchedKeys) {k : String}
    (hk : k ∈ touchedKeys) (v : QVariant) : Keeps map key (result.insert k v) :=
  (QVariantMap.value_insert_of_ne _ v (ne_of_mem_of_not_mem hk hkey).symm).trans h

theorem Keeps.remove {result : QVariantMap} (h : Keeps map key result) (hkey : key ∉ touchedKeys) {k : String}
    (hk : k ∈ touchedKeys) : Keeps map key (result.remove k) :=
  (QVariantMap.value_remove_of_ne _ (ne_of_mem_of_not_mem hk hkey).symm).trans h

theorem Keeps.copyMissing {result : QVariantMap} (h : Keeps map key result) (hkey : key ∉ touchedKeys)
    (source : QVariantMap) (sourceKey : String) {k : String} (hk : k ∈ touchedKeys) :
    Keeps map key (copyMissing source sourceKey result k) :=
  iteInduction (motive := Keeps map key) (fun _ => h.insert hkey hk _) fun _ => h

theorem keeps_cleanupMessage (hkey : key ∉ touchedKeys) : Keeps map key (cleanupMessage clean map).1 := by
  have hsame : Keeps map key map := rfl
  have hcontent : Keeps map key (withCleanContent clean map) :=
    iteInduction (motive := Keeps map key) (fun _ => hsame.insert hkey (by simp [touchedKeys]) _) fun _ => hsame
  rw [cleanupMessage_eq]
  refine iteInduction (motive := fun result : Cleaned QVariantMap => Keeps map key result.1) (fun _ => ?_)
    fun _ => iteInduction (motive := fun result : Cleaned QVariantMap => Keeps map key result.1) (fun _ => ?_) fun _ => hsame
  · have hmessageId := hcontent.copyMissing hkey (k := REPLY_TO_MESSAGE_ID)
    have hchatId := fun source sourceKey => (hmessageId source sourceKey (by simp [touchedKeys])).copyMissing hkey
      (k := REPLY_IN_CHAT_ID)
    exact ((hchatId _ _ _ _ (by simp [touchedKeys])).insert hkey (by simp [touchedKeys]) _).insert hkey
      (by simp [touchedKeys]) _
  · exact hcontent.insert hkey (by simp [touchedKeys]) _

theorem keeps_cleanupStep (charSigned : Bool) (hkey : key ∉ touchedKeys) :
    Keeps map key (cleanupStep clean charSigned map).1 := by
  have hsame : Keeps map key map := rfl
  have hfields : ∀ fields : List String, (∀ field ∈ fields, field ∈ touchedKeys) →
      Keeps map key (cleanupFields clean map fields).1 := fun fields hfields =>
    cleanupFields_rule (P := fun result => Keeps map key result.1) clean map fields hsame
      fun result hresult field hfield nested => hresult.insert hkey (hfields field hfield) _
  refine cleanupStep_cases (P := fun result => Keeps map key result.1) clean map charSigned hsame
    (hsame.insert hkey (by simp [touchedKeys]) _) (fun field hfield type => ?_) (keeps_cleanupMessage clean hkey) ?_
    (fun list => ?_) (fun list => ?_) ?_ ?_ (hfields _ (by simp [touchedKeys])) ?_
  · have htouched : field ∈ touchedKeys := by
      revert hfield
      simp only [touchedKeys, List.mem_cons, List.not_mem_nil, or_false]
      tauto
    exact iteInduction (motive := fun result : Cleaned QVariantMap => Keeps map key result.1)
      (fun _ => (hsame.insert hkey htouched _).insert hkey (by simp [touchedKeys]) _) fun _ => hsame
  · rw [cleanupDraftMessage]
    exact iteInduction (motive := fun result : Cleaned QVariantMap => Keeps map key result.1)
      (fun _ => ((hsame.copyMissing hkey _ _ (by simp [touchedKeys])).insert hkey (by simp [touchedKeys]) _).insert hkey
        (by simp [touchedKeys]) _) fun _ => hsame
  · exact (hsame.insert hkey (by simp [touchedKeys]) _).insert hkey (by simp [touchedKeys]) _
  · exact ((hsame.insert hkey (by simp [touchedKeys]) _).remove hkey (by simp [touchedKeys])).insert hkey
      (by simp [touchedKeys]) _
  · exact (hsame.remove hkey (by simp [touchedKeys])).remove hkey (by simp [touchedKeys])
  · exact (hfields _ (by simp [touchedKeys])).insert hkey (by simp [touchedKeys]) _
  · exact (((hsame.insert hkey (by simp [touchedKeys]) _).insert hkey (by simp [touchedKeys]) _).remove hkey
      (by simp [touchedKeys]))

end Unchanged

theorem cleanup_unchanged (charSigned : Bool) (map : QVariantMap) (h : (cleanup charSigned map).2 = false) :
    (cleanup charSigned map).1 = map := by
  rw [cleanup_eq] at h ⊢
  exact cleanupStep_unchanged _ _ charSigned h

/-- The entries of a cleaned list are the cleaned entries. -/
theorem toMap_cleanupList (charSigned : Bool) (list : QVariantList) :
    (cleanupList (cleanup charSigned) list).1.map QVariant.toMap =
      list.map fun entry => cleanupMap charSigned entry.toMap := by
  rw [cleanupList]
  split_ifs with hany
  · rw [List.map_map]
    refine List.map_congr_left fun entry _ => ?_
    rw [Function.comp_apply, cleanupMap]
    split_ifs with hcleaned
    · rfl
    · exact (cleanup_unchanged charSigned _ (Bool.not_eq_true _ ▸ hcleaned)).symm
  · refine List.map_congr_left fun entry hentry => ?_
    have hcleaned : (cleanup charSigned entry.toMap).2 = false := by
      rw [Bool.not_eq_true, List.any_eq_false] at hany
      simpa using hany _ (List.mem_map_of_mem hentry)
    exact (cleanup_unchanged charSigned _ hcleaned).symm

theorem value_cleanupMap (charSigned : Bool) (map : QVariantMap) {key : String} (h : key ∉ touchedKeys) :
    (cleanupMap charSigned map).value key = map.value key := by
  rw [cleanupMap, cleanup_eq]
  exact keeps_cleanupStep _ charSigned h

/-! ### Copied keys -/

theorem copyMissing_of_contains {source target : QVariantMap} {sourceKey targetKey : String}
    (h : source.contains sourceKey = true → target.contains targetKey = true) :
    copyMissing source sourceKey target targetKey = target := by
  rw [copyMissing, if_neg]
  rw [Bool.and_eq_true, Bool.not_eq_true', not_and, Bool.not_eq_false]
  exact h

theorem contains_copyMissing {source target : QVariantMap} {sourceKey targetKey : String}
    (h : source.contains sourceKey = true) :
    (copyMissing source sourceKey target targetKey).contains targetKey = true := by
  rw [copyMissing]
  by_cases htarget : target.contains targetKey = true
  · rw [if_neg (by simp [htarget])]
    exact htarget
  · rw [if_pos (by simp [h, htarget]), QVariantMap.contains_insert]
    simp

theorem contains_copyMissing_of_ne (source target : QVariantMap) (sourceKey : String) {targetKey key : String}
    (h : targetKey ≠ key) : (copyMissing source sourceKey target targetKey).contains key = target.contains key := by
  refine iteInduction (motive := fun result : QVariantMap => result.contains key = target.contains key) (fun _ => ?_)
    fun _ => rfl
  rw [QVariantMap.contains_insert, decide_eq_false h, Bool.false_or]

theorem value_copyMissing_of_ne (source target : QVariantMap) (sourceKey : String) {targetKey key : String}
    (h : key ≠ targetKey) : (copyMissing source sourceKey target targetKey).value key = target.value key :=
  iteInduction (motive := fun result : QVariantMap => result.value key = target.value key)
    (fun _ => QVariantMap.value_insert_of_ne _ _ h) fun _ => rfl

end TDLibReceiver

end YaqtLib
