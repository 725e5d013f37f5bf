import YaqtLib.CleanupTidied

/-! Which objects `cleanupMap` only tidies. Those without slots are cleaned by themselves, and two kinds of them not as
meant: the drafts of replies and the voice notes. -/

namespace YaqtLib

open TdConst Bytes

namespace TDLibReceiver

/-! ### The objects without slots -/

section NoSlots

variable (charSigned : Bool) {map : QVariantMap}

/-- What is done to an object without slots. -/
theorem cleanupMap_of_no_slots (hslots : slots (typeOf map) = []) (hdraft : ¬ IsReplyDraft map) :
    cleanupMap charSigned map =
      if typeOf map = TYPE_SPONSORED_CHAT then (map.remove TYPE_).remove UNIQUE_ID
      else if typeOf map = TYPE_VOICE_NOTE then cleanupVoiceNote charSigned map
      else map := by
  have hwritten : withSlots charSigned map = (map, false) := by rw [withSlots, hslots, writeSlots, List.foldl_nil]
  have hmessage : typeOf map ≠ TYPE_MESSAGE := fun htype => by
    rw [htype] at hslots
    exact absurd hslots (by decide)
  have hset : typeOf map ≠ TYPE_STICKER_SET := fun htype => by
    rw [htype] at hslots
    exact absurd hslots (by decide)
  rw [cleanupMap, cleanup_eq_afterSlots, hwritten, afterSlots, if_neg hmessage, if_neg hdraft, if_neg hset]
  by_cases hsticker : typeOf map = STICKER
  · rw [if_pos hsticker, hsticker, if_neg (by decide), if_neg (by decide)]
  · rw [if_neg hsticker]
    split_ifs <;> rfl

theorem cleanupMap_of_typeOf_eq_empty (htype : typeOf map = "") : cleanupMap charSigned map = map := by
  have hdraft : ¬ IsReplyDraft map := fun hdraft => absurd (htype.symm.trans hdraft.1) (by decide)
  have hslots : slots (typeOf map) = [] := by
    rw [htype]
    decide
  rw [cleanupMap_of_no_slots charSigned hslots hdraft, htype, if_neg (by decide), if_neg (by decide)]

/-- A sponsored chat loses its type and its id, once and for all. -/
theorem sponsoredChat_tidy (htype : typeOf map = TYPE_SPONSORED_CHAT) :
    Settled charSigned map ∧ OnlyDocumented charSigned map := by
  have hslots : slots (typeOf map) = [] := by
    rw [htype]
    decide
  have hresult : cleanupMap charSigned map = (map.remove TYPE_).remove UNIQUE_ID := by
    rw [cleanupMap_of_no_slots charSigned hslots (not_isReplyDraft htype (by decide)), if_pos htype]
  have hnone : ((map.remove TYPE_).remove UNIQUE_ID).contains TYPE_ = false := by
    rw [QVariantMap.contains_remove_of_ne _ (by decide), QVariantMap.contains_remove_self]
  constructor
  · rw [Settled, hresult]
    apply cleanupMap_of_typeOf_eq_empty
    rw [typeOf, QVariantMap.value_of_contains_eq_false hnone]
    rfl
  · rw [OnlyDocumented, hresult]
    have hkept : ∀ key, ¬ Documented charSigned map ((map.remove TYPE_).remove UNIQUE_ID) key →
        SameAt map ((map.remove TYPE_).remove UNIQUE_ID) key := by
      intro key hdocumented
      have htypeKey : key ≠ TYPE_ := by
        rintro rfl
        exact hdocumented (.type htype hnone)
      have huniqueId : key ≠ UNIQUE_ID := by
        rintro rfl
        exact hdocumented (.uniqueId htype (QVariantMap.contains_remove_self _ _))
      exact (sameAt_remove _ htypeKey).trans (sameAt_remove _ huniqueId)
    exact .map (fun key hdocumented => (hkept key hdocumented).1) fun key hdocumented => .of_sameAt (hkept key hdocumented)

/-- The decoded form of the waveform of a voice note. -/
def decodedWaveform (map : QVariantMap) : QVariant :=
  .list ((WaveformManager.decodeWaveform charSigned (map.value WAVEFORM).toStr).map .double)

theorem decodedWaveform_eq_nil_iff :
    decodedWaveform charSigned map = .list [] ↔ fromBase64 (map.value WAVEFORM).toStr.toList = [] := by
  rw [decodedWaveform, QVariant.list.injEq, List.map_eq_nil_iff, WaveformManager.decodeWaveform,
    ← List.length_eq_zero_iff, ← List.length_eq_zero_iff, List.length_take, List.length_map, List.length_range]
  omega

theorem cleanupMap_voiceNote (htype : typeOf map = TYPE_VOICE_NOTE) :
    cleanupMap charSigned map = (map.insert DECODED_WAVEFORM (decodedWaveform charSigned map)).remove WAVEFORM := by
  have hslots : slots (typeOf map) = [] := by
    rw [htype]
    decide
  rw [cleanupMap_of_no_slots charSigned hslots (not_isReplyDraft htype (by decide)), htype, if_neg (by decide),
    if_pos rfl, cleanupVoiceNote, insert_type htype (by decide) rfl]
  rfl

theorem sameAt_voiceNote {key : String} (hdecoded : key ≠ DECODED_WAVEFORM) (hwaveform : key ≠ WAVEFORM) (v : QVariant) :
    SameAt map ((map.insert DECODED_WAVEFORM v).remove WAVEFORM) key :=
  (sameAt_insert map v hdecoded).trans (sameAt_remove _ hwaveform)

theorem value_decodedWaveform (map : QVariantMap) (v : QVariant) :
    ((map.insert DECODED_WAVEFORM v).remove WAVEFORM).value DECODED_WAVEFORM = v := by
  rw [QVariantMap.value_remove_of_ne _ (by decide), QVariantMap.value_insert_self]

/-- A second call finds no waveform to decode. -/
theorem settled_voiceNote_iff (htype : typeOf map = TYPE_VOICE_NOTE) :
    Settled charSigned map ↔ fromBase64 (map.value WAVEFORM).toStr.toList = [] := by
  have htype' : typeOf (cleanupMap charSigned map) = TYPE_VOICE_NOTE := by
    rw [cleanupMap_voiceNote charSigned htype, typeOf, (sameAt_voiceNote (by decide) (by decide) _).2]
    exact htype
  have hnone : (cleanupMap charSigned map).contains WAVEFORM = false := by
    rw [cleanupMap_voiceNote charSigned htype]
    exact QVariantMap.contains_remove_self _ _
  have hempty : decodedWaveform charSigned (cleanupMap charSigned map) = .list [] := by
    rw [decodedWaveform_eq_nil_iff, QVariantMap.value_of_contains_eq_false hnone]
    rfl
  have hvalue : (cleanupMap charSigned map).value DECODED_WAVEFORM = decodedWaveform charSigned map := by
    rw [cleanupMap_voiceNote charSigned htype]
    exact value_decodedWaveform _ _
  rw [Settled, cleanupMap_voiceNote charSigned htype', hempty, ← decodedWaveform_eq_nil_iff charSigned, ← hvalue]
  constructor
  · intro h
    rw [← h]
    exact value_decodedWaveform _ _
  · intro h
    rw [QVariantMap.insert_of_value h (by rintro ⟨⟩), QVariantMap.remove_of_contains hnone]

/-- A voice note without samples is tidied if there was a waveform, or nothing to be replaced. -/
theorem onlyDocumented_voiceNote_iff (htype : typeOf map = TYPE_VOICE_NOTE)
    (hbytes : fromBase64 (map.value WAVEFORM).toStr.toList = []) :
    OnlyDocumented charSigned map ↔ map.contains WAVEFORM = true ∨ map.value DECODED_WAVEFORM = .list [] := by
  have hempty := (decodedWaveform_eq_nil_iff charSigned).mpr hbytes
  have hresult := cleanupMap_voiceNote charSigned htype
  have hvalue : (cleanupMap charSigned map).value DECODED_WAVEFORM = .list [] := by
    rw [hresult, value_decodedWaveform, hempty]
  constructor
  · intro h
    rw [OnlyDocumented] at h
    generalize cleanupMap charSigned map = result at h hvalue
    cases h with
    | same => exact .inr hvalue
    | map _ hvalues =>
        by_cases hdocumented : Documented charSigned map result DECODED_WAVEFORM
        · exact .inl (hdocumented.contains_waveform rfl)
        · have htidied := hvalues DECODED_WAVEFORM hdocumented
          rw [hvalue] at htidied
          exact .inr htidied.of_nil
  · intro h
    have hkept : ∀ key, ¬ Documented charSigned map (cleanupMap charSigned map) key →
        SameAt map (cleanupMap charSigned map) key := by
      intro key hdocumented
      have hwaveform : key ≠ WAVEFORM := by
        rintro rfl
        refine hdocumented (.waveform htype ?_)
        rw [hresult]
        exact QVariantMap.contains_remove_self _ _
      by_cases hdecoded : key = DECODED_WAVEFORM
      · subst hdecoded
        rcases h with hcontains | hsame
        · exact absurd (.decodedWaveform htype hcontains (hvalue.trans hempty.symm)) hdocumented
        · refine ⟨?_, hvalue.trans hsame.symm⟩
          rw [QVariantMap.contains_of_value_ne (by rw [hvalue]; rintro ⟨⟩),
            QVariantMap.contains_of_value_ne (by rw [hsame]; rintro ⟨⟩)]
      · rw [hresult]
        exact sameAt_voiceNote hdecoded hwaveform _
    exact .map (fun key hdocumented => (hkept key hdocumented).1) fun key hdocumented => .of_sameAt (hkept key hdocumented)

/-- The draft of a reply becomes an object of another type. -/
theorem not_onlyDocumented_of_isReplyDraft (hdraft : IsReplyDraft map) : ¬ OnlyDocumented charSigned map := by
  have hslots : slots (typeOf map) = [] := by
    rw [hdraft.1]
    decide
  have hvalue : (cleanupMap charSigned map).value TYPE_ = .string DRAFT_MESSAGE := by
    rw [cleanupMap, cleanup_eq_afterSlots, afterSlots, hdraft.1, if_neg (by decide), if_neg (by decide), if_pos hdraft]
    exact QVariantMap.value_insert_self _ _ _
  have htype : map.value TYPE_ = .string TYPE_DRAFT_MESSAGE := QVariant.eq_string_of_toStr (by decide) hdraft.1
  intro h
  rw [OnlyDocumented] at h
  generalize cleanupMap charSigned map = result at h hvalue
  cases h with
  | same => exact absurd (htype.symm.trans hvalue) (by decide)
  | map _ hvalues =>
      by_cases hdocumented : Documented charSigned map result TYPE_
      · exact absurd (hdraft.1.symm.trans (hdocumented.typeOf_eq rfl)) (by decide)
      · have htidied := hvalues TYPE_ hdocumented
        rw [htype] at htidied
        exact absurd (htidied.of_string.symm.trans hvalue) (by decide)

end NoSlots

/-! ### Every object -/

/-- What a call is meant to leave of an object. -/
structure OnlyTidies (charSigned : Bool) (map : QVariantMap) : Prop where
  idempotent : cleanupMap charSigned (cleanupMap charSigned map) = cleanupMap charSigned map
  tidied : Tidied charSigned (.map map) (.map (cleanupMap charSigned map))
  reported : (cleanup charSigned map).2 = false → cleanupMap charSigned map = map

/-- No draft of a reply, and no voice note with samples in its waveform or decoded before. -/
def Harmless (object : QVariantMap) : Prop :=
  ¬ IsReplyDraft object ∧
    (typeOf object = TYPE_VOICE_NOTE → fromBase64 (object.value WAVEFORM).toStr.toList = [] ∧
      (object.contains WAVEFORM = true ∨ object.value DECODED_WAVEFORM = .list []))

section Every

variable (charSigned : Bool) (map : QVariantMap)

theorem onlyTidies_iff_settled :
    OnlyTidies charSigned map ↔ Settled charSigned map ∧ OnlyDocumented charSigned map :=
  ⟨fun h => ⟨h.idempotent, h.tidied⟩, fun h => ⟨h.1, h.2, cleanup_unchanged charSigned map⟩⟩

/-- One object, given those in its slots. -/
theorem onlyTidies_step :
    OnlyTidies charSigned map ↔ Harmless map ∧ ∀ object, Child map object → OnlyTidies charSigned object := by
  simp only [onlyTidies_iff_settled]
  by_cases hslots : slots (typeOf map) = []
  · have hnone : ∀ object, ¬ Child map object := fun object ⟨slot, hslot, _⟩ => by
      rw [hslots] at hslot
      exact absurd hslot List.not_mem_nil
    rw [and_iff_left fun object hchild => absurd hchild (hnone object), Harmless]
    by_cases hdraft : IsReplyDraft map
    · exact iff_of_false (fun h => not_onlyDocumented_of_isReplyDraft charSigned hdraft h.2) fun h => h.1 hdraft
    by_cases hvoice : typeOf map = TYPE_VOICE_NOTE
    · rw [settled_voiceNote_iff charSigned hvoice, and_iff_right hdraft, forall_prop_of_true hvoice]
      exact and_congr_right fun hbytes => onlyDocumented_voiceNote_iff charSigned hvoice hbytes
    refine iff_of_true ?_ ⟨hdraft, fun h => absurd h hvoice⟩
    by_cases hsponsored : typeOf map = TYPE_SPONSORED_CHAT
    · exact sponsoredChat_tidy charSigned hsponsored
    · have hsame : cleanupMap charSigned map = map := by
        rw [cleanupMap_of_no_slots charSigned hslots hdraft, if_neg hsponsored, if_neg hvoice]
      refine ⟨?_, ?_⟩
      · rw [Settled, hsame, hsame]
      · rw [OnlyDocumented, hsame]
        exact .same _
  · have hharmless : Harmless map :=
      ⟨fun hdraft => typeOf_ne_of_slots hslots (by decide) hdraft.1,
        fun hvoice => absurd hvoice (typeOf_ne_of_slots hslots (by decide))⟩
    rw [and_iff_right hharmless]
    constructor
    · exact fun h object hchild => ⟨h.1.of_child charSigned hchild, OnlyDocumented.of_child charSigned h.2 hchild⟩
    · exact fun h => ⟨settled_of_children charSigned hslots fun object hchild => (h object hchild).1,
        onlyDocumented_of_children charSigned hslots fun object hchild => (h object hchild).2⟩

/-- **Only tidying**: a call makes no change but the documented ones, and a second call none at all, exactly if it
comes to no draft of a reply and to no voice note with samples. -/
theorem onlyTidies_iff : OnlyTidies charSigned map ↔ ∀ object, Visited map object → Harmless object :=
  forall_visited_iff (onlyTidies_step charSigned) map

end Every

/-- The draft of a reply becomes a `draft_message`; the samples of a voice note are lost by a second call. -/
theorem not_onlyTidies :
    ¬ OnlyTidies true [(TYPE_, .string TYPE_DRAFT_MESSAGE),
        (REPLY_TO, .map [(TYPE_, .string TYPE_INPUT_MESSAGE_REPLY_TO_MESSAGE), (MESSAGE_ID, .longLong 5)])] ∧
      ¬ OnlyTidies true [(TYPE_, .string TYPE_VOICE_NOTE), (WAVEFORM, .string "gAA=")] := by
  refine ⟨fun h => ?_, fun h => ?_⟩
  · exact ((onlyTidies_iff _ _).mp h _ .refl).1 (by decide)
  · exact absurd (((onlyTidies_iff _ _).mp h _ .refl).2 rfl).1 (by decide)

end TDLibReceiver

end YaqtLib
