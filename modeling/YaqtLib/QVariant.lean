import Mathlib.Algebra.Group.Int.Defs
import Mathlib.Algebra.Group.Nat.Defs
import Mathlib.Data.List.Basic

/-! The variant values TDLib's JSON objects are read into. A map is the list of its entries, one entry
a key; a missing key reads as the invalid variant, and a conversion that does not apply gives the zero
of its target type, as Qt's conversions do. A floating-point number is the exact rational it stands for. -/

namespace YaqtLib

inductive QVariant where
  | invalid
  | bool (b : Bool)
  | longLong (n : Int)
  | double (x : Rat)
  | string (s : String)
  | list (l : List QVariant)
  | map (m : List (String × QVariant))

mutual

def QVariant.decEq : (v w : QVariant) → Decidable (v = w)
  | .invalid, .invalid => isTrue rfl
  | .bool b, .bool b' => decidable_of_iff (b = b') (by simp)
  | .longLong n, .longLong n' => decidable_of_iff (n = n') (by simp)
  | .double x, .double x' => decidable_of_iff (x = x') (by simp)
  | .string s, .string s' => decidable_of_iff (s = s') (by simp)
  | .list l, .list l' => @decidable_of_iff _ (l = l') (by simp) (QVariant.decEqList l l')
  | .map m, .map m' => @decidable_of_iff _ (m = m') (by simp) (QVariant.decEqEntries m m')
  | .invalid, .bool _ | .invalid, .longLong _ | .invalid, .double _ | .invalid, .string _ | .invalid, .list _
  | .invalid, .map _ => isFalse nofun
  | .bool _, .invalid | .bool _, .longLong _ | .bool _, .double _ | .bool _, .string _ | .bool _, .list _
  | .bool _, .map _ => isFalse nofun
  | .longLong _, .invalid | .longLong _, .bool _ | .longLong _, .double _ | .longLong _, .string _
  | .longLong _, .list _ | .longLong _, .map _ => isFalse nofun
  | .double _, .invalid | .double _, .bool _ | .double _, .longLong _ | .double _, .string _ | .double _, .list _
  | .double _, .map _ => isFalse nofun
  | .string _, .invalid | .string _, .bool _ | .string _, .longLong _ | .string _, .double _ | .string _, .list _
  | .string _, .map _ => isFalse nofun
  | .list _, .invalid | .list _, .bool _ | .list _, .longLong _ | .list _, .double _ | .list _, .string _
  | .list _, .map _ => isFalse nofun
  | .map _, .invalid | .map _, .bool _ | .map _, .longLong _ | .map _, .double _ | .map _, .string _
  | .map _, .list _ => isFalse nofun

def QVariant.decEqList : (l l' : List QVariant) → Decidable (l = l')
  | [], [] => isTrue rfl
  | [], _ :: _ | _ :: _, [] => isFalse nofun
  | v :: l, v' :: l' =>
      match QVariant.decEq v v', QVariant.decEqList l l' with
      | isTrue hv, isTrue hl => isTrue (by rw [hv, hl])
      | isFalse hv, _ => isFalse (by simp [hv])
      | _, isFalse hl => isFalse (by simp [hl])

def QVariant.decEqEntries : (m m' : List (String × QVariant)) → Decidable (m = m')
  | [], [] => isTrue rfl
  | [], _ :: _ | _ :: _, [] => isFalse nofun
  | (k, v) :: m, (k', v') :: m' =>
      match instDecidableEqString k k', QVariant.decEq v v', QVariant.decEqEntries m m' with
      | isTrue hk, isTrue hv, isTrue hm => isTrue (by rw [hk, hv, hm])
      | isFalse hk, _, _ => isFalse (by simp [hk])
      | _, isFalse hv, _ => isFalse (by simp [hv])
      | _, _, isFalse hm => isFalse (by simp [hm])

end

/-- Equality of variants; the maps of TDLib's objects list their keys in one order, so it is that of Qt. -/
instance : DecidableEq QVariant := QVariant.decEq

abbrev QVariantMap := List (String × QVariant)

abbrev QVariantList := List QVariant

/-- The digits of a decimal number; anything else makes the whole text no number. -/
def digitsToNat : List Char → Nat → Option Nat
  | [], n => some n
  | c :: cs, n =>
      if '0'.toNat ≤ c.toNat ∧ c.toNat ≤ '9'.toNat then digitsToNat cs (10 * n + (c.toNat - '0'.toNat))
      else none

/-- `QString::toLongLong`: TDLib writes a 64-bit integer as a string of decimal digits with an
optional sign. A text that is no number, or a number outside 64 bits, reads as 0. -/
def stringToLongLong (s : String) : Int :=
  let inRange (n : Int) : Int := if -2 ^ 63 ≤ n ∧ n < 2 ^ 63 then n else 0
  match s.toList with
  | '-' :: c :: cs => inRange (-((digitsToNat (c :: cs) 0).getD 0 : Int))
  | '+' :: c :: cs => inRange ((digitsToNat (c :: cs) 0).getD 0)
  | c :: cs => inRange ((digitsToNat (c :: cs) 0).getD 0)
  | [] => 0

namespace QVariant

def toBool : QVariant → Bool
  | .bool b => b
  | .longLong n => n != 0
  | .double x => x != 0
  | .string s => !(s == "" || s == "0" || s == "false")
  | _ => false

def toLongLong : QVariant → Int
  | .bool b => if b then 1 else 0
  | .longLong n => n
  | .double x => (x + 1 / 2).floor
  | .string s => stringToLongLong s
  | _ => 0

/-- The 32-bit numbers TDLib sends lie in the range of `int`, where the two conversions agree. -/
def toInt (v : QVariant) : Int := v.toLongLong

/-- The text of a `double` is read nowhere. -/
def toStr : QVariant → String
  | .string s => s
  | .longLong n => toString n
  | .bool b => if b then "true" else "false"
  | _ => ""

def toList : QVariant → QVariantList
  | .list l => l
  | _ => []

def toMap : QVariant → QVariantMap
  | .map m => m
  | _ => []

end QVariant

theorem QVariant.eq_map_of_toMap_ne_nil {v : QVariant} (h : v.toMap ≠ []) : v = .map v.toMap := by
  cases v with
  | map m => rfl
  | _ => exact absurd rfl h

namespace QVariantMap

def value : QVariantMap → String → QVariant
  | [], _ => .invalid
  | (key, v) :: m, k => if key = k then v else value m k

/-- The entry of the key is replaced in its place, or added. -/
def insert : QVariantMap → String → QVariant → QVariantMap
  | [], k, v => [(k, v)]
  | (key, w) :: m, k, v => if key = k then (k, v) :: m else (key, w) :: insert m k v

def remove (m : QVariantMap) (k : String) : QVariantMap := m.filter fun entry => entry.1 ≠ k

def contains (m : QVariantMap) (k : String) : Bool := m.any fun entry => entry.1 = k

@[simp] theorem value_insert_self (m : QVariantMap) (k : String) (v : QVariant) : (insert m k v).value k = v := by
  induction m with
  | nil => simp [insert, value]
  | cons entry m ih =>
      obtain ⟨key, w⟩ := entry
      by_cases hkey : key = k
      · simp [insert, value, hkey]
      · simp [insert, value, hkey, ih]

theorem value_insert_of_ne (m : QVariantMap) {k k' : String} (v : QVariant) (h : k' ≠ k) :
    (insert m k v).value k' = m.value k' := by
  induction m with
  | nil => simp [insert, value, h.symm]
  | cons entry m ih =>
      obtain ⟨key, w⟩ := entry
      by_cases hkey : key = k
      · subst hkey
        simp [insert, value, h.symm]
      · simp [insert, value, hkey, ih]

theorem contains_insert (m : QVariantMap) (k k' : String) (v : QVariant) :
    (insert m k v).contains k' = (decide (k = k') || m.contains k') := by
  induction m with
  | nil => simp [insert, contains]
  | cons entry m ih =>
      obtain ⟨key, w⟩ := entry
      rw [insert]
      split_ifs with hkey
      · subst hkey
        simp [contains]
      · simp only [contains, List.any_cons] at ih ⊢
        rw [ih]
        simp only [Bool.or_left_comm]

theorem value_of_contains_eq_false {m : QVariantMap} {k : String} (h : m.contains k = false) :
    m.value k = .invalid := by
  induction m with
  | nil => rfl
  | cons entry m ih =>
      obtain ⟨key, w⟩ := entry
      rw [contains, List.any_cons, Bool.or_eq_false_iff, decide_eq_false_iff_not] at h
      rw [value, if_neg h.1, ih h.2]

/-- Writing what a key holds changes nothing. -/
theorem insert_value_self (m : QVariantMap) {k : String} (h : m.contains k = true) : m.insert k (m.value k) = m := by
  induction m with
  | nil => simp [contains] at h
  | cons entry m ih =>
      obtain ⟨key, w⟩ := entry
      by_cases hkey : key = k
      · simp [insert, value, hkey]
      · have htail : contains m k = true := by simpa [contains, hkey] using h
        simp only [insert, value, if_neg hkey, ih htail]

theorem contains_of_value_ne {m : QVariantMap} {k : String} (h : m.value k ≠ .invalid) : m.contains k = true := by
  induction m with
  | nil => exact absurd rfl h
  | cons entry m ih =>
      obtain ⟨key, w⟩ := entry
      by_cases hkey : key = k
      · simp [contains, hkey]
      · have htail := ih (by simpa [value, hkey] using h)
        simp only [contains, List.any_cons] at htail ⊢
        rw [htail, Bool.or_true]

theorem value_remove_of_ne (m : QVariantMap) {k k' : String} (h : k' ≠ k) : (m.remove k).value k' = m.value k' := by
  induction m with
  | nil => rfl
  | cons entry m ih =>
      obtain ⟨key, w⟩ := entry
      by_cases hkey : key = k
      · have hne : key ≠ k' := fun heq => h (heq.symm.trans hkey)
        rw [remove, List.filter_cons_of_neg (by simpa using hkey), value, if_neg hne]
        exact ih
      · rw [remove, List.filter_cons_of_pos (by simpa using hkey), value, value]
        rw [remove] at ih
        rw [ih]

theorem contains_remove_self (m : QVariantMap) (k : String) : (m.remove k).contains k = false := by
  rw [contains, remove, List.any_eq_false]
  intro entry hentry
  have hkey := (List.mem_filter.mp hentry).2
  simpa using hkey

theorem contains_remove_of_ne (m : QVariantMap) {k k' : String} (h : k' ≠ k) :
    (m.remove k).contains k' = m.contains k' := by
  rw [contains, contains, remove, List.any_filter]
  congr 1
  funext entry
  by_cases hkey : entry.1 = k'
  · simp [hkey, h]
  · simp [hkey]

theorem remove_of_contains {m : QVariantMap} {k : String} (h : m.contains k = false) : m.remove k = m := by
  rw [contains, List.any_eq_false] at h
  refine List.filter_eq_self.mpr fun entry hentry => ?_
  simpa using h entry hentry

theorem insert_of_value {m : QVariantMap} {k : String} {v : QVariant} (h : m.value k = v) (hv : v ≠ .invalid) :
    m.insert k v = m := by
  rw [← h]
  exact insert_value_self m (contains_of_value_ne (by rwa [h]))

end QVariantMap

/-! ### The field names and object types the models read -/

namespace TdConst

abbrev TYPE_ : String := "@type"
abbrev ID : String := "id"
abbrev TYPE : String := "type"
abbrev IS_CHANNEL : String := "is_channel"
abbrev CHAT_ID : String := "chat_id"
abbrev MESSAGE_ID : String := "message_id"
abbrev CONTENT : String := "content"
abbrev MEDIA_ALBUM_ID : String := "media_album_id"
abbrev INTERACTION_INFO : String := "interaction_info"
abbrev VIEW_COUNT : String := "view_count"
abbrev REACTIONS : String := "reactions"
abbrev IS_PINNED : String := "is_pinned"
abbrev SENDING_STATE : String := "sending_state"
abbrev CONTAINS_UNREAD_MENTION : String := "contains_unread_mention"
abbrev UNREAD_REACTIONS : String := "unread_reactions"
abbrev LINK_PREVIEW : String := "link_preview"
abbrev LAST_MESSAGE : String := "last_message"
abbrev LAST_READ_INBOX_MESSAGE_ID : String := "last_read_inbox_message_id"
abbrev LAST_READ_OUTBOX_MESSAGE_ID : String := "last_read_outbox_message_id"
abbrev DRAFT_MESSAGE : String := "draft_message"
abbrev TOPIC_ID : String := "topic_id"
abbrev FORUM_TOPIC_ID : String := "forum_topic_id"
abbrev INFO : String := "info"
abbrev ICON : String := "icon"
abbrev NAME : String := "name"
abbrev DATE : String := "date"
abbrev CREATION_DATE : String := "creation_date"
abbrev CREATOR_ID : String := "creator_id"
abbrev IS_GENERAL : String := "is_general"
abbrev IS_OUTGOING : String := "is_outgoing"
abbrev IS_CLOSED : String := "is_closed"
abbrev IS_HIDDEN : String := "is_hidden"
abbrev IS_NAME_IMPLICIT : String := "is_name_implicit"
abbrev UNREAD_MENTION_COUNT : String := "unread_mention_count"
abbrev UNREAD_REACTION_COUNT : String := "unread_reaction_count"
abbrev UNREAD_POLL_VOTE_COUNT : String := "unread_poll_vote_count"
abbrev NOTIFICATION_SETTINGS : String := "notification_settings"
abbrev EXTRA_ : String := "@extra"
abbrev USER_ID : String := "user_id"
abbrev BASIC_GROUP_ID : String := "basic_group_id"
abbrev SUPERGROUP_ID : String := "supergroup_id"
abbrev SENDER_ID : String := "sender_id"
abbrev TEXT : String := "text"
abbrev TITLE : String := "title"
abbrev PHOTO : String := "photo"
abbrev UNREAD_COUNT : String := "unread_count"
abbrev AVAILABLE_REACTIONS : String := "available_reactions"
abbrev PERMISSIONS : String := "permissions"
abbrev IS_MARKED_AS_UNREAD : String := "is_marked_as_unread"
abbrev PENDING_JOIN_REQUESTS : String := "pending_join_requests"
abbrev VIEW_AS_TOPICS : String := "view_as_topics"
abbrev ACCENT_COLOR_ID : String := "accent_color_id"
abbrev BACKGROUND_CUSTOM_EMOJI_ID : String := "background_custom_emoji_id"
abbrev UPGRADED_GIFT_COLORS : String := "upgraded_gift_colors"
abbrev PROFILE_ACCENT_COLOR_ID : String := "profile_accent_color_id"
abbrev PROFILE_BACKGROUND_CUSTOM_EMOJI_ID : String := "profile_background_custom_emoji_id"
abbrev STATUS : String := "status"
abbrev FIRST_NAME : String := "first_name"
abbrev USERNAMES : String := "usernames"
abbrev ACTIVE_USERNAMES : String := "active_usernames"
abbrev VERIFICATION_STATUS : String := "verification_status"
abbrev MUTE_FOR : String := "mute_for"
abbrev VIDEO : String := "video"
abbrev VIDEO_NOTE : String := "video_note"
abbrev COVER : String := "cover"
abbrev ANIMATION : String := "animation"
abbrev DOCUMENT : String := "document"
abbrev AUDIO : String := "audio"
abbrev MINITHUMBNAIL : String := "minithumbnail"
abbrev ALBUM_COVER_MINITHUMBNAIL : String := "album_cover_minithumbnail"
abbrev TYPE_USER_STATUS_ONLINE : String := "userStatusOnline"
abbrev ORDER : String := "order"
abbrev LIST : String := "list"
abbrev POSITIONS : String := "positions"
abbrev CHAT_LISTS : String := "chat_lists"
abbrev CHAT_FOLDER_ID : String := "chat_folder_id"
abbrev TYPE_MESSAGE : String := "message"
abbrev TYPE_SPONSORED_MESSAGE : String := "sponsoredMessage"
abbrev TYPE_MESSAGE_DICE : String := "messageDice"
abbrev TYPE_MESSAGE_VOICE_NOTE : String := "messageVoiceNote"
abbrev MESSAGE_CONTENT_TYPE_PHOTO : String := "messagePhoto"
abbrev MESSAGE_CONTENT_TYPE_VIDEO : String := "messageVideo"
abbrev MESSAGE_CONTENT_TYPE_VIDEO_NOTE : String := "messageVideoNote"
abbrev MESSAGE_CONTENT_TYPE_ANIMATION : String := "messageAnimation"
abbrev MESSAGE_CONTENT_TYPE_AUDIO : String := "messageAudio"
abbrev MESSAGE_CONTENT_TYPE_VOICE_NOTE : String := "messageVoiceNote"
abbrev MESSAGE_CONTENT_TYPE_DOCUMENT : String := "messageDocument"
abbrev MESSAGE_CONTENT_TYPE_CHAT_CHANGE_PHOTO : String := "messageChatChangePhoto"
abbrev FINAL_STATE : String := "final_state"
abbrev TYPE_MESSAGE_SENDING_STATE_FAILED : String := "messageSendingStateFailed"
abbrev TYPE_CHAT_SUPERGROUP : String := "chatTypeSupergroup"
abbrev TYPE_MESSAGE_TOPIC_FORUM : String := "messageTopicForum"
abbrev TYPE_CHAT_POSITION : String := "chatPosition"
abbrev TYPE_CHAT_LIST_MAIN : String := "chatListMain"
abbrev TYPE_CHAT_LIST_ARCHIVE : String := "chatListArchive"
abbrev TYPE_CHAT_LIST_FOLDER : String := "chatListFolder"

end TdConst

end YaqtLib
