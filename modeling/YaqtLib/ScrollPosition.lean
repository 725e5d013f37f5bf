import YaqtLib.ForumTopicMessagesModel
import YaqtLib.ChatMessagesModel
import YaqtLib.Sequences

/-! The row that a readable model asks its view to scroll to (`calculateScrollPosition` in
`chat/readablemessagesmodel.cpp`, `chat/chatmanager.cpp` and `chat/forumtopicmessagesmodel.cpp`). -/

namespace YaqtLib

open Containers

def Account.MessageSender.isUser (sender : Account.MessageSender) (userId : Int) : Bool :=
  !sender.isChat && sender.id == userId

/-- The members of a subclass that the position is computed from. -/
class ScrollMembers (Own : Type) where
  loadingFullEnd : Own → Bool
  searchQuery : Own → String

namespace MessagesModel

variable {Own : Type}

/-- -1 for a message without a row. -/
def getMessageIndex (m : MessagesModel Own) (messageId : Int) : Int :=
  match m.messageIndexMap.value messageId with
  | some position => position
  | none => -1

/-- The loop of `findLastSentMessageIndex`, with the number of rows that are left. -/
def findLastSentLoop (messages : List MessageData) (myUserId : Int) : Nat → Int
  | 0 => -1
  | i + 1 =>
      if (messages[i]?).any fun message => message.senderId.isUser myUserId then i
      else findLastSentLoop messages myUserId i

def findLastSentMessageIndex (m : MessagesModel Own) (myUserId : Int) : Int :=
  findLastSentLoop m.messages myUserId m.messages.length

end MessagesModel

namespace ReadableMessagesModel

variable {Own : Type} [ReadableVirtuals Own] [ScrollMembers Own]

def calculateScrollPosition (m : MessagesModel Own) (myUserId : Int) : Int :=
  let size : Int := m.messages.length
  if ScrollMembers.loadingFullEnd m.own then size - 1
  else
    let scrollPosition := m.getMessageIndex m.highlightedMessageId
    let scrollPosition :=
      if scrollPosition = -1 then
        let listInboxPosition := m.getMessageIndex (ReadableVirtuals.lastReadInboxMessageId m)
        let listOwnPosition := m.findLastSentMessageIndex myUserId
        let listInboxPosition := if size - 1 < listInboxPosition then -1 else listInboxPosition
        let listOwnPosition := if size - 1 < listOwnPosition then -1 else listOwnPosition
        max listInboxPosition listOwnPosition
      else scrollPosition
    min (scrollPosition + 1) (size - 1)

/-- The overrides of the subclasses: while in search, the last row. -/
def calculateUnlessInSearch (m : MessagesModel Own) (myUserId : Int) : Int :=
  if ScrollMembers.searchQuery m.own ≠ "" then m.messages.length - 1 else calculateScrollPosition m myUserId

end ReadableMessagesModel

instance : ScrollMembers ChatMembers where
  loadingFullEnd := ChatMembers.loadingFullEnd
  searchQuery := ChatMembers.searchQuery

instance : ScrollMembers ForumTopicMembers where
  loadingFullEnd := ForumTopicMembers.loadingFullEnd
  searchQuery := ForumTopicMembers.searchQuery

def ChatMessagesModel.calculateScrollPosition (m : ChatMessagesModel) (myUserId : Int) : Int :=
  ReadableMessagesModel.calculateUnlessInSearch m myUserId

def ForumTopicMessagesModel.calculateScrollPosition (m : ForumTopicMessagesModel) (myUserId : Int) : Int :=
  ReadableMessagesModel.calculateUnlessInSearch m myUserId

namespace MessagesModel

variable {Own : Type}

/-! ### The last own message -/

/-- A row with a message of one's own. -/
def IsOwn (messages : List MessageData) (myUserId : Int) (i : Nat) : Prop :=
  (messages[i]?).any fun message => message.senderId.isUser myUserId

instance (messages : List MessageData) (myUserId : Int) (i : Nat) : Decidable (IsOwn messages myUserId i) :=
  inferInstanceAs (Decidable (_ = true))

theorem neg_one_le_findLastSentLoop (messages : List MessageData) (myUserId : Int) (n : Nat) :
    -1 ≤ findLastSentLoop messages myUserId n := by
  induction n with
  | zero => exact le_refl _
  | succ n ih =>
      rw [findLastSentLoop]
      split_ifs
      · omega
      · exact ih

theorem findLastSentLoop_lt (messages : List MessageData) (myUserId : Int) (n : Nat) :
    findLastSentLoop messages myUserId n < n := by
  induction n with
  | zero => exact Int.negSucc_lt_zero 0
  | succ n ih =>
      rw [findLastSentLoop]
      split_ifs
      · omega
      · omega

/-- Where the loop stops is at least `k` if there is an own message from there on. -/
theorem le_findLastSentLoop_iff (messages : List MessageData) (myUserId : Int) (k n : Nat) :
    (k : Int) ≤ findLastSentLoop messages myUserId n ↔ ∃ i, k ≤ i ∧ i < n ∧ IsOwn messages myUserId i := by
  induction n with
  | zero =>
      refine iff_of_false ?_ fun ⟨i, hi⟩ => absurd hi.2.1 (Nat.not_lt_zero i)
      rw [findLastSentLoop]
      omega
  | succ n ih =>
      rw [findLastSentLoop]
      split_ifs with hown
      · constructor
        · intro hk
          exact ⟨n, by omega, by omega, hown⟩
        · rintro ⟨i, hk, hi, -⟩
          omega
      · rw [ih]
        constructor
        · rintro ⟨i, hk, hi, hrow⟩
          exact ⟨i, hk, by omega, hrow⟩
        · rintro ⟨i, hk, hi, hrow⟩
          have hne : i ≠ n := by
            rintro rfl
            exact hown hrow
          exact ⟨i, hk, by omega, hrow⟩

/-- The last own message is one of the last two rows. -/
theorem size_le_findLastSent_iff (m : MessagesModel Own) (myUserId : Int) (hsize : 1 < m.messages.length) :
    (m.messages.length : Int) ≤ m.findLastSentMessageIndex myUserId + 2 ↔
      ∃ i < m.messages.length, m.messages.length ≤ i + 2 ∧ IsOwn m.messages myUserId i := by
  have hloop := le_findLastSentLoop_iff m.messages myUserId (m.messages.length - 2) m.messages.length
  rw [findLastSentMessageIndex]
  constructor
  · intro hle
    obtain ⟨i, hk, hi, hown⟩ := hloop.mp (by omega)
    exact ⟨i, hi, by omega, hown⟩
  · rintro ⟨i, hi, hk, hown⟩
    have hle := hloop.mpr ⟨i, by omega, hi, hown⟩
    omega

/-- A message of the index map is one of the last two rows. -/
theorem size_le_getMessageIndex_iff (m : MessagesModel Own) (messageId : Int) (hsize : 1 < m.messages.length) :
    (m.messages.length : Int) ≤ (if (m.messages.length : Int) - 1 < m.getMessageIndex messageId then -1
      else m.getMessageIndex messageId) + 2 ↔
      ∃ i < m.messages.length, m.messages.length ≤ i + 2 ∧ m.messageIndexMap.value messageId = some i := by
  rw [getMessageIndex]
  cases hvalue : m.messageIndexMap.value messageId with
  | none =>
      refine iff_of_false ?_ fun ⟨i, _, _, hi⟩ => Option.some_ne_none i hi.symm
      dsimp only
      split_ifs <;> omega
  | some i =>
      dsimp only
      constructor
      · intro hle
        split_ifs at hle with hbehind
        · omega
        · exact ⟨i, by omega, by omega, rfl⟩
      · rintro ⟨j, hj, hle, heq⟩
        obtain rfl := Option.some.inj heq
        rw [if_neg (by omega)]
        omega

end MessagesModel

/-! ### When the position is the last row -/

namespace ReadableMessagesModel

open MessagesModel

variable {Own : Type} [ReadableVirtuals Own] [ScrollMembers Own]

/-- The last message that was read, or a message of one's own, is one of the last two rows. A row with the id 0, which
TDLib gives to no message, takes their place. -/
def LandsAtEnd (m : MessagesModel Own) (myUserId : Int) : Prop :=
  m.messages.length ≤ 1 ∨
    match m.messageIndexMap.value 0 with
    | some i => m.messages.length ≤ i + 2
    | none => ∃ i < m.messages.length, m.messages.length ≤ i + 2 ∧
        (m.messageIndexMap.value (ReadableVirtuals.lastReadInboxMessageId m) = some i ∨ IsOwn m.messages myUserId i)

/-- Without an intent, and without a highlighted message, the position is the row behind the last one that was read or
is own. -/
theorem calculateScrollPosition_eq_last_iff {m : MessagesModel Own} (hend : ScrollMembers.loadingFullEnd m.own = false)
    (hhighlighted : m.highlightedMessageId = 0) (myUserId : Int) :
    calculateScrollPosition m myUserId = m.messages.length - 1 ↔ LandsAtEnd m myUserId := by
  have hlast : ∀ scrollPosition : Int, min (scrollPosition + 1) ((m.messages.length : Int) - 1) =
      m.messages.length - 1 ↔ (m.messages.length : Int) ≤ scrollPosition + 2 := by omega
  rw [calculateScrollPosition, hend, hhighlighted, if_neg Bool.false_ne_true, hlast, LandsAtEnd]
  cases hzero : m.messageIndexMap.value 0 with
  | some i =>
      have hindex : m.getMessageIndex 0 = i := by rw [getMessageIndex, hzero]
      rw [hindex, if_neg (by omega)]
      dsimp only
      omega
  | none =>
      have hindex : m.getMessageIndex 0 = -1 := by rw [getMessageIndex, hzero]
      have hown : m.findLastSentMessageIndex myUserId < m.messages.length := findLastSentLoop_lt _ _ _
      have hown' : -1 ≤ m.findLastSentMessageIndex myUserId := neg_one_le_findLastSentLoop _ _ _
      have hmax : ∀ a b : Int, (m.messages.length : Int) ≤ max a b + 2 ↔
          (m.messages.length : Int) ≤ a + 2 ∨ (m.messages.length : Int) ≤ b + 2 := by omega
      have hbehind : ¬ (m.messages.length : Int) - 1 < m.findLastSentMessageIndex myUserId := by omega
      rw [hindex, if_pos rfl]
      dsimp only
      rw [if_neg hbehind, hmax]
      by_cases hsize : m.messages.length ≤ 1
      · exact iff_of_true (Or.inr (by omega)) (Or.inl hsize)
      · rw [or_iff_right hsize, m.size_le_findLastSent_iff myUserId (by omega),
          m.size_le_getMessageIndex_iff _ (by omega)]
        simp only [and_or_left, exists_or]

end ReadableMessagesModel

end YaqtLib
