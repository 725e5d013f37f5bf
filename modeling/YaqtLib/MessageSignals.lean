import YaqtLib.HeldMessages
import YaqtLib.MessageObjects

/-! The receiver's handlers for messages, the signals they emit, and the slots of the message models behind these. -/

namespace YaqtLib

open Containers TdConst TDLibReceiver

namespace TdConst

abbrev MESSAGES : String := "messages"
abbrev MESSAGE : String := "message"
abbrev TOTAL_COUNT : String := "total_count"
abbrev NEXT_FROM_MESSAGE_ID : String := "next_from_message_id"
abbrev OLD_MESSAGE_ID : String := "old_message_id"

end TdConst

namespace TDLibReceiver

/-- `QString::toInt`: a number outside 32 bits reads as 0. -/
def stringToInt (s : String) : Int :=
  let n := stringToLongLong s
  if -2 ^ 31 ≤ n ∧ n < 2 ^ 31 then n else 0

/-- The parts of an extra between its colons. -/
def splitExtra (extra : String) : List String := (extra.toList.splitOn ':').map String.ofList

/-- `QStringList::value`; a part that is not there is empty. -/
def part (extra : List String) (i : Nat) : String := extra.getD i ""

/-- The signals with messages in them. -/
inductive Signal where
  | messagesReceived (chatId extra : Int) (messages : QVariantList) (totalCount : Int)
  | threadMessagesReceived (chatId messageId extra : Int) (messages : QVariantList) (totalCount : Int)
  | forumTopicMessagesReceived (chatId forumTopicId extra : Int) (messages : QVariantList) (totalCount : Int)
  | foundChatMessagesReceived (chatId extra1 extra2 : Int) (messages : QVariantList)
      (totalCount nextFromMessageId : Int)
  | newMessageReceived (chatId : Int) (message : QVariantMap)
  | messageReceived (chatId messageId : Int) (message : QVariantMap) (extra : String)
  | messageSendSucceeded (chatId oldMessageId messageId : Int) (message : QVariantMap)
  | responseForRequestIdReceived (requestId : Int) (data : QVariantMap)

section Handlers

variable (charSigned : Bool)

def processMessages (data : QVariantMap) : Signal :=
  let extra := splitExtra (data.value EXTRA_).toStr
  let totalCount := (data.value TOTAL_COUNT).toInt
  let messages := (cleanupList (cleanup charSigned) (data.value MESSAGES).toList).1
  if part extra 0 = "thread" then
    .threadMessagesReceived (stringToLongLong (part extra 1)) (stringToLongLong (part extra 2))
      (stringToInt (part extra 3)) messages totalCount
  else if part extra 0 = "forumTopic" then
    .forumTopicMessagesReceived (stringToLongLong (part extra 1)) (stringToInt (part extra 2))
      (stringToInt (part extra 3)) messages totalCount
  else .messagesReceived (stringToLongLong (part extra 0)) (stringToInt (part extra 1)) messages totalCount

def processFoundChatMessages (data : QVariantMap) : Signal :=
  let extra := splitExtra (data.value EXTRA_).toStr
  .foundChatMessagesReceived (stringToLongLong (part extra 0)) (stringToInt (part extra 1))
    (stringToInt (part extra 2)) (cleanupList (cleanup charSigned) (data.value MESSAGES).toList).1
    (data.value TOTAL_COUNT).toInt (data.value NEXT_FROM_MESSAGE_ID).toLongLong

def processUpdateNewMessage (data : QVariantMap) : Signal :=
  let message := (data.value MESSAGE).toMap
  .newMessageReceived (chatIdOf message) (cleanupMap charSigned message)

def processMessage (data : QVariantMap) : Signal :=
  .messageReceived (chatIdOf data) (messageIdOf data) (cleanupMap charSigned data) (data.value EXTRA_).toStr

def processMessageSendSucceeded (data : QVariantMap) : Signal :=
  let message := (data.value MESSAGE).toMap
  .messageSendSucceeded (chatIdOf message) (data.value OLD_MESSAGE_ID).toLongLong (messageIdOf message)
    (cleanupMap charSigned message)

/-- The handlers that emit messages. -/
def handleMessages (key : String) (data : QVariantMap) : Option Signal :=
  if key = "messages" then some (processMessages charSigned data)
  else if key = "foundChatMessages" then some (processFoundChatMessages charSigned data)
  else if key = "updateNewMessage" then some (processUpdateNewMessage charSigned data)
  else if key = "message" then some (processMessage charSigned data)
  else if key = "updateMessageSendSucceeded" then some (processMessageSendSucceeded charSigned data)
  else none

/-- `processReceivedDocument`, as far as it emits messages. -/
def receive (clientId : Int) (data : QVariantMap) : Option Signal :=
  match route clientId data with
  | .response requestId => some (.responseForRequestIdReceived requestId data)
  | .handler key => handleMessages charSigned key data
  | .ignored | .unhandled => none

/-- A document is emitted as a response exactly if its extra is a request id. -/
theorem receive_eq_some {clientId : Int} {data : QVariantMap} {signal : Signal}
    (h : receive charSigned clientId data = some signal) :
    (∃ digits, requestIdMatch (data.value EXTRA_).toStr = some digits ∧
        signal = .responseForRequestIdReceived (stringToLongLong (String.ofList digits)) data) ∨
      requestIdMatch (data.value EXTRA_).toStr = none ∧
        handleMessages charSigned (data.value TYPE_).toStr data = some signal := by
  rw [receive, route] at h
  by_cases hclient : (data.value CLIENT_ID).toInt ≠ clientId
  · rw [if_pos hclient] at h
    exact absurd h (by simp)
  · rw [if_neg hclient] at h
    cases hmatch : requestIdMatch (data.value EXTRA_).toStr with
    | some digits =>
        rw [hmatch] at h
        exact .inl ⟨digits, rfl, (Option.some.inj h).symm⟩
    | none =>
        rw [hmatch] at h
        refine .inr ⟨rfl, ?_⟩
        cases hhandler : handlerOf (data.value TYPE_).toStr with
        | none =>
            rw [hhandler] at h
            exact absurd h (by simp)
        | some key =>
            rw [hhandler] at h
            rcases handlerOf_eq_some hhandler with rfl | habstract
            · exact h
            · -- none of the abstract handlers emits a message
              simp only [abstractHandlers, List.mem_cons, List.not_mem_nil, or_false] at habstract
              rcases habstract with rfl | rfl | rfl | rfl | rfl <;> exact absurd h (by simp [handleMessages])

theorem receive_response {clientId : Int} {data : QVariantMap} {digits : List Char}
    (hclient : (data.value CLIENT_ID).toInt = clientId)
    (hmatch : requestIdMatch (data.value EXTRA_).toStr = some digits) :
    receive charSigned clientId data =
      some (.responseForRequestIdReceived (stringToLongLong (String.ofList digits)) data) := by
  rw [receive, route, if_neg (not_not_intro hclient), hmatch]

theorem receive_message {clientId : Int} {data : QVariantMap}
    (hclient : (data.value CLIENT_ID).toInt = clientId)
    (hmatch : requestIdMatch (data.value EXTRA_).toStr = none) (htype : HasType data TYPE_MESSAGE) :
    receive charSigned clientId data = some (processMessage charSigned data) := by
  have hhandler : handlerOf TYPE_MESSAGE = some TYPE_MESSAGE := by
    rw [handlerOf, if_pos (by simp [handlers])]
  rw [receive, route, if_neg (not_not_intro hclient), hmatch, htype.toStr, hhandler]
  rfl

end Handlers

end TDLibReceiver

/-- The number of a kind of request; the wrapper sends no other numbers. -/
def UpdateType.ofInt? (n : Int) : Option UpdateType :=
  match n with
  | 0 => some .updateInitial
  | 1 => some .updatePreviousSlice
  | 2 => some .updateNextSlice
  | 3 => some .updateReload
  | _ => none

/-- The number of a filter. -/
def SearchMessagesFilter.ofInt? (n : Int) : Option SearchMessagesFilter :=
  match n with
  | 0 => some .empty
  | 1 => some .photoAndVideo
  | 2 => some .animation
  | 3 => some .audio
  | 4 => some .chatPhoto
  | 5 => some .document
  | 6 => some .failedToSend
  | 7 => some .mention
  | 8 => some .photo
  | 9 => some .pinned
  | 10 => some .unreadMention
  | 11 => some .unreadReaction
  | 12 => some .url
  | 13 => some .video
  | 14 => some .videoNote
  | 15 => some .voiceAndVideoNote
  | 16 => some .voiceNote
  | _ => none

namespace ChatMessagesModel

/-- The slots of the model. -/
def take (m : ChatMessagesModel) : TDLibReceiver.Signal → ChatMessagesModel
  | .messagesReceived chatId extra messages totalCount =>
      match UpdateType.ofInt? extra with
      | some extra => (handleMessagesReceived m chatId extra (messages.map QVariant.toMap) totalCount).1
      | none => m
  | .foundChatMessagesReceived chatId extra1 extra2 messages totalCount _ =>
      match SearchMessagesFilter.ofInt? extra1, UpdateType.ofInt? extra2 with
      | some filter, some extra =>
          (handleFoundChatMessagesReceived m chatId filter extra (messages.map QVariant.toMap) totalCount).1
      | _, _ => m
  | .newMessageReceived chatId message => handleNewMessageReceived m chatId message
  | .messageReceived chatId messageId message _ => m.handleMessageReceived chatId messageId message
  | .messageSendSucceeded chatId oldMessageId messageId message =>
      (m.handleMessageSendSucceeded chatId oldMessageId messageId message).1
  | .threadMessagesReceived .. | .forumTopicMessagesReceived .. | .responseForRequestIdReceived .. => m

end ChatMessagesModel

namespace ForumTopicMessagesModel

/-- The slots of the model. -/
def take (m : ForumTopicMessagesModel) : TDLibReceiver.Signal → ForumTopicMessagesModel
  | .forumTopicMessagesReceived chatId forumTopicId extra messages totalCount =>
      match UpdateType.ofInt? extra with
      | some extra =>
          (handleForumTopicMessagesReceived m chatId forumTopicId extra (messages.map QVariant.toMap) totalCount).1
      | none => m
  | .newMessageReceived chatId message => handleNewMessageReceived m chatId message
  | .messageReceived chatId messageId message _ => m.handleMessageReceived chatId messageId message
  | .messageSendSucceeded chatId oldMessageId messageId message =>
      (m.handleMessageSendSucceeded chatId oldMessageId messageId message).1
  | .messagesReceived .. | .threadMessagesReceived .. | .foundChatMessagesReceived ..
  | .responseForRequestIdReceived .. => m

end ForumTopicMessagesModel

namespace MediaMessagesModel

/-- The slots of the model; `fetching` holds the messages that `fetchAndInsertMessage` has asked for, by the ids of
these requests. -/
def take (m : MediaMessagesModel) (fetching : QHash Int Int) : TDLibReceiver.Signal → MediaMessagesModel
  | .foundChatMessagesReceived chatId extra1 extra2 messages totalCount nextFromMessageId =>
      match SearchMessagesFilter.ofInt? extra1, UpdateType.ofInt? extra2 with
      | some filter, some extra =>
          (handleMessagesReceived m chatId filter extra (messages.map QVariant.toMap) totalCount nextFromMessageId).1
      | _, _ => m
  | .newMessageReceived chatId message => handleNewMessageReceived m chatId message
  | .messageReceived chatId messageId message _ => m.handleMessageReceived chatId messageId message
  | .messageSendSucceeded chatId oldMessageId messageId message =>
      (m.handleMessageSendSucceeded chatId oldMessageId messageId message).1
  | .responseForRequestIdReceived requestId data =>
      match fetching.value requestId with
      | some messageId => step m (.messageFetched messageId data)
      | none => m
  | .messagesReceived .. | .threadMessagesReceived .. | .forumTopicMessagesReceived .. => m

end MediaMessagesModel

/-- A message model of one of the classes. -/
inductive MessageConsumer where
  | chat (m : ChatMessagesModel)
  | forumTopic (m : ForumTopicMessagesModel)
  | media (m : MediaMessagesModel) (fetching : QHash Int Int)

namespace MessageConsumer

def take (signal : TDLibReceiver.Signal) : MessageConsumer → MessageConsumer
  | .chat m => .chat (m.take signal)
  | .forumTopic m => .forumTopic (m.take signal)
  | .media m fetching => .media (m.take fetching signal) fetching

/-- The messages a model holds: those of its rows, and those it keeps for later. -/
def held : MessageConsumer → List QVariantMap
  | .chat m => m.messages.map MessageData.messageData ++ m.own.pendingSponsoredMessages
  | .forumTopic m => m.messages.map MessageData.messageData
  | .media m _ => m.messages.map MessageData.messageData

end MessageConsumer

/-! ### What a model can hold after a signal -/

namespace TDLibReceiver.Signal

/-- The message objects of a signal, as the rows take them. -/
def brings : Signal → List QVariantMap
  | .messagesReceived _ _ messages _ | .threadMessagesReceived _ _ _ messages _
  | .forumTopicMessagesReceived _ _ _ messages _ | .foundChatMessagesReceived _ _ _ messages _ _ =>
      messages.map QVariant.toMap
  | .newMessageReceived _ message | .messageSendSucceeded _ _ _ message => [message]
  | .messageReceived _ _ message _ =>
      [message.insert INTERACTION_INFO (.map (message.value INTERACTION_INFO).toMap)]
  | .responseForRequestIdReceived _ data => if (data.value TYPE_).toStr = TYPE_MESSAGE then [data] else []

end TDLibReceiver.Signal

section Take

open MessagesModel

variable {S : QVariantMap → Prop} {signal : TDLibReceiver.Signal}

theorem ChatMessagesModel.within_take {m : ChatMessagesModel} (h : Within S m) (hnew : ∀ s ∈ signal.brings, S s) :
    Within S (m.take signal) := by
  cases signal with
  | messagesReceived chatId extra messages totalCount =>
      rw [take]
      split
      · rw [handleMessagesReceived]
        split_ifs
        · exact h.handleMessagesReceived _ hnew _
        · exact h
      · exact h
  | foundChatMessagesReceived chatId extra1 extra2 messages totalCount nextFromMessageId =>
      rw [take]
      split
      · rw [handleFoundChatMessagesReceived]
        split_ifs
        · exact h.handleMessagesReceived _ hnew _
        · exact h
      · exact h
  | newMessageReceived chatId message =>
      rw [take, handleNewMessageReceived]
      split_ifs
      · exact h.handleNewMessageReceived (hnew message List.mem_cons_self)
      · exact h
  | messageReceived chatId messageId message extra => exact h.handleMessageReceived _ _ (hnew _ List.mem_cons_self)
  | messageSendSucceeded chatId oldMessageId messageId message =>
      exact h.handleMessageSendSucceeded _ _ _ (hnew message List.mem_cons_self)
  | threadMessagesReceived => exact h
  | forumTopicMessagesReceived => exact h
  | responseForRequestIdReceived => exact h

theorem ForumTopicMessagesModel.within_take {m : ForumTopicMessagesModel} (h : Within S m)
    (hnew : ∀ s ∈ signal.brings, S s) : Within S (m.take signal) := by
  cases signal with
  | forumTopicMessagesReceived chatId forumTopicId extra messages totalCount =>
      rw [take]
      split
      · rw [handleForumTopicMessagesReceived]
        split_ifs
        · exact h.handleMessagesReceived _ hnew _
        · exact h
      · exact h
  | newMessageReceived chatId message =>
      rw [take, handleNewMessageReceived]
      split_ifs
      · exact h.handleNewMessageReceived (hnew message List.mem_cons_self)
      · exact h
  | messageReceived chatId messageId message extra => exact h.handleMessageReceived _ _ (hnew _ List.mem_cons_self)
  | messageSendSucceeded chatId oldMessageId messageId message =>
      exact h.handleMessageSendSucceeded _ _ _ (hnew message List.mem_cons_self)
  | messagesReceived => exact h
  | threadMessagesReceived => exact h
  | foundChatMessagesReceived => exact h
  | responseForRequestIdReceived => exact h

theorem MediaMessagesModel.within_take {m : MediaMessagesModel} {fetching : QHash Int Int} (h : Within S m)
    (hnew : ∀ s ∈ signal.brings, S s) : Within S (m.take fetching signal) := by
  cases signal with
  | foundChatMessagesReceived chatId extra1 extra2 messages totalCount nextFromMessageId =>
      rw [take]
      split
      · rw [handleMessagesReceived]
        split_ifs
        · refine within_updateTotalCount ?_ _
          exact h.handleMessagesReceived _ hnew _
        · exact h
      · exact h
  | newMessageReceived chatId message =>
      rw [take, handleNewMessageReceived]
      dsimp only
      split_ifs
      · refine h.insertMessages fun row hrow => ?_
        rw [List.mem_singleton.mp hrow]
        exact hnew message List.mem_cons_self
      · exact h
      · exact h
  | messageReceived chatId messageId message extra => exact h.handleMessageReceived _ _ (hnew _ List.mem_cons_self)
  | messageSendSucceeded chatId oldMessageId messageId message =>
      exact h.handleMessageSendSucceeded _ _ _ (hnew message List.mem_cons_self)
  | responseForRequestIdReceived requestId data =>
      rw [take]
      split
      · rw [step, handle]
        split_ifs with htype
        · have hdata : S data := hnew data (by simp [TDLibReceiver.Signal.brings, htype])
          rw [insertMessageInOrder]
          have hrows := h.insertMessageInOrder ‹Int› hdata m.own.inverted
          split_ifs
          · exact hrows
          · exact hrows
        · exact h
      · exact h
  | messagesReceived => exact h
  | threadMessagesReceived => exact h
  | forumTopicMessagesReceived => exact h

/-- A model holds what it held before, and what the signal brings. -/
theorem MessageConsumer.held_take {model : MessageConsumer} (h : ∀ s ∈ model.held, S s)
    (hnew : ∀ s ∈ signal.brings, S s) : ∀ s ∈ (model.take signal).held, S s := by
  cases model with
  | chat m =>
      have hm : Within S m := by simpa [held, Within, HoldsMessages.others, or_imp, forall_and] using h
      simpa [take, held, Within, HoldsMessages.others, or_imp, forall_and] using
        ChatMessagesModel.within_take hm hnew
  | forumTopic m =>
      have hm : Within S m := by simpa [held, Within, HoldsMessages.others] using h
      simpa [take, held, Within, HoldsMessages.others] using ForumTopicMessagesModel.within_take hm hnew
  | media m fetching =>
      have hm : Within S m := by simpa [held, Within, HoldsMessages.others] using h
      have htake : Within S (m.take fetching signal) := MediaMessagesModel.within_take hm hnew
      simpa [take, held, Within, HoldsMessages.others] using htake

end Take

end YaqtLib
