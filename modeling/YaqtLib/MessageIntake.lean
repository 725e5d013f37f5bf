import YaqtLib.MessageSignals
import YaqtLib.Runs

/-! The ways on which a message object of TDLib comes to the rows of a message model: in a batch, in an update, or as
the reply to a request for it. All give the row the form `cleanupMap` makes, but for two kinds of replies. -/

namespace YaqtLib

open Containers Runs TdConst TDLibReceiver

/-- The ways of a message object, with what TDLib sends around it. -/
inductive Intake where
  | messages (before after : QVariantList) (totalCount : Int) (extra : String)
  | foundChatMessages (before after : QVariantList) (totalCount nextFromMessageId : Int) (extra : String)
  | updateNewMessage
  | updateMessageSendSucceeded (oldMessageId : Int)
  | getMessage
  | getMessageWithId (requestId : Nat)

namespace Intake

/-- The document in which the message comes. -/
def document (clientId : Int) (message : QVariantMap) : Intake → QVariantMap
  | .messages before after totalCount extra =>
      [(TYPE_, .string "messages"), (TOTAL_COUNT, .longLong totalCount),
        (MESSAGES, .list (before ++ .map message :: after)), (EXTRA_, .string extra), (CLIENT_ID, .longLong clientId)]
  | .foundChatMessages before after totalCount nextFromMessageId extra =>
      [(TYPE_, .string "foundChatMessages"), (TOTAL_COUNT, .longLong totalCount),
        (MESSAGES, .list (before ++ .map message :: after)),
        (NEXT_FROM_MESSAGE_ID, .longLong nextFromMessageId), (EXTRA_, .string extra),
        (CLIENT_ID, .longLong clientId)]
  | .updateNewMessage =>
      [(TYPE_, .string "updateNewMessage"), (MESSAGE, .map message), (CLIENT_ID, .longLong clientId)]
  | .updateMessageSendSucceeded oldMessageId =>
      [(TYPE_, .string "updateMessageSendSucceeded"), (MESSAGE, .map message),
        (OLD_MESSAGE_ID, .longLong oldMessageId), (CLIENT_ID, .longLong clientId)]
  | .getMessage => message.insert CLIENT_ID (.longLong clientId)
  | .getMessageWithId requestId =>
      (message.insert EXTRA_ (.string ("R" ++ toString requestId))).insert CLIENT_ID (.longLong clientId)

/-- The other messages of the batch have other ids. -/
def Apart (message : QVariantMap) : Intake → Prop
  | .messages before after _ _ | .foundChatMessages before after _ _ _ =>
      ∀ entry ∈ before ++ after, messageIdOf entry.toMap ≠ messageIdOf message
  | _ => True

end Intake

namespace MessageConsumer

/-- One document with the message comes in. -/
def intake (charSigned : Bool) (clientId : Int) (message : QVariantMap) (model : MessageConsumer) (way : Intake) :
    MessageConsumer :=
  match receive charSigned clientId (way.document clientId message) with
  | some signal => model.take signal
  | none => model

end MessageConsumer

/-! ### The ways of a message -/

def HasInteractionInfo (message : QVariantMap) : Prop := ∃ info, message.value INTERACTION_INFO = .map info

/-- What the message has to be like for its way to give the form of the other ways. -/
def Intake.Agrees (message : QVariantMap) : Intake → Prop
  | .getMessage => HasInteractionInfo message
  | .getMessageWithId _ => RepeatsReplyIds message ∧ ¬ IsVoiceNoteMessage message
  | _ => True

section Ways

variable {charSigned : Bool} {clientId : Int} {message : QVariantMap}

theorem messageIdOf_cleanupMap (message : QVariantMap) :
    messageIdOf (cleanupMap charSigned message) = messageIdOf message := by
  rw [messageIdOf, messageIdOf, value_cleanupMap charSigned message (by decide)]

theorem brings_processMessages (data : QVariantMap) : (processMessages charSigned data).brings =
    (cleanupList (cleanup charSigned) (data.value MESSAGES).toList).1.map QVariant.toMap := by
  rw [processMessages]
  split_ifs <;> rfl

/-- The reply to a request with id is the message itself. -/
theorem Intake.sameObject_document (message : QVariantMap) (requestId : Nat) :
    SameObject ((Intake.getMessageWithId requestId).document clientId message) message :=
  (sameObject_insert _ _ (.inl rfl)).trans (sameObject_insert _ _ (.inr rfl))

/-- The form of the message in a batch, whose other messages have other ids. -/
theorem cleanupMap_of_mem_batch {before after : QVariantList} {s : QVariantMap}
    (hapart : ∀ entry ∈ before ++ after, messageIdOf entry.toMap ≠ messageIdOf message)
    (hs : s ∈ (cleanupList (cleanup charSigned) (before ++ .map message :: after)).1.map QVariant.toMap)
    (hid : messageIdOf s = messageIdOf message) : s = cleanupMap charSigned message := by
  rw [toMap_cleanupList, List.mem_map] at hs
  obtain ⟨entry, hentry, rfl⟩ := hs
  rw [messageIdOf_cleanupMap] at hid
  rw [List.mem_append, List.mem_cons] at hentry
  rcases hentry with hmem | rfl | hmem
  · exact absurd hid (hapart entry (List.mem_append_left _ hmem))
  · rfl
  · exact absurd hid (hapart entry (List.mem_append_right _ hmem))

/-- Each way on which a message agrees brings its form. -/
theorem sameObject_of_brings (h : IsMessage message) (hbare : message.contains EXTRA_ = false) {way : Intake}
    (hapart : way.Apart message) (hagrees : way.Agrees message) {signal : TDLibReceiver.Signal}
    (hreceive : receive charSigned clientId (way.document clientId message) = some signal) {s : QVariantMap}
    (hs : s ∈ signal.brings) (hid : messageIdOf s = messageIdOf message) :
    SameObject s (cleanupMap charSigned message) := by
  rcases receive_eq_some charSigned hreceive with ⟨digits, hmatch, rfl⟩ | ⟨hmatch, hhandle⟩
  · cases way with
    | getMessage =>
        -- without an extra it is no response
        have hextra : ((Intake.getMessage.document clientId message).value EXTRA_).toStr = "" := by
          change ((message.insert CLIENT_ID _).value EXTRA_).toStr = ""
          rw [QVariantMap.value_insert_of_ne _ _ (by decide), QVariantMap.value_of_contains_eq_false hbare]
          rfl
        rw [hextra, requestIdMatch_empty] at hmatch
        exact absurd hmatch (by simp)
    | getMessageWithId requestId =>
        have hdocument : SameObject ((Intake.getMessageWithId requestId).document clientId message) message :=
          Intake.sameObject_document message requestId
        have hs' : s = (Intake.getMessageWithId requestId).document clientId message := by
          rw [TDLibReceiver.Signal.brings, if_pos (h.of_sameObject hdocument).type.toStr] at hs
          exact List.mem_singleton.mp hs
        rw [hs', cleanupMap_eq_self charSigned h hagrees.1 hagrees.2]
        exact hdocument
    | messages before after totalCount extra => exact absurd hs List.not_mem_nil
    | foundChatMessages before after totalCount nextFromMessageId extra => exact absurd hs List.not_mem_nil
    | updateNewMessage => exact absurd hs List.not_mem_nil
    | updateMessageSendSucceeded oldMessageId => exact absurd hs List.not_mem_nil
  · cases way with
    | messages before after totalCount extra =>
        obtain rfl : processMessages charSigned _ = signal := Option.some.inj hhandle
        rw [brings_processMessages] at hs
        rw [cleanupMap_of_mem_batch hapart hs hid]
        exact .refl _
    | foundChatMessages before after totalCount nextFromMessageId extra =>
        obtain rfl : processFoundChatMessages charSigned _ = signal := Option.some.inj hhandle
        rw [cleanupMap_of_mem_batch hapart hs hid]
        exact .refl _
    | updateNewMessage =>
        obtain rfl : processUpdateNewMessage charSigned _ = signal := Option.some.inj hhandle
        rw [List.mem_singleton.mp hs]
        exact .refl _
    | updateMessageSendSucceeded oldMessageId =>
        obtain rfl : processMessageSendSucceeded charSigned _ = signal := Option.some.inj hhandle
        rw [List.mem_singleton.mp hs]
        exact .refl _
    | getMessage =>
        have hdocument : SameObject (Intake.getMessage.document clientId message) message :=
          sameObject_insert _ _ (.inl rfl)
        have hhandle' : some (processMessage charSigned (Intake.getMessage.document clientId message)) = some signal := by
          rw [← hhandle, (h.of_sameObject hdocument).type.toStr]
          rfl
        obtain rfl := Option.some.inj hhandle'
        have hinfo : (cleanupMap charSigned (Intake.getMessage.document clientId message)).value INTERACTION_INFO =
            message.value INTERACTION_INFO :=
          (value_cleanupMap charSigned _ (by decide)).trans (hdocument INTERACTION_INFO (by decide) (by decide)).2
        obtain ⟨info, hmap⟩ := hagrees
        have hs' := List.mem_singleton.mp hs
        rw [hinfo, hmap, QVariant.toMap, QVariantMap.insert_of_value (hinfo.trans hmap) (by rintro ⟨⟩)] at hs'
        rw [hs']
        exact hdocument.cleanupMap charSigned h
    | getMessageWithId requestId =>
        have hextra : (((Intake.getMessageWithId requestId).document clientId message).value EXTRA_).toStr =
            "R" ++ toString requestId := by
          change (((message.insert EXTRA_ _).insert CLIENT_ID _).value EXTRA_).toStr = _
          rw [QVariantMap.value_insert_of_ne _ _ (by decide), QVariantMap.value_insert_self, QVariant.toStr]
        rw [hextra, requestIdMatch_toString] at hmatch
        exact absurd hmatch (by simp)

/-! ### All ways agree -/

/-- In every run of a model over documents with the message, what the model comes to hold under the id of the message
is its form. -/
def IntakeAgrees (charSigned : Bool) (clientId : Int) (message : QVariantMap) : Prop :=
  ∀ (model : MessageConsumer) (ways : List Intake), (∀ way ∈ ways, way.Apart message) →
    ∀ s ∈ (run (MessageConsumer.intake charSigned clientId message) model ways).held,
      messageIdOf s = messageIdOf message → s ∈ model.held ∨ SameObject s (cleanupMap charSigned message)

/-- A step by a way that agrees. -/
theorem held_intake (h : IsMessage message) (hbare : message.contains EXTRA_ = false) {way : Intake}
    (hapart : way.Apart message) (hagrees : way.Agrees message) {S : QVariantMap → Prop}
    (hform : ∀ s, (messageIdOf s = messageIdOf message → SameObject s (cleanupMap charSigned message)) → S s)
    {model : MessageConsumer} (hheld : ∀ s ∈ model.held, S s) :
    ∀ s ∈ (model.intake charSigned clientId message way).held, S s := by
  rw [MessageConsumer.intake]
  split
  · rename_i signal hreceive
    exact MessageConsumer.held_take hheld fun s hs => hform s (sameObject_of_brings h hbare hapart hagrees hreceive hs)
  · exact hheld

/-- A chat with the message as its only row. -/
def ChatMessagesModel.loadedWith (message : QVariantMap) (s : QVariantMap) : ChatMessagesModel :=
  { ChatMessagesModel.new (chatIdOf message) [] with
    messages := [MessageData.create s (messageIdOf message)]
    messageIndexMap := QHash.empty.insert (messageIdOf message) 0 }

/-- The plain reply writes its interaction info back into the row. -/
theorem ChatMessagesModel.messageReceived_loadedWith (s data : QVariantMap) (extra : String) :
    (MessageConsumer.chat ((loadedWith message s).take (.messageReceived (chatIdOf message) (messageIdOf message) data
      extra))).held = [data.insert INTERACTION_INFO (.map (data.value INTERACTION_INFO).toMap)] := by
  have hindex : (loadedWith message s).messageIndexMap.value (messageIdOf message) = some 0 := if_pos rfl
  have hchat : chatIdOf message = (loadedWith message s).chatId := rfl
  rw [take, MessagesModel.handleMessageReceived, if_pos hchat, hindex]
  rfl

theorem hasInteractionInfo_of_intakeAgrees (h : IsMessage message) (hbare : message.contains EXTRA_ = false)
    (hagrees : IntakeAgrees charSigned clientId message) : HasInteractionInfo message := by
  have hdocument : SameObject (Intake.getMessage.document clientId message) message :=
    sameObject_insert _ _ (.inl rfl)
  have hextra : requestIdMatch ((Intake.getMessage.document clientId message).value EXTRA_).toStr = none := by
    rw [Intake.document, QVariantMap.value_insert_of_ne _ _ (by decide), QVariantMap.value_of_contains_eq_false hbare]
    rfl
  have hclient : ((Intake.getMessage.document clientId message).value CLIENT_ID).toInt = clientId := by
    rw [Intake.document, QVariantMap.value_insert_self]
    rfl
  have hreceive := receive_message charSigned hclient hextra (h.of_sameObject hdocument).type
  have hchat : chatIdOf (Intake.getMessage.document clientId message) = chatIdOf message := by
    rw [chatIdOf, chatIdOf, (hdocument CHAT_ID (by decide) (by decide)).2]
  have hid : messageIdOf (Intake.getMessage.document clientId message) = messageIdOf message := by
    rw [messageIdOf, messageIdOf, (hdocument ID (by decide) (by decide)).2]
  rw [processMessage, hchat, hid] at hreceive
  let form := cleanupMap charSigned (Intake.getMessage.document clientId message)
  have hheld : (run (MessageConsumer.intake charSigned clientId message)
      (.chat (ChatMessagesModel.loadedWith message (cleanupMap charSigned message))) [.getMessage]).held =
        [form.insert INTERACTION_INFO (.map (form.value INTERACTION_INFO).toMap)] := by
    rw [run_cons, run_nil, MessageConsumer.intake, hreceive]
    exact ChatMessagesModel.messageReceived_loadedWith _ _ _
  have hformId : messageIdOf (form.insert INTERACTION_INFO (.map (form.value INTERACTION_INFO).toMap)) =
      messageIdOf message := by
    rw [messageIdOf, QVariantMap.value_insert_of_ne _ _ (by decide), ← hid, ← messageIdOf_cleanupMap]
    rfl
  have hinfo : (cleanupMap charSigned message).value INTERACTION_INFO = message.value INTERACTION_INFO :=
    value_cleanupMap charSigned message (by decide)
  refine ⟨(form.value INTERACTION_INFO).toMap, hinfo.symm.trans ?_⟩
  have hcases := hagrees _ [.getMessage] (fun way hway => by rw [List.mem_singleton.mp hway]; trivial)
    (form.insert INTERACTION_INFO (.map (form.value INTERACTION_INFO).toMap)) (by rw [hheld]; exact List.mem_cons_self)
    hformId
  rcases hcases with hmem | hsame
  · have hform : form.insert INTERACTION_INFO (.map (form.value INTERACTION_INFO).toMap) =
        cleanupMap charSigned message := List.mem_singleton.mp hmem
    rw [← hform]
    exact QVariantMap.value_insert_self _ _ _
  · rw [← (hsame INTERACTION_INFO (by decide) (by decide)).2]
    exact QVariantMap.value_insert_self _ _ _

/-- An empty model with both ends reached, and the request for a message on its way. -/
def MediaMessagesModel.fetchingEmpty (message : QVariantMap) : MessageConsumer :=
  .media { MediaMessagesModel.new false .empty with startReached := true, endReached := true }
    (QHash.empty.insert 0 (messageIdOf message))

theorem sameObject_of_intakeAgrees (h : IsMessage message) (hagrees : IntakeAgrees charSigned clientId message) :
    SameObject message (cleanupMap charSigned message) := by
  have hdocument : SameObject ((Intake.getMessageWithId 0).document clientId message) message :=
    Intake.sameObject_document message 0
  have hextra : requestIdMatch (((Intake.getMessageWithId 0).document clientId message).value EXTRA_).toStr =
      some (Nat.toDigits 10 0) := by
    rw [Intake.document, QVariantMap.value_insert_of_ne _ _ (by decide), QVariantMap.value_insert_self]
    exact requestIdMatch_toString 0
  have hclient : (((Intake.getMessageWithId 0).document clientId message).value CLIENT_ID).toInt = clientId := by
    rw [Intake.document, QVariantMap.value_insert_self]
    rfl
  have hreceive := receive_response charSigned hclient hextra
  rw [stringToLongLong_toDigits (by decide)] at hreceive
  have htype := (h.of_sameObject hdocument).type.toStr
  have hheld : (run (MessageConsumer.intake charSigned clientId message) (MediaMessagesModel.fetchingEmpty message)
      [.getMessageWithId 0]).held = [(Intake.getMessageWithId 0).document clientId message] := by
    rw [run_cons, run_nil, MessageConsumer.intake, hreceive]
    change (MediaMessagesModel.step _ (.messageFetched _ _)).messages.map MessageData.messageData = _
    rw [MediaMessagesModel.step, MediaMessagesModel.handle, if_pos htype]
    rfl
  have hid : messageIdOf ((Intake.getMessageWithId 0).document clientId message) = messageIdOf message := by
    rw [messageIdOf, messageIdOf, (hdocument ID (by decide) (by decide)).2]
  have hcases := hagrees (MediaMessagesModel.fetchingEmpty message) [.getMessageWithId 0]
    (fun way hway => by rw [List.mem_singleton.mp hway]; trivial) _ (by rw [hheld]; exact List.mem_cons_self) hid
  rcases hcases with hmem | hsame
  · exact absurd hmem List.not_mem_nil
  · exact hdocument.symm.trans hsame

/-- All ways give one form exactly for messages with an interaction info that repeat the ids of their reply and are
no voice notes. -/
theorem intakeAgrees_iff (charSigned : Bool) (clientId : Int) {message : QVariantMap} (h : IsMessage message)
    (hbare : message.contains EXTRA_ = false) : IntakeAgrees charSigned clientId message ↔
      HasInteractionInfo message ∧ RepeatsReplyIds message ∧ ¬ IsVoiceNoteMessage message := by
  constructor
  · intro hagrees
    exact ⟨hasInteractionInfo_of_intakeAgrees h hbare hagrees,
      (sameObject_cleanupMap_iff charSigned h).mp (sameObject_of_intakeAgrees h hagrees)⟩
  · rintro ⟨hinfo, hform⟩ model ways hapart
    have hway : ∀ way : Intake, way.Agrees message := fun way => by
      cases way <;> first | exact hinfo | exact hform | trivial
    let S : QVariantMap → Prop := fun s =>
      s ∈ model.held ∨ (messageIdOf s = messageIdOf message → SameObject s (cleanupMap charSigned message))
    have hrun : ∀ s ∈ (run (MessageConsumer.intake charSigned clientId message) model ways).held, S s :=
      Along.invariant (I := fun model' => ∀ s ∈ model'.held, S s)
        (fun model' way hheld hway' => held_intake h hbare hway' (hway way) (fun s => .inr) hheld)
        (fun s hs => .inl hs) (along_of_forall hapart model)
    intro s hs hid
    exact (hrun s hs).imp_right fun hsame => hsame hid

end Ways

/-- A text, with an interaction info and the fields given. -/
def textMessageWith (fields : QVariantMap) : QVariantMap :=
  [(TYPE_, .string TYPE_MESSAGE), (ID, .longLong 7), (CHAT_ID, .longLong 5),
    (CONTENT, .map [(TYPE_, .string "messageText")]),
    (INTERACTION_INFO, .map [(TYPE_, .string "messageInteractionInfo"), (VIEW_COUNT, .longLong 2)])] ++ fields

theorem isMessage_textMessageWith {fields : QVariantMap}
    (h : fields.contains REPLY_TO = true → ∃ type, HasType (fields.value REPLY_TO).toMap type) :
    IsMessage (textMessageWith fields) where
  type := rfl
  content := .other "messageText" rfl (by decide)
  replyTo := h

theorem intakeAgrees_textMessage : IntakeAgrees true 1 (textMessageWith []) :=
  (intakeAgrees_iff true 1 (isMessage_textMessageWith fun h => absurd h (by decide)) (by decide)).mpr
    ⟨⟨_, rfl⟩, by decide, by decide⟩

/-- The reply to a message of the same chat. -/
def replyMessage : QVariantMap :=
  textMessageWith [(REPLY_TO, .map [(TYPE_, .string TYPE_MESSAGE_REPLY_TO_MESSAGE), (CHAT_ID, .longLong 5),
    (MESSAGE_ID, .longLong 3)])]

/-- The row of a fetched reply lacks the ids that the rows of all other ways have. -/
theorem not_intakeAgrees : ¬ IntakeAgrees true 1 replyMessage := by
  have hmessage : IsMessage replyMessage := isMessage_textMessageWith fun _ => ⟨_, rfl⟩
  intro hagrees
  have hsame := sameObject_of_intakeAgrees hmessage hagrees
  exact absurd ((sameObject_cleanupMap_iff true hmessage).mp hsame).1 (by decide)

end YaqtLib
