import YaqtLib.ChatPhotosRows
import YaqtLib.Runs

/-! The full info of a group in the model of its photos (`ChatPhotosModel::processGroupFullInfo`). The flag that it has
been used is set before `clear`, which resets it again. -/

namespace YaqtLib

open Containers IndexMap Runs TdConst

namespace ChatPhotosModel

open MessagesModel

/-- The answer to `getGroupFullInfo` for the group `g` that the model's chat is of. -/
def fullInfoReply (g : GroupData) (fullInfo : QVariantMap) : Event :=
  .groupFullInfo (some g) g.chatType g.groupId fullInfo

/-- What the model sends and announces along a run. -/
def outputsOf : ChatPhotosModel → List Event → List Output
  | _, [] => []
  | m, e :: es => (handle m e).2 ++ outputsOf (step m e) es

def requestsOf (outputs : List Output) : List Request :=
  outputs.filterMap fun
    | .request r => some r
    | _ => none

/-- The events change neither the rows nor the state of paging, and nothing is asked for. -/
structure Unchanged (m : ChatPhotosModel) (es : List Event) : Prop where
  rows : (run step m es).messages = m.messages
  waitingFor : (run step m es).waitingFor = m.waitingFor
  startReached : (run step m es).startReached = m.startReached
  endReached : (run step m es).endReached = m.endReached
  cursor : (run step m es).own.nextFromMessageId = m.own.nextFromMessageId
  requests : requestsOf (outputsOf m es) = []

/-! ### The flag -/

/-- `m'` is of the same chat as `m`, and has the same flag. -/
structure SameFlag (m m' : ChatPhotosModel) : Prop where
  chatId : m'.chatId = m.chatId
  loaded : m'.own.mainChatPhotoLoaded = m.own.mainChatPhotoLoaded

variable {m m' m'' : ChatPhotosModel}

namespace SameFlag

theorem refl (m : ChatPhotosModel) : SameFlag m m := ⟨rfl, rfl⟩

theorem trans (h : SameFlag m m') (h' : SameFlag m' m'') : SameFlag m m'' :=
  ⟨h'.chatId.trans h.chatId, h'.loaded.trans h.loaded⟩

theorem of_members (h : SameMembers m m') : SameFlag m m' :=
  ⟨h.chatId, congrArg PhotoMembers.mainChatPhotoLoaded h.own⟩

end SameFlag

theorem sameFlag_updateTotalCount (m : ChatPhotosModel) (count : Int) : SameFlag m (updateTotalCount m count) := by
  rw [updateTotalCount]
  split_ifs
  · exact ⟨rfl, rfl⟩
  · exact .refl m

theorem sameFlag_prepare (m : ChatPhotosModel) (totalCount : Int) (fromUpdate : UpdateType) :
    SameFlag m (JumpableMessagesModel.handlePrepareMessagesReceived m totalCount fromUpdate) := by
  unfold JumpableMessagesModel.handlePrepareMessagesReceived
  split_ifs
  · cases fromUpdate <;> exact ⟨rfl, rfl⟩
  · exact .refl m

theorem sameFlag_notifyMessagesLoaded (m : ChatPhotosModel) (fromUpdate : UpdateType) (totalCount : Int) :
    SameFlag m (JumpableMessagesModel.notifyMessagesLoaded m fromUpdate totalCount).1 :=
  ((show SameFlag m (m.setWaitingFor fromUpdate false) from ⟨rfl, rfl⟩).trans
    (sameFlag_updateTotalCount _ totalCount)).trans (sameFlag_prepare _ totalCount fromUpdate)

theorem sameFlag_afterInsertion (m : ChatPhotosModel) (addedMessages : List MessageData) (reloadNeeded : Bool)
    (fromUpdate : UpdateType) (totalCount : Int) :
    SameFlag m (JumpableMessagesModel.afterInsertion m addedMessages reloadNeeded fromUpdate totalCount).1 :=
  JumpableMessagesModel.afterInsertion_of ⟨rfl, rfl⟩ (sameFlag_notifyMessagesLoaded m fromUpdate totalCount) _ _

theorem sameFlag_processMessageData (m : ChatPhotosModel) (message : MessageData) :
    SameFlag m (processMessageData m message) := by
  rw [processMessageData]
  split_ifs
  · have hzero : SameFlag m { m with own := { m.own with mainChatPhotoId := 0 } } := ⟨rfl, rfl⟩
    exact hzero.trans (.of_members (removeRange_sameMembers _ 0 0))
  · exact .refl m

theorem sameFlag_freshLoop (m : ChatPhotosModel) (messages : List QVariantMap) :
    SameFlag m (freshLoop m messages).1 := by
  induction messages generalizing m with
  | nil => exact .refl m
  | cons messageData rest ih =>
      rw [freshLoop]
      split_ifs
      · exact (sameFlag_processMessageData m _).trans (ih _)
      · exact ih m

/-- Rows are inserted before or behind the others. -/
theorem sameFlag_insertMessages (m : ChatPhotosModel) (newMessages : List MessageData) :
    SameFlag m (m.insertMessages newMessages) := by
  refine insertMessages_of ?_ ⟨rfl, rfl⟩ fun _ => .refl m
  change SameFlag m (appendMessages m newMessages)
  rw [appendMessages]
  split_ifs
  · exact ⟨rfl, rfl⟩
  · exact ⟨rfl, rfl⟩

theorem sameFlag_handleInsertMessages (m : ChatPhotosModel) (messages : List QVariantMap) :
    SameFlag m (handleInsertMessages m messages).1 := by
  have hloop := sameFlag_freshLoop m messages
  have heq : (handleInsertMessages m messages).1 =
      if (sortMessages true (freshLoop m messages).2).isEmpty then (freshLoop m messages).1
      else ((freshLoop m messages).1.insertMessages (sortMessages true (freshLoop m messages).2)).setMessagesAlbum
        (sortMessages true (freshLoop m messages).2) := rfl
  rw [heq]
  split_ifs
  · exact hloop
  · exact (hloop.trans (sameFlag_insertMessages _ _)).trans (.of_members (setMessagesAlbum_same _ _).sameMembers)

theorem sameFlag_receiveMessages (m : ChatPhotosModel) (fromUpdate : UpdateType) (messages : List QVariantMap)
    (totalCount : Int) : SameFlag m (receiveMessages m fromUpdate messages totalCount).1 := by
  rw [receiveMessages]
  split_ifs
  · exact (sameFlag_notifyMessagesLoaded m fromUpdate totalCount).trans ⟨rfl, rfl⟩
  · exact ((sameFlag_handleInsertMessages m messages).trans (sameFlag_afterInsertion _ _ _ fromUpdate totalCount)).trans
      ⟨rfl, rfl⟩
  · exact ⟨rfl, rfl⟩

theorem sameFlag_handleMessagesReceived (m : ChatPhotosModel) (chatId : Int) (filter : SearchMessagesFilter)
    (extra : UpdateType) (messages : List QVariantMap) (totalCount nextFromMessageId : Int) :
    SameFlag m (handleMessagesReceived m chatId filter extra messages totalCount nextFromMessageId).1 := by
  rw [handleMessagesReceived]
  split_ifs
  · have hcursor : SameFlag (receiveMessages m extra messages totalCount).1
        { (receiveMessages m extra messages totalCount).1 with
          own := { (receiveMessages m extra messages totalCount).1.own with nextFromMessageId := nextFromMessageId } } :=
      ⟨rfl, rfl⟩
    exact ((sameFlag_receiveMessages m extra messages totalCount).trans hcursor).trans
      (sameFlag_updateTotalCount _ totalCount)
  · exact .refl m

/-- The clearing that follows the setting of the flag resets it. -/
theorem processChatPhoto_flag (m : ChatPhotosModel) (photo : QVariantMap) :
    (processChatPhoto m photo).1.own.mainChatPhotoLoaded = false ∧ (processChatPhoto m photo).1.chatId = m.chatId := by
  have hclear : (clear m).1.own.mainChatPhotoLoaded = false ∧ (clear m).1.chatId = m.chatId := by
    rw [clear, JumpableMessagesModel.clear, MessagesModel.clear]
    refine ⟨rfl, ?_⟩
    dsimp only
    split_ifs <;> rfl
  rw [processChatPhoto]
  dsimp only
  split_ifs
  · exact hclear
  · exact hclear

/-- **Step lemma.** The flag is never left set. -/
theorem mainChatPhotoLoaded_step (m : ChatPhotosModel) (e : Event) (hm : m.own.mainChatPhotoLoaded = false) :
    (step m e).own.mainChatPhotoLoaded = false := by
  cases e with
  | setChatId chatId => exact hm
  | groupFullInfo data type groupId fullInfo =>
      rw [step, handle, processGroupFullInfo]
      split_ifs
      · exact (processChatPhoto_flag _ _).1
      · exact hm
  | foundChatMessagesReceived chatId filter extra messages totalCount nextFromMessageId =>
      exact (sameFlag_handleMessagesReceived m chatId filter extra messages totalCount nextFromMessageId).loaded.trans hm
  | newMessageReceived chatId message =>
      rw [step, handle, handleNewMessageReceived]
      split_ifs
      · exact (sameFlag_insertMessages m _).loaded.trans hm
      · exact hm
  | messagesDeleted chatId messageIds =>
      rw [step, handle, handleMessagesDeleted]
      split_ifs
      · exact (SameFlag.of_members (deleteMessages_deletes m messageIds).sameMembers).loaded.trans hm
      · exact hm
  | loadMoreHistory =>
      rw [step, handle, JumpableMessagesModel.loadMoreHistory]
      split_ifs <;> exact hm
  | loadMoreFuture =>
      rw [step, handle, JumpableMessagesModel.loadMoreFuture]
      split_ifs <;> exact hm
  | clear => rfl

theorem mainChatPhotoLoaded_run (es : List Event) : (run step new es).own.mainChatPhotoLoaded = false :=
  Along.invariant (fun m e hm _ => mainChatPhotoLoaded_step m e hm) rfl (along_true new es)

/-! ### Further replies -/

/-- The event is not a change of the chat. -/
def KeepsChat : Event → Prop
  | .setChatId _ => False
  | _ => True

instance : ∀ e : Event, Decidable (KeepsChat e) := by
  rintro (_ | _) <;> dsimp only [KeepsChat] <;> infer_instance

theorem chatId_step (m : ChatPhotosModel) {e : Event} (he : KeepsChat e) : (step m e).chatId = m.chatId := by
  cases e with
  | setChatId chatId => exact he.elim
  | groupFullInfo data type groupId fullInfo =>
      rw [step, handle, processGroupFullInfo]
      split_ifs
      · exact (processChatPhoto_flag _ _).2
      · rfl
  | foundChatMessagesReceived chatId filter extra messages totalCount nextFromMessageId =>
      exact (sameFlag_handleMessagesReceived m chatId filter extra messages totalCount nextFromMessageId).chatId
  | newMessageReceived chatId message =>
      rw [step, handle, handleNewMessageReceived]
      split_ifs
      · exact (sameFlag_insertMessages m _).chatId
      · rfl
  | messagesDeleted chatId messageIds =>
      rw [step, handle, handleMessagesDeleted]
      split_ifs
      · exact (deleteMessages_deletes m messageIds).sameMembers.chatId
      · rfl
  | loadMoreHistory =>
      rw [step, handle, JumpableMessagesModel.loadMoreHistory]
      split_ifs <;> rfl
  | loadMoreFuture =>
      rw [step, handle, JumpableMessagesModel.loadMoreFuture]
      split_ifs <;> rfl
  | clear =>
      change (MessagesModel.clear m).chatId = m.chatId
      rw [MessagesModel.clear]
      split_ifs <;> rfl

theorem chatId_run (m : ChatPhotosModel) {es : List Event} (hes : ∀ e ∈ es, KeepsChat e) :
    (run step m es).chatId = m.chatId := by
  induction es generalizing m with
  | nil => rfl
  | cons e es ih =>
      rw [run_cons, ih _ fun e he => hes e (List.mem_cons_of_mem _ he), chatId_step m (hes e List.mem_cons_self)]

/-- A reply for the model's chat that finds the flag unset asks for the first slice of the messages again. -/
theorem requests_fullInfoReply {m : ChatPhotosModel} (hloaded : m.own.mainChatPhotoLoaded = false)
    (hchat : m.chatId ≠ 0) (g : GroupData) (fullInfo : QVariantMap) :
    requestsOf (handle m (fullInfoReply g fullInfo)).2 ≠ [] := by
  rw [fullInfoReply, handle, processGroupFullInfo, if_pos ⟨hloaded, hchat, rfl⟩, processChatPhoto]
  exact List.cons_ne_nil _ _

theorem requestsOf_append (outputs outputs' : List Output) :
    requestsOf (outputs ++ outputs') = requestsOf outputs ++ requestsOf outputs' :=
  List.filterMap_append

/-- **The full info is never used once only.** After a first reply for the chat of the model, whatever has happened since
while the chat is the same, further replies leave the model unchanged only if there are none: each of them clears the
rows and loads them again. -/
theorem furtherReplies_unchanged_iff (es es' : List Event) (g : GroupData) (first : QVariantMap)
    (hchat : (run step new es).chatId ≠ 0) (hes' : ∀ e ∈ es', KeepsChat e) (further : List QVariantMap) :
    Unchanged (run step new (es ++ fullInfoReply g first :: es')) (further.map (fullInfoReply g)) ↔ further = [] := by
  have hchat' : (run step new (es ++ fullInfoReply g first :: es')).chatId ≠ 0 := by
    rw [run_append, chatId_run]
    · exact hchat
    · intro e he
      rcases List.mem_cons.mp he with rfl | he
      · trivial
      · exact hes' e he
  constructor
  · intro hunchanged
    cases further with
    | nil => rfl
    | cons fullInfo further =>
        have hrequests := hunchanged.requests
        rw [List.map_cons, outputsOf, requestsOf_append, List.append_eq_nil_iff] at hrequests
        exact absurd hrequests.1 (requests_fullInfoReply (mainChatPhotoLoaded_run _) hchat' g fullInfo)
  · rintro rfl
    exact ⟨rfl, rfl, rfl, rfl, rfl, rfl⟩

theorem furtherReplies_unchanged_of_none :
    Unchanged (run step new ([.setChatId 7] ++ fullInfoReply ⟨.supergroup, 3⟩ [] :: [.clear]))
      (([] : List QVariantMap).map (fullInfoReply ⟨.supergroup, 3⟩)) :=
  (furtherReplies_unchanged_iff [.setChatId 7] [.clear] ⟨.supergroup, 3⟩ [] (by decide) (by decide) []).mpr rfl

/-- The same full info twice. -/
theorem not_furtherReplies_unchanged :
    ¬ ∀ (es es' : List Event) (g : GroupData) (first : QVariantMap), (run step new es).chatId ≠ 0 →
      (∀ e ∈ es', KeepsChat e) → ∀ further : List QVariantMap,
      Unchanged (run step new (es ++ fullInfoReply g first :: es')) (further.map (fullInfoReply g)) := by
  intro h
  have hunchanged := h [.setChatId 7] [] ⟨.supergroup, 3⟩ [] (by decide) (by decide) [[]]
  have hrequests := hunchanged.requests
  cases hrequests

end ChatPhotosModel

end YaqtLib
