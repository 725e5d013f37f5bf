import YaqtLib.Arrivals
import YaqtLib.MessageCopies
import YaqtLib.MessagesIndex

/-! What a readable model knows of a message. However the rows move, a message that is loaded is the object it came in
with and the updates of it since then, in their order; rows that come, go or change beside it have no part in it. -/

namespace YaqtLib

open Containers IndexMap Runs MessagesModel TdConst

/-- What reaches the rows of a model of whose class the events are: an event, an update of a message, and the call of a
view that has played the animation of a row. -/
inductive RowInput (ε : Type) where
  | event (e : ε)
  | messageUpdated (chatId messageId : Int) (setter : MessageData.Setter)
  | markGeneratedContentAsRead (i : Int)

namespace MessageData

/-- What TDLib has told of a message: all but its place in an album and the mark of its animation. -/
def told (message : MessageData) : MessageData := { message.body with generatedContentUnread := false }

@[simp] theorem told_messageId (message : MessageData) : message.told.messageId = message.messageId := rfl

theorem told_body (message : MessageData) : message.body.told = message.told := rfl

theorem updateMentionRead_told (message : MessageData) :
    message.updateMentionRead.1.told = message.told.updateMentionRead.1.told := by
  have hdata : message.told.messageData = message.messageData := rfl
  rw [updateMentionRead, updateMentionRead, hdata]
  split_ifs <;> rfl

theorem markContent_told (message : MessageData) (key : String) :
    (message.markContent key).1.told = (message.told.markContent key).1.told := by
  have hdata : message.told.messageData = message.messageData := rfl
  rw [markContent, markContent, hdata]
  split_ifs <;> rfl

theorem updateContentOpened_told (message : MessageData) :
    message.updateContentOpened.1.told = message.told.updateContentOpened.1.told := by
  have htype : message.told.messageContentType = message.messageContentType := rfl
  rw [updateContentOpened, updateContentOpened, htype]
  split_ifs
  · exact markContent_told message IS_LISTENED
  · exact markContent_told message IS_VIEWED
  · rfl

/-- What a setter does depends on what TDLib has told. -/
theorem told_step (message : MessageData) (setter : Setter) :
    (message.step setter).told = (message.told.step setter).told := by
  cases setter with
  | setMentionRead => exact updateMentionRead_told message
  | setContentOpened => exact updateContentOpened_told message
  | setContainsUnreadPollVotes value =>
      have hdata : message.told.messageData = message.messageData := rfl
      rw [step, step, set, set, hdata]
      split_ifs <;> rfl
  | _ => rfl

theorem step_messageId (message : MessageData) (setter : Setter) :
    (message.step setter).messageId = message.messageId := by
  cases setter with
  | setMentionRead =>
      simp only [step, set, reporting, updateMentionRead]
      split_ifs <;> rfl
  | setContentOpened =>
      simp only [step, set, reporting, updateContentOpened, markContent]
      split_ifs <;> rfl
  | setContainsUnreadPollVotes value =>
      simp only [step, set]
      split_ifs <;> rfl
  | _ => rfl

end MessageData

namespace MessagesModel

variable {Own ε : Type}

/-- `MessagesModel::markGeneratedContentAsRead` -/
def markGeneratedContentAsRead (m : MessagesModel Own) (i : Int) : MessagesModel Own × List RowSignal :=
  if 0 ≤ i then
    match m.messages[i.toNat]? with
    | some message =>
        if message.generatedContentUnread then
          let m := { m with
            messages := m.messages.modify i.toNat fun message => { message with generatedContentUnread := false } }
          (m, [m.dataChanged i.toNat [.generatedContentUnread]])
        else (m, [])
    | none => (m, [])
  else (m, [])

/-- The state after an input. -/
def stepRow (handle : MessagesModel Own → ε → MessagesModel Own × List Output) (m : MessagesModel Own) :
    RowInput ε → MessagesModel Own
  | .event e => (handle m e).1
  | .messageUpdated chatId messageId setter => (m.handleMessageUpdate chatId messageId setter).1
  | .markGeneratedContentAsRead i => (m.markGeneratedContentAsRead i).1

/-- What a model knows of the message that its index map finds under an id. -/
def held (m : MessagesModel Own) (messageId : Int) : Option MessageData :=
  ((m.messageIndexMap.value messageId).bind fun position => m.messages[position]?).map MessageData.told

variable {m m' m'' : MessagesModel Own}

theorem held_eq_some_iff (hm : m.IndexExact) {k : Int} {message : MessageData} :
    m.held k = some message ↔ ∃ row ∈ m.messages, row.messageId = k ∧ row.told = message := by
  rw [held, Option.map_eq_some_iff]
  constructor
  · rintro ⟨row, hrow, htold⟩
    obtain ⟨position, hposition, hget⟩ := Option.bind_eq_some_iff.mp hrow
    obtain ⟨-, row', -, -, -, hget', hid⟩ := hm.exists_split hposition
    obtain rfl : row = row' := Option.some.inj (hget.symm.trans hget')
    exact ⟨row, List.mem_of_getElem? hget, hid, htold⟩
  · rintro ⟨row, hrow, rfl, htold⟩
    obtain ⟨position, hget⟩ := List.getElem?_of_mem hrow
    refine ⟨row, ?_, htold⟩
    rw [Indexes.value_of_getElem hm hget rfl]
    exact hget

theorem held_eq_none_iff (hm : m.IndexExact) {k : Int} : m.held k = none ↔ k ∉ m.ids := by
  rw [Option.eq_none_iff_forall_ne_some]
  simp only [ne_eq, held_eq_some_iff hm, ids, List.mem_map]
  constructor
  · rintro h ⟨row, hrow, hid⟩
    exact h row.told ⟨row, hrow, hid, rfl⟩
  · rintro h message ⟨row, hrow, hid, -⟩
    exact h ⟨row, hrow, hid⟩

theorem held_isSome_iff (hm : m.IndexExact) {k : Int} : (m.held k).isSome = true ↔ k ∈ m.ids := by
  rw [← Option.ne_none_iff_isSome, ne_eq, held_eq_none_iff hm, not_not]

/-! ### What an event brings -/

/-- Every row of `m'` is one of `m`, as far as TDLib has told of it, or one of the `given` messages, which `m` did not
have. -/
structure Carries (given : List (Int × QVariantMap)) (m m' : MessagesModel Own) : Prop where
  chatId : m'.chatId = m.chatId
  rows : ∀ row ∈ m'.messages, (∃ old ∈ m.messages, row.told = old.told) ∨
    row.messageId ∉ m.ids ∧ ∃ data, (row.messageId, data) ∈ given ∧
      row.told = (MessageData.create data row.messageId).told

namespace Carries

variable {given : List (Int × QVariantMap)}

theorem refl (m : MessagesModel Own) : Carries given m m :=
  ⟨rfl, fun row hrow => Or.inl ⟨row, hrow, rfl⟩⟩

theorem empty (hchat : m'.chatId = m.chatId) (hrows : m'.messages = []) : Carries given m m' := by
  refine ⟨hchat, fun row hrow => ?_⟩
  rw [hrows] at hrow
  exact absurd hrow List.not_mem_nil

/-- The rows that come after, as far as TDLib has told of them, are all among those before. -/
theorem of_told (h : Carries given m m') (hchat : m''.chatId = m'.chatId)
    (hrows : ∀ row ∈ m''.messages, ∃ row' ∈ m'.messages, row.told = row'.told) : Carries given m m'' := by
  refine ⟨hchat.trans h.chatId, fun row hrow => ?_⟩
  obtain ⟨row', hrow', htold⟩ := hrows row hrow
  have hid : row.told.messageId = row'.told.messageId := congrArg MessageData.messageId htold
  rw [MessageData.told_messageId, MessageData.told_messageId] at hid
  rw [htold, hid]
  exact h.rows row' hrow'

theorem sameButAlbums (h : Carries given m m') (hsame : SameButAlbums m' m'') : Carries given m m'' := by
  refine h.of_told hsame.sameMembers.chatId fun row hrow => ?_
  have hmem : row.told ∈ m'.messages.map MessageData.told := by
    rw [← hsame.map_eq MessageData.told MessageData.told_body]
    exact List.mem_map_of_mem hrow
  obtain ⟨row', hrow', htold⟩ := List.mem_map.mp hmem
  exact ⟨row', hrow', htold.symm⟩

theorem deletes (hdeletes : Deletes m m') : Carries given m m' := by
  refine (refl m).of_told hdeletes.sameMembers.chatId fun row hrow => ?_
  have hsublist := hdeletes.map_sublist MessageData.told MessageData.told_body
  obtain ⟨row', hrow', htold⟩ := List.mem_map.mp (hsublist.subset (List.mem_map_of_mem hrow))
  exact ⟨row', hrow', htold.symm⟩

end Carries

section Virtual

variable [Virtuals Own]

theorem Carries.insertMessages (hends : m.InsertsAtEnds) {given : List (Int × QVariantMap)}
    {newMessages : List MessageData}
    (hnew : ∀ row ∈ newMessages, row.messageId ∉ m.ids ∧ ∃ data, (row.messageId, data) ∈ given ∧
      row.told = (MessageData.create data row.messageId).told) : Carries given m (m.insertMessages newMessages) := by
  refine ⟨(insertMessages_sameMembers hends newMessages).chatId, fun row hrow => ?_⟩
  rcases (mem_insertMessages hends).mp hrow with hold | hmem
  · exact Or.inl ⟨row, hold, rfl⟩
  · exact Or.inr (hnew row hmem)

variable [LawfulVirtuals Own]

/-- A row that is made of a message object. -/
theorem told_processMessageData (m : MessagesModel Own) (message : MessageData) :
    (Virtuals.processMessageData m message).told = message.told := by
  obtain ⟨unread, h⟩ := LawfulVirtuals.processMessageData_eq m message
  rw [h]
  rfl

/-- The messages of a batch, each under its own id. -/
def batch (messages : List QVariantMap) : List (Int × QVariantMap) := messages.map fun data => (messageIdOf data, data)

theorem carries_handleInsertMessages (hends : m.InsertsAtEnds) (hm : m.IndexExact) (messages : List QVariantMap) :
    Carries (batch messages) m (m.handleInsertMessages messages).1 := by
  refine Carries.sameButAlbums ?_ (handleInsertMessages_same m messages)
  split_ifs
  · exact .refl m
  · refine Carries.insertMessages hends fun row hrow => ?_
    rw [addedMessages, (sortMessages_perm _ _).mem_iff, freshMessages, List.mem_filterMap] at hrow
    obtain ⟨data, hdata, heq⟩ := hrow
    dsimp only at heq
    split_ifs at heq with hfresh
    obtain rfl := Option.some.inj heq
    rw [processMessageData_messageId, MessageData.create_messageId]
    refine ⟨(not_mem_ids_iff hm _).mp hfresh.2.2, data, ?_, told_processMessageData m _⟩
    exact List.mem_map_of_mem (f := fun data => (messageIdOf data, data)) hdata

theorem carries_handleNewMessageReceived [ReadableVirtuals Own] (hends : m.InsertsAtEnds) (hm : m.IndexExact)
    (message : QVariantMap) :
    Carries (batch [message]) m (ReadableMessagesModel.handleNewMessageReceived m message) := by
  rw [ReadableMessagesModel.handleNewMessageReceived]
  dsimp only
  split_ifs with hcontains
  · exact .refl m
  · refine Carries.sameButAlbums (Carries.insertMessages hends fun row hrow => ?_) (setMessagesAlbum_same _ _)
    obtain rfl := List.mem_singleton.mp hrow
    rw [processMessageData_messageId, MessageData.create_messageId]
    refine ⟨(not_mem_ids_iff hm _).mp (Bool.not_eq_true _ ▸ hcontains), message, ?_, told_processMessageData m _⟩
    exact List.mem_singleton_self _
  · exact .refl m

theorem carries_handleMessageSendSucceeded (hm : m.IndexExact) (chatId oldMessageId : Int) {messageId : Int}
    (message : QVariantMap) (hnew : m.messageIndexMap.contains messageId = false) :
    Carries [(messageId, message)] m (m.handleMessageSendSucceeded chatId oldMessageId messageId message).1 := by
  refine ⟨(handleMessageSendSucceeded_sameMembers m _ _ _ _).chatId, ?_⟩
  by_cases hchat : m.chatId = chatId
  swap
  · rw [handleMessageSendSucceeded, if_neg hchat]
    exact (Carries.refl m).rows
  cases hold : m.messageIndexMap.value oldMessageId with
  | none =>
      rw [handleMessageSendSucceeded, if_pos hchat, hold]
      exact (Carries.refl m).rows
  | some pos =>
      obtain ⟨pre, old, post, hrows, hpre, -, -⟩ := hm.exists_split hold
      rw [handleMessageSendSucceeded_eq m messageId message hchat hrows (by rw [hpre]; exact hold)]
      intro row hrow
      dsimp only at hrow
      rcases List.mem_append.mp hrow with hstay | hsent
      · refine Or.inl ⟨row, ?_, rfl⟩
        rw [hrows]
        exact ((List.Sublist.refl pre).append (List.sublist_cons_self old post)).subset hstay
      · obtain rfl := List.mem_singleton.mp hsent
        rw [sentMessage_messageId]
        exact Or.inr ⟨(not_mem_ids_iff hm _).mp hnew, message, List.mem_singleton_self _, told_processMessageData m _⟩

end Virtual

/-! ### What an update changes -/

/-- A row is written over with one that has its id. -/
theorem keys_modify (rows : List MessageData) (position : Nat) (f : MessageData → MessageData)
    (hf : ∀ row, (f row).messageId = row.messageId) :
    (rows.modify position f).map MessageData.key = rows.map MessageData.key := by
  apply List.ext_getElem?
  intro i
  rw [List.getElem?_map, List.getElem?_map, List.getElem?_modify]
  cases rows[i]? with
  | none => rfl
  | some row =>
      by_cases hi : position = i
      · simp [hi, MessageData.key, hf row]
      · simp [hi]

/-- The slots write over rows, with ones that have their ids. -/
def SameKeys (m m' : MessagesModel Own) : Prop :=
  ∃ messages, messages.map MessageData.key = m.messages.map MessageData.key ∧ m' = { m with messages := messages }

theorem handleMessageUpdate_sameKeys (m : MessagesModel Own) (chatId messageId : Int) (setter : MessageData.Setter) :
    SameKeys m (m.handleMessageUpdate chatId messageId setter).1 := by
  rw [handleMessageUpdate]
  split_ifs
  · cases m.messageIndexMap.value messageId with
    | none => exact ⟨m.messages, rfl, rfl⟩
    | some pos => exact ⟨_, keys_modify m.messages pos _ fun row => row.step_messageId setter, rfl⟩
  · exact ⟨m.messages, rfl, rfl⟩

theorem markGeneratedContentAsRead_sameKeys (m : MessagesModel Own) (i : Int) :
    SameKeys m (m.markGeneratedContentAsRead i).1 := by
  rw [markGeneratedContentAsRead]
  split_ifs
  · cases m.messages[i.toNat]? with
    | none => exact ⟨m.messages, rfl, rfl⟩
    | some message =>
        dsimp only
        split_ifs
        · exact ⟨_, keys_modify m.messages i.toNat (fun message => { message with generatedContentUnread := false })
            fun _ => rfl, rfl⟩
        · exact ⟨m.messages, rfl, rfl⟩
  · exact ⟨m.messages, rfl, rfl⟩

theorem SameKeys.indexExact (h : SameKeys m m') (hm : m.IndexExact) : m'.IndexExact := by
  obtain ⟨messages, hkeys, rfl⟩ := h
  exact (indexes_congr hkeys).mpr hm

theorem held_markGeneratedContentAsRead (m : MessagesModel Own) (i k : Int) :
    (m.markGeneratedContentAsRead i).1.held k = m.held k := by
  have hmodify : ∀ position : Nat, ((m.messages.modify i.toNat fun message =>
      { message with generatedContentUnread := false })[position]?).map MessageData.told =
      (m.messages[position]?).map MessageData.told := by
    intro position
    rw [List.getElem?_modify]
    cases m.messages[position]? with
    | none => rfl
    | some row => by_cases hposition : i.toNat = position <;> simp [hposition, MessageData.told, MessageData.body]
  rw [markGeneratedContentAsRead]
  split_ifs
  · cases m.messages[i.toNat]? with
    | none => rfl
    | some message =>
        dsimp only
        split_ifs
        · rw [held, held, Option.map_bind, Option.map_bind]
          exact congrArg _ (funext hmodify)
        · rfl
  · rfl

end MessagesModel

/-- The setters that an input has for a message. -/
def RowInput.setters {ε : Type} (chatId messageId : Int) : RowInput ε → List MessageData.Setter
  | .messageUpdated chatId' messageId' setter => if chatId' = chatId ∧ messageId' = messageId then [setter] else []
  | _ => []

namespace MessagesModel

variable {Own ε : Type} {m : MessagesModel Own}

/-- The row of another message stays where the update left it. -/
theorem getElem?_modify_of_ne (hm : m.IndexExact) {messageId k : Int} (hk : messageId ≠ k) {position position' : Nat}
    (hposition : m.messageIndexMap.value messageId = some position)
    (hposition' : m.messageIndexMap.value k = some position') (f : MessageData → MessageData) :
    (m.messages.modify position f)[position']? = m.messages[position']? := by
  obtain ⟨-, row, -, -, -, hrow, hid⟩ := hm.exists_split hposition
  obtain ⟨-, row', -, -, -, hrow', hid'⟩ := hm.exists_split hposition'
  have hne : position ≠ position' := by
    rintro rfl
    obtain rfl := Option.some.inj (hrow.symm.trans hrow')
    exact hk (hid.symm.trans hid')
  rw [List.getElem?_modify, hrow']
  simp [hne]

/-- An update reaches the message it is for, and no other. -/
theorem held_handleMessageUpdate (hm : m.IndexExact) (chatId messageId : Int) (setter : MessageData.Setter) (k : Int) :
    (m.handleMessageUpdate chatId messageId setter).1.held k =
      (m.held k).map fun message => run (fun message setter => (MessageData.step message setter).told) message
        ((RowInput.messageUpdated (ε := ε) chatId messageId setter).setters m.chatId k) := by
  by_cases hfor : chatId = m.chatId ∧ messageId = k
  · obtain ⟨rfl, rfl⟩ := hfor
    rw [RowInput.setters, if_pos ⟨rfl, rfl⟩, handleMessageUpdate, if_pos rfl]
    cases hvalue : m.messageIndexMap.value messageId with
    | none =>
        dsimp only
        rw [held, hvalue]
        rfl
    | some pos =>
        dsimp only
        rw [held, held, hvalue, Option.bind_some, Option.bind_some, List.getElem?_modify, Option.map_eq_map,
          Option.map_map, Option.map_map]
        congr 1
        funext message
        simp only [Function.comp_apply, if_true, run_cons, run_nil]
        exact MessageData.told_step message setter
  · have hnone : (RowInput.messageUpdated (ε := ε) chatId messageId setter).setters m.chatId k = [] := by
      rw [RowInput.setters, if_neg hfor]
    rw [hnone]
    simp only [run_nil, Option.map_id']
    rw [handleMessageUpdate]
    split_ifs with hchat
    · cases hvalue : m.messageIndexMap.value messageId with
      | none => rfl
      | some pos =>
          dsimp only
          rw [held, held]
          cases hvalue' : m.messageIndexMap.value k with
          | none => rfl
          | some pos' =>
              rw [Option.bind_some, Option.bind_some,
                getElem?_modify_of_ne hm (fun hk => hfor ⟨hchat.symm, hk⟩) hvalue hvalue']
    · rfl

/-! ### Runs -/

/-- The condition on a step is one on its event. -/
def RowStep (P : MessagesModel Own → ε → Prop) (m : MessagesModel Own) : RowInput ε → Prop
  | .event e => P m e
  | _ => True

instance (P : MessagesModel Own → ε → Prop) [∀ m e, Decidable (P m e)] (m : MessagesModel Own) :
    ∀ i, Decidable (RowStep P m i)
  | .event e => inferInstanceAs (Decidable (P m e))
  | .messageUpdated .. => inferInstanceAs (Decidable True)
  | .markGeneratedContentAsRead _ => inferInstanceAs (Decidable True)

/-- What a class of models keeps while the events meet `P`, and that its rows come from the `given` messages. -/
structure CarriesMessages (handle : MessagesModel Own → ε → MessagesModel Own × List Output)
    (given : ε → List (Int × QVariantMap)) (I : MessagesModel Own → Prop) (P : MessagesModel Own → ε → Prop) : Prop where
  exact : ∀ {m}, I m → m.IndexExact
  slot : ∀ {m m'}, I m → SameKeys m m' → I m'
  event : ∀ {m e}, I m → P m e → I (handle m e).1
  carries : ∀ {m e}, I m → P m e → Carries (given e) m (handle m e).1

variable {handle : MessagesModel Own → ε → MessagesModel Own × List Output} {given : ε → List (Int × QVariantMap)}
  {I : MessagesModel Own → Prop} {P : MessagesModel Own → ε → Prop}

theorem SameKeys.chatId {m' : MessagesModel Own} (h : SameKeys m m') : m'.chatId = m.chatId := by
  obtain ⟨messages, -, rfl⟩ := h
  rfl

/-- **Step lemma.** -/
theorem CarriesMessages.stepRow (h : CarriesMessages handle given I P) (i : RowInput ε) (hm : I m)
    (hi : RowStep P m i) : I (m.stepRow handle i) ∧ (m.stepRow handle i).chatId = m.chatId := by
  cases i with
  | event e => exact ⟨h.event hm hi, (h.carries hm hi).chatId⟩
  | messageUpdated chatId messageId setter =>
      have hkeys := handleMessageUpdate_sameKeys m chatId messageId setter
      exact ⟨h.slot hm hkeys, hkeys.chatId⟩
  | markGeneratedContentAsRead i =>
      have hkeys := markGeneratedContentAsRead_sameKeys m i
      exact ⟨h.slot hm hkeys, hkeys.chatId⟩

/-- What an input can bring under an id. -/
def brings (given : ε → List (Int × QVariantMap)) (k : Int) : RowInput ε → MessageData → Prop
  | .event e, came => ∃ data, (k, data) ∈ given e ∧ came = (MessageData.create data k).told
  | _, _ => False

/-- The entry of a message is what it was, with the setters of the input, or what the input brings. -/
theorem CarriesMessages.held_stepRow (h : CarriesMessages handle given I P) (i : RowInput ε) (hm : I m)
    (hi : RowStep P m i) {k : Int} {entry : MessageData} (hentry : (m.stepRow handle i).held k = some entry) :
    (∃ old, m.held k = some old ∧
      entry = run (fun message setter => (MessageData.step message setter).told) old (i.setters m.chatId k)) ∨
    m.held k = none ∧ brings given k i entry := by
  cases i with
  | event e =>
      have hexact := h.exact hm
      obtain ⟨row, hrow, rfl, rfl⟩ := (held_eq_some_iff (h.exact (h.event hm hi))).mp hentry
      rcases (h.carries hm hi).rows row hrow with ⟨old, hold, htold⟩ | ⟨hnew, data, hdata, htold⟩
      · have hid : row.told.messageId = old.told.messageId := congrArg MessageData.messageId htold
        exact Or.inl ⟨row.told, (held_eq_some_iff hexact).mpr ⟨old, hold, hid.symm, htold.symm⟩, rfl⟩
      · exact Or.inr ⟨(held_eq_none_iff hexact).mpr hnew, data, hdata, htold⟩
  | messageUpdated chatId messageId setter =>
      rw [MessagesModel.stepRow, held_handleMessageUpdate (ε := ε) (h.exact hm), Option.map_eq_some_iff] at hentry
      obtain ⟨old, hold, heq⟩ := hentry
      exact Or.inl ⟨old, hold, heq.symm⟩
  | markGeneratedContentAsRead i =>
      rw [MessagesModel.stepRow, held_markGeneratedContentAsRead] at hentry
      exact Or.inl ⟨entry, hentry, rfl⟩

/-- In a run, the message under an id is the one it came in with, and has been loaded since; of it is known what its
object said then, with the setters since then. -/
def IsFold (handle : MessagesModel Own → ε → MessagesModel Own × List Output) (given : ε → List (Int × QVariantMap))
    (m : MessagesModel Own) (inputs : List (RowInput ε)) (k : Int) : Prop :=
  ∃ before e after data, inputs = before ++ .event e :: after ∧ (k, data) ∈ given e ∧
    k ∉ (run (MessagesModel.stepRow handle) m before).ids ∧
    (∀ after', after' <+: after → k ∈ (run (MessagesModel.stepRow handle) m (before ++ .event e :: after')).ids) ∧
    (run (MessagesModel.stepRow handle) m inputs).held k =
      some (run MessageData.step (MessageData.create data k) (after.flatMap (RowInput.setters m.chatId k))).told

theorem CarriesMessages.isFold (h : CarriesMessages handle given I P) (hm : I m) {inputs : List (RowInput ε)}
    (hinputs : Along (MessagesModel.stepRow handle) (RowStep P) m inputs) {k : Int} (hk : k ∉ m.ids)
    (hloaded : k ∈ (run (MessagesModel.stepRow handle) m inputs).ids) : IsFold handle given m inputs k := by
  have hkeep : ∀ m' i, I m' ∧ m'.chatId = m.chatId → RowStep P m' i →
      I (m'.stepRow handle i) ∧ (m'.stepRow handle i).chatId = m.chatId := by
    intro m' i hm' hi
    have hstep := h.stepRow i hm'.1 hi
    exact ⟨hstep.1, hstep.2.trans hm'.2⟩
  have hreached : ∀ {inputs'}, Along (MessagesModel.stepRow handle) (RowStep P) m inputs' →
      (run (MessagesModel.stepRow handle) m inputs').IndexExact := fun hinputs' =>
    h.exact (Along.invariant (I := fun m' => I m' ∧ m'.chatId = m.chatId) hkeep ⟨hm, rfl⟩ hinputs').1
  have hnone : m.held k = none := (held_eq_none_iff (h.exact hm)).mpr hk
  obtain ⟨entry, hentry⟩ := Option.isSome_iff_exists.mp ((held_isSome_iff (hreached hinputs)).mpr hloaded)
  obtain ⟨before, i, after, rfl, harrives⟩ := arrives_run (I := fun m' => I m' ∧ m'.chatId = m.chatId)
    (fun m => MessagesModel.held m k) (fun message setter => (MessageData.step message setter).told)
    (RowInput.setters m.chatId k) (brings given k) hkeep
    (fun m' i hm' hi entry hentry => hm'.2 ▸ h.held_stepRow i hm'.1 hi hentry) ⟨hm, rfl⟩ hnone hinputs hentry
  obtain ⟨came, hbrings, rfl⟩ := harrives.brought
  obtain ⟨hbefore, hi, hafter⟩ := (along_append m before (i :: after)).mp hinputs
  cases i with
  | event e =>
      obtain ⟨data, hdata, rfl⟩ := hbrings
      refine ⟨before, e, after, data, rfl, hdata, (held_eq_none_iff (hreached hbefore)).mp harrives.missing, ?_, ?_⟩
      · rintro after' ⟨rest, rfl⟩
        refine (held_isSome_iff (hreached ?_)).mp (harrives.present after' (List.prefix_append _ _))
        exact (along_append m before _).mpr ⟨hbefore, hi, ((along_append _ after' rest).mp hafter).1⟩
      · rw [hentry]
        exact congrArg some (run_map MessageData.told MessageData.told_step _ _).symm
  | messageUpdated => exact hbrings.elim
  | markGeneratedContentAsRead => exact hbrings.elim

end MessagesModel

open PlainReadable

section Plain

variable {Own : Type} [Virtuals Own] [ReadableVirtuals Own] [PlainReadable Own]

/-- What an event brings passes through the flags. -/
theorem carries_stable (given : List (Int × QVariantMap)) (m : MessagesModel Own) :
    Stable fun m' : MessagesModel Own => Carries given m m' ∧ Plain m'.own where
  members _ _ _ _ h := ⟨⟨h.1.chatId, h.1.rows⟩, h.2⟩
  clear {m'} h := ⟨.empty (by
    change m'.clear.chatId = m.chatId
    rw [MessagesModel.clear, ← h.1.chatId]
    split_ifs <;> rfl) (messages_clear m'), plain_clearOwn h.2⟩
  prepare {m'} totalCount fromUpdate h := by
    obtain ⟨startReached, endReached, heq⟩ :=
      ReadableMessagesModel.handlePrepareMessagesReceived_eq m' totalCount fromUpdate
    rw [handlePrepare_eq totalCount fromUpdate h.2, heq]
    exact ⟨⟨h.1.chatId, h.1.rows⟩, h.2⟩

theorem carries_insert {m : MessagesModel Own} (hm : m.IndexExact) (hplain : Plain m.own) (messages : List QVariantMap) :
    Carries (batch messages) m (m.handleInsertMessages messages).1 ∧ Plain (m.handleInsertMessages messages).1.own := by
  refine ⟨carries_handleInsertMessages (insertsAtEnds hplain) hm messages, ?_⟩
  rw [(handleInsertMessages_sameMembers (insertsAtEnds hplain) messages).own]
  exact hplain

end Plain

/-! ### Chats -/

namespace ChatMessagesModel

/-- The messages that an event brings, each with the id it gets. -/
def given : Event → List (Int × QVariantMap)
  | .handleInsertMessages messages | .messagesReceived _ _ messages _
  | .foundChatMessagesReceived _ _ _ messages _ => batch messages
  | .newMessageReceived _ message => batch [message]
  | .messageSendSucceeded _ _ messageId message => [(messageId, message)]
  | _ => []

theorem carries_step (m : ChatMessagesModel) (e : Event) (hm : Indexed m) (he : IndexStep m e) :
    Carries (given e) m (step m e) := by
  have hplain : PlainReadable.Plain m.own := hm.2
  have hrows : ∀ given, RowsOnly fun m' => Carries given m m' ∧ PlainReadable.Plain m'.own := fun given =>
    ⟨carries_stable given m, fun _ _ _ h => ⟨⟨h.1.chatId, h.1.rows⟩, h.2⟩⟩
  cases e with
  | handleInsertMessages messages => exact (carries_insert hm.1 hplain messages).1
  | messagesReceived chatId extra messages totalCount =>
      exact ((hrows _).history ⟨.refl m, hplain⟩ fun _ _ => carries_insert hm.1 hplain messages).1
  | foundChatMessagesReceived chatId filter extra messages totalCount =>
      exact ((hrows _).found ⟨.refl m, hplain⟩ fun _ _ _ => carries_insert hm.1 hplain messages).1
  | newMessageReceived chatId message =>
      rw [step, handle, handleNewMessageReceived]
      split_ifs
      · exact carries_handleNewMessageReceived (insertsAtEnds hplain) hm.1 message
      · exact .refl m
  | messageSendSucceeded chatId oldMessageId messageId message =>
      exact carries_handleMessageSendSucceeded hm.1 chatId oldMessageId message he
  | messagesDeleted chatId messageIds => exact .deletes (handleMessagesDeleted_deletes m chatId messageIds)
  | sponsoredMessagesReceived => exact he.elim
  | _ => exact ((hrows _).call ⟨.refl m, hplain⟩ rfl).1

theorem carriesMessages : CarriesMessages handle given Indexed IndexStep where
  exact hm := hm.1
  slot hm hkeys := by
    obtain ⟨messages, hmessages, rfl⟩ := hkeys
    exact ⟨(indexes_congr hmessages).mpr hm.1, hm.2⟩
  event hm he := indexed_step _ _ hm he
  carries hm he := carries_step _ _ hm he

end ChatMessagesModel

/-! ### Forum topics -/

namespace ForumTopicMessagesModel

/-- The messages that an event brings, each with the id it gets. -/
def given : Event → List (Int × QVariantMap)
  | .handleInsertMessages messages | .forumTopicMessagesReceived _ _ _ messages _ => batch messages
  | .newMessageReceived _ message => batch [message]
  | .messageSendSucceeded _ _ messageId message => [(messageId, message)]
  | _ => []

theorem carries_step (m : ForumTopicMessagesModel) (e : Event) (hm : m.IndexExact) (he : IndexStep m e) :
    Carries (given e) m (step m e) := by
  have hplain : PlainReadable.Plain m.own := trivial
  have hrows : ∀ given, RowsOnly fun m' => Carries given m m' ∧ PlainReadable.Plain m'.own := fun given =>
    ⟨carries_stable given m, fun _ h => ⟨⟨h.1.chatId, h.1.rows⟩, trivial⟩⟩
  cases e with
  | handleInsertMessages messages => exact (carries_insert hm hplain messages).1
  | forumTopicMessagesReceived chatId forumTopicId extra messages totalCount =>
      exact ((hrows _).history ⟨.refl m, hplain⟩ fun _ _ => carries_insert hm hplain messages).1
  | newMessageReceived chatId message =>
      rw [step, handle, handleNewMessageReceived]
      split_ifs
      · exact carries_handleNewMessageReceived (insertsAtEnds m) hm message
      · exact .refl m
  | messageSendSucceeded chatId oldMessageId messageId message =>
      exact carries_handleMessageSendSucceeded hm chatId oldMessageId message he
  | messagesDeleted chatId messageIds => exact .deletes (handleMessagesDeleted_deletes m chatId messageIds)
  | _ => exact ((hrows _).call ⟨.refl m, hplain⟩ rfl).1

theorem carriesMessages : CarriesMessages handle given IndexExact IndexStep where
  exact hm := hm
  slot hm hkeys := hkeys.indexExact hm
  event hm he := indexExact_step _ _ hm he
  carries hm he := carries_step _ _ hm he

end ForumTopicMessagesModel

/-- **A message is the fold of its updates.** In every run of a chat or a forum topic, in which rows come at both ends,
go, move and change their albums, a message that is loaded is known as the object it came in with and the updates since. -/
theorem rows_fold_updates :
    (∀ chatId chatInformation (inputs : List (RowInput ChatMessagesModel.Event)),
      Along (stepRow ChatMessagesModel.handle) (RowStep ChatMessagesModel.IndexStep)
        (ChatMessagesModel.new chatId chatInformation) inputs →
      ∀ k ∈ (run (stepRow ChatMessagesModel.handle) (ChatMessagesModel.new chatId chatInformation) inputs).ids,
        IsFold ChatMessagesModel.handle ChatMessagesModel.given (ChatMessagesModel.new chatId chatInformation) inputs
          k) ∧
    (∀ chatId (inputs : List (RowInput ForumTopicMessagesModel.Event)),
      Along (stepRow ForumTopicMessagesModel.handle) (RowStep ForumTopicMessagesModel.IndexStep)
        (ForumTopicMessagesModel.new chatId) inputs →
      ∀ k ∈ (run (stepRow ForumTopicMessagesModel.handle) (ForumTopicMessagesModel.new chatId) inputs).ids,
        IsFold ForumTopicMessagesModel.handle ForumTopicMessagesModel.given (ForumTopicMessagesModel.new chatId) inputs
          k) := by
  constructor
  · intro chatId chatInformation inputs hinputs k hk
    have hstart : ChatMessagesModel.Indexed (ChatMessagesModel.new chatId chatInformation) := ⟨Indexes.empty, rfl⟩
    exact ChatMessagesModel.carriesMessages.isFold hstart hinputs List.not_mem_nil hk
  · intro chatId inputs hinputs k hk
    have hstart : (ForumTopicMessagesModel.new chatId).IndexExact := Indexes.empty
    exact ForumTopicMessagesModel.carriesMessages.isFold hstart hinputs List.not_mem_nil hk

/-- The message 5 is updated, the one before it is sent and gets behind it, and it is updated again. -/
theorem rows_fold_updates_sent :
    IsFold ChatMessagesModel.handle ChatMessagesModel.given (ChatMessagesModel.new 7 [])
      [.event (.messagesReceived 7 .updateInitial [messageOf 7 5, messageOf 7 4] 2),
        .messageUpdated 7 5 (.setIsPinned true), .event (.messageSendSucceeded 7 4 6 (messageOf 7 6)),
        .markGeneratedContentAsRead 1, .messageUpdated 7 5 (.setEditDateReplyMarkup 3 [])] 5 ∧
    IsFold ForumTopicMessagesModel.handle ForumTopicMessagesModel.given (ForumTopicMessagesModel.new 7)
      [.event (.handleInsertMessages [messageOf 7 5, messageOf 7 4]), .messageUpdated 7 5 (.setIsPinned true),
        .event (.messagesDeleted 7 [4])] 5 :=
  ⟨rows_fold_updates.1 7 [] _ (by decide +kernel) 5 (by decide +kernel),
    rows_fold_updates.2 7 _ (by decide +kernel) 5 (by decide +kernel)⟩

end YaqtLib
