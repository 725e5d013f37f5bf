import YaqtLib.FilteredRows

/-! The count of a media model (`mediamessagesmodel.cpp`). One integer says how many messages there are, and whether
they are counted at all: a negative count is no count. -/

namespace YaqtLib

open Containers IndexMap Runs TdConst MessagesModel

namespace MediaMessagesModel

/-- A row stands where the index map has the message. -/
def hasRow (m : MediaMessagesModel) (messageId : Int) : Bool :=
  (m.messageIndexMap.value messageId).elim false fun i => i < m.messages.length

/-- The message for which a step calls `removeMessage`. -/
def removes (m : MediaMessagesModel) : Event → Option Int
  | .removeMessage messageId => some messageId
  | .messageIsPinnedUpdated chatId messageId isPinned =>
      if m.own.searchMessagesFilter = .pinned ∧ m.chatId = chatId ∧ isPinned = false then some messageId else none
  | .messageContentUpdated chatId messageId newContent =>
      if Mismatches m chatId newContent ∧ hasRow m messageId = true then some messageId else none
  | _ => none

/-- The message for which a step calls `insertMessageInOrder`. -/
def inserts : Event → Option Int
  | .messageFetched messageId message => if (message.value TYPE_).toStr = TYPE_MESSAGE then some messageId else none
  | _ => none

/-- The count stays one, and a removal or an insertion changes it only with a row. -/
structure CountKept (m : MediaMessagesModel) (e : Event) : Prop where
  maintained : maintainCount (step m e) = true
  removed : (removes m e).isSome = true → (step m e).own.totalCount ≠ m.own.totalCount →
    (step m e).messages.length + 1 = m.messages.length
  inserted : (inserts e).isSome = true → (step m e).own.totalCount ≠ m.own.totalCount →
    (step m e).messages.length = m.messages.length + 1

/-- The steps that keep the count: an answer for the model brings a count, a removal finds its row and a count that is
not `0`, and a fetched message finds a place. -/
def CountFits (m : MediaMessagesModel) : Event → Prop
  | .chatMessageCountReceived count chatId filter =>
      m.chatId = chatId ∧ m.own.searchMessagesFilter = filter → 0 ≤ count
  | .foundChatMessagesReceived chatId filter _ _ totalCount _ =>
      m.chatId = chatId ∧ filter = m.own.searchMessagesFilter → 0 ≤ totalCount
  | e => (∀ messageId ∈ removes m e, 1 ≤ m.own.totalCount ∧ hasRow m messageId = true) ∧
      ∀ messageId ∈ inserts e, takesInOrder m messageId = true

/-- The event does not switch the count off. -/
def KeepsCounting : Event → Prop
  | .setMaintainCount value => value = true
  | _ => True

/-! ### The count after a step -/

/-- The count after a step, while it is maintained. -/
def countAfter (m : MediaMessagesModel) (e : Event) : Int :=
  match e with
  | .chatMessageCountReceived count chatId filter =>
      if m.chatId = chatId ∧ m.own.searchMessagesFilter = filter then count else m.own.totalCount
  | .foundChatMessagesReceived chatId filter _ _ totalCount _ =>
      if m.chatId = chatId ∧ filter = m.own.searchMessagesFilter then totalCount else m.own.totalCount
  | e =>
      if (removes m e).isSome then m.own.totalCount - 1
      else if (inserts e).isSome then m.own.totalCount + 1 else m.own.totalCount

variable {m m' : MediaMessagesModel}

theorem maintainCount_iff : maintainCount m = true ↔ 0 ≤ m.own.totalCount := decide_eq_true_iff

theorem updateTotalCount_maintained (hm : maintainCount m = true) (count : Int) :
    (updateTotalCount m count).own.totalCount = count := by
  rw [updateTotalCount]
  split_ifs with h
  · rfl
  · by_contra hne
    exact h ⟨hm, hne⟩

theorem totalCount_prepare (totalCount : Int) (fromUpdate : UpdateType) :
    (JumpableMessagesModel.handlePrepareMessagesReceived m totalCount fromUpdate).own.totalCount =
      m.own.totalCount := by
  unfold JumpableMessagesModel.handlePrepareMessagesReceived
  split_ifs
  · cases fromUpdate <;> rfl
  · rfl

theorem totalCount_notifyMessagesLoaded (hm : maintainCount m = true) (fromUpdate : UpdateType) (totalCount : Int) :
    (JumpableMessagesModel.notifyMessagesLoaded m fromUpdate totalCount).1.own.totalCount = totalCount := by
  have hflag : maintainCount (m.setWaitingFor fromUpdate false) = true := hm
  exact (totalCount_prepare totalCount fromUpdate).trans (updateTotalCount_maintained hflag totalCount)

/-- A batch sets the count, or leaves it until its handler ends. -/
theorem totalCount_receive (hm : maintainCount m = true) (fromUpdate : UpdateType) (messages : List QVariantMap)
    (totalCount : Int) :
    (JumpableMessagesModel.handleMessagesReceived m fromUpdate messages totalCount).1.own.totalCount = totalCount ∨
      (JumpableMessagesModel.handleMessagesReceived m fromUpdate messages totalCount).1.own.totalCount =
        m.own.totalCount := by
  have hown := JumpableMessagesModel.handleInsertMessages_own m messages
  have hbatch : maintainCount (m.handleInsertMessages messages).1 = true := by
    rw [maintainCount, hown]
    exact hm
  rw [JumpableMessagesModel.handleMessagesReceived]
  split_ifs
  · exact Or.inl (totalCount_notifyMessagesLoaded hm fromUpdate totalCount)
  · generalize m.handleInsertMessages messages = batch at hown hbatch ⊢
    obtain ⟨m', addedMessages, reloadNeeded⟩ := batch
    dsimp only at hown hbatch ⊢
    have hcount : m'.own.totalCount = m.own.totalCount := congrArg MediaMembers.totalCount hown
    cases addedMessages with
    | nil => exact Or.inl (totalCount_notifyMessagesLoaded hbatch fromUpdate totalCount)
    | cons first rest =>
        rw [JumpableMessagesModel.afterInsertion]
        split_ifs
        · exact Or.inr hcount
        · exact Or.inl (totalCount_notifyMessagesLoaded hbatch fromUpdate totalCount)
  · exact Or.inr rfl

theorem totalCount_handleMessagesReceived (hm : maintainCount m = true) (chatId : Int) (filter : SearchMessagesFilter)
    (extra : UpdateType) (messages : List QVariantMap) (totalCount nextFromMessageId : Int) :
    (handleMessagesReceived m chatId filter extra messages totalCount nextFromMessageId).1.own.totalCount =
      if m.chatId = chatId ∧ filter = m.own.searchMessagesFilter then totalCount else m.own.totalCount := by
  rw [handleMessagesReceived]
  split_ifs
  · have hreceive := totalCount_receive hm extra messages totalCount
    generalize JumpableMessagesModel.handleMessagesReceived m extra messages totalCount = result at hreceive ⊢
    obtain ⟨m', outputs⟩ := result
    dsimp only at hreceive ⊢
    rcases hreceive with hcount | hcount
    · rw [updateTotalCount, if_neg fun h => h.2 hcount]
      exact hcount
    · refine updateTotalCount_maintained ?_ totalCount
      rw [maintainCount_iff] at hm ⊢
      exact hcount ▸ hm
  · rfl

theorem totalCount_handleChatMessageCountReceived (hm : maintainCount m = true) (count chatId : Int)
    (filter : SearchMessagesFilter) :
    (handleChatMessageCountReceived m count chatId filter).1.own.totalCount =
      if m.chatId = chatId ∧ m.own.searchMessagesFilter = filter then count else m.own.totalCount := by
  have hcount := updateTotalCount_maintained hm count
  rw [handleChatMessageCountReceived]
  dsimp only
  split_ifs <;> first | exact hcount | rfl

theorem totalCount_removeMessage (hm : maintainCount m = true) (messageId : Int) :
    (removeMessage m messageId).own.totalCount = m.own.totalCount - 1 := by
  have hown := (removeMessage_sameMembers m messageId).own
  have hmaintained : maintainCount (MessagesModel.removeMessage m messageId) = true := by
    rw [maintainCount, hown]
    exact hm
  rw [removeMessage]
  dsimp only
  rw [if_pos hmaintained, hown]

theorem hasRow_of_value {messageId : Int} {i : Nat} (h : m.messageIndexMap.value messageId = some i) :
    hasRow m messageId = decide (i < m.messages.length) := by
  rw [hasRow, h]
  rfl

/-- A removal takes out a row if there is one. -/
theorem length_removeMessage (m : MediaMessagesModel) (messageId : Int) :
    (removeMessage m messageId).messages.length + (if hasRow m messageId then 1 else 0) = m.messages.length := by
  have hrows : (removeMessage m messageId).messages = (MessagesModel.removeMessage m messageId).messages := by
    rw [removeMessage]
    dsimp only
    split_ifs <;> rfl
  rw [hrows, MessagesModel.removeMessage]
  cases hvalue : m.messageIndexMap.value messageId with
  | none =>
      rw [hasRow, hvalue]
      rfl
  | some i =>
      rw [hasRow_of_value hvalue]
      dsimp only
      rw [List.length_eraseIdx]
      by_cases hi : i < m.messages.length
      · rw [if_pos hi, if_pos (decide_eq_true hi)]
        omega
      · rw [if_neg hi, if_neg (by simpa using hi)]
        rfl

theorem insertMessageInOrder_spec (m : MediaMessagesModel) (messageId : Int) (message : QVariantMap) :
    (JumpableMessagesModel.insertMessageInOrder m messageId message m.own.inverted).own = m.own ∧
    (JumpableMessagesModel.insertMessageInOrder m messageId message m.own.inverted).messages.length =
      m.messages.length + if takesInOrder m messageId then 1 else 0 := by
  rcases insertMessageInOrder_cases m messageId message _ rfl with
    ⟨htakes, heq⟩ | ⟨htakes, (heq | heq) | ⟨i, hi, heq⟩⟩
  · rw [heq, htakes]
    exact ⟨rfl, rfl⟩
  · rw [heq, htakes]
    exact ⟨rfl, List.length_append⟩
  · rw [heq, htakes]
    exact ⟨rfl, (List.length_append).trans (Nat.add_comm _ _)⟩
  · obtain ⟨pre, post, hsplit, rfl⟩ := exists_split_of_le hi
    rw [heq, htakes, insertMessagesAt_eq m pre post _ hsplit]
    refine ⟨rfl, ?_⟩
    simp only [hsplit, List.length_append, List.length_cons, List.length_nil, if_true]
    omega

theorem totalCount_insertMessageInOrder (hm : maintainCount m = true) (messageId : Int) (message : QVariantMap) :
    (insertMessageInOrder m messageId message).own.totalCount = m.own.totalCount + 1 ∧
    (insertMessageInOrder m messageId message).messages.length =
      m.messages.length + if takesInOrder m messageId then 1 else 0 := by
  obtain ⟨hown, hlength⟩ := insertMessageInOrder_spec m messageId message
  rw [insertMessageInOrder]
  dsimp only
  have hmaintained : maintainCount (JumpableMessagesModel.insertMessageInOrder m messageId message
      m.own.inverted) = true := by
    rw [maintainCount, hown]
    exact hm
  rw [if_pos hmaintained]
  exact ⟨congrArg (fun own : MediaMembers => own.totalCount + 1) hown, hlength⟩

theorem handleMessageIsPinnedUpdated_fst (m : MediaMessagesModel) (chatId messageId : Int) (isPinned : Bool) :
    (handleMessageIsPinnedUpdated m chatId messageId isPinned).1 =
      if m.own.searchMessagesFilter = .pinned ∧ m.chatId = chatId ∧ isPinned = false then removeMessage m messageId
      else if m.own.searchMessagesFilter = .pinned then m
      else MessagesModel.handleMessageIsPinnedUpdated m chatId messageId isPinned := by
  rw [handleMessageIsPinnedUpdated]
  by_cases hfilter : m.own.searchMessagesFilter = .pinned
  · rw [if_pos hfilter, if_pos hfilter]
    by_cases hchat : m.chatId = chatId
    · rw [if_neg fun h => h hchat]
      cases isPinned with
      | true =>
          have hnot : ¬ (m.own.searchMessagesFilter = .pinned ∧ m.chatId = chatId ∧ true = false) := fun h =>
            Bool.false_ne_true h.2.2.symm
          rw [if_neg hnot]
          rfl
      | false =>
          have hunpins : m.own.searchMessagesFilter = .pinned ∧ m.chatId = chatId ∧ false = false :=
            ⟨hfilter, hchat, rfl⟩
          rw [if_pos hunpins]
          rfl
    · rw [if_pos hchat, if_neg fun h => hchat h.2.1]
  · rw [if_neg hfilter, if_neg hfilter, if_neg fun h => hfilter h.1]

/-- The update hands on the row it changed, if the message has one. -/
theorem handleMessageContentUpdated_snd {m : MediaMessagesModel} {chatId : Int} (hchat : m.chatId = chatId)
    (messageId : Int) (newContent : QVariantMap) :
    ((∃ message : MessageData, (MessagesModel.handleMessageContentUpdated m chatId messageId newContent).2 =
        some (message.setContent newContent)) ∧ hasRow m messageId = true) ∨
      ((MessagesModel.handleMessageContentUpdated m chatId messageId newContent).2 = none ∧
        hasRow m messageId = false) := by
  rw [MessagesModel.handleMessageContentUpdated, handleMessageFieldUpdated, if_pos hchat]
  cases hvalue : m.messageIndexMap.value messageId with
  | none =>
      rw [hasRow, hvalue]
      exact Or.inr ⟨rfl, rfl⟩
  | some i =>
      rw [hasRow_of_value hvalue]
      dsimp only
      by_cases hi : i < m.messages.length
      · rw [List.getElem?_eq_getElem hi]
        exact Or.inl ⟨⟨_, rfl⟩, decide_eq_true hi⟩
      · rw [List.getElem?_eq_none (by omega)]
        exact Or.inr ⟨rfl, decide_eq_false hi⟩

/-- A content update keeps the rows, and removes the message if its row no longer matches. -/
theorem handleMessageContentUpdated_fst (m : MediaMessagesModel) (chatId messageId : Int) (newContent : QVariantMap) :
    ∃ messages : List MessageData, messages.length = m.messages.length ∧
      (handleMessageContentUpdated m chatId messageId newContent).1 =
        if Mismatches m chatId newContent ∧ hasRow m messageId = true then
          removeMessage { m with messages := messages } messageId
        else { m with messages := messages } := by
  have hlength : (MessagesModel.handleMessageContentUpdated m chatId messageId newContent).1.messages.length =
      m.messages.length := by
    have hmap := congrArg List.length (handleMessageFieldUpdated_map m chatId messageId
      (fun message => message.setContent newContent) (fun _ => ()) fun _ => rfl)
    rwa [List.length_map, List.length_map] at hmap
  have hrow := fun hchat : m.chatId = chatId => handleMessageContentUpdated_snd hchat messageId newContent
  obtain ⟨messages, heq⟩ := handleMessageFieldUpdated_fst m chatId messageId fun message => message.setContent newContent
  refine ⟨messages, ?_, ?_⟩
  · change (MessagesModel.handleMessageContentUpdated m chatId messageId newContent).1 = _ at heq
    rw [heq] at hlength
    exact hlength
  rw [handleMessageContentUpdated]
  change (MessagesModel.handleMessageContentUpdated m chatId messageId newContent).1 = _ at heq
  generalize MessagesModel.handleMessageContentUpdated m chatId messageId newContent = result at heq hrow ⊢
  obtain ⟨m₁, message⟩ := result
  dsimp only at heq hrow ⊢
  subst heq
  dsimp only
  by_cases hlooks : m.chatId = chatId ∧ filtersByContent m.own.searchMessagesFilter = true
  swap
  · rw [if_neg hlooks, if_neg fun h => hlooks ⟨h.1.1, h.1.2.1⟩]
  rw [if_pos hlooks]
  rcases hrow hlooks.1 with ⟨⟨row, rfl⟩, hhas⟩ | ⟨rfl, hhas⟩
  · dsimp only
    rw [matches_setContent row newContent hlooks.2]
    cases hmatch : Utilities.messageContentTypeMatchesSearchFilter (newContent.value TYPE_).toStr
        m.own.searchMessagesFilter with
    | true =>
        have hnot : ¬ (Mismatches m chatId newContent ∧ hasRow m messageId = true) := fun h =>
          Bool.false_ne_true (h.1.2.2.symm.trans hmatch)
        rw [if_neg hnot]
        rfl
    | false =>
        have hdrops : Mismatches m chatId newContent ∧ hasRow m messageId = true :=
          ⟨⟨hlooks.1, hlooks.2, hmatch⟩, hhas⟩
        rw [if_pos hdrops]
        rfl
  · have hnot : ¬ (Mismatches m chatId newContent ∧ hasRow m messageId = true) := fun h =>
      Bool.false_ne_true (hhas.symm.trans h.2)
    rw [if_neg hnot]
    dsimp only
    split_ifs <;> rfl

theorem totalCount_tryReload (m : MediaMessagesModel) : (tryReload m).1.own.totalCount = m.own.totalCount := by
  rw [tryReload]
  split_ifs <;> rfl

/-- **Step lemma.** -/
theorem totalCount_step (hm : maintainCount m = true) {e : Event} (he : KeepsCounting e) :
    (step m e).own.totalCount = countAfter m e := by
  cases e with
  | setSearchMessagesFilter filter =>
      rw [step, handle, setSearchMessagesFilter]
      split_ifs
      · exact totalCount_tryReload _
      · rfl
  | setQuery value =>
      rw [step, handle, setQuery]
      split_ifs
      · exact totalCount_tryReload _
      · rfl
  | setMaintainCount value =>
      obtain rfl : value = true := he
      rw [step, handle, setMaintainCount, if_neg fun h => h hm]
      rfl
  | init chatId fromMessageId checkCount force =>
      rw [step, handle, init]
      split_ifs <;> rfl
  | loadMoreHistory =>
      rw [step, handle, JumpableMessagesModel.loadMoreHistory]
      split_ifs <;> rfl
  | loadMoreFuture =>
      rw [step, handle, JumpableMessagesModel.loadMoreFuture]
      split_ifs <;> rfl
  | loadHistoryForMessage messageId =>
      rw [step, handle, JumpableMessagesModel.loadHistoryForMessage]
      split_ifs <;> rfl
  | clear => rfl
  | handleInsertMessages messages =>
      exact congrArg MediaMembers.totalCount (JumpableMessagesModel.handleInsertMessages_own m messages)
  | chatMessageCountReceived count chatId filter => exact totalCount_handleChatMessageCountReceived hm count chatId filter
  | foundChatMessagesReceived chatId filter extra messages totalCount nextFromMessageId =>
      exact totalCount_handleMessagesReceived hm chatId filter extra messages totalCount nextFromMessageId
  | newMessageReceived chatId message =>
      rw [step, handle, handleNewMessageReceived]
      dsimp only
      split_ifs
      · exact congrArg MediaMembers.totalCount (insertMessages_sameMembers (insertsAtEnds m) _).own
      · rfl
      · rfl
  | messageFetched messageId message =>
      change (step m (.messageFetched messageId message)).own.totalCount =
        if (inserts (.messageFetched messageId message)).isSome = true then m.own.totalCount + 1 else m.own.totalCount
      rw [step, handle, inserts]
      by_cases htype : (message.value TYPE_).toStr = TYPE_MESSAGE
      · rw [if_pos htype, if_pos htype]
        exact (totalCount_insertMessageInOrder hm messageId message).1
      · rw [if_neg htype, if_neg htype]
        rfl
  | removeMessage messageId => exact totalCount_removeMessage hm messageId
  | messageContentUpdated chatId messageId newContent =>
      obtain ⟨messages, -, heq⟩ := handleMessageContentUpdated_fst m chatId messageId newContent
      change (handleMessageContentUpdated m chatId messageId newContent).1.own.totalCount =
        if (removes m (.messageContentUpdated chatId messageId newContent)).isSome = true then m.own.totalCount - 1
        else m.own.totalCount
      rw [heq, removes]
      by_cases hdrops : Mismatches m chatId newContent ∧ hasRow m messageId = true
      · rw [if_pos hdrops, if_pos hdrops]
        exact totalCount_removeMessage (m := { m with messages := messages }) hm messageId
      · rw [if_neg hdrops, if_neg hdrops]
        rfl
  | messageIsPinnedUpdated chatId messageId isPinned =>
      change (handleMessageIsPinnedUpdated m chatId messageId isPinned).1.own.totalCount =
        if (removes m (.messageIsPinnedUpdated chatId messageId isPinned)).isSome = true then m.own.totalCount - 1
        else m.own.totalCount
      rw [handleMessageIsPinnedUpdated_fst, removes]
      by_cases hunpins : m.own.searchMessagesFilter = .pinned ∧ m.chatId = chatId ∧ isPinned = false
      · rw [if_pos hunpins, if_pos hunpins]
        exact totalCount_removeMessage hm messageId
      · have hkept : (if m.own.searchMessagesFilter = .pinned then m
            else MessagesModel.handleMessageIsPinnedUpdated m chatId messageId isPinned).own.totalCount =
            m.own.totalCount := by
          obtain ⟨messages, heq⟩ := handleMessageFieldUpdated_fst m chatId messageId fun message =>
            message.setIsPinned isPinned
          rw [MessagesModel.handleMessageIsPinnedUpdated, heq]
          split_ifs <;> rfl
        rw [if_neg hunpins, if_neg hunpins]
        exact hkept
  | messagesDeleted chatId messageIds =>
      exact congrArg MediaMembers.totalCount (deletes_handleMessagesDeleted m chatId messageIds).sameMembers.own

/-! ### Runs -/

/-- A removal of a step takes out a row if there is one. -/
theorem length_of_removes {e : Event} {messageId : Int} (h : removes m e = some messageId) :
    (step m e).messages.length + (if hasRow m messageId then 1 else 0) = m.messages.length := by
  cases e with
  | removeMessage messageId' =>
      obtain rfl : messageId' = messageId := Option.some.inj h
      exact length_removeMessage m messageId'
  | messageContentUpdated chatId messageId' newContent =>
      rw [removes] at h
      obtain ⟨hdrops, h⟩ := Option.ite_none_right_eq_some.mp h
      obtain rfl : messageId' = messageId := Option.some.inj h
      obtain ⟨messages, hlength, heq⟩ := handleMessageContentUpdated_fst m chatId messageId' newContent
      have hremoved := length_removeMessage { m with messages := messages } messageId'
      have hrow : hasRow { m with messages := messages } messageId' = hasRow m messageId' := by
        rw [hasRow, hasRow]
        dsimp only
        rw [hlength]
      rw [hrow] at hremoved
      rw [step, handle, heq, if_pos hdrops]
      exact hremoved.trans hlength
  | messageIsPinnedUpdated chatId messageId' isPinned =>
      rw [removes] at h
      obtain ⟨hunpins, h⟩ := Option.ite_none_right_eq_some.mp h
      obtain rfl : messageId' = messageId := Option.some.inj h
      rw [step, handle, handleMessageIsPinnedUpdated_fst, if_pos hunpins]
      exact length_removeMessage m messageId'
  | _ => cases h

theorem length_of_inserts (hm : maintainCount m = true) {e : Event} {messageId : Int} (h : inserts e = some messageId) :
    (step m e).messages.length = m.messages.length + if takesInOrder m messageId then 1 else 0 := by
  cases e with
  | messageFetched messageId' message =>
      rw [inserts] at h
      obtain ⟨htype, h⟩ := Option.ite_none_right_eq_some.mp h
      obtain rfl : messageId' = messageId := Option.some.inj h
      rw [step, handle, if_pos htype]
      exact (totalCount_insertMessageInOrder hm messageId' message).2
  | _ => cases h

theorem removes_of_inserts {e : Event} {messageId : Int} (h : inserts e = some messageId) : removes m e = none := by
  cases e with
  | messageFetched messageId' message => rfl
  | _ => cases h

/-- A step other than an answer: a removal counts down, an insertion up, and no step does both. -/
theorem countKept_iff_calls (hm : maintainCount m = true) {e : Event}
    (hcount : (step m e).own.totalCount =
      if (removes m e).isSome then m.own.totalCount - 1
      else if (inserts e).isSome then m.own.totalCount + 1 else m.own.totalCount) :
    CountKept m e ↔ (∀ messageId ∈ removes m e, 1 ≤ m.own.totalCount ∧ hasRow m messageId = true) ∧
      ∀ messageId ∈ inserts e, takesInOrder m messageId = true := by
  have hpos := maintainCount_iff.mp hm
  cases hremoves : removes m e with
  | some messageId =>
      have hinserts : inserts e = none := by
        cases hinserts : inserts e with
        | none => rfl
        | some messageId' =>
            rw [removes_of_inserts hinserts] at hremoves
            cases hremoves
      have hlength := length_of_removes hremoves
      rw [hremoves, Option.isSome_some, if_pos rfl] at hcount
      rw [hinserts]
      constructor
      · intro h
        have hpos' := maintainCount_iff.mp h.maintained
        have hremoved := h.removed (by rw [hremoves]; rfl) (by omega)
        refine ⟨fun messageId' hmem => ?_, fun messageId' hmem => by cases hmem⟩
        obtain rfl : messageId = messageId' := Option.some.inj hmem
        refine ⟨by omega, ?_⟩
        by_contra hno
        rw [if_neg hno] at hlength
        omega
      · rintro ⟨hfits, -⟩
        obtain ⟨hone, hrow⟩ := hfits messageId rfl
        rw [if_pos hrow] at hlength
        refine ⟨maintainCount_iff.mpr (by omega), fun _ _ => hlength, fun hsome => ?_⟩
        rw [hinserts] at hsome
        cases hsome
  | none =>
      rw [hremoves, Option.isSome_none, if_neg Bool.false_ne_true] at hcount
      have hnone : ∀ P : Prop, (removes m e).isSome = true → P := by
        intro P hsome
        rw [hremoves] at hsome
        cases hsome
      cases hinserts : inserts e with
      | none =>
          rw [hinserts, Option.isSome_none, if_neg Bool.false_ne_true] at hcount
          refine iff_of_true ⟨maintainCount_iff.mpr (by omega), hnone _, fun _ hne => absurd hcount hne⟩ ⟨?_, ?_⟩
          · rintro messageId ⟨⟩
          · rintro messageId ⟨⟩
      | some messageId =>
          have hlength := length_of_inserts hm hinserts
          rw [hinserts, Option.isSome_some, if_pos rfl] at hcount
          constructor
          · intro h
            have hinserted := h.inserted (by rw [hinserts]; rfl) (by omega)
            refine ⟨fun messageId' hmem => (by cases hmem), fun messageId' hmem => ?_⟩
            obtain rfl : messageId = messageId' := Option.some.inj hmem
            by_contra hno
            rw [if_neg hno] at hlength
            omega
          · rintro ⟨-, hfits⟩
            rw [if_pos (hfits messageId rfl)] at hlength
            exact ⟨maintainCount_iff.mpr (by omega), hnone _, fun _ _ => hlength⟩

/-- **Step lemma.** -/
theorem countKept_iff (hm : maintainCount m = true) {e : Event} (he : KeepsCounting e) :
    CountKept m e ↔ CountFits m e := by
  have hcount := totalCount_step hm he
  have hanswer : ∀ count, (step m e).own.totalCount = count → removes m e = none → inserts e = none →
      (CountKept m e ↔ 0 ≤ count) := by
    intro count hcount hremoves hinserts
    constructor
    · intro h
      exact hcount ▸ maintainCount_iff.mp h.maintained
    · intro h
      refine ⟨maintainCount_iff.mpr (hcount ▸ h), fun hsome => ?_, fun hsome => ?_⟩
      · rw [hremoves] at hsome
        cases hsome
      · rw [hinserts] at hsome
        cases hsome
  cases e with
  | chatMessageCountReceived count chatId filter =>
      refine (hanswer _ hcount rfl rfl).trans ?_
      rw [countAfter, CountFits]
      split_ifs with haddressed
      · exact ⟨fun h _ => h, fun h => h haddressed⟩
      · exact iff_of_true (maintainCount_iff.mp hm) fun h => absurd h haddressed
  | foundChatMessagesReceived chatId filter extra messages totalCount nextFromMessageId =>
      refine (hanswer _ hcount rfl rfl).trans ?_
      rw [countAfter, CountFits]
      split_ifs with haddressed
      · exact ⟨fun h _ => h, fun h => h haddressed⟩
      · exact iff_of_true (maintainCount_iff.mp hm) fun h => absurd h haddressed
  | _ => exact countKept_iff_calls hm hcount

theorem maintainCount_setMaintainCount (m : MediaMessagesModel) :
    maintainCount (step m (.setMaintainCount true)) = true := by
  rw [step, handle, setMaintainCount]
  by_cases hm : maintainCount m = true
  · rw [if_neg fun h => h hm]
    exact hm
  · rw [if_pos hm]
    rfl

end MediaMessagesModel

end YaqtLib
