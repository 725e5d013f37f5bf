import YaqtLib.ChatPhotosRows

/-! Batches, new messages and whole runs of a chat photo list. -/

namespace YaqtLib

open Containers IndexMap Runs TdConst MessagesModel

namespace ChatPhotosModel

variable {m : ChatPhotosModel}

/-! ### Batches -/

theorem processMessageData_eq (m : ChatPhotosModel) {message : MessageData} (h : ¬ IsMainPhoto m message) :
    processMessageData m message = m := if_neg h

theorem freshMessages_cons (m : ChatPhotosModel) (messageData : QVariantMap) (rest : List QVariantMap) :
    m.freshMessages (messageData :: rest) =
      if messageIdOf messageData ≠ 0 ∧ chatIdOf messageData = m.chatId ∧
          m.messageIndexMap.contains (messageIdOf messageData) = false then
        MessageData.create messageData (messageIdOf messageData) :: m.freshMessages rest
      else m.freshMessages rest := by
  rw [freshMessages, List.filterMap_cons]
  dsimp only
  split_ifs <;> rfl

theorem freshMessages_ne_zero (m : ChatPhotosModel) {messages : List QVariantMap} {message : MessageData}
    (h : message ∈ m.freshMessages messages) : message.messageId ≠ 0 := by
  obtain ⟨messageData, -, hmessage⟩ := List.mem_filterMap.mp h
  dsimp only at hmessage
  split_ifs at hmessage with hfresh
  rw [← Option.some.inj hmessage]
  exact hfresh.1

/-- Without the message of the current photo the loop collects the new messages, and no more. -/
theorem freshLoop_eq (m : ChatPhotosModel) {messages : List QVariantMap}
    (h : ∀ message ∈ m.freshMessages messages, ¬ IsMainPhoto m message) :
    freshLoop m messages = (m, m.freshMessages messages) := by
  induction messages with
  | nil => rfl
  | cons messageData rest ih =>
      rw [freshMessages_cons] at h ⊢
      rw [freshLoop]
      dsimp only
      split_ifs at h ⊢ with hfresh
      · rw [List.forall_mem_cons] at h
        rw [processMessageData_eq m h.1, ih h.2]
      · exact ih h

/-- With the message of the current photo the loop removes the placeholder. -/
theorem freshLoop_main (hm : Placed m) {messages : List QVariantMap} {message : MessageData}
    (hmem : message ∈ m.freshMessages messages) (h : IsMainPhoto m message) :
    Placed (freshLoop m messages).1 ∧ (freshLoop m messages).1.own.mainChatPhotoId = 0 ∧
      m.ids = 0 :: (freshLoop m messages).1.ids ∧ (freshLoop m messages).2 ≠ [] ∧
      ∀ row ∈ (freshLoop m messages).2, row.messageId ≠ 0 := by
  induction messages with
  | nil => exact absurd hmem List.not_mem_nil
  | cons messageData rest ih =>
      rw [freshMessages_cons] at hmem
      rw [freshLoop]
      dsimp only
      split_ifs at hmem ⊢ with hfresh
      · by_cases hmain : IsMainPhoto m (MessageData.create messageData (messageIdOf messageData))
        · obtain ⟨hplaced, hid, hids⟩ := placed_processMessageData hm hmain
          rw [freshLoop_eq _ fun row _ hrow => hrow.1 hid]
          refine ⟨hplaced, hid, hids, List.cons_ne_nil _ _, ?_⟩
          exact List.forall_mem_cons.mpr ⟨hfresh.1, fun row hrow => freshMessages_ne_zero _ hrow⟩
        · rw [processMessageData_eq m hmain]
          obtain ⟨hplaced, hid, hids, -, hrows⟩ := ih ((List.mem_cons.mp hmem).resolve_left fun heq => hmain (heq ▸ h))
          exact ⟨hplaced, hid, hids, List.cons_ne_nil _ _, List.forall_mem_cons.mpr ⟨hfresh.1, hrows⟩⟩
      · exact ih hmem

theorem handleInsertMessages_fst (m : ChatPhotosModel) (messages : List QVariantMap) :
    (handleInsertMessages m messages).1 =
      if (sortMessages true (freshLoop m messages).2).isEmpty then (freshLoop m messages).1
      else ((freshLoop m messages).1.insertMessages (sortMessages true (freshLoop m messages).2)).setMessagesAlbum
        (sortMessages true (freshLoop m messages).2) := rfl

/-- A batch with the message of the current photo. -/
theorem handleInsertMessages_main (hm : Placed m) {messages : List QVariantMap} {message : MessageData}
    (hmem : message ∈ m.freshMessages messages) (h : IsMainPhoto m message) :
    Placed (handleInsertMessages m messages).1 ∧ 0 ∉ (handleInsertMessages m messages).1.ids ∧
      (m.ids.filter (· ≠ 0)).Sublist (handleInsertMessages m messages).1.ids := by
  obtain ⟨hplaced, hid, hids, hne, hrows⟩ := freshLoop_main hm hmem h
  rw [handleInsertMessages_fst]
  generalize (freshLoop m messages).1 = m1 at hplaced hid hids ⊢
  have hperm := sortMessages_perm true (freshLoop m messages).2
  have hreal := hm.real
  rw [hids, List.tail_cons] at hreal
  have hno : ¬ HasPlaceholder m1 := fun hhas => hreal (List.mem_of_head? hhas)
  cases hsorted : sortMessages true (freshLoop m messages).2 with
  | nil => exact absurd (List.nil_perm.mp (hsorted ▸ hperm)) hne
  | cons first rest =>
      rw [hsorted] at hperm
      have hnew : ∀ row ∈ first :: rest, row.messageId ≠ 0 := fun row hrow => hrows row (hperm.mem_iff.mp hrow)
      have hbehind : ¬ InsertsBefore m1 first.messageId := fun hbefore => hno hbefore.1
      have halbum := setMessagesAlbum_same (m1.insertMessages (first :: rest)) (first :: rest)
      rw [if_neg (show ¬ (first :: rest).isEmpty = true from Bool.false_ne_true)]
      refine ⟨placed_albums halbum (placed_insert hplaced hnew hbehind), ?_, ?_⟩
      · rw [halbum.ids_eq, mem_ids_insert]
        exact fun hmem => hmem.elim hreal (zero_not_mem hnew)
      · rw [halbum.ids_eq, hids, List.filter_cons_of_neg (by simp)]
        exact List.filter_sublist.trans (sublist_insertMessages m1 first rest)

/-- A batch without the message of the current photo. -/
theorem handleInsertMessages_other (hm : Placed m) {messages : List QVariantMap}
    (h : ∀ message ∈ m.freshMessages messages, ¬ IsMainPhoto m message) :
    m.ids.Sublist (handleInsertMessages m messages).1.ids ∧
      ((∀ first ∈ (sortMessages true (m.freshMessages messages)).head?, ¬ InsertsBefore m first.messageId) →
        Placed (handleInsertMessages m messages).1) ∧
      ∀ first ∈ (sortMessages true (m.freshMessages messages)).head?, InsertsBefore m first.messageId →
        (handleInsertMessages m messages).1.messageIndexMap.value 0 ≠ none := by
  rw [handleInsertMessages_fst, freshLoop_eq m h]
  dsimp only
  have hperm := sortMessages_perm true (m.freshMessages messages)
  cases hsorted : sortMessages true (m.freshMessages messages) with
  | nil => exact ⟨List.Sublist.refl _, fun _ => hm, nofun⟩
  | cons first rest =>
      rw [hsorted] at hperm
      have hnew : ∀ row ∈ first :: rest, row.messageId ≠ 0 := fun row hrow =>
        freshMessages_ne_zero m (hperm.mem_iff.mp hrow)
      have halbum := setMessagesAlbum_same (m.insertMessages (first :: rest)) (first :: rest)
      rw [if_neg (show ¬ (first :: rest).isEmpty = true from Bool.false_ne_true)]
      refine ⟨?_, fun hbehind => ?_, fun first' hfirst hbefore => ?_⟩
      · rw [halbum.ids_eq]
        exact sublist_insertMessages m first rest
      · exact placed_albums halbum (placed_insert hm hnew (hbehind first rfl))
      · rw [halbum.messageIndexMap_eq]
        exact value_zero_insert (Option.some.inj hfirst ▸ hbefore)

/-! ### Steps -/

/-- A slice that the model waits for is inserted, and any other one is not. -/
theorem sameRows_handleMessagesReceived (m : ChatPhotosModel) (chatId : Int) (filter : SearchMessagesFilter)
    (extra : UpdateType) (messages : List QVariantMap) (totalCount nextFromMessageId : Int) :
    SameRows
      (if (m.chatId = chatId ∧ filter = m.own.searchMessagesFilter) ∧ messages.isEmpty = false ∧
          (m.waitingFor extra || m.messages.isEmpty) = true then (handleInsertMessages m messages).1 else m)
      (handleMessagesReceived m chatId filter extra messages totalCount nextFromMessageId).1 := by
  rw [handleMessagesReceived]
  by_cases hchat : m.chatId = chatId ∧ filter = m.own.searchMessagesFilter
  · rw [if_pos hchat]
    have hlast : ∀ m' : ChatPhotosModel, SameRows m' (updateTotalCount
        { m'.setWaitingFor extra false with
          own := { (m'.setWaitingFor extra false).own with nextFromMessageId := nextFromMessageId } } totalCount) := by
      intro m'
      refine SameRows.trans ?_ (sameRows_updateTotalCount _ totalCount)
      exact ⟨rfl, rfl, rfl⟩
    rw [receiveMessages]
    by_cases hempty : messages.isEmpty = true
    · rw [if_neg fun h => Bool.false_ne_true (h.2.1.symm.trans hempty), if_pos hempty]
      exact (sameRows_notifyMessagesLoaded m extra totalCount).trans (hlast _)
    · rw [if_neg hempty]
      by_cases hwaiting : (m.waitingFor extra || m.messages.isEmpty) = true
      · rw [if_pos ⟨hchat, by simpa using hempty, hwaiting⟩, if_pos hwaiting]
        exact (sameRows_afterInsertion _ _ _ extra totalCount).trans (hlast _)
      · rw [if_neg fun h => hwaiting h.2.2, if_neg hwaiting]
        exact hlast m
  · rw [if_neg hchat, if_neg fun h => hchat h.1]
    exact .refl m

theorem placed_clear (hm : Placed m) : Placed (clear m).1 ∧ (clear m).1.messages = [] := by
  have hmessages : (clear m).1.messages = [] := messages_clear m
  have hids : (clear m).1.ids = [] := by rw [ids, hmessages]; rfl
  refine ⟨⟨(clear_follows hm.lead).lead, ?_, ?_, fun hmain => absurd rfl hmain⟩, hmessages⟩
  · change (MessagesModel.clear m).messageIndexMap.value 0 = none
    rw [MessagesModel.clear]
    split_ifs
    · exact hm.unkeyed
    · rfl
  · rw [hids]
    exact List.not_mem_nil

theorem placed_processChatPhoto (hm : Placed m) (photo : QVariantMap) : Placed (processChatPhoto m photo).1 := by
  obtain ⟨hclear, hmessages⟩ := placed_clear hm
  rw [processChatPhoto]
  dsimp only
  by_cases hphoto : photo.isEmpty = true
  · rw [if_pos hphoto]
    exact @SameRows.placed (clear m).1 _ ⟨rfl, rfl, rfl⟩ hclear
  · rw [if_neg hphoto]
    generalize hm' : ({ (clear m).1 with own := { (clear m).1.own with
      mainChatPhotoId := (photo.value ID).toLongLong } } : ChatPhotosModel) = m'
    have hnil : m'.messages = [] := by rw [← hm']; exact hmessages
    have hnone : ∀ k, m'.messageIndexMap.value k = none := by
      intro k
      have hlead : m'.RowsLead := hm' ▸ hclear.lead
      cases hvalue : m'.messageIndexMap.value k with
      | none => rfl
      | some i =>
          obtain ⟨row, hrow, -⟩ := hlead k i hvalue
          rw [hnil] at hrow
          cases hrow
    have heq : MessagesModel.insertMessagesAt m' 0 [placeholder photo] =
        { m' with
          messages := [placeholder photo]
          messageIndexMap := m'.messageIndexMap.insert 0 0 } := insertMessagesAt_eq m' [] [] [placeholder photo] hnil
    rw [heq]
    have hvalue : ∀ k, ((m'.messageIndexMap.insert 0 0).remove 0).value k = none := by
      intro k
      rw [QHash.value_remove]
      split_ifs with hk
      · rfl
      · rw [QHash.value_insert_of_ne _ _ hk, hnone]
    refine ⟨fun k i hk => ?_, hvalue 0, List.not_mem_nil, fun _ => rfl⟩
    cases (hvalue k).symm.trans hk

theorem kept_of_placed {e : Event} (h : Placed (step m e)) (htaken : taken m e = []) : PlaceholderKept m e := by
  refine ⟨h.count_le, (QHash.contains_eq_false_iff _ _).mpr h.unkeyed, fun hne => absurd htaken hne, ?_⟩
  rw [htaken]
  exact fun message hmem => absurd hmem List.not_mem_nil

/-- **Step lemma** for a new message. -/
theorem kept_newMessage (hm : Placed m) (chatId : Int) (message : QVariantMap) :
    (PlaceholderKept m (.newMessageReceived chatId message) ↔ Fits m (.newMessageReceived chatId message)) ∧
      (Fits m (.newMessageReceived chatId message) → Placed (step m (.newMessageReceived chatId message))) := by
  by_cases htakes : TakesNewMessage m chatId message
  · have htaken : taken m (.newMessageReceived chatId message) =
        [MessageData.create message (messageIdOf message)] := if_pos htakes
    have hstep : step m (.newMessageReceived chatId message) =
        m.insertMessages [MessageData.create message (messageIdOf message)] := if_pos htakes
    rw [Fits, hstep, htaken, List.forall_mem_singleton]
    generalize MessageData.create message (messageIdOf message) = data at htaken hstep ⊢
    have hplaced : data.messageId ≠ 0 ∧ ¬ IsMainPhoto m data ∧ ¬ InsertsBefore m data.messageId →
        Placed (m.insertMessages [data]) := fun h => placed_insert hm (by simpa using h.1) h.2.2
    refine ⟨⟨fun h => ⟨fun hzero => ?_, fun hmain => ?_, fun hbefore => ?_⟩, fun h => ?_⟩, hplaced⟩
    · have hnone := (QHash.contains_eq_false_iff _ _).mp h.unkeyed
      rw [hstep, ← hzero] at hnone
      exact value_ne_none_insert m List.mem_cons_self hnone
    · have hgone := h.replaced data (htaken ▸ List.mem_cons_self) hmain
      rw [hstep, mem_ids_insert] at hgone
      exact hgone (Or.inl (List.mem_of_head? (hm.main hmain.1)))
    · have hnone := (QHash.contains_eq_false_iff _ _).mp h.unkeyed
      rw [hstep] at hnone
      exact value_zero_insert hbefore hnone
    · have hplaced' := hplaced h
      rw [← hstep] at hplaced'
      refine ⟨hplaced'.count_le, (QHash.contains_eq_false_iff _ _).mpr hplaced'.unkeyed, fun _ => ?_, ?_⟩
      · rw [hstep]
        exact List.filter_sublist.trans (sublist_insertMessages m data [])
      · rw [htaken, List.forall_mem_singleton]
        exact fun hmain => absurd hmain h.2.1
  · have htaken : taken m (.newMessageReceived chatId message) = [] := if_neg htakes
    have hstep : step m (.newMessageReceived chatId message) = m := if_neg htakes
    have hfits : Fits m (.newMessageReceived chatId message) := by
      rw [Fits, htaken]
      exact fun data hdata => absurd hdata List.not_mem_nil
    have hplaced : Placed (step m (.newMessageReceived chatId message)) := by rwa [hstep]
    exact ⟨iff_of_true (kept_of_placed hplaced htaken) hfits, fun _ => hplaced⟩

/-- **Step lemma** for a slice. -/
theorem kept_slice (hm : Placed m) (chatId : Int) (filter : SearchMessagesFilter) (extra : UpdateType)
    (messages : List QVariantMap) (totalCount nextFromMessageId : Int) {e : Event}
    (he : e = .foundChatMessagesReceived chatId filter extra messages totalCount nextFromMessageId) :
    (PlaceholderKept m e ↔ Fits m e) ∧ (Fits m e → Placed (step m e)) := by
  have hsame := sameRows_handleMessagesReceived m chatId filter extra messages totalCount nextFromMessageId
  have hfits : Fits m e ↔ ((∀ message ∈ taken m e, ¬ IsMainPhoto m message) →
      ∀ first ∈ (sortMessages true (taken m e)).head?, ¬ InsertsBefore m first.messageId) := by
    rw [he]
    rfl
  have hstep : step m e = (handleMessagesReceived m chatId filter extra messages totalCount nextFromMessageId).1 := by
    rw [he]
    rfl
  have htaken : taken m e = if (m.chatId = chatId ∧ filter = m.own.searchMessagesFilter) ∧ messages.isEmpty = false ∧
      (m.waitingFor extra || m.messages.isEmpty) = true then m.freshMessages messages else [] := by
    rw [he]
    rfl
  rw [← hstep] at hsame
  split_ifs at hsame htaken with haccepted
  · rw [htaken] at hfits
    by_cases hmain : ∃ message ∈ m.freshMessages messages, IsMainPhoto m message
    · obtain ⟨message, hmem, h⟩ := hmain
      obtain ⟨hplaced, hzero, hsub⟩ := handleInsertMessages_main hm hmem h
      have hplaced' := hsame.placed hplaced
      have hkept : PlaceholderKept m e := by
        refine ⟨hplaced'.count_le, (QHash.contains_eq_false_iff _ _).mpr hplaced'.unkeyed, fun _ => ?_, fun _ _ _ => ?_⟩
        · rw [hsame.ids_eq]
          exact hsub
        · rw [hsame.ids_eq]
          exact hzero
      exact ⟨iff_of_true hkept (hfits.mpr fun hnone => absurd h (hnone message hmem)), fun _ => hplaced'⟩
    · have hnone : ∀ message ∈ m.freshMessages messages, ¬ IsMainPhoto m message :=
        fun message hmem h => hmain ⟨message, hmem, h⟩
      obtain ⟨hsub, hplaced, hkey⟩ := handleInsertMessages_other hm hnone
      rw [hfits]
      refine ⟨⟨fun h _ first hfirst hbefore => ?_, fun h => ?_⟩, fun h => hsame.placed (hplaced (h hnone))⟩
      · have hzero := (QHash.contains_eq_false_iff _ _).mp h.unkeyed
        rw [hsame.index] at hzero
        exact hkey first hfirst hbefore hzero
      · have hplaced' := hsame.placed (hplaced (h hnone))
        refine ⟨hplaced'.count_le, (QHash.contains_eq_false_iff _ _).mpr hplaced'.unkeyed, fun _ => ?_,
          fun message hmem hmain => absurd hmain (hnone message (htaken ▸ hmem))⟩
        rw [hsame.ids_eq]
        exact List.filter_sublist.trans hsub
  · have hplaced := hsame.placed hm
    rw [hfits, htaken]
    exact ⟨iff_of_true (kept_of_placed hplaced htaken) (fun _ first hfirst => nomatch hfirst), fun _ => hplaced⟩

/-- **Step lemma.** -/
theorem kept_step (hm : Placed m) (e : Event) :
    (PlaceholderKept m e ↔ Fits m e) ∧ (Fits m e → Placed (step m e)) := by
  have hother : ∀ e : Event, Placed (step m e) → taken m e = [] → Fits m e →
      (PlaceholderKept m e ↔ Fits m e) ∧ (Fits m e → Placed (step m e)) := fun e hplaced htaken hfits =>
    ⟨iff_of_true (kept_of_placed hplaced htaken) hfits, fun _ => hplaced⟩
  cases e with
  | newMessageReceived chatId message => exact kept_newMessage hm chatId message
  | foundChatMessagesReceived chatId filter extra messages totalCount nextFromMessageId =>
      exact kept_slice hm chatId filter extra messages totalCount nextFromMessageId rfl
  | setChatId chatId => exact hother _ (@SameRows.placed m _ ⟨rfl, rfl, rfl⟩ hm) rfl trivial
  | groupFullInfo data type groupId fullInfo =>
      refine hother _ ?_ rfl trivial
      change Placed (processGroupFullInfo m data type groupId fullInfo).1
      rw [processGroupFullInfo]
      split_ifs
      · refine placed_processChatPhoto ?_ _
        exact @SameRows.placed m _ ⟨rfl, rfl, rfl⟩ hm
      · exact hm
  | messagesDeleted chatId messageIds => exact hother _ (placed_handleMessagesDeleted hm chatId messageIds) rfl trivial
  | loadMoreHistory =>
      refine hother _ ?_ rfl trivial
      change Placed (JumpableMessagesModel.loadMoreHistory m).1
      rw [JumpableMessagesModel.loadMoreHistory]
      split_ifs
      · exact @SameRows.placed m _ ⟨rfl, rfl, rfl⟩ hm
      · exact hm
  | loadMoreFuture =>
      refine hother _ ?_ rfl trivial
      change Placed (JumpableMessagesModel.loadMoreFuture m).1
      rw [JumpableMessagesModel.loadMoreFuture]
      split_ifs
      · exact @SameRows.placed m _ ⟨rfl, rfl, rfl⟩ hm
      · exact hm
  | clear => exact hother _ (placed_clear hm).1 rfl trivial

theorem placed_new : Placed new :=
  ⟨fun _ _ hvalue => (nomatch hvalue), rfl, List.not_mem_nil, fun hmain => absurd rfl hmain⟩

/-- **The placeholder** is kept apart, and replaced by the message of its photo, in all steps of a run exactly if in
none of them a new message has no id or the current photo, or new rows go before the placeholder. -/
theorem placeholder_kept_iff (es : List Event) : Along step PlaceholderKept new es ↔ Along step Fits new es :=
  Along.iff_of_keeps (I := Placed) (fun _ e hm => (kept_step hm e).1)
    (fun _ e hm hkept => (kept_step hm e).2 ((kept_step hm e).1.mp hkept)) placed_new es

/-- A photo message as TDLib sends it. -/
def photoMessage (messageId photo : Int) : QVariantMap :=
  [(TYPE_, .string "message"), (ID, .longLong messageId), (CHAT_ID, .longLong 7),
    (CONTENT, .map [(TYPE_, .string MESSAGE_CONTENT_TYPE_CHAT_CHANGE_PHOTO),
      ("photo", .map [(ID, .longLong photo)])])]

/-- A second new photo goes before the placeholder. -/
theorem not_placeholder_kept :
    ¬ Along step PlaceholderKept new
      [.setChatId 7, .groupFullInfo (some ⟨.supergroup, 3⟩) .supergroup 3 [("photo", .map [(ID, .longLong 99)])],
        .newMessageReceived 7 (photoMessage 10 100), .newMessageReceived 7 (photoMessage 20 101)] := by
  rintro ⟨-, -, -, hkept, -⟩
  exact absurd hkept.unkeyed (by decide)

end ChatPhotosModel

end YaqtLib
