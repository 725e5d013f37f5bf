import YaqtLib.MessageRequests

/-! What handling a slice does to the rows. A model that waits for slices of the kind, or has no rows, takes
the messages that are not loaded yet, and what follows the insertion only sets flags. -/

namespace YaqtLib

open MessagesModel

/-- `m'` has the rows of `m`, and waits for the same slices. -/
structure SameRows {Own : Type} (m m' : MessagesModel Own) : Prop where
  chatId : m'.chatId = m.chatId
  messages : m'.messages = m.messages
  messageIndexMap : m'.messageIndexMap = m.messageIndexMap
  waitingFor : m'.waitingFor = m.waitingFor

namespace JumpableMessagesModel

variable {Own : Type} [Virtuals Own]

/-- With the members of the model, `handlePrepareMessagesReceived` leaves the rows alone. -/
def PreparesFlags (own : Own) : Prop :=
  ∀ m : MessagesModel Own, m.own = own → ∀ totalCount fromUpdate,
    SameRows m (Virtuals.handlePrepareMessagesReceived m totalCount fromUpdate).1

/-- The model with the rows of a batch, before anything follows. -/
def withBatch (m : MessagesModel Own) (fromUpdate : UpdateType) (messages : List QVariantMap) : MessagesModel Own :=
  if m.waitingFor fromUpdate = true ∨ m.messages = [] then (m.handleInsertMessages messages).1 else m

/-- The ids of the rows once a batch has come in. -/
def joinedIds (m : MessagesModel Own) (fromUpdate : UpdateType) (messages : List QVariantMap) : List Int :=
  m.ids ++ if m.waitingFor fromUpdate = true ∨ m.messages = [] then (messages.filter m.Fresh).map messageIdOf else []

omit [Virtuals Own] in
/-- A batch without a message that is not loaded leaves the rows as they are. -/
theorem joinedIds_of_not_takes {m : MessagesModel Own} {fromUpdate : UpdateType} {messages : List QVariantMap}
    (htakes : ¬ TakesBatch m fromUpdate messages) (k : Int) :
    k ∈ joinedIds m fromUpdate messages ↔ k ∈ m.ids := by
  rw [joinedIds, List.mem_append]
  refine or_iff_left ?_
  split_ifs with haccepts
  · intro hk
    obtain ⟨message, hmessage, -⟩ := List.mem_map.mp hk
    obtain ⟨hmem, hfresh⟩ := List.mem_filter.mp hmessage
    exact htakes ⟨haccepts, message, hmem, of_decide_eq_true hfresh⟩
  · exact List.not_mem_nil

theorem mem_ids_withBatch [LawfulVirtuals Own] {m : MessagesModel Own} (h : m.InsertsAtEnds)
    (fromUpdate : UpdateType) (messages : List QVariantMap) (k : Int) :
    k ∈ (withBatch m fromUpdate messages).ids ↔ k ∈ joinedIds m fromUpdate messages := by
  rw [withBatch, joinedIds, List.mem_append]
  split_ifs
  · rw [mem_ids_handleInsertMessages h, List.mem_map]
    simp only [List.mem_filter, decide_eq_true_eq, and_assoc]
  · rw [or_iff_left List.not_mem_nil]

theorem withBatch_sameMembers {m : MessagesModel Own} (h : m.InsertsAtEnds) (fromUpdate : UpdateType)
    (messages : List QVariantMap) : SameMembers m (withBatch m fromUpdate messages) := by
  rw [withBatch]
  split_ifs
  · exact handleInsertMessages_sameMembers h messages
  · exact .refl m

theorem indexExact_withBatch [LawfulVirtuals Own] {m : MessagesModel Own} (h : m.InsertsAtEnds) (hm : m.IndexExact)
    (fromUpdate : UpdateType) {messages : List QVariantMap} (hd : (messages.map messageIdOf).Nodup) :
    (withBatch m fromUpdate messages).IndexExact := by
  rw [withBatch]
  split_ifs
  · exact indexExact_handleInsertMessages h hm hd
  · exact hm

theorem handleInsertMessages_nil (m : MessagesModel Own) : (m.handleInsertMessages []).1 = m := by
  have hadded : m.addedMessages [] = [] :=
    List.perm_nil.mp (sortMessages_perm _ _)
  change (if (m.addedMessages []).isEmpty then m
    else (m.insertMessages (m.addedMessages [])).setMessagesAlbum (m.addedMessages [])) = m
  rw [hadded]
  rfl

theorem notifyMessagesLoaded_rows {m : MessagesModel Own} (hprep : PreparesFlags m.own) (fromUpdate : UpdateType)
    (totalCount : Int) :
    SameRows (m.setWaitingFor fromUpdate false) (notifyMessagesLoaded m fromUpdate totalCount).1 :=
  hprep (m.setWaitingFor fromUpdate false) rfl totalCount fromUpdate

/-- Nothing but a new row is waited for after a slice has been handled. -/
structure HandlesSlice (m m' : MessagesModel Own) (fromUpdate : UpdateType) (messages : List QVariantMap) :
    Prop where
  chatId : m'.chatId = (withBatch m fromUpdate messages).chatId
  rows : m'.messages = (withBatch m fromUpdate messages).messages
  messageIndexMap : m'.messageIndexMap = (withBatch m fromUpdate messages).messageIndexMap
  arrived : m'.waitingFor fromUpdate = false
  waiting : ∀ t, t ≠ fromUpdate → t ≠ .updateReload →
    m'.waitingFor t = (withBatch m fromUpdate messages).waitingFor t

theorem HandlesSlice.of_flags {m m₁ : MessagesModel Own} {fromUpdate : UpdateType} {messages : List QVariantMap}
    (hbatch : m₁ = withBatch m fromUpdate messages) (waitingFor : UpdateType → Bool)
    (hwaiting : ∀ t, t ≠ .updateReload → waitingFor t = m₁.waitingFor t) :
    HandlesSlice m ({ m₁ with waitingFor := waitingFor }.setWaitingFor fromUpdate false) fromUpdate messages := by
  subst hbatch
  refine ⟨rfl, rfl, rfl, if_pos rfl, fun t ht hreload => ?_⟩
  exact (if_neg ht).trans (hwaiting t hreload)

theorem HandlesSlice.of_notify {m m₁ : MessagesModel Own} {fromUpdate : UpdateType} {messages : List QVariantMap}
    (hbatch : m₁ = withBatch m fromUpdate messages) (hprep : PreparesFlags m₁.own) (totalCount : Int) :
    HandlesSlice m ((notifyMessagesLoaded m₁ fromUpdate totalCount).1.setWaitingFor fromUpdate false) fromUpdate
      messages := by
  subst hbatch
  have h := notifyMessagesLoaded_rows hprep fromUpdate totalCount
  refine ⟨h.chatId, h.messages, h.messageIndexMap, if_pos rfl, fun t ht _ => ?_⟩
  change (if t = fromUpdate then false else _) = _
  rw [if_neg ht, h.waitingFor]
  exact if_neg ht

/-- The object at hand is told about a slice: it is empty, or its batch is taken and asks for no reload. -/
def Notifies (m : MessagesModel Own) (fromUpdate : UpdateType) (messages : List QVariantMap) : Prop :=
  messages = [] ∨ (m.waitingFor fromUpdate = true ∨ m.messages = []) ∧
    ((m.handleInsertMessages messages).2.2 = false ∨ fromUpdate = .updateReload)

instance (m : MessagesModel Own) (fromUpdate : UpdateType) (messages : List QVariantMap) :
    Decidable (Notifies m fromUpdate messages) :=
  inferInstanceAs (Decidable (_ ∨ _))

/-- A property the loading flags do not touch holds after a slice if it holds with the batch among the rows, and
after what the object at hand does with them. -/
theorem handleMessagesReceived_of {Q : MessagesModel Own → Prop} {m : MessagesModel Own} {fromUpdate : UpdateType}
    {messages : List QVariantMap} {totalCount : Int}
    (hflags : ∀ {m : MessagesModel Own} waitingFor, Q m → Q { m with waitingFor := waitingFor })
    (hbatch : Q (withBatch m fromUpdate messages))
    (hprepare : Notifies m fromUpdate messages → ∀ waitingFor, Q (Virtuals.handlePrepareMessagesReceived
      { withBatch m fromUpdate messages with waitingFor := waitingFor } totalCount fromUpdate).1) :
    Q (handleMessagesReceived m fromUpdate messages totalCount).1 := by
  rw [handleMessagesReceived]
  refine hflags _ ?_
  cases messages with
  | nil =>
      have hnil : withBatch m fromUpdate [] = m := by rw [withBatch, handleInsertMessages_nil, ite_self]
      rw [hnil] at hprepare
      exact hprepare (Or.inl rfl) _
  | cons message rest =>
      dsimp only [List.isEmpty_cons]
      rw [if_neg Bool.false_ne_true]
      by_cases haccepts : (m.waitingFor fromUpdate || m.messages.isEmpty) = true
      · have haccepts' : m.waitingFor fromUpdate = true ∨ m.messages = [] := by
          simpa [List.isEmpty_iff] using haccepts
        rw [if_pos haccepts]
        unfold withBatch Notifies at *
        rw [if_pos haccepts'] at hbatch hprepare
        unfold afterInsertion
        dsimp only
        cases hadded : (m.handleInsertMessages (message :: rest)).2.1 with
        | nil =>
            refine hprepare (Or.inr ⟨haccepts', Or.inl ?_⟩) _
            change (!(m.addedMessages (message :: rest)).isEmpty && _) = false
            change m.addedMessages (message :: rest) = [] at hadded
            rw [hadded]
            rfl
        | cons first added =>
            dsimp only
            split_ifs with hreload
            · exact hflags _ hbatch
            · refine hprepare (Or.inr ⟨haccepts', ?_⟩) _
              by_contra hnot
              rw [not_or, Bool.not_eq_false] at hnot
              exact hreload hnot
      · rw [if_neg haccepts]
        rw [withBatch, if_neg (by simpa [List.isEmpty_iff] using haccepts)] at hbatch
        exact hbatch

variable [RequestingVirtuals Own]

theorem handleMessagesReceived_rows {m : MessagesModel Own} (hprep : PreparesFlags m.own)
    (fromUpdate : UpdateType) (messages : List QVariantMap) (totalCount : Int) :
    HandlesSlice m (handleMessagesReceived m fromUpdate messages totalCount).1 fromUpdate messages := by
  rw [handleMessagesReceived]
  cases messages with
  | nil =>
      apply HandlesSlice.of_notify
      · rw [withBatch, handleInsertMessages_nil, ite_self]
      · exact hprep
  | cons message rest =>
      dsimp only [List.isEmpty_cons]
      rw [if_neg Bool.false_ne_true]
      by_cases haccepts : (m.waitingFor fromUpdate || m.messages.isEmpty) = true
      · have hbatch : (m.handleInsertMessages (message :: rest)).1 = withBatch m fromUpdate (message :: rest) :=
          (if_pos ((accepts_iff m fromUpdate).mp haccepts)).symm
        have hown : PreparesFlags (m.handleInsertMessages (message :: rest)).1.own := by
          rwa [handleInsertMessages_own]
        rw [if_pos haccepts]
        exact afterInsertion_of
          (P := fun m' => HandlesSlice m (m'.setWaitingFor fromUpdate false) fromUpdate (message :: rest))
          (HandlesSlice.of_flags hbatch _ fun t hreload => if_neg hreload)
          (HandlesSlice.of_notify hbatch hown totalCount) _ _
      · have hbatch : m = withBatch m fromUpdate (message :: rest) :=
          (if_neg fun h => haccepts ((accepts_iff m fromUpdate).mpr h)).symm
        rw [if_neg haccepts]
        exact HandlesSlice.of_flags hbatch m.waitingFor fun _ _ => rfl

end JumpableMessagesModel

end YaqtLib
