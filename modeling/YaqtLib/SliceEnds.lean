import YaqtLib.SliceRows

/-! The end of the rows of a readable model: when it counts as reached after an answer, and what the calls that
load slices do to the rows. -/

namespace YaqtLib

open MessagesModel JumpableMessagesModel

/-! ### When the end counts as reached -/

theorem ReadableMessagesModel.endReached_handlePrepare {Own : Type} [ReadableVirtuals Own] (m : MessagesModel Own)
    (totalCount : Int) (fromUpdate : UpdateType) :
    (ReadableMessagesModel.handlePrepareMessagesReceived m totalCount fromUpdate).endReached = true ↔
      m.endReached = true ∨ m.messageIndexMap.contains (ReadableVirtuals.lastMessageId m) = true ∨
        totalCount = 0 ∧ (fromUpdate = .updateNextSlice ∨ fromUpdate = .updateInitial) := by
  unfold ReadableMessagesModel.handlePrepareMessagesReceived JumpableMessagesModel.handlePrepareMessagesReceived
  by_cases hlast : m.messageIndexMap.contains (ReadableVirtuals.lastMessageId m) = true
  · rw [if_pos hlast]
    cases fromUpdate <;> dsimp only <;> split_ifs <;> simp [hlast]
  · rw [if_neg hlast]
    cases fromUpdate <;> dsimp only <;> split_ifs <;> simp_all

namespace PlainReadable

variable {Own : Type} [Virtuals Own] [ReadableVirtuals Own] [PlainReadable Own]

theorem preparesFlags {own : Own} (h : Plain own) : PreparesFlags own := by
  rintro m rfl totalCount fromUpdate
  rw [handlePrepare_eq totalCount fromUpdate h]
  obtain ⟨startReached, endReached, heq⟩ :=
    ReadableMessagesModel.handlePrepareMessagesReceived_eq m totalCount fromUpdate
  rw [heq]
  exact ⟨rfl, rfl, rfl, rfl⟩

/-- A batch is followed by more loading if it is one of the first and brings only a few messages. -/
def ReloadNeeded (m : MessagesModel Own) (fromUpdate : UpdateType) (messages : List QVariantMap) : Prop :=
  (∃ message ∈ messages, m.Fresh message) ∧ (messages.filter m.Fresh).length + messages.length < 10 ∧
    fromUpdate ≠ .updateReload

instance (m : MessagesModel Own) (fromUpdate : UpdateType) (messages : List QVariantMap) :
    Decidable (ReloadNeeded m fromUpdate messages) :=
  inferInstanceAs (Decidable (_ ∧ _ ∧ _))

/-- The flags are set after an empty answer, and after a batch that is taken and not followed by more. -/
def Notifies (m : MessagesModel Own) (fromUpdate : UpdateType) (messages : List QVariantMap) : Prop :=
  messages = [] ∨ (m.waitingFor fromUpdate = true ∨ m.messages = []) ∧ ¬ ReloadNeeded m fromUpdate messages

instance (m : MessagesModel Own) (fromUpdate : UpdateType) (messages : List QVariantMap) :
    Decidable (Notifies m fromUpdate messages) :=
  inferInstanceAs (Decidable (_ ∨ _ ∧ _))

/-- The end counts as reached after the answer: it was, or the last message that the conversation names is a
row, or there is nothing to be found. -/
def ReachesEnd (m : MessagesModel Own) (fromUpdate : UpdateType) (messages : List QVariantMap) (totalCount : Int) :
    Prop :=
  m.endReached = true ∨ Notifies m fromUpdate messages ∧
    (ReadableVirtuals.lastMessageId m ∈ joinedIds m fromUpdate messages ∨
      totalCount = 0 ∧ (fromUpdate = .updateNextSlice ∨ fromUpdate = .updateInitial))

instance (m : MessagesModel Own) (fromUpdate : UpdateType) (messages : List QVariantMap) (totalCount : Int) :
    Decidable (ReachesEnd m fromUpdate messages totalCount) :=
  inferInstanceAs (Decidable (_ ∨ _ ∧ _))

/-- The rows joined by a batch are ids the flags are set by. -/
theorem endReached_notify {m m₁ : MessagesModel Own} {fromUpdate : UpdateType} {messages : List QVariantMap}
    (hm : m.IndexExact) (hd : (messages.map messageIdOf).Nodup) (hplain : Plain m.own)
    (hlast : ∀ m' : MessagesModel Own, m'.own = m.own →
      ReadableVirtuals.lastMessageId m' = ReadableVirtuals.lastMessageId m)
    (hbatch : m₁ = withBatch m fromUpdate messages) (hnotifies : Notifies m fromUpdate messages) (totalCount : Int) :
    (notifyMessagesLoaded m₁ fromUpdate totalCount).1.endReached = true ↔
      ReachesEnd m fromUpdate messages totalCount := by
  have hends := insertsAtEnds hplain
  have hmembers := withBatch_sameMembers hends fromUpdate messages
  have hplain₁ : Plain (m₁.setWaitingFor fromUpdate false).own := by
    rw [hbatch]
    show Plain (withBatch m fromUpdate messages).own
    rwa [hmembers.own]
  have hlast₁ : ReadableVirtuals.lastMessageId (m₁.setWaitingFor fromUpdate false) =
      ReadableVirtuals.lastMessageId m := by
    apply hlast
    rw [hbatch]
    exact hmembers.own
  rw [notifyMessagesLoaded, handlePrepare_eq totalCount fromUpdate hplain₁,
    ReadableMessagesModel.endReached_handlePrepare, hlast₁, hbatch]
  show (withBatch m fromUpdate messages).endReached = true ∨
    (withBatch m fromUpdate messages).messageIndexMap.contains _ = true ∨ _ ↔ _
  rw [hmembers.endReached, contains_iff_mem_ids (indexExact_withBatch hends hm fromUpdate hd),
    mem_ids_withBatch hends, ReachesEnd, and_iff_right hnotifies]

theorem reloadNeeded_iff {Own : Type} [Virtuals Own] [LawfulVirtuals Own] (m : MessagesModel Own) (fromUpdate : UpdateType)
    (messages : List QVariantMap) :
    m.addedMessages messages ≠ [] ∧ ((m.handleInsertMessages messages).2.2 = true ∧ fromUpdate ≠ .updateReload) ↔
      ReloadNeeded m fromUpdate messages := by
  have hlength : (m.addedMessages messages).length = (messages.filter m.Fresh).length := by
    simpa using (ids_addedMessages_perm m messages).length_eq
  have hneeded : (m.handleInsertMessages messages).2.2 =
      (!(m.addedMessages messages).isEmpty && decide ((m.addedMessages messages).length + messages.length < 10)) :=
    rfl
  rw [ReloadNeeded, ← addedMessages_ne_nil_iff, hneeded, hlength]
  simp only [Bool.and_eq_true, Bool.not_eq_true', List.isEmpty_eq_false_iff, decide_eq_true_eq]
  constructor
  · rintro ⟨hne, ⟨-, hfew⟩, hkind⟩
    exact ⟨hne, hfew, hkind⟩
  · rintro ⟨hne, hfew, hkind⟩
    exact ⟨hne, ⟨hne, hfew⟩, hkind⟩

theorem endReached_handleMessagesReceived [RequestingVirtuals Own] {m : MessagesModel Own} (hm : m.IndexExact)
    (hplain : Plain m.own)
    (hlast : ∀ m' : MessagesModel Own, m'.own = m.own →
      ReadableVirtuals.lastMessageId m' = ReadableVirtuals.lastMessageId m)
    (fromUpdate : UpdateType) {messages : List QVariantMap} (hd : (messages.map messageIdOf).Nodup)
    (totalCount : Int) :
    (handleMessagesReceived m fromUpdate messages totalCount).1.endReached = true ↔
      ReachesEnd m fromUpdate messages totalCount := by
  rw [handleMessagesReceived]
  cases messages with
  | nil =>
      apply endReached_notify hm hd hplain hlast
      · rw [withBatch, handleInsertMessages_nil, ite_self]
      · exact Or.inl rfl
  | cons message rest =>
      dsimp only [List.isEmpty_cons]
      rw [if_neg Bool.false_ne_true]
      by_cases haccepts : (m.waitingFor fromUpdate || m.messages.isEmpty) = true
      · have haccepts' := (accepts_iff m fromUpdate).mp haccepts
        have hbatch : (m.handleInsertMessages (message :: rest)).1 = withBatch m fromUpdate (message :: rest) :=
          (if_pos haccepts').symm
        rw [if_pos haccepts]
        by_cases hreload : ReloadNeeded m fromUpdate (message :: rest)
        · obtain ⟨hne, hneeded⟩ := (reloadNeeded_iff m fromUpdate (message :: rest)).mpr hreload
          have hnot : ¬ Notifies m fromUpdate (message :: rest) := by
            rintro (hnil | ⟨-, hnot⟩)
            · exact absurd hnil (List.cons_ne_nil _ _)
            · exact hnot hreload
          obtain ⟨first, added, hadded⟩ := List.exists_cons_of_ne_nil hne
          change (afterInsertion _ (m.addedMessages (message :: rest)) _ fromUpdate totalCount).1.endReached = true ↔ _
          rw [hadded, afterInsertion, if_pos hneeded]
          show (m.handleInsertMessages (message :: rest)).1.endReached = true ↔ _
          rw [(handleInsertMessages_sameMembers (insertsAtEnds hplain) _).endReached, ReachesEnd,
            or_iff_left fun h => hnot h.1]
        · have hnotifies : Notifies m fromUpdate (message :: rest) := Or.inr ⟨haccepts', hreload⟩
          have hafter : afterInsertion (m.handleInsertMessages (message :: rest)).1
              (m.addedMessages (message :: rest)) (m.handleInsertMessages (message :: rest)).2.2 fromUpdate totalCount =
                notifyMessagesLoaded (m.handleInsertMessages (message :: rest)).1 fromUpdate totalCount := by
            unfold afterInsertion
            split
            · next first added hadded =>
                rw [if_neg]
                intro hneeded
                apply hreload
                apply (reloadNeeded_iff m fromUpdate (message :: rest)).mp
                refine ⟨?_, hneeded⟩
                rw [hadded]
                exact List.cons_ne_nil _ _
            · rfl
          show (afterInsertion (m.handleInsertMessages (message :: rest)).1
              (m.addedMessages (message :: rest)) (m.handleInsertMessages (message :: rest)).2.2 fromUpdate
                totalCount).1.endReached = true ↔ _
          rw [hafter]
          exact endReached_notify hm hd hplain hlast hbatch hnotifies totalCount
      · rw [if_neg haccepts]
        show m.endReached = true ↔ _
        rw [ReachesEnd, or_iff_left]
        rintro ⟨hnil | ⟨haccepts', -⟩, -⟩
        · exact absurd hnil (List.cons_ne_nil _ _)
        · exact haccepts ((accepts_iff m fromUpdate).mpr haccepts')

end PlainReadable

namespace PlainReadable

variable {Own : Type} [Virtuals Own] [ReadableVirtuals Own] [PlainReadable Own]

theorem own_notify {m : MessagesModel Own} (h : Plain m.own) (fromUpdate : UpdateType) (totalCount : Int) :
    (notifyMessagesLoaded m fromUpdate totalCount).1.own = m.own := by
  have hplain : Plain (m.setWaitingFor fromUpdate false).own := h
  obtain ⟨startReached, endReached, heq⟩ :=
    ReadableMessagesModel.handlePrepareMessagesReceived_eq (m.setWaitingFor fromUpdate false) totalCount fromUpdate
  rw [notifyMessagesLoaded, handlePrepare_eq totalCount fromUpdate hplain, heq]
  rfl

/-- A slice leaves the members of the subclass alone. -/
theorem own_handleMessagesReceived [RequestingVirtuals Own] {m : MessagesModel Own} (h : Plain m.own)
    (fromUpdate : UpdateType) (messages : List QVariantMap) (totalCount : Int) :
    (handleMessagesReceived m fromUpdate messages totalCount).1.own = m.own := by
  rw [handleMessagesReceived]
  cases messages with
  | nil => exact own_notify h fromUpdate totalCount
  | cons message rest =>
      have hown := handleInsertMessages_own m (message :: rest)
      have hplain : Plain (m.handleInsertMessages (message :: rest)).1.own := by rwa [hown]
      dsimp only [List.isEmpty_cons]
      rw [if_neg Bool.false_ne_true]
      by_cases haccepts : (m.waitingFor fromUpdate || m.messages.isEmpty) = true
      · rw [if_pos haccepts]
        show (afterInsertion (m.handleInsertMessages (message :: rest)).1 _ _ fromUpdate totalCount).1.own = m.own
        exact afterInsertion_of (P := fun m' => m'.own = m.own) hown
          ((own_notify hplain fromUpdate totalCount).trans hown) _ _
      · rw [if_neg haccepts]
        rfl

end PlainReadable

/-! ### Calls -/

/-- The slices of the readable classes lie at the first and at the last row. -/
class SlicesAtRows (Own : Type) [Virtuals Own] [ReadableVirtuals Own] : Prop where
  loadMoreHistoryImpl : ∀ m : MessagesModel Own,
    OnlyRequests (fun r => r.slice = some (.updatePreviousSlice, ReadableMessagesModel.firstMessageId m))
      (Virtuals.loadMoreHistoryImpl m)
  loadMoreFutureImpl : ∀ m : MessagesModel Own,
    OnlyRequests (fun r => r.slice = some (.updateNextSlice, ReadableMessagesModel.lastRowMessageId m))
      (Virtuals.loadMoreFutureImpl m)

/-- A request for a slice is an initial one, or lies at a row. -/
def AtRow {Own : Type} (m : MessagesModel Own) (r : Request) : Prop :=
  ∀ kind k, r.slice = some (kind, k) → kind = .updateInitial ∨ k ∈ m.ids

/-- What a call does to the rows: they stay as they are, or the model starts over without any. -/
structure CallSpec {Own : Type} (m m' : MessagesModel Own) (outputs : List Output) : Prop where
  chatId : m'.chatId = m.chatId
  waiting : m.waitingFor .updateInitial = false → m'.waitingFor .updateInitial = false
  rows : (m'.messages = m.messages ∧ m'.messageIndexMap = m.messageIndexMap ∧ m'.endReached = m.endReached) ∨
    .cleared ∈ outputs ∧ m'.messages = [] ∧ (m.IndexExact → m'.IndexExact) ∧ m'.endReached = false
  requests : ∀ r, .request r ∈ outputs → AtRow m' r

namespace CallSpec

variable {Own : Type}

theorem unchanged (m : MessagesModel Own) : CallSpec m m [] :=
  ⟨rfl, id, Or.inl ⟨rfl, rfl, rfl⟩, fun _ h => absurd h List.not_mem_nil⟩

/-- A change of the members of the subclass, with initial requests. -/
theorem members (m : MessagesModel Own) (own : Own) {outputs : List Output}
    (h : OnlyRequests (fun r => ∃ k, r.slice = some (.updateInitial, k)) outputs) :
    CallSpec m { m with own := own } outputs := by
  refine ⟨rfl, id, Or.inl ⟨rfl, rfl, rfl⟩, fun r hr kind k hslice => Or.inl ?_⟩
  obtain ⟨k', hslice'⟩ := h.request hr
  rw [hslice'] at hslice
  exact (Prod.mk.inj (Option.some.inj hslice)).1.symm

variable [Virtuals Own]

/-- A `clear()` with initial requests; the members and the message to highlight may be set around it. -/
theorem restart (m : MessagesModel Own) (before after : Own) (highlightedMessageId : Int) {outputs : List Output}
    (h : OnlyRequests (fun r => ∃ k, r.slice = some (.updateInitial, k)) outputs) :
    CallSpec m { (JumpableMessagesModel.clear { m with own := before }).1 with
      own := after, highlightedMessageId := highlightedMessageId } (.cleared :: outputs) := by
  refine ⟨?_, fun _ => rfl, Or.inr ⟨List.mem_cons_self .., messages_clear { m with own := before },
    fun hm => @indexExact_clear _ { m with own := before } hm, rfl⟩, ?_⟩
  · show (MessagesModel.clear { m with own := before }).chatId = m.chatId
    rw [MessagesModel.clear]
    split_ifs <;> rfl
  · intro r hr kind k hslice
    obtain ⟨k', hslice'⟩ := h.request ((List.mem_cons.mp hr).resolve_left (by simp))
    rw [hslice'] at hslice
    exact Or.inl (Prod.mk.inj (Option.some.inj hslice)).1.symm

theorem loadHistoryForMessage [RequestingVirtuals Own] (m : MessagesModel Own) (messageId : Int) :
    CallSpec m (JumpableMessagesModel.loadHistoryForMessage m messageId).1
      (JumpableMessagesModel.loadHistoryForMessage m messageId).2 := by
  rw [JumpableMessagesModel.loadHistoryForMessage]
  split_ifs
  · apply restart m m.own _ messageId
    exact (RequestingVirtuals.loadHistoryForMessageImpl _ _).mono fun r hr => ⟨_, hr.1⟩
  · exact .unchanged m

theorem loadEnd [ReadableVirtuals Own] [RequestingVirtuals Own] (m : MessagesModel Own) (markAllAsRead : Bool) :
    CallSpec m (ReadableMessagesModel.loadEnd m markAllAsRead).1
      (ReadableMessagesModel.loadEnd m markAllAsRead).2 := by
  rw [ReadableMessagesModel.loadEnd]
  split
  · apply restart m (ReadableVirtuals.setLoadingFullEnd m.own markAllAsRead) _ 0
    exact (RequestingVirtuals.loadMessages _ _ _ _).mono fun r hr => ⟨_, hr.1⟩
  · exact .unchanged m

variable [ReadableVirtuals Own] [SlicesAtRows Own]

theorem loadMoreHistory (m : MessagesModel Own) :
    CallSpec m (JumpableMessagesModel.loadMoreHistory m).1 (JumpableMessagesModel.loadMoreHistory m).2 := by
  rw [JumpableMessagesModel.loadMoreHistory]
  split_ifs with hload
  swap
  · exact .unchanged m
  refine ⟨rfl, fun hwaiting => ?_, Or.inl ⟨rfl, rfl, rfl⟩, fun r hr kind k hslice => Or.inr ?_⟩
  · exact hwaiting
  · rw [(SlicesAtRows.loadMoreHistoryImpl _).request hr] at hslice
    have hne : m.messages ≠ [] := by
      intro hnone
      simp [hnone] at hload
    obtain ⟨first, rest, hrows⟩ := List.exists_cons_of_ne_nil hne
    have hfirst : ReadableMessagesModel.firstMessageId (m.setWaitingFor .updatePreviousSlice true) =
        first.messageId := by
      show (m.messages.head?.map MessageData.messageId).getD 0 = _
      rw [hrows]
      rfl
    rw [← (Prod.mk.inj (Option.some.inj hslice)).2, hfirst]
    show first.messageId ∈ m.ids
    rw [ids, hrows]
    exact List.mem_cons_self ..

theorem loadMoreFuture (m : MessagesModel Own) :
    CallSpec m (JumpableMessagesModel.loadMoreFuture m).1 (JumpableMessagesModel.loadMoreFuture m).2 := by
  rw [JumpableMessagesModel.loadMoreFuture]
  split_ifs with hload
  swap
  · exact .unchanged m
  refine ⟨rfl, fun hwaiting => ?_, Or.inl ⟨rfl, rfl, rfl⟩, fun r hr kind k hslice => Or.inr ?_⟩
  · exact hwaiting
  · rw [(SlicesAtRows.loadMoreFutureImpl _).request hr] at hslice
    have hne : m.messages ≠ [] := by
      intro hnone
      simp [hnone] at hload
    have hlast : ReadableMessagesModel.lastRowMessageId (m.setWaitingFor .updateNextSlice true) =
        (m.messages.getLast hne).messageId := by
      show (m.messages.getLast?.map MessageData.messageId).getD 0 = _
      rw [List.getLast?_eq_some_getLast hne]
      rfl
    rw [← (Prod.mk.inj (Option.some.inj hslice)).2, hlast]
    exact List.mem_map_of_mem (List.getLast_mem hne)

end CallSpec

end YaqtLib
