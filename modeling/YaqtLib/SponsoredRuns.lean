import YaqtLib.SponsoredRows

/-! Runs of a channel in which its sponsored messages have come in: slices and new messages join the rows at their
ends, and the sponsored messages that found no place become rows as soon as there is room for them. -/

namespace YaqtLib

open Containers IndexMap Runs Spacing MessagesModel

namespace ChatMessagesModel

open JumpableMessagesModel (Notifies withBatch)

variable {gap : Nat} {shown sponsored : List QVariantMap} {m : ChatMessagesModel}

/-! ### The arrival of the sponsored messages -/

/-- A sponsored message is placed on arrival if it has an id that is not loaded yet. -/
def Sponsorable (m : ChatMessagesModel) (message : QVariantMap) : Prop :=
  sponsoredIdOf message ≠ 0 ∧ sponsoredIdOf message ∉ m.ids ∧
    m.messageIndexMap.contains (sponsoredIdOf message) = false

instance (m : ChatMessagesModel) (message : QVariantMap) : Decidable (Sponsorable m message) :=
  inferInstanceAs (Decidable (_ ∧ _ ∧ _))

theorem sponsorable_insertSponsoredMessage {message message' : QVariantMap} (h : Sponsorable m message')
    (hne : sponsoredIdOf message' ≠ sponsoredIdOf message) {p : Nat} (hp : p ≤ m.messages.length) :
    Sponsorable (insertSponsoredMessage m p message (sponsoredIdOf message)) message' := by
  obtain ⟨hzero, hid, hcontains⟩ := h
  have hsplit : m.messages = m.messages.take p ++ m.messages.drop p := (List.take_append_drop p _).symm
  refine ⟨hzero, fun hmem => ?_, ?_⟩
  · rcases List.mem_cons.mp ((ids_insertSponsoredMessage_perm m _ _ _).mem_iff.mp hmem) with heq | hmem
    · exact hne heq
    · exact hid hmem
  · have heq := insertSponsoredMessage_eq m hsplit message (sponsoredIdOf message)
    rw [List.length_take_of_le hp] at heq
    rw [heq, QHash.contains_eq_false_iff, value_reindex_eq_none_iff]
    refine ⟨(QHash.contains_eq_false_iff _ _).mp hcontains, List.forall_mem_cons.mpr ⟨?_, fun r hr hkey => ?_⟩⟩
    · exact fun hkey => hne (MessageData.key_eq_some.mp hkey).symm
    · refine hid (List.mem_map.mpr ⟨r, ?_, MessageData.key_eq_some.mp hkey⟩)
      rw [hsplit]
      exact List.mem_append_right _ hr

/-- The loop that spreads the messages from the row `p` towards the first one. -/
theorem shows_spreadSponsoredMessages (hgap : 0 < gap) (h : Shows gap shown m.messages m.messageIndexMap) {p : Nat}
    (hp : p ≤ m.messages.length) (hfar : StartFrom MessageData.isSponsored (p + gap) m.messages)
    (hs : ∀ message ∈ sponsored, isSponsoredMessage message = true) (hd : (sponsored.map sponsoredIdOf).Nodup)
    (hstale : m.own.pendingSponsoredMessages = [] ∨ p / gap < sponsored.length)
    (hfits : ∀ message ∈ sponsored.take (p / gap + 1), Sponsorable m message) :
    ∃ shown', Shows gap shown' (spreadSponsoredMessages gap m p sponsored).messages
        (spreadSponsoredMessages gap m p sponsored).messageIndexMap ∧
      (shown' ++ (spreadSponsoredMessages gap m p sponsored).own.pendingSponsoredMessages).Perm
        (shown ++ sponsored) := by
  induction sponsored generalizing m p shown with
  | nil =>
      have hpending := hstale.resolve_right (Nat.not_lt_zero _)
      refine ⟨shown, h, ?_⟩
      rw [spreadSponsoredMessages, hpending]
  | cons message rest ih =>
      obtain ⟨hsm, hsrest⟩ := List.forall_mem_cons.mp hs
      obtain ⟨hnot, hdrest⟩ := List.nodup_cons.mp hd
      rw [List.take_succ_cons] at hfits
      obtain ⟨⟨hzero, hid, hcontains⟩, hfitsrest⟩ := List.forall_mem_cons.mp hfits
      obtain ⟨hshows, hstart⟩ := shows_insert_before h hp hfar hsm hid
      have hfirst : (message.value TdConst.MESSAGE_ID).toLongLong ≠ 0 ∧
          m.messageIndexMap.contains (message.value TdConst.MESSAGE_ID).toLongLong = false := ⟨hzero, hcontains⟩
      rw [spreadSponsoredMessages]
      dsimp only
      rw [if_pos hfirst]
      by_cases hroom : p < gap
      · rw [if_pos (by omega)]
        exact ⟨message :: shown, hshows, List.perm_middle.symm⟩
      · have hle : gap ≤ p := Nat.le_of_not_lt hroom
        rw [if_neg (by omega), show (p : Int) - gap = (p - gap : Nat) by omega]
        rw [Nat.div_eq_sub_div hgap hle] at hstale hfitsrest
        obtain ⟨shown', hshows', hperm⟩ := ih hshows (p := p - gap)
          (by rw [length_insertSponsoredMessage]; omega) (by rwa [Nat.sub_add_cancel hle]) hsrest hdrest
          (hstale.imp_right fun hlt => by rw [List.length_cons] at hlt; omega) fun message' hmem =>
            sponsorable_insertSponsoredMessage (hfitsrest message' hmem)
              (fun heq => hnot (heq ▸ List.mem_map_of_mem (List.mem_of_mem_take hmem))) hp
        exact ⟨shown', hshows', hperm.trans List.perm_middle.symm⟩

/-- Each sponsored message is a row or waits for its place, and the rows keep their distance. -/
structure Placed (sponsored : List QVariantMap) (gap : Nat) (m : ChatMessagesModel) : Prop where
  shows : ∃ shown, Shows gap shown m.messages m.messageIndexMap ∧
    (shown ++ m.own.pendingSponsoredMessages).Perm sponsored
  between : m.own.containsSponsoredMessages = true → m.own.sponsoredMessagesMessagesBetween = gap

/-- A chat that shows no sponsored messages yet. -/
def ShowsNone (m : ChatMessagesModel) : Prop :=
  m.own.containsSponsoredMessages = false ∧ ∀ r ∈ m.messages, r.isSponsored = false

/-- The messages that are placed on arrival can be, and no earlier ones are left waiting: those are only forgotten
if some of the new ones have to wait. -/
def FitsOnArrival (m : ChatMessagesModel) (sponsored : List QVariantMap) (gap : Nat) : Prop :=
  (m.own.pendingSponsoredMessages = [] ∨ m.messages.length / gap < sponsored.length) ∧
  ∀ message ∈ sponsored.take (m.messages.length / gap + 1), Sponsorable m message

theorem placed_handleSponsoredMessagesReceived (hgap : 0 < gap) (hnone : ShowsNone m) (hchannel : isChannel m = true)
    (hs : ∀ message ∈ sponsored, isSponsoredMessage message = true) (hd : (sponsored.map sponsoredIdOf).Nodup)
    (hfits : FitsOnArrival m sponsored gap) :
    Placed sponsored gap (handleSponsoredMessagesReceived m m.chatId sponsored gap) := by
  have hstart : Shows gap [] m.messages m.messageIndexMap := .of_ordinary hnone.2 _
  rw [handleSponsoredMessagesReceived.eq_def, if_neg (by rw [hchannel]; simp)]
  cases sponsored with
  | nil =>
      have hpending := hfits.1.resolve_right (Nat.not_lt_zero _)
      refine ⟨⟨[], hstart, ?_⟩, fun hcontains => ?_⟩
      · dsimp only
        rw [hpending, List.append_nil]
      · rw [hnone.1] at hcontains
        exact absurd hcontains Bool.false_ne_true
  | cons message rest =>
      obtain ⟨shown', hshows, hperm⟩ := shows_spreadSponsoredMessages hgap hstart (Nat.le_refl _)
        (StartFrom.of_unmarked hnone.2 _) hs hd hfits.1 hfits.2
      dsimp only
      rw [if_neg (by omega)]
      exact ⟨⟨shown', hshows, hperm⟩, fun _ => rfl⟩

/-! ### Ordinary messages join -/

/-- New rows go to an end: there is not a single sponsored message only. -/
theorem insertsAtEnds_of_placed (hgap : 0 < gap) (h : Placed sponsored gap m) : InsertsAtEnds m := by
  refine fun newMessages => Or.inl ⟨?_, rfl⟩
  change appendMessages m newMessages = _
  rw [appendMessages, if_neg]
  intro hsingle
  rw [Bool.and_eq_true, beq_iff_eq] at hsingle
  have := h.between hsingle.1
  omega

theorem ordinaryIds_insertMessages (h : m.InsertsAtEnds) {added : List MessageData} :
    (ordinaryIds m.messages).Sublist (ordinaryIds (m.insertMessages added).messages) := by
  rcases insertMessages_cases h added with heq | heq | heq <;> rw [heq]
  · rw [MessagesModel.appendMessages, ordinaryIds_append]
    exact List.sublist_append_left _ _
  · rw [MessagesModel.prependMessages, ordinaryIds_append]
    exact List.sublist_append_right _ _

theorem placed_insertMessages (hgap : 0 < gap) (h : Placed sponsored gap m) {added : List MessageData}
    (hord : ∀ r ∈ added, r.isSponsored = false) (hnew : ∀ r ∈ added, m.messageIndexMap.contains r.messageId = false) :
    Placed sponsored gap (m.insertMessages added) := by
  obtain ⟨shown, hshows, hperm⟩ := h.shows
  rcases insertMessages_cases (insertsAtEnds_of_placed hgap h) added with heq | heq | heq <;> rw [heq]
  · exact h
  · exact ⟨⟨shown, hshows.append hord hnew, hperm⟩, h.between⟩
  · exact ⟨⟨shown, hshows.prepend hord hnew, hperm⟩, h.between⟩

theorem Placed.of_albums {m' : ChatMessagesModel} (h : Placed sponsored gap m) (halbums : SameButAlbums m m') :
    Placed sponsored gap m' := by
  obtain ⟨shown, hshows, hperm⟩ := h.shows
  obtain ⟨messages, albumMessageMap, hbody, rfl⟩ := halbums
  exact ⟨⟨shown, hshows.of_body hbody, hperm⟩, h.between⟩

theorem ordinary_addedMessages {messages : List QVariantMap}
    (hord : ∀ message ∈ messages, isSponsoredMessage message = false) :
    ∀ r ∈ m.addedMessages messages, r.isSponsored = false ∧ m.messageIndexMap.contains r.messageId = false := by
  intro r hr
  have hmem : r ∈ m.freshMessages messages := (sortMessages_perm _ _).mem_iff.mp hr
  rw [freshMessages, List.mem_filterMap] at hmem
  obtain ⟨messageData, hdata, hsome⟩ := hmem
  dsimp only at hsome
  split_ifs at hsome with hfresh
  rw [← Option.some.inj hsome, processMessageData_isSponsored, processMessageData_messageId]
  exact ⟨hord messageData hdata, hfresh.2.2⟩

theorem placed_withBatch (hgap : 0 < gap) (h : Placed sponsored gap m) (fromUpdate : UpdateType)
    {messages : List QVariantMap} (hord : ∀ message ∈ messages, isSponsoredMessage message = false) :
    Placed sponsored gap (withBatch m fromUpdate messages) := by
  have hadded := ordinary_addedMessages (m := m) hord
  rw [withBatch]
  split_ifs
  · refine Placed.of_albums ?_ (handleInsertMessages_same m messages)
    split_ifs
    · exact h
    · exact placed_insertMessages hgap h (fun r hr => (hadded r hr).1) fun r hr => (hadded r hr).2
  · exact h

theorem ordinaryIds_withBatch (h : m.InsertsAtEnds) (fromUpdate : UpdateType) (messages : List QVariantMap) :
    (ordinaryIds m.messages).Sublist (ordinaryIds (withBatch m fromUpdate messages).messages) := by
  rw [withBatch]
  split_ifs
  · rw [(handleInsertMessages_same m messages).ordinaryIds_eq]
    split_ifs
    · exact List.Sublist.refl _
    · exact ordinaryIds_insertMessages h
  · exact List.Sublist.refl _

/-! ### The waiting messages get their place -/

/-- The rows before the first sponsored one, or behind the last one, on the side a slice of the kind comes in. -/
def pendingRoom (rows : List MessageData) : UpdateType → Nat
  | .updatePreviousSlice => (rows.takeWhile fun message => !message.isSponsored).length
  | .updateNextSlice => (rows.reverse.takeWhile fun message => !message.isSponsored).length
  | _ => 0

/-- The waiting messages for which there is room now can be placed. -/
def PendingFit (m : ChatMessagesModel) (totalCount : Int) (fromUpdate : UpdateType) : Prop :=
  0 < totalCount → m.own.containsSponsoredMessages = true →
    ∀ message ∈ m.own.pendingSponsoredMessages.take
      (pendingRoom m.messages fromUpdate / m.own.sponsoredMessagesMessagesBetween.toNat), Placeable m message

instance (m : ChatMessagesModel) (totalCount : Int) (fromUpdate : UpdateType) :
    Decidable (PendingFit m totalCount fromUpdate) :=
  inferInstanceAs (Decidable (_ → _ → _))

theorem placed_insertPendingSponsoredMessages (hgap : 0 < gap)
    (hs : ∀ message ∈ sponsored, isSponsoredMessage message = true) (hd : (sponsored.map sponsoredIdOf).Nodup)
    (h : Placed sponsored gap m) {totalCount : Int} {fromUpdate : UpdateType}
    (hfits : PendingFit m totalCount fromUpdate) :
    Placed sponsored gap (insertPendingSponsoredMessages m totalCount fromUpdate) := by
  obtain ⟨shown, hshows, hperm⟩ := h.shows
  rw [insertPendingSponsoredMessages]
  split_ifs with hpending
  · obtain ⟨hcount, hcontains, -, -⟩ := hpending
    have hbetween := h.between hcontains
    have hfits' := hfits hcount hcontains
    rw [hbetween, Int.toNat_natCast] at hfits'
    have hs' : ∀ message ∈ m.own.pendingSponsoredMessages, isSponsoredMessage message = true :=
      fun message hmem => hs message (hperm.subset (List.mem_append_right _ hmem))
    have hd' : (m.own.pendingSponsoredMessages.map sponsoredIdOf).Nodup := by
      have hall := (hperm.map sponsoredIdOf).nodup_iff.mpr hd
      rw [List.map_append] at hall
      exact (List.nodup_append.mp hall).2.1
    cases fromUpdate with
    | updatePreviousSlice =>
        dsimp only [pendingRoom] at hfits' ⊢
        rw [hbetween]
        obtain ⟨shown', hshows', hperm'⟩ := shows_insertPendingBefore hgap hshows hbetween
          (List.takeWhile_sublist _).length_le (startFrom_takeWhile _) hs' hd' hfits'
        refine ⟨⟨shown', hshows', hperm'.trans hperm⟩, fun _ => ?_⟩
        exact (congrArg ChatMembers.sponsoredMessagesMessagesBetween (insertPendingBefore_sameMembers m _ _).own).trans
          hbetween
    | updateNextSlice =>
        have hlast : ((m.messages.reverse.dropWhile fun message => !message.isSponsored).length : Int) - 1 + 1 + gap =
            ((m.messages.reverse.dropWhile fun message => !message.isSponsored).length + gap : Nat) := by omega
        dsimp only [pendingRoom] at hfits' ⊢
        rw [hbetween, hlast]
        have hroom : (m.messages.reverse.dropWhile fun message => !message.isSponsored).length + gap +
            (m.messages.reverse.takeWhile fun message => !message.isSponsored).length = m.messages.length + gap := by
          have hlen := congrArg List.length
            (List.takeWhile_append_dropWhile (p := fun message => !message.isSponsored) (l := m.messages.reverse))
          rw [List.length_append, List.length_reverse] at hlen
          omega
        obtain ⟨shown', hshows', hperm'⟩ := shows_insertPendingAfter hgap hshows hbetween hroom
          (farBefore_dropWhile gap _) hs' hd' hfits'
        refine ⟨⟨shown', hshows', hperm'.trans hperm⟩, fun _ => ?_⟩
        exact (congrArg ChatMembers.sponsoredMessagesMessagesBetween (insertPendingAfter_sameMembers m _ _).own).trans
          hbetween
    | updateInitial => exact h
    | updateReload => exact h
  · exact h

theorem placed_handlePrepare (hgap : 0 < gap) (hs : ∀ message ∈ sponsored, isSponsoredMessage message = true)
    (hd : (sponsored.map sponsoredIdOf).Nodup) (h : Placed sponsored gap m) {totalCount : Int}
    {fromUpdate : UpdateType} (hfits : PendingFit m totalCount fromUpdate) :
    Placed sponsored gap (handlePrepareMessagesReceived m totalCount fromUpdate).1 := by
  obtain ⟨startReached, endReached, heq⟩ :=
    ReadableMessagesModel.handlePrepareMessagesReceived_eq m totalCount fromUpdate
  rw [handlePrepareMessagesReceived, heq]
  exact @placed_insertPendingSponsoredMessages _ _ { m with startReached := startReached, endReached := endReached }
    hgap hs hd ⟨h.shows, h.between⟩ _ _ hfits

theorem ordinaryIds_insertPendingBefore (insertIndex : Int) {pending : List QVariantMap}
    (hs : ∀ message ∈ pending, isSponsoredMessage message = true) :
    ordinaryIds (insertPendingBefore m insertIndex pending).1.messages = ordinaryIds m.messages := by
  induction pending generalizing m insertIndex with
  | nil => rfl
  | cons message rest ih =>
      obtain ⟨hsm, hsrest⟩ := List.forall_mem_cons.mp hs
      rw [insertPendingBefore]
      split_ifs
      · exact (ih _ hsrest).trans (ordinaryIds_insertSponsoredMessage m _ hsm _)
      · rfl

theorem ordinaryIds_insertPendingAfter (insertIndex : Int) {pending : List QVariantMap}
    (hs : ∀ message ∈ pending, isSponsoredMessage message = true) :
    ordinaryIds (insertPendingAfter m insertIndex pending).1.messages = ordinaryIds m.messages := by
  induction pending generalizing m insertIndex with
  | nil => rfl
  | cons message rest ih =>
      obtain ⟨hsm, hsrest⟩ := List.forall_mem_cons.mp hs
      rw [insertPendingAfter]
      split_ifs
      · exact (ih _ hsrest).trans (ordinaryIds_insertSponsoredMessage m _ hsm _)
      · rfl

theorem ordinaryIds_handlePrepare (hs : ∀ message ∈ m.own.pendingSponsoredMessages, isSponsoredMessage message = true)
    (totalCount : Int) (fromUpdate : UpdateType) :
    ordinaryIds (handlePrepareMessagesReceived m totalCount fromUpdate).1.messages = ordinaryIds m.messages := by
  obtain ⟨startReached, endReached, heq⟩ :=
    ReadableMessagesModel.handlePrepareMessagesReceived_eq m totalCount fromUpdate
  rw [handlePrepareMessagesReceived, heq]
  dsimp only
  rw [insertPendingSponsoredMessages]
  split_ifs
  · cases fromUpdate with
    | updatePreviousSlice => exact ordinaryIds_insertPendingBefore _ hs
    | updateNextSlice => exact ordinaryIds_insertPendingAfter _ hs
    | updateInitial => rfl
    | updateReload => rfl
  · rfl

/-! ### Runs -/

/-- Rows are asked for, slices and new messages come in, none of them a sponsored message, and the chat information
changes. -/
def Inserts : Event → Prop
  | .initialLoad _ | .loadMoreHistory | .loadMoreFuture | .chatInformationChanged _ => True
  | .messagesReceived _ _ messages _ | .foundChatMessagesReceived _ _ _ messages _ =>
      ∀ message ∈ messages, isSponsoredMessage message = false
  | .newMessageReceived _ message => isSponsoredMessage message = false
  | _ => False

/-- Whenever a slice makes room for waiting messages, they can be placed among the rows it leaves. -/
def FitsPending (m : ChatMessagesModel) : Event → Prop
  | .messagesReceived chatId extra messages totalCount =>
      m.chatId = chatId → Notifies m extra messages → PendingFit (withBatch m extra messages) totalCount extra
  | .foundChatMessagesReceived chatId filter extra messages totalCount =>
      m.chatId = chatId ∧ filter = .empty → Notifies m extra messages →
        PendingFit (withBatch m extra messages) totalCount extra
  | _ => True

instance : ∀ e : Event, Decidable (Inserts e) := by
  rintro (_ | _) <;> dsimp only [Inserts] <;> infer_instance

instance (m : ChatMessagesModel) : ∀ e : Event, Decidable (FitsPending m e) := by
  rintro (_ | _) <;> dsimp only [FitsPending] <;> infer_instance

theorem placed_handleMessagesReceived (hgap : 0 < gap)
    (hs : ∀ message ∈ sponsored, isSponsoredMessage message = true) (hd : (sponsored.map sponsoredIdOf).Nodup)
    (h : Placed sponsored gap m) {fromUpdate : UpdateType} {messages : List QVariantMap} {totalCount : Int}
    (hord : ∀ message ∈ messages, isSponsoredMessage message = false)
    (hfits : Notifies m fromUpdate messages → PendingFit (withBatch m fromUpdate messages) totalCount fromUpdate) :
    Placed sponsored gap (JumpableMessagesModel.handleMessagesReceived m fromUpdate messages totalCount).1 := by
  have hbatch := placed_withBatch hgap h fromUpdate hord
  refine JumpableMessagesModel.handleMessagesReceived_of (fun _ h => ⟨h.shows, h.between⟩) hbatch
    fun hnotifies waitingFor => ?_
  exact @placed_handlePrepare _ _ { withBatch m fromUpdate messages with waitingFor := waitingFor } hgap hs hd
    ⟨hbatch.shows, hbatch.between⟩ _ _ (hfits hnotifies)

theorem placed_handleNewMessageReceived (hgap : 0 < gap) (h : Placed sponsored gap m) {message : QVariantMap}
    (hord : isSponsoredMessage message = false) :
    Placed sponsored gap (ReadableMessagesModel.handleNewMessageReceived m message) := by
  rw [ReadableMessagesModel.handleNewMessageReceived]
  dsimp only
  split_ifs with hcontains
  · exact h
  · refine Placed.of_albums (placed_insertMessages hgap h ?_ ?_) (setMessagesAlbum_same _ _)
    · intro r hr
      rw [List.mem_singleton.mp hr, processMessageData_isSponsored]
      exact hord
    · intro r hr
      rw [List.mem_singleton.mp hr, processMessageData_messageId]
      exact Bool.eq_false_iff.mpr hcontains
  · exact h

/-- **Step lemma.** -/
theorem placed_step (hgap : 0 < gap) (hs : ∀ message ∈ sponsored, isSponsoredMessage message = true)
    (hd : (sponsored.map sponsoredIdOf).Nodup) (m : ChatMessagesModel) (e : Event) (h : Placed sponsored gap m)
    (he : Inserts e ∧ FitsPending m e) : Placed sponsored gap (step m e) := by
  obtain ⟨hinserts, hfits⟩ := he
  cases e with
  | initialLoad fromMessageId => exact h
  | loadMoreHistory =>
      rw [step, handle, JumpableMessagesModel.loadMoreHistory]
      split_ifs
      · exact ⟨h.shows, h.between⟩
      · exact h
  | loadMoreFuture =>
      rw [step, handle, JumpableMessagesModel.loadMoreFuture]
      split_ifs
      · exact ⟨h.shows, h.between⟩
      · exact h
  | messagesReceived chatId extra messages totalCount =>
      rw [step, handle, handleMessagesReceived]
      split_ifs with hchat
      · exact placed_handleMessagesReceived hgap hs hd h hinserts (hfits hchat)
      · exact h
  | foundChatMessagesReceived chatId filter extra messages totalCount =>
      rw [step, handle, handleFoundChatMessagesReceived]
      split_ifs with hchat
      · exact placed_handleMessagesReceived hgap hs hd h hinserts (hfits hchat)
      · exact h
  | newMessageReceived chatId message =>
      rw [step, handle, handleNewMessageReceived]
      split_ifs
      · exact placed_handleNewMessageReceived hgap h hinserts
      · exact h
  | chatInformationChanged chatInformation => exact ⟨h.shows, h.between⟩
  | loadHistoryForMessage | loadEnd | setSearchQuery | clear | handleInsertMessages | messageSendSucceeded
  | messagesDeleted | sponsoredMessagesReceived => exact hinserts.elim

theorem ordinaryIds_handleMessagesReceived (hends : m.InsertsAtEnds)
    (hs : ∀ message ∈ m.own.pendingSponsoredMessages, isSponsoredMessage message = true) (fromUpdate : UpdateType)
    (messages : List QVariantMap) (totalCount : Int) :
    (ordinaryIds m.messages).Sublist (ordinaryIds
      (JumpableMessagesModel.handleMessagesReceived m fromUpdate messages totalCount).1.messages) := by
  have hbatch := ordinaryIds_withBatch hends fromUpdate messages
  refine JumpableMessagesModel.handleMessagesReceived_of
    (Q := fun m' : ChatMessagesModel => (ordinaryIds m.messages).Sublist (ordinaryIds m'.messages))
    (fun _ h => h) hbatch fun _ waitingFor => ?_
  have hown := (JumpableMessagesModel.withBatch_sameMembers hends fromUpdate messages).own
  have hprepare := @ordinaryIds_handlePrepare { withBatch m fromUpdate messages with waitingFor := waitingFor }
    (by dsimp only; rw [hown]; exact hs) totalCount fromUpdate
  exact (congrArg (List.Sublist (ordinaryIds m.messages)) hprepare).mpr hbatch

/-- Rows that join leave the ordinary rows in their order. -/
theorem ordinaryIds_step (hgap : 0 < gap) (hs : ∀ message ∈ sponsored, isSponsoredMessage message = true)
    (h : Placed sponsored gap m) {e : Event} (he : Inserts e) :
    (ordinaryIds m.messages).Sublist (ordinaryIds (step m e).messages) := by
  have hends := insertsAtEnds_of_placed hgap h
  have hs' : ∀ message ∈ m.own.pendingSponsoredMessages, isSponsoredMessage message = true := by
    obtain ⟨shown, -, hperm⟩ := h.shows
    exact fun message hmem => hs message (hperm.subset (List.mem_append_right _ hmem))
  cases e with
  | initialLoad fromMessageId => exact List.Sublist.refl _
  | loadMoreHistory =>
      rw [step, handle, JumpableMessagesModel.loadMoreHistory]
      split_ifs <;> exact List.Sublist.refl _
  | loadMoreFuture =>
      rw [step, handle, JumpableMessagesModel.loadMoreFuture]
      split_ifs <;> exact List.Sublist.refl _
  | messagesReceived chatId extra messages totalCount =>
      rw [step, handle, handleMessagesReceived]
      split_ifs
      · exact ordinaryIds_handleMessagesReceived hends hs' _ _ _
      · exact List.Sublist.refl _
  | foundChatMessagesReceived chatId filter extra messages totalCount =>
      rw [step, handle, handleFoundChatMessagesReceived]
      split_ifs
      · exact ordinaryIds_handleMessagesReceived hends hs' _ _ _
      · exact List.Sublist.refl _
  | newMessageReceived chatId message =>
      rw [step, handle, handleNewMessageReceived]
      split_ifs
      · rw [ReadableMessagesModel.handleNewMessageReceived]
        dsimp only
        split_ifs
        · exact List.Sublist.refl _
        · rw [(setMessagesAlbum_same _ _).ordinaryIds_eq]
          exact ordinaryIds_insertMessages hends
        · exact List.Sublist.refl _
      · exact List.Sublist.refl _
  | chatInformationChanged chatInformation => exact List.Sublist.refl _
  | loadHistoryForMessage | loadEnd | setSearchQuery | clear | handleInsertMessages | messageSendSucceeded
  | messagesDeleted | sponsoredMessagesReceived => exact he.elim

instance (m : ChatMessagesModel) (sponsored : List QVariantMap) (gap : Nat) :
    Decidable (FitsOnArrival m sponsored gap) :=
  inferInstanceAs (Decidable (_ ∧ _))

instance (m : ChatMessagesModel) : Decidable (ShowsNone m) := inferInstanceAs (Decidable (_ ∧ _))

/-- What holds of the sponsored messages in every state: each is exactly once a row or waiting for its place, each
sponsored row has the id of its message and is found under it, there are at least `gap` ordinary rows between two
neighbouring sponsored ones, and rows that join leave the ordinary rows in their order. -/
structure SponsoredProperly (sponsored : List QVariantMap) (gap : Nat) (m : ChatMessagesModel) : Prop where
  kept : (sponsoredMessagesOf m.messages ++ m.own.pendingSponsoredMessages).Perm sponsored
  found : ∀ i r, m.messages[i]? = some r → r.isSponsored = true →
    r.messageId = sponsoredIdOf r.messageData ∧ m.messageIndexMap.value r.messageId = some i
  apart : ∀ pre first mid second post, m.messages = pre ++ first :: (mid ++ second :: post) →
    first.isSponsored = true → second.isSponsored = true → (∀ r ∈ mid, r.isSponsored = false) → gap ≤ mid.length
  inOrder : ∀ e, Inserts e → (ordinaryIds m.messages).Sublist (ordinaryIds (step m e).messages)

theorem Placed.sponsoredProperly (hgap : 0 < gap) (hs : ∀ message ∈ sponsored, isSponsoredMessage message = true)
    (h : Placed sponsored gap m) : SponsoredProperly sponsored gap m := by
  obtain ⟨shown, hshows, hperm⟩ := h.shows
  refine ⟨(hshows.messages.append_right _).trans hperm, fun i r hr hrs => ?_,
    fun pre first mid second post hrows hfirst hsecond _ => ?_, fun e he => ordinaryIds_step hgap hs h he⟩
  · exact ⟨hshows.ownId r (List.mem_of_getElem? hr) hrs, hshows.pins.finds i r _ hr hrs rfl⟩
  · exact (hrows ▸ hshows.spaced).le_length hfirst hsecond

/-- **Sponsored messages.** In every state a channel reaches after its sponsored messages have come in, as long as
those that are placed can be. -/
theorem sponsoredProperly_of_fits (m : ChatMessagesModel) (sponsored : List QVariantMap) (gap : Nat) (hgap : 0 < gap)
    (hnone : ShowsNone m) (hchannel : isChannel m = true)
    (hs : ∀ message ∈ sponsored, isSponsoredMessage message = true) (hd : (sponsored.map sponsoredIdOf).Nodup)
    (hfits : FitsOnArrival m sponsored gap) (es : List Event)
    (hes : Along step (fun m e => Inserts e ∧ FitsPending m e)
      (step m (.sponsoredMessagesReceived m.chatId sponsored gap)) es) :
    SponsoredProperly sponsored gap (run step (step m (.sponsoredMessagesReceived m.chatId sponsored gap)) es) := by
  have hstart : Placed sponsored gap (step m (.sponsoredMessagesReceived m.chatId sponsored gap)) :=
    placed_handleSponsoredMessagesReceived hgap hnone hchannel hs hd hfits
  exact (Along.invariant (placed_step hgap hs hd) hstart hes).sponsoredProperly hgap hs

/-- A sponsored message of TDLib, with an `id` besides its `message_id` or without one. -/
def sponsoredMessageOf (messageId : Int) (id : Option Int) : QVariantMap :=
  [(TdConst.TYPE_, .string TdConst.TYPE_SPONSORED_MESSAGE), (TdConst.MESSAGE_ID, .longLong messageId)] ++
    id.toList.map fun id => (TdConst.ID, .longLong id)

/-- A channel with the message 20 loaded. -/
def channel : ChatMessagesModel :=
  let information := [(TdConst.TYPE,
    .map [(TdConst.TYPE_, .string TdConst.TYPE_CHAT_SUPERGROUP), (TdConst.IS_CHANNEL, .bool true)])]
  run step (new 7 information) [.messagesReceived 7 .updateInitial [messageOf 7 20] 1]

/-- The five messages before it come in. -/
def olderSlice : List Event :=
  [.loadMoreHistory, .messagesReceived 7 .updatePreviousSlice ([19, 18, 17, 16, 15].map (messageOf 7)) 5]

theorem sponsoredProperly_olderSlice :
    SponsoredProperly [sponsoredMessageOf 101 none, sponsoredMessageOf 102 (some 102)] 3
      (run step (step channel (.sponsoredMessagesReceived 7 [sponsoredMessageOf 101 none,
        sponsoredMessageOf 102 (some 102)] 3)) olderSlice) :=
  sponsoredProperly_of_fits channel _ 3 (by decide) (by decide) (by decide) (by decide) (by decide) (by decide)
    olderSlice (by decide)

/-- Without an `id` a waiting message becomes a row under the id 0, and is not found under its own. -/
theorem not_sponsoredProperly :
    ¬ ∀ (chatId : Int) (information : QVariantMap) (start : List Event) (sponsored : List QVariantMap) (gap : Nat)
      (es : List Event), 0 < gap → ShowsNone (run step (new chatId information) start) →
      isChannel (run step (new chatId information) start) = true →
      (∀ message ∈ sponsored, isSponsoredMessage message = true) → (sponsored.map sponsoredIdOf).Nodup →
      (∀ e ∈ es, Inserts e) →
      SponsoredProperly sponsored gap (run step
        (step (run step (new chatId information) start) (.sponsoredMessagesReceived chatId sponsored gap)) es) := by
  intro h
  have hrun := h 7 _ [.messagesReceived 7 .updateInitial [messageOf 7 20] 1]
    [sponsoredMessageOf 101 none, sponsoredMessageOf 102 none] 3 olderSlice (by decide) (by decide : ShowsNone channel)
    (by decide) (by decide) (by decide) (by decide)
  have hrow : ((run step (step channel (.sponsoredMessagesReceived 7 [sponsoredMessageOf 101 none,
      sponsoredMessageOf 102 none] 3)) olderSlice).messages[3]?.map fun r =>
        (r.isSponsored, r.messageId, sponsoredIdOf r.messageData)) = some (true, 0, 102) := by decide
  obtain ⟨r, hr, heq⟩ := Option.map_eq_some_iff.mp hrow
  obtain ⟨hs, hid⟩ := Prod.mk.inj heq
  obtain ⟨hzero, hown⟩ := Prod.mk.inj hid
  have := (hrun.found 3 r hr hs).1
  rw [hzero, hown] at this
  exact absurd this (by decide)

end ChatMessagesModel

end YaqtLib
