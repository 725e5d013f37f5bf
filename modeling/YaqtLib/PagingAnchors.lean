import YaqtLib.MediaOrder
import YaqtLib.MessageRequests
import YaqtLib.SponsoredRuns

/-! Where paging goes on: the message that a request for an older or a newer slice lies at. The readable models take
the first and the last row, the media models a cursor and the last row. -/

namespace YaqtLib

open Containers Runs MessagesModel

/-- The id is that of the oldest ordinary row. -/
def Oldest (rows : List MessageData) (id : Int) : Prop := id ∈ ordinaryIds rows ∧ ∀ k ∈ ordinaryIds rows, id ≤ k

/-- The id is that of the newest ordinary row. -/
def Newest (rows : List MessageData) (id : Int) : Prop := id ∈ ordinaryIds rows ∧ ∀ k ∈ ordinaryIds rows, k ≤ id

/-- The first row is an ordinary one, or has the id of the first ordinary one. -/
def StartsOrdinary (rows : List MessageData) : Prop :=
  ∀ row ∈ rows.head?, row.isSponsored = false ∨ (ordinaryIds rows).head? = some row.messageId

/-- The last row is an ordinary one, or has the id of the last ordinary one. -/
def EndsOrdinary (rows : List MessageData) : Prop :=
  ∀ row ∈ rows.getLast?, row.isSponsored = false ∨ (ordinaryIds rows).getLast? = some row.messageId

instance (rows : List MessageData) : Decidable (StartsOrdinary rows) :=
  inferInstanceAs (Decidable (∀ row ∈ rows.head?, _))

instance (rows : List MessageData) : Decidable (EndsOrdinary rows) :=
  inferInstanceAs (Decidable (∀ row ∈ rows.getLast?, _))

theorem oldest_iff {rows : List MessageData} (h : Ascending rows) (id : Int) :
    Oldest rows id ↔ (ordinaryIds rows).head? = some id := by
  rw [Ascending] at h
  rw [Oldest]
  cases hids : ordinaryIds rows with
  | nil => exact iff_of_false (fun hmem => absurd hmem.1 List.not_mem_nil) (by rintro ⟨⟩)
  | cons first rest =>
      rw [hids] at h
      have hfirst := (List.pairwise_cons.mp h).1
      rw [List.head?_cons, Option.some.injEq]
      constructor
      · rintro ⟨hmem, hleast⟩
        rcases List.mem_cons.mp hmem with rfl | hmem
        · rfl
        · exact Int.le_antisymm (Int.le_of_lt (hfirst id hmem)) (hleast first List.mem_cons_self)
      · rintro rfl
        refine ⟨List.mem_cons_self, fun k hk => ?_⟩
        rcases List.mem_cons.mp hk with rfl | hk
        · exact Int.le_refl _
        · exact Int.le_of_lt (hfirst k hk)

theorem newest_iff {rows : List MessageData} (h : Ascending rows) (id : Int) :
    Newest rows id ↔ (ordinaryIds rows).getLast? = some id := by
  rw [Ascending] at h
  rw [Newest]
  rcases List.eq_nil_or_concat' (ordinaryIds rows) with hids | ⟨pre, last, hids⟩
  · rw [hids]
    exact iff_of_false (fun hmem => absurd hmem.1 List.not_mem_nil) (by rintro ⟨⟩)
  · rw [hids] at h ⊢
    have hlast : ∀ k ∈ pre, k < last := fun k hk =>
      (List.pairwise_append.mp h).2.2 k hk last (List.mem_singleton_self last)
    rw [List.getLast?_append, List.getLast?_singleton, Option.some_or, Option.some.injEq]
    constructor
    · rintro ⟨hmem, hgreatest⟩
      rcases List.mem_append.mp hmem with hmem | hmem
      · have hge := hgreatest last (List.mem_append_right _ (List.mem_singleton_self last))
        exact absurd (hlast id hmem) (Int.not_lt.mpr hge)
      · exact (List.mem_singleton.mp hmem).symm
    · rintro rfl
      refine ⟨List.mem_append_right _ (List.mem_singleton_self _), fun k hk => ?_⟩
      rcases List.mem_append.mp hk with hk | hk
      · exact Int.le_of_lt (hlast k hk)
      · exact Int.le_of_eq (List.mem_singleton.mp hk)

theorem oldest_first_iff {rows : List MessageData} (h : Ascending rows) {row : MessageData}
    (hrow : rows.head? = some row) : Oldest rows row.messageId ↔ StartsOrdinary rows := by
  rw [oldest_iff h, StartsOrdinary, hrow]
  constructor
  · rintro hfirst _ ⟨⟩
    exact Or.inr hfirst
  · intro hstarts
    rcases hstarts row rfl with hord | hfirst
    · obtain ⟨rest, rfl⟩ := List.head?_eq_some_iff.mp hrow
      have hid : ordinaryId row = some row.messageId := by rw [ordinaryId, hord, if_neg Bool.false_ne_true]
      rw [ordinaryIds, List.filterMap_cons_some hid, List.head?_cons]
    · exact hfirst

theorem newest_last_iff {rows : List MessageData} (h : Ascending rows) {row : MessageData}
    (hrow : rows.getLast? = some row) : Newest rows row.messageId ↔ EndsOrdinary rows := by
  rw [newest_iff h, EndsOrdinary, hrow]
  constructor
  · rintro hlast _ ⟨⟩
    exact Or.inr hlast
  · intro hends
    rcases hends row rfl with hord | hlast
    · obtain ⟨pre, rfl⟩ := List.getLast?_eq_some_iff.mp hrow
      have hid : ordinaryIds [row] = [row.messageId] :=
        ordinaryIds_of_ordinary fun r hr => (List.mem_singleton.mp hr) ▸ hord
      rw [ordinaryIds_append, hid, List.getLast?_append, List.getLast?_singleton, Option.some_or]
    · exact hlast

/-! ### Requests -/

namespace MessagesModel

variable {Own : Type} [Virtuals Own] {m : MessagesModel Own}

/-- `loadMoreHistory` goes on. -/
def MayLoadHistory (m : MessagesModel Own) : Prop :=
  m.startReached = false ∧ m.waitingFor .updatePreviousSlice = false ∧ m.messages ≠ []

/-- `loadMoreFuture` goes on. -/
def MayLoadFuture (m : MessagesModel Own) : Prop :=
  Virtuals.canLoadMoreMessages m = true ∧ m.endReached = false ∧ m.waitingFor .updateNextSlice = false ∧
    m.messages ≠ []

/-- What `loadMoreHistory` asks for lies at the oldest ordinary row. -/
def HistoryAnchored (m : MessagesModel Own) : Prop :=
  ∀ r, .request r ∈ (JumpableMessagesModel.loadMoreHistory m).2 →
    ∃ id, r.slice = some (.updatePreviousSlice, id) ∧ Oldest m.messages id

/-- What `loadMoreFuture` asks for lies at the newest ordinary row. -/
def FutureAnchored (m : MessagesModel Own) : Prop :=
  ∀ r, .request r ∈ (JumpableMessagesModel.loadMoreFuture m).2 →
    ∃ id, r.slice = some (.updateNextSlice, id) ∧ Newest m.messages id

theorem mem_loadMoreHistory_iff {r : Request} : .request r ∈ (JumpableMessagesModel.loadMoreHistory m).2 ↔
    MayLoadHistory m ∧ .request r ∈ Virtuals.loadMoreHistoryImpl (m.setWaitingFor .updatePreviousSlice true) := by
  rw [JumpableMessagesModel.loadMoreHistory, MayLoadHistory]
  split
  · next hguard =>
    simp only [Bool.and_eq_true, Bool.not_eq_true', List.isEmpty_eq_false_iff] at hguard
    exact (and_iff_right ⟨hguard.1.1, hguard.1.2, hguard.2⟩).symm
  · next hguard =>
    simp only [Bool.and_eq_true, Bool.not_eq_true', List.isEmpty_eq_false_iff] at hguard
    exact iff_of_false List.not_mem_nil fun h => hguard ⟨⟨h.1.1, h.1.2.1⟩, h.1.2.2⟩

theorem mem_loadMoreFuture_iff {r : Request} : .request r ∈ (JumpableMessagesModel.loadMoreFuture m).2 ↔
    MayLoadFuture m ∧ .request r ∈ Virtuals.loadMoreFutureImpl (m.setWaitingFor .updateNextSlice true) := by
  rw [JumpableMessagesModel.loadMoreFuture, MayLoadFuture]
  split
  · next hguard =>
    simp only [Bool.and_eq_true, Bool.not_eq_true', List.isEmpty_eq_false_iff] at hguard
    exact (and_iff_right ⟨hguard.1.1.1, hguard.1.1.2, hguard.1.2, hguard.2⟩).symm
  · next hguard =>
    simp only [Bool.and_eq_true, Bool.not_eq_true', List.isEmpty_eq_false_iff] at hguard
    exact iff_of_false List.not_mem_nil fun h => hguard ⟨⟨⟨h.1.1, h.1.2.1⟩, h.1.2.2.1⟩, h.1.2.2.2⟩

/-- One request is sent, for a slice at `id`. -/
def AsksAt (outputs : List Output) (extra : UpdateType) (id : Int) : Prop :=
  ∃ r, outputs = [.request r] ∧ r.slice = some (extra, id)

theorem AsksAt.anchored_iff {outputs : List Output} {extra : UpdateType} {id : Int} (h : AsksAt outputs extra id)
    (P : Int → Prop) : (∀ r, .request r ∈ outputs → ∃ id, r.slice = some (extra, id) ∧ P id) ↔ P id := by
  obtain ⟨r, rfl, hslice⟩ := h
  constructor
  · intro hall
    obtain ⟨id', hslice', hid'⟩ := hall r List.mem_cons_self
    rw [hslice] at hslice'
    obtain ⟨-, rfl⟩ := Prod.mk.inj (Option.some.inj hslice')
    exact hid'
  · rintro hid r' hr'
    obtain rfl : r' = r := Output.request.inj (List.mem_singleton.mp hr')
    exact ⟨id, hslice, hid⟩

theorem historyAnchored_iff {id : Int}
    (h : AsksAt (Virtuals.loadMoreHistoryImpl (m.setWaitingFor .updatePreviousSlice true)) .updatePreviousSlice id) :
    HistoryAnchored m ↔ (MayLoadHistory m → Oldest m.messages id) := by
  rw [HistoryAnchored, ← h.anchored_iff (Oldest m.messages)]
  simp only [mem_loadMoreHistory_iff]
  exact ⟨fun hall hmay r hr => hall r ⟨hmay, hr⟩, fun hall r hr => hall hr.1 r hr.2⟩

theorem futureAnchored_iff {id : Int}
    (h : AsksAt (Virtuals.loadMoreFutureImpl (m.setWaitingFor .updateNextSlice true)) .updateNextSlice id) :
    FutureAnchored m ↔ (MayLoadFuture m → Newest m.messages id) := by
  rw [FutureAnchored, ← h.anchored_iff (Newest m.messages)]
  simp only [mem_loadMoreFuture_iff]
  exact ⟨fun hall hmay r hr => hall r ⟨hmay, hr⟩, fun hall r hr => hall hr.1 r hr.2⟩

/-- A model that starts at its first row. -/
theorem historyAnchored_first_iff (hm : Ascending m.messages)
    (h : AsksAt (Virtuals.loadMoreHistoryImpl (m.setWaitingFor .updatePreviousSlice true)) .updatePreviousSlice
      (ReadableMessagesModel.firstMessageId m)) :
    HistoryAnchored m ↔ (MayLoadHistory m → StartsOrdinary m.messages) := by
  rw [historyAnchored_iff h]
  refine forall_congr' fun hmay => ?_
  obtain ⟨row, rest, hrows⟩ := List.exists_cons_of_ne_nil hmay.2.2
  have hhead : m.messages.head? = some row := by rw [hrows, List.head?_cons]
  rw [← oldest_first_iff hm hhead, ReadableMessagesModel.firstMessageId, hhead]
  rfl

/-- A model that goes on at its last row. -/
theorem futureAnchored_last_iff (hm : Ascending m.messages)
    (h : AsksAt (Virtuals.loadMoreFutureImpl (m.setWaitingFor .updateNextSlice true)) .updateNextSlice
      ((m.messages.getLast?.map MessageData.messageId).getD 0)) :
    FutureAnchored m ↔ (MayLoadFuture m → EndsOrdinary m.messages) := by
  rw [futureAnchored_iff h]
  refine forall_congr' fun hmay => ?_
  obtain ⟨row, hlast⟩ := Option.ne_none_iff_exists'.mp (mt List.getLast?_eq_none_iff.mp hmay.2.2.2)
  rw [← newest_last_iff hm hlast, hlast]
  rfl

end MessagesModel

/-! ### Chats and forum topics -/

theorem ChatMessagesModel.anchored_iff {m : ChatMessagesModel} (hm : Ascending m.messages) :
    (HistoryAnchored m ↔ (MayLoadHistory m → StartsOrdinary m.messages)) ∧
    (FutureAnchored m ↔ (MayLoadFuture m → EndsOrdinary m.messages)) := by
  have hasks : ∀ (m' : ChatMessagesModel) extra id offset, AsksAt (loadMessages m' extra id offset) extra id := by
    intro m' extra id offset
    rw [loadMessages]
    split_ifs <;> exact ⟨_, rfl, rfl⟩
  exact ⟨historyAnchored_first_iff hm (hasks _ _ _ _), futureAnchored_last_iff hm (hasks _ _ _ _)⟩

namespace ForumTopicMessagesModel

/-- The topic is known, and there is no search. -/
def MayLoad (m : ForumTopicMessagesModel) : Prop := m.own.forumTopic.isSome = true ∧ m.own.searchQuery = ""

theorem anchored_iff {m : ForumTopicMessagesModel} (hm : Ascending m.messages) :
    (HistoryAnchored m ↔ (MayLoad m → MayLoadHistory m → StartsOrdinary m.messages)) ∧
    (FutureAnchored m ↔ (MayLoad m → MayLoadFuture m → EndsOrdinary m.messages)) := by
  by_cases hmay : MayLoad m
  · have hasks : ∀ t extra id offset, AsksAt (loadMessages (m.setWaitingFor t true) extra id offset) extra id := by
      intro t extra id offset
      obtain ⟨topic, htopic⟩ := Option.isSome_iff_exists.mp hmay.1
      have htopic' : (m.setWaitingFor t true).own.forumTopic = some topic := htopic
      rw [loadMessages, htopic']
      dsimp only
      rw [if_pos (show (m.setWaitingFor t true).own.searchQuery = "" from hmay.2)]
      exact ⟨_, rfl, rfl⟩
    rw [forall_prop_of_true hmay, forall_prop_of_true hmay]
    exact ⟨historyAnchored_first_iff hm (hasks _ _ _ _), futureAnchored_last_iff hm (hasks _ _ _ _)⟩
  · have hsilent : ∀ t extra id offset, loadMessages (m.setWaitingFor t true) extra id offset = [] := by
      intro t extra id offset
      rw [loadMessages]
      split
      · rfl
      · next topic htopic =>
        exact if_neg fun hquery => hmay ⟨Option.isSome_iff_exists.mpr ⟨topic, htopic⟩, hquery⟩
    refine ⟨iff_of_true (fun r hr => ?_) fun h => absurd h hmay, iff_of_true (fun r hr => ?_) fun h => absurd h hmay⟩
    · have hmem := (mem_loadMoreHistory_iff.mp hr).2
      rw [show Virtuals.loadMoreHistoryImpl (m.setWaitingFor .updatePreviousSlice true) = [] from
        hsilent _ _ _ _] at hmem
      cases hmem
    · have hmem := (mem_loadMoreFuture_iff.mp hr).2
      rw [show Virtuals.loadMoreFutureImpl (m.setWaitingFor .updateNextSlice true) = [] from hsilent _ _ _ _] at hmem
      cases hmem

end ForumTopicMessagesModel

/-! ### Media -/

namespace MediaMessagesModel

variable {inverted : Bool} {m : MediaMessagesModel}

/-- The history goes on at the cursor. -/
theorem asksAt_loadMoreHistoryImpl (m : MediaMessagesModel) :
    AsksAt (Virtuals.loadMoreHistoryImpl m) .updatePreviousSlice m.own.nextFromMessageId :=
  ⟨_, rfl, rfl⟩

/-- At most one message is loaded. -/
def AtMostOne (m : MediaMessagesModel) : Prop := ∀ k ∈ m.ids, ∀ k' ∈ m.ids, k = k'

instance (m : MediaMessagesModel) : Decidable (AtMostOne m) := inferInstanceAs (Decidable (∀ k ∈ m.ids, _))

/-- The last row is the newest one, except among several of an inverted model. -/
theorem newest_last_media_iff (hm : InRowOrder inverted m) {row : MessageData} (hrow : m.messages.getLast? = some row) :
    Newest m.messages row.messageId ↔ inverted = false ∨ AtMostOne m := by
  have hlast : row.messageId ∈ m.ids := List.mem_map_of_mem (List.mem_of_getLast? hrow)
  rw [Newest, ordinaryIds_of_ordinary hm.rows.2, ← ids, and_iff_right hlast]
  have hends : ∀ k ∈ m.ids, ¬ Before inverted row.messageId k := by
    intro k hk
    obtain ⟨r, hr, rfl⟩ := List.mem_map.mp hk
    exact hm.rows.getLast hrow r hr
  cases inverted with
  | false => exact iff_of_true (fun k hk => Int.not_lt.mp (hends k hk)) (Or.inl rfl)
  | true =>
      have holdest : ∀ k ∈ m.ids, row.messageId ≤ k := fun k hk => Int.not_lt.mp (hends k hk)
      rw [or_iff_right Bool.true_eq_false_eq_False.elim]
      constructor
      · intro hgreatest k hk k' hk'
        have heq : ∀ k ∈ m.ids, k = row.messageId := fun k hk => Int.le_antisymm (hgreatest k hk) (holdest k hk)
        rw [heq k hk, heq k' hk']
      · intro hone k hk
        exact Int.le_of_eq (hone k hk _ hlast)

theorem futureAnchored_media_iff (hm : InRowOrder inverted m) :
    FutureAnchored m ↔ (MayLoadFuture m → inverted = false ∨ AtMostOne m) := by
  have hasks : AsksAt (Virtuals.loadMoreFutureImpl (m.setWaitingFor .updateNextSlice true)) .updateNextSlice
      ((m.messages.getLast?.map MessageData.messageId).getD 0) := ⟨_, rfl, rfl⟩
  rw [futureAnchored_iff hasks]
  refine forall_congr' fun hmay => ?_
  obtain ⟨row, hlast⟩ := Option.ne_none_iff_exists'.mp (mt List.getLast?_eq_none_iff.mp hmay.2.2.2)
  rw [← newest_last_media_iff hm hlast, hlast]
  rfl

/-- What `loadMoreHistory` asks for lies at the cursor. -/
theorem loadMoreHistory_cursor (m : MediaMessagesModel) {r : Request}
    (hr : .request r ∈ (JumpableMessagesModel.loadMoreHistory m).2) :
    r.slice = some (.updatePreviousSlice, m.own.nextFromMessageId) := by
  obtain ⟨r', houtputs, hslice⟩ := asksAt_loadMoreHistoryImpl (m.setWaitingFor .updatePreviousSlice true)
  have hmem := (mem_loadMoreHistory_iff.mp hr).2
  rw [houtputs] at hmem
  obtain rfl : r = r' := Output.request.inj (List.mem_singleton.mp hmem)
  exact hslice

/-! ### The cursor -/

/-- `clear()` has run. -/
def cleared (outputs : List Output) : Bool :=
  outputs.any fun output =>
    match output with
    | .cleared => true
    | _ => false

/-- The cursor that an event leaves: every answer that is for the model brings its own. -/
def cursorAfter (m : MediaMessagesModel) (e : Event) : Int :=
  match e with
  | .foundChatMessagesReceived chatId filter _ _ _ nextFromMessageId =>
      if m.chatId = chatId ∧ filter = m.own.searchMessagesFilter then nextFromMessageId else m.own.nextFromMessageId
  | e => if cleared (handle m e).2 then 0 else m.own.nextFromMessageId

/-- What an event tells of the place where older messages go on: the initial slice and the previous ones do. -/
def tellsHistory (m : MediaMessagesModel) (e : Event) : Option Int :=
  match e with
  | .foundChatMessagesReceived chatId filter extra _ _ nextFromMessageId =>
      if (m.chatId = chatId ∧ filter = m.own.searchMessagesFilter) ∧
          (extra = .updateInitial ∨ extra = .updatePreviousSlice) then some nextFromMessageId
      else none
  | e => if cleared (handle m e).2 then some 0 else none

/-- An answer of another kind has the cursor that the model has. -/
def KeepsCursor (m : MediaMessagesModel) : Event → Prop
  | .foundChatMessagesReceived chatId filter extra _ _ nextFromMessageId =>
      m.chatId = chatId ∧ filter = m.own.searchMessagesFilter → extra = .updateNextSlice ∨ extra = .updateReload →
        nextFromMessageId = m.own.nextFromMessageId
  | _ => True

instance (m : MediaMessagesModel) : ∀ e : Event, Decidable (KeepsCursor m e) := by
  rintro (_ | _) <;> dsimp only [KeepsCursor] <;> infer_instance

theorem cursor_removeMessage (m : MediaMessagesModel) (messageId : Int) :
    (removeMessage m messageId).own.nextFromMessageId = m.own.nextFromMessageId := by
  have hcursor := congrArg MediaMembers.nextFromMessageId (removeMessage_sameMembers m messageId).own
  rw [removeMessage]
  dsimp only
  split_ifs <;> exact hcursor

theorem cursor_insertMessageInOrder (m : MediaMessagesModel) (messageId : Int) (message : QVariantMap) :
    (insertMessageInOrder m messageId message).own.nextFromMessageId = m.own.nextFromMessageId := by
  have hcursor := congrArg MediaMembers.nextFromMessageId (insertMessageInOrder_spec m messageId message).1
  rw [insertMessageInOrder]
  dsimp only
  split_ifs <;> exact hcursor

theorem cursor_updateTotalCount (m : MediaMessagesModel) (count : Int) :
    (updateTotalCount m count).own.nextFromMessageId = m.own.nextFromMessageId := by
  rw [updateTotalCount]
  split_ifs <;> rfl

/-- The cursor is reset if `clear()` has run, and kept otherwise. -/
def CursorFollows (m : MediaMessagesModel) (result : MediaMessagesModel × List Output) : Prop :=
  result.1.own.nextFromMessageId = if cleared result.2 then 0 else m.own.nextFromMessageId

theorem CursorFollows.keep {result : MediaMessagesModel × List Output}
    (hcursor : result.1.own.nextFromMessageId = m.own.nextFromMessageId) (hsilent : cleared result.2 = false) :
    CursorFollows m result := by
  rw [CursorFollows, hcursor, hsilent, if_neg Bool.false_ne_true]

theorem CursorFollows.clear {result : MediaMessagesModel × List Output}
    (hcursor : result.1.own.nextFromMessageId = 0) (hcleared : cleared result.2 = true) : CursorFollows m result := by
  rw [CursorFollows, hcursor, hcleared, if_pos rfl]

theorem cursorFollows_tryReload (m' : MediaMessagesModel)
    (hcursor : m'.own.nextFromMessageId = m.own.nextFromMessageId) : CursorFollows m (tryReload m') := by
  rw [tryReload]
  split
  · exact .clear rfl rfl
  · exact .keep hcursor rfl

theorem cursorFollows_messageContentUpdated (m : MediaMessagesModel) (chatId messageId : Int)
    (newContent : QVariantMap) : CursorFollows m (handleMessageContentUpdated m chatId messageId newContent) := by
  obtain ⟨messages, -, heq⟩ := handleMessageContentUpdated_fst m chatId messageId newContent
  refine .keep ?_ ?_
  · rw [heq]
    split_ifs
    · exact cursor_removeMessage _ messageId
    · rfl
  · rw [handleMessageContentUpdated]
    generalize MessagesModel.handleMessageContentUpdated m chatId messageId newContent = result
    obtain ⟨m₁, _ | message⟩ := result
    · dsimp only
      split_ifs <;> rfl
    · dsimp only
      split_ifs <;> rfl

theorem cursorFollows_messageIsPinnedUpdated (m : MediaMessagesModel) (chatId messageId : Int) (isPinned : Bool) :
    CursorFollows m (handleMessageIsPinnedUpdated m chatId messageId isPinned) := by
  refine .keep ?_ ?_
  · rw [handleMessageIsPinnedUpdated_fst]
    obtain ⟨messages, heq⟩ := handleMessageFieldUpdated_fst m chatId messageId fun message =>
      message.setIsPinned isPinned
    rw [MessagesModel.handleMessageIsPinnedUpdated, heq]
    split_ifs
    · exact cursor_removeMessage m messageId
    · rfl
    · rfl
  · rw [handleMessageIsPinnedUpdated]
    split_ifs <;> rfl

/-- What runs besides the answers to searches. -/
theorem cursorFollows_handle (m : MediaMessagesModel) (e : Event)
    (hother : ∀ chatId filter extra messages totalCount nextFromMessageId,
      e ≠ .foundChatMessagesReceived chatId filter extra messages totalCount nextFromMessageId) :
    CursorFollows m (handle m e) := by
  cases e with
  | foundChatMessagesReceived => exact absurd rfl (hother _ _ _ _ _ _)
  | setSearchMessagesFilter filter =>
      rw [handle, setSearchMessagesFilter]
      split
      · exact cursorFollows_tryReload _ rfl
      · exact .keep rfl rfl
  | setQuery value =>
      rw [handle, setQuery]
      split
      · exact cursorFollows_tryReload _ rfl
      · exact .keep rfl rfl
  | setMaintainCount value =>
      rw [handle, setMaintainCount]
      split
      · refine .keep rfl ?_
        dsimp only
        split_ifs <;> rfl
      · exact .keep rfl rfl
  | init chatId fromMessageId checkCount force =>
      rw [handle, init]
      split
      · refine .keep ?_ rfl
        dsimp only
        split_ifs <;> rfl
      · exact .clear rfl rfl
  | loadMoreHistory =>
      rw [handle, JumpableMessagesModel.loadMoreHistory]
      split <;> exact .keep rfl rfl
  | loadMoreFuture =>
      rw [handle, JumpableMessagesModel.loadMoreFuture]
      split <;> exact .keep rfl rfl
  | loadHistoryForMessage messageId =>
      rw [handle, JumpableMessagesModel.loadHistoryForMessage]
      split
      · exact .clear rfl rfl
      · exact .keep rfl rfl
  | clear => exact .clear rfl rfl
  | handleInsertMessages messages =>
      have hown := JumpableMessagesModel.handleInsertMessages_own m messages
      exact .keep (congrArg MediaMembers.nextFromMessageId hown) rfl
  | chatMessageCountReceived count chatId filter =>
      have hcount := cursor_updateTotalCount m count
      rw [handle, handleChatMessageCountReceived]
      dsimp only
      split_ifs <;> first | exact .keep hcount rfl | exact .keep rfl rfl
  | newMessageReceived chatId message =>
      refine .keep ?_ rfl
      rw [handle, handleNewMessageReceived]
      dsimp only
      split_ifs
      · exact congrArg MediaMembers.nextFromMessageId (JumpableMessagesModel.insertMessages_own m _)
      · rfl
      · rfl
  | messageFetched messageId message =>
      refine .keep ?_ rfl
      rw [handle]
      dsimp only
      split_ifs
      · exact cursor_insertMessageInOrder m messageId message
      · rfl
  | removeMessage messageId => exact .keep (cursor_removeMessage m messageId) rfl
  | messageContentUpdated chatId messageId newContent => exact cursorFollows_messageContentUpdated m _ _ _
  | messageIsPinnedUpdated chatId messageId isPinned => exact cursorFollows_messageIsPinnedUpdated m _ _ _
  | messagesDeleted chatId messageIds =>
      refine .keep ?_ ?_
      · have hown := (deletes_handleMessagesDeleted m chatId messageIds).sameMembers.own
        exact congrArg MediaMembers.nextFromMessageId hown
      · rw [handle, handleMessagesDeleted]
        dsimp only
        split_ifs <;> rfl

/-- **Step lemma.** -/
theorem cursor_step (m : MediaMessagesModel) (e : Event) : (step m e).own.nextFromMessageId = cursorAfter m e := by
  cases e with
  | foundChatMessagesReceived chatId filter extra messages totalCount nextFromMessageId =>
      rw [step, handle, handleMessagesReceived, cursorAfter]
      split_ifs
      · exact cursor_updateTotalCount _ totalCount
      · rfl
  | _ =>
      refine cursorFollows_handle m _ ?_
      rintro _ _ _ _ _ _ ⟨⟩

/-- A media model with the cursor of the last answer that told where older messages go on, since `clear()`. -/
structure Paged where
  model : MediaMessagesModel
  latest : Int

namespace Paged

def new (inverted : Bool) (filter : SearchMessagesFilter) : Paged :=
  { model := MediaMessagesModel.new inverted filter, latest := 0 }

def step (s : Paged) (e : Event) : Paged :=
  { model := MediaMessagesModel.step s.model e, latest := (tellsHistory s.model e).getD s.latest }

/-- The history goes on where the latest answer about it said. -/
def GoesOn (s : Paged) : Prop := s.model.own.nextFromMessageId = s.latest

instance (s : Paged) : Decidable (GoesOn s) := inferInstanceAs (Decidable (_ = _))

theorem goesOn_step_iff {s : Paged} (hs : GoesOn s) (e : Event) : GoesOn (step s e) ↔ KeepsCursor s.model e := by
  rw [GoesOn, step]
  dsimp only
  rw [cursor_step, ← hs]
  cases e with
  | foundChatMessagesReceived chatId filter extra messages totalCount nextFromMessageId =>
      rw [cursorAfter, tellsHistory, KeepsCursor]
      by_cases htaken : s.model.chatId = chatId ∧ filter = s.model.own.searchMessagesFilter
      · rw [if_pos htaken, forall_prop_of_true htaken]
        cases extra <;> simp [htaken]
      · rw [if_neg htaken, if_neg fun h => htaken h.1]
        exact iff_of_true rfl fun h => absurd h htaken
  | _ =>
      refine iff_of_true ?_ trivial
      simp only [cursorAfter, tellsHistory]
      split_ifs <;> rfl

/-- **Run lemma.** -/
theorem goesOn_always_iff (inverted : Bool) (filter : SearchMessagesFilter) (es : List Event) :
    (∀ es', es' <+: es → GoesOn (run step (new inverted filter) es')) ↔
      Along step (fun s e => KeepsCursor s.model e) (new inverted filter) es := by
  have hstart : GoesOn (new inverted filter) := rfl
  exact Along.always_iff (P := fun s e => KeepsCursor s.model e) (I := GoesOn) (J := fun _ => True)
    (fun _ _ _ => trivial) (fun _ e _ hs => goesOn_step_iff hs e) trivial hstart es

end Paged

end MediaMessagesModel

open MediaMessagesModel (videoOf)

end YaqtLib
