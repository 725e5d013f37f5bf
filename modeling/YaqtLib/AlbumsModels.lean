import YaqtLib.Albums

/-! The albums of a chat and of a forum topic, over whole runs: history batches, new messages, deletions and clearing
keep each album grouped under its first loaded message. -/

namespace YaqtLib

open Containers IndexMap MessagesModel Runs TdConst

theorem MessagesModel.AlbumsKept.of_eq {Own : Type} {m m' : MessagesModel Own} (h : m.AlbumsKept)
    (hrows : m'.messages = m.messages) (hindex : m'.messageIndexMap = m.messageIndexMap)
    (halbums : m'.albumMessageMap = m.albumMessageMap) : m'.AlbumsKept := by
  have hlist : ∀ albumId, m'.listOf albumId = m.listOf albumId := by
    intro albumId
    rw [listOf, listOf, halbums]
  refine ⟨?_, ⟨fun albumId => ?_, fun row hrow albumId ha => ?_, fun row hrow => ?_⟩, fun albumId k hk => ?_⟩
  · unfold IndexExact
    rw [hrows, hindex]
    exact h.indexExact
  · rw [hlist]
    exact h.follow.sorted albumId
  · rw [hlist]
    exact h.follow.mem row (hrows ▸ hrow) albumId ha
  · rw [hlist]
    exact h.follow.entries row (hrows ▸ hrow)
  · rw [ids, hrows]
    rw [hlist] at hk
    exact h.clean albumId k hk

/-- Neither the flags nor what an answer does besides inserting rows touches the albums. -/
theorem PlainReadable.stable_albums {Own : Type} [Virtuals Own] [ReadableVirtuals Own] [PlainReadable Own] :
    Stable fun m : MessagesModel Own => m.AlbumsKept ∧ PlainReadable.Plain m.own where
  members _ _ _ _ hm := ⟨hm.1.of_eq rfl rfl rfl, hm.2⟩
  clear hm := ⟨hm.1.clear.of_eq rfl rfl rfl, PlainReadable.plain_clearOwn hm.2⟩
  prepare {m} totalCount fromUpdate hm := by
    obtain ⟨startReached, endReached, heq⟩ :=
      ReadableMessagesModel.handlePrepareMessagesReceived_eq m totalCount fromUpdate
    rw [PlainReadable.handlePrepare_eq totalCount fromUpdate hm.2, heq]
    exact ⟨hm.1.of_eq rfl rfl rfl, hm.2⟩

namespace ChatMessagesModel

/-- The steps of a chat without sponsored messages, in which no sent message is confirmed: a batch lists no message
twice. -/
def AlbumStep (_ : ChatMessagesModel) : Event → Prop
  | .handleInsertMessages messages => (messages.map messageIdOf).Nodup
  | .messagesReceived _ _ messages _ => (messages.map messageIdOf).Nodup
  | .foundChatMessagesReceived _ _ _ messages _ => (messages.map messageIdOf).Nodup
  | .messageSendSucceeded .. => False
  | .sponsoredMessagesReceived .. => False
  | _ => True

instance (m : ChatMessagesModel) : ∀ e : Event, Decidable (AlbumStep m e) := by
  rintro (_ | _) <;> dsimp only [AlbumStep] <;> infer_instance

def Grouped (m : ChatMessagesModel) : Prop := m.AlbumsKept ∧ m.own.containsSponsoredMessages = false

theorem rowsOnly_grouped : RowsOnly Grouped where
  stable := PlainReadable.stable_albums
  settings _ _ _ hm := ⟨hm.1.of_eq rfl rfl rfl, hm.2⟩

theorem grouped_handleInsertMessages {m : ChatMessagesModel} (hm : Grouped m) {messages : List QVariantMap}
    (hd : (messages.map messageIdOf).Nodup) : Grouped (m.handleInsertMessages messages).1 := by
  have hends : InsertsAtEnds m := PlainReadable.insertsAtEnds hm.2
  refine ⟨hm.1.handleInsertMessages hends hd, ?_⟩
  rw [(handleInsertMessages_sameMembers hends messages).own]
  exact hm.2

theorem grouped_step (m : ChatMessagesModel) (e : Event) (hm : Grouped m) (he : AlbumStep m e) :
    Grouped (step m e) := by
  cases e with
  | handleInsertMessages messages => exact grouped_handleInsertMessages hm he
  | messagesReceived chatId extra messages totalCount =>
      exact rowsOnly_grouped.history hm fun _ _ => grouped_handleInsertMessages hm he
  | foundChatMessagesReceived chatId filter extra messages totalCount =>
      exact rowsOnly_grouped.found hm fun _ _ _ => grouped_handleInsertMessages hm he
  | newMessageReceived chatId message =>
      rw [step, handle, handleNewMessageReceived]
      split_ifs
      · have hends : InsertsAtEnds m := PlainReadable.insertsAtEnds hm.2
        refine ⟨hm.1.handleNewMessageReceived hends message, ?_⟩
        dsimp only
        rw [(handleNewMessageReceived_sameMembers hends message).own]
        exact hm.2
      · exact hm
  | messagesDeleted chatId messageIds =>
      refine ⟨hm.1.handleMessagesDeleted chatId messageIds, ?_⟩
      rw [step, handle, (handleMessagesDeleted_deletes m chatId messageIds).sameMembers.own]
      exact hm.2
  | messageSendSucceeded | sponsoredMessagesReceived => exact he.elim
  | _ => exact rowsOnly_grouped.call hm rfl

end ChatMessagesModel

namespace ForumTopicMessagesModel

/-- The steps of a forum topic in which no sent message is confirmed: a batch lists no message twice. -/
def AlbumStep (_ : ForumTopicMessagesModel) : Event → Prop
  | .handleInsertMessages messages => (messages.map messageIdOf).Nodup
  | .forumTopicMessagesReceived _ _ _ messages _ => (messages.map messageIdOf).Nodup
  | .messageSendSucceeded .. => False
  | _ => True

instance (m : ForumTopicMessagesModel) : ∀ e : Event, Decidable (AlbumStep m e) := by
  rintro (_ | _) <;> dsimp only [AlbumStep] <;> infer_instance

theorem rowsOnly_albumsKept : RowsOnly fun m => m.AlbumsKept where
  stable :=
    { members := fun _ _ _ _ hm => hm.of_eq rfl rfl rfl
      clear := fun hm => (PlainReadable.stable_albums.clear ⟨hm, trivial⟩).1
      prepare := fun totalCount fromUpdate hm =>
        (PlainReadable.stable_albums.prepare totalCount fromUpdate ⟨hm, trivial⟩).1 }
  own _ hm := hm.of_eq rfl rfl rfl

theorem albumsKept_step (m : ForumTopicMessagesModel) (e : Event) (hm : m.AlbumsKept) (he : AlbumStep m e) :
    (step m e).AlbumsKept := by
  cases e with
  | handleInsertMessages messages => exact hm.handleInsertMessages (insertsAtEnds m) he
  | forumTopicMessagesReceived chatId forumTopicId extra messages totalCount =>
      exact rowsOnly_albumsKept.history hm fun _ _ => hm.handleInsertMessages (insertsAtEnds m) he
  | newMessageReceived chatId message =>
      rw [step, handle, handleNewMessageReceived]
      split_ifs
      · exact hm.handleNewMessageReceived (insertsAtEnds m) message
      · exact hm
  | messagesDeleted chatId messageIds => exact hm.handleMessagesDeleted chatId messageIds
  | messageSendSucceeded => exact he.elim
  | _ => exact rowsOnly_albumsKept.call hm rfl

end ForumTopicMessagesModel

/-- **The albums of the readable models.** In every state a new chat or forum topic reaches, the albums are grouped
under their first loaded messages, and `albumMessageMap` lists what is loaded of each. -/
theorem albums_grouped :
    (∀ chatId chatInformation (es : List ChatMessagesModel.Event),
      Along ChatMessagesModel.step ChatMessagesModel.AlbumStep (ChatMessagesModel.new chatId chatInformation) es →
      AlbumsGrouped (run ChatMessagesModel.step (ChatMessagesModel.new chatId chatInformation) es)) ∧
    (∀ chatId (es : List ForumTopicMessagesModel.Event),
      Along ForumTopicMessagesModel.step ForumTopicMessagesModel.AlbumStep (ForumTopicMessagesModel.new chatId)
        es →
      AlbumsGrouped (run ForumTopicMessagesModel.step (ForumTopicMessagesModel.new chatId) es)) := by
  constructor
  · intro chatId chatInformation es hes
    have hstart : ChatMessagesModel.Grouped (ChatMessagesModel.new chatId chatInformation) :=
      ⟨.empty rfl rfl rfl, rfl⟩
    exact (Along.invariant ChatMessagesModel.grouped_step hstart hes).1.grouped
  · intro chatId es hes
    have hstart : (ForumTopicMessagesModel.new chatId).AlbumsKept := .empty rfl rfl rfl
    exact (Along.invariant (I := AlbumsKept) ForumTopicMessagesModel.albumsKept_step hstart hes).grouped

/-- A message of an album. -/
def albumMessageOf (chatId messageId albumId : Int) : QVariantMap :=
  messageOf chatId messageId ++ [(MEDIA_ALBUM_ID, .longLong albumId)]

/-- The later half of an album is loaded first, and its first message is deleted again. -/
theorem albums_grouped_runs :
    AlbumsGrouped (run ChatMessagesModel.step (ChatMessagesModel.new 7 [])
      [.messagesReceived 7 .updateInitial [albumMessageOf 7 6 1, albumMessageOf 7 5 1] 2, .loadMoreHistory,
        .messagesReceived 7 .updatePreviousSlice [albumMessageOf 7 4 1, messageOf 7 3] 2,
        .messagesDeleted 7 [4]]) ∧
    AlbumsGrouped (run ForumTopicMessagesModel.step (ForumTopicMessagesModel.new 7)
      [.handleInsertMessages [albumMessageOf 7 6 1, albumMessageOf 7 5 1], .messagesDeleted 7 [5, 6]]) :=
  ⟨albums_grouped.1 7 [] _ (by decide), albums_grouped.2 7 _ (by decide)⟩

end YaqtLib
