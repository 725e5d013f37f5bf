import YaqtLib.AlbumRoles
import YaqtLib.BoolFilterModel
import YaqtLib.MessageSetters
import YaqtLib.Sequences

/-! The messages of a chat or of a forum topic without the entries of albums: a filter of the rows
(`boolfiltermodel.cpp`) by the role `album_entry_filter`, through which each album is one row. -/

namespace YaqtLib

open Containers IndexMap MessagesModel Runs TdConst

namespace MessageRole

def toInt : MessageRole → Int
  | .display => DISPLAY_ROLE
  | .messageId => 1
  | .isSponsored => 2
  | .messageContentType => 3
  | .messageViewCount => 4
  | .messageReactions => 5
  | .messageAlbumEntryFilter => 6
  | .messageAlbumId => 7
  | .messageAlbumMessageIds => 8
  | .messageAlbumMessages => 9
  | .generatedContentUnread => 10
  | .isFirstInSequence => 11
  | .isLastInSequence => 12

def name : MessageRole → String
  | .display => "display"
  | .messageId => "message_id"
  | .isSponsored => "is_sponsored"
  | .messageContentType => "content_type"
  | .messageViewCount => "view_count"
  | .messageReactions => "reactions"
  | .messageAlbumEntryFilter => "album_entry_filter"
  | .messageAlbumId => "album_id"
  | .messageAlbumMessageIds => "album_message_ids"
  | .messageAlbumMessages => "album_messages"
  | .generatedContentUnread => "generated_content_unread"
  | .isFirstInSequence => "is_first_in_sequence"
  | .isLastInSequence => "is_last_in_sequence"

def all : List MessageRole :=
  [.display, .messageId, .isSponsored, .messageContentType, .messageViewCount, .messageReactions,
    .messageAlbumEntryFilter, .messageAlbumId, .messageAlbumMessageIds, .messageAlbumMessages, .generatedContentUnread,
    .isFirstInSequence, .isLastInSequence]

end MessageRole

namespace MessagesModel

variable {Own : Type} (m : MessagesModel Own)

def roleNames : List (Int × String) := MessageRole.all.map fun role => (role.toInt, role.name)

/-- The data of a row for a role, with what other rows have a part in; a read behind the last row, where a message of
an album is gone, is left out. -/
def dataOf (row : Nat) (message : MessageData) : MessageRole → QVariant
  | .messageAlbumMessages => .list ((m.getMessages message.albumMessageIds).reduceOption.map QVariant.map)
  | .isFirstInSequence => .bool (m.messageIsFirstInSequence row message)
  | .isLastInSequence => .bool (m.messageIsLastInSequence row message)
  | role => message.roleData role

def data (row : Nat) (role : Int) : QVariant :=
  match m.messages[row]?, MessageRole.all.find? fun r => r.toInt = role with
  | some message, some role => m.dataOf row message role
  | _, _ => .invalid

def source : SourceModel := { rowCount := m.messages.length, data := m.data, roleNames := roleNames }

end MessagesModel

/-- A filter that leaves out the entries of albums. -/
structure IsAlbumView {Own : Type} (v : BoolFilterModel) (m : MessagesModel Own) : Prop where
  source : v.sourceModel = some m.source
  filterRoleName : v.filterRoleName = "album_entry_filter"
  filterValue : v.filterValue = false

/-- The rows of the filter are the messages that are in no album and one row for each album, with the ids of all its
loaded messages. From a message without an album one gets to its own row, and from one in an album backwards to the row
of the album, if no other message lies between them. -/
structure ShowsAlbums {Own : Type} (v : BoolFilterModel) (m : MessagesModel Own) : Prop where
  rows : ∀ i row, m.messages[i]? = some row → (i ∈ v.rows ↔ Sequence.Shows m.messages row)
  album : ∀ albumId, albumId ≠ 0 → (∃ row ∈ m.messages, row.mediaAlbumId = albumId) →
    ∃ i main, i ∈ v.rows ∧ m.messages[i]? = some main ∧ main.mediaAlbumId = albumId ∧
      main.albumMessageIds = m.albumIdsOf albumId ∧
      ∀ i' row, i' ∈ v.rows → m.messages[i']? = some row → row.mediaAlbumId = albumId → i' = i
  single : ∀ (i : Nat) row (fallbackDirection : Int), m.messages[i]? = some row → row.mediaAlbumId = 0 →
    v.mapRowToSource (v.mapRowFromSource i fallbackDirection) = i
  entry : ∀ (i j : Nat) row, m.messages[i]? = some row → j ≤ i → j ∈ v.rows →
    (∀ k row', j ≤ k → k ≤ i → m.messages[k]? = some row' → row'.mediaAlbumId = row.mediaAlbumId) →
    row.mediaAlbumId ≠ 0 → v.mapRowToSource (v.mapRowFromSource i (-1)) = j

namespace IsAlbumView

variable {Own : Type} {v : BoolFilterModel} {m : MessagesModel Own}

theorem filterAcceptsRow (h : IsAlbumView v m) (hrole : v.updateFilterRole = v) {i : Nat} {row : MessageData}
    (hrow : m.messages[i]? = some row) : v.filterAcceptsRow i = !row.albumEntryFilter := by
  have hfilterRole : v.filterRole = MessageRole.messageAlbumEntryFilter.toInt := by
    rw [← hrole, BoolFilterModel.updateFilterRole]
    dsimp only
    rw [h.source, h.filterRoleName]
    rfl
  have hdata : m.data i MessageRole.messageAlbumEntryFilter.toInt = .bool row.albumEntryFilter := by
    rw [MessagesModel.data, hrow]
    rfl
  rw [BoolFilterModel.filterAcceptsRow, h.source, hfilterRole, h.filterValue]
  change ((m.data i MessageRole.messageAlbumEntryFilter.toInt).toBool == false) = _
  rw [hdata]
  cases row.albumEntryFilter <;> rfl

theorem mem_rows (h : IsAlbumView v m) (hrole : v.updateFilterRole = v) {i : Nat} {row : MessageData}
    (hrow : m.messages[i]? = some row) : i ∈ v.rows ↔ row.albumEntryFilter = false := by
  have hlt : i < v.sourceRowCount := by
    rw [BoolFilterModel.sourceRowCount, h.source]
    exact (List.getElem?_eq_some_iff.mp hrow).1
  rw [BoolFilterModel.mem_rows, h.filterAcceptsRow hrole hrow, and_iff_right hlt, Bool.not_eq_true']

/-- A row of an album that is a row of the filter is the only one. -/
theorem shown_unique (h : IsAlbumView v m) (hrole : v.updateFilterRole = v) (hm : m.AlbumsGrouped) {i j : Nat}
    {row row' : MessageData} (hi : m.messages[i]? = some row) (hj : m.messages[j]? = some row')
    (halbum : row.mediaAlbumId = row'.mediaAlbumId) (hne : row.mediaAlbumId ≠ 0) (hshown : i ∈ v.rows)
    (hshown' : j ∈ v.rows) : i = j := by
  have hrow := List.mem_of_getElem? hi
  have hrow' := List.mem_of_getElem? hj
  obtain ⟨main, -, -, -, -, hothers⟩ := hm.main row.mediaAlbumId hne ⟨row, hrow, rfl⟩
  have hmain : ∀ other ∈ m.messages, other.mediaAlbumId = row.mediaAlbumId → other.albumEntryFilter = false →
      other.messageId = main.messageId := by
    intro other hother hotheralbum hfilter
    by_contra hid
    rw [(hothers other hother hotheralbum hid).2.1] at hfilter
    cases hfilter
  refine Sequence.index_unique hm.distinct hi hj ?_
  rw [hmain row hrow rfl ((h.mem_rows hrole hi).mp hshown),
    hmain row' hrow' halbum.symm ((h.mem_rows hrole hj).mp hshown')]

theorem exists_message (h : IsAlbumView v m) {i : Nat} (hi : i ∈ v.rows) : ∃ row, m.messages[i]? = some row := by
  have hlt := (BoolFilterModel.mem_rows.mp hi).1
  rw [BoolFilterModel.sourceRowCount, h.source] at hlt
  exact ⟨_, List.getElem?_eq_getElem hlt⟩

/-- **The view of the albums.** -/
theorem showsAlbums (h : IsAlbumView v m) (hv : v.MapsRows) (hm : m.AlbumsKept) : ShowsAlbums v m where
  rows i row hrow := (h.mem_rows hv.role hrow).trans (hm.albumEntryFilter_iff (List.mem_of_getElem? hrow))
  album := by
    intro albumId hne hloaded
    obtain ⟨main, hmain, halbum, hfilter, hids, -⟩ := hm.grouped.main albumId hne hloaded
    obtain ⟨i, hi⟩ := List.mem_iff_getElem?.mp hmain
    have hshown := (h.mem_rows hv.role hi).mpr hfilter
    refine ⟨i, main, hshown, hi, halbum, hids, fun i' row hshown' hrow hrowalbum => ?_⟩
    exact h.shown_unique hv.role hm.grouped hrow hi (hrowalbum.trans halbum.symm) (hrowalbum ▸ hne) hshown' hshown
  single := by
    intro i row fallbackDirection hrow hzero
    have hmem := (h.mem_rows hv.role hrow).mpr (hm.grouped.single row (List.mem_of_getElem? hrow) hzero).1
    rw [hv.found _ _ _ (Int.natCast_nonneg i), Int.toNat_natCast]
    exact ⟨hmem, fun _ => rfl, fun hnot => absurd hmem hnot⟩
  entry := by
    intro i j row hrow hle hshown hbetween hne
    obtain ⟨first, hfirst⟩ := h.exists_message hshown
    have hsame : ∀ k, j ≤ k → k ≤ i → k ∈ v.rows → k = j := by
      intro k hjk hki hk
      obtain ⟨row', hrow'⟩ := h.exists_message hk
      have halbum := hbetween k row' hjk hki hrow'
      have halbum' := hbetween j first (Nat.le_refl j) hle hfirst
      exact h.shown_unique hv.role hm.grouped hrow' hfirst (halbum.trans halbum'.symm) (halbum ▸ hne) hk hshown
    rw [hv.found _ _ _ (Int.natCast_nonneg i), Int.toNat_natCast]
    refine ⟨hshown, fun hi => (hsame i hle (Nat.le_refl i) hi).symm, fun hi => Or.inr ⟨by decide, ?_, ?_⟩⟩
    · refine Nat.lt_of_le_of_ne hle fun heq => hi ?_
      rw [← heq]
      exact hshown
    · intro k hk hki
      by_contra hjk
      exact hjk (Nat.le_of_eq (hsame k (Nat.le_of_not_le hjk) (Nat.le_of_lt hki) hk))

end IsAlbumView

/-- **The view of a chat and of a forum topic.** In every state a new chat or forum topic reaches, a filter that was
set up in any order to leave out the entries of albums shows the albums. -/
theorem albums_shown_once (settings : List BoolFilterModel.Event) :
    (∀ chatId chatInformation (es : List ChatMessagesModel.Event),
      Along ChatMessagesModel.step ChatMessagesModel.AlbumStep (ChatMessagesModel.new chatId chatInformation) es →
      IsAlbumView (run BoolFilterModel.step .new settings)
        (run ChatMessagesModel.step (ChatMessagesModel.new chatId chatInformation) es) →
      ShowsAlbums (run BoolFilterModel.step .new settings)
        (run ChatMessagesModel.step (ChatMessagesModel.new chatId chatInformation) es)) ∧
    (∀ chatId (es : List ForumTopicMessagesModel.Event),
      Along ForumTopicMessagesModel.step ForumTopicMessagesModel.AlbumStep (ForumTopicMessagesModel.new chatId) es →
      IsAlbumView (run BoolFilterModel.step .new settings)
        (run ForumTopicMessagesModel.step (ForumTopicMessagesModel.new chatId) es) →
      ShowsAlbums (run BoolFilterModel.step .new settings)
        (run ForumTopicMessagesModel.step (ForumTopicMessagesModel.new chatId) es)) := by
  have hmaps := BoolFilterModel.mapsRows (BoolFilterModel.updateFilterRole_run settings)
  constructor
  · intro chatId chatInformation es hes hview
    have hstart : ChatMessagesModel.Grouped (ChatMessagesModel.new chatId chatInformation) := ⟨.empty rfl rfl rfl, rfl⟩
    exact hview.showsAlbums hmaps (Along.invariant ChatMessagesModel.grouped_step hstart hes).1
  · intro chatId es hes hview
    have hstart : (ForumTopicMessagesModel.new chatId).AlbumsKept := .empty rfl rfl rfl
    exact hview.showsAlbums hmaps (Along.invariant (I := AlbumsKept) ForumTopicMessagesModel.albumsKept_step hstart hes)

/-- A filter that is set up before it has its source. -/
def albumViewOf {Own : Type} (m : MessagesModel Own) : List BoolFilterModel.Event :=
  [.setFilterRoleName "album_entry_filter", .setFilterValue false, .setSourceModel (some m.source)]

/-- The later half of an album is loaded first, and its first message is deleted again. -/
theorem albums_shown_once_runs :
    ShowsAlbums
      (run BoolFilterModel.step .new (albumViewOf (run ChatMessagesModel.step (ChatMessagesModel.new 7 [])
        [.messagesReceived 7 .updateInitial [albumMessageOf 7 6 1, albumMessageOf 7 5 1] 2, .loadMoreHistory,
          .messagesReceived 7 .updatePreviousSlice [albumMessageOf 7 4 1, messageOf 7 3] 2,
          .messagesDeleted 7 [4]])))
      (run ChatMessagesModel.step (ChatMessagesModel.new 7 [])
        [.messagesReceived 7 .updateInitial [albumMessageOf 7 6 1, albumMessageOf 7 5 1] 2, .loadMoreHistory,
          .messagesReceived 7 .updatePreviousSlice [albumMessageOf 7 4 1, messageOf 7 3] 2,
          .messagesDeleted 7 [4]]) ∧
    ShowsAlbums
      (run BoolFilterModel.step .new (albumViewOf (run ForumTopicMessagesModel.step (ForumTopicMessagesModel.new 7)
        [.handleInsertMessages [albumMessageOf 7 6 1, albumMessageOf 7 5 1], .messagesDeleted 7 [5, 6]])))
      (run ForumTopicMessagesModel.step (ForumTopicMessagesModel.new 7)
        [.handleInsertMessages [albumMessageOf 7 6 1, albumMessageOf 7 5 1], .messagesDeleted 7 [5, 6]]) :=
  ⟨(albums_shown_once _).1 7 [] _ (by decide) ⟨rfl, rfl, rfl⟩, (albums_shown_once _).2 7 _ (by decide) ⟨rfl, rfl, rfl⟩⟩

end YaqtLib
