import YaqtLib.MediaMessagesModel
import YaqtLib.MessageRows
import YaqtLib.RangeDeletion

/-! What a deletion of messages takes out of the rows. The loop of `handleMessagesDeleted` collects neighbouring
rows and starts with the number of ids for "no row yet", in `MessagesModel`, which visits the ids from the end of
the list, and in `InvertedMediaMessagesModel`, which visits them from its front. The row with that number is
forgotten when it is deleted, unless both of its neighbours are. -/

namespace YaqtLib

open Containers IndexMap

namespace MessagesModel

open MessageData (body)

variable {Own : Type} {m : MessagesModel Own}

/-! ### The loop as a loop over the ids of the rows -/

theorem value_eq_idxOf? (hm : m.IndexExact) (id : Int) : m.messageIndexMap.value id = m.ids.idxOf? id := by
  apply Option.ext
  intro place
  rw [idxOf?_eq_some_iff_of_nodup hm.nodup, hm id place, ids, List.getElem?_map, Option.map_eq_some_iff]
  exact exists_congr fun row => and_congr_right fun _ => MessageData.key_eq_some

theorem ids_removeRange (m : MessagesModel Own) (first last : Nat) :
    (m.removeRange first last).ids = dropRange m.ids first last := by
  rw [dropRange]
  split_ifs with h
  · rw [(removeRange_same m h).ids_eq]
    exact map_eraseRange _ _ _ _
  · rw [removeRange, if_neg h]

/-- The range left at the end goes as well. -/
def deleteLeft (count : Nat) (collected : MessagesModel Own × Nat × Nat) : MessagesModel Own :=
  if collected.2.1 ≠ count ∧ collected.2.2 ≠ count then collected.1.removeRange collected.2.1 collected.2.2
  else collected.1

theorem deleteMessages_eq (m : MessagesModel Own) (messageIds : List Int) :
    m.deleteMessages messageIds =
      deleteLeft messageIds.length
        (deleteLoop messageIds.length m messageIds messageIds.length messageIds.length) := rfl

theorem ids_deleteLoop (count : Nat) (hm : m.IndexExact) (messageIds : List Int) {first last : Nat}
    (hlast : last = count ∨ last < m.messages.length) :
    (deleteLeft count (deleteLoop count m messageIds first last)).ids = sweep count m.ids messageIds first last := by
  induction messageIds generalizing m first last with
  | nil =>
      rw [deleteLoop, deleteLeft, sweep]
      dsimp only
      split_ifs
      · exact ids_removeRange m first last
      · rfl
  | cons id rest ih =>
      rw [deleteLoop, sweep, value_eq_idxOf? hm]
      cases hid : m.ids.idxOf? id with
      | none => exact ih hm hlast
      | some position =>
          have hposition : position < m.messages.length := Indexes.lt_length hm ((value_eq_idxOf? hm id).trans hid)
          have hlast' := ite_lt_of_bound hlast hposition
          dsimp only
          generalize (if last = count then position else last) = last' at hlast' ⊢
          generalize (if first = count then position else first) = first'
          split_ifs with hgap
          · rw [← ids_removeRange]
            exact ih (indexExact_removeRange hm hlast') (Or.inr (lt_length_removeRange (by omega) hposition))
          · exact ih hm (Or.inr hlast')

theorem ids_deleteMessages (hm : m.IndexExact) (messageIds : List Int) :
    (m.deleteMessages messageIds).ids =
      sweep messageIds.length m.ids messageIds messageIds.length messageIds.length := by
  rw [deleteMessages_eq]
  exact ids_deleteLoop _ hm messageIds (Or.inl rfl)

/-! ### Deletion and filtering -/

/-- The rows of `m'` are those of `m` whose ids are not in the list, as they were up to the albums. -/
def DeletionFilters (m m' : MessagesModel Own) (messageIds : List Int) : Prop :=
  m'.messages.map body = (m.messages.filter fun row => row.messageId ∉ messageIds).map body

/-- The ids that are loaded come in the list as `order` says for their rows, and if one of them has the row with the
number of ids, then both rows next to it are deleted too. -/
def DeletedInOrder (order : Nat → Nat → Prop) (m : MessagesModel Own) (messageIds : List Int) : Prop :=
  (places m.ids messageIds).Pairwise order ∧ UnsetAmongNeighbours messageIds.length (places m.ids messageIds)

/-- The lists for which it takes no accident to delete rows that do not come in order: no id is in the list twice,
and the number of ids is not, and does not become, the number of a row of theirs. -/
def NoAccident (m : MessagesModel Own) (messageIds : List Int) : Prop :=
  messageIds.Nodup ∧ FarFromUnset messageIds.length messageIds.length (places m.ids messageIds)

/-- Only the ids have to be compared: no row changes but for the albums. -/
theorem deletionFilters_iff_ids {m' : MessagesModel Own} (hm : m.IndexExact) (hdel : Deletes m m')
    (messageIds : List Int) :
    DeletionFilters m m' messageIds ↔ m'.ids = m.ids.filter fun id => id ∉ messageIds := by
  have hfilter : (m.ids.filter fun id => id ∉ messageIds) =
      ((m.messages.filter fun row => row.messageId ∉ messageIds).map body).map MessageData.messageId := by
    rw [ids, List.filter_map, List.map_map]
    rfl
  have hids : ∀ rows : List MessageData, rows.map MessageData.messageId = (rows.map body).map MessageData.messageId := by
    intro rows
    rw [List.map_map]
    rfl
  have hd : ((m.messages.map body).map MessageData.messageId).Nodup := by
    rw [← hids]
    exact hm.nodup
  rw [hfilter, ids, hids]
  constructor
  · intro h
    rw [h]
  · intro h
    exact eq_of_map_eq hd hdel.sublist.subset (List.filter_sublist.map body).subset h

theorem deleteMessages_filters_iff (hm : m.IndexExact) (messageIds : List Int)
    (hdomain : (places m.ids messageIds).Pairwise (· ≥ ·) ∨ NoAccident m messageIds) :
    DeletionFilters m (m.deleteMessages messageIds) messageIds ↔ DeletedInOrder (· ≥ ·) m messageIds := by
  rw [deletionFilters_iff_ids hm (deleteMessages_deletes m messageIds), ids_deleteMessages hm]
  constructor
  · intro h
    have hdesc : (places m.ids messageIds).Pairwise (· ≥ ·) := by
      refine hdomain.elim id fun hno => ?_
      refine places_descending_of_sweep hm.nodup hno.1 hno.2 fun x hx => ?_
      rw [h, List.mem_filter, decide_eq_true_iff] at hx
      exact hx.2
    exact ⟨hdesc, (sweep_eq_filter_iff hm.nodup hdesc).mp h⟩
  · intro h
    exact (sweep_eq_filter_iff hm.nodup h.1).mpr h.2

theorem places_reverse (rows keys : List Int) : places rows keys.reverse = (places rows keys).reverse := by
  rw [places, List.filterMap_reverse, places]

theorem deletedInOrder_reverse (messageIds : List Int) :
    DeletedInOrder (· ≥ ·) m messageIds.reverse ↔ DeletedInOrder (· ≤ ·) m messageIds := by
  unfold DeletedInOrder UnsetAmongNeighbours
  rw [places_reverse, List.pairwise_reverse, List.length_reverse]
  simp only [List.mem_reverse, ge_iff_le]

theorem noAccident_reverse (messageIds : List Int) : NoAccident m messageIds.reverse ↔ NoAccident m messageIds := by
  unfold NoAccident FarFromUnset
  rw [places_reverse, List.nodup_reverse, List.length_reverse]
  simp only [List.mem_reverse]

theorem deletionFilters_reverse {m' : MessagesModel Own} (messageIds : List Int) :
    DeletionFilters m m' messageIds.reverse ↔ DeletionFilters m m' messageIds := by
  unfold DeletionFilters
  simp only [List.mem_reverse]

/-- `MessagesModel::handleMessagesDeleted` visits the list from its end. -/
theorem handleMessagesDeleted_filters_iff (hm : m.IndexExact) (messageIds : List Int)
    (hdomain : (places m.ids messageIds).Pairwise (· ≤ ·) ∨ NoAccident m messageIds) :
    DeletionFilters m (m.handleMessagesDeleted m.chatId messageIds) messageIds ↔
      DeletedInOrder (· ≤ ·) m messageIds := by
  rw [handleMessagesDeleted, if_pos rfl, ← deletionFilters_reverse, ← deletedInOrder_reverse]
  refine deleteMessages_filters_iff hm messageIds.reverse ?_
  rw [noAccident_reverse, places_reverse, List.pairwise_reverse]
  exact hdomain

end MessagesModel

namespace MediaMessagesModel

open MessagesModel

/-- `InvertedMediaMessagesModel::handleMessagesDeleted` visits the list from its front. -/
theorem handleMessagesDeleted_inverted_filters_iff {m : MediaMessagesModel} (hinverted : m.own.inverted = true)
    (hm : IndexExact m) (messageIds : List Int)
    (hdomain : (places (ids m) messageIds).Pairwise (· ≥ ·) ∨ NoAccident m messageIds) :
    DeletionFilters m (handleMessagesDeleted m m.chatId messageIds).1 messageIds ↔
      DeletedInOrder (· ≥ ·) m messageIds := by
  rw [handleMessagesDeleted, if_pos hinverted, if_pos rfl]
  exact deleteMessages_filters_iff hm messageIds hdomain

end MediaMessagesModel

/-! ### Every index-consistent model and every list -/

namespace MessagesModel

/-- **When a deletion filters.** It takes out exactly the rows of the listed ids if the ids that are loaded are listed
in the order of the rows and the row with the number of ids is deleted with both rows next to it or not at all. Nothing
else will do for a list in that order, or for one that no accident can help. The order is the one of the rows in
both classes, `MessagesModel` and `InvertedMediaMessagesModel`, but one visits the list from its end. -/
theorem deletion_filters_iff (messageIds : List Int) :
    (∀ {Own : Type} (m : MessagesModel Own), m.IndexExact →
      (DeletedInOrder (· ≤ ·) m messageIds →
        DeletionFilters m (m.handleMessagesDeleted m.chatId messageIds) messageIds) ∧
      ((places m.ids messageIds).Pairwise (· ≤ ·) ∨ NoAccident m messageIds →
        DeletionFilters m (m.handleMessagesDeleted m.chatId messageIds) messageIds →
        DeletedInOrder (· ≤ ·) m messageIds)) ∧
    ∀ m : MediaMessagesModel, m.own.inverted = true → IndexExact m →
      (DeletedInOrder (· ≥ ·) m messageIds →
        DeletionFilters m (MediaMessagesModel.handleMessagesDeleted m m.chatId messageIds).1 messageIds) ∧
      ((places (ids m) messageIds).Pairwise (· ≥ ·) ∨ NoAccident m messageIds →
        DeletionFilters m (MediaMessagesModel.handleMessagesDeleted m m.chatId messageIds).1 messageIds →
        DeletedInOrder (· ≥ ·) m messageIds) := by
  constructor
  · intro Own m hm
    exact ⟨fun h => (handleMessagesDeleted_filters_iff hm messageIds (Or.inl h.1)).mpr h,
      fun hdomain => (handleMessagesDeleted_filters_iff hm messageIds hdomain).mp⟩
  · intro m hinverted hm
    have hiff := MediaMessagesModel.handleMessagesDeleted_inverted_filters_iff hinverted hm messageIds
    exact ⟨fun h => (hiff (Or.inl h.1)).mpr h, fun hdomain => (hiff hdomain).mp⟩

/-- A model of either class with the messages 10, 20 and 30. -/
def threeRows (inverted : Bool) : MediaMessagesModel :=
  let row (messageId : Int) := MessageData.create (messageOf 0 messageId) messageId
  MessagesModel.appendMessages (MediaMessagesModel.new inverted .photo)
    (if inverted then [row 30, row 20, row 10] else [row 10, row 20, row 30])

theorem threeRows_indexExact (inverted : Bool) : IndexExact (threeRows inverted) := by
  have hempty : IndexExact (MediaMessagesModel.new inverted .photo) := Indexes.empty
  refine indexExact_appendMessages hempty ?_
  cases inverted <;> decide

/-- The first two rows of either model are deleted. -/
theorem deletion_filters_two :
    DeletionFilters (threeRows false)
      (MessagesModel.handleMessagesDeleted (threeRows false) (threeRows false).chatId [10, 20]) [10, 20] ∧
    DeletionFilters (threeRows true)
      (MediaMessagesModel.handleMessagesDeleted (threeRows true) (threeRows true).chatId [20, 30]).1 [20, 30] := by
  refine ⟨((deletion_filters_iff _).1 _ (threeRows_indexExact false)).1 ?_,
    ((deletion_filters_iff _).2 _ rfl (threeRows_indexExact true)).1 ?_⟩
  · exact ⟨by decide, fun h => absurd h (by decide)⟩
  · exact ⟨by decide, fun h => absurd h (by decide)⟩

/-- Deleting the message of the row with number 1 alone does nothing, in either class. -/
theorem not_deletion_filters :
    (¬∀ {Own : Type} (m : MessagesModel Own) (messageIds : List Int), m.IndexExact →
      DeletionFilters m (m.handleMessagesDeleted m.chatId messageIds) messageIds) ∧
    ¬∀ (m : MediaMessagesModel) (messageIds : List Int), m.own.inverted = true → IndexExact m →
      DeletionFilters m (MediaMessagesModel.handleMessagesDeleted m m.chatId messageIds).1 messageIds := by
  constructor
  · intro h
    have hfilter := h (threeRows false) [20] (threeRows_indexExact false)
    have hlen := congrArg List.length hfilter
    exact absurd hlen (by decide)
  · intro h
    have hfilter := h (threeRows true) [20] rfl (threeRows_indexExact true)
    have hlen := congrArg List.length hfilter
    exact absurd hlen (by decide)

end MessagesModel

end YaqtLib
