import YaqtLib.Albums
import YaqtLib.ChatData
import YaqtLib.RowSignals

/-! Sequences of rows (`chat/readablemessagesmodel.cpp`): a row is the first or the last of a sequence by the rows
beside it, and for the row that shows an album by the row behind the last message of the album. -/

namespace YaqtLib

open Containers IndexMap TdConst Views

namespace MessageData

def senderId (message : MessageData) : Account.MessageSender := .of (message.messageData.value SENDER_ID).toMap

def date (message : MessageData) : Int := (message.messageData.value DATE).toInt

def areTogether (message1 message2 : MessageData) : Bool :=
  if Account.ChatData.messageContentIsService message1.messageContentType ||
      Account.ChatData.messageContentIsService message2.messageContentType then false
  else if message1.senderId ≠ message2.senderId then false
  else (message1.date - message2.date).natAbs ≤ 900

theorem areTogether_comm (message1 message2 : MessageData) :
    areTogether message1 message2 = areTogether message2 message1 := by
  rw [areTogether, areTogether, Bool.or_comm, ← Int.neg_sub, Int.natAbs_neg]
  simp only [ne_eq, eq_comm]

theorem areTogether_body (message1 message2 : MessageData) :
    areTogether message1.body message2.body = areTogether message1 message2 := rfl

end MessageData

open MessageData

namespace MessagesModel

variable {Own : Type}

/-- `areTogether` of two rows; the callers have them. -/
def rowsTogether (m : MessagesModel Own) (row1 row2 : Nat) : Bool :=
  match m.messages[row1]?, m.messages[row2]? with
  | some message1, some message2 => areTogether message1 message2
  | _, _ => false

def messageIsFirstInSequence (m : MessagesModel Own) (index : Nat) (message : MessageData) : Bool :=
  if index = 0 then true
  else if message.albumEntryFilter then false
  else !(m.messages[index - 1]?).any message.areTogether

def messageIsLastInSequence (m : MessagesModel Own) (index : Nat) (message : MessageData) : Bool :=
  if index + 1 = m.messages.length then true
  else if message.albumEntryFilter then false
  else
    match message.albumMessageIds.max?.bind m.messageIndexMap.value with
    | some lastMessageIndex =>
        if lastMessageIndex + 1 = m.messages.length then true
        else !m.rowsTogether lastMessageIndex (lastMessageIndex + 1)
    | none => !(m.messages[index + 1]?).any message.areTogether

end MessagesModel

/-- The signal says that a role of the row with an id changed, at the index the row has; no roles at all stand for
all of them. -/
def RowSignal.announces (role : MessageRole) (messageId : Int) (signal : RowSignal) : Bool :=
  match signal.change with
  | .dataChanged (some index) roles =>
      (roles.isEmpty || decide (role ∈ roles)) && signal.rows[index]? == some messageId
  | _ => false

def Announced (signals : List RowSignal) (role : MessageRole) (messageId : Int) : Prop :=
  ∃ signal ∈ signals, RowSignal.announces role messageId signal = true

/-- Every row that is there before and after an operation and is the first or the last of a sequence only before or
only after it is announced with the role; `newId` is the id a row has afterwards. -/
def SequencesAnnounced {Own : Type} (m m' : MessagesModel Own) (newId : Int → Int) (signals : List RowSignal) : Prop :=
  ∀ (i i' : Nat) (row row' : MessageData), m.messages[i]? = some row → m'.messages[i']? = some row' →
    row'.messageId = newId row.messageId →
    (m.messageIsFirstInSequence i row ≠ m'.messageIsFirstInSequence i' row' →
      Announced signals .isFirstInSequence row'.messageId) ∧
    (m.messageIsLastInSequence i row ≠ m'.messageIsLastInSequence i' row' →
      Announced signals .isLastInSequence row'.messageId)

/-! ### What the roles say of the rows -/

namespace Sequence

/-- The ids of the rows of an album. -/
def albumIds (rows : List MessageData) (albumId : Int) : List Int :=
  (rows.filter fun row => row.mediaAlbumId == albumId).map MessageData.messageId

/-- The row is in no album, or the first message of its album. -/
def Shows (rows : List MessageData) (row : MessageData) : Prop :=
  row.mediaAlbumId = 0 ∨ ∀ k ∈ albumIds rows row.mediaAlbumId, row.messageId ≤ k

/-- The last message of the album of a row, or the row. -/
def albumEnd (rows : List MessageData) (row : MessageData) : Int :=
  if row.mediaAlbumId = 0 then row.messageId else (albumIds rows row.mediaAlbumId).max?.getD row.messageId

/-- Behind the row with an id is none that is together with it. -/
def Closes (rows : List MessageData) (messageId : Int) : Prop :=
  ∀ pair ∈ rows.zip rows.tail, pair.1.messageId = messageId → areTogether pair.1 pair.2 = false

instance (rows : List MessageData) (row : MessageData) : Decidable (Shows rows row) :=
  inferInstanceAs (Decidable (_ ∨ _))

instance (rows : List MessageData) (messageId : Int) : Decidable (Closes rows messageId) :=
  inferInstanceAs (Decidable (∀ _ ∈ _, _))

def IsFirst (rows : List MessageData) (i : Nat) (row : MessageData) : Prop :=
  i = 0 ∨ Shows rows row ∧ ∀ previous, rows[i - 1]? = some previous → areTogether row previous = false

def IsLast (rows : List MessageData) (i : Nat) (row : MessageData) : Prop :=
  i + 1 = rows.length ∨ Shows rows row ∧ Closes rows (albumEnd rows row)

variable {rows : List MessageData} {row : MessageData}

theorem mem_zip_tail {pair : MessageData × MessageData} :
    pair ∈ rows.zip rows.tail ↔ ∃ j, rows[j]? = some pair.1 ∧ rows[j + 1]? = some pair.2 := by
  rw [List.mem_iff_getElem?]
  refine exists_congr fun j => ?_
  rw [List.getElem?_zip_eq_some, List.getElem?_tail]

/-- A row is found by its id. -/
theorem index_unique (hd : (rows.map MessageData.messageId).Nodup) {i j : Nat} {row row' : MessageData}
    (hi : rows[i]? = some row) (hj : rows[j]? = some row') (hid : row.messageId = row'.messageId) : i = j := by
  have hi' : (rows.map MessageData.messageId)[i]? = some row'.messageId := by rw [List.getElem?_map, hi, ← hid]; rfl
  have hj' : (rows.map MessageData.messageId)[j]? = some row'.messageId := by rw [List.getElem?_map, hj]; rfl
  have hlt : i < (rows.map MessageData.messageId).length := (List.getElem?_eq_some_iff.mp hi').1
  exact (List.getElem?_inj hlt hd).mp (hi'.trans hj'.symm)

theorem closes_iff (hd : (rows.map MessageData.messageId).Nodup) {i : Nat} (hi : rows[i]? = some row) :
    Closes rows row.messageId ↔ ∀ next, rows[i + 1]? = some next → areTogether row next = false := by
  constructor
  · intro h next hnext
    exact h (row, next) (mem_zip_tail.mpr ⟨i, hi, hnext⟩) rfl
  · rintro h ⟨row', next⟩ hpair hid
    obtain ⟨j, hj, hnext⟩ := mem_zip_tail.mp hpair
    obtain rfl := index_unique hd hi hj hid.symm
    obtain rfl : row' = row := Option.some.inj (hj.symm.trans hi)
    exact h next hnext

theorem mem_albumIds {albumId k : Int} :
    k ∈ albumIds rows albumId ↔ ∃ row ∈ rows, row.mediaAlbumId = albumId ∧ row.messageId = k := by
  simp [albumIds, and_assoc]

theorem max?_of_perm {l l' : List Int} (h : l.Perm l') : l.max? = l'.max? := by
  cases hmax : l'.max? with
  | none =>
      rw [List.max?_eq_none_iff] at hmax ⊢
      rw [hmax] at h
      exact h.eq_nil
  | some k =>
      rw [List.max?_eq_some_iff] at hmax ⊢
      exact ⟨h.mem_iff.mpr hmax.1, fun b hb => hmax.2 b (h.mem_iff.mp hb)⟩

end Sequence

open Sequence

namespace MessagesModel

variable {Own : Type} {m : MessagesModel Own} {i : Nat} {row : MessageData}

/-- The rows that are filtered are those that do not show their albums. -/
theorem AlbumsKept.albumEntryFilter_iff (h : m.AlbumsKept) (hrow : row ∈ m.messages) :
    row.albumEntryFilter = false ↔ Sequence.Shows m.messages row := by
  have hentry : row.albumEntryFilter = (entryOf (m.listOf row.mediaAlbumId) row.messageId).1 :=
    congrArg Prod.fst (h.follow.entries row hrow)
  rw [hentry]
  by_cases ha : row.mediaAlbumId = 0
  · rw [entryOf_of_not_mem (by rw [listOf, if_pos ha]; exact List.not_mem_nil)]
    exact iff_of_true rfl (Or.inl ha)
  have hsorted := h.follow.sorted row.mediaAlbumId
  have hmem : row.messageId ∈ m.listOf row.mediaAlbumId := (h.follow.mem row hrow _ ha).mpr ⟨trivial, rfl⟩
  have hlist : ∀ k, k ∈ m.listOf row.mediaAlbumId ↔ k ∈ albumIds m.messages row.mediaAlbumId := fun k => by
    rw [h.listOf_eq ha]
    exact (List.perm_insertionSort _ _).mem_iff
  rw [Sequence.Shows, or_iff_right ha]
  simp only [← hlist]
  generalize m.listOf row.mediaAlbumId = list at hsorted hmem
  cases list with
  | nil => exact absurd hmem List.not_mem_nil
  | cons first rest =>
      rw [List.pairwise_cons] at hsorted
      rw [entryOf, List.head?_cons]
      split_ifs with hfirst
      · obtain rfl := Option.some.inj hfirst
        exact iff_of_true rfl fun k hk =>
          (List.mem_cons.mp hk).elim (fun heq => heq.symm.le) fun hrest => (hsorted.1 k hrest).le
      · have hlt := hsorted.1 _ ((List.mem_cons.mp hmem).resolve_left fun heq => hfirst (congrArg some heq.symm))
        refine iff_of_false (by simp) fun hall => ?_
        exact absurd (hall first List.mem_cons_self) (not_le.mpr hlt)

theorem AlbumsKept.isFirst_iff (h : m.AlbumsKept) (hi : m.messages[i]? = some row) :
    m.messageIsFirstInSequence i row = true ↔ IsFirst m.messages i row := by
  rw [messageIsFirstInSequence, IsFirst, ← h.albumEntryFilter_iff (List.mem_of_getElem? hi)]
  split_ifs with hzero hfilter
  · exact iff_of_true rfl (Or.inl hzero)
  · simp [hzero, hfilter]
  · rw [Bool.not_eq_true] at hfilter
    rw [or_iff_right hzero, and_iff_right hfilter]
    cases m.messages[i - 1]? with
    | none => simp
    | some previous => simp

/-- The row that shows an album names the last message of it. -/
theorem AlbumsKept.albumEnd_eq (h : m.AlbumsKept) (hrow : row ∈ m.messages) (hshows : Sequence.Shows m.messages row) :
    row.mediaAlbumId = 0 ∧ row.albumMessageIds = [] ∨
      row.mediaAlbumId ≠ 0 ∧ row.albumMessageIds.max? = some (albumEnd m.messages row) ∧
        ∃ last ∈ m.messages, last.messageId = albumEnd m.messages row := by
  have hentry := h.follow.entries row hrow
  by_cases ha : row.mediaAlbumId = 0
  · rw [entryOf_of_not_mem (by rw [listOf, if_pos ha]; exact List.not_mem_nil)] at hentry
    exact Or.inl ⟨ha, congrArg Prod.snd hentry⟩
  have hfilter : (entryOf (m.listOf row.mediaAlbumId) row.messageId).1 = false := by
    rw [← hentry]
    exact (h.albumEntryFilter_iff hrow).mpr hshows
  have hmem : row.messageId ∈ m.listOf row.mediaAlbumId := (h.follow.mem row hrow _ ha).mpr ⟨trivial, rfl⟩
  have hids : row.albumMessageIds = m.listOf row.mediaAlbumId := by
    rw [entryOf] at hentry hfilter
    split_ifs at hentry hfilter with hhead
    exact congrArg Prod.snd hentry
  have hperm : (m.listOf row.mediaAlbumId).Perm (albumIds m.messages row.mediaAlbumId) := by
    rw [h.listOf_eq ha]
    exact List.perm_insertionSort _ _
  refine Or.inr ⟨ha, ?_⟩
  rw [hids, max?_of_perm hperm, albumEnd, if_neg ha]
  cases hmax : (albumIds m.messages row.mediaAlbumId).max? with
  | none =>
      rw [List.max?_eq_none_iff] at hmax
      rw [hmax] at hperm
      rw [hperm.eq_nil] at hmem
      exact absurd hmem List.not_mem_nil
  | some k =>
      obtain ⟨last, hlast, -, hid⟩ := mem_albumIds.mp (List.max?_eq_some_iff.mp hmax).1
      exact ⟨rfl, last, hlast, hid⟩

theorem AlbumsKept.isLast_iff (h : m.AlbumsKept) (hi : m.messages[i]? = some row) :
    m.messageIsLastInSequence i row = true ↔ IsLast m.messages i row := by
  have hrow := List.mem_of_getElem? hi
  have hd := h.indexExact.nodup
  rw [messageIsLastInSequence, IsLast]
  split_ifs with hend hfilter
  · exact iff_of_true rfl (Or.inl hend)
  · refine iff_of_false not_false ?_
    rintro (hend' | ⟨hshows, -⟩)
    · exact hend hend'
    · rw [← h.albumEntryFilter_iff hrow, hfilter] at hshows
      exact absurd hshows Bool.true_eq_false.mp
  · rw [Bool.not_eq_true, h.albumEntryFilter_iff hrow] at hfilter
    rw [or_iff_right hend, and_iff_right hfilter]
    rcases h.albumEnd_eq hrow hfilter with ⟨ha, hids⟩ | ⟨-, hmax, last, hlast, hid⟩
    · rw [hids, List.max?_nil, Option.bind_none, albumEnd, if_pos ha, closes_iff hd hi]
      cases m.messages[i + 1]? with
      | none => simp
      | some next => simp
    · obtain ⟨j, hj⟩ := List.mem_iff_getElem?.mp hlast
      rw [hmax, Option.bind_some, ← hid, Indexes.value_of_getElem h.indexExact hj rfl, closes_iff hd hj]
      dsimp only
      split_ifs with hlast'
      · refine iff_of_true rfl fun next hnext => ?_
        have hlt := (List.getElem?_eq_some_iff.mp hnext).1
        omega
      · rw [rowsTogether, hj]
        cases m.messages[j + 1]? with
        | none => simp
        | some next => simp

end MessagesModel

end YaqtLib
