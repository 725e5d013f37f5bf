import YaqtLib.AlbumsModels
import YaqtLib.SentSequences

/-! What the operations of the readable models announce about the sequences, and when that is enough: batches and new
messages at either end, deletions, and messages that have been sent. -/

namespace YaqtLib

open Containers IndexMap Views MessageData Sequence

namespace MessagesModel

variable {Own : Type} {m : MessagesModel Own} {signals : List RowSignal} {role : MessageRole}

theorem announced_dataChanged {i : Nat} {messageId : Int} (hi : m.ids[i]? = some messageId)
    (hmem : m.dataChanged i [role] ∈ signals) : Announced signals role messageId := by
  have hlt : i < m.messages.length := by
    have := (List.getElem?_eq_some_iff.mp hi).1
    rwa [ids, List.length_map] at this
  refine ⟨_, hmem, ?_⟩
  rw [RowSignal.announces, dataChanged, signal, index, if_pos hlt]
  simp [hi]

/-- Rows that stay as they are. -/
theorem sequencesAnnounced_same {m' : MessagesModel Own} {newId : Int → Int} (h : m.AlbumsKept)
    (hrows : m'.messages = m.messages) (hindex : m'.messageIndexMap = m.messageIndexMap)
    (hnew : ∀ row ∈ m.messages, newId row.messageId = row.messageId) (signals : List RowSignal) :
    SequencesAnnounced m m' newId signals := by
  intro i i' row row' hi hi' hid
  rw [hrows] at hi'
  rw [hnew row (List.mem_of_getElem? hi)] at hid
  obtain rfl := index_unique h.indexExact.nodup hi hi' hid.symm
  obtain rfl : row = row' := Option.some.inj (hi.symm.trans hi')
  have hfirst : m'.messageIsFirstInSequence i row = m.messageIsFirstInSequence i row := by
    rw [messageIsFirstInSequence, messageIsFirstInSequence, hrows]
  have hlast : m'.messageIsLastInSequence i row = m.messageIsLastInSequence i row := by
    simp only [messageIsLastInSequence, rowsTogether, hrows, hindex]
  exact ⟨fun hne => absurd hfirst.symm hne, fun hne => absurd hlast.symm hne⟩

/-- Afterwards there are no rows. -/
theorem sequencesAnnounced_empty {m' : MessagesModel Own} (hrows : m'.messages = []) (newId : Int → Int)
    (signals : List RowSignal) : SequencesAnnounced m m' newId signals := by
  intro i i' row row' _ hi'
  rw [hrows] at hi'
  exact absurd hi' (by simp)

/-! ### New rows -/

section Virtual

variable [Virtuals Own]

/-- The rows stay in their sequences, or are those in front of the new rows. -/
def InsertsSeamlessly (m : MessagesModel Own) : List MessageData → Prop
  | [] => True
  | first :: rest =>
      if m.lastKnownId < first.messageId then
        Seamless m.messages (m.messages ++ first :: rest) (m.messages.getLast?.map MessageData.messageId)
      else Seamless m.messages (first :: rest ++ m.messages) none

instance (m : MessagesModel Own) (newMessages : List MessageData) : Decidable (m.InsertsSeamlessly newMessages) := by
  cases newMessages <;> unfold InsertsSeamlessly <;> infer_instance

omit [Virtuals Own] in
theorem insertsSeamlessly_of_empty (hempty : m.messages = []) (newMessages : List MessageData) :
    m.InsertsSeamlessly newMessages := by
  cases newMessages with
  | nil => trivial
  | cons first rest =>
      rw [InsertsSeamlessly, hempty]
      split_ifs
      · exact fun row hrow => absurd hrow List.not_mem_nil
      · exact fun row hrow => absurd hrow List.not_mem_nil

omit [Virtuals Own] in
theorem appendMessages_announced (h : m.AlbumsKept) {m' : MessagesModel Own} (h' : m'.AlbumsKept)
    {newMessages : List MessageData} (hsame : SameButAlbums (m.appendMessages newMessages) m')
    (hcond : Seamless m.messages (m.messages ++ newMessages) (m.messages.getLast?.map MessageData.messageId))
    (hsub : m.appendMessagesSignals newMessages ⊆ signals) : SequencesAnnounced m m' id signals := by
  have hbody : m'.messages.map body = (m.messages ++ newMessages ++ []).map body := by
    rw [List.append_nil]
    exact hsame.map_eq body fun _ => rfl
  rw [← List.append_nil (m.messages ++ newMessages)] at hcond
  nth_rewrite 1 [← List.append_nil m.messages] at hcond
  refine sequencesAnnounced_insert h h' (List.append_nil _).symm hbody hcond
    (fun row hrow => absurd hrow (by simp)) fun row hrow => ?_
  have hpos : 0 < m.messages.length := List.length_pos_of_ne_nil fun hnil => by simp [hnil] at hrow
  have hget : (m.appendMessages newMessages).ids[m.messages.length - 1]? = some row.messageId := by
    rw [ids, List.getElem?_map, appendMessages, List.getElem?_append_left (by omega), ← List.getLast?_eq_getElem?, hrow]
    rfl
  refine announced_dataChanged hget (hsub ?_)
  rw [appendMessagesSignals, if_pos hpos]
  exact List.mem_append_right _ List.mem_cons_self

omit [Virtuals Own] in
theorem prependMessages_announced (h : m.AlbumsKept) {m' : MessagesModel Own} (h' : m'.AlbumsKept)
    {newMessages : List MessageData} (hsame : SameButAlbums (m.prependMessages newMessages) m')
    (hcond : Seamless m.messages (newMessages ++ m.messages) none)
    (hsub : m.prependMessagesSignals newMessages ⊆ signals) : SequencesAnnounced m m' id signals := by
  refine @sequencesAnnounced_insert _ _ _ _ [] newMessages m.messages h h' rfl (hsame.map_eq body fun _ => rfl) hcond
    (fun row hrow => ?_) fun row hrow => absurd hrow (by simp)
  have hempty : m.messages.isEmpty = false := List.isEmpty_eq_false_iff.mpr fun hnil => by simp [hnil] at hrow
  have hget : (m.prependMessages newMessages).ids[newMessages.length]? = some row.messageId := by
    rw [ids, List.getElem?_map, prependMessages, List.getElem?_append_right (Nat.le_refl _), Nat.sub_self,
      ← List.head?_eq_getElem?, hrow]
    rfl
  refine announced_dataChanged hget (hsub ?_)
  rw [prependMessagesSignals, hempty, Bool.not_false, if_pos rfl]
  exact List.mem_append_right _ List.mem_cons_self

/-- New rows go behind the rows, with what is announced then, or in front of them. -/
theorem insertMessages_at_end {first : MessageData} {rest : List MessageData}
    (happend : Virtuals.appendMessages m (first :: rest) = m.appendMessages (first :: rest))
    (hprepend : Virtuals.prependMessages m (first :: rest) = m.prependMessages (first :: rest))
    (hempty : m.messages ≠ []) :
    (m.lastKnownId < first.messageId ∧ m.insertMessages (first :: rest) = m.appendMessages (first :: rest) ∧
        m.insertMessagesSignals (first :: rest) = m.appendMessagesSignals (first :: rest)) ∨
      (¬ m.lastKnownId < first.messageId ∧ m.insertMessages (first :: rest) = m.prependMessages (first :: rest) ∧
        m.insertMessagesSignals (first :: rest) = m.prependMessagesSignals (first :: rest)) := by
  unfold insertMessages insertMessagesSignals
  rw [happend, hprepend, List.isEmpty_eq_false_iff.mpr hempty]
  dsimp only
  rw [if_neg Bool.false_ne_true, if_neg Bool.false_ne_true]
  by_cases hlast : m.lastKnownId < first.messageId
  · exact Or.inl ⟨hlast, if_pos hlast, if_pos hlast⟩
  · exact Or.inr ⟨hlast, if_neg hlast, if_neg hlast⟩

theorem insertMessages_announced (h : m.AlbumsKept) {newMessages : List MessageData} (hne : newMessages ≠ [])
    (happend : Virtuals.appendMessages m newMessages = m.appendMessages newMessages)
    (hprepend : Virtuals.prependMessages m newMessages = m.prependMessages newMessages)
    (hkept : ((m.insertMessages newMessages).setMessagesAlbum newMessages).AlbumsKept)
    (hcond : m.InsertsSeamlessly newMessages) :
    SequencesAnnounced m ((m.insertMessages newMessages).setMessagesAlbum newMessages) id
      (m.insertMessagesSignals newMessages ++
        setMessagesAlbumSignals (m.insertMessages newMessages) newMessages) := by
  have hsame := setMessagesAlbum_same (m.insertMessages newMessages) newMessages
  cases newMessages with
  | nil => exact absurd rfl hne
  | cons first rest =>
      by_cases hempty : m.messages = []
      · intro i i' row row' hi
        rw [hempty] at hi
        exact absurd hi (by simp)
      rw [InsertsSeamlessly] at hcond
      rcases insertMessages_at_end happend hprepend hempty with ⟨hlast, hinsert, hsignals⟩ | ⟨hlast, hinsert, hsignals⟩
      · rw [if_pos hlast] at hcond
        rw [hinsert] at hkept hsame ⊢
        rw [hsignals]
        exact appendMessages_announced h hkept hsame hcond (List.subset_append_left _ _)
      · rw [if_neg hlast] at hcond
        rw [hinsert] at hkept hsame ⊢
        rw [hsignals]
        exact prependMessages_announced h hkept hsame hcond (List.subset_append_left _ _)

end Virtual

/-! ### Deletions -/

/-- The rows a range leaves stay in their sequences, or are in front of it. -/
def RemovesSeamlessly (rows : List MessageData) (first last : Nat) : Prop :=
  first ≤ last →
    Seamless rows (eraseRange rows first last) ((rows.take first).getLast?.map MessageData.messageId)

instance (rows : List MessageData) (first last : Nat) : Decidable (RemovesSeamlessly rows first last) :=
  inferInstanceAs (Decidable (_ → _))

theorem removesSeamlessly_congr {rows rows' : List MessageData} (hrows : rows.map body = rows'.map body)
    {first last : Nat} : RemovesSeamlessly rows first last ↔ RemovesSeamlessly rows' first last := by
  have hbody : ∀ rows : List MessageData, RemovesSeamlessly (rows.map body) first last ↔
      RemovesSeamlessly rows first last := by
    intro rows
    rw [RemovesSeamlessly, RemovesSeamlessly, ← map_eraseRange, seamless_body, ← List.map_take, List.getLast?_map,
      Option.map_map]
    rfl
  rw [← hbody, hrows, hbody]

theorem removeRange_announced (h : m.AlbumsKept) {first last : Nat} (hlast : last < m.messages.length)
    (hcond : RemovesSeamlessly m.messages first last) :
    SequencesAnnounced m (m.removeRange first last) id (m.removeRangeSignals first last) := by
  by_cases hle : first ≤ last
  swap
  · rw [MessagesModel.removeRange, if_neg hle]
    exact sequencesAnnounced_same h rfl rfl (fun _ _ => rfl) _
  have hbody := (removeRange_same m hle).map_eq body fun _ => rfl
  have hids : (m.removeRange first last).ids =
      (m.messages.take first ++ m.messages.drop (last + 1)).map MessageData.messageId := (removeRange_same m hle).ids_eq
  have hlen : (m.messages.take first).length = first := List.length_take_of_le (by omega)
  have hrows : m.messages = m.messages.take first ++ (m.messages.drop first).take (last + 1 - first) ++
      m.messages.drop (last + 1) := by
    rw [List.append_assoc]
    exact eq_append_range m.messages hle
  have hseamless := hcond hle
  rw [removeRangeSignals, if_pos hle]
  nth_rewrite 1 [hrows] at hseamless
  refine sequencesAnnounced_remove h (h.removeRange hlast) hrows hbody hseamless (fun row hrow => ?_)
    fun row hrow => ?_
  · have hget : (m.removeRange first last).ids[first]? = some row.messageId := by
      rw [hids, List.getElem?_map, List.getElem?_append_right (Nat.le_of_eq hlen), hlen, Nat.sub_self,
        ← List.head?_eq_getElem?, hrow]
      rfl
    have hpos : 0 < (m.removeRange first last).messages.length := by
      have := (List.getElem?_eq_some_iff.mp hget).1
      rw [ids, List.length_map] at this
      omega
    refine announced_dataChanged hget (List.mem_append_right _ ?_)
    rw [if_pos hpos]
    exact List.mem_cons_self
  · have hpos : 0 < first := by
      rw [← hlen]
      exact List.length_pos_of_ne_nil fun hnil => by simp [hnil] at hrow
    have hget : (m.removeRange first last).ids[first - 1]? = some row.messageId := by
      rw [hids, List.getElem?_map, List.getElem?_append_left (by omega)]
      rw [List.getLast?_eq_getElem?, hlen] at hrow
      rw [hrow]
      rfl
    refine announced_dataChanged hget (List.mem_append_left _ (List.mem_append_right _ ?_))
    rw [if_pos hpos]
    exact List.mem_cons_self

/-- The ranges a deletion takes out of the rows, one after the other. -/
def DeletesSeamlessly (count : Nat) : List MessageData → List Int → Nat → Nat → Prop
  | rows, [], first, last => first ≠ count ∧ last ≠ count → RemovesSeamlessly rows first last
  | rows, id :: rest, first, last =>
      match rows.findIdx? fun row => decide (row.key = some id) with
      | none => DeletesSeamlessly count rows rest first last
      | some position =>
          let last := if last = count then position else last
          let first := if first = count then position else first
          if position + 1 < first then
            RemovesSeamlessly rows first last ∧
              DeletesSeamlessly count (if first ≤ last then eraseRange rows first last else rows) rest position position
          else DeletesSeamlessly count rows rest position last

instance DeletesSeamlessly.decidable (count : Nat) :
    ∀ rows messageIds first last, Decidable (DeletesSeamlessly count rows messageIds first last)
  | _, [], _, _ => inferInstanceAs (Decidable (_ → _))
  | rows, id :: rest, first, last =>
      match hfind : rows.findIdx? fun row => decide (row.key = some id) with
      | none =>
          have := DeletesSeamlessly.decidable count rows rest first last
          decidable_of_iff (DeletesSeamlessly count rows rest first last) (by rw [DeletesSeamlessly, hfind])
      | some position =>
          have := fun rows first last => DeletesSeamlessly.decidable count rows rest first last
          decidable_of_iff
            (let last := if last = count then position else last
             let first := if first = count then position else first
             if position + 1 < first then
               RemovesSeamlessly rows first last ∧
                 DeletesSeamlessly count (if first ≤ last then eraseRange rows first last else rows) rest position
                   position
             else DeletesSeamlessly count rows rest position last)
            (by rw [DeletesSeamlessly, hfind])

/-- The loop announces what the ranges change that it takes away. -/
theorem deleteLoop_announced (count : Nat) (h : m.AlbumsKept) (messageIds : List Int) {rows : List MessageData}
    (hrows : m.messages.map body = rows.map body) {first last : Nat}
    (hlast : last = count ∨ last < m.messages.length)
    (hcond : DeletesSeamlessly count rows messageIds first last) :
    SequencesAnnounced m (deleteLoop count m messageIds first last).1 id
        (deleteLoopSignals count m messageIds first last) ∧
      ((deleteLoop count m messageIds first last).2.1 ≠ count ∧
          (deleteLoop count m messageIds first last).2.2 ≠ count →
        RemovesSeamlessly (deleteLoop count m messageIds first last).1.messages
          (deleteLoop count m messageIds first last).2.1 (deleteLoop count m messageIds first last).2.2) := by
  induction messageIds generalizing m rows first last with
  | nil =>
      refine ⟨sequencesAnnounced_same h rfl rfl (fun _ _ => rfl) _, fun hset => ?_⟩
      exact (removesSeamlessly_congr hrows).mpr (hcond hset)
  | cons id rest ih =>
      have hkeys : m.messages.map MessageData.key = rows.map MessageData.key := by
        have := congrArg (List.map MessageData.key) hrows
        rwa [List.map_map, List.map_map] at this
      have hindex : Indexes MessageData.key rows m.messageIndexMap := (indexes_congr hkeys).mp h.indexExact
      rw [DeletesSeamlessly, ← hindex.value_eq_findIdx?] at hcond
      rw [deleteLoop, deleteLoopSignals]
      cases hid : m.messageIndexMap.value id with
      | none =>
          rw [hid] at hcond
          exact ih h hrows hlast hcond
      | some position =>
          rw [hid] at hcond
          have hposition : position < m.messages.length := Indexes.lt_length h.indexExact hid
          have hlast' : (if last = count then position else last) < m.messages.length := by
            split_ifs with heq
            · exact hposition
            · exact hlast.resolve_left heq
          dsimp only at hcond ⊢
          generalize (if last = count then position else last) = last' at hlast' hcond ⊢
          generalize (if first = count then position else first) = first' at hcond ⊢
          by_cases hgap : position + 1 < first'
          · rw [if_pos hgap] at hcond ⊢
            rw [if_pos hgap]
            have hrows' : (m.removeRange first' last').messages.map body =
                (if first' ≤ last' then eraseRange rows first' last' else rows).map body := by
              split_ifs with hle
              · rw [(removeRange_same m hle).map_eq body fun _ => rfl, map_eraseRange, map_eraseRange, hrows]
              · rw [removeRange, if_neg hle, hrows]
            have hremove := removeRange_announced h hlast' ((removesSeamlessly_congr hrows).mpr hcond.1)
            obtain ⟨hrest, hrange⟩ := ih (h.removeRange hlast') hrows'
              (Or.inr (lt_length_removeRange (by omega) hposition)) hcond.2
            refine ⟨hremove.trans hrest ?_, hrange⟩
            exact ((deleteLoop_deletes count _ rest position position).map_sublist _ fun _ => rfl).subset
          · rw [if_neg hgap] at hcond ⊢
            rw [if_neg hgap]
            exact ih h hrows (Or.inr hlast') hcond

theorem handleMessagesDeleted_announced (h : m.AlbumsKept) {chatId : Int} {messageIds : List Int}
    (hcond : chatId = m.chatId →
      DeletesSeamlessly messageIds.length m.messages messageIds.reverse messageIds.length messageIds.length) :
    SequencesAnnounced m (m.handleMessagesDeleted chatId messageIds) id
      (m.handleMessagesDeletedSignals chatId messageIds) := by
  rw [handleMessagesDeleted, handleMessagesDeletedSignals]
  split_ifs with hchat
  swap
  · exact sequencesAnnounced_same h rfl rfl (fun _ _ => rfl) _
  have hcond' := hcond hchat
  rw [← List.length_reverse] at hcond'
  generalize messageIds.reverse = messageIds at hcond' ⊢
  obtain ⟨hloop, hrange⟩ := @deleteLoop_announced _ _ messageIds.length h messageIds _ rfl _ _ (Or.inl rfl) hcond'
  obtain ⟨hkept, hlast⟩ := @AlbumsKept.deleteLoop _ messageIds.length m h messageIds messageIds.length _ (Or.inl rfl)
  rw [deleteMessages, deleteMessagesSignals]
  dsimp only
  split_ifs with hset
  · refine hloop.trans (removeRange_announced hkept (hlast.resolve_left hset.2) (hrange hset)) ?_
    exact ((removeRange_deletes _ _ _).map_sublist _ fun _ => rfl).subset
  · rw [List.append_nil]
    exact hloop

/-! ### Messages that have been sent -/

section Virtual

variable [Virtuals Own]

/-- Neither the message in sending nor the message that has been sent is in an album, and the rows around them stay in
their sequences. -/
def SendsSeamlessly (m : MessagesModel Own) (oldMessageId messageId : Int) (message : QVariantMap) : Prop :=
  match m.messageIndexMap.value oldMessageId with
  | none => True
  | some pos => ∀ old ∈ m.messages[pos]?, old.mediaAlbumId = 0 ∧ (m.sentMessage messageId message).mediaAlbumId = 0 ∧
      SendSeamless (m.messages.take pos) old (m.messages.drop (pos + 1)) (m.sentMessage messageId message)

instance (m : MessagesModel Own) (oldMessageId messageId : Int) (message : QVariantMap) :
    Decidable (m.SendsSeamlessly oldMessageId messageId message) := by
  unfold SendsSeamlessly
  split <;> infer_instance

/-- The id a row has after a message has been sent. -/
def sentId (m : MessagesModel Own) (chatId oldMessageId messageId : Int) (k : Int) : Int :=
  if m.chatId = chatId ∧ k = oldMessageId then messageId else k

omit [Virtuals Own] in
theorem sentId_of_not {chatId oldMessageId messageId k : Int} (h : ¬ (m.chatId = chatId ∧ k = oldMessageId)) :
    m.sentId chatId oldMessageId messageId k = k := if_neg h

variable [LawfulVirtuals Own]

omit [Virtuals Own] [LawfulVirtuals Own] in
/-- Messages without album leave the albums as they are. -/
theorem AlbumsKept.sent (h : m.AlbumsKept) {m' : MessagesModel Own} {pre post : List MessageData}
    {old new : MessageData} (hindex : m'.IndexExact) (hrows : m.messages = pre ++ old :: post)
    (hrows' : m'.messages = pre ++ post ++ [new]) (halbums : m'.albumMessageMap = m.albumMessageMap)
    (hold : old.mediaAlbumId = 0) (hnew : new.mediaAlbumId = 0) (hentry : new.entry = (false, []))
    (hfresh : new.messageId ∉ m.ids) : m'.AlbumsKept := by
  have hlist : ∀ albumId, m'.listOf albumId = m.listOf albumId := by
    intro albumId
    rw [listOf, listOf, halbums]
  have hrow : ∀ row, row ∈ m'.messages ↔ (row ∈ pre ++ post ∨ row = new) := by
    intro row
    rw [hrows', List.mem_append, List.mem_singleton]
  have hkept : ∀ row ∈ pre ++ post, row ∈ m.messages := by
    intro row hmem
    rw [hrows]
    simp only [List.mem_append, List.mem_cons] at hmem ⊢
    tauto
  refine ⟨hindex, ⟨fun albumId => ?_, fun row hmem albumId ha => ?_, fun row hmem => ?_⟩, fun albumId k hk => ?_⟩
  · rw [hlist]
    exact h.follow.sorted albumId
  · rw [hlist]
    rcases (hrow row).mp hmem with hmem | rfl
    · exact h.follow.mem row (hkept row hmem) albumId ha
    · refine iff_of_false (fun hlisted => hfresh (h.clean albumId _ hlisted)) fun halbum => ?_
      exact ha (halbum.2.symm.trans hnew)
  · rw [hlist]
    rcases (hrow row).mp hmem with hmem | rfl
    · exact h.follow.entries row (hkept row hmem)
    · rw [hentry, entryOf_of_not_mem fun hlisted => hfresh (h.clean _ _ hlisted)]
  · rw [hlist] at hk
    obtain ⟨row, hmem, rfl⟩ := List.mem_map.mp (h.clean albumId k hk)
    have ha : albumId ≠ 0 := by
      rintro rfl
      exact absurd hk List.not_mem_nil
    have halbum := ((h.follow.mem row hmem albumId ha).mp hk).2
    rw [hrows, List.mem_append, List.mem_cons] at hmem
    refine List.mem_map_of_mem ((hrow row).mpr (Or.inl (List.mem_append.mpr ?_)))
    rcases hmem with hmem | rfl | hmem
    · exact Or.inl hmem
    · exact absurd (halbum.symm.trans hold) ha
    · exact Or.inr hmem

theorem handleMessageSendSucceeded_announced (h : m.AlbumsKept) {chatId oldMessageId messageId : Int}
    {message : QVariantMap} (hfresh : m.messageIndexMap.contains messageId = false)
    (hcond : m.chatId = chatId → m.SendsSeamlessly oldMessageId messageId message) :
    (m.handleMessageSendSucceeded chatId oldMessageId messageId message).1.AlbumsKept ∧
      SequencesAnnounced m (m.handleMessageSendSucceeded chatId oldMessageId messageId message).1
        (m.sentId chatId oldMessageId messageId)
        (m.handleMessageSendSucceededSignals chatId oldMessageId messageId message) := by
  by_cases hchat : m.chatId = chatId
  swap
  · rw [handleMessageSendSucceeded, if_neg hchat]
    exact ⟨h, sequencesAnnounced_same h rfl rfl (fun row _ => sentId_of_not fun heq => hchat heq.1) _⟩
  have hcond' := hcond hchat
  rw [SendsSeamlessly] at hcond'
  cases hold : m.messageIndexMap.value oldMessageId with
  | none =>
      rw [handleMessageSendSucceeded, if_pos hchat, hold]
      refine ⟨h, sequencesAnnounced_same h rfl rfl (fun row hrow => sentId_of_not ?_) _⟩
      rintro ⟨-, rfl⟩
      obtain ⟨i, hi⟩ := List.mem_iff_getElem?.mp hrow
      rw [Indexes.value_of_getElem h.indexExact hi rfl] at hold
      exact absurd hold (by simp)
  | some pos =>
      have hindex : (m.handleMessageSendSucceeded chatId oldMessageId messageId message).1.IndexExact :=
        indexExact_handleMessageSendSucceeded h.indexExact message hfresh
      obtain ⟨pre, old, post, hrows, rfl, hget, rfl⟩ := h.indexExact.exists_split hold
      rw [hold] at hcond'
      obtain ⟨holdalbum, hnewalbum, hseamless⟩ := hcond' old hget
      have hfresh' : (m.sentMessage messageId message).messageId ∉ m.ids := by
        rw [sentMessage_messageId]
        exact (not_mem_ids_iff h.indexExact _).mp hfresh
      have hentry : (m.sentMessage messageId message).entry = (false, []) := entry_processMessageData m message messageId
      have hid := m.sentMessage_messageId messageId message
      have heq := handleMessageSendSucceeded_eq m messageId message hchat hrows hold
      have hdrop : (pre ++ old :: post).drop (pre.length + 1) = post := by simp
      rw [hrows, List.take_left, hdrop] at hseamless
      have hkept : (m.handleMessageSendSucceeded chatId old.messageId messageId message).1.AlbumsKept :=
        h.sent hindex hrows (by rw [heq]) (by rw [heq]) holdalbum hnewalbum hentry hfresh'
      have hrows' : (m.handleMessageSendSucceeded chatId old.messageId messageId message).1.messages =
          pre ++ post ++ [m.sentMessage messageId message] := by rw [heq]
      have hd := h.indexExact.nodup
      have hd' := hkept.indexExact.nodup
      rw [ids, hrows] at hd
      rw [ids, hrows'] at hd'
      refine ⟨hkept, sequencesAnnounced_of_rows h hkept (by rw [hrows]) (by rw [hrows'])
        fun i i' row row' hi hi' hnewid => ?_⟩
      have hnewid' : row'.messageId = if row.messageId = old.messageId then
          (m.sentMessage messageId message).messageId else row.messageId := by
        rw [hnewid, sentId, hid]
        simp only [hchat, true_and]
      have hvalues : (IsFirst (pre ++ old :: post) i row ↔
            IsFirst (pre ++ post ++ [m.sentMessage messageId message]) i' row') ∧
          (IsLast (pre ++ old :: post) i row ↔
            IsLast (pre ++ post ++ [m.sentMessage messageId message]) i' row') := by
        cases post with
        | nil => exact stays_values holdalbum hnewalbum hd hd' (hseamless.1 rfl) hi hi' hnewid'
        | cons behind rest =>
            obtain ⟨last, hlast⟩ := Option.isSome_iff_exists.mp
              (List.getLast?_isSome.mpr (List.cons_ne_nil behind rest))
            exact moves_values holdalbum hnewalbum hd hd' rfl hlast (hseamless.2 behind rfl last hlast) hi hi' hnewid'
      exact ⟨fun hne => absurd hvalues.1 hne, fun hne => absurd hvalues.2 hne⟩

end Virtual

end MessagesModel

end YaqtLib
