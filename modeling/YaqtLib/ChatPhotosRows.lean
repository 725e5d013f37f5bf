import YaqtLib.ChatPhotosModel
import YaqtLib.RowViews

/-! The placeholder row of a chat photo list, over whole runs: it is the first row, and the index map does not have
it. -/

namespace YaqtLib

open Containers IndexMap Runs TdConst MessagesModel

namespace MessagesModel

variable {Own : Type}

theorem value_ne_none_append (m : MessagesModel Own) {newMessages : List MessageData} {message : MessageData}
    (h : message ∈ newMessages) :
    (m.appendMessages newMessages).messageIndexMap.value message.messageId ≠ none := by
  intro hnone
  exact ((value_reindex_eq_none_iff _ _).mp hnone).2 message h rfl

theorem value_ne_none_prepend (m : MessagesModel Own) {newMessages : List MessageData} {message : MessageData}
    (h : message ∈ newMessages ∨ message ∈ m.messages) :
    (m.prependMessages newMessages).messageIndexMap.value message.messageId ≠ none := by
  intro hnone
  obtain ⟨hnew, hold⟩ := (value_reindex_eq_none_iff _ _).mp hnone
  rcases h with h | h
  · exact ((value_reindex_eq_none_iff _ _).mp hnew).2 message h rfl
  · exact hold message h rfl

theorem ids_append (m : MessagesModel Own) (newMessages : List MessageData) :
    (m.appendMessages newMessages).ids = m.ids ++ newMessages.map MessageData.messageId :=
  List.map_append

theorem ids_prepend (m : MessagesModel Own) (newMessages : List MessageData) :
    (m.prependMessages newMessages).ids = newMessages.map MessageData.messageId ++ m.ids :=
  List.map_append

end MessagesModel

namespace ChatPhotosModel

/-- The first row is the placeholder. -/
def HasPlaceholder (m : ChatPhotosModel) : Prop := m.ids.head? = some 0

instance (m : ChatPhotosModel) : Decidable (HasPlaceholder m) := inferInstanceAs (Decidable (_ = _))

/-- New rows, the first one with the id, go before the placeholder: there are other rows, or its photo has no id, and
the id is above that of the last row. -/
def InsertsBefore (m : ChatPhotosModel) (firstId : Int) : Prop :=
  HasPlaceholder m ∧ ¬ (m.own.mainChatPhotoId ≠ 0 ∧ m.messages.length = 1) ∧ m.lastKnownId < firstId

instance (m : ChatPhotosModel) (firstId : Int) : Decidable (InsertsBefore m firstId) :=
  inferInstanceAs (Decidable (_ ∧ _))

/-- The messages that become rows. -/
def taken (m : ChatPhotosModel) : Event → List MessageData
  | .newMessageReceived chatId message =>
      if TakesNewMessage m chatId message then [MessageData.create message (messageIdOf message)] else []
  | .foundChatMessagesReceived chatId filter extra messages _ _ =>
      if (m.chatId = chatId ∧ filter = m.own.searchMessagesFilter) ∧ messages.isEmpty = false ∧
          (m.waitingFor extra || m.messages.isEmpty) = true then m.freshMessages messages
      else []
  | _ => []

/-- There is at most one placeholder and the index map has no key for it; when messages become rows no row of a message
is lost, and if one of them has the current photo, there is no placeholder any more. -/
structure PlaceholderKept (m : ChatPhotosModel) (e : Event) : Prop where
  single : (step m e).ids.count 0 ≤ 1
  unkeyed : (step m e).messageIndexMap.contains 0 = false
  kept : taken m e ≠ [] → (m.ids.filter (· ≠ 0)).Sublist (step m e).ids
  replaced : ∀ message ∈ taken m e, IsMainPhoto m message → 0 ∉ (step m e).ids

/-- A new message has an id, is not the one of the current photo, and goes behind the placeholder; so does the first
message of a slice without the current photo. -/
def Fits (m : ChatPhotosModel) (e : Event) : Prop :=
  match e with
  | .newMessageReceived _ _ => ∀ message ∈ taken m e,
      message.messageId ≠ 0 ∧ ¬ IsMainPhoto m message ∧ ¬ InsertsBefore m message.messageId
  | .foundChatMessagesReceived _ _ _ _ _ _ => (∀ message ∈ taken m e, ¬ IsMainPhoto m message) →
      ∀ first ∈ (sortMessages true (taken m e)).head?, ¬ InsertsBefore m first.messageId
  | _ => True

/-- Only the first row can be the placeholder, which the index map does not have, and it is there as long as its photo
is looked for. -/
structure Placed (m : ChatPhotosModel) : Prop where
  lead : m.RowsLead
  unkeyed : m.messageIndexMap.value 0 = none
  real : 0 ∉ m.ids.tail
  main : m.own.mainChatPhotoId ≠ 0 → HasPlaceholder m

/-- The rows, their map and the photo that is looked for are the same. -/
structure SameRows (m m' : ChatPhotosModel) : Prop where
  messages : m'.messages = m.messages
  index : m'.messageIndexMap = m.messageIndexMap
  main : m'.own.mainChatPhotoId = m.own.mainChatPhotoId

variable {m m' m'' : ChatPhotosModel}

namespace SameRows

theorem refl (m : ChatPhotosModel) : SameRows m m := ⟨rfl, rfl, rfl⟩

theorem trans (h : SameRows m m') (h' : SameRows m' m'') : SameRows m m'' :=
  ⟨h'.messages.trans h.messages, h'.index.trans h.index, h'.main.trans h.main⟩

theorem ids_eq (h : SameRows m m') : m'.ids = m.ids := congrArg (List.map MessageData.messageId) h.messages

theorem placed (h : SameRows m m') (hm : Placed m) : Placed m' := by
  refine ⟨?_, ?_, ?_, ?_⟩
  · rw [RowsLead, h.messages, h.index]
    exact hm.lead
  · rw [h.index]
    exact hm.unkeyed
  · rw [h.ids_eq]
    exact hm.real
  · rw [h.main, HasPlaceholder, h.ids_eq]
    exact hm.main

end SameRows

theorem sameRows_updateTotalCount (m : ChatPhotosModel) (count : Int) : SameRows m (updateTotalCount m count) := by
  rw [updateTotalCount]
  split_ifs
  · exact ⟨rfl, rfl, rfl⟩
  · exact .refl m

theorem sameRows_prepare (m : ChatPhotosModel) (totalCount : Int) (fromUpdate : UpdateType) :
    SameRows m (JumpableMessagesModel.handlePrepareMessagesReceived m totalCount fromUpdate) := by
  unfold JumpableMessagesModel.handlePrepareMessagesReceived
  split_ifs
  · cases fromUpdate <;> exact ⟨rfl, rfl, rfl⟩
  · exact .refl m

theorem sameRows_notifyMessagesLoaded (m : ChatPhotosModel) (fromUpdate : UpdateType) (totalCount : Int) :
    SameRows m (JumpableMessagesModel.notifyMessagesLoaded m fromUpdate totalCount).1 :=
  ((show SameRows m (m.setWaitingFor fromUpdate false) from ⟨rfl, rfl, rfl⟩).trans
    (sameRows_updateTotalCount _ totalCount)).trans (sameRows_prepare _ totalCount fromUpdate)

theorem sameRows_afterInsertion (m : ChatPhotosModel) (addedMessages : List MessageData) (reloadNeeded : Bool)
    (fromUpdate : UpdateType) (totalCount : Int) :
    SameRows m (JumpableMessagesModel.afterInsertion m addedMessages reloadNeeded fromUpdate totalCount).1 :=
  JumpableMessagesModel.afterInsertion_of ⟨rfl, rfl, rfl⟩ (sameRows_notifyMessagesLoaded m fromUpdate totalCount) _ _

theorem placed_albums (h : SameButAlbums m m') (hm : Placed m) : Placed m' := by
  refine ⟨h.rowsLead hm.lead, ?_, ?_, ?_⟩
  · rw [h.messageIndexMap_eq]
    exact hm.unkeyed
  · rw [h.ids_eq]
    exact hm.real
  · rw [h.sameMembers.own, HasPlaceholder, h.ids_eq]
    exact hm.main

theorem Placed.not_mem (hm : Placed m) (hno : ¬ HasPlaceholder m) : 0 ∉ m.ids := by
  have hreal := hm.real
  rw [HasPlaceholder] at hno
  cases hids : m.ids with
  | nil => exact List.not_mem_nil
  | cons id ids =>
      rw [hids] at hreal hno
      rintro hmem
      rcases List.mem_cons.mp hmem with rfl | hmem
      · exact hno rfl
      · exact hreal hmem

theorem Placed.count_le (hm : Placed m) : m.ids.count 0 ≤ 1 := by
  have hreal := hm.real
  cases hids : m.ids with
  | nil => exact Nat.zero_le 1
  | cons id ids =>
      rw [hids, List.tail_cons] at hreal
      rw [List.count_cons, List.count_eq_zero.mpr hreal]
      split_ifs <;> omega

/-! ### Inserting -/

theorem zero_not_mem {newMessages : List MessageData} (h : ∀ message ∈ newMessages, message.messageId ≠ 0) :
    0 ∉ newMessages.map MessageData.messageId := by
  rw [List.mem_map]
  rintro ⟨message, hmem, hzero⟩
  exact h message hmem hzero

theorem placed_append (hm : Placed m) {newMessages : List MessageData} (hne : newMessages ≠ [])
    (h : ∀ message ∈ newMessages, message.messageId ≠ 0) : Placed (MessagesModel.appendMessages m newMessages) := by
  refine ⟨(appendMessages_follows hm.lead hne).lead, ?_, ?_, fun hmain => ?_⟩
  · refine (value_reindex_eq_none_iff _ _).mpr ⟨hm.unkeyed, fun message hmem hkey => ?_⟩
    exact h message hmem (MessageData.key_eq_some.mp hkey)
  · have hreal := hm.real
    rw [ids_append]
    cases hids : m.ids with
    | nil => exact fun hmem => zero_not_mem h (List.mem_of_mem_tail hmem)
    | cons id ids =>
        rw [hids] at hreal
        exact fun hmem => (List.mem_append.mp hmem).elim hreal (zero_not_mem h)
  · have hhead : m.ids.head? = some 0 := hm.main hmain
    rw [HasPlaceholder, ids_append, List.head?_append, hhead]
    rfl

theorem placed_prepend (hm : Placed m) (hno : ¬ HasPlaceholder m) {newMessages : List MessageData}
    (hne : newMessages ≠ []) (h : ∀ message ∈ newMessages, message.messageId ≠ 0) :
    Placed (MessagesModel.prependMessages m newMessages) := by
  refine ⟨(prependMessages_follows hm.lead hne).lead, ?_, ?_, fun hmain => absurd (hm.main hmain) hno⟩
  · refine (value_reindex_eq_none_iff _ _).mpr ⟨?_, fun message hmem hkey => ?_⟩
    · refine (value_reindex_eq_none_iff _ _).mpr ⟨hm.unkeyed, fun message hmem hkey => ?_⟩
      exact h message hmem (MessageData.key_eq_some.mp hkey)
    · exact hm.not_mem hno (MessageData.key_eq_some.mp hkey ▸ List.mem_map_of_mem hmem)
  · rw [ids_prepend]
    refine fun hmem => (List.mem_append.mp (List.mem_of_mem_tail hmem)).elim (zero_not_mem h) (hm.not_mem hno)

/-- New rows go to one of the ends, and before a placeholder only if the condition for it holds. -/
theorem insertMessages_eq (m : ChatPhotosModel) (first : MessageData) (rest : List MessageData) :
    m.insertMessages (first :: rest) = MessagesModel.appendMessages m (first :: rest) ∧
        ¬ InsertsBefore m first.messageId ∨
      m.insertMessages (first :: rest) = MessagesModel.prependMessages m (first :: rest) ∧
        (HasPlaceholder m → InsertsBefore m first.messageId) := by
  have happend : Virtuals.appendMessages m (first :: rest) =
      if m.own.mainChatPhotoId ≠ 0 ∧ m.messages.length = 1 then MessagesModel.appendMessages m (first :: rest)
      else MessagesModel.prependMessages m (first :: rest) := rfl
  have hprepend : Virtuals.prependMessages m (first :: rest) = MessagesModel.appendMessages m (first :: rest) := rfl
  rw [insertMessages]
  by_cases hempty : m.messages.isEmpty = true
  · have hnil : m.messages = [] := List.isEmpty_iff.mp hempty
    have hno : ¬ HasPlaceholder m := by
      rw [HasPlaceholder, ids, hnil]
      rintro ⟨⟩
    rw [if_pos hempty, happend, if_neg (by rw [hnil]; exact fun h => absurd h.2 (by decide))]
    exact Or.inr ⟨rfl, fun h => absurd h hno⟩
  · rw [if_neg hempty]
    by_cases hlast : m.lastKnownId < first.messageId
    · rw [if_pos hlast, happend]
      by_cases hbehind : m.own.mainChatPhotoId ≠ 0 ∧ m.messages.length = 1
      · rw [if_pos hbehind]
        exact Or.inl ⟨rfl, fun h => h.2.1 hbehind⟩
      · rw [if_neg hbehind]
        exact Or.inr ⟨rfl, fun h => ⟨h, hbehind, hlast⟩⟩
    · rw [if_neg hlast, hprepend]
      exact Or.inl ⟨rfl, fun h => hlast h.2.2⟩

theorem mem_ids_insert (m : ChatPhotosModel) (first : MessageData) (rest : List MessageData) (id : Int) :
    id ∈ (m.insertMessages (first :: rest)).ids ↔
      id ∈ m.ids ∨ id ∈ (first :: rest).map MessageData.messageId := by
  rcases m.insertMessages_eq first rest with ⟨heq, -⟩ | ⟨heq, -⟩
  · rw [heq, ids_append, List.mem_append]
  · rw [heq, ids_prepend, List.mem_append, or_comm]

theorem sublist_insertMessages (m : ChatPhotosModel) (first : MessageData) (rest : List MessageData) :
    m.ids.Sublist (m.insertMessages (first :: rest)).ids := by
  rcases m.insertMessages_eq first rest with ⟨heq, -⟩ | ⟨heq, -⟩
  · rw [heq, ids_append]
    exact List.sublist_append_left _ _
  · rw [heq, ids_prepend]
    exact List.sublist_append_right _ _

/-- The index map has a key for every new row. -/
theorem value_ne_none_insert (m : ChatPhotosModel) {first : MessageData} {rest : List MessageData}
    {message : MessageData} (h : message ∈ first :: rest) :
    (m.insertMessages (first :: rest)).messageIndexMap.value message.messageId ≠ none := by
  rcases m.insertMessages_eq first rest with ⟨heq, -⟩ | ⟨heq, -⟩
  · rw [heq]
    exact value_ne_none_append m h
  · rw [heq]
    exact value_ne_none_prepend m (Or.inl h)

/-- Rows that go before the placeholder make the index map have it. -/
theorem value_zero_insert {first : MessageData} {rest : List MessageData} (h : InsertsBefore m first.messageId) :
    (m.insertMessages (first :: rest)).messageIndexMap.value 0 ≠ none := by
  rcases m.insertMessages_eq first rest with ⟨-, hnot⟩ | ⟨heq, -⟩
  · exact absurd h hnot
  · obtain ⟨message, hmem, hzero⟩ := List.mem_map.mp (List.mem_of_head? h.1)
    rw [heq, ← hzero]
    exact value_ne_none_prepend m (Or.inr hmem)

theorem placed_insert (hm : Placed m) {first : MessageData} {rest : List MessageData}
    (h : ∀ message ∈ first :: rest, message.messageId ≠ 0) (hbehind : ¬ InsertsBefore m first.messageId) :
    Placed (m.insertMessages (first :: rest)) := by
  rcases m.insertMessages_eq first rest with ⟨heq, -⟩ | ⟨heq, hbefore⟩
  · rw [heq]
    exact placed_append hm (List.cons_ne_nil _ _) h
  · rw [heq]
    exact placed_prepend hm (fun hhas => hbehind (hbefore hhas)) (List.cons_ne_nil _ _) h

/-! ### Removing -/

/-- A message leads to a row behind the placeholder. -/
theorem one_le_position (hm : Placed m) {id : Int} {position : Nat} (hid : m.messageIndexMap.value id = some position)
    (hhas : HasPlaceholder m) : 1 ≤ position := by
  by_contra hzero
  obtain rfl : position = 0 := by omega
  obtain ⟨row, hrow, hkey⟩ := hm.lead id 0 hid
  have hhead : m.ids.head? = some row.messageId := by
    rw [List.head?_eq_getElem?, ids, List.getElem?_map, hrow]
    rfl
  rw [HasPlaceholder, hhead] at hhas
  rw [← MessageData.key_eq_some.mp hkey, Option.some.inj hhas, hm.unkeyed] at hid
  cases hid

/-- A range behind the placeholder is removed. -/
theorem placed_removeRange (hm : Placed m) {first last : Nat} (hlast : last < m.messages.length)
    (hfirst : HasPlaceholder m → 1 ≤ first) :
    Placed (m.removeRange first last) ∧ (HasPlaceholder (m.removeRange first last) ↔ HasPlaceholder m) := by
  rcases Nat.lt_or_ge last first with hlt | hle
  · have hsame : m.removeRange first last = m := if_neg (Nat.not_le.mpr hlt)
    rw [hsame]
    exact ⟨hm, Iff.rfl⟩
  have hsame := removeRange_same m hle
  have hids : (m.removeRange first last).ids = m.ids.take first ++ m.ids.drop (last + 1) := by
    rw [hsame.ids_eq, ids, eraseRange, List.map_append, List.map_take, List.map_drop]
    rfl
  have hsub : ∀ id, id ∈ (m.removeRange first last).ids → id ∈ m.ids := by
    intro id hmem
    rw [hids] at hmem
    exact (List.mem_append.mp hmem).elim List.mem_of_mem_take List.mem_of_mem_drop
  have hhas : HasPlaceholder (m.removeRange first last) ↔ HasPlaceholder m := by
    constructor
    · intro h
      by_contra hno
      exact hm.not_mem hno (hsub 0 (List.mem_of_head? h))
    · intro h
      obtain ⟨n, hn⟩ := Nat.exists_eq_add_of_le (hfirst h)
      obtain ⟨tail, htail⟩ := List.head?_eq_some_iff.mp h
      rw [HasPlaceholder, hids, htail, hn, Nat.add_comm 1 n]
      rfl
  have hreal : 0 ∉ (m.removeRange first last).ids.tail := by
    by_cases h : HasPlaceholder m
    · obtain ⟨n, hn⟩ := Nat.exists_eq_add_of_le (hfirst h)
      obtain ⟨tail, htail⟩ := List.head?_eq_some_iff.mp h
      have htail' := hm.real
      rw [htail, List.tail_cons] at htail'
      rw [hids, htail, hn, Nat.add_comm 1 n, List.take_succ_cons, List.drop_succ_cons, List.cons_append, List.tail_cons]
      exact fun hmem => htail' ((List.mem_append.mp hmem).elim List.mem_of_mem_take List.mem_of_mem_drop)
    · exact fun hmem => hm.not_mem h (hsub 0 (List.mem_of_mem_tail hmem))
  refine ⟨⟨(removeRange_follows hm.lead hlast).lead, ?_, hreal, fun hmain => ?_⟩, hhas⟩
  · rw [hsame.messageIndexMap_eq]
    refine (value_reindex_eq_none_iff _ _).mpr ⟨?_, fun message hmem hkey => ?_⟩
    · rw [QHash.value_removeAll, hm.unkeyed, ite_self]
    · have hwindow : 0 ∈ (m.removeRange first last).ids.drop first := by
        rw [hsame.ids_eq, ids, ← List.map_drop, ← MessageData.key_eq_some.mp hkey]
        exact List.mem_map_of_mem hmem
      by_cases h : HasPlaceholder m
      · obtain ⟨n, rfl⟩ := Nat.exists_eq_add_of_le (hfirst h)
        rw [← List.drop_drop, List.drop_one] at hwindow
        exact hreal (List.mem_of_mem_drop hwindow)
      · exact hm.not_mem h (hsub 0 (List.mem_of_mem_drop hwindow))
  · rw [(removeRange_sameMembers m first last).own] at hmain
    exact hhas.mpr (hm.main hmain)

/-- The positions that the loop over deleted messages collects lie behind the placeholder. -/
theorem placed_deleteLoop (count : Nat) (hm : Placed m) (messageIds : List Int) {first last : Nat}
    (hfirst : first = count ∨ (HasPlaceholder m → 1 ≤ first)) (hlast : last = count ∨ last < m.messages.length) :
    Placed (deleteLoop count m messageIds first last).1 ∧
      ((deleteLoop count m messageIds first last).2.1 = count ∨
        (HasPlaceholder (deleteLoop count m messageIds first last).1 →
          1 ≤ (deleteLoop count m messageIds first last).2.1)) := by
  induction messageIds generalizing m first last with
  | nil => exact ⟨hm, hfirst⟩
  | cons id rest ih =>
      rw [deleteLoop]
      cases hid : m.messageIndexMap.value id with
      | none => exact ih hm hfirst hlast
      | some position =>
          have hposition := hm.lead.lt_length hid
          have hbehind : HasPlaceholder m → 1 ≤ position := one_le_position hm hid
          have hlast' : (if last = count then position else last) < m.messages.length := by
            split_ifs with h
            · exact hposition
            · exact hlast.resolve_left h
          have hfirst' : HasPlaceholder m → 1 ≤ (if first = count then position else first) := by
            split_ifs with h
            · exact hbehind
            · exact hfirst.resolve_left h
          dsimp only
          generalize (if last = count then position else last) = last' at hlast' ⊢
          generalize (if first = count then position else first) = first' at hfirst' ⊢
          split_ifs with hgap
          · obtain ⟨hplaced, hhas⟩ := placed_removeRange hm hlast' hfirst'
            exact ih hplaced (Or.inr fun h => hbehind (hhas.mp h))
              (Or.inr (lt_length_removeRange (by omega) hposition))
          · exact ih hm (Or.inr hbehind) (Or.inr hlast')

theorem placed_handleMessagesDeleted (hm : Placed m) (chatId : Int) (messageIds : List Int) :
    Placed (handleMessagesDeleted m chatId messageIds) := by
  rw [handleMessagesDeleted]
  split_ifs
  · have hbound := (@deleteLoop_follows _ messageIds.length m hm.lead messageIds messageIds.length
      messageIds.length (Or.inl rfl)).2
    obtain ⟨hplaced, hfirst⟩ := placed_deleteLoop messageIds.length hm messageIds (Or.inl rfl) (Or.inl rfl)
    rw [deleteMessages]
    dsimp only
    split_ifs with h
    · exact (placed_removeRange hplaced (hbound.resolve_left h.2) (hfirst.resolve_left h.1)).1
    · exact hplaced
  · exact hm

/-- The placeholder goes, and nothing else. -/
theorem placed_processMessageData (hm : Placed m) {message : MessageData} (h : IsMainPhoto m message) :
    Placed (processMessageData m message) ∧ (processMessageData m message).own.mainChatPhotoId = 0 ∧
      m.ids = 0 :: (processMessageData m message).ids := by
  obtain ⟨tail, htail⟩ := List.head?_eq_some_iff.mp (hm.main h.1)
  have hreal := hm.real
  rw [htail, List.tail_cons] at hreal
  have hlength : 0 < m.messages.length := by
    rw [← List.length_map (f := MessageData.messageId)]
    change 0 < m.ids.length
    rw [htail]
    exact Nat.succ_pos _
  rw [processMessageData, if_pos h]
  generalize hm' : ({ m with own := { m.own with mainChatPhotoId := 0 } } : ChatPhotosModel) = m'
  have hlead : m'.RowsLead := hm' ▸ hm.lead
  have hunkeyed : m'.messageIndexMap.value 0 = none := hm' ▸ hm.unkeyed
  have hown : m'.own.mainChatPhotoId = 0 := by rw [← hm']
  have hids : m'.ids = 0 :: tail := by rw [← htail, ← hm']; rfl
  have hlength' : 0 < m'.messages.length := by rw [← hm']; exact hlength
  have hsame := removeRange_same m' (Nat.le_refl 0)
  have hremoved : (m'.removeRange 0 0).ids = tail := by
    rw [hsame.ids_eq, ids, eraseRange, List.map_append, List.map_take, List.map_drop]
    change m'.ids.take 0 ++ m'.ids.drop 1 = tail
    rw [hids]
    rfl
  have hmain : (m'.removeRange 0 0).own.mainChatPhotoId = 0 := by
    rw [(removeRange_sameMembers m' 0 0).own, hown]
  refine ⟨⟨(removeRange_follows hlead hlength').lead, ?_, ?_, fun hne => absurd hmain hne⟩, hmain, ?_⟩
  · rw [hsame.messageIndexMap_eq]
    refine (value_reindex_eq_none_iff _ _).mpr ⟨?_, fun row hmem hkey => ?_⟩
    · rw [QHash.value_removeAll, hunkeyed, ite_self]
    · refine hreal ?_
      rw [← hremoved, hsame.ids_eq, ids, ← MessageData.key_eq_some.mp hkey]
      exact List.mem_map_of_mem hmem
  · rw [hremoved]
    exact fun hmem => hreal (List.mem_of_mem_tail hmem)
  · rw [hremoved, htail]

end ChatPhotosModel

end YaqtLib
