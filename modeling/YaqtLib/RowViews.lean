import YaqtLib.MessagesIndex
import YaqtLib.RowSignals

/-! Views of the readable models. What each operation announces can be carried out, and turns the ids of the rows
before it into those after it; batches may repeat messages, deletions may name any ids, and a sent message may get
any id. -/

namespace YaqtLib

open Containers IndexMap Runs Views

namespace MessagesModel

variable {Own : Type}

/-- Every entry of the index map leads to a row with its id. -/
def RowsLead (m : MessagesModel Own) : Prop := Leads MessageData.key m.messages m.messageIndexMap

/-- A view that keeps the ids of the rows follows from the rows of `m` to those of `m'`. -/
structure Follows (m m' : MessagesModel Own) (signals : List RowSignal) : Prop where
  lead : m'.RowsLead
  mirrors : Mirrors (fun role => role == .messageId) signals m.ids m'.ids

namespace Follows

variable {m m' m'' : MessagesModel Own} {signals signals' : List RowSignal}

theorem refl (hm : m.RowsLead) : Follows m m [] := ⟨hm, .nil _⟩

theorem trans (h : Follows m m' signals) (h' : Follows m' m'' signals') : Follows m m'' (signals ++ signals') :=
  ⟨h'.lead, h.mirrors.append h'.mirrors⟩

/-- Only the rows and the index map matter. -/
theorem of_rows (h : Follows m m' signals) (hmessages : m''.messages = m'.messages)
    (hindex : m''.messageIndexMap = m'.messageIndexMap) : Follows m m'' signals := by
  refine ⟨?_, ?_⟩
  · rw [RowsLead, hmessages, hindex]
    exact h.lead
  · have hids : m''.ids = m'.ids := congrArg (List.map MessageData.messageId) hmessages
    rw [hids]
    exact h.mirrors

/-- A signal that data changed, while the rows are the same. -/
theorem dataChanged_if (h : Follows m m' signals) (c : Prop) [Decidable c] (row : Nat) (roles : List MessageRole) :
    Follows m m' (signals ++ if c then [m'.dataChanged row roles] else []) := by
  refine ⟨h.lead, h.mirrors.append ?_⟩
  split_ifs
  · exact mirrors_dataChanged _ _ _
  · exact .nil _

end Follows

theorem RowsLead.lt_length {m : MessagesModel Own} (hm : m.RowsLead) {k : Int} {i : Nat}
    (hk : m.messageIndexMap.value k = some i) : i < m.messages.length := by
  obtain ⟨r, hr, -⟩ := hm k i hk
  exact (List.getElem?_eq_some_iff.mp hr).1

theorem SameButAlbums.rowsLead {m m' : MessagesModel Own} (h : SameButAlbums m m') (hm : m.RowsLead) :
    m'.RowsLead := by
  unfold RowsLead
  rw [h.messageIndexMap_eq]
  exact (leads_congr (h.map_eq MessageData.key fun _ => rfl)).mpr hm

/-! ### Albums -/

theorem updateAlbumEntriesSignals_mirrors (albumIds : List Int) (m : MessagesModel Own) (rest : List Int)
    (isMain : Bool) : Mirrors (fun role => role == .messageId) (updateAlbumEntriesSignals albumIds m rest isMain)
      m.ids m.ids := by
  induction rest generalizing m isMain with
  | nil => exact .nil _
  | cons id rest ih =>
      rw [updateAlbumEntriesSignals]
      cases m.messageIndexMap.value id with
      | none => exact ih m false
      | some position =>
          have hids := (setAlbumEntry_same m position isMain albumIds).ids_eq
          have hrest := ih (setAlbumEntry m position isMain albumIds) false
          rw [hids] at hrest
          dsimp only
          rw [dataChanged, signal, hids]
          exact (mirrors_dataChanged _ _ m.ids).append hrest

theorem updateAlbumMessagesSignals_mirrors (m : MessagesModel Own) (albumId : Int) (checkDeleted : Bool) :
    Mirrors (fun role => role == .messageId) (updateAlbumMessagesSignals m albumId checkDeleted) m.ids m.ids := by
  rw [updateAlbumMessagesSignals]
  cases m.albumMessageMap.value albumId with
  | none => exact .nil _
  | some albumIds =>
      dsimp only
      split_ifs
      · exact .nil _
      · exact updateAlbumEntriesSignals_mirrors _ m _ true
      · exact .nil _
      · exact updateAlbumEntriesSignals_mirrors _ m _ true

theorem updateAlbumMessages_follows {m : MessagesModel Own} (hm : m.RowsLead) (albumId : Int) (checkDeleted : Bool) :
    Follows m (m.updateAlbumMessages albumId checkDeleted) (m.updateAlbumMessagesSignals albumId checkDeleted) := by
  have hsame := updateAlbumMessages_same m albumId checkDeleted
  refine ⟨hsame.rowsLead hm, ?_⟩
  rw [hsame.ids_eq]
  exact updateAlbumMessagesSignals_mirrors m albumId checkDeleted

theorem setMessageAlbum_follows {m : MessagesModel Own} (hm : m.RowsLead) (message : MessageData) :
    Follows m (m.setMessageAlbum message) (m.setMessageAlbumSignals message) := by
  rw [setMessageAlbum, setMessageAlbumSignals]
  dsimp only
  split_ifs
  · exact .refl hm
  · refine ⟨?_, ?_⟩
    · exact ((SameButAlbums.albums m _).trans (updateAlbumMessages_same _ _ false)).rowsLead hm
    · rw [((SameButAlbums.albums m _).trans (updateAlbumMessages_same _ _ false)).ids_eq]
      exact updateAlbumMessagesSignals_mirrors _ _ false

/-- Folds of operations that are followed. -/
theorem follows_foldl {α : Type} {f : MessagesModel Own → α → MessagesModel Own}
    {signals : MessagesModel Own → α → List RowSignal}
    (h : ∀ {m : MessagesModel Own}, m.RowsLead → ∀ a, Follows m (f m a) (signals m a)) {m : MessagesModel Own}
    (hm : m.RowsLead) (l : List α) : Follows m (l.foldl f m) (announced f signals m l) := by
  induction l generalizing m with
  | nil => exact .refl hm
  | cons a l ih => exact (h hm a).trans (ih (h hm a).lead)

theorem setMessagesAlbum_follows {m : MessagesModel Own} (hm : m.RowsLead) (newMessages : List MessageData) :
    Follows m (m.setMessagesAlbum newMessages) (m.setMessagesAlbumSignals newMessages) :=
  follows_foldl setMessageAlbum_follows hm newMessages

/-! ### Inserting and removing rows -/

theorem appendMessages_follows {m : MessagesModel Own} (hm : m.RowsLead) {newMessages : List MessageData}
    (hne : newMessages ≠ []) :
    Follows m (m.appendMessages newMessages) (m.appendMessagesSignals newMessages) := by
  have hinserted : Follows m (m.appendMessages newMessages)
      [(m.appendMessages newMessages).signal
        (.rowsInserted m.messages.length (m.messages.length + newMessages.length - 1))] := by
    refine ⟨hm.append, ?_⟩
    have hmirrors := @mirrors_inserted _ MessageRole (fun role => role == .messageId) m.ids
      (newMessages.map MessageData.messageId) [] (by simpa using hne)
    simp only [List.append_nil, List.length_map, ids] at hmirrors
    simpa [signal, ids, appendMessages] using hmirrors
  exact hinserted.dataChanged_if _ _ _

theorem prependMessages_follows {m : MessagesModel Own} (hm : m.RowsLead) {newMessages : List MessageData}
    (hne : newMessages ≠ []) :
    Follows m (m.prependMessages newMessages) (m.prependMessagesSignals newMessages) := by
  have hinserted : Follows m (m.prependMessages newMessages)
      [(m.prependMessages newMessages).signal (.rowsInserted 0 (newMessages.length - 1))] := by
    constructor
    · have hlead := @Leads.rebuild _ _ _ MessageData.key [] m.messages (newMessages ++ m.messages) m.messageIndexMap
        m.messageIndexMap hm fun k i hk hnot => ⟨hk, fun r hr => hnot r (List.mem_append_right _ hr)⟩
      rw [List.nil_append, List.length_nil, reindex_append, Nat.zero_add] at hlead
      exact hlead
    · have hmirrors := @mirrors_inserted _ MessageRole (fun role => role == .messageId) []
        (newMessages.map MessageData.messageId) m.ids (by simpa using hne)
      simpa [signal, ids, prependMessages] using hmirrors
  exact hinserted.dataChanged_if _ _ _

theorem removeRange_eq (m : MessagesModel Own) {first last : Nat} (h : first ≤ last) :
    m.removeRange first last =
      (m.rescanAlbumIds first last).foldl (fun m albumId => updateAlbumMessages m albumId true)
        (m.eraseRows first last) :=
  if_pos h

theorem eraseRows_follows {m : MessagesModel Own} (hm : m.RowsLead) {first last : Nat} (hle : first ≤ last)
    (hlast : last < m.messages.length) :
    Follows m (m.eraseRows first last) [(m.eraseRows first last).signal (.rowsRemoved first last)] := by
  constructor
  · have hlen : (m.messages.take first).length = first := List.length_take_of_le (by omega)
    have hdrop : (eraseRange m.messages first last).drop first = m.messages.drop (last + 1) := by
      rw [eraseRange]
      nth_rewrite 1 [← hlen]
      rw [List.drop_left]
    have hm' : Leads MessageData.key (m.messages.take first ++
        ((m.messages.drop first).take (last + 1 - first) ++ m.messages.drop (last + 1))) m.messageIndexMap := by
      rw [← eq_append_range m.messages hle]
      exact hm
    have hlead := Leads.rebuild (m.messageIndexMap.removeAll
      (((m.messages.drop first).take (last + 1 - first)).map MessageData.messageId)) hm' fun k i hk hnot => by
        rw [QHash.value_removeAll] at hk
        split_ifs at hk with hremoved
        refine ⟨hk, fun r hr => ?_⟩
        rcases List.mem_append.mp hr with hr | hr
        · exact fun hkey => hremoved (List.mem_map.mpr ⟨r, hr, MessageData.key_eq_some.mp hkey⟩)
        · exact hnot r hr
    rw [hlen] at hlead
    unfold RowsLead eraseRows
    dsimp only
    rw [hdrop]
    exact hlead
  · have hmirrors := @mirrors_removed _ MessageRole (fun role => role == .messageId) m.ids first last hle
      (by simpa [ids] using hlast)
    rw [ids, ← map_eraseRange] at hmirrors
    exact hmirrors

theorem removeRange_follows {m : MessagesModel Own} (hm : m.RowsLead) {first last : Nat}
    (hlast : last < m.messages.length) :
    Follows m (m.removeRange first last) (m.removeRangeSignals first last) := by
  by_cases hle : first ≤ last
  · have herased := eraseRows_follows hm hle hlast
    have halbums := @follows_foldl _ _ (fun m albumId => updateAlbumMessages m albumId true)
      (fun m albumId => updateAlbumMessagesSignals m albumId true)
      (fun hm albumId => updateAlbumMessages_follows hm albumId true) _ herased.lead (m.rescanAlbumIds first last)
    rw [← removeRange_eq m hle] at halbums
    rw [removeRangeSignals, if_pos hle]
    exact ((herased.trans halbums).dataChanged_if (0 < first) _ _).dataChanged_if
      (0 < (m.removeRange first last).messages.length) _ _
  · rw [removeRangeSignals, if_neg hle, removeRange, if_neg hle]
    exact .refl hm

/-- The loop keeps the end of the range it collects within the rows, or not set yet. -/
theorem deleteLoop_follows (count : Nat) {m : MessagesModel Own} (hm : m.RowsLead) (messageIds : List Int)
    {first last : Nat} (hlast : last = count ∨ last < m.messages.length) :
    Follows m (deleteLoop count m messageIds first last).1 (deleteLoopSignals count m messageIds first last) ∧
      ((deleteLoop count m messageIds first last).2.2 = count ∨
        (deleteLoop count m messageIds first last).2.2 <
          (deleteLoop count m messageIds first last).1.messages.length) := by
  induction messageIds generalizing m first last with
  | nil => exact ⟨.refl hm, hlast⟩
  | cons id rest ih =>
      rw [deleteLoop, deleteLoopSignals]
      cases hid : m.messageIndexMap.value id with
      | none => exact ih hm hlast
      | some position =>
          have hposition := hm.lt_length hid
          have hlast' := ite_lt_of_bound hlast hposition
          dsimp only
          generalize (if last = count then position else last) = last' at hlast' ⊢
          generalize (if first = count then position else first) = first'
          split_ifs with hgap
          · have hremove := @removeRange_follows _ m hm first' last' hlast'
            obtain ⟨hfollows, hbound⟩ := @ih _ hremove.lead position position
              (Or.inr (lt_length_removeRange (by omega) hposition))
            exact ⟨hremove.trans hfollows, hbound⟩
          · exact ih hm (Or.inr hlast')

theorem handleMessagesDeleted_follows {m : MessagesModel Own} (hm : m.RowsLead) (chatId : Int)
    (messageIds : List Int) :
    Follows m (m.handleMessagesDeleted chatId messageIds) (m.handleMessagesDeletedSignals chatId messageIds) := by
  rw [handleMessagesDeleted, handleMessagesDeletedSignals]
  split_ifs
  · generalize messageIds.reverse = messageIds
    obtain ⟨hfollows, hbound⟩ := @deleteLoop_follows _ messageIds.length m hm messageIds messageIds.length _
      (Or.inl rfl)
    rw [deleteMessages, deleteMessagesSignals]
    dsimp only
    split_ifs with h
    · exact hfollows.trans (removeRange_follows hfollows.lead (hbound.resolve_left h.2))
    · rw [List.append_nil]
      exact hfollows
  · exact .refl hm

theorem clear_follows {m : MessagesModel Own} (hm : m.RowsLead) : Follows m m.clear m.clearSignals := by
  rw [clearSignals]
  split_ifs with h
  · have heq : m.clear = m := by rw [clear, if_pos h]
    rw [heq]
    exact .refl hm
  · have hids : m.clear.ids = [] := by rw [ids, messages_clear, List.map_nil]
    refine ⟨?_, ?_⟩
    · rw [clear, if_neg h]
      exact Indexes.empty.leads
    · rw [hids]
      exact mirrors_reset _ _

section Virtual

variable [Virtuals Own]

theorem insertMessages_follows {m : MessagesModel Own} (hm : m.RowsLead) {newMessages : List MessageData}
    (hne : newMessages ≠ []) (happend : Virtuals.appendMessages m newMessages = m.appendMessages newMessages)
    (hprepend : Virtuals.prependMessages m newMessages = m.prependMessages newMessages) :
    Follows m (m.insertMessages newMessages) (m.insertMessagesSignals newMessages) := by
  unfold insertMessages insertMessagesSignals
  rw [happend, hprepend]
  cases newMessages with
  | nil => exact absurd rfl hne
  | cons first rest =>
      dsimp only
      split_ifs
      · exact appendMessages_follows hm hne
      · exact appendMessages_follows hm hne
      · exact prependMessages_follows hm hne

omit [Virtuals Own] in
/-- The ids of the rows with a row that is replaced. -/
theorem ids_set (m : MessagesModel Own) {pre post : List MessageData} {old message : MessageData}
    (hrows : m.messages = pre ++ old :: post) :
    ids { m with messages := m.messages.set pre.length message } = m.ids.set pre.length message.messageId := by
  rw [ids, ids, hrows, set_append_cons, List.map_append, List.map_cons, List.map_append, List.map_cons]
  have hset := set_append_cons (pre.map MessageData.messageId) (post.map MessageData.messageId) old.messageId
    message.messageId
  rw [List.length_map] at hset
  exact hset.symm

theorem handleMessageSendSucceededSignals_mirrors [LawfulVirtuals Own] {m : MessagesModel Own}
    {chatId oldMessageId messageId : Int} (message : QVariantMap) {pre post : List MessageData} {old : MessageData}
    (hchat : m.chatId = chatId) (hrows : m.messages = pre ++ old :: post)
    (hold : m.messageIndexMap.value oldMessageId = some pre.length) :
    Mirrors (fun role => role == .messageId)
      (m.handleMessageSendSucceededSignals chatId oldMessageId messageId message) m.ids
      (m.handleMessageSendSucceeded chatId oldMessageId messageId message).1.ids := by
  have hid := m.sentMessage_messageId messageId message
  have hlt : pre.length < m.messages.length := by
    rw [hrows, List.length_append, List.length_cons]
    omega
  have hlt' : pre.length < m.ids.length := by rwa [ids, List.length_map]
  have hget : m.messages[pre.length]? = some old := by rw [hrows]; simp
  have hgetid : m.ids[pre.length]? = some old.messageId := by rw [ids, List.getElem?_map, hget]; rfl
  have hfinal : (m.handleMessageSendSucceeded chatId oldMessageId messageId message).1.ids =
      pre.map MessageData.messageId ++ post.map MessageData.messageId ++ [messageId] := by
    rw [handleMessageSendSucceeded_eq m messageId message hchat hrows hold, ids]
    simp [hid]
  have hset := @ids_set _ m pre post old (m.sentMessage messageId message) hrows
  rw [hid] at hset
  have hreplaced : m.ids.set pre.length messageId =
      pre.map MessageData.messageId ++ messageId :: post.map MessageData.messageId := by
    rw [← hid, ← ids_set m hrows, ids, hrows, set_append_cons, List.map_append, List.map_cons]
  rw [handleMessageSendSucceededSignals, if_pos hchat, hold]
  dsimp only
  rw [dataChanged, signal, signal, hset, hget, index, if_pos (by rwa [List.length_set]), Option.map_some,
    Option.getD_some]
  -- the row that is replaced shows its new id
  have hdata := @mirrors_replaced _ _ (fun role => role == MessageRole.messageId) m.ids pre.length messageId
    ((m.sentMessage messageId message).diff old) hlt' (by
      by_cases hsame : old.messageId = messageId
      · exact Or.inl (by rw [hgetid, hsame])
      · refine Or.inr ⟨.messageId, ?_, rfl⟩
        simp [MessageData.diff, hid, hsame])
  refine hdata.append ?_
  split_ifs with hmoves
  · have hrange : MoveInRange (m.ids.set pre.length messageId) pre.length (m.messages.length - 1) := by
      constructor <;> rw [List.length_set, ids, List.length_map] <;> omega
    have hmoved := @mirrors_moved _ MessageRole (fun role => role == .messageId) _ _ _ hrange (by omega)
    have htarget : m.messages.length - 1 = pre.length + post.length := by
      rw [hrows, List.length_append, List.length_cons]
      omega
    have hmove := move_append (pre.map MessageData.messageId) (post.map MessageData.messageId) [] messageId
    rw [List.append_nil, List.length_map, List.length_map] at hmove
    rw [if_neg (by omega), hreplaced, htarget, hmove] at hmoved
    rw [hreplaced, hfinal, htarget]
    exact hmoved
  · have hnil : post = [] := by
      rw [hrows, List.length_append, List.length_cons] at hmoves
      exact List.eq_nil_of_length_eq_zero (by omega)
    subst hnil
    rw [hreplaced, hfinal, List.map_nil, List.append_nil]
    exact .nil _

/-- The row of the old id is replaced, and goes to the end. -/
theorem handleMessageSendSucceeded_follows [LawfulVirtuals Own] {m : MessagesModel Own} (hm : m.RowsLead)
    (chatId oldMessageId messageId : Int) (message : QVariantMap) :
    Follows m (m.handleMessageSendSucceeded chatId oldMessageId messageId message).1
      (m.handleMessageSendSucceededSignals chatId oldMessageId messageId message) := by
  by_cases hchat : m.chatId = chatId
  swap
  · rw [handleMessageSendSucceeded, handleMessageSendSucceededSignals, if_neg hchat, if_neg hchat]
    exact .refl hm
  cases hold : m.messageIndexMap.value oldMessageId with
  | none =>
      rw [handleMessageSendSucceeded, handleMessageSendSucceededSignals, if_pos hchat, if_pos hchat, hold]
      exact .refl hm
  | some pos =>
      obtain ⟨pre, old, post, hrows, rfl, -, hkey⟩ := Leads.exists_split hm hold
      have hid := m.sentMessage_messageId messageId message
      refine ⟨?_, handleMessageSendSucceededSignals_mirrors message hchat hrows hold⟩
      · rw [handleMessageSendSucceeded_eq m messageId message hchat hrows hold, RowsLead]
        generalize m.sentMessage messageId message = newMessage at hid
        have hm' : Leads MessageData.key (pre ++ old :: post) m.messageIndexMap := by
          rw [← hrows]
          exact hm
        rw [List.append_assoc]
        refine Leads.rebuild _ hm' fun k i hk hnot => ?_
        have hknew : k ≠ messageId := by
          rintro rfl
          exact hnot newMessage (by simp) (MessageData.key_eq_some.mpr hid)
        rw [QHash.value_insert_of_ne _ _ hknew, QHash.value_remove] at hk
        split_ifs at hk with hkold
        refine ⟨hk, List.forall_mem_cons.mpr ⟨fun hkey' => hkold ?_, fun r hr => ?_⟩⟩
        · exact Option.some.inj (hkey'.symm.trans hkey)
        · exact hnot r (List.mem_append_left _ hr)

end Virtual

end MessagesModel

end YaqtLib
