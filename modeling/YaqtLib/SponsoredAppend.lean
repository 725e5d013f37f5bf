import YaqtLib.SponsoredRuns

/-! Appending to a chat that has a single sponsored message. The message stays the last row, so what is appended goes in
before it: at an index that is looked for from the end, over the sponsored rows. -/

namespace YaqtLib

open Containers IndexMap MessagesModel

namespace ChatMessagesModel

variable {m : ChatMessagesModel} {ords new : List MessageData} {single : Option MessageData}

/-- The chat keeps a single sponsored message at the end. -/
def KeepsSingle (m : ChatMessagesModel) : Prop :=
  m.own.containsSponsoredMessages = true ∧ m.own.sponsoredMessagesMessagesBetween = 0

instance (m : ChatMessagesModel) : Decidable (KeepsSingle m) := inferInstanceAs (Decidable (_ ∧ _))

/-- The index `appendMessages` inserts at. -/
def appendIndex (m : ChatMessagesModel) : Int :=
  if KeepsSingle m then (m.messages.reverse.dropWhile MessageData.isSponsored).length - 1 else m.messages.length

theorem appendMessages_of_single (h : KeepsSingle m) (new : List MessageData) :
    appendMessages m new = m.insertMessagesAt (appendIndex m) new := by
  have hguard : (m.own.containsSponsoredMessages && m.own.sponsoredMessagesMessagesBetween == 0) = true := by
    rw [h.1, h.2]
    rfl
  rw [appendMessages, if_pos hguard, appendIndex, if_pos h]

theorem appendMessages_of_not_single (h : ¬ KeepsSingle m) (new : List MessageData) :
    appendMessages m new = MessagesModel.appendMessages m new := by
  have hguard : ¬ (m.own.containsSponsoredMessages && m.own.sponsoredMessagesMessagesBetween == 0) = true := by
    rw [Bool.and_eq_true, beq_iff_eq]
    exact h
  rw [appendMessages, if_neg hguard]

/-- The rows are ordinary ones, and a sponsored one behind them if there is one. -/
structure SingleLast (m : ChatMessagesModel) (ords : List MessageData) (single : Option MessageData) : Prop where
  rows : m.messages = ords ++ single.toList
  ordinary : ∀ r ∈ ords, r.isSponsored = false
  sponsored : ∀ r ∈ single, r.isSponsored = true

/-- What is appended has gone in between the ordinary rows and the sponsored one, at indices in range, and every row is
still found at its place. -/
structure AppendsBefore (m : ChatMessagesModel) (ords : List MessageData) (single : Option MessageData)
    (new : List MessageData) (m' : ChatMessagesModel) : Prop where
  rows : m'.messages = ords ++ new ++ single.toList
  inRange : ∀ i < new.length, 0 ≤ appendIndex m + i ∧ appendIndex m + i ≤ m.messages.length + i
  indexExact : m.IndexExact → m'.IndexExact

/-- The loop stops at the last ordinary row, not behind it. -/
theorem appendIndex_of_single (hkeeps : KeepsSingle m) (h : SingleLast m ords single) :
    appendIndex m = (ords.length : Int) - 1 := by
  have hords : ords.reverse.dropWhile MessageData.isSponsored = ords.reverse := by
    rw [List.dropWhile_eq_self_iff]
    intro hlen
    rw [h.ordinary _ (List.mem_reverse.mp (List.getElem_mem hlen))]
    exact Bool.false_ne_true
  have hdrop : m.messages.reverse.dropWhile MessageData.isSponsored = ords.reverse := by
    rw [h.rows, List.reverse_append]
    cases single with
    | none => exact hords
    | some s =>
        rw [Option.toList_some, List.reverse_singleton, List.singleton_append,
          List.dropWhile_cons_of_pos (h.sponsored s rfl)]
        exact hords
  rw [appendIndex, if_pos hkeeps, hdrop, List.length_reverse]

/-- With an ordinary row among them, the rows that are appended come before the last one. -/
theorem messages_appendMessages_of_single (hkeeps : KeepsSingle m) {pre : List MessageData} {last : MessageData}
    (h : SingleLast m (pre ++ [last]) single) (new : List MessageData) :
    (appendMessages m new).messages = pre ++ new ++ last :: single.toList := by
  have hindex : appendIndex m = pre.length := by
    rw [appendIndex_of_single hkeeps h, List.length_append, List.length_singleton]
    omega
  have hrows : m.messages = pre ++ last :: single.toList := by
    rw [h.rows, List.append_assoc, List.singleton_append]
  rw [appendMessages_of_single hkeeps, hindex, insertMessagesAt_eq m pre _ new hrows]

/-- Nothing is appended where it belongs. -/
theorem not_appendsBefore_of_single (hkeeps : KeepsSingle m) (h : SingleLast m ords single) (hnonempty : new ≠ [])
    (hnew : ∀ r ∈ new, r ∉ ords) : ¬ AppendsBefore m ords single new (appendMessages m new) := by
  intro happends
  obtain ⟨first, rest, rfl⟩ := List.exists_cons_of_ne_nil hnonempty
  rcases List.eq_nil_or_concat' ords with rfl | ⟨pre, last, rfl⟩
  · have hrange := (happends.inRange 0 (Nat.zero_lt_succ _)).1
    rw [appendIndex_of_single hkeeps h] at hrange
    revert hrange
    decide
  · have hrows := happends.rows
    rw [messages_appendMessages_of_single hkeeps h, List.append_assoc, List.append_assoc, List.append_assoc,
      List.append_cancel_left_eq, List.cons_append, List.singleton_append, List.cons.injEq] at hrows
    refine hnew first List.mem_cons_self ?_
    rw [hrows.1]
    exact List.mem_append_right _ List.mem_cons_self

theorem insertMessagesAt_nil (m : ChatMessagesModel) (insertIndex : Int) :
    m.insertMessagesAt insertIndex [] = m.insertMessagesAt insertIndex.toNat [] := by
  have hlen : (insertIndex + ([] : List MessageData).length).toNat =
      ((insertIndex.toNat : Int) + ([] : List MessageData).length).toNat := by
    rw [List.length_nil]
    omega
  rw [insertMessagesAt, insertMessagesAt, insertLoop, insertLoop, hlen]

theorem appendsBefore_nil (hkeeps : KeepsSingle m) (h : SingleLast m ords single) :
    AppendsBefore m ords single [] (appendMessages m []) := by
  have hlen : (appendIndex m).toNat ≤ m.messages.length := by
    rw [appendIndex_of_single hkeeps h, h.rows, List.length_append]
    omega
  rw [appendMessages_of_single hkeeps, insertMessagesAt_nil]
  refine ⟨?_, by rintro i ⟨⟩, fun hexact => indexExact_insertMessagesAt hexact hlen ?_⟩
  · rw [List.append_nil]
    exact h.rows
  · rw [List.map_nil, List.append_nil]
    exact hexact.nodup

/-- Without a single sponsored message to keep, rows go in at the end. -/
theorem appendsBefore_of_none (hkeeps : ¬ KeepsSingle m) (h : SingleLast m ords none)
    (hnew : m.IndexExact → (m.ids ++ new.map MessageData.messageId).Nodup) :
    AppendsBefore m ords none new (appendMessages m new) := by
  rw [appendMessages_of_not_single hkeeps]
  refine ⟨?_, fun i _ => ?_, fun hexact => indexExact_appendMessages hexact (hnew hexact)⟩
  · rw [MessagesModel.appendMessages, h.rows, Option.toList_none, List.append_nil, List.append_nil]
  · rw [appendIndex, if_neg hkeeps]
    omega

theorem nodup_ids_append_created (hexact : m.IndexExact) {message : QVariantMap} {messageId : Int}
    (hnew : m.messageIndexMap.contains messageId = false) :
    (m.ids ++ [MessageData.create message messageId].map MessageData.messageId).Nodup := by
  refine List.nodup_append.mpr ⟨hexact.nodup, List.nodup_singleton _, ?_⟩
  intro id hid id' hid' heq
  rw [List.map_singleton, List.mem_singleton, MessageData.create_messageId] at hid'
  rw [heq, hid'] at hid
  exact (not_mem_ids_iff hexact messageId).mp hnew hid

/-- The rows that a reply with a single message leaves are those of the call of `appendMessages`. -/
theorem handleSponsoredMessagesReceived_single (m : ChatMessagesModel) (hchannel : isChannel m = true)
    {message : QVariantMap} (rest : List QVariantMap) (hid : sponsoredIdOf message ≠ 0)
    (hnew : m.messageIndexMap.contains (sponsoredIdOf message) = false) :
    handleSponsoredMessagesReceived m m.chatId (message :: rest) 0 =
      let m' := appendMessages m [MessageData.create message (sponsoredIdOf message)]
      { m' with own := { m'.own with containsSponsoredMessages := true, sponsoredMessagesMessagesBetween := 0 } } := by
  have hguard : ¬ (m.chatId ≠ m.chatId ∨ isChannel m = false) := by
    rw [hchannel]
    rintro (hne | hfalse)
    · exact hne rfl
    · cases hfalse
  rw [handleSponsoredMessagesReceived, if_neg hguard]
  dsimp only
  rw [if_pos rfl, if_pos ⟨hid, hnew⟩]
  rfl

/-- What is appended to a chat with a sponsored row at the end, or with none yet, goes in where it belongs exactly when
the chat has no single sponsored message to keep, or nothing is appended. -/
theorem appendMessages_before_iff (m : ChatMessagesModel) {ords : List MessageData} {single : Option MessageData}
    (h : SingleLast m ords single) (hstate : KeepsSingle m ∨ single = none) :
    (∀ new : List MessageData, (∀ r ∈ new, r.messageId ∉ m.ids) → (new.map MessageData.messageId).Nodup →
      (AppendsBefore m ords single new (appendMessages m new) ↔ new = [] ∨ ¬ KeepsSingle m)) ∧
    ∀ (message : QVariantMap) (rest : List QVariantMap), isSponsoredMessage message = true → isChannel m = true →
      sponsoredIdOf message ≠ 0 → m.messageIndexMap.contains (sponsoredIdOf message) = false →
      (AppendsBefore m ords single [MessageData.create message (sponsoredIdOf message)]
        (handleSponsoredMessagesReceived m m.chatId (message :: rest) 0) ↔ ¬ KeepsSingle m) := by
  constructor
  · intro new hfresh hdistinct
    by_cases hkeeps : KeepsSingle m
    · rw [or_iff_left (not_not.mpr hkeeps)]
      constructor
      · intro happends
        by_contra hnonempty
        refine not_appendsBefore_of_single hkeeps h hnonempty (fun r hr hold => hfresh r hr ?_) happends
        refine List.mem_map_of_mem ?_
        rw [h.rows]
        exact List.mem_append_left _ hold
      · rintro rfl
        exact appendsBefore_nil hkeeps h
    · obtain rfl := hstate.resolve_left hkeeps
      refine iff_of_true (appendsBefore_of_none hkeeps h fun hexact => ?_) (Or.inr hkeeps)
      refine List.nodup_append.mpr ⟨hexact.nodup, hdistinct, ?_⟩
      rintro id hid id' hid' rfl
      obtain ⟨r, hr, rfl⟩ := List.mem_map.mp hid'
      exact hfresh r hr hid
  · intro message rest hsponsored hchannel hid hnew
    rw [handleSponsoredMessagesReceived_single m hchannel rest hid hnew]
    by_cases hkeeps : KeepsSingle m
    · refine iff_of_false (fun happends => ?_) (not_not.mpr hkeeps)
      refine not_appendsBefore_of_single hkeeps h (List.cons_ne_nil _ _) (fun r hr hold => ?_)
        ⟨happends.rows, happends.inRange, happends.indexExact⟩
      have hord := h.ordinary r hold
      rw [List.mem_singleton.mp hr, MessageData.create_isSponsored, hsponsored] at hord
      cases hord
    · obtain rfl := hstate.resolve_left hkeeps
      have happends : AppendsBefore m ords none [MessageData.create message (sponsoredIdOf message)] _ :=
        appendsBefore_of_none hkeeps h fun hexact => nodup_ids_append_created hexact hnew
      exact iff_of_true ⟨happends.rows, happends.inRange, happends.indexExact⟩ hkeeps

theorem channel_singleLast : SingleLast channel channel.messages none := ⟨rfl, by decide, by rintro _ ⟨⟩⟩

/-- The first sponsored message of a channel. -/
theorem appendMessages_before_channel :
    AppendsBefore channel channel.messages none [MessageData.create (sponsoredMessageOf 90 none) 90]
      (handleSponsoredMessagesReceived channel 7 [sponsoredMessageOf 90 none] 0) :=
  ((appendMessages_before_iff channel channel_singleLast (Or.inr rfl)).2 (sponsoredMessageOf 90 none) [] rfl rfl
    (by decide) rfl).mpr (by decide)

/-- The next message of the channel comes before the one it had. -/
theorem not_appendMessages_before :
    let m := handleSponsoredMessagesReceived channel 7 [sponsoredMessageOf 90 none] 0
    let single := some (MessageData.create (sponsoredMessageOf 90 none) 90)
    KeepsSingle m ∧ SingleLast m channel.messages single ∧
      ¬ AppendsBefore m channel.messages single [MessageData.create (messageOf 7 21) 21]
        (appendMessages m [MessageData.create (messageOf 7 21) 21]) := by
  refine ⟨by decide, ⟨rfl, by decide, ?_⟩, fun happends => ?_⟩
  · rintro _ ⟨⟩
    rfl
  · have hids := congrArg (fun rows : List MessageData => rows.map MessageData.messageId) happends.rows
    revert hids
    decide

end ChatMessagesModel

end YaqtLib
