import YaqtLib.FilteredRows

/-! A media model among its messages: what they currently contain, which of them are being fetched, and which have
come to match between the rows. The signal that a message was pinned or unpinned is connected to no slot, and a
content update asks for a message that is not loaded exactly if it does not match. -/

namespace YaqtLib

open Containers IndexMap Runs TdConst MessagesModel

namespace MediaMessagesModel

/-- The filters whose messages are told by their content type, and the one of pinned messages. -/
def watchable (filter : SearchMessagesFilter) : Bool := filtersByContent filter || filter == .pinned

/-- `setupTDLibWrapper` connects every signal but the one of the pins. -/
def connected : Event → Bool
  | .messageIsPinnedUpdated .. => false
  | _ => true

/-- The messages of a chat as they are. -/
structure ChatContent where
  contents : Int → QVariantMap
  pinned : Int → Bool

namespace ChatContent

def message (c : ChatContent) (messageId : Int) : QVariantMap :=
  [(CONTENT, .map (c.contents messageId)), (IS_PINNED, .bool (c.pinned messageId))]

/-- Whether the message matches the filter as it is. -/
def Matches (c : ChatContent) (filter : SearchMessagesFilter) (messageId : Int) : Prop :=
  Utilities.messageMatchesSearchFilter (c.message messageId) filter = true

instance (c : ChatContent) (filter : SearchMessagesFilter) (messageId : Int) :
    Decidable (c.Matches filter messageId) :=
  inferInstanceAs (Decidable (_ = true))

/-- The object has the content and the pin of the message. -/
def Shows (c : ChatContent) (messageId : Int) (message : QVariantMap) : Prop :=
  (message.value CONTENT).toMap = c.contents messageId ∧ (message.value IS_PINNED).toBool = c.pinned messageId

instance (c : ChatContent) (messageId : Int) (message : QVariantMap) : Decidable (c.Shows messageId message) :=
  inferInstanceAs (Decidable (_ ∧ _))

/-- The messages of the chat after an update of one of them. -/
def updated (chatId : Int) (c : ChatContent) : Event → ChatContent
  | .messageContentUpdated chatId' messageId newContent =>
      if chatId' = chatId then { c with contents := Function.update c.contents messageId newContent } else c
  | .messageIsPinnedUpdated chatId' messageId isPinned =>
      if chatId' = chatId then { c with pinned := Function.update c.pinned messageId isPinned } else c
  | _ => c

theorem Shows.matches {c : ChatContent} {messageId : Int} {message : QVariantMap} (h : c.Shows messageId message)
    {filter : SearchMessagesFilter} (hfilter : watchable filter = true) :
    Utilities.messageMatchesSearchFilter message filter = true ↔ c.Matches filter messageId := by
  have hcontent : ((c.message messageId).value CONTENT).toMap = (message.value CONTENT).toMap := h.1.symm
  have hpinned : ((c.message messageId).value IS_PINNED).toBool = (message.value IS_PINNED).toBool := h.2.symm
  rw [Matches]
  cases filter <;>
    simp_all [watchable, filtersByContent, Utilities.messageMatchesSearchFilter]

end ChatContent

theorem ChatContent.matches_of_content {c : ChatContent} {filter : SearchMessagesFilter}
    (hfilter : filtersByContent filter = true) (messageId : Int) : c.Matches filter messageId ↔
      Utilities.messageContentTypeMatchesSearchFilter ((c.contents messageId).value TYPE_).toStr filter = true := by
  have hcontent : ((c.message messageId).value CONTENT).toMap = c.contents messageId := rfl
  rw [Matches]
  cases filter <;> simp_all [filtersByContent, Utilities.messageMatchesSearchFilter]

theorem ChatContent.matches_pinned (c : ChatContent) (messageId : Int) :
    c.Matches .pinned messageId ↔ c.pinned messageId = true := Iff.rfl

/-- The filters that do not look at the content look at the pin. -/
theorem eq_pinned_of_watchable {filter : SearchMessagesFilter} (hwatchable : watchable filter = true)
    (hfilter : filtersByContent filter = false) : filter = .pinned := by
  rw [watchable, hfilter, Bool.false_or] at hwatchable
  exact eq_of_beq hwatchable

/-- The message of the chat that an event updates. -/
def updatedId (chatId : Int) : Event → Option Int
  | .messageContentUpdated chatId' messageId _ | .messageIsPinnedUpdated chatId' messageId _ =>
      if chatId' = chatId then some messageId else none
  | _ => none

/-- Other messages stay as they are. -/
theorem ChatContent.matches_updated {c : ChatContent} {chatId k : Int} {e : Event} (h : updatedId chatId e ≠ some k)
    (filter : SearchMessagesFilter) : (c.updated chatId e).Matches filter k ↔ c.Matches filter k := by
  suffices hmessage : (c.updated chatId e).message k = c.message k by rw [Matches, hmessage, Matches]
  cases e with
  | messageContentUpdated chatId' messageId newContent =>
      rw [updatedId] at h
      rw [updated]
      split_ifs at h ⊢
      · rw [message]
        dsimp only
        rw [Function.update_of_ne fun heq => h (congrArg some heq.symm), message]
      · rfl
  | messageIsPinnedUpdated chatId' messageId isPinned =>
      rw [updatedId] at h
      rw [updated]
      split_ifs at h ⊢
      · rw [message]
        dsimp only
        rw [Function.update_of_ne fun heq => h (congrArg some heq.symm), message]
      · rfl
  | _ => rfl

/-- The id lies between the oldest and the newest row. -/
def Between (m : MediaMessagesModel) (messageId : Int) : Prop :=
  (∃ k ∈ m.ids, k ≤ messageId) ∧ ∃ k ∈ m.ids, messageId ≤ k

instance (m : MediaMessagesModel) (messageId : Int) : Decidable (Between m messageId) :=
  inferInstanceAs (Decidable (_ ∧ _))

/-- A model, the messages of its chat, the ones it is fetching, and those that an update made match while they lay
between the rows. -/
structure Watch where
  model : MediaMessagesModel
  chat : ChatContent
  fetching : List Int
  due : List Int

/-- The messages that are asked for. -/
def fetchedIds (outputs : List Output) : List Int :=
  outputs.filterMap fun
    | .request (.getMessage _ messageId) => some messageId
    | _ => none

namespace Watch

/-- The message matches the filter of the model as it is. -/
abbrev Matches (s : Watch) (messageId : Int) : Prop := s.chat.Matches s.model.own.searchMessagesFilter messageId

/-- The messages that an update made match between the rows, and that have matched since. -/
def dueAfter (s : Watch) (e : Event) : List Int :=
  match updatedId s.model.chatId e with
  | none => s.due
  | some messageId =>
      if (s.chat.updated s.model.chatId e).Matches s.model.own.searchMessagesFilter messageId then
        if ¬ s.Matches messageId ∧ Between s.model messageId then messageId :: s.due else s.due
      else s.due.filter (· ≠ messageId)

/-- The requests for messages that an event leaves unanswered. -/
def stillFetching (s : Watch) : Event → List Int
  | .messageFetched messageId _ => s.fetching.erase messageId
  | _ => s.fetching

def step (s : Watch) (e : Event) : Watch :=
  let result := if connected e then handle s.model e else (s.model, [])
  { model := result.1
    chat := s.chat.updated s.model.chatId e
    fetching := s.stillFetching e ++ fetchedIds result.2
    due := s.dueAfter e }

/-- A model that was initialized for the chat. -/
def start (inverted : Bool) (filter : SearchMessagesFilter) (chatId fromMessageId : Int) (checkCount : Bool)
    (chat : ChatContent) : Watch :=
  { model := (init (new inverted filter) chatId fromMessageId checkCount false).1, chat := chat, fetching := [],
    due := [] }

/-- The events of a run: searches, whose answers hold matching messages, new messages, updates, and the replies to
fetches, each message as it is. -/
def Reports (s : Watch) : Event → Prop
  | .foundChatMessagesReceived chatId filter _ messages _ _ =>
      s.model.chatId = chatId → filter = s.model.own.searchMessagesFilter →
        ∀ message ∈ messages, chatIdOf message = chatId →
          s.chat.Shows (messageIdOf message) message ∧ s.Matches (messageIdOf message)
  | .newMessageReceived chatId message => chatId = s.model.chatId → s.chat.Shows (messageIdOf message) message
  | .messageFetched messageId message => messageId ∈ s.fetching ∧
      ((message.value TYPE_).toStr = TYPE_MESSAGE → s.chat.Shows messageId message)
  | .messageContentUpdated .. | .messageIsPinnedUpdated .. | .loadMoreHistory | .loadMoreFuture
  | .setMaintainCount .. | .chatMessageCountReceived .. => True
  | _ => False

instance (s : Watch) : ∀ e : Event, Decidable (s.Reports e) := by
  rintro (_ | _) <;> dsimp only [Reports] <;> infer_instance

/-- Every row matches, and the messages that came to match between the rows are rows. -/
def Settled (s : Watch) : Prop :=
  s.fetching = [] → (∀ k ∈ s.model.ids, s.Matches k) ∧ ∀ k ∈ s.due, k ∈ s.model.ids

instance (s : Watch) : Decidable s.Settled := inferInstanceAs (Decidable (_ → _))

/-- What the model can deal with: an answer lists no message twice, a message is fetched before it comes to match
between the rows, a row that stops matching is the last one and does so through its content, and a fetched message
matches if it finds a place, and finds one if it is due. -/
def Routed (s : Watch) : Event → Prop
  | .foundChatMessagesReceived chatId filter _ messages _ _ =>
      s.model.chatId = chatId → filter = s.model.own.searchMessagesFilter → (messages.map messageIdOf).Nodup
  | .messageContentUpdated chatId messageId newContent =>
      (Mismatches s.model chatId newContent → s.model.LastOrAbsent messageId) ∧
      (chatId = s.model.chatId → filtersByContent s.model.own.searchMessagesFilter = true →
        Utilities.messageContentTypeMatchesSearchFilter (newContent.value TYPE_).toStr
          s.model.own.searchMessagesFilter = true →
        Between s.model messageId → messageId ∈ s.model.ids ∨ s.Matches messageId ∨ messageId ∈ s.fetching)
  | .messageIsPinnedUpdated chatId messageId isPinned =>
      chatId = s.model.chatId → s.model.own.searchMessagesFilter = .pinned →
        if isPinned then Between s.model messageId → messageId ∈ s.model.ids ∨ s.Matches messageId
        else messageId ∉ s.model.ids
  | .messageFetched messageId message =>
      if (message.value TYPE_).toStr = TYPE_MESSAGE then
        (takesInOrder s.model messageId = true → messageId ∉ s.model.ids ∧ s.Matches messageId) ∧
        (messageId ∈ s.due → messageId ∈ s.model.ids ∨ takesInOrder s.model messageId = true ∨
          messageId ∈ s.fetching.erase messageId)
      else messageId ∈ s.due → messageId ∈ s.model.ids ∨ messageId ∈ s.fetching.erase messageId
  | _ => True

instance (s : Watch) : ∀ e : Event, Decidable (s.Routed e) := by
  rintro (_ | _) <;> dsimp only [Routed] <;> infer_instance

structure Invariant (s : Watch) : Prop where
  watchable : watchable s.model.own.searchMessagesFilter = true
  indexExact : s.model.IndexExact
  rowsMatch : ∀ k ∈ s.model.ids, s.Matches k
  due : ∀ k ∈ s.due, k ∈ s.model.ids ∨ k ∈ s.fetching

theorem Invariant.settled {s : Watch} (hs : s.Invariant) : s.Settled := by
  refine fun hfetching => ⟨hs.rowsMatch, fun k hk => (hs.due k hk).resolve_right ?_⟩
  rw [hfetching]
  exact List.not_mem_nil

variable {s : Watch} {e : Event}

/-- A step keeps the invariant if its rows match as the messages are then, and the due ones are rows or fetched. -/
theorem Invariant.of_rowed (hs : s.Invariant) {P : Int → Prop} (hrowed : Rowed s.model (s.step e).model P)
    (hmatch : ∀ k, P k → (s.chat.updated s.model.chatId e).Matches s.model.own.searchMessagesFilter k)
    (hdue : ∀ k ∈ s.dueAfter e, P k ∨ k ∈ (s.step e).fetching) : (s.step e).Invariant := by
  refine ⟨?_, hrowed.indexExact, fun k hk => ?_, fun k hk => ?_⟩
  · rw [hrowed.filter]
    exact hs.watchable
  · change (s.chat.updated s.model.chatId e).Matches (s.step e).model.own.searchMessagesFilter k
    rw [hrowed.filter]
    exact hmatch k ((hrowed.mem_ids k).mp hk)
  · exact (hdue k hk).imp_left (hrowed.mem_ids k).mpr

/-- An event that updates no message. -/
theorem Invariant.of_quiet (hs : s.Invariant) (hquiet : updatedId s.model.chatId e = none) {P : Int → Prop}
    (hrowed : Rowed s.model (s.step e).model P) (hmatch : ∀ k, P k → s.Matches k)
    (hdue : ∀ k ∈ s.due, P k ∨ k ∈ (s.step e).fetching) : (s.step e).Invariant := by
  refine hs.of_rowed hrowed (fun k hk => ?_) fun k hk => ?_
  · rw [ChatContent.matches_updated (by rw [hquiet]; exact Option.some_ne_none k ∘ Eq.symm)]
    exact hmatch k hk
  · rw [dueAfter, hquiet] at hk
    exact hdue k hk

theorem mem_fetching_step {k : Int} (hk : k ∈ s.stillFetching e) : k ∈ (s.step e).fetching :=
  List.mem_append_left _ hk

/-- A step that leaves the rows and the messages alone. -/
theorem Invariant.of_kept (hs : s.Invariant) (hquiet : updatedId s.model.chatId e = none)
    (hstill : s.stillFetching e = s.fetching) (hrowed : Rowed s.model (s.step e).model (· ∈ s.model.ids)) :
    (s.step e).Invariant := by
  refine hs.of_quiet hquiet hrowed hs.rowsMatch fun k hk => (hs.due k hk).imp_right fun hfetch => ?_
  exact mem_fetching_step (hstill ▸ hfetch)

theorem invariant_foundChatMessagesReceived (hs : s.Invariant) {chatId : Int} {filter : SearchMessagesFilter}
    {extra : UpdateType} {messages : List QVariantMap} {totalCount nextFromMessageId : Int}
    (hreports : s.Reports (.foundChatMessagesReceived chatId filter extra messages totalCount nextFromMessageId))
    (hrouted : s.Routed (.foundChatMessagesReceived chatId filter extra messages totalCount nextFromMessageId)) :
    (s.step (.foundChatMessagesReceived chatId filter extra messages totalCount nextFromMessageId)).Invariant := by
  have hrowed := handleMessagesReceived_rowed hs.indexExact chatId filter extra totalCount nextFromMessageId hrouted
  have hids : ∀ k, k ∈ idsAfterSearch s.model chatId filter extra messages → s.Matches k := by
    intro k hk
    rw [idsAfterSearch] at hk
    split_ifs at hk with haddressed
    · rcases List.mem_append.mp hk with hk | hk
      · exact hs.rowsMatch k hk
      · split_ifs at hk
        · obtain ⟨message, hmessage, rfl⟩ := List.mem_map.mp hk
          obtain ⟨hmem, hfresh⟩ := List.mem_filter.mp hmessage
          have hchat := (of_decide_eq_true hfresh).2.1
          exact (hreports haddressed.1 haddressed.2 message hmem (hchat.trans haddressed.1)).2
        · exact absurd hk List.not_mem_nil
    · exact hs.rowsMatch k hk
  have hkeeps : ∀ k ∈ s.model.ids, k ∈ idsAfterSearch s.model chatId filter extra messages := by
    intro k hk
    rw [idsAfterSearch]
    split_ifs
    · exact List.mem_append_left _ hk
    · exact hk
  refine hs.of_quiet rfl hrowed hids fun k hk => ?_
  exact (hs.due k hk).imp (hkeeps k) mem_fetching_step

theorem invariant_newMessageReceived (hs : s.Invariant) {chatId : Int} {message : QVariantMap}
    (hreports : s.Reports (.newMessageReceived chatId message)) :
    (s.step (.newMessageReceived chatId message)).Invariant := by
  refine hs.of_quiet rfl (handleNewMessageReceived_rowed hs.indexExact chatId message) ?_ fun k hk => ?_
  · rintro k (hk | ⟨rfl, -, hchat, hmatch⟩)
    · exact hs.rowsMatch k hk
    · exact ((hreports hchat).matches hs.watchable).mp hmatch
  · exact (hs.due k hk).imp Or.inl mem_fetching_step

theorem invariant_messageFetched (hs : s.Invariant) {messageId : Int} {message : QVariantMap}
    (hrouted : s.Routed (.messageFetched messageId message)) :
    (s.step (.messageFetched messageId message)).Invariant := by
  have hother : ∀ k ∈ s.due, k ≠ messageId →
      k ∈ s.model.ids ∨ k ∈ (s.step (.messageFetched messageId message)).fetching := by
    refine fun k hk hne => (hs.due k hk).imp_right fun hfetch => mem_fetching_step ?_
    exact (List.mem_erase_of_ne hne).mpr hfetch
  rw [Routed] at hrouted
  by_cases htype : (message.value TYPE_).toStr = TYPE_MESSAGE
  · rw [if_pos htype] at hrouted
    have hrowed : Rowed s.model (s.step (.messageFetched messageId message)).model
        fun k => k ∈ s.model.ids ∨ (k = messageId ∧ takesInOrder s.model messageId = true) := by
      change Rowed s.model (if (message.value TYPE_).toStr = TYPE_MESSAGE then _ else _) _
      rw [if_pos htype]
      exact insertMessageInOrder_rowed hs.indexExact message fun htakes => (hrouted.1 htakes).1
    refine hs.of_quiet rfl hrowed ?_ fun k hk => ?_
    · rintro k (hk | ⟨rfl, htakes⟩)
      · exact hs.rowsMatch k hk
      · exact (hrouted.1 htakes).2
    · by_cases heq : k = messageId
      · subst heq
        rcases hrouted.2 hk with hmem | htakes | hfetch
        · exact Or.inl (Or.inl hmem)
        · exact Or.inl (Or.inr ⟨rfl, htakes⟩)
        · exact Or.inr (mem_fetching_step hfetch)
      · exact (hother k hk heq).imp_left Or.inl
  · rw [if_neg htype] at hrouted
    have hrowed : Rowed s.model (s.step (.messageFetched messageId message)).model (· ∈ s.model.ids) := by
      change Rowed s.model (if (message.value TYPE_).toStr = TYPE_MESSAGE then _ else _) _
      rw [if_neg htype]
      exact .refl hs.indexExact
    refine hs.of_quiet rfl hrowed hs.rowsMatch fun k hk => ?_
    by_cases heq : k = messageId
    · subst heq
      exact (hrouted hk).imp_right mem_fetching_step
    · exact hother k hk heq

/-- What is due after an update: a message that came to match between the rows, or one that was due and is not the
one that stopped matching. -/
theorem mem_dueAfter {messageId k : Int} (hupdated : updatedId s.model.chatId e = some messageId)
    (hk : k ∈ s.dueAfter e) :
    (k ∈ s.due ∨ k = messageId ∧ ¬ s.Matches k ∧ Between s.model k) ∧
      (k = messageId → (s.chat.updated s.model.chatId e).Matches s.model.own.searchMessagesFilter k) := by
  rw [dueAfter, hupdated] at hk
  dsimp only at hk
  split_ifs at hk with hmatch hnew
  · refine ⟨?_, fun heq => heq ▸ hmatch⟩
    rcases List.mem_cons.mp hk with rfl | hk
    · exact Or.inr ⟨rfl, hnew⟩
    · exact Or.inl hk
  · exact ⟨Or.inl hk, fun heq => heq ▸ hmatch⟩
  · obtain ⟨hdue, hne⟩ := List.mem_filter.mp hk
    exact ⟨Or.inl hdue, fun heq => absurd heq (of_decide_eq_true hne)⟩

theorem invariant_messageContentUpdated (hs : s.Invariant) {chatId messageId : Int} {newContent : QVariantMap}
    (hrouted : s.Routed (.messageContentUpdated chatId messageId newContent)) :
    (s.step (.messageContentUpdated chatId messageId newContent)).Invariant := by
  have hrowed := handleMessageContentUpdated_rowed hs.indexExact hrouted.1
  by_cases hchat : chatId = s.model.chatId
  swap
  · refine hs.of_kept (if_neg hchat) rfl (hrowed.congr fun k => and_iff_left ?_)
    exact fun h => hchat h.2.1.symm
  subst hchat
  have hupdated : updatedId s.model.chatId (.messageContentUpdated s.model.chatId messageId newContent) =
      some messageId := if_pos rfl
  -- what the update means for its message
  have hmessage : (s.chat.updated s.model.chatId (.messageContentUpdated s.model.chatId messageId newContent)).Matches
      s.model.own.searchMessagesFilter messageId ↔
      if filtersByContent s.model.own.searchMessagesFilter = true then
        ¬ Mismatches s.model s.model.chatId newContent
      else s.Matches messageId := by
    split_ifs with hfilter
    · rw [ChatContent.matches_of_content hfilter, ChatContent.updated, if_pos rfl]
      dsimp only
      rw [Function.update_self, Mismatches, and_iff_right rfl, and_iff_right hfilter, Bool.not_eq_false]
    · have hpinned := eq_pinned_of_watchable hs.watchable (Bool.not_eq_true _ ▸ hfilter)
      rw [Matches, hpinned, ChatContent.matches_pinned, ChatContent.matches_pinned, ChatContent.updated, if_pos rfl]
  have hkeep : ∀ k ∈ s.model.ids, ¬ (k = messageId ∧ Mismatches s.model s.model.chatId newContent) →
      (s.chat.updated s.model.chatId (.messageContentUpdated s.model.chatId messageId newContent)).Matches
        s.model.own.searchMessagesFilter k := by
    intro k hk hnot
    by_cases heq : k = messageId
    · subst heq
      rw [hmessage]
      split_ifs
      · exact fun h => hnot ⟨rfl, h⟩
      · exact hs.rowsMatch k hk
    · rw [ChatContent.matches_updated (by rw [hupdated]; exact fun h => heq (Option.some.inj h).symm)]
      exact hs.rowsMatch k hk
  refine hs.of_rowed hrowed (fun k hk => hkeep k hk.1 hk.2) fun k hk => ?_
  obtain ⟨hdue, hstill⟩ := mem_dueAfter hupdated hk
  have hnot : ¬ (k = messageId ∧ Mismatches s.model s.model.chatId newContent) := by
    rintro ⟨rfl, hmismatch⟩
    have hmatch := hmessage.mp (hstill rfl)
    rw [if_pos hmismatch.2.1] at hmatch
    exact hmatch hmismatch
  rcases hdue with hdue | ⟨rfl, hnew, hbetween⟩
  · exact (hs.due k hdue).imp (fun hmem => ⟨hmem, hnot⟩) mem_fetching_step
  · have hfilter : filtersByContent s.model.own.searchMessagesFilter = true := by
      by_contra hfilter
      have hmatch := hmessage.mp (hstill rfl)
      rw [if_neg hfilter] at hmatch
      exact hnew hmatch
    have hmatch : Utilities.messageContentTypeMatchesSearchFilter (newContent.value TYPE_).toStr
        s.model.own.searchMessagesFilter = true := by
      by_contra hmatch
      exact hnot ⟨rfl, rfl, hfilter, Bool.not_eq_true _ ▸ hmatch⟩
    rcases hrouted.2 rfl hfilter hmatch hbetween with hmem | hold | hfetch
    · exact Or.inl ⟨hmem, hnot⟩
    · exact absurd hold hnew
    · exact Or.inr (mem_fetching_step hfetch)

/-- The model is not told of the update. -/
theorem invariant_messageIsPinnedUpdated (hs : s.Invariant) {chatId messageId : Int} {isPinned : Bool}
    (hrouted : s.Routed (.messageIsPinnedUpdated chatId messageId isPinned)) :
    (s.step (.messageIsPinnedUpdated chatId messageId isPinned)).Invariant := by
  have hrowed : Rowed s.model (s.step (.messageIsPinnedUpdated chatId messageId isPinned)).model (· ∈ s.model.ids) :=
    .refl hs.indexExact
  by_cases hchat : chatId = s.model.chatId
  swap
  · exact hs.of_kept (if_neg hchat) rfl hrowed
  subst hchat
  have hupdated : updatedId s.model.chatId (.messageIsPinnedUpdated s.model.chatId messageId isPinned) =
      some messageId := if_pos rfl
  have hmessage : (s.chat.updated s.model.chatId (.messageIsPinnedUpdated s.model.chatId messageId isPinned)).Matches
      s.model.own.searchMessagesFilter messageId ↔
      if s.model.own.searchMessagesFilter = .pinned then isPinned = true else s.Matches messageId := by
    rw [ChatContent.updated, if_pos rfl]
    split_ifs with hpinned
    · rw [hpinned, ChatContent.matches_pinned]
      dsimp only
      rw [Function.update_self]
    · have hfilter : filtersByContent s.model.own.searchMessagesFilter = true := by
        by_contra hfilter
        exact hpinned (eq_pinned_of_watchable hs.watchable (Bool.not_eq_true _ ▸ hfilter))
      rw [Matches, ChatContent.matches_of_content hfilter, ChatContent.matches_of_content hfilter]
  have hkeep : ∀ k ∈ s.model.ids,
      (s.chat.updated s.model.chatId (.messageIsPinnedUpdated s.model.chatId messageId isPinned)).Matches
        s.model.own.searchMessagesFilter k := by
    intro k hk
    by_cases heq : k = messageId
    · subst heq
      rw [hmessage]
      split_ifs with hpinned
      · by_contra hunpinned
        have hrow := hrouted rfl hpinned
        rw [if_neg hunpinned] at hrow
        exact hrow hk
      · exact hs.rowsMatch k hk
    · rw [ChatContent.matches_updated (by rw [hupdated]; exact fun h => heq (Option.some.inj h).symm)]
      exact hs.rowsMatch k hk
  refine hs.of_rowed hrowed hkeep fun k hk => ?_
  obtain ⟨hdue, hstill⟩ := mem_dueAfter hupdated hk
  rcases hdue with hdue | ⟨rfl, hnew, hbetween⟩
  · exact (hs.due k hdue).imp_right mem_fetching_step
  · have hmatch := hmessage.mp (hstill rfl)
    split_ifs at hmatch with hpinned
    · have hrow := hrouted rfl hpinned
      rw [if_pos hmatch] at hrow
      exact Or.inl ((hrow hbetween).resolve_right hnew)
    · exact absurd hmatch hnew

/-- **Step lemma.** -/
theorem invariant_step (s : Watch) (e : Event) (hs : s.Invariant) (hreports : s.Reports e) (hrouted : s.Routed e) :
    (s.step e).Invariant := by
  cases e with
  | foundChatMessagesReceived => exact invariant_foundChatMessagesReceived hs hreports hrouted
  | newMessageReceived => exact invariant_newMessageReceived hs hreports
  | messageFetched => exact invariant_messageFetched hs hrouted
  | messageContentUpdated => exact invariant_messageContentUpdated hs hrouted
  | messageIsPinnedUpdated => exact invariant_messageIsPinnedUpdated hs hrouted
  | loadMoreHistory =>
      refine hs.of_kept rfl rfl ?_
      change Rowed s.model (JumpableMessagesModel.loadMoreHistory s.model).1 _
      rw [JumpableMessagesModel.loadMoreHistory]
      split_ifs
      · exact (Rowed.refl hs.indexExact).of_eq rfl rfl rfl
      · exact .refl hs.indexExact
  | loadMoreFuture =>
      refine hs.of_kept rfl rfl ?_
      change Rowed s.model (JumpableMessagesModel.loadMoreFuture s.model).1 _
      rw [JumpableMessagesModel.loadMoreFuture]
      split_ifs
      · exact (Rowed.refl hs.indexExact).of_eq rfl rfl rfl
      · exact .refl hs.indexExact
  | setMaintainCount value =>
      refine hs.of_kept rfl rfl ?_
      change Rowed s.model (setMaintainCount s.model value).1 _
      rw [setMaintainCount]
      split
      · exact (Rowed.refl hs.indexExact).of_eq rfl rfl rfl
      · exact .refl hs.indexExact
  | chatMessageCountReceived count chatId filter =>
      refine hs.of_kept rfl rfl ?_
      have hcount := updateTotalCount_rowed (Rowed.refl hs.indexExact) count
      change Rowed s.model (handleChatMessageCountReceived s.model count chatId filter).1 _
      rw [handleChatMessageCountReceived]
      dsimp only
      split_ifs
      · exact hcount.of_eq rfl rfl rfl
      · exact hcount.of_eq rfl rfl rfl
      · exact hcount
      · exact .refl hs.indexExact
  | _ => exact hreports.elim

theorem invariant_start (inverted : Bool) {filter : SearchMessagesFilter} (hfilter : watchable filter = true)
    (chatId fromMessageId : Int) (checkCount : Bool) (chat : ChatContent) :
    (start inverted filter chatId fromMessageId checkCount chat).Invariant := by
  have hnew : Rowed (new inverted filter) (new inverted filter) fun _ => False :=
    ⟨rfl, Indexes.empty, fun k => iff_of_false List.not_mem_nil id⟩
  have hrowed : Rowed (new inverted filter) (init (new inverted filter) chatId fromMessageId checkCount false).1
      fun _ => False := by
    rw [init]
    split
    · split
      · exact hnew
      · exact hnew.of_eq rfl rfl rfl
    · exact hnew.of_eq rfl rfl rfl
  refine ⟨?_, hrowed.indexExact, fun k hk => ((hrowed.mem_ids k).mp hk).elim, by rintro _ ⟨⟩⟩
  change watchable (init (new inverted filter) chatId fromMessageId checkCount false).1.own.searchMessagesFilter = true
  rw [hrowed.filter]
  exact hfilter

/-- Every row of the model matches, and what came to match between the rows is a row, in every state of a run that
the model can deal with. -/
theorem rowsMatch_of_routed (inverted : Bool) {filter : SearchMessagesFilter} (hfilter : watchable filter = true)
    (chatId fromMessageId : Int) (checkCount : Bool) (chat : ChatContent) (es : List Event)
    (hreports : Along step Reports (start inverted filter chatId fromMessageId checkCount chat) es)
    (hrouted : Along step Routed (start inverted filter chatId fromMessageId checkCount chat) es) :
    ∀ es', es' <+: es → (run step (start inverted filter chatId fromMessageId checkCount chat) es').Settled := by
  intro es' hstarts
  have hstep : ∀ s e, Invariant s → s.Reports e ∧ s.Routed e → (s.step e).Invariant :=
    fun s e hs h => invariant_step s e hs h.1 h.2
  exact (Along.invariant_always hstep (invariant_start inverted hfilter chatId fromMessageId checkCount chat)
    (hreports.and hrouted) es' hstarts).settled

/-- The content of a video, and that of a photo. -/
def videoContent : QVariantMap := [(TYPE_, .string MESSAGE_CONTENT_TYPE_VIDEO)]

def photoContent : QVariantMap := [(TYPE_, .string MESSAGE_CONTENT_TYPE_PHOTO)]

/-- A chat of videos. -/
def videos : ChatContent := { contents := fun _ => videoContent, pinned := fun _ => false }

/-- A video between the rows becomes a photo and, while it is fetched, a video again. -/
theorem rowsMatch_refetched :
    let s := run step (start false .video 7 0 false videos)
      [.foundChatMessagesReceived 7 .video .updateInitial [videoOf 7 5, videoOf 7 1] 2 0,
        .messageContentUpdated 7 3 photoContent, .messageContentUpdated 7 3 videoContent,
        .messageFetched 3 (videoOf 7 3), .messageContentUpdated 7 5 photoContent]
    s.Settled ∧ s.due = [3] ∧ s.model.ids = [1, 3] :=
  ⟨rowsMatch_of_routed false rfl 7 0 false videos _ (by decide) (by decide) _ (List.prefix_refl _), by decide, by decide⟩

/-- A message that is pinned, with no content. -/
def pinnedOf (chatId messageId : Int) : QVariantMap := messageOf chatId messageId ++ [(IS_PINNED, .bool true)]

/-- A chat that has pinned two messages. -/
def twoPinned : ChatContent := { contents := fun _ => [], pinned := fun k => k == 1 || k == 5 }

/-- A video that is not loaded becomes a photo, and is fetched and inserted; and of two pin updates the model of
pinned messages hears nothing. -/
theorem not_rowsMatch :
    (let start := start false .video 7 0 false videos
      let es : List Event := [.foundChatMessagesReceived 7 .video .updateInitial [videoOf 7 5, videoOf 7 1] 2 0,
        .messageContentUpdated 7 3 photoContent,
        .messageFetched 3 ((messageOf 7 3).insert CONTENT (.map photoContent))]
      Along step Reports start es ∧ ¬ (run step start es).Settled) ∧
    let start := start false .pinned 7 0 false twoPinned
    let es : List Event := [.foundChatMessagesReceived 7 .pinned .updateInitial [pinnedOf 7 5, pinnedOf 7 1] 2 0,
      .messageIsPinnedUpdated 7 3 true, .messageIsPinnedUpdated 7 5 false]
    Along step Reports start es ∧ ¬ (run step start es).Settled := by
  decide

end Watch

end MediaMessagesModel

end YaqtLib
