import YaqtLib.MessageSetters
import YaqtLib.Runs

/-! The copies that a message keeps of its object (`chat/messagedata.cpp`): every setter leaves them as the object has
them, and returns the roles of what it changes; the slots of the models announce these for the row. -/

namespace YaqtLib

open Runs TdConst

namespace MessageData

/-- The copies say what the object says. -/
structure Coherent (message : MessageData) : Prop where
  isSponsored : message.isSponsored = isSponsoredMessage message.messageData
  messageContentType : message.messageContentType = ((getContent message.messageData).value TYPE_).toStr
  viewCount : message.viewCount = ((message.messageData.value INTERACTION_INFO).toMap.value VIEW_COUNT).toInt
  reactions : message.reactions =
    (((message.messageData.value INTERACTION_INFO).toMap.value REACTIONS).toMap.value REACTIONS).toList

theorem create_coherent (data : QVariantMap) (msgid : Int) : (create data msgid).Coherent := ⟨rfl, rfl, rfl, rfl⟩

/-- A field is written that nothing is copied from. -/
theorem Coherent.insert {message : MessageData} (h : message.Coherent) {key : String}
    (hkey : key ∉ [TYPE_, CONTENT, INTERACTION_INFO]) (value : QVariant) :
    Coherent { message with messageData := message.messageData.insert key value } := by
  have hvalue : ∀ k ∈ [TYPE_, CONTENT, INTERACTION_INFO],
      (message.messageData.insert key value).value k = message.messageData.value k := by
    intro k hk
    exact QVariantMap.value_insert_of_ne _ _ fun heq => hkey (heq ▸ hk)
  refine ⟨?_, ?_, ?_, ?_⟩
  · rw [isSponsoredMessage, hvalue TYPE_ (by decide)]
    exact h.isSponsored
  · rw [getContent, hvalue CONTENT (by decide)]
    exact h.messageContentType
  · rw [hvalue INTERACTION_INFO (by decide)]
    exact h.viewCount
  · rw [hvalue INTERACTION_INFO (by decide)]
    exact h.reactions

theorem updateContent_coherent {message : MessageData} (h : message.Coherent) (content : QVariantMap) :
    (message.updateContent content).1.Coherent := by
  have hne : ∀ k, k ≠ CONTENT →
      (message.messageData.insert CONTENT (.map content)).value k = message.messageData.value k := by
    intro k hk
    exact QVariantMap.value_insert_of_ne _ _ hk
  rw [updateContent]
  dsimp only [updateContentType]
  refine ⟨?_, ?_, ?_, ?_⟩
  · rw [isSponsoredMessage, hne TYPE_ (by decide)]
    exact h.isSponsored
  · rw [getContent, QVariantMap.value_insert_self]
    rfl
  · rw [hne INTERACTION_INFO (by decide)]
    exact h.viewCount
  · rw [hne INTERACTION_INFO (by decide)]
    exact h.reactions

/-- Both copies of the interaction info are written; the other two have to be right before. -/
theorem updateInteractionInfo_coherent {message : MessageData}
    (hsponsored : message.isSponsored = isSponsoredMessage message.messageData)
    (hcontent : message.messageContentType = ((getContent message.messageData).value TYPE_).toStr)
    (interactionInfo : QVariantMap) : (message.updateInteractionInfo interactionInfo).1.Coherent := by
  have hne : ∀ k, k ≠ INTERACTION_INFO →
      (message.messageData.insert INTERACTION_INFO (.map interactionInfo)).value k = message.messageData.value k := by
    intro k hk
    exact QVariantMap.value_insert_of_ne _ _ hk
  rw [updateInteractionInfo]
  dsimp only [updateViewCount, updateReactions]
  refine ⟨?_, ?_, ?_, ?_⟩
  · rw [isSponsoredMessage, hne TYPE_ (by decide)]
    exact hsponsored
  · rw [getContent, hne CONTENT (by decide)]
    exact hcontent
  · rw [QVariantMap.value_insert_self]
    rfl
  · rw [QVariantMap.value_insert_self]
    rfl

/-- The mark of a content that was opened is not its type. -/
theorem markContent_coherent {message : MessageData} (h : message.Coherent) {key : String} (hkey : key ≠ TYPE_) :
    (message.markContent key).1.Coherent := by
  rw [markContent]
  split_ifs
  · exact h
  · have hcontent := updateContent_coherent h ((getContent message.messageData).insert key (.bool true))
    have htype : (((getContent message.messageData).insert key (.bool true)).value TYPE_).toStr =
        message.messageContentType := by
      rw [QVariantMap.value_insert_of_ne _ _ hkey.symm, h.messageContentType]
    rw [updateContent, updateContentType, htype] at hcontent
    exact hcontent

theorem updateContentOpened_coherent {message : MessageData} (h : message.Coherent) :
    message.updateContentOpened.1.Coherent := by
  rw [updateContentOpened]
  split_ifs
  · exact markContent_coherent h (by decide)
  · exact markContent_coherent h (by decide)
  · exact h

/-- Every setter keeps the copies. -/
theorem set_coherent {message : MessageData} (h : message.Coherent) (setter : Setter) :
    (message.set setter).1.Coherent := by
  cases setter with
  | setMessageData data => exact updateInteractionInfo_coherent rfl rfl _
  | setContent content => exact updateContent_coherent h content
  | setEditDateReplyMarkup editDate replyMarkup =>
      exact (h.insert (by decide) (.longLong editDate)).insert (by decide) (.map replyMarkup)
  | setInteractionInfo info => exact updateInteractionInfo_coherent h.isSponsored h.messageContentType info
  | setAlbumEntryFilter isAlbumChild => exact ⟨h.isSponsored, h.messageContentType, h.viewCount, h.reactions⟩
  | setAlbumEntryMessageIds newAlbumMessageIds => exact ⟨h.isSponsored, h.messageContentType, h.viewCount, h.reactions⟩
  | setMentionRead =>
      rw [set, reporting, updateMentionRead]
      split_ifs
      · exact h
      · exact h.insert (by decide) _
  | setContentOpened => exact updateContentOpened_coherent h
  | setContainsUnreadPollVotes value =>
      rw [set]
      split_ifs
      · exact h.insert (by decide) _
      · exact h
  | setSuggestedPostInfo | setFactCheck | setIsPinned | setUnreadReactions | setEphemeralContent =>
      exact h.insert (by decide) _

/-- **The copies of a message.** After any setters the copies say what the object says, and the roles that one more
setter returns have among them every role of the object or a copy that it changes. -/
theorem copies_coherent (data : QVariantMap) (msgid : Int) (setters : List Setter) :
    let message := run step (create data msgid) setters
    message.Coherent ∧ ∀ setter : Setter, ∀ role ∈ [MessageRole.display, .messageContentType, .messageViewCount,
      .messageReactions], (message.set setter).1.roleData role ≠ message.roleData role →
        role ∈ (message.set setter).2 := by
  intro message
  constructor
  · exact (along_true (create data msgid) setters).invariant (I := Coherent)
      (fun message setter h _ => set_coherent h setter) (create_coherent data msgid)
  · intro setter role hrole
    apply set_reports message setter role
    · rintro rfl
      exact absurd hrole (by decide)
    · rintro rfl
      exact absurd hrole (by decide)

end MessageData

/-! ### The slots of the models -/

namespace MessagesModel

variable {Own : Type}

/-- `handleMessageFieldUpdated` with the setter of a slot: the row is announced if roles come back. -/
def handleMessageUpdate (m : MessagesModel Own) (chatId messageId : Int) (setter : MessageData.Setter) :
    MessagesModel Own × List RowSignal :=
  if m.chatId = chatId then
    match m.messageIndexMap.value messageId with
    | none => (m, [])
    | some pos =>
        let roles := ((m.messages[pos]?).map fun message => (message.set setter).2).getD []
        let m := { m with messages := m.messages.modify pos fun message => message.step setter }
        (m, if roles.isEmpty then [] else [m.dataChanged pos roles])
  else (m, [])

/-- The rows after the update. -/
theorem handleMessageUpdate_eq (m : MessagesModel Own) (chatId messageId : Int) (setter : MessageData.Setter) :
    (m.handleMessageUpdate chatId messageId setter).1 =
      (m.handleMessageFieldUpdated chatId messageId fun message => message.step setter).1 := by
  rw [handleMessageUpdate, handleMessageFieldUpdated]
  split_ifs
  · cases m.messageIndexMap.value messageId <;> rfl
  · rfl

/-- An update of the whole object is the slot for messages that are loaded. -/
theorem handleMessageUpdate_setMessageData (m : MessagesModel Own) (chatId messageId : Int) (message : QVariantMap) :
    (m.handleMessageUpdate chatId messageId (.setMessageData message)).1 =
      m.handleMessageReceived chatId messageId message := by
  rw [handleMessageUpdate, handleMessageReceived]
  simp only [eq_comm (a := m.chatId)]
  split_ifs
  · cases m.messageIndexMap.value messageId <;> rfl
  · rfl

/-- A row in which the object or a copy of it changed is announced, with the role. -/
theorem handleMessageUpdate_announced {m : MessagesModel Own} {chatId messageId : Int} {setter : MessageData.Setter}
    {i : Nat} {row row' : MessageData} (hrow : m.messages[i]? = some row)
    (hrow' : (m.handleMessageUpdate chatId messageId setter).1.messages[i]? = some row') {role : MessageRole}
    (hsponsored : role ≠ .isSponsored) (halbum : role ≠ .messageAlbumId)
    (hchange : row'.roleData role ≠ row.roleData role) :
    ∃ roles, role ∈ roles ∧ (m.handleMessageUpdate chatId messageId setter).1.dataChanged i roles ∈
      (m.handleMessageUpdate chatId messageId setter).2 := by
  have hsame : row' ≠ row := by
    rintro rfl
    exact hchange rfl
  rw [handleMessageUpdate] at hrow' ⊢
  split_ifs at hrow' ⊢ with hchat
  · cases hpos : m.messageIndexMap.value messageId with
    | none =>
        rw [hpos] at hrow'
        exact absurd (Option.some.inj (hrow'.symm.trans hrow)) hsame
    | some pos =>
        rw [hpos] at hrow'
        dsimp only at hrow' ⊢
        rw [List.getElem?_modify, hrow, Option.map_eq_map, Option.map_some] at hrow'
        split_ifs at hrow' with hi
        · obtain rfl := hi
          obtain rfl := Option.some.inj hrow'
          have hrole := MessageData.set_reports row setter role hsponsored halbum hchange
          rw [hrow]
          refine ⟨(row.set setter).2, hrole, ?_⟩
          dsimp only [Option.map_some, Option.getD_some]
          rw [if_neg (by simpa using List.ne_nil_of_mem hrole)]
          exact List.mem_singleton_self _
        · exact absurd (Option.some.inj hrow').symm hsame
  · exact absurd (Option.some.inj (hrow'.symm.trans hrow)) hsame

end MessagesModel

end YaqtLib
