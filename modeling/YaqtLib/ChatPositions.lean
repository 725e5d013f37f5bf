import YaqtLib.ChatListOrder
import YaqtLib.ChatReferences

/-! The place of a chat in its lists. A row follows the positions that are reported while it is there; a row
that is added takes the position the chat was announced with, which is the last reported one only if no
other has been reported since. -/

namespace YaqtLib

open Containers IndexMap Runs TdConst

/-- The order and pin that were last reported for a chat and a list. -/
def Reported := Int → ChatList → Option (Int × Bool)

namespace Reported

def none : Reported := fun _ _ => Option.none

/-- A position is reported for a chat. -/
def reportPosition (r : Reported) (chatId : Int) (position : QVariantMap) : Reported :=
  match chatListOf (position.value LIST).toMap with
  | .none => r
  | some chatList => fun chatId' chatList' =>
      if chatId' = chatId ∧ chatList' = chatList then some (orderOf position, isPinnedOf position)
      else r chatId' chatList'

def reportPositions (r : Reported) (chatId : Int) (positions : QVariantList) : Reported :=
  positions.foldl (fun r position => r.reportPosition chatId position.toMap) r

/-- The positions an update reports: `updateNewChat` has those of the new chat. -/
def report (r : Reported) : Update → Reported
  | .newChat chatInformation =>
      r.reportPositions (chatInformation.value ID).toLongLong (TDLibData.positionsOf chatInformation)
  | .chatPosition chatId position => r.reportPosition chatId position
  | .chatLastMessage chatId _ positions => r.reportPositions chatId positions
  | .chatDraftMessage chatId _ positions => r.reportPositions chatId positions
  | _ => r

/-- The order and pin are the last ones reported, if any were. -/
def IsLast (r : Reported) (chatList : ChatList) (chatId order : Int) (isPinned : Bool) : Prop :=
  ∀ order' isPinned', r chatId chatList = some (order', isPinned') → order = order' ∧ isPinned = isPinned'

theorem reportPosition_of_ne (r : Reported) {chatId chatId' : Int} (h : chatId' ≠ chatId) (position : QVariantMap)
    (chatList : ChatList) : r.reportPosition chatId position chatId' chatList = r chatId' chatList := by
  rw [reportPosition]
  cases chatListOf (position.value LIST).toMap with
  | none => rfl
  | some chatList' => exact if_neg fun heq => h heq.1

theorem reportPositions_of_ne (r : Reported) {chatId chatId' : Int} (h : chatId' ≠ chatId) (positions : QVariantList)
    (chatList : ChatList) : r.reportPositions chatId positions chatId' chatList = r chatId' chatList := by
  induction positions generalizing r with
  | nil => rfl
  | cons position positions ih =>
      rw [reportPositions, List.foldl_cons, ← reportPositions, ih, reportPosition_of_ne r h]

end Reported

namespace ChatFoldersModel

/-- The rows of a list. -/
def rows (m : ChatFoldersModel) (chatList : ChatList) : List ListChatData := (m.listModel chatList).chatList

/-- The lists are in order, and every row is where the last position reported for it is. -/
structure Following (m : ChatFoldersModel) (r : Reported) : Prop where
  inOrder : ∀ chatList, (m.listModel chatList).InOrder
  last : ∀ chatList, ∀ row ∈ m.rows chatList, r.IsLast chatList row.chatId row.order row.isPinned

/-- Each list gets the new chat once. -/
theorem listModel_handleSignals_added {chatLists : List ChatList} (hnodup : chatLists.Nodup) (m : ChatFoldersModel)
    (chat : ChatPointer) (positions : QVariantList) (chatList : ChatList) :
    (m.handleSignals (chatLists.map (TDLibData.addedToList chat positions))).listModel chatList =
      if chatList ∈ chatLists then
        (m.listModel chatList).handleChatAddedToList chat (orderOf (positionIn positions chatList))
          (isPinnedOf (positionIn positions chatList))
      else m.listModel chatList := by
  induction chatLists generalizing m with
  | nil => rfl
  | cons chatList' chatLists ih =>
      obtain ⟨hnot, hnodup⟩ := List.nodup_cons.mp hnodup
      have hcons : m.handleSignals ((chatList' :: chatLists).map (TDLibData.addedToList chat positions)) =
          (m.handleSignal (TDLibData.addedToList chat positions chatList')).handleSignals
            (chatLists.map (TDLibData.addedToList chat positions)) := rfl
      rw [hcons, ih hnodup, listModel_handleSignal]
      by_cases heq : chatList = chatList'
      · subst heq
        rw [if_neg hnot, if_pos (List.mem_cons_self ..)]
        exact if_pos rfl
      · have hmem : chatList ∈ chatList' :: chatLists ↔ chatList ∈ chatLists := by simp [heq]
        have hne : chatList ≠ (TDLibData.addedToList chat positions chatList').chatList := heq
        simp only [hmem, if_neg hne]

end ChatFoldersModel

namespace ChatListModel

/-- A row that is repositioned has its new order and pin; the others are as they were. -/
theorem mem_handleChatPositionUpdated {m : ChatListModel} (hm : m.InOrder) {chatId order : Int} {isPinned : Bool}
    {row : ListChatData} (hrow : row ∈ (handleChatPositionUpdated m chatId order isPinned).chatList) :
    (row.chatId = chatId ∧ row.order = order ∧ row.isPinned = isPinned) ∨ (row.chatId ≠ chatId ∧ row ∈ m.chatList) := by
  cases hvalue : m.chatIndexMap.value chatId with
  | none =>
      rw [(handle_of_not_listed hvalue order isPinned).2] at hrow
      refine Or.inr ⟨fun hid => ?_, hrow⟩
      exact (hm.indexed.value_eq_none_iff chatId).mp hvalue row hrow (by rw [← hid]; rfl)
  | some i =>
      obtain ⟨pre, chat, post, hrows, -, -, rfl⟩ := hm.exists_split hvalue
      obtain ⟨pre', post', hothers, hrows', -⟩ := handleChatPositionUpdated_spec hm hrows order isPinned
      have hself := hm.others_eq hrows rfl
      rw [hrows'] at hrow
      have hcases : row = { chat with order := order, isPinned := isPinned } ∨ row ∈ pre' ++ post' := by
        rcases List.mem_append.mp hrow with hrow | hrow
        · exact Or.inr (List.mem_append_left _ hrow)
        · exact (List.mem_cons.mp hrow).imp_right (List.mem_append_right _)
      rcases hcases with rfl | hrow
      · exact Or.inl ⟨rfl, rfl, rfl⟩
      · rw [hothers, ← hself, others, List.mem_filter] at hrow
        exact Or.inr ⟨by simpa using hrow.2, hrow.1⟩

theorem mem_handleChatAddedToList {m : ChatListModel} (hm : m.InOrder) {chat : ChatPointer} (order : Int)
    (isPinned : Bool) (hnew : ∀ row ∈ m.chatList, row.chatId ≠ chat.chatId) :
    (handleChatAddedToList m chat order isPinned).InOrder ∧
    ∀ row, row ∈ (handleChatAddedToList m chat order isPinned).chatList →
      row = { data := chat, order := order, isPinned := isPinned } ∨ row ∈ m.chatList := by
  have hcontains : m.chatIndexMap.contains chat.chatId = false := by
    rw [← Bool.not_eq_true, hm.contains_iff]
    push Not
    exact hnew
  obtain ⟨pre, post, hrows, hrows', hadded⟩ := handleChatAddedToList_spec hm chat order isPinned hcontains
  refine ⟨hadded, fun row hrow => ?_⟩
  rw [hrows'] at hrow
  rw [hrows]
  rcases List.mem_append.mp hrow with hrow | hrow
  · exact Or.inr (List.mem_append_left _ hrow)
  · exact (List.mem_cons.mp hrow).imp_right (List.mem_append_right _)

end ChatListModel

namespace ChatFoldersModel.Following

variable {m : ChatFoldersModel} {r : Reported}

/-- A reported position is taken over by the row of the chat, if there is one. -/
theorem position (h : m.Following r) (chatId : Int) (position : QVariantMap) :
    (m.handleSignals (TDLibData.handleChatPositionUpdated chatId position)).Following
      (r.reportPosition chatId position) := by
  rw [TDLibData.handleChatPositionUpdated, Reported.reportPosition]
  cases hlist : chatListOf (position.value LIST).toMap with
  | none => exact h
  | some chatList =>
      have hmodel : ∀ chatList', (m.handleSignals ((some chatList).toList.map fun chatList =>
          .chatListChatPositionUpdated chatList chatId (orderOf position) (isPinnedOf position))).listModel chatList' =
          if chatList' = chatList then
            (m.listModel chatList').handleChatPositionUpdated chatId (orderOf position) (isPinnedOf position)
          else m.listModel chatList' := fun chatList' =>
        listModel_handleSignal m (.chatListChatPositionUpdated chatList chatId (orderOf position) (isPinnedOf position))
          chatList'
      refine ⟨fun chatList' => ?_, fun chatList' row hrow => ?_⟩
      · rw [hmodel]
        split_ifs
        · exact (ChatListModel.handle_others (h.inOrder chatList') chatId _ _).2.2.1
        · exact h.inOrder chatList'
      · rw [rows, hmodel] at hrow
        intro order' isPinned' hreported
        dsimp only at hreported
        split_ifs at hrow with heq
        · rcases ChatListModel.mem_handleChatPositionUpdated (h.inOrder chatList') hrow with
            ⟨hid, horder, hpinned⟩ | ⟨hid, hrow⟩
          · rw [if_pos ⟨hid, heq⟩] at hreported
            obtain ⟨rfl, rfl⟩ := Prod.mk.inj (Option.some.inj hreported)
            exact ⟨horder, hpinned⟩
          · rw [if_neg fun hboth => hid hboth.1] at hreported
            exact h.last chatList' row hrow order' isPinned' hreported
        · rw [if_neg fun hboth => heq hboth.2] at hreported
          exact h.last chatList' row hrow order' isPinned' hreported

theorem positions (h : m.Following r) (chatId : Int) (positions : QVariantList) :
    (m.handleSignals (TDLibData.updateChatPositions chatId positions)).Following
      (r.reportPositions chatId positions) := by
  induction positions generalizing m r with
  | nil => exact h
  | cons position positions ih =>
      have hcons : m.handleSignals (TDLibData.updateChatPositions chatId (position :: positions)) =
          (m.handleSignals (TDLibData.handleChatPositionUpdated chatId position.toMap)).handleSignals
            (TDLibData.updateChatPositions chatId positions) := by
        rw [TDLibData.updateChatPositions, List.flatMap_cons, handleSignals, List.foldl_append]
        rfl
      rw [hcons]
      exact ih (h.position chatId position.toMap)

/-- A chat without rows may be reported anywhere. -/
theorem report_of_no_row (h : m.Following r) {chatId : Int}
    (hnone : ∀ chatList, ∀ row ∈ m.rows chatList, row.chatId ≠ chatId) (positions : QVariantList) :
    m.Following (r.reportPositions chatId positions) := by
  refine ⟨h.inOrder, fun chatList row hrow order isPinned hreported => ?_⟩
  rw [Reported.reportPositions_of_ne r (hnone chatList row hrow)] at hreported
  exact h.last chatList row hrow order isPinned hreported

/-- A chat is added to lists it is in no row of, at the last positions reported. -/
theorem added (h : m.Following r) {r' : Reported} {chatLists : List ChatList} (hnodup : chatLists.Nodup)
    {chat : ChatPointer} {positions : QVariantList}
    (hothers : ∀ chatId chatList, chatId ≠ chat.chatId → r' chatId chatList = r chatId chatList)
    (hlisted : ∀ chatList, ∀ row ∈ m.rows chatList, row.chatId = chat.chatId →
      r'.IsLast chatList row.chatId row.order row.isPinned)
    (hnew : ∀ chatList ∈ chatLists, (∀ row ∈ m.rows chatList, row.chatId ≠ chat.chatId) ∧
      r'.IsLast chatList chat.chatId (orderOf (positionIn positions chatList))
        (isPinnedOf (positionIn positions chatList))) :
    (m.handleSignals (chatLists.map (TDLibData.addedToList chat positions))).Following r' := by
  have hold : ∀ chatList, ∀ row ∈ m.rows chatList, r'.IsLast chatList row.chatId row.order row.isPinned := by
    intro chatList row hrow
    by_cases hid : row.chatId = chat.chatId
    · exact hlisted chatList row hrow hid
    · intro order isPinned hreported
      rw [hothers _ _ hid] at hreported
      exact h.last chatList row hrow order isPinned hreported
  refine ⟨fun chatList => ?_, fun chatList row hrow => ?_⟩
  · rw [listModel_handleSignals_added hnodup]
    split_ifs with hmem
    · exact (ChatListModel.mem_handleChatAddedToList (h.inOrder chatList) _ _ (hnew chatList hmem).1).1
    · exact h.inOrder chatList
  · rw [rows, listModel_handleSignals_added hnodup] at hrow
    split_ifs at hrow with hmem
    · rcases (ChatListModel.mem_handleChatAddedToList (h.inOrder chatList) _ _ (hnew chatList hmem).1).2 row hrow with
        rfl | hrow
      · exact (hnew chatList hmem).2
      · exact hold chatList row hrow
    · exact hold chatList row hrow

/-- A removal leaves the other rows as they are. -/
theorem removed (h : m.Following r) (chatList : ChatList) (chatId : Int) :
    (m.handleSignal (.chatRemovedFromList chatList chatId)).Following r := by
  refine ⟨fun chatList' => ?_, fun chatList' row hrow => ?_⟩
  · rw [listModel_handleSignal]
    split_ifs
    · exact (ChatListModel.handle_others (h.inOrder chatList') chatId 0 false).1
    · exact h.inOrder chatList'
  · rw [rows, listModel_handleSignal] at hrow
    split_ifs at hrow
    · have hothers := (ChatListModel.handle_others (h.inOrder chatList') chatId 0 false).2.1
      rw [Signal.slot, hothers] at hrow
      exact h.last chatList' row (List.mem_filter.mp hrow).1
    · exact h.last chatList' row hrow

end ChatFoldersModel.Following

/-! ### Runs -/

/-- A session, with the positions that have been reported to it. -/
structure Observed where
  session : Session
  reported : Reported

namespace Observed

def new : Observed := { session := Session.new, reported := Reported.none }

def step (o : Observed) (u : Update) : Option Observed :=
  (o.session.step u).map fun session => { session := session, reported := o.reported.report u }

/-- Every chat is in its lists where the last position reported for it is. -/
def Placed (o : Observed) : Prop :=
  ∀ chatList, ∀ row ∈ o.session.folders.rows chatList,
    o.reported.IsLast chatList row.chatId row.order row.isPinned

/-- A chat is added to a list it is not in, and the position in its stored data is the last one reported;
a chat that is stored anew has rows only where the positions it comes with are. The content is not cleared. -/
def AddsInPlace (o : Observed) : Update → Prop
  | .newChat chatInformation =>
      let chatId := (chatInformation.value ID).toLongLong
      let reported := o.reported.report (.newChat chatInformation)
      let positions := TDLibData.positionsOf chatInformation
      (TDLibData.chatListsOf chatInformation).Nodup ∧
      (∀ chatList, ∀ row ∈ o.session.folders.rows chatList, row.chatId = chatId →
        reported.IsLast chatList row.chatId row.order row.isPinned) ∧
      ∀ chatList ∈ TDLibData.chatListsOf chatInformation,
        (∀ row ∈ o.session.folders.rows chatList, row.chatId ≠ chatId) ∧
        reported.IsLast chatList chatId (orderOf (positionIn positions chatList))
          (isPinnedOf (positionIn positions chatList))
  | .chatAddedToList list chatId =>
      ∀ chat, o.session.data.chats.value chatId = some chat → ∀ chatList, chatListOf list = some chatList →
        (∀ row ∈ o.session.folders.rows chatList, row.chatId ≠ chatId) ∧
        o.reported.IsLast chatList chatId
          (orderOf (positionIn (TDLibData.positionsOf chat.chatData) chatList))
          (isPinnedOf (positionIn (TDLibData.positionsOf chat.chatData) chatList))
  | .authorizationStateLoggingOut => False
  | .authorizationStateClosing => False
  | _ => True

/-- The invariant: rows follow their positions, and they are rows of known chats. -/
structure Invariant (o : Observed) : Prop where
  following : o.session.folders.Following o.reported
  stored : o.session.data.Valid
  known : ∀ chatList, ∀ p ∈ o.session.folders.pointers chatList, ∃ chat,
    o.session.data.chats.value p.chatId = some chat

theorem invariant_new : new.Invariant := by
  have hnew : ∀ chatList, new.session.folders.listModel chatList = ChatListModel.new := by
    intro chatList
    cases chatList <;> rfl
  refine ⟨⟨fun chatList => ?_, fun chatList row hrow => ?_⟩, fun chatId chat h => ?_, fun chatList p hp => ?_⟩
  · rw [hnew]
    exact ChatListModel.inOrder_new
  · rw [ChatFoldersModel.rows, hnew] at hrow
    exact absurd hrow List.not_mem_nil
  · exact absurd h (by simp [new, Session.new, TDLibData.new])
  · rw [ChatFoldersModel.pointers, hnew] at hp
    exact absurd hp List.not_mem_nil

/-- What is left to show of an outcome: how the rows follow their positions. -/
theorem Invariant.emit {o : Observed} (h : o.Invariant) {outcome : TDLibData × List Signal} {r : Reported}
    (hvalid : outcome.1.Valid)
    (hkept : ∀ chatId, (∃ chat, o.session.data.chats.value chatId = some chat) →
      ∃ chat, outcome.1.chats.value chatId = some chat)
    (hadded : ∀ signal ∈ outcome.2, ∀ p ∈ signal.added, outcome.1.Stores p)
    (hfollowing : (o.session.folders.handleSignals outcome.2).Following r) :
    Invariant { session := o.session.emit outcome, reported := r } := by
  refine ⟨hfollowing, hvalid, fun chatList p hp => ?_⟩
  rcases ChatFoldersModel.mem_pointers_handleSignals hp with ⟨signal, hsignal, hp⟩ | hp
  · obtain ⟨chat, hchat, -⟩ := hadded signal hsignal p hp
    exact ⟨chat, hchat⟩
  · exact hkept p.chatId (h.known chatList p hp)

theorem known_updateChatField {field : String} {d : TDLibData} {chatId chatId' : Int} {v : QVariantMap}
    {positions : QVariantList} (h : ∃ chat, d.chats.value chatId' = some chat) :
    ∃ chat, (TDLibData.updateChatField field d chatId v positions).1.chats.value chatId' = some chat := by
  rw [TDLibData.updateChatField]
  cases hchat : d.chats.value chatId with
  | none => exact h
  | some chat =>
      dsimp only
      rw [QHash.value_insert]
      split_ifs
      · exact ⟨_, rfl⟩
      · exact h

theorem Invariant.chatField {o : Observed} (h : o.Invariant) (field : String) (chatId : Int) (v : QVariantMap)
    (positions : QVariantList) :
    Invariant { session := o.session.emit (TDLibData.updateChatField field o.session.data chatId v positions)
                reported := o.reported.reportPositions chatId positions } := by
  have hkeeps := TDLibData.keeps_updateChatField field h.stored chatId v positions
  refine h.emit hkeeps.valid (fun _ => known_updateChatField) hkeeps.added ?_
  rw [TDLibData.updateChatField]
  cases hchat : o.session.data.chats.value chatId with
  | none =>
      -- an unknown chat has no row
      refine h.following.report_of_no_row (fun chatList row hrow hid => ?_) positions
      obtain ⟨chat, hknown⟩ := h.known chatList row.data (List.mem_map_of_mem hrow)
      have hsame : row.data.chatId = chatId := hid
      rw [hsame, hchat] at hknown
      exact absurd hknown (by simp)
  | some chat => exact h.following.positions chatId positions

theorem invariant_step (o : Observed) (u : Update) (o' : Observed) (ho : o.Invariant) (hu : o.AddsInPlace u)
    (h : o.step u = some o') : o'.Invariant := by
  obtain ⟨session, hsession, rfl⟩ := Option.map_eq_some_iff.mp h
  have hd := ho.stored
  cases u with
  | newChat chatInformation =>
      obtain rfl := Option.some.inj hsession
      obtain ⟨hnodup, hlisted, hnew⟩ := hu
      refine ho.emit (TDLibData.valid_handleNewChatDiscovered hd _) (fun chatId hknown => ?_)
        (fun signal hsignal p hp => ?_) ?_
      · rw [TDLibData.handleNewChatDiscovered]
        dsimp only
        rw [QHash.value_insert]
        split_ifs
        · exact ⟨_, rfl⟩
        · exact hknown
      · rw [TDLibData.stores_handleNewChatDiscovered]
        exact Or.inl (TDLibData.added_handleNewChatDiscovered hsignal hp)
      · exact ho.following.added hnodup
          (fun chatId chatList hne => Reported.reportPositions_of_ne o.reported hne _ chatList) hlisted hnew
  | chatPosition chatId position =>
      obtain rfl := Option.some.inj hsession
      have hkeeps := TDLibData.keeps_handleChatPositionUpdated hd chatId position
      exact ho.emit hkeeps.valid (fun _ hknown => hknown) hkeeps.added (ho.following.position chatId position)
  | chatAddedToList list chatId =>
      obtain rfl := Option.some.inj hsession
      have hkeeps := TDLibData.keeps_handleChatAddedToList hd list chatId
      refine ho.emit hkeeps.valid (fun _ hknown => hknown) hkeeps.added ?_
      rw [TDLibData.handleChatAddedToList]
      cases hchat : o.session.data.chats.value chatId with
      | none => exact ho.following
      | some chat =>
          have hid : chat.pointer.chatId = chatId := (hd chatId chat hchat).1
          refine ho.following.added (by cases chatListOf list <;> simp) (fun _ _ _ => rfl)
            (fun chatList row hrow _ => ho.following.last chatList row hrow) fun chatList hmem => ?_
          rw [hid]
          exact hu chat hchat chatList (Option.mem_toList.mp hmem)
  | chatRemovedFromList list chatId =>
      obtain rfl := Option.some.inj hsession
      have hkeeps := TDLibData.keeps_handleChatRemovedFromList hd list chatId
      refine ho.emit hkeeps.valid (fun _ hknown => hknown) hkeeps.added ?_
      rw [TDLibData.handleChatRemovedFromList]
      split_ifs
      · cases chatListOf list with
        | none => exact ho.following
        | some chatList => exact ho.following.removed chatList chatId
      · exact ho.following
  | chatLastMessage chatId lastMessage positions =>
      obtain rfl := Option.some.inj hsession
      exact ho.chatField LAST_MESSAGE chatId lastMessage positions
  | chatDraftMessage chatId draftMessage positions =>
      obtain rfl := Option.some.inj hsession
      exact ho.chatField DRAFT_MESSAGE chatId draftMessage positions
  | chatFolders newChatFolders mainChatListPosition =>
      obtain ⟨folders, hfolders, rfl⟩ := Option.map_eq_some_iff.mp hsession
      have hmodel := ChatFoldersModel.listModel_handleChatFoldersUpdated hfolders
      refine ⟨⟨fun chatList => ?_, fun chatList row hrow => ?_⟩, hd, fun chatList p hp => ?_⟩
      · dsimp only
        rw [hmodel]
        exact ho.following.inOrder chatList
      · rw [ChatFoldersModel.rows, hmodel] at hrow
        exact ho.following.last chatList row hrow
      · rw [ChatFoldersModel.pointers, hmodel] at hp
        exact ho.known chatList p hp
  | authorizationStateLoggingOut => exact hu.elim
  | authorizationStateClosing => exact hu.elim

/-- **The places of the chats.** In every run whose chats are added where they were last reported, every chat
is in its lists at the last position reported for it. -/
theorem chats_placed (us : List Update)
    (hus : Along (lift step) (fun o u => ∀ o0 ∈ o, o0.AddsInPlace u) (some new) us) :
    ∀ o ∈ run (lift step) (some new) us, o.Placed :=
  fun o ho => (Along.invariant_lift invariant_step invariant_new hus o ho).following.last

def mainChatList : QVariantMap := [(TYPE_, .string TYPE_CHAT_LIST_MAIN)]

def positionOf (chatList : QVariantMap) (order : Int) (isPinned : Bool) : QVariantMap :=
  [(TYPE_, .string TYPE_CHAT_POSITION), (LIST, .map chatList), (ORDER, .longLong order), (IS_PINNED, .bool isPinned)]

/-- A chat that comes with its place in the main list, and moves later. -/
theorem chats_placed_run : ∃ o, run (lift step) (some new)
    [.newChat (Session.chatOf 1 [.map mainChatList] [.map (positionOf mainChatList 5 false)]),
      .chatPosition 1 (positionOf mainChatList 7 true)] = some o ∧ o.Placed := by
  have hsteps : Along (lift step) (fun o u => ∀ o0 ∈ o, o0.AddsInPlace u) (some new)
      [.newChat (Session.chatOf 1 [.map mainChatList] [.map (positionOf mainChatList 5 false)]),
        .chatPosition 1 (positionOf mainChatList 7 true)] := by
    refine ⟨fun o ho => ?_, fun o _ => trivial, trivial⟩
    obtain rfl := Option.some.inj ho
    have hrows : ∀ chatList, new.session.folders.rows chatList = [] := by
      intro chatList
      cases chatList <;> rfl
    refine ⟨by decide, fun chatList row hrow => ?_, fun chatList hmem => ⟨fun row hrow => ?_, ?_⟩⟩
    · rw [hrows] at hrow
      exact absurd hrow List.not_mem_nil
    · rw [hrows] at hrow
      exact absurd hrow List.not_mem_nil
    · have hmain : chatList = .main := by
        have : TDLibData.chatListsOf (Session.chatOf 1 [.map mainChatList]
            [.map (positionOf mainChatList 5 false)]) = [.main] := by decide
        rw [this] at hmem
        exact List.mem_singleton.mp hmem
      subst hmain
      intro order isPinned hreported
      obtain ⟨rfl, rfl⟩ := Prod.mk.inj (Option.some.inj hreported)
      exact ⟨by decide, by decide⟩
  exact ⟨_, rfl, chats_placed _ hsteps _ rfl⟩

/-- A chat that gets its position before it is added to the list is added with order `0`. -/
theorem not_chats_placed : ∃ o, run (lift step) (some new)
    [.newChat (Session.chatOf 1 [] []), .chatPosition 1 (positionOf mainChatList 5 false),
      .chatAddedToList mainChatList 1] = some o ∧ ¬ o.Placed := by
  refine ⟨_, rfl, fun h => ?_⟩
  have horder := (h .main ⟨⟨0, 1⟩, 0, false⟩ (List.mem_singleton_self _) 5 false rfl).1
  exact absurd horder (by decide)

end Observed

end YaqtLib
