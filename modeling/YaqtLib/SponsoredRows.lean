import YaqtLib.PinnedRows
import YaqtLib.ReadableOrder
import YaqtLib.SliceRows
import YaqtLib.Spacing

/-! The places of the sponsored messages of a channel among its rows. Rows that show some of them keep doing so when
ordinary rows join at an end, and each of the three loops that place messages puts the next one where the others
are far enough away. -/

namespace YaqtLib

open Containers IndexMap Spacing MessagesModel

/-- The id of a sponsored message of TDLib. -/
def sponsoredIdOf (message : QVariantMap) : Int := (message.value TdConst.MESSAGE_ID).toLongLong

/-- The sponsored messages that are rows. -/
def sponsoredMessagesOf (rows : List MessageData) : List QVariantMap :=
  (rows.filter MessageData.isSponsored).map MessageData.messageData

/-- The sponsored rows are those of `shown`, each has its own id and is found under it, and there are at least `gap`
rows between any two of them. -/
structure Shows (gap : Nat) (shown : List QVariantMap) (rows : List MessageData) (index : QHash Int Nat) : Prop where
  messages : (sponsoredMessagesOf rows).Perm shown
  ownId : ∀ r ∈ rows, r.isSponsored = true → r.messageId = sponsoredIdOf r.messageData
  pins : Pins MessageData.key MessageData.isSponsored rows index
  spaced : Spaced MessageData.isSponsored gap rows

theorem sponsoredMessagesOf_append (rows rows' : List MessageData) :
    sponsoredMessagesOf (rows ++ rows') = sponsoredMessagesOf rows ++ sponsoredMessagesOf rows' := by
  rw [sponsoredMessagesOf, List.filter_append, List.map_append, ← sponsoredMessagesOf, ← sponsoredMessagesOf]

theorem sponsoredMessagesOf_of_ordinary {rows : List MessageData} (h : ∀ r ∈ rows, r.isSponsored = false) :
    sponsoredMessagesOf rows = [] := by
  rw [sponsoredMessagesOf, List.map_eq_nil_iff, List.filter_eq_nil_iff]
  intro r hr
  rw [h r hr]
  exact Bool.false_ne_true

theorem sponsoredMessagesOf_body (rows : List MessageData) :
    sponsoredMessagesOf (rows.map MessageData.body) = sponsoredMessagesOf rows := by
  rw [sponsoredMessagesOf, List.filter_map, List.map_map]
  rfl

namespace Shows

variable {gap : Nat} {shown : List QVariantMap} {rows : List MessageData} {index : QHash Int Nat}

theorem of_ordinary (h : ∀ r ∈ rows, r.isSponsored = false) (index : QHash Int Nat) : Shows gap [] rows index where
  messages := by rw [sponsoredMessagesOf_of_ordinary h]
  ownId r hr hs := absurd hs (by rw [h r hr]; exact Bool.false_ne_true)
  pins := .of_unmarked h index
  spaced := .of_unmarked h

/-- What only the albums distinguish shows the same. -/
theorem of_body {rows' : List MessageData} (h : Shows gap shown rows index)
    (hbody : rows'.map MessageData.body = rows.map MessageData.body) : Shows gap shown rows' index := by
  have hmap : ∀ {β : Type} (f : MessageData → β), (∀ r, f r.body = f r) → rows'.map f = rows.map f := by
    intro β f hf
    have hcomp : f = f ∘ MessageData.body := funext fun r => (hf r).symm
    rw [hcomp, ← List.map_map, ← List.map_map, hbody]
  refine ⟨?_, fun r hr hs => ?_, h.pins.congr (hmap _ fun _ => rfl), h.spaced.congr (hmap _ fun _ => rfl)⟩
  · rw [← sponsoredMessagesOf_body, hbody, sponsoredMessagesOf_body]
    exact h.messages
  · have hmem : r.body ∈ rows.map MessageData.body := hbody ▸ List.mem_map_of_mem hr
    obtain ⟨r', hr', heq⟩ := List.mem_map.mp hmem
    have hs' : r'.isSponsored = true := by
      rw [← MessageData.body_isSponsored, heq]
      exact hs
    have hid := h.ownId r' hr' hs'
    rw [← MessageData.body_messageId, heq] at hid
    have hdata : r'.body.messageData = r.body.messageData := congrArg MessageData.messageData heq
    exact hid.trans (congrArg sponsoredIdOf hdata)

/-- No sponsored row has the id of a message that is not loaded. -/
theorem keys_apart (h : Shows gap shown rows index) {added : List MessageData}
    (hnew : ∀ r ∈ added, index.contains r.messageId = false) :
    ∀ r ∈ rows, r.isSponsored = true → ∀ r' ∈ added, ∀ k, r.key = some k → r'.key ≠ some k := by
  intro r hr hs r' hr' k hk hk'
  obtain ⟨i, hi⟩ := List.mem_iff_getElem?.mp hr
  have hvalue := h.pins.finds i r k hi hs hk
  have hnone := (QHash.contains_eq_false_iff _ _).mp (hnew r' hr')
  rw [MessageData.key_eq_some.mp hk', hvalue] at hnone
  cases hnone

theorem append (h : Shows gap shown rows index) {added : List MessageData} (hord : ∀ r ∈ added, r.isSponsored = false)
    (hnew : ∀ r ∈ added, index.contains r.messageId = false) :
    Shows gap shown (rows ++ added) (reindex MessageData.key added rows.length index) where
  messages := by
    rw [sponsoredMessagesOf_append, sponsoredMessagesOf_of_ordinary hord, List.append_nil]
    exact h.messages
  ownId r hr hs := by
    rcases List.mem_append.mp hr with hr | hr
    · exact h.ownId r hr hs
    · exact absurd hs (by rw [hord r hr]; exact Bool.false_ne_true)
  pins := h.pins.append_unmarked hord (h.keys_apart hnew)
  spaced := h.spaced.append_unmarked hord

theorem prepend (h : Shows gap shown rows index) {added : List MessageData} (hord : ∀ r ∈ added, r.isSponsored = false)
    (hnew : ∀ r ∈ added, index.contains r.messageId = false) :
    Shows gap shown (added ++ rows)
      (reindex MessageData.key rows added.length (reindex MessageData.key added 0 index)) where
  messages := by
    rw [sponsoredMessagesOf_append, sponsoredMessagesOf_of_ordinary hord, List.nil_append]
    exact h.messages
  ownId r hr hs := by
    rcases List.mem_append.mp hr with hr | hr
    · exact absurd hs (by rw [hord r hr]; exact Bool.false_ne_true)
    · exact h.ownId r hr hs
  pins := h.pins.prepend_unmarked hord (h.keys_apart hnew)
  spaced := h.spaced.prepend_unmarked hord

/-- A sponsored message becomes a row under its own id, which no row has yet. -/
theorem insert {pre post : List MessageData} (h : Shows gap shown (pre ++ post) index) {message : QVariantMap}
    (hs : isSponsoredMessage message = true)
    (hid : sponsoredIdOf message ∉ (pre ++ post).map MessageData.messageId)
    (hspaced : Spaced MessageData.isSponsored gap
      (pre ++ MessageData.create message (sponsoredIdOf message) :: post)) :
    Shows gap (message :: shown) (pre ++ MessageData.create message (sponsoredIdOf message) :: post)
      (reindex MessageData.key (MessageData.create message (sponsoredIdOf message) :: post) pre.length index) where
  messages := by
    have hcons : sponsoredMessagesOf (MessageData.create message (sponsoredIdOf message) :: post) =
        message :: sponsoredMessagesOf post := by
      have hs' : (MessageData.create message (sponsoredIdOf message)).isSponsored = true := hs
      rw [sponsoredMessagesOf, List.filter_cons_of_pos hs', List.map_cons, ← sponsoredMessagesOf]
      rfl
    have hold := h.messages
    rw [sponsoredMessagesOf_append] at hold ⊢
    rw [hcons]
    exact List.perm_middle.trans (hold.cons message)
  ownId r hr hrs := by
    rcases List.mem_append.mp hr with hr | hr
    · exact h.ownId r (List.mem_append_left _ hr) hrs
    · rcases List.mem_cons.mp hr with rfl | hr
      · rfl
      · exact h.ownId r (List.mem_append_right _ hr) hrs
  pins := by
    refine h.pins.insert fun r hr k hk hrk => hid (List.mem_map.mpr ⟨r, hr, ?_⟩)
    rw [MessageData.key_eq_some.mp hrk]
    exact (MessageData.key_eq_some.mp hk).symm
  spaced := hspaced

end Shows

namespace ChatMessagesModel

theorem insertSponsoredMessage_eq (m : ChatMessagesModel) {pre post : List MessageData}
    (hrows : m.messages = pre ++ post) (message : QVariantMap) (messageId : Int) :
    insertSponsoredMessage m pre.length message messageId =
      { m with
        messages := pre ++ MessageData.create message messageId :: post
        messageIndexMap := reindex MessageData.key (MessageData.create message messageId :: post) pre.length
          m.messageIndexMap } := by
  have hinsert : insertAt m.messages pre.length (MessageData.create message messageId) =
      pre ++ MessageData.create message messageId :: post := by
    rw [insertAt_of_le m.messages (by rw [hrows, List.length_append]; omega), hrows, insertIdx_append_length]
  rw [insertSponsoredMessage, hinsert, Int.toNat_natCast, List.drop_left]

theorem ids_insertSponsoredMessage_perm (m : ChatMessagesModel) (insertIndex : Int) (message : QVariantMap)
    (messageId : Int) : (insertSponsoredMessage m insertIndex message messageId).ids.Perm (messageId :: m.ids) := by
  obtain ⟨pre, post, hrows, hinsert⟩ := insertAt_eq m.messages insertIndex (MessageData.create message messageId)
  rw [insertSponsoredMessage, ids, ids, hinsert, hrows, List.map_append, List.map_append, List.map_cons]
  exact List.perm_middle

theorem length_insertSponsoredMessage (m : ChatMessagesModel) (insertIndex : Int) (message : QVariantMap)
    (messageId : Int) :
    (insertSponsoredMessage m insertIndex message messageId).messages.length = m.messages.length + 1 := by
  simpa [ids] using (ids_insertSponsoredMessage_perm m insertIndex message messageId).length_eq

theorem ordinaryIds_insertSponsoredMessage (m : ChatMessagesModel) (insertIndex : Int) {message : QVariantMap}
    (hs : isSponsoredMessage message = true) (messageId : Int) :
    ordinaryIds (insertSponsoredMessage m insertIndex message messageId).messages = ordinaryIds m.messages :=
  ordinaryIds_insertAt_sponsored m.messages insertIndex hs

variable {gap : Nat} {shown : List QVariantMap} {m : ChatMessagesModel}

/-- A message goes in at a place that keeps the sponsored rows apart. -/
theorem shows_insert_at (h : Shows gap shown m.messages m.messageIndexMap) {pre post : List MessageData}
    (hrows : m.messages = pre ++ post) {message : QVariantMap} (hs : isSponsoredMessage message = true)
    (hid : sponsoredIdOf message ∉ m.ids)
    (hspaced : Spaced MessageData.isSponsored gap
      (pre ++ MessageData.create message (sponsoredIdOf message) :: post)) :
    Shows gap (message :: shown) (insertSponsoredMessage m pre.length message (sponsoredIdOf message)).messages
      (insertSponsoredMessage m pre.length message (sponsoredIdOf message)).messageIndexMap := by
  rw [insertSponsoredMessage_eq m hrows]
  rw [ids, hrows] at hid
  rw [hrows] at h
  exact h.insert hs hid hspaced

/-- A message goes in before the sponsored rows, `gap` rows away from the first of them. -/
theorem shows_insert_before (h : Shows gap shown m.messages m.messageIndexMap) {p : Nat}
    (hp : p ≤ m.messages.length) (hfar : StartFrom MessageData.isSponsored (p + gap) m.messages)
    {message : QVariantMap} (hs : isSponsoredMessage message = true) (hid : sponsoredIdOf message ∉ m.ids) :
    Shows gap (message :: shown) (insertSponsoredMessage m p message (sponsoredIdOf message)).messages
        (insertSponsoredMessage m p message (sponsoredIdOf message)).messageIndexMap ∧
      StartFrom MessageData.isSponsored p (insertSponsoredMessage m p message (sponsoredIdOf message)).messages := by
  obtain ⟨pre, post, hrows, rfl⟩ := exists_split_of_le hp
  have hsplit := h.spaced
  rw [hrows] at hsplit hfar
  obtain ⟨hspaced, hstart⟩ := hsplit.insert_before hfar (MessageData.create message (sponsoredIdOf message))
  refine ⟨shows_insert_at h hrows hs hid hspaced, ?_⟩
  rw [insertSponsoredMessage_eq m hrows]
  exact hstart

/-- A message goes in behind the sponsored rows, more than `gap` places behind the last of them. -/
theorem shows_insert_behind (h : Shows gap shown m.messages m.messageIndexMap) {p : Nat}
    (hp : p ≤ m.messages.length) (hfar : FarBefore MessageData.isSponsored gap p m.messages)
    {message : QVariantMap} (hs : isSponsoredMessage message = true) (hid : sponsoredIdOf message ∉ m.ids) :
    Shows gap (message :: shown) (insertSponsoredMessage m p message (sponsoredIdOf message)).messages
        (insertSponsoredMessage m p message (sponsoredIdOf message)).messageIndexMap ∧
      FarBefore MessageData.isSponsored gap (p + 1 + gap)
        (insertSponsoredMessage m p message (sponsoredIdOf message)).messages := by
  obtain ⟨pre, post, hrows, rfl⟩ := exists_split_of_le hp
  have hsplit := h.spaced
  rw [hrows] at hsplit hfar
  obtain ⟨hspaced, hbehind⟩ := hsplit.insert_behind hfar (MessageData.create message (sponsoredIdOf message))
  refine ⟨shows_insert_at h hrows hs hid hspaced, ?_⟩
  rw [insertSponsoredMessage_eq m hrows]
  exact hbehind

/-! ### The messages that wait for their place -/

/-- A waiting message that becomes a row takes it under the id it has as an ordinary message; this has to be its own,
and not the id of a row. -/
def Placeable (m : ChatMessagesModel) (message : QVariantMap) : Prop :=
  messageIdOf message = sponsoredIdOf message ∧ messageIdOf message ∉ m.ids

instance (m : ChatMessagesModel) (message : QVariantMap) : Decidable (Placeable m message) :=
  inferInstanceAs (Decidable (_ ∧ _))

/-- After one message is placed, those with other ids still can be. -/
theorem placeable_insertSponsoredMessage {message message' : QVariantMap} (h : Placeable m message')
    (hne : sponsoredIdOf message' ≠ sponsoredIdOf message) (insertIndex : Int) :
    Placeable (insertSponsoredMessage m insertIndex message (sponsoredIdOf message)) message' := by
  refine ⟨h.1, fun hmem => ?_⟩
  rcases List.mem_cons.mp ((ids_insertSponsoredMessage_perm m _ _ _).mem_iff.mp hmem) with heq | hmem
  · exact hne (h.1.symm.trans heq)
  · exact h.2 hmem

/-- The loop over the waiting messages before the sponsored rows; `room` is where the first of these lies. -/
theorem shows_insertPendingBefore (hgap : 0 < gap) (h : Shows gap shown m.messages m.messageIndexMap)
    (hbetween : m.own.sponsoredMessagesMessagesBetween = gap) {room : Nat} (hroom : room ≤ m.messages.length)
    (hfar : StartFrom MessageData.isSponsored room m.messages) {pending : List QVariantMap}
    (hs : ∀ message ∈ pending, isSponsoredMessage message = true) (hd : (pending.map sponsoredIdOf).Nodup)
    (hfits : ∀ message ∈ pending.take (room / gap), Placeable m message) :
    ∃ shown', Shows gap shown' (insertPendingBefore m (room - gap) pending).1.messages
        (insertPendingBefore m (room - gap) pending).1.messageIndexMap ∧
      (shown' ++ (insertPendingBefore m (room - gap) pending).2).Perm (shown ++ pending) := by
  induction pending generalizing m room shown with
  | nil => exact ⟨shown, h, .refl _⟩
  | cons message rest ih =>
      rw [insertPendingBefore]
      by_cases hle : gap ≤ room
      · rw [if_pos (by omega), hbetween]
        obtain ⟨hsm, hsrest⟩ := List.forall_mem_cons.mp hs
        obtain ⟨hnot, hdrest⟩ := List.nodup_cons.mp hd
        rw [Nat.div_eq_sub_div hgap hle, List.take_succ_cons] at hfits
        obtain ⟨⟨hown, hid⟩, hfitsrest⟩ := List.forall_mem_cons.mp hfits
        have hcast : (room : Int) - gap = (room - gap : Nat) := by omega
        rw [hcast]
        rw [hown] at hid ⊢
        obtain ⟨hshows, hstart⟩ := shows_insert_before h (p := room - gap) (by omega)
          (by rwa [Nat.sub_add_cancel hle]) hsm hid
        obtain ⟨shown', hshows', hperm⟩ := ih hshows hbetween
          (by rw [length_insertSponsoredMessage]; omega) hstart hsrest hdrest fun message' hmem =>
            placeable_insertSponsoredMessage (hfitsrest message' hmem)
              (fun heq => hnot (heq ▸ List.mem_map_of_mem (List.mem_of_mem_take hmem))) _
        exact ⟨shown', hshows', hperm.trans List.perm_middle.symm⟩
      · rw [if_neg (by omega)]
        exact ⟨shown, h, .refl _⟩

/-- The loop over the waiting messages behind the sponsored rows; `room` is how many rows there are behind the last
of these. -/
theorem shows_insertPendingAfter (hgap : 0 < gap) (h : Shows gap shown m.messages m.messageIndexMap)
    (hbetween : m.own.sponsoredMessagesMessagesBetween = gap) {p room : Nat}
    (hroom : p + room = m.messages.length + gap) (hfar : FarBefore MessageData.isSponsored gap p m.messages)
    {pending : List QVariantMap} (hs : ∀ message ∈ pending, isSponsoredMessage message = true)
    (hd : (pending.map sponsoredIdOf).Nodup) (hfits : ∀ message ∈ pending.take (room / gap), Placeable m message) :
    ∃ shown', Shows gap shown' (insertPendingAfter m p pending).1.messages
        (insertPendingAfter m p pending).1.messageIndexMap ∧
      (shown' ++ (insertPendingAfter m p pending).2).Perm (shown ++ pending) := by
  induction pending generalizing m p room shown with
  | nil => exact ⟨shown, h, .refl _⟩
  | cons message rest ih =>
      rw [insertPendingAfter]
      by_cases hle : p ≤ m.messages.length
      · rw [if_pos (by omega), hbetween]
        obtain ⟨hsm, hsrest⟩ := List.forall_mem_cons.mp hs
        obtain ⟨hnot, hdrest⟩ := List.nodup_cons.mp hd
        rw [Nat.div_eq_sub_div hgap (by omega), List.take_succ_cons] at hfits
        obtain ⟨⟨hown, hid⟩, hfitsrest⟩ := List.forall_mem_cons.mp hfits
        have hcast : (p : Int) + 1 + gap = (p + 1 + gap : Nat) := by omega
        rw [hcast]
        rw [hown] at hid ⊢
        obtain ⟨hshows, hfar'⟩ := shows_insert_behind h hle hfar hsm hid
        have hroom' : p + 1 + gap + (room - gap) =
            (insertSponsoredMessage m p message (sponsoredIdOf message)).messages.length + gap := by
          rw [length_insertSponsoredMessage]
          omega
        obtain ⟨shown', hshows', hperm⟩ := ih hshows hbetween hroom' hfar' hsrest hdrest fun message' hmem =>
          placeable_insertSponsoredMessage (hfitsrest message' hmem)
            (fun heq => hnot (heq ▸ List.mem_map_of_mem (List.mem_of_mem_take hmem))) _
        exact ⟨shown', hshows', hperm.trans List.perm_middle.symm⟩
      · rw [if_neg (by omega)]
        exact ⟨shown, h, .refl _⟩

end ChatMessagesModel

end YaqtLib
