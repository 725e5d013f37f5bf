import YaqtLib.MessageRows

/-! The order of the rows. Batches are sorted before they are inserted, and they go to one end of the rows
as a whole; the rows stay in order if the batch lies beyond that end. -/

namespace YaqtLib

open Containers IndexMap

/-- Ascending ids, or descending ones in an inverted model. -/
def Before (inverted : Bool) (a b : Int) : Prop := if inverted then b < a else a < b

instance (inverted : Bool) (a b : Int) : Decidable (Before inverted a b) :=
  inferInstanceAs (Decidable (if inverted then b < a else a < b))

theorem Before.trans {inverted : Bool} {a b c : Int} (h : Before inverted a b) (h' : Before inverted b c) :
    Before inverted a c := by
  cases inverted <;> simp only [Before, if_true, if_false, Bool.false_eq_true] at * <;> omega

theorem Before.ne {inverted : Bool} {a b : Int} (h : Before inverted a b) : a ≠ b := by
  cases inverted <;> simp only [Before, if_true, if_false, Bool.false_eq_true] at * <;> omega

theorem before_or_before {inverted : Bool} {a b : Int} (h : a ≠ b) : Before inverted a b ∨ Before inverted b a := by
  cases inverted <;> simp only [Before, if_true, if_false, Bool.false_eq_true] <;> omega

/-- Ordinary messages, strictly in the order of the model. -/
def Ordered (inverted : Bool) (rows : List MessageData) : Prop :=
  rows.Pairwise (fun a b => Before inverted a.messageId b.messageId) ∧ ∀ r ∈ rows, r.isSponsored = false

theorem ordered_nil (inverted : Bool) : Ordered inverted [] := ⟨List.Pairwise.nil, by simp⟩

theorem ordered_append {inverted : Bool} {rows rows' : List MessageData} :
    Ordered inverted (rows ++ rows') ↔ Ordered inverted rows ∧ Ordered inverted rows' ∧
      ∀ a ∈ rows, ∀ b ∈ rows', Before inverted a.messageId b.messageId := by
  simp only [Ordered, List.pairwise_append, List.mem_append]
  constructor
  · rintro ⟨⟨h, h', hcross⟩, hs⟩
    exact ⟨⟨h, fun r hr => hs r (Or.inl hr)⟩, ⟨h', fun r hr => hs r (Or.inr hr)⟩, hcross⟩
  · rintro ⟨⟨h, hs⟩, ⟨h', hs'⟩, hcross⟩
    exact ⟨⟨h, h', hcross⟩, fun r hr => hr.elim (hs r) (hs' r)⟩

theorem ordered_iff_map {inverted : Bool} {rows : List MessageData} :
    Ordered inverted rows ↔
      (rows.map fun r => (r.messageId, r.isSponsored)).Pairwise (fun a b => Before inverted a.1 b.1) ∧
      ∀ p ∈ rows.map fun r => (r.messageId, r.isSponsored), p.2 = false := by
  simp [Ordered, List.pairwise_map]

/-- The order is read off the bodies of the rows. -/
theorem Ordered.of_sublist {inverted : Bool} {rows rows' : List MessageData} (h : Ordered inverted rows)
    (hsub : (rows'.map fun r => (r.messageId, r.isSponsored)).Sublist
      (rows.map fun r => (r.messageId, r.isSponsored))) : Ordered inverted rows' := by
  rw [ordered_iff_map] at h ⊢
  exact ⟨h.1.sublist hsub, fun p hp => h.2 p (hsub.subset hp)⟩

namespace MessageData

theorem lessThan_iff (a b : MessageData) :
    lessThan a b = true ↔ (a.isSponsored = false ∧ b.isSponsored = true) ∨
      (a.isSponsored = b.isSponsored ∧ a.messageId < b.messageId) := by
  rw [lessThan]
  cases a.isSponsored <;> cases b.isSponsored <;> simp

theorem lessThan_of_ordinary {a b : MessageData} (ha : a.isSponsored = false) (hb : b.isSponsored = false) :
    lessThan a b = true ↔ a.messageId < b.messageId := by
  simp [lessThan_iff, ha, hb]

theorem not_lessThan_trans (a b c : MessageData) (hab : lessThan b a = false) (hbc : lessThan c b = false) :
    lessThan c a = false := by
  rw [← Bool.not_eq_true, lessThan_iff] at *
  grind

theorem lessThan_trans (a b c : MessageData) (hab : lessThan a b = true) (hbc : lessThan b c = true) :
    lessThan a c = true := by
  rw [lessThan_iff] at *
  grind

end MessageData

namespace MessagesModel

/-- Ordinary messages with distinct ids are sorted strictly, in either order. -/
theorem ordered_sortMessages {inverted : Bool} {newMessages : List MessageData}
    (hs : ∀ r ∈ newMessages, r.isSponsored = false) (hd : (newMessages.map MessageData.messageId).Nodup) :
    Ordered inverted (sortMessages inverted newMessages) := by
  have hperm := sortMessages_perm inverted newMessages
  have hs' : ∀ r ∈ sortMessages inverted newMessages, r.isSponsored = false :=
    fun r hr => hs r (hperm.subset hr)
  have hd' : ((sortMessages inverted newMessages).map MessageData.messageId).Nodup :=
    (hperm.map _).nodup_iff.mpr hd
  have hne : (sortMessages inverted newMessages).Pairwise fun a b => a.messageId ≠ b.messageId :=
    List.pairwise_map.mp hd'
  refine ⟨?_, hs'⟩
  cases inverted with
  | false =>
      have : IsTrans MessageData fun a b => MessageData.lessThan b a = false :=
        ⟨fun a b c hab hbc => MessageData.not_lessThan_trans a b c hab hbc⟩
      have hsorted : (sortMessages false newMessages).Pairwise fun a b => MessageData.lessThan b a = false := by
        refine pairwise_insertionSort _ (List.pairwise_of_forall fun a b => ?_)
        simp only [← Bool.not_eq_true, MessageData.lessThan_iff]
        cases a.isSponsored <;> cases b.isSponsored <;> simp <;> omega
      refine List.Pairwise.imp_of_mem ?_ (hsorted.and hne)
      rintro a b ha hb ⟨hab, hne⟩
      rw [← Bool.not_eq_true, MessageData.lessThan_of_ordinary (hs' b hb) (hs' a ha)] at hab
      exact show a.messageId < b.messageId by omega
  | true =>
      have : IsTrans MessageData fun a b => MessageData.moreThan b a = false :=
        ⟨fun a b c hab hbc => by
          simp only [MessageData.moreThan, Bool.not_eq_false'] at *
          exact MessageData.lessThan_trans c b a hbc hab⟩
      have hsorted : (sortMessages true newMessages).Pairwise fun a b => MessageData.moreThan b a = false := by
        refine pairwise_insertionSort _ (List.Pairwise.imp_of_mem ?_ (List.pairwise_map.mp hd))
        intro a b ha hb hab
        simp only [MessageData.moreThan, Bool.not_eq_false',
          MessageData.lessThan_of_ordinary (hs b hb) (hs a ha),
          MessageData.lessThan_of_ordinary (hs a ha) (hs b hb)]
        omega
      refine List.Pairwise.imp_of_mem ?_ hsorted
      intro a b ha hb hab
      simp only [MessageData.moreThan, Bool.not_eq_false',
        MessageData.lessThan_of_ordinary (hs' b hb) (hs' a ha)] at hab
      exact hab

variable {Own : Type}

theorem lastKnownId_append (m : MessagesModel Own) {pre : List MessageData} {last : MessageData}
    (hrows : m.messages = pre ++ [last]) (hlast : last.isSponsored = false) : m.lastKnownId = last.messageId := by
  rw [lastKnownId, hrows, List.reverse_append, List.reverse_singleton, List.singleton_append,
    List.find?_cons_of_pos (by simp [hlast])]

section Virtual

variable [Virtuals Own]

/-- The batch lies on one side of all rows. -/
def BeyondOneEnd (m : MessagesModel Own) (newIds : List Int) : Prop :=
  (∀ r ∈ m.ids, ∀ k ∈ newIds, r < k) ∨ ∀ r ∈ m.ids, ∀ k ∈ newIds, k < r

instance (m : MessagesModel Own) (newIds : List Int) : Decidable (m.BeyondOneEnd newIds) :=
  inferInstanceAs (Decidable (_ ∨ _))

/-- A batch of ordinary, distinct messages whose new ones lie on one side of all rows. -/
def BatchBeyond (m : MessagesModel Own) (messages : List QVariantMap) : Prop :=
  (messages.map messageIdOf).Nodup ∧ (∀ messageData ∈ messages, isSponsoredMessage messageData = false) ∧
    m.BeyondOneEnd ((messages.filter m.Fresh).map messageIdOf)

instance (m : MessagesModel Own) (messages : List QVariantMap) : Decidable (m.BatchBeyond messages) :=
  inferInstanceAs (Decidable (_ ∧ _ ∧ _))

/-- Rows that lie beyond one end are inserted at that end. -/
theorem insertMessages_of_beyond {m : MessagesModel Own} {pre newMessages : List MessageData}
    {last first : MessageData} {rest : List MessageData} (hrows : m.messages = pre ++ [last])
    (hlast : last.isSponsored = false) (hnew : newMessages = first :: rest)
    (hbeyond : m.BeyondOneEnd (newMessages.map MessageData.messageId)) :
    m.insertMessages newMessages = Virtuals.appendMessages m newMessages ∧
      (∀ r ∈ m.messages, ∀ k ∈ newMessages, r.messageId < k.messageId) ∨
    m.insertMessages newMessages = Virtuals.prependMessages m newMessages ∧
      ∀ r ∈ m.messages, ∀ k ∈ newMessages, k.messageId < r.messageId := by
  have hlastmem : last ∈ m.messages := by rw [hrows]; simp
  have hfirstmem : first ∈ newMessages := by rw [hnew]; exact List.mem_cons_self ..
  have hnonempty : ¬ m.messages.isEmpty = true := by rw [hrows]; simp
  have hinsert : m.insertMessages newMessages =
      if last.messageId < first.messageId then Virtuals.appendMessages m newMessages
      else Virtuals.prependMessages m newMessages := by
    unfold insertMessages
    rw [if_neg hnonempty, hnew, lastKnownId_append m hrows hlast]
  simp only [BeyondOneEnd, ids, List.mem_map, forall_exists_index, and_imp, forall_apply_eq_imp_iff₂] at hbeyond
  rw [hinsert]
  rcases hbeyond with hnewer | holder
  · rw [if_pos (hnewer last hlastmem first hfirstmem)]
    exact Or.inl ⟨rfl, hnewer⟩
  · rw [if_neg (by have := holder last hlastmem first hfirstmem; omega)]
    exact Or.inr ⟨rfl, holder⟩

end Virtual

end MessagesModel

end YaqtLib
