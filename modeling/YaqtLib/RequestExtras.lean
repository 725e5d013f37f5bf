import YaqtLib.TDLibWrapper

/-! Which extras the program takes for which: an extra of a kind of errors begins with a word of this kind, a request id
begins with its letter, and the extras that the functions themselves make begin with neither, unless they are meant. -/

namespace YaqtLib

open TdConst TDLibReceiver

namespace TDLibWrapper

/-! ### Texts and their parts -/

theorem prefix_of_splitOn {text a b : List Char} {parts : List (List Char)} (h : text.splitOn ':' = a :: b :: parts) :
    a ++ [':'] <+: text := by
  refine ⟨[':'].intercalate (b :: parts), ?_⟩
  rw [← List.intercalate_cons_cons, ← h, List.intercalate_splitOn]

theorem prefix_of_splitExtra {text a b : String} {parts : List String} (h : splitExtra text = a :: b :: parts) :
    a.toList ++ [':'] <+: text.toList := by
  rw [splitExtra] at h
  obtain ⟨a', rest, hsplit, ha, hrest⟩ := List.map_eq_cons_iff.mp h
  obtain ⟨b', parts', rfl, -, -⟩ := List.map_eq_cons_iff.mp hrest
  rw [← ha, String.toList_ofList]
  exact prefix_of_splitOn hsplit

theorem dropLast_if_starts (c : Char) (l : List Char) :
    (if l.getLast? = some c then l.dropLast else l) <+: l := by
  split_ifs
  · exact List.dropLast_prefix l
  · exact List.prefix_refl l

theorem prefix_of_matchesChatMessageCount {text : String} (h : matchesChatMessageCount text = true) :
    "searchMessagesFilter".toList <+: text.toList := by
  rw [matchesChatMessageCount] at h
  dsimp only at h
  split at h
  · rename_i filterType chatId hsplit
    simp only [Bool.and_eq_true] at h
    have hname := List.isPrefixOf_iff_prefix.mp h.1.1.1
    have hfilter := hname.trans (dropLast_if_starts '!' filterType)
    have hstripped := (List.prefix_append filterType [':']).trans (prefix_of_splitOn hsplit)
    exact hfilter.trans (hstripped.trans (dropLast_if_starts '\n' text.toList))
  · exact absurd h (by decide)

namespace ErrorKind

/-- The words with which the extras of a kind begin. -/
def words : ErrorKind → List String
  | .ping => ["ping"]
  | .getMessage => ["getMessage:"]
  | .getExternalLinkInfo => ["getExternalLinkInfo:"]
  | .loginUrl => ["openLoginUrl:"]
  | .getLinkWebBrowserType => ["getLinkWebBrowserType:"]
  | .getForumTopic => ["getForumTopic:"]
  | .getSavedNotificationSound => ["getSavedNotificationSound:"]
  | .loadChats => ["loadChats:", "loadChatsForFolder:"]
  | .chatMessageCount => ["searchMessagesFilter"]
  | .proxy | .loginUrlInfo => []

theorem mem_all (kind : ErrorKind) : kind ∈ all := by
  cases kind <;> decide

/-- A recognised text begins with a word of its kind. -/
theorem Recognises.word {kind : ErrorKind} {text : String} (h : kind.Recognises (.string text)) :
    ∃ word ∈ kind.words, word.toList <+: text.toList := by
  cases kind with
  | ping => exact ⟨"ping", List.mem_cons_self, congrArg String.toList h ▸ List.prefix_refl _⟩
  | getMessage =>
      obtain ⟨a, b, hparts⟩ := h
      exact ⟨_, List.mem_cons_self, prefix_of_splitExtra hparts⟩
  | getExternalLinkInfo =>
      obtain ⟨a, b, rest, hparts⟩ := h
      exact ⟨_, List.mem_cons_self, prefix_of_splitExtra hparts⟩
  | loginUrl =>
      obtain ⟨a, rest, hparts⟩ := h
      exact ⟨_, List.mem_cons_self, prefix_of_splitExtra hparts⟩
  | getLinkWebBrowserType =>
      obtain ⟨a, b, rest, hparts⟩ := h
      exact ⟨_, List.mem_cons_self, prefix_of_splitExtra hparts⟩
  | getForumTopic =>
      obtain ⟨a, b, hparts⟩ := h
      exact ⟨_, List.mem_cons_self, prefix_of_splitExtra hparts⟩
  | getSavedNotificationSound =>
      obtain ⟨a, hparts⟩ := h
      exact ⟨_, List.mem_cons_self, prefix_of_splitExtra hparts⟩
  | loadChats =>
      obtain ⟨a, hparts | hparts⟩ := h
      · exact ⟨_, List.mem_cons_self, prefix_of_splitExtra hparts⟩
      · exact ⟨_, List.mem_cons_of_mem _ List.mem_cons_self, prefix_of_splitExtra hparts⟩
  | chatMessageCount => exact ⟨_, List.mem_cons_self, prefix_of_matchesChatMessageCount h⟩
  | proxy => exact h.elim
  | loginUrlInfo => exact h.elim

/-- No word begins with a digit or a sign. -/
theorem exists_of_mem_words (kind : ErrorKind) {word : String} (h : word ∈ kind.words) :
    ∃ c rest, word.toList = c :: rest ∧ c.isDigit = false ∧ c ≠ '-' := by
  have hall : ∀ k ∈ all, ∀ w ∈ k.words, (w.toList.head?.any fun c => !c.isDigit && c != '-') = true := by
    decide
  have hword := hall kind (mem_all kind) word h
  cases hchars : word.toList with
  | nil =>
      rw [hchars] at hword
      exact absurd hword (by decide)
  | cons c rest =>
      rw [hchars, List.head?_cons, Option.any_some, Bool.and_eq_true, Bool.not_eq_true', bne_iff_ne] at hword
      exact ⟨c, rest, rfl, hword⟩

/-- No word of a kind begins a word of another one. -/
theorem words_apart {kind kind' : ErrorKind} {word word' : String} (hword : word ∈ kind.words)
    (hword' : word' ∈ kind'.words) (h : word.toList <+: word'.toList) : kind = kind' := by
  have hall : ∀ k ∈ all, ∀ w ∈ k.words, ∀ k' ∈ all, ∀ w' ∈ k'.words,
      w.toList.isPrefixOf w'.toList = true → k = k' := by
    decide
  exact hall kind (mem_all kind) word hword kind' (mem_all kind') word' hword' (List.isPrefixOf_iff_prefix.mpr h)

/-- An extra is recognised as one kind. -/
theorem Recognises.unique {kind kind' : ErrorKind} {text : String} (h : kind.Recognises (.string text))
    (h' : kind'.Recognises (.string text)) : kind = kind' := by
  obtain ⟨word, hword, hstarts⟩ := h.word
  obtain ⟨word', hword', hstarts'⟩ := h'.word
  rcases List.prefix_or_prefix_of_prefix hstarts hstarts' with hle | hle
  · exact words_apart hword hword' hle
  · exact (words_apart hword' hword hle).symm

end ErrorKind

/-! ### The error handler -/

theorem exists_of_two_le {parts : List String} {word : String} (h : 2 ≤ parts.length) (hword : part parts 0 = word) :
    ∃ a rest, parts = word :: a :: rest := by
  match parts, h with
  | a :: b :: rest, _ => exact ⟨b, rest, by rw [← hword]; rfl⟩

theorem exists_of_three_le {parts : List String} {word : String} (h : 3 ≤ parts.length)
    (hword : part parts 0 = word) : ∃ a b rest, parts = word :: a :: b :: rest := by
  match parts, h with
  | a :: b :: c :: rest, _ => exact ⟨b, c, rest, by rw [← hword]; rfl⟩

theorem exists_of_length_two {parts : List String} {word : String} (h : parts.length = 2)
    (hword : part parts 0 = word) : ∃ a, parts = [word, a] := by
  obtain ⟨a, b, rfl⟩ := List.length_eq_two.mp h
  exact ⟨b, by rw [← hword]; rfl⟩

theorem exists_of_length_three {parts : List String} {word : String} (h : parts.length = 3)
    (hword : part parts 0 = word) : ∃ a b, parts = [word, a, b] := by
  obtain ⟨a, b, c, rfl⟩ := List.length_eq_three.mp h
  exact ⟨b, c, by rw [← hword]; rfl⟩

/-- A branch of the error handler is taken only for the extras of its kind. -/
theorem recognises_of_errorKind {code : Int} {v : QVariant} {kind : ErrorKind} (h : errorKind code v = some kind) :
    kind.Recognises v := by
  cases v with
  | string text =>
      rw [errorKind] at h
      dsimp only at h
      rcases ite_eq_iff.mp h with ⟨-, h⟩ | ⟨-, h⟩
      · cases h
      rcases ite_eq_iff.mp h with ⟨hping, h⟩ | ⟨-, h⟩
      · rw [← Option.some.inj h]
        exact hping
      rcases ite_eq_iff.mp h with ⟨hget, h⟩ | ⟨-, h⟩
      · rw [← Option.some.inj h]
        exact exists_of_length_three hget.1 hget.2
      rcases ite_eq_iff.mp h with ⟨hlink, h⟩ | ⟨-, h⟩
      · rw [← Option.some.inj h]
        exact exists_of_three_le hlink.1 hlink.2
      rcases ite_eq_iff.mp h with ⟨hlogin, h⟩ | ⟨-, h⟩
      · rw [← Option.some.inj h]
        exact exists_of_two_le hlogin.1 hlogin.2
      rcases ite_eq_iff.mp h with ⟨hbrowser, h⟩ | ⟨-, h⟩
      · rw [← Option.some.inj h]
        exact exists_of_three_le hbrowser.1 hbrowser.2
      rcases ite_eq_iff.mp h with ⟨htopic, h⟩ | ⟨-, h⟩
      · rw [← Option.some.inj h]
        exact exists_of_length_three htopic.1 htopic.2
      rcases ite_eq_iff.mp h with ⟨hsound, h⟩ | ⟨-, h⟩
      · rw [← Option.some.inj h]
        exact exists_of_length_two hsound.1 hsound.2
      rcases ite_eq_iff.mp h with ⟨hload, h⟩ | ⟨-, h⟩
      · rw [← Option.some.inj h]
        rcases hload.2.2 with hword | hword
        · exact (exists_of_length_two hload.2.1 hword).imp fun _ => .inl
        · exact (exists_of_length_two hload.2.1 hword).imp fun _ => .inr
      rcases ite_eq_iff.mp h with ⟨hcount, h⟩ | ⟨-, h⟩
      · rw [← Option.some.inj h]
        exact hcount
      cases h
  | map m =>
      rw [errorKind] at h
      split_ifs at h with hproxy hinfo <;> rw [← Option.some.inj h]
      · exact hproxy
      · exact hinfo
  | _ => cases h

/-- The error of a request that is not found takes the branch of every extra of its kind. -/
theorem errorKind_of_recognises {v : QVariant} {kind : ErrorKind} (h : kind.Recognises v) :
    errorKind 404 v = some kind := by
  cases v with
  | string text =>
      cases hkind : errorKind 404 (.string text) with
      | some kind' => exact congrArg some ((recognises_of_errorKind hkind).unique h)
      | none =>
          rw [errorKind] at hkind
          dsimp only at hkind
          rcases ite_eq_iff.mp hkind with ⟨hempty, -⟩ | ⟨-, hkind⟩
          · obtain ⟨word, hword, hstarts⟩ := h.word
            rw [hempty] at hstarts
            have hne : ∀ w ∈ kind.words, w.toList ≠ [] := by
              cases kind <;> decide
            exact absurd (List.prefix_nil.mp hstarts) (hne word hword)
          obtain ⟨-, hkind⟩ | ⟨hping, hkind⟩ := ite_eq_iff.mp hkind
          · cases hkind
          obtain ⟨-, hkind⟩ | ⟨hget, hkind⟩ := ite_eq_iff.mp hkind
          · cases hkind
          obtain ⟨-, hkind⟩ | ⟨hlink, hkind⟩ := ite_eq_iff.mp hkind
          · cases hkind
          obtain ⟨-, hkind⟩ | ⟨hlogin, hkind⟩ := ite_eq_iff.mp hkind
          · cases hkind
          obtain ⟨-, hkind⟩ | ⟨hbrowser, hkind⟩ := ite_eq_iff.mp hkind
          · cases hkind
          obtain ⟨-, hkind⟩ | ⟨htopic, hkind⟩ := ite_eq_iff.mp hkind
          · cases hkind
          obtain ⟨-, hkind⟩ | ⟨hsound, hkind⟩ := ite_eq_iff.mp hkind
          · cases hkind
          obtain ⟨-, hkind⟩ | ⟨hload, hkind⟩ := ite_eq_iff.mp hkind
          · cases hkind
          obtain ⟨-, hkind⟩ | ⟨hcount, hkind⟩ := ite_eq_iff.mp hkind
          · cases hkind
          exfalso
          cases kind with
          | ping => exact hping h
          | getMessage =>
              obtain ⟨a, b, hparts⟩ := h
              exact hget (by rw [hparts]; exact ⟨rfl, rfl⟩)
          | getExternalLinkInfo =>
              obtain ⟨a, b, rest, hparts⟩ := h
              exact hlink (by rw [hparts]; exact ⟨Nat.le_add_left 3 _, rfl⟩)
          | loginUrl =>
              obtain ⟨a, rest, hparts⟩ := h
              exact hlogin (by rw [hparts]; exact ⟨Nat.le_add_left 2 _, rfl⟩)
          | getLinkWebBrowserType =>
              obtain ⟨a, b, rest, hparts⟩ := h
              exact hbrowser (by rw [hparts]; exact ⟨Nat.le_add_left 3 _, rfl⟩)
          | getForumTopic =>
              obtain ⟨a, b, hparts⟩ := h
              exact htopic (by rw [hparts]; exact ⟨rfl, rfl⟩)
          | getSavedNotificationSound =>
              obtain ⟨a, hparts⟩ := h
              exact hsound (by rw [hparts]; exact ⟨rfl, rfl⟩)
          | loadChats =>
              obtain ⟨a, hparts | hparts⟩ := h
              · exact hload (by rw [hparts]; exact ⟨rfl, rfl, .inl rfl⟩)
              · exact hload (by rw [hparts]; exact ⟨rfl, rfl, .inr rfl⟩)
          | chatMessageCount => exact hcount h
          | proxy => exact h
          | loginUrlInfo => exact h
  | map m =>
      cases kind with
      | proxy => exact if_pos h
      | loginUrlInfo =>
          have hne : ¬ (QVariantMap.value m TYPE_).toStr = PROXY := by
            rw [show (QVariantMap.value m TYPE_).toStr = TYPE_GET_LOGIN_URL_INFO from h]
            decide
          rw [errorKind, if_neg hne]
          exact if_pos h
      | _ => exact h.elim
  | _ => exact h.elim

/-! ### The extras the functions make -/

/-- No word of another request's errors, and no request id, begins a text that begins with the word. -/
def wordFits (type word : String) : Bool :=
  !(word.toList.isPrefixOf ['R'] || ['R'].isPrefixOf word.toList) &&
    ErrorKind.all.all fun kind => kind.words.all fun word' =>
      !(word.toList.isPrefixOf word'.toList || word'.toList.isPrefixOf word.toList) || kind.types.contains type

def Extra.Fits (type : String) : Extra → Bool
  | .text word _ => wordFits type word
  | .object map => ErrorKind.all.all fun kind => !(errorKind 404 (.map map) == some kind) || kind.types.contains type
  | _ => true

/-- All functions make extras that fit, unless the caller hands the extra over. -/
theorem Call.fits (call : Call) : call.extra.Fits call.type = true := by
  have hcategory (category : TopChatCategory) (type : String) :
      wordFits type (getTopChatCategoryType category) = true := by
    cases category <;> rfl
  have hfilter (filter : SearchMessagesFilter) :
      wordFits "getChatMessageCount" (getSearchMessagesFilterType filter) = true := by
    cases filter <;> rfl
  cases call with
  | getTopChats category => exact hcategory category _
  | removeTopChat category => exact hcategory category _
  | getChatMessageCount chatId filter returnLocal => exact hfilter filter
  | changeStickerSet isInstalled => cases isInstalled <;> rfl
  | _ => rfl

/-! ### What is not mistaken -/

theorem prefix_of_requestIdMatch {text : String} {digits : List Char} (h : requestIdMatch text = some digits) :
    ['R'] <+: text.toList := by
  rw [requestIdMatch] at h
  split at h
  · rename_i rest hchars
    rw [hchars]
    exact ⟨rest, rfl⟩
  · cases h

/-- The extra of a request of the type is taken neither for a request id nor for the extra of a request whose errors
another branch handles. -/
structure Unmistakable (type : String) (v : QVariant) : Prop where
  noRequestId : requestIdMatch v.toStr = none
  error : ∀ kind : ErrorKind, kind.Recognises v → type ∈ kind.types

/-- A text with a prefix that neither a request id nor a word of another kind can have. -/
theorem Unmistakable.of_start {type text : String} (start : List Char) (hstart : start <+: text.toList)
    (hid : ¬ start <+: ['R'] ∧ ¬ ['R'] <+: start)
    (hwords : ∀ kind : ErrorKind, ∀ word ∈ kind.words, start <+: word.toList ∨ word.toList <+: start →
      type ∈ kind.types) : Unmistakable type (.string text) := by
  refine ⟨?_, fun kind hkind => ?_⟩
  · cases hmatch : requestIdMatch text with
    | none => exact hmatch
    | some digits =>
        rcases List.prefix_or_prefix_of_prefix hstart (prefix_of_requestIdMatch hmatch) with hle | hle
        · exact absurd hle hid.1
        · exact absurd hle hid.2
  · obtain ⟨word, hword, hstarts⟩ := hkind.word
    exact hwords kind word hword (List.prefix_or_prefix_of_prefix hstart hstarts)

theorem unmistakable_of_wordFits {type word : String} (h : wordFits type word = true) (rest : String) :
    Unmistakable type (.string (word ++ rest)) := by
  rw [wordFits, Bool.and_eq_true, Bool.not_eq_true', Bool.or_eq_false_iff] at h
  refine .of_start word.toList ?_ ⟨?_, ?_⟩ fun kind word' hword' hle => ?_
  · rw [String.toList_append]
    exact List.prefix_append _ _
  · rw [← List.isPrefixOf_iff_prefix, h.1.1]
    exact Bool.false_ne_true
  · rw [← List.isPrefixOf_iff_prefix, h.1.2]
    exact Bool.false_ne_true
  · have hkind := List.all_eq_true.mp (List.all_eq_true.mp h.2 kind (kind.mem_all)) word' hword'
    rw [← List.isPrefixOf_iff_prefix, ← List.isPrefixOf_iff_prefix, ← Bool.or_eq_true] at hle
    rw [hle, Bool.not_true, Bool.false_or] at hkind
    exact List.contains_iff_mem.mp hkind

/-- The text of a number begins with a digit or a sign. -/
theorem exists_toString (n : Int) : ∃ c rest, (toString n).toList = c :: rest ∧ (c.isDigit = true ∨ c = '-') := by
  rw [Int.toString_eq_repr]
  cases n with
  | ofNat n =>
      obtain ⟨c, rest, hchars⟩ := List.exists_cons_of_ne_nil (@Nat.toDigits_ne_nil n 10)
      refine ⟨c, rest, ?_, .inl (isDigit_of_mem_toDigits c (hchars ▸ List.mem_cons_self))⟩
      rw [← hchars, Int.repr]
      exact Nat.toList_repr
  | negSucc n =>
      refine ⟨'-', (Nat.repr (n + 1)).toList, ?_, .inr rfl⟩
      rw [Int.repr, String.toList_append]
      rfl

/-- A text that begins with a digit or a sign. -/
theorem Unmistakable.of_number {type text : String} {c : Char} {rest : List Char} (htext : text.toList = c :: rest)
    (hc : c.isDigit = true ∨ c = '-') : Unmistakable type (.string text) := by
  have hstarts : [c] <+: text.toList := ⟨rest, htext.symm⟩
  have hne : ∀ d : Char, d.isDigit = false → d ≠ '-' → c ≠ d := by
    rintro d hd hminus rfl
    rcases hc with hdigit | rfl
    · exact absurd hdigit (by rw [hd]; exact Bool.false_ne_true)
    · exact hminus rfl
  have hapart : ∀ d ds, d.isDigit = false → d ≠ '-' → ¬ [c] <+: d :: ds ∧ ¬ d :: ds <+: [c] := by
    intro d ds hd hminus
    refine ⟨fun h => ?_, fun h => ?_⟩
    · exact hne d hd hminus (List.cons_prefix_cons.mp h).1
    · exact hne d hd hminus (List.cons_prefix_cons.mp h).1.symm
  refine .of_start [c] hstarts (hapart 'R' [] (by decide) (by decide)) fun kind word hword hle => ?_
  obtain ⟨d, ds, hchars, hd, hminus⟩ := kind.exists_of_mem_words hword
  rw [hchars] at hle
  exact hle.elim (fun h => absurd h (hapart d ds hd hminus).1) (fun h => absurd h (hapart d ds hd hminus).2)

theorem unmistakable_numbers (type : String) (n : Int) (ns : List Int) :
    Unmistakable type (.string (joinNumbers n ns)) := by
  obtain ⟨c, rest, hchars, hc⟩ := exists_toString n
  cases ns with
  | nil => exact .of_number hchars hc
  | cons m ns =>
      refine @Unmistakable.of_number type _ c (rest ++ (":" ++ joinNumbers m ns).toList) ?_ hc
      rw [joinNumbers, String.toList_append, hchars]
      rfl

/-- What the functions themselves make is not mistaken, whatever their arguments. -/
theorem Extra.unmistakable {type : String} {extra : Extra} (h : extra.Fits type = true)
    (hgiven : ∀ v, extra = .given v → Unmistakable type v) : Unmistakable type extra.toVariant := by
  cases extra with
  | absent => exact ⟨rfl, fun kind hkind => hkind.elim⟩
  | given v => exact hgiven v rfl
  | text word rest => exact unmistakable_of_wordFits h rest
  | numbers n ns => exact unmistakable_numbers type n ns
  | number n =>
      obtain ⟨c, rest, hchars, hc⟩ := exists_toString n
      exact ⟨(@Unmistakable.of_number type _ _ _ hchars hc).noRequestId, fun kind hkind => hkind.elim⟩
  | flag b => exact ⟨by cases b <;> rfl, fun kind hkind => hkind.elim⟩
  | object map =>
      refine ⟨rfl, fun kind hkind => ?_⟩
      have hfits := List.all_eq_true.mp h kind kind.mem_all
      have hbranch : errorKind 404 (.map map) = some kind := errorKind_of_recognises hkind
      rw [hbranch, beq_self_eq_true, Bool.not_true, Bool.false_or] at hfits
      exact List.contains_iff_mem.mp hfits

/-- What a caller hands over as the whole extra is not mistaken. -/
def Call.Harmless (call : Call) : Prop := ∀ v ∈ call.given, Unmistakable call.type v

theorem Call.unmistakable {call : Call} (h : call.Harmless) : Unmistakable call.type call.extra.toVariant := by
  refine Extra.unmistakable call.fits fun v hv => h v ?_
  rw [Call.given, hv]
  exact Option.mem_some_self v

end TDLibWrapper

end YaqtLib
