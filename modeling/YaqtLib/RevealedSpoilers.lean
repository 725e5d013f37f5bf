import YaqtLib.AccountData
import YaqtLib.EntityLinks
import YaqtLib.FullFormattedText
import YaqtLib.ParsedText

/-! Revealing a spoiler (`formattedtext.cpp`). A link that begins with `revealSpoiler://` comes from the text that is
shown, so it may be anything that a sender has written, or be older than the text. -/

namespace YaqtLib

open QString Splices EntityLinks Account.TDLibData

namespace QString

/-- `QString::toInt` of the characters between blanks: an optional sign and digits. -/
def signedNumber : List Char → Option Int
  | '-' :: c :: cs => (digitsToNat (c :: cs) 0).map fun n => -(n : Int)
  | '+' :: c :: cs => (digitsToNat (c :: cs) 0).map fun n => (n : Int)
  | c :: cs => (digitsToNat (c :: cs) 0).map fun n => (n : Int)
  | [] => none

/-- Blanks in front of the text and behind it. -/
def trimmedChars (cs : List Char) : List Char :=
  ((cs.dropWhile isSpace).reverse.dropWhile isSpace).reverse

/-- `toInt(&ok)`, with no number where it is not `ok`. -/
def toInt? (text : QString) : Option Int :=
  (signedNumber (trimmedChars (text.map fun c => Char.ofNat c.toNat))).filter fun n => -2 ^ 31 ≤ n ∧ n < 2 ^ 31

theorem isSpace_of_isDigit {c : Char} (h : c.isDigit = true) : isSpace c = false := by
  have hbounds : 48 ≤ c.toNat ∧ c.toNat ≤ 57 := by
    have hdigit : '0'.toNat ≤ c.toNat ∧ c.toNat ≤ '9'.toNat := by
      simpa [Char.isDigit, UInt32.le_iff_toNat_le] using h
    exact hdigit
  simp [isSpace]
  omega

theorem dropWhile_isSpace {cs : List Char} (h : ∀ c ∈ cs, c.isDigit = true) : cs.dropWhile isSpace = cs := by
  cases cs with
  | nil => rfl
  | cons c cs =>
      have hdigit := isSpace_of_isDigit (h c List.mem_cons_self)
      rw [List.dropWhile_cons_of_neg (by rw [hdigit]; exact Bool.false_ne_true)]

theorem trimmedChars_of_isDigit {cs : List Char} (h : ∀ c ∈ cs, c.isDigit = true) : trimmedChars cs = cs := by
  rw [trimmedChars, dropWhile_isSpace h, dropWhile_isSpace fun c hc => h c (List.mem_reverse.mp hc),
    List.reverse_reverse]

/-- A number without a sign. -/
theorem signedNumber_of_isDigit {cs : List Char} (hne : cs ≠ []) (h : ∀ c ∈ cs, c.isDigit = true) :
    signedNumber cs = some ((Nat.ofDigitChars 10 cs 0 : Nat) : Int) := by
  obtain ⟨c, rest, rfl⟩ := List.exists_cons_of_ne_nil hne
  obtain ⟨hminus, hplus⟩ := ne_sign_of_isDigit (h c List.mem_cons_self)
  unfold signedNumber
  split
  · rename_i heq
    exact absurd (List.cons.inj heq).1 hminus
  · rename_i heq
    exact absurd (List.cons.inj heq).1 hplus
  · rename_i heq
    rw [← heq, digitsToNat_eq h]
    rfl
  · rename_i heq
    exact absurd heq (by simp)

/-- A number that is written and read again. -/
theorem toInt?_number {n : Nat} (h : n < 2 ^ 31) : (number n).toInt? = some (n : Int) := by
  have htext : number (n : Int) = ofString (String.ofList (Nat.toDigits 10 n)) := rfl
  have hdigits : ∀ c ∈ Nat.toDigits 10 n, c.isDigit = true := isDigit_of_mem_toDigits
  rw [htext, toInt?, map_ofString fun c hc => toNat_lt_of_isDigit (hdigits c hc), trimmedChars_of_isDigit hdigits,
    signedNumber_of_isDigit Nat.toDigits_ne_nil hdigits, Nat.ofDigitChars_ten_toDigits]
  refine Option.filter_some_pos (decide_eq_true ?_)
  omega

end QString

namespace FormattedText

/-- The text as `parse` writes it with some insertions for the entities. -/
def written (F : FormattedText) (S : StdSort) (tags : List Insertion) (escape : Bool) : QString :=
  if tags = [] then if escape then F.getPlainEscaped else F.plainText
  else replaceAll F.prefixOffset (S.sort (tags ++ if escape then escapeInsertions 0 F.plainText else [])) F.plainText

theorem parse_eq_written (S : StdSort) (F : FormattedText) (escape : Bool) :
    F.parse S escape = F.written S F.entitiesInsertions escape := rfl

end FormattedText

namespace FullFormattedText

variable {W : Type}

/-- What the handler does of a link: whether it is handled, the text afterwards, and whether it is announced. -/
structure TextLinkResult (W : Type) where
  handled : Bool
  text : FullFormattedText W
  parsedTextChanged : Bool

def revealSpoilerScheme : QString := ofString "revealSpoiler://"

/-- `entities[i].typeData = true`, of the entity there. -/
def withFlag (G : FullFormattedText W) (i : Nat) (entity : PositionedFormattedTextEntity) : FullFormattedText W :=
  { G with text := { G.text with entities := G.text.entities.set i { entity with typeData := .bool true } } }

/-- Without a result where an entity outside the list is accessed. -/
def handleTextLink (G : FullFormattedText W) (link : QString) : Option (TextLinkResult W) :=
  if link.startsWith revealSpoilerScheme then
    match (link.mid 16).toInt? with
    | none => some { handled := true, text := G, parsedTextChanged := false }
    | some i =>
        if 0 ≤ i ∧ i ≤ G.text.entities.length then
          match G.text.entities[i.toNat]? with
          | none => none
          | some entity => some { handled := true, text := G.withFlag i.toNat entity, parsedTextChanged := true }
        else some { handled := true, text := G, parsedTextChanged := false }
  else some { handled := false, text := G, parsedTextChanged := false }

/-! ### What a link is to reveal -/

/-- `parse` has written the link into the tag of the entity, an unrevealed spoiler, for its index. -/
def Wrote (link : QString) (entity : PositionedFormattedTextEntity) (i : Nat) : Prop :=
  entity.type = .spoiler ∧ entity.typeData.toBool = false ∧ link = revealSpoilerScheme ++ number i

instance (link : QString) (entity : PositionedFormattedTextEntity) (i : Nat) : Decidable (Wrote link entity i) :=
  inferInstanceAs (Decidable (_ ∧ _ ∧ _))

/-- The entity behind a link. -/
def afterLink (link : QString) (e : PositionedFormattedTextEntity × Nat) : PositionedFormattedTextEntity :=
  if Wrote link e.1 e.2 then { e.1 with typeData := .bool true } else e.1

/-- The insertions of all entities but the one that the link was written for. -/
def tagsAfterLink (F : FormattedText) (link : QString) : List FormattedText.Insertion :=
  F.entities.zipIdx.flatMap fun e => if Wrote link e.1 e.2 then [] else F.entityInsertions e.1 e.2

/-- The tags around the text of a spoiler whose link is not clicked yet. -/
def spoilerTags (entity : PositionedFormattedTextEntity) (link : QString) : List FormattedText.Insertion :=
  [⟨entity.offset, ofString "<a class=\"spoiler\" href=\"" ++ link ++ ofString "\">", 0⟩,
    ⟨entity.offset + entity.length, PositionedFormattedTextEntity.A_TAG_END, 0⟩]

/-- The handler comes to a result, which reveals the spoiler that the link was written for and leaves all else as it
is; of what is shown, the tags around this spoiler are gone. -/
structure RevealsOnly (G : FullFormattedText W) (link : QString) (result : TextLinkResult W) : Prop where
  text : result.text = { G with text := { G.text with entities := G.text.entities.zipIdx.map (afterLink link) } }
  shown : ∀ S escape, result.text.toFormattedText.parse S escape =
    G.toFormattedText.written S (tagsAfterLink G.toFormattedText link) escape
  hidden : ∀ entity i, G.text.entities[i]? = some entity → Wrote link entity i →
    G.toFormattedText.entityInsertions entity i = spoilerTags entity link

/-- The link has no number that counts the entities, or that of an entity which has the flag already, or is as `parse`
has written it for an unrevealed spoiler. -/
def LinkFits (G : FullFormattedText W) (link : QString) : Prop :=
  link.startsWith revealSpoilerScheme = true → ∀ i ∈ (link.mid 16).toInt?, 0 ≤ i → i ≤ G.text.entities.length →
    ∃ entity, G.text.entities[i.toNat]? = some entity ∧
      (Wrote link entity i.toNat ∨ entity.typeData = .bool true)

/-! ### The handler -/

variable {G : FullFormattedText W} {link : QString}

/-- The link of a spoiler begins with the scheme, and its number is read as it was written. -/
theorem link_of_wrote {entity : PositionedFormattedTextEntity} {i : Nat} (h : Wrote link entity i) (hi : i < 2 ^ 31) :
    link.startsWith revealSpoilerScheme = true ∧ (link.mid 16).toInt? = some (i : Int) := by
  have hlength : (16 : Int) = revealSpoilerScheme.length := rfl
  rw [h.2.2, hlength, mid_append]
  exact ⟨startsWith_append _ _, toInt?_number hi⟩

/-- The entities under a link that was written for none of them. -/
theorem map_afterLink_of_not_wrote {entities : List PositionedFormattedTextEntity}
    (h : ∀ entity i, entities[i]? = some entity → ¬ Wrote link entity i) :
    entities.zipIdx.map (afterLink link) = entities := by
  have hsame : entities.zipIdx.map (afterLink link) = entities.zipIdx.map Prod.fst := by
    refine List.map_congr_left fun e he => if_neg (h e.1 e.2 ?_)
    exact List.mem_zipIdx_iff_getElem?.mp he
  exact hsame.trans (List.zipIdx_map_fst 0 entities)

theorem getElem?_map_afterLink (entities : List PositionedFormattedTextEntity) (i : Nat) :
    (entities.zipIdx.map (afterLink link))[i]? = entities[i]?.map fun entity => afterLink link (entity, i) := by
  rw [List.getElem?_map, List.getElem?_zipIdx, Option.map_map, Nat.zero_add]
  rfl

/-- The entities under a link that was written for one of them. -/
theorem map_afterLink_of_wrote {entities : List PositionedFormattedTextEntity} (hsize : entities.length < 2 ^ 31)
    {i : Nat} {entity : PositionedFormattedTextEntity} (hget : entities[i]? = some entity) (h : Wrote link entity i) :
    entities.zipIdx.map (afterLink link) = entities.set i { entity with typeData := .bool true } := by
  have hlt : i < entities.length := (List.getElem?_eq_some_iff.mp hget).1
  refine List.ext_getElem? fun j => ?_
  rw [getElem?_map_afterLink, List.getElem?_set]
  by_cases hij : i = j
  · subst hij
    rw [hget, if_pos rfl, if_pos hlt, Option.map_some, afterLink, if_pos h]
  · rw [if_neg hij]
    cases hother : entities[j]? with
    | none => rfl
    | some other =>
        have hlt' : j < entities.length := (List.getElem?_eq_some_iff.mp hother).1
        have hnot : ¬ Wrote link other j := by
          intro hwrote
          have hnumber := (link_of_wrote hwrote (by omega)).2
          rw [(link_of_wrote h (by omega)).2] at hnumber
          exact hij (Int.ofNat.inj (Option.some.inj hnumber))
        rw [Option.map_some, afterLink, if_neg hnot]

/-- In a full text a revealed spoiler has no insertions. -/
theorem entityInsertions_revealed {F : FormattedText} (hfull : F.isFull = true)
    {entity : PositionedFormattedTextEntity} (htype : entity.type = .spoiler) (i : Nat) :
    F.entityInsertions { entity with typeData := .bool true } i = [] := by
  have hreplacement : PositionedFormattedTextEntity.getReplacement { entity with typeData := .bool true } F = [] := by
    simp only [PositionedFormattedTextEntity.getReplacement, htype, hfull, if_true]
  have htags : PositionedFormattedTextEntity.getHtmlTags { entity with typeData := .bool true } F.plainText i =
      ([], []) := by
    simp only [PositionedFormattedTextEntity.getHtmlTags, htype]
    rfl
  rw [FormattedText.entityInsertions, hreplacement, htags]
  rfl

theorem entityInsertions_of_wrote {F : FormattedText} (hfull : F.isFull = true)
    {entity : PositionedFormattedTextEntity} {i : Nat} (h : Wrote link entity i) :
    F.entityInsertions entity i = spoilerTags entity link := by
  obtain ⟨htype, hdata, hlink⟩ := h
  have hreplacement : entity.getReplacement F = [] := by
    simp only [PositionedFormattedTextEntity.getReplacement, htype, hfull, if_true]
  have htags : entity.getHtmlTags F.plainText i =
      (ofString "<a class=\"spoiler\" href=\"" ++ link ++ ofString "\">", PositionedFormattedTextEntity.A_TAG_END) := by
    have hscheme : ofString "<a class=\"spoiler\" href=\"revealSpoiler://" =
        ofString "<a class=\"spoiler\" href=\"" ++ revealSpoilerScheme := rfl
    simp only [PositionedFormattedTextEntity.getHtmlTags, htype, hdata, hlink, hscheme, List.append_assoc]
    rfl
  have hne : PositionedFormattedTextEntity.A_TAG_END ≠ [] := by decide
  rw [FormattedText.entityInsertions, hreplacement, htags]
  dsimp only
  rw [if_neg fun h => h rfl, if_neg fun hnil => hne hnil.2]
  rfl

/-- What is shown after the link: the insertions of the other entities stay. -/
theorem entitiesInsertions_afterLink {F : FormattedText} (hfull : F.isFull = true) (link : QString) :
    FormattedText.entitiesInsertions { F with entities := F.entities.zipIdx.map (afterLink link) } =
      tagsAfterLink F link := by
  have hzip : (F.entities.zipIdx.map (afterLink link)).zipIdx =
      F.entities.zipIdx.map fun e => (afterLink link e, e.2) := by
    refine List.ext_getElem? fun i => ?_
    simp only [List.getElem?_zipIdx, List.getElem?_map, Option.map_map]
    rfl
  rw [FormattedText.entitiesInsertions, hzip, List.flatMap_map, tagsAfterLink]
  refine List.flatMap_congr fun e _ => ?_
  dsimp only
  split_ifs with hwrote
  · rw [afterLink, if_pos hwrote]
    exact entityInsertions_revealed (F := { F with entities := F.entities.zipIdx.map (afterLink link) }) hfull hwrote.1
      e.2
  · rw [afterLink, if_neg hwrote]
    rfl

theorem revealsOnly_of_text {result : TextLinkResult W}
    (htext : result.text = { G with text := { G.text with entities := G.text.entities.zipIdx.map (afterLink link) } }) :
    RevealsOnly G link result := by
  refine ⟨htext, fun S escape => ?_, fun entity i _ hwrote => entityInsertions_of_wrote rfl hwrote⟩
  have htags := entitiesInsertions_afterLink (F := G.toFormattedText) rfl link
  rw [htext, FormattedText.parse_eq_written, ← htags]
  rfl

/-- A link that is not followed leaves the text as it is. -/
theorem revealsOnly_same {result : TextLinkResult W} (htext : result.text = G)
    (h : ∀ entity i, G.text.entities[i]? = some entity → ¬ Wrote link entity i) : RevealsOnly G link result := by
  refine revealsOnly_of_text ?_
  rw [htext, map_afterLink_of_not_wrote h]

/-- An entity gets the flag. -/
theorem revealsOnly_withFlag_iff (hsize : G.text.entities.length < 2 ^ 31) {i : Nat}
    {entity : PositionedFormattedTextEntity} (hget : G.text.entities[i]? = some entity)
    (hnumber : (link.mid 16).toInt? = some (i : Int)) {result : TextLinkResult W}
    (htext : result.text = G.withFlag i entity) :
    RevealsOnly G link result ↔ Wrote link entity i ∨ entity.typeData = .bool true := by
  have hlt : i < G.text.entities.length := (List.getElem?_eq_some_iff.mp hget).1
  constructor
  · intro h
    by_contra hnot
    obtain ⟨hwrote, hdata⟩ := not_or.mp hnot
    have hentities := congrArg (fun G : FullFormattedText W => G.text.entities[i]?) (htext.symm.trans h.text)
    dsimp only [withFlag] at hentities
    rw [List.getElem?_set_self hlt, getElem?_map_afterLink, hget, Option.map_some, afterLink,
      if_neg hwrote] at hentities
    exact hdata (congrArg (fun e : PositionedFormattedTextEntity => e.typeData) (Option.some.inj hentities)).symm
  · intro h
    refine revealsOnly_of_text (htext.trans ?_)
    by_cases hwrote : Wrote link entity i
    · rw [map_afterLink_of_wrote hsize hget hwrote]
      rfl
    · -- the flag is there already, and the link was written for no entity
      have hdata := h.resolve_left hwrote
      have hsame : G.text.entities.set i { entity with typeData := .bool true } = G.text.entities := by
        refine List.ext_getElem? fun j => ?_
        rw [List.getElem?_set]
        split_ifs with hij
        · rw [← hij, hget, ← hdata]
        · rfl
      have hnone : ∀ other j, G.text.entities[j]? = some other → ¬ Wrote link other j := by
        intro other j hother hwrote'
        have hlt' : j < G.text.entities.length := (List.getElem?_eq_some_iff.mp hother).1
        have hread := (link_of_wrote hwrote' (by omega)).2
        rw [hnumber] at hread
        obtain rfl : i = j := Int.ofNat.inj (Option.some.inj hread)
        rw [hget] at hother
        rw [← Option.some.inj hother] at hwrote'
        exact hwrote hwrote'
      rw [withFlag, hsame, map_afterLink_of_not_wrote hnone]

/-- **Revealing a spoiler.** For every text with as many entities as a list has room for, and every link: the handler
comes to a result and reveals nothing but the spoiler that the link was written for exactly if the link fits. -/
theorem handleTextLink_revealsOnly_iff (G : FullFormattedText W) (link : QString)
    (hsize : G.text.entities.length < 2 ^ 31) :
    (∃ result, G.handleTextLink link = some result ∧ RevealsOnly G link result) ↔ LinkFits G link := by
  rw [LinkFits, handleTextLink]
  by_cases hscheme : link.startsWith revealSpoilerScheme = true
  swap
  · rw [if_neg hscheme]
    refine iff_of_true ⟨_, rfl, revealsOnly_same rfl ?_⟩ fun h => absurd h hscheme
    intro entity i hget hwrote
    have hlt := (List.getElem?_eq_some_iff.mp hget).1
    exact hscheme (link_of_wrote hwrote (by omega)).1
  · rw [if_pos hscheme]
    have hread : ∀ entity i, G.text.entities[i]? = some entity → Wrote link entity i →
        (link.mid 16).toInt? = some (i : Int) ∧ i < G.text.entities.length := by
      intro entity i hget hwrote
      have hlt := (List.getElem?_eq_some_iff.mp hget).1
      exact ⟨(link_of_wrote hwrote (by omega)).2, hlt⟩
    cases hnumber : (link.mid 16).toInt? with
    | none =>
        refine iff_of_true ⟨_, rfl, revealsOnly_same rfl ?_⟩ (by rintro - _ ⟨⟩)
        intro entity i hget hwrote
        have h := (hread entity i hget hwrote).1
        rw [hnumber] at h
        exact absurd h (by simp)
    | some i =>
        dsimp only
        by_cases hrange : 0 ≤ i ∧ i ≤ G.text.entities.length
        swap
        · rw [if_neg hrange]
          refine iff_of_true ⟨_, rfl, revealsOnly_same rfl ?_⟩ fun _ j hj hlow hhigh => ?_
          · intro entity j hget hwrote
            obtain ⟨h, hlt⟩ := hread entity j hget hwrote
            rw [hnumber] at h
            refine hrange ?_
            rw [Option.some.inj h]
            omega
          · rw [Option.some.inj hj] at hrange
            exact absurd ⟨hlow, hhigh⟩ hrange
        · rw [if_pos hrange]
          cases hget : G.text.entities[i.toNat]? with
          | none =>
              refine iff_of_false ?_ fun h => ?_
              · rintro ⟨result, heq, -⟩
                exact absurd heq (by simp)
              · obtain ⟨entity, hentity, -⟩ := h hscheme i rfl hrange.1 hrange.2
                rw [hget] at hentity
                exact absurd hentity (by simp)
          | some entity =>
              have hcast : (link.mid 16).toInt? = some (i.toNat : Int) := by
                rw [hnumber, Int.toNat_of_nonneg hrange.1]
              have hiff : RevealsOnly G link ⟨true, G.withFlag i.toNat entity, true⟩ ↔
                  Wrote link entity i.toNat ∨ entity.typeData = .bool true :=
                revealsOnly_withFlag_iff hsize hget hcast rfl
              constructor
              · rintro ⟨result, heq, hreveals⟩ _ j hj _ _
                rw [← Option.some.inj heq] at hreveals
                rw [← Option.some.inj hj]
                exact ⟨entity, hget, hiff.mp hreveals⟩
              · intro h
                obtain ⟨entity', hentity, hfits⟩ := h hscheme i rfl hrange.1 hrange.2
                rw [hget] at hentity
                rw [← Option.some.inj hentity] at hfits
                exact ⟨_, rfl, hiff.mpr hfits⟩

/-- A text with one spoiler. -/
def oneSpoiler : FullFormattedText Unit :=
  { text := { plainText := ofString "ab",
              entities := [{ type := .spoiler, typeData := .bool false, offset := 0, length := 1 }] } }

/-- The link that is written for the spoiler. -/
theorem handleTextLink_revealsOnly_oneSpoiler :
    ∃ result, oneSpoiler.handleTextLink (revealSpoilerScheme ++ number 0) = some result ∧
      RevealsOnly oneSpoiler (revealSpoilerScheme ++ number 0) result := by
  refine (handleTextLink_revealsOnly_iff oneSpoiler _ (by decide)).mpr fun _ i hi _ _ => ?_
  have hwrote : Wrote (revealSpoilerScheme ++ number 0) ⟨⟨.spoiler, .bool false⟩, 0, 1⟩ 0 := ⟨rfl, rfl, rfl⟩
  rw [(link_of_wrote hwrote (by decide)).2] at hi
  rw [← Option.some.inj hi]
  exact ⟨_, rfl, Or.inl hwrote⟩

/-- The number of the entities is that of none of them. -/
theorem not_handleTextLink_revealsOnly :
    ¬ ∀ link, ∃ result, oneSpoiler.handleTextLink link = some result ∧ RevealsOnly oneSpoiler link result := by
  intro h
  obtain ⟨result, hresult, -⟩ := h (revealSpoilerScheme ++ number 1)
  have hnone : oneSpoiler.handleTextLink (revealSpoilerScheme ++ number 1) = none := rfl
  rw [hnone] at hresult
  exact absurd hresult (by simp)

end FullFormattedText

end YaqtLib
