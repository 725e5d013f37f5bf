import YaqtLib.RequestExtras

/-! Links in extras. The functions that ask TDLib about a link write it behind a word, and all but two behind a flag,
with colons between; the handlers of the replies split the extra at every colon, also those of the link, and put
together what is behind the fields they drop. -/

namespace YaqtLib

open TdConst TDLibReceiver

namespace TdConst

abbrev SERVER : String := "server"
abbrev PORT : String := "port"

end TdConst

namespace TDLibReceiver

/-- `QStringList::join(':')`. -/
def joinExtra (parts : List String) : String := String.ofList ([':'].intercalate (parts.map String.toList))

/-- `webBrowserTypeReceived`, which goes on as `openUrl`. -/
structure WebBrowserType where
  url : String
  inApp : Bool
  skipConfirmation : Bool
  deriving DecidableEq

/-- `processWebBrowserType`, if the extra has the part with the flag. -/
def processWebBrowserType (data : QVariantMap) : Option WebBrowserType :=
  let inApp := (data.value TYPE_).toStr == "webBrowserTypeInApp"
  let parts := splitExtra (data.value EXTRA_).toStr
  parts[1]?.map fun flag => { url := joinExtra (parts.drop 2), inApp := inApp, skipConfirmation := flag != "" }

end TDLibReceiver

namespace TDLibWrapper

/-- What the functions below do: they emit a signal, or send a request. -/
inductive Output where
  | request (call : Call)
  | openUrl (url : String) (inApp skipConfirmation : Bool)
  | pingErrorReceived
  | messageNotFound (chatId messageId : Int)
  | forumTopicNotFound (chatId forumTopicId : Int)
  | savedNotificationSoundErrorReceived (soundId : String)
  | chatMessageCountErrorReceived (chatId : Int) (filter : SearchMessagesFilter) (returnLocal : Bool)
  | proxyPingErrorReceived (server : String) (port : Int) (type : QVariantMap)
  | errorReceived (code : Int) (message : String) (extra : QVariant)

/-- `getExternalLinkInfo`; without authorization the link is opened as it is. -/
def getExternalLinkInfo (authorized : Bool) (link : String) (skipConfirmation : Bool) : List Output :=
  if authorized then [.request (.getExternalLinkInfo link skipConfirmation)]
  else [.openUrl link false skipConfirmation]

def getLinkWebBrowserType (authorized : Bool) (link : String) (skipConfirmation : Bool) : List Output :=
  if authorized then [.request (.getLinkWebBrowserType link skipConfirmation)]
  else [.openUrl link false skipConfirmation]

def filters : List SearchMessagesFilter :=
  [.animation, .audio, .chatPhoto, .document, .empty, .failedToSend, .mention, .photo, .photoAndVideo, .pinned,
    .unreadMention, .unreadReaction, .url, .video, .videoNote, .voiceAndVideoNote, .voiceNote]

def getSearchMessagesFilterForType (type : String) : SearchMessagesFilter :=
  (filters.find? fun filter => getSearchMessagesFilterType filter == type).getD .empty

/-- What the expression of `matchesChatMessageCount` captures: the filter, the mark of a local count, the chat id. -/
def capturedChatMessageCount (extra : String) : String × Bool × String :=
  let text := extra.toList
  -- the end of the text may be a line break
  let parts := splitExtra (String.ofList (if text.getLast? = some '\n' then text.dropLast else text))
  let filterType := (part parts 0).toList
  (String.ofList (if filterType.getLast? = some '!' then filterType.dropLast else filterType),
    filterType.getLast? == some '!', part parts 1)

/-- `handleErrorReceived`, if it reads no part that is not there. -/
def handleErrorReceived (authorized : Bool) (code : Int) (message : String) (extra : QVariant) : Option (List Output) :=
  let parts := splitExtra extra.toStr
  let error := Output.errorReceived code message extra
  match errorKind code extra with
  | some .ping => some [.pingErrorReceived]
  | some .getMessage =>
      some [.messageNotFound (stringToLongLong (part parts 1)) (stringToLongLong (part parts 2)), error]
  | some .getExternalLinkInfo =>
      some (getLinkWebBrowserType authorized (joinExtra (parts.drop 2)) (part parts 1 != "") ++ [error])
  | some .loginUrl => some (getLinkWebBrowserType authorized (joinExtra (parts.drop 2)) true ++ [error])
  | some .getLinkWebBrowserType => parts[3]?.map fun url => [.openUrl url false (part parts 1 != ""), error]
  | some .getForumTopic =>
      some [.forumTopicNotFound (stringToLongLong (part parts 1)) (stringToLongLong (part parts 2))]
  | some .getSavedNotificationSound => some [.savedNotificationSoundErrorReceived (part parts 1)]
  -- all chats of a list are loaded
  | some .loadChats => some []
  | some .chatMessageCount =>
      let (filterType, returnLocal, chatId) := capturedChatMessageCount extra.toStr
      some [.chatMessageCountErrorReceived (stringToLongLong chatId) (getSearchMessagesFilterForType filterType)
        returnLocal, error]
  | some .proxy =>
      let map := extra.toMap
      some [.proxyPingErrorReceived (map.value SERVER).toStr (map.value PORT).toInt (map.value TYPE).toMap]
  | some .loginUrlInfo => some [error]
  | none => some [error]

/-! ### Texts and their parts -/

theorem joinExtra_splitExtra (text : String) : joinExtra (splitExtra text) = text := by
  have hparts : (splitExtra text).map String.toList = text.toList.splitOn ':' := by
    rw [splitExtra, List.map_map]
    exact (List.map_congr_left fun l _ => String.toList_ofList).trans (List.map_id _)
  rw [joinExtra, hparts, List.intercalate_splitOn, String.ofList_toList]

/-- A word without a colon is the first part, and the text behind its colon has the other parts. -/
theorem splitExtra_append {word start : String} (rest : String) (hword : ':' ∉ word.toList)
    (hstart : start.toList = word.toList ++ [':']) : splitExtra (start ++ rest) = word :: splitExtra rest := by
  rw [splitExtra, String.toList_append, hstart, List.append_assoc, List.singleton_append,
    List.splitOn_append_cons_self_of_not_mem hword, List.map_cons, String.ofList_toList, splitExtra]

theorem splitExtra_ne_nil (text : String) : splitExtra text ≠ [] := by
  rw [splitExtra, ne_eq, List.map_eq_nil_iff]
  exact List.splitOn_ne_nil ':' text.toList

/-- A text with one part has no colon. -/
theorem splitExtra_eq_singleton_iff {text : String} : (∃ a, splitExtra text = [a]) ↔ ':' ∉ text.toList := by
  constructor
  · rintro ⟨a, h⟩ hmem
    obtain ⟨pre, post, hpre⟩ := List.append_of_mem hmem
    have hlen := congrArg List.length h
    rw [splitExtra, hpre, List.splitOn_append_cons_self, List.length_map, List.length_append] at hlen
    have h1 := List.length_pos_iff.mpr (List.splitOn_ne_nil ':' pre)
    have h2 := List.length_pos_iff.mpr (List.splitOn_ne_nil ':' post)
    rw [List.length_singleton] at hlen
    omega
  · intro h
    exact ⟨text, by rw [splitExtra, List.splitOn_eq_singleton h, List.map_singleton, String.ofList_toList]⟩

/-- A text is longer than what is behind its first part, and than its second part. -/
theorem length_lt_of_splitExtra {text a b : String} {rest : List String} (h : splitExtra text = a :: b :: rest) :
    (joinExtra (b :: rest)).length < text.length ∧ b.length < text.length := by
  have htext : text.toList = a.toList ++ ([':'] ++ (joinExtra (b :: rest)).toList) := by
    have hjoin := joinExtra_splitExtra text
    rw [h, joinExtra, List.map_cons, List.map_cons, List.intercalate_cons_cons] at hjoin
    rw [← hjoin, String.toList_ofList, joinExtra, String.toList_ofList, List.map_cons, List.append_assoc]
  have hb : b.toList <+: (joinExtra (b :: rest)).toList := by
    rw [joinExtra, String.toList_ofList, List.map_cons]
    cases rest with
    | nil =>
        simp only [List.map_nil, List.intercalate_singleton, List.prefix_refl]
    | cons c rest =>
        rw [List.map_cons, List.intercalate_cons_cons, List.append_assoc]
        exact List.prefix_append _ _
  have hlen := congrArg List.length htext
  have hle := hb.length_le
  rw [List.length_append, List.length_append, List.length_singleton] at hlen
  simp only [String.length_toList] at hlen hle
  omega

/-! ### The parts of the extras -/

section Parts

variable (link : String) (skipConfirmation : Bool)

/-- What stands for the flag. -/
def flagPart : String := if skipConfirmation then "!" else ""

theorem flagPart_ne : (flagPart skipConfirmation != "") = skipConfirmation := by
  cases skipConfirmation <;> decide

theorem split_flag : splitExtra ((if skipConfirmation then "!:" else ":") ++ link) =
    flagPart skipConfirmation :: splitExtra link := by
  cases skipConfirmation
  · exact splitExtra_append link (by decide) (by decide)
  · exact splitExtra_append link (by decide) (by decide)

theorem split_getExternalLinkInfo :
    splitExtra (Call.getExternalLinkInfo link skipConfirmation).extra.toVariant.toStr =
      TYPE_GET_EXTERNAL_LINK_INFO :: flagPart skipConfirmation :: splitExtra link := by
  rw [← split_flag]
  exact splitExtra_append _ (by decide) (by decide)

theorem split_getLinkWebBrowserType :
    splitExtra (Call.getLinkWebBrowserType link skipConfirmation).extra.toVariant.toStr =
      "getLinkWebBrowserType" :: flagPart skipConfirmation :: splitExtra link := by
  rw [← split_flag]
  exact splitExtra_append _ (by decide) (by decide)

/-- The extra of `getExternalLink`, which is that of `getLoginUrl`. -/
theorem split_getExternalLink :
    splitExtra (Call.getExternalLink link).extra.toVariant.toStr = EXTRA_LOGIN_URL :: splitExtra link :=
  splitExtra_append _ (by decide) (by decide)

end Parts

/-! ### The branches of the error handler -/

theorem part_second (word a : String) (rest : List String) : part (word :: a :: rest) 1 = a := rfl

/-- A text with parts is neither empty nor the word for a ping. -/
theorem ne_of_splitExtra {text word a : String} {rest : List String} (h : splitExtra text = word :: a :: rest) :
    text ≠ "" ∧ text ≠ "ping" := by
  constructor
  · rintro rfl
    exact absurd (congrArg List.length h) (by simp [splitExtra])
  · rintro rfl
    have hping : splitExtra "ping" = ["ping"] := by decide
    rw [hping] at h
    exact absurd (congrArg List.length h) (by simp)

/-- The branches for other words are passed. -/
theorem not_of_head {P : Prop} {word other : String} {rest : List String} (hne : word ≠ other) :
    ¬ (P ∧ part (word :: rest) 0 = other) :=
  fun h => hne h.2

theorem errorKind_getExternalLinkInfo {text a b : String} {rest : List String}
    (h : splitExtra text = TYPE_GET_EXTERNAL_LINK_INFO :: a :: b :: rest) (code : Int) :
    errorKind code (.string text) = some .getExternalLinkInfo := by
  obtain ⟨hempty, hping⟩ := ne_of_splitExtra h
  rw [errorKind, if_neg hempty, if_neg hping]
  dsimp only
  have hget : TYPE_GET_EXTERNAL_LINK_INFO ≠ "getMessage" := by decide
  rw [h, if_neg (not_of_head hget), if_pos ⟨by simp, rfl⟩]

theorem errorKind_loginUrl {text a : String} {rest : List String} (h : splitExtra text = EXTRA_LOGIN_URL :: a :: rest)
    (code : Int) : errorKind code (.string text) = some .loginUrl := by
  obtain ⟨hempty, hping⟩ := ne_of_splitExtra h
  rw [errorKind, if_neg hempty, if_neg hping]
  dsimp only
  have hget : EXTRA_LOGIN_URL ≠ "getMessage" := by decide
  have hinfo : EXTRA_LOGIN_URL ≠ TYPE_GET_EXTERNAL_LINK_INFO := by decide
  rw [h, if_neg (not_of_head hget), if_neg (not_of_head hinfo), if_pos ⟨by simp, rfl⟩]

theorem errorKind_getLinkWebBrowserType {text a b : String} {rest : List String}
    (h : splitExtra text = "getLinkWebBrowserType" :: a :: b :: rest) (code : Int) :
    errorKind code (.string text) = some .getLinkWebBrowserType := by
  obtain ⟨hempty, hping⟩ := ne_of_splitExtra h
  rw [errorKind, if_neg hempty, if_neg hping]
  dsimp only
  have hget : "getLinkWebBrowserType" ≠ "getMessage" := by decide
  have hinfo : "getLinkWebBrowserType" ≠ TYPE_GET_EXTERNAL_LINK_INFO := by decide
  have hlogin : "getLinkWebBrowserType" ≠ EXTRA_LOGIN_URL := by decide
  rw [h, if_neg (not_of_head hget), if_neg (not_of_head hinfo), if_neg (not_of_head hlogin), if_pos ⟨by simp, rfl⟩]

/-! ### What the handlers recover -/

/-- The extras of the requests for a link, and what their handlers recover from them. -/
structure LinkExtrasDecode (authorized : Bool) (code : Int) (message link : String) (skipConfirmation : Bool) : Prop where
  /-- The same link and flag are asked for. -/
  infoError : handleErrorReceived authorized code message
      (Call.getExternalLinkInfo link skipConfirmation).extra.toVariant =
    some (getLinkWebBrowserType authorized link skipConfirmation ++
      [.errorReceived code message (Call.getExternalLinkInfo link skipConfirmation).extra.toVariant])
  /-- The same link is asked for. -/
  externalLinkError : handleErrorReceived authorized code message (Call.getExternalLink link).extra.toVariant =
    some (getLinkWebBrowserType authorized link true ++
      [.errorReceived code message (Call.getExternalLink link).extra.toVariant])
  loginUrlError : handleErrorReceived authorized code message (Call.getLoginUrl link).extra.toVariant =
    some (getLinkWebBrowserType authorized link true ++
      [.errorReceived code message (Call.getLoginUrl link).extra.toVariant])
  /-- The same link is opened. -/
  browserError : handleErrorReceived authorized code message
      (Call.getLinkWebBrowserType link skipConfirmation).extra.toVariant =
    some [.openUrl link false skipConfirmation,
      .errorReceived code message (Call.getLinkWebBrowserType link skipConfirmation).extra.toVariant]
  browserReply : ∀ data : QVariantMap,
    data.value EXTRA_ = (Call.getLinkWebBrowserType link skipConfirmation).extra.toVariant →
    processWebBrowserType data =
      some ⟨link, (data.value TYPE_).toStr == "webBrowserTypeInApp", skipConfirmation⟩

section Handlers

variable (authorized : Bool) (code : Int) (message link : String) (skipConfirmation : Bool)

theorem infoError_decodes :
    handleErrorReceived authorized code message (Call.getExternalLinkInfo link skipConfirmation).extra.toVariant =
      some (getLinkWebBrowserType authorized link skipConfirmation ++
        [.errorReceived code message (Call.getExternalLinkInfo link skipConfirmation).extra.toVariant]) := by
  have hsplit := split_getExternalLinkInfo link skipConfirmation
  obtain ⟨b, rest, hlink⟩ := List.exists_cons_of_ne_nil (splitExtra_ne_nil link)
  have hkind : errorKind code (Call.getExternalLinkInfo link skipConfirmation).extra.toVariant = _ :=
    errorKind_getExternalLinkInfo (hlink ▸ hsplit) code
  rw [handleErrorReceived]
  dsimp only
  rw [hkind, hsplit]
  dsimp only
  have hdrop : (TYPE_GET_EXTERNAL_LINK_INFO :: flagPart skipConfirmation :: splitExtra link).drop 2 =
    splitExtra link := rfl
  rw [hdrop, part_second, joinExtra_splitExtra, flagPart_ne]

/-- The first part of the link is dropped with the word. -/
theorem handleErrorReceived_getExternalLink :
    handleErrorReceived authorized code message (Call.getExternalLink link).extra.toVariant =
      some (getLinkWebBrowserType authorized (joinExtra (splitExtra link).tail) true ++
        [.errorReceived code message (Call.getExternalLink link).extra.toVariant]) := by
  have hsplit := split_getExternalLink link
  obtain ⟨b, rest, hlink⟩ := List.exists_cons_of_ne_nil (splitExtra_ne_nil link)
  have hkind : errorKind code (Call.getExternalLink link).extra.toVariant = _ :=
    errorKind_loginUrl (hlink ▸ hsplit) code
  rw [handleErrorReceived]
  dsimp only
  rw [hkind, hsplit]
  dsimp only
  have hdrop : (EXTRA_LOGIN_URL :: splitExtra link).drop 2 = (splitExtra link).drop 1 := rfl
  rw [hdrop, List.drop_one]

/-- The second part of the link is opened, if there is one. -/
theorem handleErrorReceived_getLinkWebBrowserType :
    handleErrorReceived authorized code message (Call.getLinkWebBrowserType link skipConfirmation).extra.toVariant =
      (splitExtra link)[1]?.map fun url => [.openUrl url false skipConfirmation,
        .errorReceived code message (Call.getLinkWebBrowserType link skipConfirmation).extra.toVariant] := by
  have hsplit := split_getLinkWebBrowserType link skipConfirmation
  obtain ⟨b, rest, hlink⟩ := List.exists_cons_of_ne_nil (splitExtra_ne_nil link)
  have hkind : errorKind code (Call.getLinkWebBrowserType link skipConfirmation).extra.toVariant = _ :=
    errorKind_getLinkWebBrowserType (hlink ▸ hsplit) code
  rw [handleErrorReceived]
  dsimp only
  rw [hkind, hsplit]
  dsimp only
  rw [part_second, flagPart_ne, List.getElem?_cons_succ, List.getElem?_cons_succ]

theorem browserReply_decodes (data : QVariantMap)
    (h : data.value EXTRA_ = (Call.getLinkWebBrowserType link skipConfirmation).extra.toVariant) :
    processWebBrowserType data =
      some ⟨link, (data.value TYPE_).toStr == "webBrowserTypeInApp", skipConfirmation⟩ := by
  rw [processWebBrowserType, h, split_getLinkWebBrowserType]
  have hdrop : ("getLinkWebBrowserType" :: flagPart skipConfirmation :: splitExtra link).drop 2 = splitExtra link := rfl
  rw [hdrop, List.getElem?_cons_succ, List.getElem?_cons_zero, Option.map_some, joinExtra_splitExtra, flagPart_ne]

/-- What is left of a link without its first part is the link only if it is empty. -/
theorem joinExtra_tail_eq_iff : joinExtra (splitExtra link).tail = link ↔ link = "" := by
  constructor
  · intro h
    match hparts : splitExtra link with
    | [] => exact absurd hparts (splitExtra_ne_nil link)
    | [a] =>
        rw [hparts] at h
        exact h.symm.trans rfl
    | a :: b :: rest =>
        rw [hparts] at h
        have hlt := (length_lt_of_splitExtra hparts).1
        rw [List.tail_cons] at h
        rw [h] at hlt
        exact absurd hlt (Nat.lt_irrefl _)
  · rintro rfl
    decide

/-- What is asked for tells the link. -/
theorem getLinkWebBrowserType_inj {link link' : String}
    (h : getLinkWebBrowserType authorized link skipConfirmation = getLinkWebBrowserType authorized link' skipConfirmation) :
    link = link' := by
  rw [getLinkWebBrowserType, getLinkWebBrowserType] at h
  cases authorized with
  | true =>
      have hcall := Output.request.inj (List.cons.inj h).1
      exact (Call.getLinkWebBrowserType.inj hcall).1
  | false => exact (Output.openUrl.inj (List.cons.inj h).1).1

theorem externalLinkError_decodes_iff :
    handleErrorReceived authorized code message (Call.getExternalLink link).extra.toVariant =
      some (getLinkWebBrowserType authorized link true ++
        [.errorReceived code message (Call.getExternalLink link).extra.toVariant]) ↔ link = "" := by
  rw [handleErrorReceived_getExternalLink, Option.some_inj, List.append_cancel_right_eq, ← joinExtra_tail_eq_iff]
  exact ⟨getLinkWebBrowserType_inj authorized true, fun h => by rw [h]⟩

theorem not_browserError_decodes :
    handleErrorReceived authorized code message (Call.getLinkWebBrowserType link skipConfirmation).extra.toVariant ≠
      some [.openUrl link false skipConfirmation,
        .errorReceived code message (Call.getLinkWebBrowserType link skipConfirmation).extra.toVariant] := by
  rw [handleErrorReceived_getLinkWebBrowserType]
  intro h
  obtain ⟨url, hurl, houtputs⟩ := Option.map_eq_some_iff.mp h
  obtain rfl := (Output.openUrl.inj (List.cons.inj houtputs).1).1
  match hparts : splitExtra url with
  | [] => exact splitExtra_ne_nil url hparts
  | [a] =>
      rw [hparts] at hurl
      exact absurd hurl (by simp)
  | a :: b :: rest =>
      rw [hparts] at hurl
      obtain rfl : b = url := by simpa using hurl
      exact Nat.lt_irrefl _ (length_lt_of_splitExtra hparts).2

theorem browserError_overruns_iff :
    handleErrorReceived authorized code message (Call.getLinkWebBrowserType link skipConfirmation).extra.toVariant =
      none ↔ ':' ∉ link.toList := by
  rw [handleErrorReceived_getLinkWebBrowserType, Option.map_eq_none_iff, ← splitExtra_eq_singleton_iff]
  match hparts : splitExtra link with
  | [] => exact absurd hparts (splitExtra_ne_nil link)
  | [a] => simp
  | a :: b :: rest => simp

end Handlers

/-- **What the link handlers recover**, for every link and flag. The error of `getExternalLinkInfo` and the reply to
`getLinkWebBrowserType` are decoded as they were encoded. The errors of `getExternalLink` and `getLoginUrl` drop a
field that is not there, and with it the first part of the link; the error of `getLinkWebBrowserType` takes the second
part of the link for the link, and reads past the end where there is none. -/
theorem link_extras_decode_iff (authorized : Bool) (code : Int) (message link : String) (skipConfirmation : Bool) :
    ¬LinkExtrasDecode authorized code message link skipConfirmation ∧
    handleErrorReceived authorized code message (Call.getExternalLinkInfo link skipConfirmation).extra.toVariant =
      some (getLinkWebBrowserType authorized link skipConfirmation ++
        [.errorReceived code message (Call.getExternalLinkInfo link skipConfirmation).extra.toVariant]) ∧
    (handleErrorReceived authorized code message (Call.getExternalLink link).extra.toVariant =
      some (getLinkWebBrowserType authorized link true ++
        [.errorReceived code message (Call.getExternalLink link).extra.toVariant]) ↔ link = "") ∧
    (handleErrorReceived authorized code message (Call.getLoginUrl link).extra.toVariant =
      some (getLinkWebBrowserType authorized link true ++
        [.errorReceived code message (Call.getLoginUrl link).extra.toVariant]) ↔ link = "") ∧
    (handleErrorReceived authorized code message (Call.getLinkWebBrowserType link skipConfirmation).extra.toVariant ≠
      some [.openUrl link false skipConfirmation,
        .errorReceived code message (Call.getLinkWebBrowserType link skipConfirmation).extra.toVariant]) ∧
    (handleErrorReceived authorized code message (Call.getLinkWebBrowserType link skipConfirmation).extra.toVariant =
      none ↔ ':' ∉ link.toList) ∧
    ∀ data : QVariantMap, data.value EXTRA_ = (Call.getLinkWebBrowserType link skipConfirmation).extra.toVariant →
      processWebBrowserType data =
        some ⟨link, (data.value TYPE_).toStr == "webBrowserTypeInApp", skipConfirmation⟩ := by
  have hbrowser := not_browserError_decodes authorized code message link skipConfirmation
  have hexternal := externalLinkError_decodes_iff authorized code message link
  exact ⟨fun h => hbrowser h.browserError, infoError_decodes authorized code message link skipConfirmation, hexternal,
    hexternal, hbrowser, browserError_overruns_iff authorized code message link skipConfirmation,
    browserReply_decodes link skipConfirmation⟩

/-- The reply for `https://a`. -/
theorem link_extras_decode_reply :
    let extra := (Call.getLinkWebBrowserType "https://a" true).extra.toVariant
    processWebBrowserType [(TYPE_, .string "webBrowserTypeInApp"), (EXTRA_, extra)] =
      some ⟨"https://a", true, true⟩ :=
  (link_extras_decode_iff true 400 "" "https://a" true).2.2.2.2.2.2 _ rfl

/-- After the errors, `https://a` becomes `//a`. -/
theorem not_link_extras_decode :
    ¬∀ (authorized : Bool) (code : Int) (message link : String) (skipConfirmation : Bool),
      LinkExtrasDecode authorized code message link skipConfirmation := by
  intro h
  have hbrowser := (h true 400 "" "https://a" true).browserError
  rw [handleErrorReceived_getLinkWebBrowserType] at hbrowser
  have hparts : splitExtra "https://a" = ["https", "//a"] := by decide
  rw [hparts] at hbrowser
  have hurl := (Output.openUrl.inj (List.cons.inj (Option.some.inj hbrowser)).1).1
  exact absurd hurl (by decide)

end TDLibWrapper

end YaqtLib
