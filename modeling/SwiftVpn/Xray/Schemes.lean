/-
  File:      SwiftVpn/Xray/Schemes.lean
  Subject:   THE SPELLING OF A SCHEME.

  A text is taken for a share link whatever the case of its scheme. Five of the parsers hand the link to
  `URI`; those of `vmess` and `ss` take the scheme off themselves, in lower case or in upper case.

  * `spelledScheme`, `payload`, `lowerScheme` -- the scheme as it stands in a link, what follows it, and
    the link with its scheme in lower case;
  * `parse_schemeLink` -- the forms of a link that are tried are its scheme and the forms of its payload;
  * `caseBlind` -- the scheme of every form that is tried is taken off as in lower case, or the form is
    refused before that;
  * `parse_lowerScheme` -- such a link is parsed like the one with its scheme in lower case, and every
    other one has a form of which the parser sees something else (`Misread`).
-/
import SwiftVpn.Xray.Hysteria
import SwiftVpn.Xray.Links

namespace SwiftVpn

namespace XrayShareLink

/-! ## 1. A link and its scheme -/

/-- The schemes of share links. -/
def schemeNames : List String := ["vless", "vmess", "trojan", "ss", "socks", "hysteria2", "hy2"]

/-- A link of a scheme. -/
def schemeLink (scheme payload : String) : String := scheme ++ "://" ++ payload

/-- Its letters in lower case. -/
def lowerCase (scheme : String) : String := String.ofList (scheme.toList.map Text.foldCase)

/-- The scheme of a link, as it is spelled. -/
def spelledScheme (link : String) : String := substringBefore ':' (trim link) ""

/-- What follows the scheme. -/
def payload (link : String) : String :=
  String.ofList ((substringAfter ':' (trim link) "").toList.drop 2)

/-- The link with its scheme in lower case. -/
def lowerScheme (link : String) : String := schemeLink (lowerCase (spelledScheme link)) (payload link)

theorem toList_schemeLink (scheme payload : String) :
    (schemeLink scheme payload).toList = scheme.toList ++ ':' :: '/' :: '/' :: payload.toList := by
  simp [schemeLink]

theorem toList_lowerCase (scheme : String) :
    (lowerCase scheme).toList = scheme.toList.map Text.foldCase := String.toList_ofList

section Parts

variable {link scheme rest : String}

theorem spelledScheme_of_trim (h : trim link = schemeLink scheme rest) (hcolon : ':' ∉ scheme.toList) :
    spelledScheme link = scheme := by
  unfold spelledScheme substringBefore
  rw [h, toList_schemeLink, Text.cutFirst_append hcolon]
  exact String.ofList_toList

theorem payload_of_trim (h : trim link = schemeLink scheme rest) (hcolon : ':' ∉ scheme.toList) :
    payload link = rest := by
  unfold payload substringAfter
  rw [h, toList_schemeLink, Text.cutFirst_append hcolon]
  dsimp only
  rw [String.toList_ofList]
  exact String.ofList_toList

end Parts

/-- What is known of the spelling of a scheme. -/
structure Spelling (scheme spelled : String) : Prop where
  known : scheme ∈ schemeNames
  folds : lowerCase spelled = scheme

namespace Spelling

variable {scheme spelled : String}

/-- No character of a scheme is written for another one. -/
theorem not_mem (h : Spelling scheme spelled) {x : Char} (hx : x ∈ [':', '/', '%', '+', '#']) :
    x ∉ spelled.toList := by
  have hnone : ∀ scheme ∈ schemeNames, ∀ x ∈ [':', '/', '%', '+', '#'],
      Text.foldCase x ∉ scheme.toList := by decide
  intro hm
  refine hnone scheme h.known x hx ?_
  rw [← h.folds, toList_lowerCase]
  exact List.mem_map_of_mem hm

theorem folds_toList (h : Spelling scheme spelled) :
    spelled.toList.map Text.foldCase = scheme.toList := by
  rw [← toList_lowerCase, h.folds]

/-- The scheme in lower case is a spelling of itself. -/
theorem self (h : Spelling scheme spelled) : Spelling scheme scheme := by
  have hall : ∀ scheme ∈ schemeNames, lowerCase scheme = scheme := by decide
  exact ⟨h.known, hall scheme h.known⟩

theorem ne_nil (h : Spelling scheme spelled) : spelled.toList ≠ [] := by
  have hall : ∀ scheme ∈ schemeNames, scheme.toList ≠ [] := by decide
  intro hnil
  refine hall scheme h.known ?_
  rw [← h.folds_toList, hnil]
  rfl

/-- A link starts with its scheme in every spelling. -/
theorem startsWithIgnoreCase (h : Spelling scheme spelled) (rest : String) :
    startsWithIgnoreCase (schemeLink spelled rest) (scheme ++ "://") = true := by
  rw [startsWithIgnoreCase_iff]
  refine ⟨spelled.toList ++ "://".toList, rest.toList, ?_, ?_⟩
  · rw [toList_schemeLink, List.append_assoc]
    rfl
  · have hself := h.self.folds_toList
    rw [String.toList_append, List.map_append, List.map_append, h.folds_toList, hself]

end Spelling

/-- **A share link is a known scheme in some spelling, and a payload.** -/
theorem looksLikeShareLink_iff_spelling (link : String) :
    looksLikeShareLink link = true ↔
      ∃ scheme spelled rest, trim link = schemeLink spelled rest ∧ Spelling scheme spelled := by
  constructor
  · intro h
    have hnames : ∀ lit ∈ linkSchemes, ∃ scheme ∈ schemeNames,
        lit.toList.map Text.foldCase = scheme.toList ++ "://".toList := by decide
    obtain ⟨p, r, hlink, lit, hlit, hp⟩ := (looksLikeShareLink_iff link).1 h
    obtain ⟨scheme, hscheme, hname⟩ := hnames lit hlit
    rw [hname] at hp
    obtain ⟨s, sep, rfl, hs, hsep⟩ := List.map_eq_append_iff.1 hp
    -- nothing but themselves folds to the characters behind the scheme
    have hself : sep = "://".toList := by
      obtain ⟨a, sep, rfl, ha, hsep⟩ := List.map_eq_cons_iff.1 hsep
      obtain ⟨b, sep, rfl, hb, hsep⟩ := List.map_eq_cons_iff.1 hsep
      obtain ⟨c, sep, rfl, hc, hsep⟩ := List.map_eq_cons_iff.1 hsep
      rw [List.map_eq_nil_iff] at hsep
      rw [Text.eq_of_foldCase ha (by decide), Text.eq_of_foldCase hb (by decide),
        Text.eq_of_foldCase hc (by decide), hsep]
      rfl
    refine ⟨scheme, String.ofList s, String.ofList r, ?_, hscheme, ?_⟩
    · rw [← String.toList_inj, hlink, toList_schemeLink, String.toList_ofList, String.toList_ofList,
        hself, List.append_assoc]
      rfl
    · rw [← String.toList_inj, toList_lowerCase, String.toList_ofList, hs]
  · rintro ⟨scheme, spelled, rest, hlink, hs⟩
    have hlit : ∀ scheme ∈ schemeNames, scheme ++ "://" ∈ linkSchemes := by decide
    unfold looksLikeShareLink
    rw [List.any_eq_true]
    exact ⟨_, hlit scheme hs.known, hlink ▸ hs.startsWithIgnoreCase rest⟩

/-! ## 2. The forms that are tried -/

/-- The payloads of the forms. -/
def payloadForms (rest : String) : List String := [rest, urlDecode rest, withDecodedFragment rest]

section Forms

variable {scheme spelled : String}

/-- What stands before the payload is neither decoded nor the start of a fragment. -/
theorem not_mem_front (h : Spelling scheme spelled) {x : Char} (hx : x ∈ ['%', '+', '#']) :
    x ∉ spelled.toList ++ "://".toList := by
  have hsep : ∀ x ∈ ['%', '+', '#'], x ∉ "://".toList ∧ x ∈ [':', '/', '%', '+', '#'] := by decide
  rw [List.mem_append, not_or]
  exact ⟨h.not_mem (hsep x hx).2, (hsep x hx).1⟩

theorem toList_schemeLink_front (spelled rest : String) :
    (schemeLink spelled rest).toList = (spelled.toList ++ "://".toList) ++ rest.toList := by
  rw [toList_schemeLink, List.append_assoc]
  rfl

theorem urlDecode_schemeLink (h : Spelling scheme spelled) (rest : String) :
    urlDecode (schemeLink spelled rest) = schemeLink spelled (urlDecode rest) := by
  have hdecode : Percent.formDecode (schemeLink spelled rest).toList
      = (Percent.formDecode rest.toList).map ((spelled.toList ++ "://".toList) ++ ·) := by
    unfold Percent.formDecode
    rw [toList_schemeLink_front, Percent.unescape_append_of_not_mem (not_mem_front h (by decide)),
      (Percent.map_plus_eq_self_iff _).2 (not_mem_front h (by decide))]
  rw [← String.toList_inj, toList_urlDecode, hdecode, toList_schemeLink_front, toList_schemeLink_front,
    toList_urlDecode]
  cases Percent.formDecode rest.toList <;> rfl

theorem withDecodedFragment_schemeLink (h : Spelling scheme spelled) (rest : String) :
    withDecodedFragment (schemeLink spelled rest) = schemeLink spelled (withDecodedFragment rest) := by
  have hfront : '#' ∉ spelled.toList ++ "://".toList := not_mem_front h (by decide)
  unfold withDecodedFragment
  rw [toList_schemeLink_front]
  cases hcut : Text.cutFirst '#' rest.toList with
  | none =>
    have hrest : '#' ∉ rest.toList := by
      intro hm
      unfold Text.cutFirst at hcut
      rw [if_pos hm] at hcut
      cases hcut
    have hno : '#' ∉ (spelled.toList ++ "://".toList) ++ rest.toList := by
      rw [List.mem_append, not_or]
      exact ⟨hfront, hrest⟩
    rw [Text.cutFirst_of_not_mem hno]
  | some parts =>
    obtain ⟨l, f⟩ := parts
    have hlink : Text.cutFirst '#' ((spelled.toList ++ "://".toList) ++ rest.toList)
        = some ((spelled.toList ++ "://".toList) ++ l, f) := by
      rw [Text.cutFirst_eq_some hcut, ← List.append_assoc]
      refine Text.cutFirst_append ?_ f
      rw [List.mem_append, not_or]
      exact ⟨hfront, Text.not_mem_of_cutFirst hcut⟩
    rw [hlink, ← String.toList_inj, toList_schemeLink_front]
    simp

/-- **The forms of a link have its scheme.** -/
theorem parse_schemeLink (doubles : Doubles) (h : Spelling scheme spelled) {rest : String}
    (htrim : trim (schemeLink spelled rest) = schemeLink spelled rest) :
    parse doubles (schemeLink spelled rest)
      = (payloadForms rest).findSome? fun q => parseOnce doubles (schemeLink spelled q) := by
  unfold parse payloadForms
  dsimp only
  rw [htrim, urlDecode_schemeLink h, withDecodedFragment_schemeLink h]
  rfl

/-- A payload is trimmed in every spelling of the scheme alike. -/
theorem trim_schemeLink {spelled' : String} (h' : Spelling scheme spelled') {rest : String}
    (htrim : trim (schemeLink spelled rest) = schemeLink spelled rest) :
    trim (schemeLink spelled' rest) = schemeLink spelled' rest := by
  have hvisible : ∀ c ∈ spelled'.toList, isWhitespace c = false := by
    intro c hc
    have hall : ∀ scheme ∈ schemeNames, ∀ c ∈ scheme.toList, isWhitespace c = false := by decide
    rw [Bool.eq_false_iff]
    intro hw
    have hm : c ∈ scheme.toList := by
      rw [← h'.folds_toList, ← foldCase_of_isWhitespace (.inl hw)]
      exact List.mem_map_of_mem hc
    rw [hall scheme h'.known c hm] at hw
    cases hw
  have hlast : ∀ s : String, (schemeLink s rest).toList.getLast?
      = (':' :: '/' :: '/' :: rest.toList).getLast? := by
    intro s
    rw [toList_schemeLink, List.getLast?_append_cons]
  apply trim_eq_self
  · intro c hc
    rw [toList_schemeLink] at hc
    cases hs : spelled'.toList with
    | nil => exact absurd hs h'.ne_nil
    | cons d ds =>
      rw [hs] at hc
      cases hc
      exact hvisible c (hs ▸ List.mem_cons_self)
  · intro c hc
    rw [hlast spelled', ← hlast spelled, ← htrim, trim, String.toList_ofList] at hc
    exact getLast?_trimChars hc

end Forms

/-! ## 3. Parsers that read a URI -/

section Uris

variable {scheme spelled : String}

theorem uriOf_schemeLink (h : Spelling scheme spelled) (rest : String) :
    uriOf (schemeLink spelled rest)
      = if Uri.isScheme spelled.toList then Uri.afterScheme rest.toList else none := by
  have hspan := Uri.span_append (fun c => decide (c ≠ ':')) spelled.toList
    (':' :: '/' :: '/' :: rest.toList)
    (fun c hc => by
      rw [decide_eq_true_eq]
      rintro rfl
      exact h.not_mem (by decide) hc)
    (fun c hc => by
      cases hc
      rfl)
  unfold uriOf Uri.ofText
  rw [toList_schemeLink, hspan.1, hspan.2]
  rfl

/-- What is no letter or digit of ASCII folds to itself, or is written for one. -/
theorem isAlphanum_foldCase : ∀ n < 128, (Text.foldCase (Char.ofNat n)).isAlphanum
    = (Char.ofNat n).isAlphanum ∧ (Text.foldCase (Char.ofNat n)).isAlpha = (Char.ofNat n).isAlpha := by
  decide +kernel

theorem not_isAlphanum_of_le {c : Char} (h : 128 ≤ c.toNat) :
    c.isAlphanum = false ∧ "+-.".toList.contains c = false := by
  constructor
  · rw [Bool.eq_false_iff]
    intro ha
    rw [Percent.isAlphanum_iff] at ha
    omega
  · rw [Bool.eq_false_iff]
    intro hc
    rw [List.contains_iff_mem] at hc
    have hall : ∀ d ∈ "+-.".toList, d.toNat < 128 := by decide
    exact absurd (hall c hc) (by omega)

/-- **A spelling is the name of a scheme of a URI exactly where it is ASCII.** -/
theorem isScheme_spelled_iff (h : Spelling scheme spelled) :
    Uri.isScheme spelled.toList = true ↔ ∀ c ∈ spelled.toList, c.toNat < 128 := by
  have hnames : ∀ scheme ∈ schemeNames, (scheme.toList.head?.any Char.isAlpha = true) ∧
      ∀ c ∈ scheme.toList, c.isAlphanum = true := by decide
  constructor
  · intro hs c hc
    by_contra hge
    have hall := (Bool.and_eq_true _ _ ▸ hs : _ ∧ _).2
    have hok := List.all_eq_true.1 hall c hc
    have hnone := not_isAlphanum_of_le (Nat.le_of_not_lt hge)
    rw [hnone.1, hnone.2] at hok
    cases hok
  · intro hascii
    have hfold : ∀ c ∈ spelled.toList, (Text.foldCase c).isAlphanum = c.isAlphanum ∧
        (Text.foldCase c).isAlpha = c.isAlpha := by
      intro c hc
      have hc' := isAlphanum_foldCase c.toNat (hascii c hc)
      rwa [Char.ofNat_toNat] at hc'
    have halnum : ∀ c ∈ spelled.toList, c.isAlphanum = true := by
      intro c hc
      rw [← (hfold c hc).1]
      refine (hnames scheme h.known).2 _ ?_
      rw [← h.folds_toList]
      exact List.mem_map_of_mem hc
    have hhead : spelled.toList.head?.any Char.isAlpha = true := by
      have hfirst := (hnames scheme h.known).1
      rw [← h.folds_toList, List.head?_map] at hfirst
      cases hs : spelled.toList with
      | nil => exact absurd hs h.ne_nil
      | cons d ds =>
        rw [hs] at hfirst
        have hd := (hfold d (hs ▸ List.mem_cons_self)).2
        simpa [hd] using hfirst
    unfold Uri.isScheme
    rw [hhead, Bool.true_and, List.all_eq_true]
    intro c hc
    rw [halnum c hc, Bool.true_or]

/-- Two links of a scheme whose parser reads a URI, with the same URI. -/
theorem parseOnce_of_uriOf {link link' : String} (doubles : Doubles)
    (hscheme : scheme ∈ ["vless", "trojan", "socks", "hysteria2", "hy2"])
    (h : startsWithIgnoreCase link (scheme ++ "://") = true)
    (h' : startsWithIgnoreCase link' (scheme ++ "://") = true) (huri : uriOf link = uriOf link') :
    parseOnce doubles link = parseOnce doubles link' := by
  simp only [List.mem_cons, List.not_mem_nil, or_false] at hscheme
  rcases hscheme with rfl | rfl | rfl | rfl | rfl
  · rw [parseOnce_vless h, parseOnce_vless h', parseVless, parseVless, huri]
  · rw [parseOnce_trojan h, parseOnce_trojan h', parseTrojan, parseTrojan, huri]
  · rw [parseOnce_socks h, parseOnce_socks h', parseSocksHttp, parseSocksHttp, huri]
  · rw [parseOnce_hysteria2 h, parseOnce_hysteria2 h', parseHysteria2, parseHysteria2, huri]
  · rw [parseOnce_hy2 h, parseOnce_hy2 h', parseHysteria2, parseHysteria2, huri]

/-- No URI, no server. -/
theorem parseOnce_of_uriOf_none {link : String} (doubles : Doubles)
    (hscheme : scheme ∈ ["vless", "trojan", "socks", "hysteria2", "hy2"])
    (h : startsWithIgnoreCase link (scheme ++ "://") = true) (huri : uriOf link = none) :
    parseOnce doubles link = none := by
  simp only [List.mem_cons, List.not_mem_nil, or_false] at hscheme
  rcases hscheme with rfl | rfl | rfl | rfl | rfl
  · rw [parseOnce_vless h, parseVless, huri]
    rfl
  · rw [parseOnce_trojan h, parseTrojan, huri]
    rfl
  · rw [parseOnce_socks h, parseSocksHttp, huri]
    rfl
  · rw [parseOnce_hysteria2 h, parseHysteria2, huri]
    rfl
  · rw [parseOnce_hy2 h, parseHysteria2, huri]
    rfl

end Uris

/-! ## 4. Parsers that take the scheme off -/

/-- The other spelling that the parser of a scheme takes off; the parsers that read a URI take none. -/
def upperOf (scheme : String) : Option String :=
  if scheme = "vmess" then some "VMESS" else if scheme = "ss" then some "SS" else none

theorem upperOf_cases {scheme upper : String} (h : upperOf scheme = some upper) :
    (scheme = "vmess" ∧ upper = "VMESS") ∨ (scheme = "ss" ∧ upper = "SS") := by
  unfold upperOf at h
  split at h
  · exact .inl ⟨‹_›, (Option.some.inj h).symm⟩
  · split at h
    · exact .inr ⟨‹_›, (Option.some.inj h).symm⟩
    · cases h

section Literal

variable {scheme upper : String}

/-- What is taken off leaves the payload, which does not start with the other spelling. -/
theorem removePrefix_lower {rest : String} (h : ¬ (upper ++ "://").toList <+: rest.toList) :
    removePrefix (removePrefix (schemeLink scheme rest) (scheme ++ "://")) (upper ++ "://") = rest := by
  have hfirst : removePrefix (schemeLink scheme rest) (scheme ++ "://") = rest := by
    have hlist : (schemeLink scheme rest).toList = (scheme ++ "://").toList ++ rest.toList := by
      rw [toList_schemeLink_front, String.toList_append]
    rw [removePrefix_of_eq hlist, String.ofList_toList]
  rw [hfirst]
  exact removePrefix_eq_self h

@[inherit_doc removePrefix_lower]
theorem removePrefix_upper (hne : ∀ rest, ¬ (scheme ++ "://").toList <+: (schemeLink upper rest).toList)
    (rest : String) :
    removePrefix (removePrefix (schemeLink upper rest) (scheme ++ "://")) (upper ++ "://") = rest := by
  have hlist : (schemeLink upper rest).toList = (upper ++ "://").toList ++ rest.toList := by
    rw [toList_schemeLink_front, String.toList_append]
  rw [removePrefix_eq_self (hne rest), removePrefix_of_eq hlist, String.ofList_toList]

/-- Upper case does not start in lower case. -/
theorem not_prefix_upper (h : upperOf scheme = some upper) (rest : String) :
    ¬ (scheme ++ "://").toList <+: (schemeLink upper rest).toList := by
  rw [toList_schemeLink]
  rintro ⟨t, ht⟩
  have hhead := congrArg List.head? ht
  rcases upperOf_cases h with ⟨rfl, rfl⟩ | ⟨rfl, rfl⟩
  · exact absurd (Option.some.inj hhead) (by decide)
  · exact absurd (Option.some.inj hhead) (by decide)

theorem containsIgnoreCase_congr {lit cs cs' : List Char}
    (h : cs.map Text.foldCase = cs'.map Text.foldCase) :
    Text.containsIgnoreCase lit cs = Text.containsIgnoreCase lit cs' := by
  rw [Bool.eq_iff_iff, Text.containsIgnoreCase_iff, Text.containsIgnoreCase_iff, h]

theorem spelling_upper (h : upperOf scheme = some upper) : Spelling scheme upper := by
  rcases upperOf_cases h with ⟨rfl, rfl⟩ | ⟨rfl, rfl⟩ <;> exact ⟨by decide, by decide⟩

/-- What the parsers see of the two spellings. -/
theorem upper_alike (h : upperOf scheme = some upper) {rest : String}
    (hrest : ¬ (upper ++ "://").toList <+: rest.toList) :
    removePrefix (removePrefix (schemeLink upper rest) (scheme ++ "://")) (upper ++ "://")
      = removePrefix (removePrefix (schemeLink scheme rest) (scheme ++ "://")) (upper ++ "://") ∧
    (schemeLink upper rest).toList.map Text.foldCase
      = (schemeLink scheme rest).toList.map Text.foldCase ∧
    startsWithIgnoreCase (schemeLink upper rest) (scheme ++ "://") = true ∧
    startsWithIgnoreCase (schemeLink scheme rest) (scheme ++ "://") = true := by
  have hspell := spelling_upper h
  refine ⟨?_, ?_, hspell.startsWithIgnoreCase rest, hspell.self.startsWithIgnoreCase rest⟩
  · rw [removePrefix_upper (not_prefix_upper h) rest, removePrefix_lower hrest]
  · rw [toList_schemeLink, toList_schemeLink, List.map_append, List.map_append, hspell.folds_toList,
      hspell.self.folds_toList]

/-- The two parsers see a link only without its scheme, and folded. -/
theorem parseVmess_congr (doubles : Doubles) {link link' : String}
    (h : removePrefix (removePrefix link "vmess://") "VMESS://"
      = removePrefix (removePrefix link' "vmess://") "VMESS://") :
    parseVmess doubles link = parseVmess doubles link' := by
  unfold parseVmess
  dsimp only
  rw [h]

@[inherit_doc parseVmess_congr]
theorem parseShadowsocks_congr {link link' : String}
    (h : removePrefix (removePrefix link "ss://") "SS://"
      = removePrefix (removePrefix link' "ss://") "SS://")
    (hfold : link.toList.map Text.foldCase = link'.toList.map Text.foldCase) :
    parseShadowsocks link = parseShadowsocks link' := by
  unfold parseShadowsocks
  dsimp only
  rw [containsIgnoreCase_congr hfold, h]

/-- **Where the scheme is taken off once, upper case is read like lower case.** -/
theorem parseOnce_upper (doubles : Doubles) (h : upperOf scheme = some upper) {rest : String}
    (hrest : ¬ (upper ++ "://").toList <+: rest.toList) :
    parseOnce doubles (schemeLink upper rest) = parseOnce doubles (schemeLink scheme rest) := by
  obtain ⟨hafter, hfold, hup, hlow⟩ := upper_alike h hrest
  rcases upperOf_cases h with ⟨hs, hu⟩ | ⟨hs, hu⟩
  · rw [hs, hu, show "vmess" ++ "://" = "vmess://" from by decide,
      show "VMESS" ++ "://" = "VMESS://" from by decide] at hafter
    rw [hs, show "vmess" ++ "://" = "vmess://" from by decide] at hup hlow
    rw [hs, parseOnce_vmess hup, parseOnce_vmess hlow, hu]
    exact parseVmess_congr doubles hafter
  · rw [hs, hu, show "ss" ++ "://" = "ss://" from by decide,
      show "SS" ++ "://" = "SS://" from by decide] at hafter
    rw [hs, show "ss" ++ "://" = "ss://" from by decide] at hup hlow
    rw [hs, hu] at hfold
    rw [hs, parseOnce_ss hup, parseOnce_ss hlow, hu]
    exact parseShadowsocks_congr hafter hfold

end Literal

/-! ## 5. Which links are read alike -/

/-- A Shadowsocks link with this payload names a plugin, and is refused before its scheme is looked at. -/
def hasPlugin (q : String) : Bool := Text.containsIgnoreCase "plugin=".toList (schemeLink "ss" q).toList

/-- The parser of the scheme sees the same in this spelling as in lower case: the spelling is one that
    the parser takes off, and takes off once; or, where it reads a URI, it is ASCII. -/
def formBlind (scheme spelled q : String) : Bool :=
  match upperOf scheme with
  | some upper => spelled == scheme ||
      (spelled == upper && !(upper ++ "://").toList.isPrefixOf q.toList) ||
      (scheme == "ss" && hasPlugin q)
  | none => spelled.toList.all fun c => c.toNat < 128

/-- So it does of all the forms up to the first one that is accepted. -/
def formsBlind (doubles : Doubles) (scheme spelled : String) : List String → Bool
  | [] => true
  | q :: qs => formBlind scheme spelled q &&
      ((parseOnce doubles (schemeLink scheme q)).isSome || formsBlind doubles scheme spelled qs)

/-- The spelling of its scheme makes no difference to what is seen of the link. -/
def caseBlind (doubles : Doubles) (link : String) : Bool :=
  formsBlind doubles (lowerCase (spelledScheme link)) (spelledScheme link) (payloadForms (payload link))

/-- The parser sees something else of the form in this spelling: no URI, or a part of the scheme that is
    taken off in lower case. -/
inductive Misread (scheme spelled q : String) : Prop where
  | uri (hu : upperOf scheme = none) (hname : Uri.isScheme spelled.toList = false)
  | left (upper : String) (hu : upperOf scheme = some upper) (hplugin : scheme = "ss" → hasPlugin q = false)
      (hleft : removePrefix (removePrefix (schemeLink spelled q) (scheme ++ "://")) (upper ++ "://")
        ≠ removePrefix (removePrefix (schemeLink scheme q) (scheme ++ "://")) (upper ++ "://"))

theorem upperOf_eq_none {scheme : String} (hm : scheme ∈ schemeNames) (h : upperOf scheme = none) :
    scheme ∈ ["vless", "trojan", "socks", "hysteria2", "hy2"] := by
  have hall : ∀ scheme ∈ schemeNames, upperOf scheme = none →
      scheme ∈ ["vless", "trojan", "socks", "hysteria2", "hy2"] := by decide
  exact hall scheme hm h

theorem isScheme_of_mem {scheme : String} (hm : scheme ∈ schemeNames) : Uri.isScheme scheme.toList = true := by
  have hall : ∀ scheme ∈ schemeNames, Uri.isScheme scheme.toList = true := by decide
  exact hall scheme hm

theorem removePrefix_length_le (s lit : String) : (removePrefix s lit).toList.length ≤ s.toList.length := by
  unfold removePrefix
  split
  · rw [String.toList_ofList, List.length_drop]
    exact Nat.sub_le _ _
  · exact Nat.le_refl _

section Forms

variable {scheme spelled : String}

theorem parseShadowsocks_of_plugin (h : Spelling "ss" spelled) {q : String} (hq : hasPlugin q = true) :
    parseShadowsocks (schemeLink spelled q) = none := by
  have hfold : (schemeLink spelled q).toList.map Text.foldCase
      = (schemeLink "ss" q).toList.map Text.foldCase := by
    rw [toList_schemeLink, toList_schemeLink, List.map_append, List.map_append, h.folds_toList,
      h.self.folds_toList]
  unfold parseShadowsocks
  exact if_pos ((containsIgnoreCase_congr hfold).trans hq)

theorem parseOnce_ssLink (doubles : Doubles) (h : Spelling "ss" spelled) (q : String) :
    parseOnce doubles (schemeLink spelled q) = parseShadowsocks (schemeLink spelled q) := by
  have hstarts := h.startsWithIgnoreCase q
  rw [show "ss" ++ "://" = "ss://" from by decide] at hstarts
  exact parseOnce_ss hstarts

/-- **Where the parser sees the same, it gives the same.** -/
theorem parseOnce_of_formBlind (doubles : Doubles) (h : Spelling scheme spelled) {q : String}
    (hb : formBlind scheme spelled q = true) :
    parseOnce doubles (schemeLink spelled q) = parseOnce doubles (schemeLink scheme q) := by
  unfold formBlind at hb
  cases hu : upperOf scheme with
  | none =>
    rw [hu] at hb
    have hascii : Uri.isScheme spelled.toList = true :=
      (isScheme_spelled_iff h).2 fun c hc => of_decide_eq_true (List.all_eq_true.1 hb c hc)
    refine parseOnce_of_uriOf doubles (upperOf_eq_none h.known hu) (h.startsWithIgnoreCase q)
      (h.self.startsWithIgnoreCase q) ?_
    rw [uriOf_schemeLink h, uriOf_schemeLink h.self, hascii, isScheme_of_mem h.known]
  | some upper =>
    rw [hu] at hb
    dsimp only at hb
    rw [Bool.or_eq_true, Bool.or_eq_true, Bool.and_eq_true, Bool.and_eq_true, beq_iff_eq, beq_iff_eq,
      beq_iff_eq, Bool.not_eq_true', ← Bool.not_eq_true, List.isPrefixOf_iff_prefix] at hb
    rcases hb with (rfl | ⟨rfl, hq⟩) | ⟨rfl, hq⟩
    · rfl
    · exact parseOnce_upper doubles hu hq
    · rw [parseOnce_ssLink doubles h, parseOnce_ssLink doubles h.self, parseShadowsocks_of_plugin h hq,
        parseShadowsocks_of_plugin h.self hq]

/-- In another spelling than the two the scheme stays on; behind an upper-case scheme a second one
    does. -/
theorem removePrefix_ne {upper : String} (h : Spelling scheme spelled) (hu : upperOf scheme = some upper)
    (hlow : spelled ≠ scheme) {q : String} (hup : spelled = upper → (upper ++ "://").toList <+: q.toList) :
    removePrefix (removePrefix (schemeLink spelled q) (scheme ++ "://")) (upper ++ "://")
      ≠ removePrefix (removePrefix (schemeLink scheme q) (scheme ++ "://")) (upper ++ "://") := by
  have hfirst : removePrefix (schemeLink scheme q) (scheme ++ "://") = q := by
    have hlist : (schemeLink scheme q).toList = (scheme ++ "://").toList ++ q.toList := by
      rw [toList_schemeLink_front, String.toList_append]
    rw [removePrefix_of_eq hlist, String.ofList_toList]
  have hcolon : ∀ lit ∈ [scheme, upper], ':' ∉ lit.toList := by
    intro lit hlit
    simp only [List.mem_cons, List.not_mem_nil, or_false] at hlit
    rcases hlit with rfl | rfl
    · exact h.self.not_mem (by decide)
    · exact (spelling_upper hu).not_mem (by decide)
  have hkept : ∀ lit ∈ [scheme, upper], lit ≠ spelled →
      ¬ (lit ++ "://").toList <+: (schemeLink spelled q).toList := by
    intro lit hlit hne hp
    rw [String.toList_append, toList_schemeLink] at hp
    obtain ⟨t, ht⟩ := hp
    rw [List.append_assoc] at ht
    have hinj := Text.append_cons_inj (x := ':') ht (hcolon lit hlit) (h.not_mem (by decide))
    exact hne (String.toList_inj.1 hinj.1)
  rw [hfirst, removePrefix_eq_self (hkept scheme List.mem_cons_self (Ne.symm hlow))]
  intro he
  have hlength := congrArg (fun t : String => t.toList.length) he
  by_cases hs : spelled = upper
  · -- one of the two schemes is left
    obtain ⟨t, ht⟩ := hup hs
    have hfull : (schemeLink spelled q).toList = (upper ++ "://").toList ++ q.toList := by
      rw [toList_schemeLink_front, String.toList_append, hs]
    rw [removePrefix_of_eq hfull, removePrefix_of_eq ht.symm, String.toList_ofList, String.toList_ofList,
      ← ht, List.length_append, String.toList_append, List.length_append] at hlength
    have hsep : "://".toList.length = 3 := by decide
    omega
  · -- the scheme is left whole
    rw [removePrefix_eq_self (hkept upper (List.mem_cons_of_mem _ List.mem_cons_self) (Ne.symm hs)),
      toList_schemeLink, List.length_append, List.length_cons, List.length_cons, List.length_cons] at hlength
    have hle := removePrefix_length_le q (upper ++ "://")
    omega

theorem misread_of_not_formBlind (h : Spelling scheme spelled) {q : String}
    (hb : formBlind scheme spelled q = false) : Misread scheme spelled q := by
  unfold formBlind at hb
  cases hu : upperOf scheme with
  | none =>
    rw [hu] at hb
    refine .uri hu (Bool.eq_false_iff.2 fun hs => ?_)
    refine Bool.eq_false_iff.1 hb (List.all_eq_true.2 fun c hc => ?_)
    exact decide_eq_true ((isScheme_spelled_iff h).1 hs c hc)
  | some upper =>
    rw [hu] at hb
    dsimp only at hb
    rw [Bool.or_eq_false_iff, Bool.or_eq_false_iff, Bool.and_eq_false_iff, Bool.and_eq_false_iff,
      beq_eq_false_iff_ne, beq_eq_false_iff_ne, beq_eq_false_iff_ne, Bool.not_eq_false',
      List.isPrefixOf_iff_prefix] at hb
    obtain ⟨⟨hlow, hup⟩, hplugin⟩ := hb
    exact .left upper hu (fun hs => hplugin.resolve_left (not_not_intro hs))
      (removePrefix_ne h hu hlow fun hs => hup.resolve_left (not_not_intro hs))

/-- What is parsed of the forms, where all that are tried are seen alike. -/
theorem findSome?_of_formsBlind (doubles : Doubles) (h : Spelling scheme spelled) {qs : List String}
    (hb : formsBlind doubles scheme spelled qs = true) :
    (qs.findSome? fun q => parseOnce doubles (schemeLink spelled q))
      = qs.findSome? fun q => parseOnce doubles (schemeLink scheme q) := by
  induction qs with
  | nil => rfl
  | cons q qs ih =>
    rw [formsBlind, Bool.and_eq_true, Bool.or_eq_true] at hb
    rw [List.findSome?_cons, List.findSome?_cons, parseOnce_of_formBlind doubles h hb.1]
    rcases hb.2 with hsome | hrest
    · obtain ⟨o, ho⟩ := Option.isSome_iff_exists.1 hsome
      rw [ho]
    · rw [ih hrest]

/-- Otherwise one is tried that is misread. -/
theorem exists_misread (doubles : Doubles) (h : Spelling scheme spelled) {qs : List String}
    (hb : formsBlind doubles scheme spelled qs = false) :
    ∃ tried q rest, qs = tried ++ q :: rest ∧
      (∀ t ∈ tried, parseOnce doubles (schemeLink spelled t) = none) ∧ Misread scheme spelled q := by
  induction qs with
  | nil => cases hb
  | cons q qs ih =>
    rw [formsBlind, Bool.and_eq_false_iff, Bool.or_eq_false_iff] at hb
    by_cases hq : formBlind scheme spelled q = true
    · obtain ⟨hnone, hrest⟩ := hb.resolve_left (by rw [hq]; exact nofun)
      obtain ⟨tried, p, rest, hqs, htried, hp⟩ := ih hrest
      refine ⟨q :: tried, p, rest, by rw [hqs, List.cons_append], fun t ht => ?_, hp⟩
      rcases List.mem_cons.1 ht with rfl | ht
      · rw [parseOnce_of_formBlind doubles h hq]
        exact Option.isSome_eq_false_iff.1 hnone |> Option.isNone_iff_eq_none.1
      · exact htried t ht
    · exact ⟨[], q, qs, rfl, nofun, misread_of_not_formBlind h (Bool.eq_false_iff.2 hq)⟩

end Forms

/-- The link has a form that is tried, since all before it are refused, and that is misread. -/
def Reaches (doubles : Doubles) (link : String) : Prop :=
  ∃ tried q rest, payloadForms (payload link) = tried ++ q :: rest ∧
    (∀ t ∈ tried, parseOnce doubles (schemeLink (spelledScheme link) t) = none) ∧
    Misread (lowerCase (spelledScheme link)) (spelledScheme link) q

/-- **The case of a scheme**: a link of which everything that is tried is seen alike is parsed like the
    one with its scheme in lower case. Every other link is misread; where the parser of its scheme reads a
    URI, it is refused, and so parsed alike only if it is refused in lower case as well. -/
theorem parse_lowerScheme (doubles : Doubles) {link : String} (hl : looksLikeShareLink link = true) :
    (caseBlind doubles link = true → parse doubles link = parse doubles (lowerScheme link)) ∧
    (caseBlind doubles link = false → Reaches doubles link ∧
      (upperOf (lowerCase (spelledScheme link)) = none →
        (parse doubles link = parse doubles (lowerScheme link) ↔
          parse doubles (lowerScheme link) = none))) := by
  obtain ⟨scheme, spelled, rest, hlink, h⟩ := (looksLikeShareLink_iff_spelling link).1 hl
  have hspelled := spelledScheme_of_trim hlink (h.not_mem (by decide))
  have hpayload := payload_of_trim hlink (h.not_mem (by decide))
  have htrim : trim (schemeLink spelled rest) = schemeLink spelled rest := by
    rw [← hlink, trim_trim]
  unfold caseBlind Reaches lowerScheme
  rw [← parse_trim, hlink, hspelled, hpayload, h.folds, parse_schemeLink doubles h htrim,
    parse_schemeLink doubles h.self (trim_schemeLink h.self htrim)]
  refine ⟨findSome?_of_formsBlind doubles h, fun hb => ⟨exists_misread doubles h hb, fun hu => ?_⟩⟩
  -- no form is a URI
  have hname : Uri.isScheme spelled.toList = false := by
    obtain ⟨-, q, -, -, -, hq⟩ := exists_misread doubles h hb
    cases hq with
    | uri _ hname => exact hname
    | left upper hu' =>
      rw [hu] at hu'
      cases hu'
  have hrefused : ((payloadForms rest).findSome? fun q => parseOnce doubles (schemeLink spelled q)) = none := by
    rw [List.findSome?_eq_none_iff]
    intro q _
    refine parseOnce_of_uriOf_none doubles (upperOf_eq_none h.known hu) (h.startsWithIgnoreCase q) ?_
    rw [uriOf_schemeLink h, hname]
    rfl
  rw [hrefused]
  exact eq_comm

/-- What the links of the cases below are to the functions of the parser. -/
structure Samples : Prop where
  upper : looksLikeShareLink "SS://YTpi@h:1" = true ∧ caseBlind (fun _ => none) "SS://YTpi@h:1" = true
  longS : looksLikeShareLink "vle\u017Fs://a@h:1" = true ∧
    caseBlind (fun _ => none) "vle\u017Fs://a@h:1" = false ∧
    upperOf (lowerCase (spelledScheme "vle\u017Fs://a@h:1")) = none ∧
    (parse (fun _ => none) (lowerScheme "vle\u017Fs://a@h:1")).isSome = true
  mixed : looksLikeShareLink "Ss://YTpi@h:1" = true ∧
    (parse (fun _ => none) (lowerScheme "Ss://YTpi@h:1")).map (·.method) = some "a" ∧
    (parse (fun _ => none) "Ss://YTpi@h:1").map (·.method) = some "J\uFFFD\uFFFDa" ∧
    looksLikeShareLink "Vmess://=@h:1" = true ∧
    (parse (fun _ => none) (lowerScheme "Vmess://=@h:1")).isSome = true ∧
    parse (fun _ => none) "Vmess://=@h:1" = none

instance : Fact Samples := by
  constructor
  constructor <;> decide +kernel

theorem samples : Samples := Fact.out

/-- A link in upper case, and one in lower case but for a long s. -/
theorem parse_lowerScheme_upper :
    parse (fun _ => none) "SS://YTpi@h:1" = parse (fun _ => none) (lowerScheme "SS://YTpi@h:1") ∧
    parse (fun _ => none) "vle\u017Fs://a@h:1"
      ≠ parse (fun _ => none) (lowerScheme "vle\u017Fs://a@h:1") := by
  obtain ⟨hl, hblind⟩ := samples.upper
  obtain ⟨hl', hseen, huri, hsome⟩ := samples.longS
  refine ⟨(parse_lowerScheme _ hl).1 hblind, fun he => ?_⟩
  rw [(((parse_lowerScheme _ hl').2 hseen).2 huri).1 he] at hsome
  cases hsome

/-- `Ss` gives a server with another method, and `Vmess` none. -/
theorem parse_mixedCase :
    (looksLikeShareLink "Ss://YTpi@h:1" = true ∧
      (parse (fun _ => none) (lowerScheme "Ss://YTpi@h:1")).map (·.method) = some "a" ∧
      (parse (fun _ => none) "Ss://YTpi@h:1").map (·.method) = some "J\uFFFD\uFFFDa" ∧
      parse (fun _ => none) "Ss://YTpi@h:1" ≠ parse (fun _ => none) (lowerScheme "Ss://YTpi@h:1")) ∧
    (looksLikeShareLink "Vmess://=@h:1" = true ∧
      (parse (fun _ => none) (lowerScheme "Vmess://=@h:1")).isSome = true ∧
      parse (fun _ => none) "Vmess://=@h:1" = none) := by
  obtain ⟨hl, hlower, hmixed, hvmess⟩ := samples.mixed
  refine ⟨⟨hl, hlower, hmixed, fun he => ?_⟩, hvmess⟩
  rw [he, hlower] at hmixed
  exact absurd (Option.some.inj hmixed) (by decide)

end XrayShareLink

end SwiftVpn
