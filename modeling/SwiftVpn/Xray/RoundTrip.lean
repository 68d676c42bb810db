/-
  File:      SwiftVpn/Xray/RoundTrip.lean
  Subject:   A LINK THAT WAS WRITTEN IS READ BACK.

  * `urlDecode_eq_self_iff` -- which texts survive the second decoding: those that do not decode, and
    those without `%` and `+` (`Verbatim`);
  * `queryMap_renderQuery` -- the parameters of a link are read back; `query_codec` -- and they are written
    with characters that a raw query may have;
  * `parse_cases` -- each of the three forms of a link that are tried has its scheme, and is parsed by
    the parser of that scheme;
  * `parse_toLink_vless`, `parse_toLink_trojan`, `parse_toLink_hysteria2`, `parse_toLink_socksHttp` --
    what comes back of an outbound with a host that `java.net.URI` accepts;
  * `parseVless_cases`, `parseTrojan_cases` -- what is known of an outbound that was parsed.
-/
import SwiftVpn.Xray.ShareLink

namespace SwiftVpn

namespace XrayShareLink

/-! ## 1. Percent encoding -/

theorem toList_urlEncode (s : String) : (urlEncode s).toList = Percent.encode s.toList := by
  unfold urlEncode
  rw [String.toList_ofList, Percent.plusToPercent_formEncode]

/-- What was encoded is decoded. -/
theorem urlDecode_encode (s : String) : urlDecode (String.ofList (Percent.encode s.toList)) = s := by
  simp [urlDecode, Percent.formDecode_encode]

theorem urlDecode_urlEncode (s : String) : urlDecode (urlEncode s) = s := by
  rw [← String.ofList_toList (s := urlEncode s), toList_urlEncode, urlDecode_encode]

/-- A text that the second decoding leaves alone: some `%` of it starts no escape, so that nothing is
    decoded, or there is no `%` and no `+` in it. -/
def Verbatim (s : String) : Prop :=
  Percent.malformed s.toList = true ∨ ('%' ∉ s.toList ∧ '+' ∉ s.toList)

instance (s : String) : Decidable (Verbatim s) := inferInstanceAs (Decidable (_ ∨ _))

theorem toList_urlDecode (s : String) :
    (urlDecode s).toList = (Percent.formDecode s.toList).getD s.toList := by
  unfold urlDecode
  cases Percent.formDecode s.toList with
  | none => rfl
  | some cs => simp

/-- **Which texts decode to themselves.** -/
theorem urlDecode_eq_self_iff (s : String) : urlDecode s = s ↔ Verbatim s := by
  rw [← String.toList_inj, toList_urlDecode]
  exact Percent.formDecode_getD_eq_iff s.toList

/-! ## 2. Queries -/

theorem foldl_put_eq (q acc : Query) (hnodup : (q.map Prod.fst).Nodup)
    (hfresh : ∀ m ∈ q, m.1 ∉ acc.map Prod.fst) :
    q.foldl (fun acc m => Query.put acc m.1 m.2) acc = acc ++ q := by
  have hput : ∀ (acc : Query) (k v : String), k ∉ acc.map Prod.fst →
      Query.put acc k v = acc ++ [(k, v)] := by
    intro acc k v h
    induction acc with
    | nil => rfl
    | cons m acc ih =>
      obtain ⟨k', v'⟩ := m
      rw [List.map_cons, List.mem_cons, not_or] at h
      unfold Query.put
      rw [if_neg (Ne.symm h.1), ih h.2]
      rfl
  induction q generalizing acc with
  | nil => simp
  | cons m q ih =>
    rw [List.map_cons, List.nodup_cons] at hnodup
    rw [List.foldl_cons, hput acc m.1 m.2 (hfresh m List.mem_cons_self), ih _ hnodup.2]
    · simp
    · intro m' hm'
      rw [List.map_append, List.mem_append, not_or]
      refine ⟨hfresh m' (List.mem_cons_of_mem m hm'), ?_⟩
      simp only [List.map_cons, List.map_nil, List.mem_singleton]
      intro e
      exact hnodup.1 (List.mem_map.2 ⟨m', hm', e⟩)

/-- One pair as it is written. -/
def pairChars (m : String × String) : List Char :=
  (urlEncode m.1).toList ++ '=' :: (urlEncode m.2).toList

theorem queryPair_pairChars (m : String × String) : queryPair (pairChars m) = some m := by
  have hk : '=' ∉ (urlEncode m.1).toList := by
    rw [toList_urlEncode]
    exact Percent.not_mem_encode (by decide) (by decide)
  unfold queryPair pairChars
  rw [Text.cutFirst_append hk]
  simp only [Option.map_some, toList_urlEncode, urlDecode_encode]

theorem filterMap_pairChars (q : Query) : (q.map pairChars).filterMap queryPair = q := by
  induction q with
  | nil => rfl
  | cons m q ih => rw [List.map_cons, List.filterMap_cons, queryPair_pairChars, ih]

theorem toList_renderQuery (q : Query) :
    (renderQuery q).toList = ['&'].intercalate (q.map pairChars) := by
  unfold renderQuery
  rw [String.toList_ofList]
  rfl

theorem mem_intercalate_head {x c : Char} {part : List Char} (h : c ∈ part)
    (parts : List (List Char)) : c ∈ [x].intercalate (part :: parts) := by
  cases parts with
  | nil => simpa [List.intercalate] using h
  | cons p ps =>
    simp only [List.intercalate, List.intersperse_cons_cons, List.flatten_cons, List.mem_append]
    exact .inl h

theorem mem_intercalate {x c : Char} {parts : List (List Char)} (h : c ∈ [x].intercalate parts) :
    c = x ∨ ∃ part ∈ parts, c ∈ part := by
  induction parts with
  | nil => exact absurd h List.not_mem_nil
  | cons part parts ih =>
    cases parts with
    | nil =>
      rw [List.intercalate_singleton] at h
      exact .inr ⟨part, List.mem_singleton_self part, h⟩
    | cons part' parts =>
      rw [List.intercalate_cons_cons, List.append_assoc, List.mem_append, List.mem_append,
        List.mem_singleton] at h
      rcases h with h | h | h
      · exact .inr ⟨part, List.mem_cons_self, h⟩
      · exact .inl h
      · exact (ih h).imp_right fun ⟨p, hp, hc⟩ => ⟨p, List.mem_cons_of_mem part hp, hc⟩

/-- **The parameters of a link are read back.** -/
theorem queryMap_renderQuery (q : Query) (hnodup : (q.map Prod.fst).Nodup) :
    queryMap (some (renderQuery q).toList) = q := by
  unfold queryMap
  simp only
  rw [toList_renderQuery]
  cases q with
  | nil => rfl
  | cons m q =>
    have hparts : ∀ part ∈ (m :: q).map pairChars, '&' ∉ part := by
      intro part hp
      obtain ⟨m', -, rfl⟩ := List.mem_map.1 hp
      unfold pairChars
      rw [toList_urlEncode, toList_urlEncode, List.mem_append, List.mem_cons, not_or, not_or]
      exact ⟨Percent.not_mem_encode (by decide) (by decide), by decide,
        Percent.not_mem_encode (by decide) (by decide)⟩
    have hsplit := List.splitOn_intercalate '&' hparts (by simp)
    -- every pair has its `=`, which is not blank
    have hblank : (['&'].intercalate ((m :: q).map pairChars)).all isWhitespace = false := by
      rw [List.all_eq_false]
      refine ⟨'=', ?_, by decide⟩
      rw [List.map_cons]
      exact mem_intercalate_head (by simp [pairChars]) _
    have hfold := foldl_put_eq (m :: q) [] hnodup (by simp)
    rw [hblank, if_neg (by decide), hsplit, filterMap_pairChars]
    exact hfold

theorem safe_uric {c : Char} (h : Percent.safe c = true) : Uri.uric c = true := by
  simp only [Percent.safe, Bool.or_eq_true, beq_iff_eq] at h
  simp only [Uri.uric, Uri.unreserved, Bool.or_eq_true]
  rcases h with (((h | rfl) | rfl) | rfl) | rfl
  · exact .inl (.inl h)
  all_goals decide

theorem safe_userInfoChar {c : Char} (h : Percent.safe c = true) : Uri.userInfoChar c = true := by
  simp only [Percent.safe, Bool.or_eq_true, beq_iff_eq] at h
  simp only [Uri.userInfoChar, Uri.unreserved, Bool.or_eq_true]
  rcases h with (((h | rfl) | rfl) | rfl) | rfl
  · exact .inl (.inl h)
  all_goals decide

/-- An encoded text may stand in a query, in a fragment and in a user info. -/
theorem scan_uric_urlEncode (s : String) : Uri.scan Uri.uric (urlEncode s).toList = some true := by
  rw [toList_urlEncode]
  exact Uri.scan_encode (fun c hc => safe_uric hc) (by decide) s.toList

@[inherit_doc scan_uric_urlEncode]
theorem scan_userInfo_urlEncode (s : String) :
    Uri.scan Uri.userInfoChar (urlEncode s).toList = some true := by
  rw [toList_urlEncode]
  exact Uri.scan_encode (fun c hc => safe_userInfoChar hc) (by decide) s.toList

theorem scan_uric_renderQuery (q : Query) : Uri.scan Uri.uric (renderQuery q).toList = some true := by
  rw [toList_renderQuery]
  induction q with
  | nil => rfl
  | cons m q ih =>
    have hpair : Uri.scan Uri.uric (pairChars m) = some true := by
      unfold pairChars
      rw [Uri.scan_append (scan_uric_urlEncode m.1), Uri.scan_cons_of_ok (by decide)]
      exact scan_uric_urlEncode m.2
    cases q with
    | nil => simpa [List.intercalate] using hpair
    | cons m' q =>
      rw [List.map_cons, List.map_cons, List.intercalate, List.intersperse_cons_cons,
        List.flatten_cons, List.flatten_cons, Uri.scan_append hpair, List.singleton_append,
        Uri.scan_cons_of_ok (by decide)]
      exact ih

theorem mem_pairChars {m : String × String} {c : Char} (h : c ∈ pairChars m) :
    c = '%' ∨ Uri.uric c = true := by
  have hencoded : ∀ s : String, c ∈ (urlEncode s).toList → c = '%' ∨ Uri.uric c = true := by
    intro s hs
    rw [toList_urlEncode] at hs
    exact (Percent.mem_encode hs).imp_right safe_uric
  rcases List.mem_append.1 h with h | h
  · exact hencoded m.1 h
  · rcases List.mem_cons.1 h with rfl | h
    · exact .inr (by decide)
    · exact hencoded m.2 h

theorem mem_renderQuery {q : Query} {c : Char} (h : c ∈ (renderQuery q).toList) :
    c = '%' ∨ Uri.uric c = true := by
  rw [toList_renderQuery] at h
  rcases mem_intercalate h with rfl | ⟨part, hpart, hc⟩
  · exact .inr (by decide)
  · obtain ⟨m, -, rfl⟩ := List.mem_map.1 hpart
    exact mem_pairChars hc

/-- **The codec of the parameters**: they are read back, and what is written may stand in a raw query as it
    is, its escapes well formed. -/
theorem query_codec (q : Query) (hnodup : (q.map Prod.fst).Nodup) :
    queryMap (some (renderQuery q).toList) = q ∧
    (∀ c ∈ (renderQuery q).toList, c = '%' ∨ Uri.uric c = true) ∧
    Uri.checkChars Uri.uric (renderQuery q).toList = true := by
  refine ⟨queryMap_renderQuery q hnodup, fun c hc => mem_renderQuery hc, ?_⟩
  unfold Uri.checkChars
  rw [scan_uric_renderQuery]
  rfl

theorem query_codec_separators :
    queryMap (some (renderQuery [("a&b", "=+ %#?"), ("", ""), ("é", "")]).toList)
      = [("a&b", "=+ %#?"), ("", ""), ("é", "")] :=
  (query_codec [("a&b", "=+ %#?"), ("", ""), ("é", "")] (by decide)).1

/-! ## 3. Schemes -/

/-- A link with the scheme `lit` is a text that folds to it, and a rest. -/
theorem startsWithIgnoreCase_iff (s lit : String) :
    startsWithIgnoreCase s lit = true ↔
      ∃ p r, s.toList = p ++ r ∧ p.map Text.foldCase = lit.toList.map Text.foldCase := by
  unfold startsWithIgnoreCase Text.startsWithIgnoreCase
  rw [List.isPrefixOf_iff_prefix]
  constructor
  · rintro ⟨r, hr⟩
    refine ⟨s.toList.take lit.toList.length, s.toList.drop lit.toList.length,
      (List.take_append_drop _ _).symm, ?_⟩
    rw [List.map_take, ← hr]
    simp
  · rintro ⟨p, r, hs, hp⟩
    rw [hs, List.map_append, hp]
    exact List.prefix_append _ _

/-- Two schemes of which neither starts the other exclude each other. -/
theorem startsWithIgnoreCase_false {s a b : String} (h : startsWithIgnoreCase s a = true)
    (hab : startsWithIgnoreCase a b = false) (hba : startsWithIgnoreCase b a = false) :
    startsWithIgnoreCase s b = false := by
  by_contra hb
  rw [Bool.not_eq_false] at hb
  unfold startsWithIgnoreCase Text.startsWithIgnoreCase at h hab hba hb
  rw [List.isPrefixOf_iff_prefix] at h hb
  rcases List.prefix_or_prefix_of_prefix h hb with hp | hp
  · rw [← List.isPrefixOf_iff_prefix, hba] at hp
    cases hp
  · rw [← List.isPrefixOf_iff_prefix, hab] at hp
    cases hp

/-- The characters of a scheme are neither decoded nor the start of a fragment. -/
def isScheme (lit : String) : Bool :=
  ['%', '+', '#'].all fun x => !(lit.toList.map Text.foldCase).contains x

theorem not_mem_of_isScheme {lit : String} (h : isScheme lit = true) {p : List Char}
    (hp : p.map Text.foldCase = lit.toList.map Text.foldCase) {x : Char}
    (hx : x ∈ ['%', '+', '#']) : x ∉ p := by
  have hfold : Text.foldCase x = x := by
    have hx' := hx
    simp only [List.mem_cons, List.not_mem_nil, or_false] at hx'
    rcases hx' with rfl | rfl | rfl <;> decide
  intro hm
  have hm' : x ∈ lit.toList.map Text.foldCase := by
    rw [← hp, ← hfold]
    exact List.mem_map_of_mem hm
  have := List.all_eq_true.1 h x hx
  simp [hm'] at this

/-- Decoding leaves the scheme in front. -/
theorem startsWithIgnoreCase_urlDecode {s lit : String} (hlit : isScheme lit = true)
    (h : startsWithIgnoreCase s lit = true) : startsWithIgnoreCase (urlDecode s) lit = true := by
  obtain ⟨p, r, hs, hp⟩ := (startsWithIgnoreCase_iff s lit).1 h
  rw [startsWithIgnoreCase_iff]
  have hpct := not_mem_of_isScheme hlit hp (x := '%') (by decide)
  have hplus := not_mem_of_isScheme hlit hp (x := '+') (by decide)
  have hdecode : Percent.formDecode s.toList = (Percent.formDecode r).map (p ++ ·) := by
    unfold Percent.formDecode
    rw [hs, Percent.unescape_append_of_not_mem hpct, (Percent.map_plus_eq_self_iff p).2 hplus]
  rw [toList_urlDecode, hdecode]
  cases Percent.formDecode r with
  | none => exact ⟨p, r, hs, hp⟩
  | some out => exact ⟨p, out, rfl, hp⟩

@[inherit_doc startsWithIgnoreCase_urlDecode]
theorem startsWithIgnoreCase_withDecodedFragment {s lit : String} (hlit : isScheme lit = true)
    (h : startsWithIgnoreCase s lit = true) :
    startsWithIgnoreCase (withDecodedFragment s) lit = true := by
  unfold withDecodedFragment
  split
  · rename_i l f hcut
    obtain ⟨p, r, hs, hp⟩ := (startsWithIgnoreCase_iff s lit).1 h
    have hhash := not_mem_of_isScheme hlit hp (x := '#') (by decide)
    have heq : p ++ r = l ++ '#' :: f := hs.symm.trans (Text.cutFirst_eq_some hcut)
    -- the scheme ends before the `#`
    have hprefix : ∃ t, l = p ++ t := by
      rcases List.append_eq_append_iff.1 heq with ⟨t, ht, -⟩ | ⟨t, ht, hr⟩
      · exact ⟨t, ht⟩
      · cases t with
        | nil => exact ⟨[], by simpa using ht.symm⟩
        | cons d t =>
          rw [List.cons_append, List.cons.injEq] at hr
          exact absurd (ht ▸ List.mem_append_right l (hr.1 ▸ List.mem_cons_self)) hhash
    obtain ⟨t, rfl⟩ := hprefix
    rw [startsWithIgnoreCase_iff]
    exact ⟨p, t ++ '#' :: (urlDecode (String.ofList f)).toList, by simp, hp⟩
  · exact h

/-- **Every form of a link that is tried has its scheme.** -/
theorem parse_cases {doubles : Doubles} {raw : String} {o : XrayOutbound} (lit : String)
    (hlit : isScheme lit = true) (h : startsWithIgnoreCase (trim raw) lit = true)
    (hp : parse doubles raw = some o) :
    ∃ link, startsWithIgnoreCase link lit = true ∧ parseOnce doubles link = some o := by
  obtain ⟨link, hlink, ho⟩ := List.exists_of_findSome?_eq_some hp
  refine ⟨link, ?_, ho⟩
  simp only [List.mem_cons, List.not_mem_nil, or_false] at hlink
  rcases hlink with rfl | rfl | rfl
  · exact h
  · exact startsWithIgnoreCase_urlDecode hlit h
  · exact startsWithIgnoreCase_withDecodedFragment hlit h

section Once

variable {doubles : Doubles} {link : String}

theorem parseOnce_vless (h : startsWithIgnoreCase link "vless://" = true) :
    parseOnce doubles link = parseVless link := if_pos h

/-- The parser of another scheme is passed over. -/
theorem skip {a : String} (h : startsWithIgnoreCase link a = true) (b : String)
    (hab : startsWithIgnoreCase a b = false) (hba : startsWithIgnoreCase b a = false)
    (x y : Option XrayOutbound) : (if startsWithIgnoreCase link b then x else y) = y := by
  rw [startsWithIgnoreCase_false h hab hba]
  rfl

theorem parseOnce_vmess (h : startsWithIgnoreCase link "vmess://" = true) :
    parseOnce doubles link = parseVmess doubles link := by
  unfold parseOnce
  rw [skip h "vless://" (by decide) (by decide), if_pos h]

theorem parseOnce_trojan (h : startsWithIgnoreCase link "trojan://" = true) :
    parseOnce doubles link = parseTrojan link := by
  unfold parseOnce
  rw [skip h "vless://" (by decide) (by decide), skip h "vmess://" (by decide) (by decide), if_pos h]

theorem parseOnce_ss (h : startsWithIgnoreCase link "ss://" = true) :
    parseOnce doubles link = parseShadowsocks link := by
  unfold parseOnce
  rw [skip h "vless://" (by decide) (by decide), skip h "vmess://" (by decide) (by decide),
    skip h "trojan://" (by decide) (by decide), if_pos h]

theorem parseOnce_hysteria2 (h : startsWithIgnoreCase link "hysteria2://" = true) :
    parseOnce doubles link = parseHysteria2 link := by
  unfold parseOnce
  rw [skip h "vless://" (by decide) (by decide), skip h "vmess://" (by decide) (by decide),
    skip h "trojan://" (by decide) (by decide), skip h "ss://" (by decide) (by decide), if_pos h]

theorem parseOnce_socks (h : startsWithIgnoreCase link "socks://" = true) :
    parseOnce doubles link = parseSocksHttp link "socks" := by
  unfold parseOnce
  rw [skip h "vless://" (by decide) (by decide), skip h "vmess://" (by decide) (by decide),
    skip h "trojan://" (by decide) (by decide), skip h "ss://" (by decide) (by decide),
    skip h "hysteria2://" (by decide) (by decide), skip h "hy2://" (by decide) (by decide), if_pos h]

theorem parseOnce_http (h : startsWithIgnoreCase link "http://" = true) :
    parseOnce doubles link = parseSocksHttp link "http" := by
  unfold parseOnce
  rw [skip h "vless://" (by decide) (by decide), skip h "vmess://" (by decide) (by decide),
    skip h "trojan://" (by decide) (by decide), skip h "ss://" (by decide) (by decide),
    skip h "hysteria2://" (by decide) (by decide), skip h "hy2://" (by decide) (by decide),
    skip h "socks://" (by decide) (by decide), if_pos h]

end Once

theorem trim_eq_self {s : String} (hhead : ∀ c ∈ s.toList.head?, isWhitespace c = false)
    (hlast : ∀ c ∈ s.toList.getLast?, isWhitespace c = false) : trim s = s := by
  have hdrop : ∀ cs : List Char, (∀ c ∈ cs.head?, isWhitespace c = false) →
      cs.dropWhile isWhitespace = cs := by
    intro cs h
    cases cs with
    | nil => rfl
    | cons c cs =>
      have := h c rfl
      simp [this]
  unfold trim trimChars
  rw [hdrop _ hhead, hdrop s.toList.reverse (by rwa [List.head?_reverse]), List.reverse_reverse,
    String.ofList_toList]

theorem removePrefix_of_eq {s lit : String} {rest : List Char} (h : s.toList = lit.toList ++ rest) :
    removePrefix s lit = String.ofList rest := by
  have hp : lit.toList.isPrefixOf s.toList = true := by
    rw [List.isPrefixOf_iff_prefix, h]
    exact List.prefix_append _ _
  unfold removePrefix
  rw [if_pos hp, h, List.drop_left]

theorem removePrefix_eq_self {s lit : String} (h : ¬ lit.toList <+: s.toList) :
    removePrefix s lit = s := by
  unfold removePrefix
  exact if_neg fun hp => h (List.isPrefixOf_iff_prefix.1 hp)

/-- Nothing of an encoded text is blank. -/
theorem isWhitespace_of_mem_encode {cs : List Char} {c : Char} (h : c ∈ Percent.encode cs) :
    isWhitespace c = false := by
  rcases Percent.mem_encode h with rfl | h
  · decide
  · simp only [Percent.safe, Bool.or_eq_true, beq_iff_eq] at h
    rcases h with (((h | rfl) | rfl) | rfl) | rfl
    · exact isWhitespace_of_isAlphanum h
    all_goals decide

/-! ### Base64 texts -/

section Encoded

variable {f : Base64.Flavour} {bs : List UInt8} {c : Char}

theorem isBase64_props (h : Base64.isBase64 c = true) :
    isWhitespace c = false ∧ c.toNat < 0x80 := by
  simp only [Base64.isBase64, Bool.or_eq_true, beq_iff_eq] at h
  rcases h with ((((h | rfl) | rfl) | rfl) | rfl) | rfl
  · refine ⟨isWhitespace_of_isAlphanum h, ?_⟩
    rw [Percent.isAlphanum_iff] at h
    omega
  all_goals decide

theorem not_mem_flavour (hc : Base64.isBase64 c = false) : c ∉ f.encode bs := by
  intro h
  rw [Base64.Flavour.isBase64_of_mem h] at hc
  cases hc

theorem trim_flavour (f : Base64.Flavour) (bs : List UInt8) :
    trim (String.ofList (f.encode bs)) = String.ofList (f.encode bs) := by
  have hvisible : ∀ c ∈ f.encode bs, isWhitespace c = false :=
    fun c hc => (isBase64_props (Base64.Flavour.isBase64_of_mem hc)).1
  apply trim_eq_self
  · rw [String.toList_ofList]
    exact fun c hc => hvisible c (List.mem_of_mem_head? hc)
  · rw [String.toList_ofList]
    exact fun c hc => hvisible c (List.mem_of_getLast? hc)

/-- A text with its padding made up from its length, read as base64. -/
def readPadded (s : List Char) : Option (List UInt8) :=
  let t := s.map fun c => if c = '-' then '+' else if c = '_' then '/' else c
  let padded := match Text.length t % 4 with
    | 2 => t ++ ['=', '=']
    | 3 => t ++ ['=']
    | _ => t
  Base64.decode padded

theorem decodeBase64_eq (input : String) :
    decodeBase64 input = readPadded (trimChars input.toList) := rfl

/-- The signs that are put behind a text of some length. -/
def signs (length : Nat) : Nat :=
  match length % 4 with
  | 2 => 2
  | 3 => 1
  | _ => 0

theorem signs_le (length : Nat) : signs length ≤ 2 := by
  unfold signs
  split <;> omega

theorem readPadded_eq (s : List Char) : readPadded s = Base64.decode
    ((s.map fun c => if c = '-' then '+' else if c = '_' then '/' else c) ++
      List.replicate (signs (Text.length
        (s.map fun c => if c = '-' then '+' else if c = '_' then '/' else c))) '=') := by
  unfold readPadded signs
  dsimp only
  split <;> simp [List.replicate]

/-- The text of a list of bytes, broken into lines anywhere. -/
def Wrapped (f : Base64.Flavour) (bs : List UInt8) (cs : List Char) : Prop :=
  cs.filter (· != '\n') = f.encode bs

/-- The length of a broken text does not pretend to lack padding, or tells what is really lacking. -/
def paddingFits (length digits : Nat) : Bool := signs length == 0 || digits % 4 + signs length == 4

theorem Wrapped.mem {f : Base64.Flavour} {bs : List UInt8} {cs : List Char} (h : Wrapped f bs cs)
    {c : Char} (hc : c ∈ cs) : c = '\n' ∨ Base64.isBase64 c = true := by
  by_cases hn : c = '\n'
  · exact .inl hn
  · right
    have hm : c ∈ f.encode bs := by
      rw [← h, List.mem_filter]
      exact ⟨hc, by simpa using hn⟩
    exact Base64.Flavour.isBase64_of_mem hm

/-- **What a broken text is read to**: its bytes, unless its length makes up padding that the digits
    do not lack. -/
theorem readPadded_wrapped {f : Base64.Flavour} {bs : List UInt8} {cs : List Char}
    (h : Wrapped f bs cs) :
    readPadded cs = if paddingFits cs.length (f.encode bs).length then some bs else none := by
  have hascii : ∀ c ∈ cs.map fun c => if c = '-' then '+' else if c = '_' then '/' else c,
      c.toNat < 0x80 := by
    intro c hc
    obtain ⟨d, hd, rfl⟩ := List.mem_map.1 hc
    split
    · decide
    · split
      · decide
      · rcases h.mem hd with rfl | hd
        · decide
        · exact (isBase64_props hd).2
  have hmap := Base64.Flavour.map_encode_standard f bs
  have hlen : (Base64.encode Base64.digit f.padding bs).length = (f.encode bs).length := by
    rw [← hmap, List.length_map]
  have hskip : ∀ c ∈ (cs.map fun c => if c = '-' then '+' else if c = '_' then '/' else c) ++
      List.replicate (signs cs.length) '=', (c != '\n') = false → Base64.symbol c = .skip := by
    intro c _ hc
    rw [bne_eq_false_iff_eq] at hc
    rw [hc]
    rfl
  have hfilter : ((cs.map fun c => if c = '-' then '+' else if c = '_' then '/' else c) ++
      List.replicate (signs cs.length) '=').filter (· != '\n')
        = Base64.encode Base64.digit f.padding bs ++ List.replicate (signs cs.length) '=' := by
    have hkeep : ∀ c ∈ cs, ((· != '\n') ∘ fun c =>
        if c = '-' then '+' else if c = '_' then '/' else c) c = (c != '\n') := by
      intro c _
      simp only [Function.comp_apply]
      split
      · rename_i hc
        rw [hc]
        rfl
      · split
        · rename_i hc
          rw [hc]
          rfl
        · rfl
    rw [List.filter_append, List.filter_map, List.filter_congr hkeep, h, hmap]
    congr 1
    rw [List.filter_eq_self]
    intro c hc
    rw [(List.mem_replicate.1 hc).2]
    rfl
  rw [readPadded_eq, Text.length_of_ascii hascii, List.length_map]
  unfold Base64.decode
  rw [← Base64.decodeFrom_filter hskip, hfilter]
  have hread := Base64.decode_encode_replicate f.padding bs (signs_le cs.length)
  unfold Base64.decode at hread
  rw [hread, hlen]
  refine if_congr ?_ rfl rfl
  simp [paddingFits]

theorem readPadded_flavour (f : Base64.Flavour) (bs : List UInt8) :
    readPadded (f.encode bs) = some bs := by
  have hwrapped : Wrapped f bs (f.encode bs) := by
    unfold Wrapped
    rw [List.filter_eq_self]
    intro c hc
    rw [bne_iff_ne]
    rintro rfl
    exact not_mem_flavour (by decide) hc
  have hfits : ∀ n, paddingFits n n = true := by
    intro n
    unfold paddingFits signs
    split <;> simp <;> omega
  rw [readPadded_wrapped hwrapped, hfits]
  rfl

/-- **The bytes behind a base64 text, whichever flavour it was written in.** -/
theorem decodeBase64_flavour (f : Base64.Flavour) (bs : List UInt8) :
    decodeBase64 (String.ofList (f.encode bs)) = some bs := by
  have htrim : trimChars (f.encode bs) = f.encode bs := by
    have := congrArg String.toList (trim_flavour f bs)
    rwa [trim, String.toList_ofList, String.toList_ofList] at this
  rw [decodeBase64_eq, String.toList_ofList, htrim, readPadded_flavour]

end Encoded

theorem utf8String_toByteArray (s : String) : utf8String (toByteArray s) = s := by
  unfold utf8String toByteArray
  rw [Utf8.decode_encode, String.ofList_toList]

/-- The raw form of a link comes first. -/
theorem parse_of_parseOnce {doubles : Doubles} {link : String} {o : XrayOutbound}
    (ht : trim link = link) (h : parseOnce doubles link = some o) : parse doubles link = some o := by
  unfold parse
  simp only [ht]
  rw [List.findSome?_cons, h]

/-! ## 4. Written links -/

theorem toList_hostAndPort (address : String) {port : Int} (h : 0 ≤ port) :
    (hostAndPort address port).toList = address.toList ++ ':' :: Nat.toDigits 10 port.toNat := by
  have hport : (toString port).toList = Nat.toDigits 10 port.toNat := by
    rw [Int.toString_eq_repr, Int.repr_eq_if, if_pos (by omega), Nat.toList_repr]
  unfold hostAndPort
  rw [String.toList_append, String.toList_append, hport, List.append_assoc]
  rfl

theorem isBlank_hostAndPort (address : String) (port : Int) :
    isBlank (hostAndPort address port) = false := by
  refine isBlank_of_mem (c := ':') ?_ (by decide)
  simp [hostAndPort]

/-- A link as the serializer puts it together. -/
def linkChars (scheme user : List Char) (address : String) (port : Int) (query : Option (List Char))
    (name : String) : List Char :=
  scheme ++ ':' :: '/' :: '/' :: (user ++ '@' :: (hostAndPort address port).toList
    ++ (Uri.queryPart query ++ '#' :: (urlEncode name).toList))

/-- **A written link as a URI.** -/
theorem uriOf_link {link : String} {scheme user : List Char} {address name : String} {port : Int}
    {query : Option (List Char)} (hl : link.toList = linkChars scheme user address port query name)
    (hs : Uri.isScheme scheme = true) (hu : Uri.scan Uri.userInfoChar user = some true)
    (hh : Uri.isHost address.toList = true) (hpos : 0 < port) (hport : port < 2 ^ 31)
    (hq : ∀ q ∈ query, Uri.scan Uri.uric q = some true) :
    uriOf link = some { userInfo := some user, host := some address.toList,
                        port := some port.toNat, query := query,
                        fragment := some (urlEncode name).toList } := by
  unfold uriOf
  rw [hl, linkChars, toList_hostAndPort address (Int.le_of_lt hpos)]
  exact Uri.ofText_server hs hu hh (by omega) hq (scan_uric_urlEncode name)

/-- Nothing of a written link is trimmed. -/
theorem trim_link {link : String} {scheme user : List Char} {address name : String} {port : Int}
    {query : Option (List Char)} (hl : link.toList = linkChars scheme user address port query name)
    (hs : scheme.head?.any (fun c => !isWhitespace c) = true) : trim link = link := by
  apply trim_eq_self
  · rw [hl, linkChars]
    cases scheme with
    | nil => cases hs
    | cons c scheme => simpa using hs
  · intro c hc
    -- the last character is the `#` or one of the encoded name
    have hassoc : linkChars scheme user address port query name
        = (scheme ++ ':' :: '/' :: '/' :: (user ++ '@' :: (hostAndPort address port).toList
          ++ Uri.queryPart query)) ++ '#' :: (urlEncode name).toList := by
      simp [linkChars]
    rw [hl, hassoc, List.getLast?_append_cons] at hc
    have hm := List.mem_of_getLast? hc
    rw [List.mem_cons, toList_urlEncode] at hm
    rcases hm with rfl | hm
    · decide
    · exact isWhitespace_of_mem_encode hm

/-- A written link starts with its scheme. -/
theorem startsWithIgnoreCase_link {link lit : String} {scheme user : List Char}
    {address name : String} {port : Int} {query : Option (List Char)}
    (hl : link.toList = linkChars scheme user address port query name)
    (hlit : lit.toList = scheme ++ [':', '/', '/']) : startsWithIgnoreCase link lit = true := by
  rw [startsWithIgnoreCase_iff]
  refine ⟨lit.toList, user ++ '@' :: (hostAndPort address port).toList
    ++ (Uri.queryPart query ++ '#' :: (urlEncode name).toList), ?_, rfl⟩
  rw [hl, hlit]
  simp [linkChars]

/-- What is decoded of an encoded part. -/
theorem decoded_urlEncode (s : String) : decoded (some (urlEncode s).toList) = some s := by
  simp [decoded, toList_urlEncode, Percent.decode_encode]

theorem portOr_toNat {uri : Uri} {port : Int} (h : uri.port = some port.toNat) (hpos : 0 < port)
    (default : Int) : portOr uri default = port := by
  unfold portOr
  rw [h]
  simp only
  rw [if_pos (by omega), Int.toNat_of_nonneg (by omega)]

/-- The name that comes back: decoded a second time, and the endpoint where nothing is left of it. -/
def rereadName (o : XrayOutbound) : String :=
  ifBlank (urlDecode (ifBlank o.name (hostAndPort o.address o.port))) (hostAndPort o.address o.port)

theorem fragmentName_urlEncode {uri : Uri} {name : String}
    (h : uri.fragment = some (urlEncode name).toList) (fallback : String) :
    fragmentName uri fallback = ifBlank (urlDecode name) fallback := by
  unfold fragmentName
  rw [h, decoded_urlEncode]

/-- An outbound that a link can hold: a host that a URI accepts, and a port. -/
structure Linkable (o : XrayOutbound) : Prop where
  host : Uri.isHost o.address.toList = true
  pos : 0 < o.port
  port : o.port < 2 ^ 31

/-- A host that a URI accepts is not blank. -/
theorem isBlank_of_isHost {s : String} (h : Uri.isHost s.toList = true) : isBlank s = false := by
  have hvisible : ∀ c : Char, Uri.hostChar c = true ∨ Uri.bracketChar c = true ∨ c = '[' ∨ c = ']' →
      isWhitespace c = false := by
    rintro c (h | h | rfl | rfl)
    · simp only [Uri.hostChar, Bool.or_eq_true, beq_iff_eq] at h
      rcases h with ((h | rfl) | rfl) | rfl
      · exact isWhitespace_of_isAlphanum h
      all_goals decide
    · simp only [Uri.bracketChar, Bool.or_eq_true, beq_iff_eq] at h
      rcases h with ((h | rfl) | rfl) | rfl
      · exact isWhitespace_of_isAlphanum h
      all_goals decide
    · decide
    · decide
  cases hs : s.toList with
  | nil =>
    have hempty : Uri.isHost [] = false := by decide
    rw [hs, hempty] at h
    cases h
  | cons c cs =>
    have hc : c ∈ s.toList := hs ▸ List.mem_cons_self
    exact isBlank_of_mem hc (hvisible c (Uri.mem_isHost h hc))

theorem toLink_of_linkable {o : XrayOutbound} (hl : Linkable o) : toLink o = linkOf o := by
  unfold toLink
  rw [isBlank_of_isHost hl.host, decide_eq_true hl.pos]
  rfl

/-! ## 5. The keys of a query are distinct -/

theorem keys_param (cond : Bool) (k v : String) : ((param cond k v).map Prod.fst).Sublist [k] := by
  cases cond
  · exact List.nil_sublist _
  · exact List.Sublist.refl _

/-- The keys that `streamQuery` can write, in their order. -/
def streamKeys : List String :=
  ["type"] ++ ["security"] ++ ["sni"] ++ ["fp"] ++ ["alpn"] ++
    ["path", "host", "serviceName", "headerType"] ++ ["pbk", "sid", "spx", "pqv"] ++ ["mode", "extra"]

theorem keys_streamQuery (st : XrayStream) : ((streamQuery st).map Prod.fst).Sublist streamKeys := by
  unfold streamQuery streamKeys
  simp only [List.map_append]
  refine .append (.append (.append (.append (.append (.append (.append (keys_param _ _ _)
    (keys_param _ _ _)) (keys_param _ _ _)) (keys_param _ _ _)) (keys_param _ _ _)) ?_) ?_) ?_
  · split
    · have hhost := keys_param (!isBlank st.host) "host" st.host
      exact (hhost.cons_cons "path").trans (by decide)
    · split
      · exact (keys_param _ _ _).trans (by decide)
      · split
        · exact (keys_param _ _ _).trans (by decide)
        · exact List.nil_sublist _
  · split
    · simp only [List.map_append]
      exact .append (.append (.append (keys_param _ _ _) (keys_param _ _ _)) (keys_param _ _ _))
        (keys_param _ _ _)
    · exact List.nil_sublist _
  · split
    · simp only [List.map_append]
      exact .append (keys_param _ _ _) (keys_param _ _ _)
    · exact List.nil_sublist _

theorem nodup_streamQuery (st : XrayStream) : ((streamQuery st).map Prod.fst).Nodup :=
  (keys_streamQuery st).nodup (by decide)

theorem nodup_vlessQuery (o : XrayOutbound) : ((vlessQuery o).map Prod.fst).Nodup := by
  have hkeys : ((vlessQuery o).map Prod.fst).Sublist (["encryption"] ++ ["flow"] ++ streamKeys) := by
    unfold vlessQuery
    simp only [List.map_append]
    exact .append (.append (List.Sublist.refl _) (keys_param _ _ _)) (keys_streamQuery _)
  exact hkeys.nodup (by decide)

theorem nodup_hysteria2Query (o : XrayOutbound) : ((hysteria2Query o).map Prod.fst).Nodup := by
  have hkeys : ((hysteria2Query o).map Prod.fst).Sublist
      (["sni"] ++ ["insecure"] ++ ["obfs", "obfs-password"]) := by
    unfold hysteria2Query
    simp only [List.map_append]
    refine .append (.append (keys_param _ _ _) (keys_param _ _ _)) ?_
    split
    · have hhost := keys_param (!isBlank o.stream.host) "obfs-password" o.stream.host
      exact hhost.cons_cons "obfs"
    · exact List.nil_sublist _
  exact hkeys.nodup (by decide)

/-- A query that is left out where there is nothing in it. -/
def queryOrNone (q : Query) : Option (List Char) :=
  if q.isEmpty then none else some (renderQuery q).toList

theorem queryMap_queryOrNone (q : Query) (h : (q.map Prod.fst).Nodup) :
    queryMap (queryOrNone q) = q := by
  unfold queryOrNone
  split
  · rename_i hq
    rw [List.isEmpty_iff] at hq
    rw [hq]
    rfl
  · exact queryMap_renderQuery q h

theorem scan_queryOrNone (q : Query) :
    ∀ cs ∈ queryOrNone q, Uri.scan Uri.uric cs = some true := by
  intro cs hcs
  unfold queryOrNone at hcs
  split at hcs
  · cases hcs
  · rw [Option.mem_def, Option.some.injEq] at hcs
    rw [← hcs]
    exact scan_uric_renderQuery q

/-- A query is written as nothing exactly where there is nothing in it. -/
theorem isEmpty_renderQuery (q : Query) : (renderQuery q).isEmpty = q.isEmpty := by
  cases q with
  | nil => rfl
  | cons m q =>
    have hmem : '=' ∈ (renderQuery (m :: q)).toList := by
      rw [toList_renderQuery, List.map_cons]
      exact mem_intercalate_head (by simp [pairChars]) _
    have hne : renderQuery (m :: q) ≠ "" := by
      intro e
      rw [e] at hmem
      cases hmem
    simpa [String.isEmpty_iff] using hne

theorem toList_query (q : Query) :
    (if (renderQuery q).isEmpty then "" else "?" ++ renderQuery q).toList
      = Uri.queryPart (queryOrNone q) := by
  rw [isEmpty_renderQuery]
  unfold queryOrNone
  split
  · rfl
  · rw [String.toList_append]
    rfl

/-! ## 6. What comes back -/

section Written

variable (doubles : Doubles) {o : XrayOutbound}

theorem toList_fragment (o : XrayOutbound) : (fragment o).toList
    = '#' :: (urlEncode (ifBlank o.name (hostAndPort o.address o.port))).toList := by
  unfold fragment
  rw [String.toList_append]
  rfl

/-- The link of a VLESS outbound. -/
theorem linkOf_vless (hp : o.protocol = "vless") : ∃ link, linkOf o = some link ∧
    link.toList = linkChars "vless".toList (urlEncode o.uuid).toList o.address o.port
      (some (renderQuery (vlessQuery o)).toList) (ifBlank o.name (hostAndPort o.address o.port)) := by
  refine ⟨_, if_pos hp, ?_⟩
  simp [linkChars, toList_fragment, Uri.queryPart]

/-- The link of a Trojan outbound. -/
theorem linkOf_trojan (hp : o.protocol = "trojan") : ∃ link, linkOf o = some link ∧
    link.toList = linkChars "trojan".toList (urlEncode o.password).toList o.address o.port
      (queryOrNone (streamQuery o.stream)) (ifBlank o.name (hostAndPort o.address o.port)) := by
  have hlink : linkOf o = some ("trojan://" ++ urlEncode o.password ++ "@" ++
      hostAndPort o.address o.port ++ (if (renderQuery (streamQuery o.stream)).isEmpty then "" else
        "?" ++ renderQuery (streamQuery o.stream)) ++ fragment o) := by
    unfold linkOf
    rw [hp]
    rfl
  refine ⟨_, hlink, ?_⟩
  rw [String.toList_append, String.toList_append, toList_query, toList_fragment]
  simp [linkChars]

/-- The link of a Hysteria2 outbound. -/
theorem linkOf_hysteria2 (hp : o.protocol = "hysteria2") : ∃ link, linkOf o = some link ∧
    link.toList = linkChars "hysteria2".toList (urlEncode o.password).toList o.address o.port
      (queryOrNone (hysteria2Query o)) (ifBlank o.name (hostAndPort o.address o.port)) := by
  have hlink : linkOf o = some ("hysteria2://" ++ urlEncode o.password ++ "@" ++
      hostAndPort o.address o.port ++ (if (renderQuery (hysteria2Query o)).isEmpty then "" else
        "?" ++ renderQuery (hysteria2Query o)) ++ fragment o) := by
    unfold linkOf
    rw [hp, isEmpty_renderQuery]
    rfl
  refine ⟨_, hlink, ?_⟩
  rw [String.toList_append, String.toList_append, toList_query, toList_fragment]
  simp [linkChars]

/-- A login in front of the host. -/
def loginChars (o : XrayOutbound) : List Char :=
  (urlEncode o.username).toList ++ ':' :: (urlEncode o.password).toList

/-- The link of a SOCKS or HTTP outbound with a login. -/
theorem linkOf_socksHttp (hp : o.protocol = "socks" ∨ o.protocol = "http")
    (hu : isBlank o.username = false) (hpw : isBlank o.password = false) :
    ∃ link, linkOf o = some link ∧ link.toList
      = linkChars o.protocol.toList (loginChars o) o.address o.port none
        (ifBlank o.name (hostAndPort o.address o.port)) := by
  have hlink : linkOf o = some (o.protocol ++ "://" ++ credentials o ++
      hostAndPort o.address o.port ++ fragment o) := by
    unfold linkOf
    rcases hp with hp | hp
    · rw [hp]
      rfl
    · rw [hp]
      rfl
  have hcred : credentials o = urlEncode o.username ++ ":" ++ urlEncode o.password ++ "@" := by
    unfold credentials
    rw [hu, hpw]
    rfl
  refine ⟨_, hlink, ?_⟩
  rw [hcred]
  simp [linkChars, loginChars, toList_fragment, Uri.queryPart]

/-- A VLESS outbound, written and read. -/
theorem parse_toLink_vless (hl : Linkable o) (hp : o.protocol = "vless") :
    ∃ link, toLink o = some link ∧ parse doubles link = some
      { protocol := "vless"
        uuid := urlDecode o.uuid
        name := rereadName o
        address := o.address
        port := o.port
        flow := ((vlessQuery o).lookup "flow").getD ""
        encryption := ifNullOrBlank ((vlessQuery o).lookup "encryption") "none"
        stream := streamFrom (vlessQuery o) } := by
  obtain ⟨link, hlink, hchars⟩ := linkOf_vless hp
  refine ⟨link, (toLink_of_linkable hl).trans hlink, ?_⟩
  have huri := uriOf_link hchars (by decide) (scan_userInfo_urlEncode o.uuid) hl.host hl.pos hl.port
    (by
      intro q hq
      rw [Option.mem_def, Option.some.injEq] at hq
      rw [← hq]
      exact scan_uric_renderQuery _)
  refine parse_of_parseOnce (trim_link hchars (by decide)) ?_
  rw [parseOnce_vless (startsWithIgnoreCase_link hchars (by decide))]
  unfold parseVless
  rw [huri]
  simp only [Option.bind_eq_bind, Option.bind_some, decoded_urlEncode, hostOf, Option.map_some,
    String.ofList_toList, queryMap_renderQuery _ (nodup_vlessQuery o)]
  rw [portOr_toNat rfl hl.pos, fragmentName_urlEncode rfl]
  rfl

/-- A Trojan outbound, written and read. -/
theorem parse_toLink_trojan (hl : Linkable o) (hp : o.protocol = "trojan") :
    ∃ link, toLink o = some link ∧ parse doubles link = some
      { protocol := "trojan"
        name := rereadName o
        address := o.address
        port := o.port
        password := urlDecode o.password
        flow := ((streamQuery o.stream).lookup "flow").getD ""
        stream := if isBlank (streamFrom (streamQuery o.stream)).security ||
            (streamFrom (streamQuery o.stream)).security == "none"
          then { streamFrom (streamQuery o.stream) with security := "tls" }
          else streamFrom (streamQuery o.stream) } := by
  obtain ⟨link, hlink, hchars⟩ := linkOf_trojan hp
  refine ⟨link, (toLink_of_linkable hl).trans hlink, ?_⟩
  have huri := uriOf_link hchars (by decide) (scan_userInfo_urlEncode o.password) hl.host hl.pos
    hl.port (scan_queryOrNone _)
  refine parse_of_parseOnce (trim_link hchars (by decide)) ?_
  rw [parseOnce_trojan (startsWithIgnoreCase_link hchars (by decide))]
  unfold parseTrojan
  rw [huri]
  simp only [Option.bind_eq_bind, Option.bind_some, decoded_urlEncode, hostOf, Option.map_some,
    String.ofList_toList, queryMap_queryOrNone _ (nodup_streamQuery o.stream)]
  rw [portOr_toNat rfl hl.pos, fragmentName_urlEncode rfl]
  rfl

/-- A Hysteria2 outbound, written and read. -/
theorem parse_toLink_hysteria2 (hl : Linkable o) (hp : o.protocol = "hysteria2") :
    ∃ link, toLink o = some link ∧ parse doubles link = some
      { protocol := "hysteria2"
        name := rereadName o
        address := o.address
        port := o.port
        password := urlDecode o.password
        stream := hysteria2Stream (hysteria2Query o) } := by
  obtain ⟨link, hlink, hchars⟩ := linkOf_hysteria2 hp
  refine ⟨link, (toLink_of_linkable hl).trans hlink, ?_⟩
  have huri := uriOf_link hchars (by decide) (scan_userInfo_urlEncode o.password) hl.host hl.pos
    hl.port (scan_queryOrNone _)
  refine parse_of_parseOnce (trim_link hchars (by decide)) ?_
  rw [parseOnce_hysteria2 (startsWithIgnoreCase_link hchars (by decide))]
  unfold parseHysteria2
  rw [huri]
  simp only [Option.bind_eq_bind, Option.bind_some, decoded_urlEncode, hostOf, Option.map_some,
    String.ofList_toList, queryMap_queryOrNone _ (nodup_hysteria2Query o)]
  rw [portOr_toNat rfl hl.pos, fragmentName_urlEncode rfl]
  rfl

theorem decoded_loginChars (o : XrayOutbound) :
    decoded (some (loginChars o)) = some (o.username ++ ":" ++ o.password) := by
  have hdecode : Percent.decode (loginChars o)
      = some (o.username.toList ++ ':' :: o.password.toList) := by
    have hu : Percent.unescape id [] (Percent.encode o.username.toList) = some o.username.toList :=
      Percent.decode_encode _
    have hp : Percent.unescape id [] (Percent.encode o.password.toList) = some o.password.toList :=
      Percent.decode_encode _
    unfold Percent.decode loginChars
    rw [toList_urlEncode, toList_urlEncode, Percent.unescape_append_cons (by decide) (by decide), hu, hp]
    rfl
  unfold decoded
  rw [Option.map_some, hdecode, Option.getD_some, Option.some.injEq, ← String.toList_inj]
  simp

theorem scan_loginChars (o : XrayOutbound) :
    Uri.scan Uri.userInfoChar (loginChars o) = some true := by
  unfold loginChars
  rw [Uri.scan_append (scan_userInfo_urlEncode _), Uri.scan_cons_of_ok (by decide)]
  exact scan_userInfo_urlEncode _

/-- A SOCKS or HTTP outbound with a login, written and read. -/
theorem parse_toLink_socksHttp (hl : Linkable o) (hp : o.protocol = "socks" ∨ o.protocol = "http")
    (hu : isBlank o.username = false) (hpw : isBlank o.password = false) :
    ∃ link, toLink o = some link ∧ parse doubles link = some
      { protocol := o.protocol
        name := rereadName o
        address := o.address
        port := o.port
        username := substringBefore ':' (urlDecode (o.username ++ ":" ++ o.password)) ""
        password := substringAfter ':' (urlDecode (o.username ++ ":" ++ o.password)) "" } := by
  obtain ⟨link, hlink, hchars⟩ := linkOf_socksHttp hp hu hpw
  refine ⟨link, (toLink_of_linkable hl).trans hlink, ?_⟩
  have hparse : Uri.isScheme o.protocol.toList = true → parseSocksHttp link o.protocol = some
      { protocol := o.protocol
        name := rereadName o
        address := o.address
        port := o.port
        username := substringBefore ':' (urlDecode (o.username ++ ":" ++ o.password)) ""
        password := substringAfter ':' (urlDecode (o.username ++ ":" ++ o.password)) "" } := by
    intro hscheme
    have huri := uriOf_link hchars hscheme (scan_loginChars o) hl.host hl.pos hl.port (by simp)
    unfold parseSocksHttp
    rw [huri]
    simp only [Option.bind_eq_bind, Option.bind_some, decoded_loginChars, hostOf, Option.map_some,
      String.ofList_toList, Option.getD_some]
    rw [portOr_toNat rfl hl.pos, fragmentName_urlEncode rfl]
    rfl
  rcases hp with hp | hp
  · rw [hp] at hchars hparse ⊢
    refine parse_of_parseOnce (trim_link hchars (by decide)) ?_
    rw [parseOnce_socks (startsWithIgnoreCase_link hchars (by decide))]
    exact hparse (by decide)
  · rw [hp] at hchars hparse ⊢
    refine parse_of_parseOnce (trim_link hchars (by decide)) ?_
    rw [parseOnce_http (startsWithIgnoreCase_link hchars (by decide))]
    exact hparse (by decide)

end Written

/-! ## 7. What the parsers give -/

theorem isHost_of_hostOf {link : String} {uri : Uri} {host : String} (h : uriOf link = some uri)
    (hh : hostOf uri = some host) : Uri.isHost host.toList = true := by
  obtain ⟨cs, hcs, rfl⟩ := Option.map_eq_some_iff.1 hh
  rw [String.toList_ofList]
  exact Uri.host_of_ofText h hcs

theorem portOr_bounds {link : String} {uri : Uri} {host : String} (h : uriOf link = some uri)
    (hh : hostOf uri = some host) (default : Int) (hpos : 0 < default) (hlt : default < 2 ^ 31) :
    0 < portOr uri default ∧ portOr uri default < 2 ^ 31 := by
  obtain ⟨cs, hcs, -⟩ := Option.map_eq_some_iff.1 hh
  unfold portOr
  split
  · rename_i n hn
    have := Uri.port_of_ofText h hcs hn
    split <;> omega
  · exact ⟨hpos, hlt⟩

theorem ifBlank_of_isBlank_eq_false {s : String} (h : isBlank s = false) (default : String) :
    ifBlank s default = s := by
  unfold ifBlank
  rw [h]
  rfl

theorem isBlank_ifBlank {s default : String} (h : isBlank default = false) :
    isBlank (ifBlank s default) = false := by
  unfold ifBlank
  split
  · exact h
  · rename_i hs
    simpa using hs

theorem isBlank_ifNullOrBlank {s : Option String} {default : String} (h : isBlank default = false) :
    isBlank (ifNullOrBlank s default) = false := by
  cases s with
  | none => exact h
  | some s => exact isBlank_ifBlank h

/-- What is known of a VLESS link that parses. -/
theorem parseVless_cases {link : String} {o : XrayOutbound} (h : parseVless link = some o) :
    o.protocol = "vless" ∧ Linkable o ∧ o.password = "" ∧ ∃ q, o.stream = streamFrom q := by
  unfold parseVless at h
  obtain ⟨uri, huri, h⟩ := Option.bind_eq_some_iff.1 h
  obtain ⟨uuid, huuid, h⟩ := Option.bind_eq_some_iff.1 h
  obtain ⟨host, hhost, h⟩ := Option.bind_eq_some_iff.1 h
  cases h
  have hport := portOr_bounds huri hhost 443 (by decide) (by decide)
  exact ⟨rfl, ⟨isHost_of_hostOf huri hhost, hport.1, hport.2⟩, rfl, _, rfl⟩

/-- What is known of a Trojan link that parses. -/
theorem parseTrojan_cases {link : String} {o : XrayOutbound} (h : parseTrojan link = some o) :
    o.protocol = "trojan" ∧ Linkable o ∧ o.uuid = "" ∧ ∃ q, o.stream =
      if isBlank (streamFrom q).security || (streamFrom q).security == "none"
        then { streamFrom q with security := "tls" } else streamFrom q := by
  unfold parseTrojan at h
  obtain ⟨uri, huri, h⟩ := Option.bind_eq_some_iff.1 h
  obtain ⟨password, hpassword, h⟩ := Option.bind_eq_some_iff.1 h
  obtain ⟨host, hhost, h⟩ := Option.bind_eq_some_iff.1 h
  cases h
  have hport := portOr_bounds huri hhost 443 (by decide) (by decide)
  exact ⟨rfl, ⟨isHost_of_hostOf huri hhost, hport.1, hport.2⟩, rfl, _, rfl⟩

theorem isHost_of_parseHysteria2 {link : String} {o : XrayOutbound}
    (h : parseHysteria2 link = some o) : Uri.isHost o.address.toList = true := by
  unfold parseHysteria2 at h
  obtain ⟨uri, huri, h⟩ := Option.bind_eq_some_iff.1 h
  obtain ⟨password, hpassword, h⟩ := Option.bind_eq_some_iff.1 h
  obtain ⟨host, hhost, h⟩ := Option.bind_eq_some_iff.1 h
  cases h
  exact isHost_of_hostOf huri hhost

theorem isHost_of_parseSocksHttp {link protocol : String} {o : XrayOutbound}
    (h : parseSocksHttp link protocol = some o) : Uri.isHost o.address.toList = true := by
  unfold parseSocksHttp at h
  obtain ⟨uri, huri, h⟩ := Option.bind_eq_some_iff.1 h
  obtain ⟨host, hhost, h⟩ := Option.bind_eq_some_iff.1 h
  cases h
  exact isHost_of_hostOf huri hhost

end XrayShareLink

end SwiftVpn
