/-
  File:      SwiftVpn/Xray/Endpoints.lean
  Subject:   THE SERVERS OF PARSED LINKS: what XrayShareLink.parse checks of a host and a port.

  * `Connectable` -- an address, a TCP port, a name and a link that can be written;
  * `readForm` -- the form of a text that `parse` reads: the first of the three that parses;
  * `NamesServer` -- what has to stand in that form: a URI names a TCP port or none, a VMess object one
    or none, a Shadowsocks link a host and one;
  * `connectable_iff` -- a parsed link is connectable exactly where its form names a server;
  * `parse_blank_host` -- a link without a host that is parsed.
-/
import SwiftVpn.Xray.Hysteria

namespace SwiftVpn

namespace XrayShareLink

/-! ## 1. The forms -/

/-- The forms of a text that `parse` tries. -/
def forms (raw : String) : List String :=
  [trim raw, urlDecode (trim raw), withDecodedFragment (trim raw)]

/-- The first form that parses. -/
def readForm (doubles : Doubles) (raw : String) : Option String :=
  (forms raw).find? fun link => (parseOnce doubles link).isSome

theorem findSome?_eq_find? {α β : Type*} (f : α → Option β) (xs : List α) :
    xs.findSome? f = (xs.find? fun x => (f x).isSome).bind f := by
  induction xs with
  | nil => rfl
  | cons x xs ih =>
    cases hx : f x with
    | none =>
      rw [List.findSome?_cons_of_isNone (by rw [hx]; rfl),
        List.find?_cons_of_neg (by rw [hx]; exact Bool.false_ne_true), ih]
    | some y =>
      rw [List.findSome?_cons_of_isSome (by rw [hx]; rfl), List.find?_cons_of_pos (by rw [hx]; rfl),
        Option.bind_some]

theorem parse_eq_some_iff {doubles : Doubles} {raw : String} {o : XrayOutbound} :
    parse doubles raw = some o ↔
      ∃ link, readForm doubles raw = some link ∧ parseOnce doubles link = some o := by
  have hparse : parse doubles raw = (forms raw).findSome? (parseOnce doubles) := rfl
  rw [hparse, findSome?_eq_find?, Option.bind_eq_some_iff]
  rfl

/-! ## 2. What a form names -/

/-- The URI has no port, port 0, for which the default stands in, or a TCP port. -/
def UriPort (link : String) : Prop :=
  ∀ uri, uriOf link = some uri → ∀ n, uri.port = some n → n ≤ 65535

/-- A number in the text is a TCP port. -/
def PortText (text : String) : Prop := ∀ n, parseIntOrNull text = some n → 1 ≤ n ∧ n ≤ 65535

/-- The `host:port` of a Shadowsocks link: behind the last `@` of the link, or of the text encoded in it. -/
def serverText (link : String) : String :=
  let afterScheme := removePrefix (removePrefix link "ss://") "SS://"
  let core := substringBefore '#' afterScheme afterScheme
  match Text.cutLast '@' core.toList with
  | some (_, rest) => urlDecode (substringBefore '?' (String.ofList rest) (String.ofList rest))
  | none =>
    match (decodeBase64 (substringBefore '#' core core)).bind fun bytes =>
        Text.cutLast '@' (utf8String bytes).toList with
    | some (_, hostPort) => String.ofList hostPort
    | none => ""

/-- The form names a server. -/
def NamesServer (doubles : Doubles) (link : String) : Prop :=
  if startsWithIgnoreCase link "vmess://" then
    let body := trim (removePrefix (removePrefix link "vmess://") "VMESS://")
    match (decodeBase64 body).bind fun bytes => Json.ofText doubles (utf8String bytes) with
    | none => UriPort ("vmess://" ++ body)
    | some json => PortText (json.optString "port")
  else if startsWithIgnoreCase link "ss://" then
    isBlank (substringBeforeLast ':' (serverText link)) = false ∧
      PortText (substringAfterLast ':' (serverText link))
  else UriPort link

/-! ## 3. What is stored -/

/-- An outbound that can be connected, edited and exported. -/
structure Connectable (o : XrayOutbound) : Prop where
  address : isBlank o.address = false
  port : 1 ≤ o.port ∧ o.port ≤ 65535
  name : isBlank o.name = false
  link : (toLink o).isSome = true

/-- The protocols of the parsers. -/
def protocols : List String := ["vless", "vmess", "trojan", "shadowsocks", "hysteria2", "socks", "http"]

section Stored

variable {doubles : Doubles} {link : String} {o : XrayOutbound} {uri : Uri} {host : String}

theorem isSome_linkOf (h : o.protocol ∈ protocols) : (linkOf o).isSome = true := by
  simp only [protocols, List.mem_cons, List.not_mem_nil, or_false] at h
  unfold linkOf
  rcases h with h | h | h | h | h | h | h <;> simp [h]

/-- What is left to check of an outbound of a known protocol, under a name. -/
theorem connectable_of_protocol_iff (hp : o.protocol ∈ protocols) (hn : isBlank o.name = false) :
    Connectable o ↔ isBlank o.address = false ∧ 1 ≤ o.port ∧ o.port ≤ 65535 := by
  constructor
  · intro h
    exact ⟨h.address, h.port⟩
  · rintro ⟨haddress, hport⟩
    refine ⟨haddress, hport, hn, ?_⟩
    have hpos : decide (0 < o.port) = true := decide_eq_true (by omega)
    unfold toLink
    rw [haddress, hpos, if_neg (by decide)]
    exact isSome_linkOf hp

theorem isBlank_fragmentName (uri : Uri) {fallback : String} (h : isBlank fallback = false) :
    isBlank (fragmentName uri fallback) = false := by
  unfold fragmentName
  split
  · exact isBlank_ifBlank h
  · exact h

/-- A host that was read is not blank. -/
theorem isBlank_hostOf (h : uriOf link = some uri) (hh : hostOf uri = some host) : isBlank host = false := by
  have hhost := isHost_of_hostOf h hh
  have hvisible : ∀ c ∈ host.toList, isWhitespace c = false := by
    intro c hc
    rcases Uri.mem_isHost hhost hc with hc | hc | rfl | rfl
    · simp only [Uri.hostChar, Bool.or_eq_true, beq_iff_eq] at hc
      rcases hc with ((hc | rfl) | rfl) | rfl
      · exact isWhitespace_of_isAlphanum hc
      all_goals decide
    · simp only [Uri.bracketChar, Bool.or_eq_true, beq_iff_eq] at hc
      rcases hc with ((hc | rfl) | rfl) | rfl
      · exact isWhitespace_of_isAlphanum hc
      all_goals decide
    all_goals decide
  cases hcs : host.toList with
  | nil =>
    rw [hcs] at hhost
    exact absurd hhost (by decide)
  | cons c cs =>
    have hmem : c ∈ host.toList := hcs ▸ List.mem_cons_self
    exact isBlank_of_mem hmem (hvisible c hmem)

theorem portOr_iff (h : uriOf link = some uri) (hh : hostOf uri = some host) {default : Int}
    (hpos : 0 < default) (hle : default ≤ 65535) :
    (1 ≤ portOr uri default ∧ portOr uri default ≤ 65535) ↔ UriPort link := by
  have hbounds := portOr_bounds h hh default hpos (by omega)
  constructor
  · rintro ⟨-, hport⟩ uri' h' n hn
    rw [h] at h'
    cases h'
    unfold portOr at hport
    rw [hn] at hport
    dsimp only at hport
    split at hport <;> omega
  · intro hu
    refine ⟨by omega, ?_⟩
    unfold portOr
    split
    · rename_i n hn
      have hn := hu uri h n hn
      split <;> omega
    · exact hle

/-- A parser that reads its host and its port from a URI. -/
theorem connectable_uri_iff (default : Int) (huri : uriOf link = some uri) (hhost : hostOf uri = some host)
    (hp : o.protocol ∈ protocols) (haddress : o.address = host) (hport : o.port = portOr uri default)
    (hname : o.name = fragmentName uri (hostAndPort host (portOr uri default)))
    (hpos : 0 < default) (hle : default ≤ 65535) : Connectable o ↔ UriPort link := by
  have hn : isBlank o.name = false := by
    rw [hname]
    exact isBlank_fragmentName uri (isBlank_hostAndPort _ _)
  rw [connectable_of_protocol_iff hp hn, haddress, hport, ← portOr_iff huri hhost hpos hle]
  exact and_iff_right (isBlank_hostOf huri hhost)

theorem connectable_vless_iff (h : parseVless link = some o) : Connectable o ↔ UriPort link := by
  unfold parseVless at h
  obtain ⟨uri, huri, h⟩ := Option.bind_eq_some_iff.1 h
  obtain ⟨uuid, huuid, h⟩ := Option.bind_eq_some_iff.1 h
  obtain ⟨host, hhost, h⟩ := Option.bind_eq_some_iff.1 h
  cases h
  have hp : "vless" ∈ protocols := by decide
  exact connectable_uri_iff 443 huri hhost hp rfl rfl rfl (by decide) (by decide)

theorem connectable_trojan_iff (h : parseTrojan link = some o) : Connectable o ↔ UriPort link := by
  unfold parseTrojan at h
  obtain ⟨uri, huri, h⟩ := Option.bind_eq_some_iff.1 h
  obtain ⟨password, hpassword, h⟩ := Option.bind_eq_some_iff.1 h
  obtain ⟨host, hhost, h⟩ := Option.bind_eq_some_iff.1 h
  cases h
  have hp : "trojan" ∈ protocols := by decide
  exact connectable_uri_iff 443 huri hhost hp rfl rfl rfl (by decide) (by decide)

theorem connectable_hysteria2_iff (h : parseHysteria2 link = some o) : Connectable o ↔ UriPort link := by
  unfold parseHysteria2 at h
  obtain ⟨uri, huri, h⟩ := Option.bind_eq_some_iff.1 h
  obtain ⟨password, hpassword, h⟩ := Option.bind_eq_some_iff.1 h
  obtain ⟨host, hhost, h⟩ := Option.bind_eq_some_iff.1 h
  cases h
  have hp : "hysteria2" ∈ protocols := by decide
  exact connectable_uri_iff 443 huri hhost hp rfl rfl rfl (by decide) (by decide)

theorem connectable_socksHttp_iff {protocol : String} (hp : protocol ∈ protocols)
    (h : parseSocksHttp link protocol = some o) : Connectable o ↔ UriPort link := by
  unfold parseSocksHttp at h
  obtain ⟨uri, huri, h⟩ := Option.bind_eq_some_iff.1 h
  obtain ⟨host, hhost, h⟩ := Option.bind_eq_some_iff.1 h
  cases h
  refine connectable_uri_iff _ huri hhost hp rfl rfl rfl ?_ ?_ <;> split <;> decide

theorem portText_iff (text : String) {default : Int} (h : 1 ≤ default ∧ default ≤ 65535) :
    (1 ≤ (parseIntOrNull text).getD default ∧ (parseIntOrNull text).getD default ≤ 65535) ↔
      PortText text := by
  unfold PortText
  cases hn : parseIntOrNull text with
  | none => exact iff_of_true h nofun
  | some n =>
    constructor
    · rintro hport m hm
      cases hm
      exact hport
    · intro hport
      exact hport n rfl

theorem connectable_vmess_iff (hs : startsWithIgnoreCase link "vmess://" = true)
    (h : parseVmess doubles link = some o) : Connectable o ↔ NamesServer doubles link := by
  unfold parseVmess at h
  unfold NamesServer
  rw [if_pos hs]
  dsimp only at h ⊢
  generalize trim (removePrefix (removePrefix link "vmess://") "VMESS://") = body at h ⊢
  cases hjson : (decodeBase64 body).bind fun bytes => Json.ofText doubles (utf8String bytes) with
  | none =>
    rw [hjson] at h
    unfold parseVmessQuery at h
    obtain ⟨uri, huri, h⟩ := Option.bind_eq_some_iff.1 h
    obtain ⟨uuid, huuid, h⟩ := Option.bind_eq_some_iff.1 h
    obtain ⟨host, hhost, h⟩ := Option.bind_eq_some_iff.1 h
    cases h
    have hp : "vmess" ∈ protocols := by decide
    exact connectable_uri_iff 443 huri hhost hp rfl rfl rfl (by decide) (by decide)
  | some json =>
    rw [hjson] at h
    have hparsed := vmessParsed_of_json h
    unfold parseVmessJson at h
    dsimp only at h
    split at h
    · cases h
    · rename_i hadd
      have ho := Option.some.inj h
      subst ho
      have hp : "vmess" ∈ protocols := by decide
      rw [connectable_of_protocol_iff hp hparsed.name]
      dsimp only
      rw [← portText_iff _ (show (1 : Int) ≤ 443 ∧ (443 : Int) ≤ 65535 by decide)]
      exact and_iff_right (by simpa using hadd)

/-! ### Shadowsocks -/

theorem isBlank_of_substringBeforeLast {x : Char} {s : String} (h : isBlank (substringBeforeLast x s) = false) :
    isBlank s = false := by
  unfold substringBeforeLast at h
  split at h
  · rename_i l r hcut
    unfold isBlank at h
    rw [String.toList_ofList, List.all_eq_false] at h
    obtain ⟨c, hc, hvisible⟩ := h
    refine isBlank_of_mem (c := c) ?_ (by simpa using hvisible)
    rw [Text.cutLast_eq_some hcut]
    exact List.mem_append_left _ hc
  · exact h

/-- A parser that cuts the text `host:port` at its last colon. -/
theorem connectable_hostPort_iff (hostPort : String) (hp : o.protocol = "shadowsocks")
    (haddress : o.address = substringBeforeLast ':' hostPort)
    (hport : parseIntOrNull (substringAfterLast ':' hostPort) = some o.port)
    (hname : isBlank o.address = false → isBlank o.name = false) :
    Connectable o ↔ isBlank (substringBeforeLast ':' hostPort) = false ∧
      PortText (substringAfterLast ':' hostPort) := by
  have hmem : o.protocol ∈ protocols := by
    rw [hp]
    decide
  constructor
  · intro h
    refine ⟨haddress ▸ h.address, fun n hn => ?_⟩
    rw [hport] at hn
    cases hn
    exact h.port
  · rintro ⟨hhost, hn⟩
    have haddr : isBlank o.address = false := haddress ▸ hhost
    exact (connectable_of_protocol_iff hmem (hname haddr)).2 ⟨haddr, hn o.port hport⟩

theorem connectable_sip002_iff {name core userInfo rest : String}
    (h : parseSip002 name core userInfo rest = some o) :
    Connectable o ↔ isBlank (substringBeforeLast ':' (urlDecode (substringBefore '?' rest rest))) = false ∧
      PortText (substringAfterLast ':' (urlDecode (substringBefore '?' rest rest))) := by
  unfold parseSip002 at h
  dsimp only at h
  generalize urlDecode (substringBefore '?' rest rest) = hostPort at h ⊢
  obtain ⟨bytes, hbytes, h⟩ := Option.bind_eq_some_iff.1 h
  obtain ⟨port, hport, h⟩ := Option.bind_eq_some_iff.1 h
  have ho := Option.some.inj h
  have haddress : o.address = substringBeforeLast ':' hostPort := by rw [← ho]
  have hname : o.name = ifBlank name (hostAndPort (substringBeforeLast ':' hostPort) port) := by rw [← ho]
  have hp : o.protocol = "shadowsocks" := by rw [← ho]
  have hn : o.port = port := by rw [← ho]
  refine connectable_hostPort_iff _ hp haddress (hn ▸ hport) fun _ => ?_
  rw [hname]
  exact isBlank_ifBlank (isBlank_hostAndPort _ _)

theorem connectable_legacy_iff {name core : String} (h : parseLegacy name core = some o) :
    ∃ methodPass hostPort, ((decodeBase64 (substringBefore '#' core core)).bind fun bytes =>
        Text.cutLast '@' (utf8String bytes).toList) = some (methodPass, hostPort) ∧
      (Connectable o ↔ isBlank (substringBeforeLast ':' (String.ofList hostPort)) = false ∧
        PortText (substringAfterLast ':' (String.ofList hostPort))) := by
  unfold parseLegacy at h
  obtain ⟨bytes, hbytes, h⟩ := Option.bind_eq_some_iff.1 h
  obtain ⟨⟨methodPass, hostPort⟩, hparts, h⟩ := Option.bind_eq_some_iff.1 h
  obtain ⟨port, hport, h⟩ := Option.bind_eq_some_iff.1 h
  have ho := Option.some.inj h
  refine ⟨methodPass, hostPort, ?_, ?_⟩
  · rw [hbytes, Option.bind_some, hparts]
  · have haddress : o.address = substringBeforeLast ':' (String.ofList hostPort) := by rw [← ho]
    have hname : o.name = ifBlank name (String.ofList hostPort) := by rw [← ho]
    have hp : o.protocol = "shadowsocks" := by rw [← ho]
    have hn : o.port = port := by rw [← ho]
    refine connectable_hostPort_iff _ hp haddress (hn ▸ hport) fun hb => ?_
    rw [haddress] at hb
    rw [hname]
    exact isBlank_ifBlank (isBlank_of_substringBeforeLast hb)

theorem connectable_shadowsocks_iff (h : parseShadowsocks link = some o) :
    Connectable o ↔ isBlank (substringBeforeLast ':' (serverText link)) = false ∧
      PortText (substringAfterLast ':' (serverText link)) := by
  unfold parseShadowsocks at h
  unfold serverText
  dsimp only at h ⊢
  split_ifs at h
  generalize substringBefore '#' (removePrefix (removePrefix link "ss://") "SS://")
    (removePrefix (removePrefix link "ss://") "SS://") = core at h ⊢
  cases hcut : Text.cutLast '@' core.toList with
  | some parts =>
    rw [hcut] at h
    exact connectable_sip002_iff h
  | none =>
    rw [hcut] at h
    obtain ⟨methodPass, hostPort, hparts, hiff⟩ := connectable_legacy_iff h
    rw [hparts]
    exact hiff

/-! ### Every form -/

theorem connectable_once_iff (h : parseOnce doubles link = some o) :
    Connectable o ↔ NamesServer doubles link := by
  have hother : ∀ scheme, startsWithIgnoreCase link scheme = true →
      startsWithIgnoreCase scheme "vmess://" = false → startsWithIgnoreCase "vmess://" scheme = false →
      startsWithIgnoreCase scheme "ss://" = false → startsWithIgnoreCase "ss://" scheme = false →
      (NamesServer doubles link ↔ UriPort link) := by
    intro scheme hs h1 h2 h3 h4
    unfold NamesServer
    rw [startsWithIgnoreCase_false hs h1 h2, startsWithIgnoreCase_false hs h3 h4]
    rfl
  unfold parseOnce at h
  split_ifs at h with h1 h2 h3 h4 h5 h6 h7 h8
  · rw [hother _ h1 (by decide) (by decide) (by decide) (by decide)]
    exact connectable_vless_iff h
  · exact connectable_vmess_iff h2 h
  · rw [hother _ h3 (by decide) (by decide) (by decide) (by decide)]
    exact connectable_trojan_iff h
  · have hnames : NamesServer doubles link ↔ isBlank (substringBeforeLast ':' (serverText link)) = false ∧
        PortText (substringAfterLast ':' (serverText link)) := by
      unfold NamesServer
      rw [startsWithIgnoreCase_false h4 (by decide) (by decide), if_neg Bool.false_ne_true, if_pos h4]
    rw [hnames]
    exact connectable_shadowsocks_iff h
  · rw [hother _ h5 (by decide) (by decide) (by decide) (by decide)]
    exact connectable_hysteria2_iff h
  · rw [hother _ h6 (by decide) (by decide) (by decide) (by decide)]
    exact connectable_hysteria2_iff h
  · rw [hother _ h7 (by decide) (by decide) (by decide) (by decide)]
    exact connectable_socksHttp_iff (by decide) h
  · rw [hother _ h8 (by decide) (by decide) (by decide) (by decide)]
    exact connectable_socksHttp_iff (by decide) h

/-- **A parsed link can be used** exactly where the form that was read names a server. -/
theorem connectable_iff {raw : String} (h : parse doubles raw = some o) :
    Connectable o ↔ ∃ link, readForm doubles raw = some link ∧ NamesServer doubles link := by
  obtain ⟨link, hlink, ho⟩ := parse_eq_some_iff.1 h
  rw [connectable_once_iff ho, hlink]
  constructor
  · intro hn
    exact ⟨link, rfl, hn⟩
  · rintro ⟨link', hlink', hn⟩
    cases hlink'
    exact hn

end Stored

/-- A link to a host and a TCP port. -/
theorem connectable_iff_vless :
    ∃ o, parse noDoubles "vless://u@a.example:443" = some o ∧ Connectable o := by
  have hform : readForm noDoubles "vless://u@a.example:443" = some "vless://u@a.example:443" := by
    decide +kernel
  have hport : (uriOf "vless://u@a.example:443").map Uri.port = some (some 443) := by decide +kernel
  have hparsed : (parse noDoubles "vless://u@a.example:443").isSome = true := by decide +kernel
  obtain ⟨o, ho⟩ := Option.isSome_iff_exists.1 hparsed
  have hnames : NamesServer noDoubles "vless://u@a.example:443" := by
    unfold NamesServer
    rw [if_neg (by decide), if_neg (by decide)]
    intro uri huri n hn
    rw [huri, Option.map_some, hn] at hport
    simp only [Option.some.injEq] at hport
    omega
  have hread := (connectable_iff ho).2 (Exists.intro "vless://u@a.example:443" (And.intro hform hnames))
  exact ⟨o, ho, hread⟩

/-- **A link without a host is stored**: it cannot be written again. -/
theorem parse_blank_host :
    ∃ o, parse noDoubles "ss://bTpw@:443" = some o ∧ o.address = "" ∧ toLink o = none ∧ ¬ Connectable o := by
  have hparsed : (parse noDoubles "ss://bTpw@:443").map (fun o => (o.address, toLink o))
      = some ("", none) := by decide +kernel
  obtain ⟨o, ho, hfields⟩ := Option.map_eq_some_iff.1 hparsed
  simp only [Prod.mk.injEq] at hfields
  refine ⟨o, ho, hfields.1, hfields.2, fun h => ?_⟩
  have hlink := h.link
  rw [hfields.2] at hlink
  exact absurd hlink (by decide)

end XrayShareLink

end SwiftVpn
