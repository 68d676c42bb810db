/-
  File:      SwiftVpn/Xray/Shadowsocks.lean
  Subject:   THE TWO FORMS OF A SHADOWSOCKS LINK.

  A link holds method and password, and in the legacy form the endpoint too, as base64 of some flavour.

  * `parse_sip002`, `parse_legacy` -- what each of the two forms is parsed to;
  * `parse_toLink_shadowsocks` -- a link that was written is read back, for every host in which the
    search for a plugin finds nothing;
  * `forms_agree_iff` -- the two forms give the same outbound configuration exactly where the method is
    none of the 2022 ciphers: the marker these need is set for one form only.
-/
import SwiftVpn.Xray.RoundTrip
import SwiftVpn.Xray.Config

namespace SwiftVpn

namespace XrayShareLink

/-! ## 1. The search for a plugin -/

/-- `plugin=`. -/
def pluginKey : List Char := "plugin=".toList

theorem containsIgnoreCase_plugin_flavour (f : Base64.Flavour) (bs : List UInt8) :
    Text.containsIgnoreCase pluginKey (f.encode bs) = false := by
  rcases f.encode_cases bs with h | ⟨init, k, pad, hk, he, hinit, hpad⟩
  · exact Text.containsIgnoreCase_of_not_mem (by decide) h
  · rw [Bool.eq_false_iff]
    intro hc
    rw [Text.containsIgnoreCase_iff, he] at hc
    have hsplit : (init ++ f.digit (4 * k) :: '=' :: pad).map Text.foldCase
        = (init ++ [f.digit (4 * k)]).map Text.foldCase ++ '=' :: pad.map Text.foldCase := by
      rw [List.map_append, List.map_append, List.append_assoc]
      rfl
    -- the sign behind `plugin` would be the first of the padding, and `n` the digit before it
    have hdigit : ∀ k < 16, f.digit (4 * k) ≠ '=' ∧ Text.foldCase (f.digit (4 * k)) ≠ 'n' := by
      have hstd : ∀ k < 16, Base64.digit (4 * k) ≠ '=' ∧
          Text.foldCase (Base64.digit (4 * k)) ≠ 'n' := by decide
      have hurl : ∀ k < 16, Base64.urlSafeDigit (4 * k) ≠ '=' ∧
          Text.foldCase (Base64.urlSafeDigit (4 * k)) ≠ 'n' := by decide
      unfold Base64.Flavour.digit
      split
      · exact hurl
      · exact hstd
    have hfirst : '=' ∉ (init ++ [f.digit (4 * k)]).map Text.foldCase := by
      intro hm
      obtain ⟨c, hm, hf⟩ := List.mem_map.1 hm
      rw [Text.eq_of_foldCase hf (by decide), List.mem_append, List.mem_singleton] at hm
      rcases hm with hm | hm
      · exact hinit hm
      · exact (hdigit k hk).1 hm.symm
    have hlast : 'n' ∉ '=' :: pad.map Text.foldCase := by
      rcases hpad with rfl | rfl <;> decide
    have hend := Text.getLast?_of_infix "plugi".toList hfirst hlast (by rwa [hsplit] at hc)
    rw [List.map_append, List.map_singleton, List.getLast?_concat, Option.some.injEq] at hend
    exact (hdigit k hk).2 hend

theorem containsIgnoreCase_plugin_urlEncode (s : String) :
    Text.containsIgnoreCase pluginKey (urlEncode s).toList = false := by
  refine Text.containsIgnoreCase_of_not_mem (by decide) ?_
  rw [toList_urlEncode]
  exact Percent.not_mem_encode (by decide) (by decide)

theorem not_mem_toDigits {c : Char} (hc : c.isDigit = false) (n : Nat) : c ∉ Nat.toDigits 10 n := by
  intro h
  rw [Nat.isDigit_of_mem_toDigits (by decide) (by decide) h] at hc
  cases hc

/-- In front of an endpoint the key is found where it is found in the host. -/
theorem containsIgnoreCase_plugin_hostAndPort (address : String) {port : Int} (h : 0 ≤ port) :
    Text.containsIgnoreCase pluginKey (hostAndPort address port).toList
      = Text.containsIgnoreCase pluginKey address.toList := by
  have hport : Text.containsIgnoreCase pluginKey (Nat.toDigits 10 port.toNat) = false :=
    Text.containsIgnoreCase_of_not_mem (by decide) (not_mem_toDigits (by decide) _)
  rw [toList_hostAndPort address h, Text.containsIgnoreCase_append_cons (by decide), hport,
    Bool.or_false]

/-! ## 2. Either form -/

/-- A link: the part before the fragment, and the name in it. -/
def ssLink (core name : String) : String := "ss://" ++ core ++ "#" ++ urlEncode name

theorem toList_ssLink (core name : String) : (ssLink core name).toList
    = "ss://".toList ++ (core.toList ++ '#' :: (urlEncode name).toList) := by
  simp [ssLink]

theorem trim_ssLink (core name : String) : trim (ssLink core name) = ssLink core name := by
  apply trim_eq_self
  · rw [toList_ssLink]
    intro c hc
    cases hc
    decide
  · intro c hc
    rw [toList_ssLink, ← List.append_assoc, List.getLast?_append_cons] at hc
    have hm := List.mem_of_getLast? hc
    rw [List.mem_cons, toList_urlEncode] at hm
    rcases hm with rfl | hm
    · decide
    · exact isWhitespace_of_mem_encode hm

theorem containsIgnoreCase_plugin_ssLink (core name : String) :
    Text.containsIgnoreCase pluginKey (ssLink core name).toList
      = Text.containsIgnoreCase pluginKey core.toList := by
  have hscheme : (ssLink core name).toList
      = "ss:/".toList ++ '/' :: (core.toList ++ '#' :: (urlEncode name).toList) := by
    rw [toList_ssLink]
    rfl
  have hnone : Text.containsIgnoreCase pluginKey "ss:/".toList = false := by decide
  rw [hscheme, Text.containsIgnoreCase_append_cons (by decide),
    Text.containsIgnoreCase_append_cons (by decide), hnone, containsIgnoreCase_plugin_urlEncode,
    Bool.or_false, Bool.false_or]

/-- The scheme is taken off once. -/
theorem removePrefix_ssLink {core : String} (h : ¬ "SS://".toList <+: core.toList) (name : String) :
    removePrefix (removePrefix (ssLink core name) "ss://") "SS://"
      = String.ofList (core.toList ++ '#' :: (urlEncode name).toList) := by
  have hchars : (String.ofList (core.toList ++ '#' :: (urlEncode name).toList)).toList
      = core.toList ++ '#' :: (urlEncode name).toList := String.toList_ofList
  rw [removePrefix_of_eq (toList_ssLink core name)]
  apply removePrefix_eq_self
  rw [hchars]
  exact fun hp => h (Text.prefix_append_cons (by decide) hp)

/-- **A link without a plugin is read from its part before the fragment.** -/
theorem parseShadowsocks_ssLink {core : String} (name : String) (hhash : '#' ∉ core.toList)
    (hs : ¬ "SS://".toList <+: core.toList)
    (hp : Text.containsIgnoreCase pluginKey core.toList = false) :
    parseShadowsocks (ssLink core name) = match Text.cutLast '@' core.toList with
      | some (userInfo, rest) => parseSip002 name core (String.ofList userInfo) (String.ofList rest)
      | none => parseLegacy name core := by
  have hcut : Text.cutFirst '#' (core.toList ++ '#' :: (urlEncode name).toList)
      = some (core.toList, (urlEncode name).toList) := Text.cutFirst_append hhash _
  have hplugin : Text.containsIgnoreCase "plugin=".toList (ssLink core name).toList = false :=
    (containsIgnoreCase_plugin_ssLink core name).trans hp
  unfold parseShadowsocks
  rw [hplugin]
  cases hlogin : Text.cutLast '@' core.toList with
  | none =>
    simp only [Bool.false_eq_true, if_false, removePrefix_ssLink hs, substringAfter, substringBefore,
      String.toList_ofList, hcut, String.ofList_toList, urlDecode_urlEncode, hlogin]
  | some parts =>
    simp only [Bool.false_eq_true, if_false, removePrefix_ssLink hs, substringAfter, substringBefore,
      String.toList_ofList, hcut, String.ofList_toList, urlDecode_urlEncode, hlogin]

theorem parse_ssLink (doubles : Doubles) {core name : String} {o : XrayOutbound}
    (h : parseShadowsocks (ssLink core name) = some o) :
    parse doubles (ssLink core name) = some o := by
  have hscheme : startsWithIgnoreCase (ssLink core name) "ss://" = true := by
    rw [startsWithIgnoreCase_iff]
    exact ⟨_, _, toList_ssLink core name, rfl⟩
  refine parse_of_parseOnce (trim_ssLink core name) ?_
  rw [parseOnce_ss hscheme, h]

/-! ## 3. Their parts -/

section Parts

variable {method password address : String} {port : Int}

theorem toList_login (method password : String) :
    (method ++ ":" ++ password).toList = method.toList ++ ':' :: password.toList := by
  simp

theorem substringBefore_login (h : ':' ∉ method.toList) (password missing : String) :
    substringBefore ':' (method ++ ":" ++ password) missing = method := by
  unfold substringBefore
  rw [toList_login, Text.cutFirst_append h]
  exact String.ofList_toList

theorem substringAfter_login (h : ':' ∉ method.toList) (password missing : String) :
    substringAfter ':' (method ++ ":" ++ password) missing = password := by
  unfold substringAfter
  rw [toList_login, Text.cutFirst_append h]
  exact String.ofList_toList

theorem cutLast_hostAndPort (address : String) (h : 0 ≤ port) :
    Text.cutLast ':' (hostAndPort address port).toList
      = some (address.toList, Nat.toDigits 10 port.toNat) := by
  rw [toList_hostAndPort address h]
  exact Text.cutLast_append (not_mem_toDigits (by decide) _) _

theorem substringBeforeLast_hostAndPort (address : String) (h : 0 ≤ port) :
    substringBeforeLast ':' (hostAndPort address port) = address := by
  unfold substringBeforeLast
  rw [cutLast_hostAndPort address h]
  exact String.ofList_toList

theorem parseIntOrNull_hostAndPort (address : String) (h : 0 ≤ port) (hport : port < 2 ^ 31) :
    parseIntOrNull (substringAfterLast ':' (hostAndPort address port)) = some port := by
  have hdigits : (toString port).toList = Nat.toDigits 10 port.toNat := by
    rw [Int.toString_eq_repr, Int.repr_eq_if, if_pos (by omega), Nat.toList_repr]
  have hread : Text.parseInteger 32 10 (toString port).toList = some port :=
    Text.parseInteger_toString (by omega) hport
  unfold substringAfterLast parseIntOrNull
  rw [cutLast_hostAndPort address h]
  simp only
  rw [String.toList_ofList, ← hdigits, hread]

theorem not_mem_hostAndPort {x : Char} (h : x ∉ address.toList) (hpos : 0 ≤ port) (hx : x ≠ ':')
    (hd : x.isDigit = false) : x ∉ (hostAndPort address port).toList := by
  rw [toList_hostAndPort address hpos, List.mem_append, List.mem_cons, not_or, not_or]
  exact ⟨h, hx, not_mem_toDigits hd _⟩

end Parts

/-! ## 4. What the forms are parsed to -/

/-- `base64(method:password)@host:port`. -/
def sip002Core (f : Base64.Flavour) (method password address : String) (port : Int) : String :=
  String.ofList (f.encode (toByteArray (method ++ ":" ++ password))) ++ "@" ++
    hostAndPort address port

/-- `base64(method:password@host:port)`. -/
def legacyCore (f : Base64.Flavour) (method password address : String) (port : Int) : String :=
  String.ofList (f.encode (toByteArray (method ++ ":" ++ password ++ "@" ++ hostAndPort address port)))

/-- A server that both forms can hold. -/
structure SsServer (method address : String) (port : Int) : Prop where
  method : ':' ∉ method.toList
  address : ∀ x ∈ ['@', '?', '#', '%', '+'], x ∉ address.toList
  pos : 0 < port
  port : port < 2 ^ 31

section Forms

variable (doubles : Doubles) (f : Base64.Flavour) {method address name : String} {port : Int}

theorem toList_sip002Core (method password address : String) (port : Int) :
    (sip002Core f method password address port).toList =
      f.encode (toByteArray (method ++ ":" ++ password)) ++ '@' :: (hostAndPort address port).toList := by
  unfold sip002Core
  rw [String.toList_append, String.toList_append, String.toList_ofList, List.append_assoc]
  rfl

/-- The marker of a SIP002 link. -/
def uotOf (core method : String) : Int :=
  if Text.containsIgnoreCase "uot=2".toList core.toList || "2022-".toList.isPrefixOf method.toList
  then 2 else 0

/-- **What a SIP002 link is parsed to**, if its host holds no plugin. -/
theorem parse_sip002 (hs : SsServer method address port) (password : String)
    (hname : isBlank name = false)
    (hplugin : Text.containsIgnoreCase pluginKey address.toList = false) :
    parse doubles (ssLink (sip002Core f method password address port) name) = some
      { protocol := "shadowsocks", name := name, address := address, port := port, method := method,
        password := password, uotVersion := uotOf (sip002Core f method password address port) method } := by
  have hchars := toList_sip002Core f method password address port
  have hrest : ∀ x ∈ ['@', '?', '#', '%', '+'], x ∉ (hostAndPort address port).toList := by
    intro x hx
    have hx' : x ≠ ':' ∧ x.isDigit = false := by
      simp only [List.mem_cons, List.not_mem_nil, or_false] at hx
      rcases hx with rfl | rfl | rfl | rfl | rfl <;> decide
    exact not_mem_hostAndPort (hs.address x hx) (Int.le_of_lt hs.pos) hx'.1 hx'.2
  have hhash : '#' ∉ (sip002Core f method password address port).toList := by
    rw [hchars, List.mem_append, List.mem_cons, not_or, not_or]
    exact ⟨not_mem_flavour (by decide), by decide, hrest '#' (by decide)⟩
  have hscheme : ¬ "SS://".toList <+: (sip002Core f method password address port).toList := by
    rw [hchars]
    intro hp
    have hmem := (Text.prefix_append_cons (by decide) hp).mem (show ':' ∈ "SS://".toList by decide)
    exact not_mem_flavour (by decide) hmem
  have hfree : Text.containsIgnoreCase pluginKey
      (sip002Core f method password address port).toList = false := by
    rw [hchars, Text.containsIgnoreCase_append_cons (by decide), containsIgnoreCase_plugin_flavour,
      containsIgnoreCase_plugin_hostAndPort address (Int.le_of_lt hs.pos), hplugin]
    rfl
  have hquery : substringBefore '?' (hostAndPort address port) (hostAndPort address port)
      = hostAndPort address port := by
    unfold substringBefore
    rw [Text.cutFirst_of_not_mem (hrest '?' (by decide))]
  have hdecode : urlDecode (hostAndPort address port) = hostAndPort address port :=
    (urlDecode_eq_self_iff _).2 (.inr ⟨hrest '%' (by decide), hrest '+' (by decide)⟩)
  refine parse_ssLink doubles ?_
  rw [parseShadowsocks_ssLink name hhash hscheme hfree, hchars,
    Text.cutLast_append (hrest '@' (by decide))]
  simp only [String.ofList_toList]
  unfold parseSip002
  simp only [hquery, hdecode, decodeBase64_flavour, Option.bind_eq_bind, Option.bind_some,
    utf8String_toByteArray, substringBefore_login hs.method, substringAfter_login hs.method,
    substringBeforeLast_hostAndPort address (Int.le_of_lt hs.pos),
    parseIntOrNull_hostAndPort address (Int.le_of_lt hs.pos) hs.port, ifBlank_of_isBlank_eq_false hname]
  rfl

/-- **What a legacy link is parsed to.** -/
theorem parse_legacy (hs : SsServer method address port) (password : String)
    (hname : isBlank name = false) :
    parse doubles (ssLink (legacyCore f method password address port) name) = some
      { protocol := "shadowsocks", name := name, address := address, port := port, method := method,
        password := password } := by
  have hchars : (legacyCore f method password address port).toList
      = f.encode (toByteArray (method ++ ":" ++ password ++ "@" ++ hostAndPort address port)) :=
    String.toList_ofList
  have hat : '@' ∉ (hostAndPort address port).toList :=
    not_mem_hostAndPort (hs.address '@' (by decide)) (Int.le_of_lt hs.pos) (by decide) (by decide)
  have hscheme : ¬ "SS://".toList <+: (legacyCore f method password address port).toList := by
    rw [hchars]
    intro hp
    have hmem := hp.mem (show ':' ∈ "SS://".toList by decide)
    exact not_mem_flavour (by decide) hmem
  have hcore : substringBefore '#' (legacyCore f method password address port)
      (legacyCore f method password address port) = legacyCore f method password address port := by
    unfold substringBefore
    rw [hchars, Text.cutFirst_of_not_mem (not_mem_flavour (by decide))]
  have hsplit : (method ++ ":" ++ password ++ "@" ++ hostAndPort address port).toList
      = (method ++ ":" ++ password).toList ++ '@' :: (hostAndPort address port).toList := by
    simp
  refine parse_ssLink doubles ?_
  rw [parseShadowsocks_ssLink name (hchars ▸ not_mem_flavour (by decide)) hscheme
    (hchars ▸ containsIgnoreCase_plugin_flavour f _), hchars,
    Text.cutLast_of_not_mem (not_mem_flavour (by decide))]
  simp only
  unfold parseLegacy
  rw [hcore]
  unfold legacyCore
  simp only [decodeBase64_flavour, Option.bind_eq_bind, Option.bind_some, utf8String_toByteArray,
    hsplit, Text.cutLast_append hat, String.ofList_toList, substringBefore_login hs.method,
    substringAfter_login hs.method, substringBeforeLast_hostAndPort address (Int.le_of_lt hs.pos),
    parseIntOrNull_hostAndPort address (Int.le_of_lt hs.pos) hs.port, ifBlank_of_isBlank_eq_false hname]
  rfl

end Forms

/-! ## 5. A link that was written -/

/-- **A Shadowsocks outbound is read back from its link**, with its name, endpoint, method and
    password, unless its host itself reads as a plugin: the search for one takes no notice of case. -/
theorem parse_toLink_shadowsocks (doubles : Doubles) {o : XrayOutbound}
    (hprotocol : o.protocol = "shadowsocks") (hs : SsServer o.method o.address o.port)
    (hname : isBlank o.name = false) (haddress : isBlank o.address = false)
    (hplugin : Text.containsIgnoreCase "plugin=".toList o.address.toList = false) :
    ∃ link o', toLink o = some link ∧ parse doubles link = some o' ∧ o'.name = o.name ∧
      o'.address = o.address ∧ o'.port = o.port ∧ o'.method = o.method ∧
      o'.password = o.password := by
  have hfragment : fragment o = "#" ++ urlEncode o.name := by
    unfold fragment
    rw [ifBlank_of_isBlank_eq_false hname]
  have hlink : toLink o
      = some (ssLink (sip002Core ⟨true, false⟩ o.method o.password o.address o.port) o.name) := by
    unfold toLink linkOf
    rw [haddress, decide_eq_true hs.pos, hprotocol, hfragment]
    simp only [ssLink, sip002Core, String.append_assoc]
    rfl
  exact ⟨_, _, hlink, parse_sip002 doubles ⟨true, false⟩ hs o.password hname hplugin, rfl, rfl, rfl,
    rfl, rfl⟩

/-- A Shadowsocks server at a host. -/
def ssOutbound (address : String) : XrayOutbound where
  protocol := "shadowsocks"
  name := "a #1 @ 100%"
  address := address
  port := 8388
  method := "aes-256-gcm"
  password := "p:w@rd+="

theorem parse_toLink_ssOutbound : isBlank (ssOutbound "example.com").address = false ∧
    ∃ link o', toLink (ssOutbound "example.com") = some link ∧
      parse (fun _ => none) link = some o' ∧ o'.password = "p:w@rd+=" := by
  have hserver : SsServer "aes-256-gcm" "example.com" 8388 :=
    ⟨by decide, by simp only [List.forall_mem_cons]; decide, by decide, by decide⟩
  obtain ⟨link, o', hlink, hparse, -, -, -, -, hpassword⟩ :=
    parse_toLink_shadowsocks (fun _ => none) (o := ssOutbound "example.com") rfl hserver (by decide)
      (by decide) (by decide)
  exact ⟨by decide, link, o', hlink, hparse, hpassword⟩

/-- The link of a host that spells the key in capitals is refused. -/
theorem plugin_host_refused : SsServer "aes-256-gcm" "PLUGIN=1" 8388 ∧
    (∀ c ∈ "PLUGIN=1".toList, isWhitespace c = false) ∧ ¬ "plugin=".toList <:+: "PLUGIN=1".toList ∧
    ∃ link, toLink (ssOutbound "PLUGIN=1") = some link ∧ ∀ doubles, parse doubles link = none := by
  have hserver : SsServer "aes-256-gcm" "PLUGIN=1" 8388 :=
    ⟨by decide, by simp only [List.forall_mem_cons]; decide, by decide, by decide⟩
  have hvisible : "PLUGIN=1".toList.all (fun c => !isWhitespace c) = true := by decide
  have hplugin : ¬ "plugin=".toList <:+: "PLUGIN=1".toList := by
    intro h
    exact absurd (h.mem (show 'p' ∈ "plugin=".toList by decide)) (by decide)
  refine ⟨hserver, fun c hc => by simpa using List.all_eq_true.1 hvisible c hc, hplugin, ?_⟩
  have hsome : (toLink (ssOutbound "PLUGIN=1")).isSome = true := by decide +kernel
  obtain ⟨link, hlink⟩ := Option.isSome_iff_exists.1 hsome
  refine ⟨link, hlink, fun doubles => ?_⟩
  have hforms : (toLink (ssOutbound "PLUGIN=1")).all (fun l =>
      [trim l, urlDecode (trim l), withDecodedFragment (trim l)].all fun form =>
        startsWithIgnoreCase form "ss://" && (parseShadowsocks form).isNone) = true := by
    decide +kernel
  rw [hlink, Option.all_some] at hforms
  unfold parse
  rw [List.findSome?_eq_none_iff]
  intro form hform
  have hrefused := List.all_eq_true.1 hforms form hform
  rw [Bool.and_eq_true, Option.isNone_iff_eq_none] at hrefused
  rw [parseOnce_ss hrefused.1, hrefused.2]

/-! ## 6. The two forms of one server -/

/-- What stands in the `servers` entry of an outbound configuration. -/
def serverAt (json : JsonObject) (name : String) : Option Json.Leaf :=
  Json.at? [.key "settings", .key "servers", .index 0, .key name] (.obj json)

/-- An outbound configuration of the given server. -/
def Carries (json : JsonObject) (method password address : String) (port : Int) : Prop :=
  serverAt json "method" = some (.str method) ∧ serverAt json "password" = some (.str password) ∧
    serverAt json "address" = some (.str address) ∧ serverAt json "port" = some (.int port)

/-- Both forms of a link, in base64 of the flavours `f` and `g`, give the same configuration, and it is
    the one of the server. -/
def FormsAgree (doubles : Doubles) (f g : Base64.Flavour) (method password address : String)
    (port : Int) (name : String) : Prop :=
  ∃ o o', parse doubles (ssLink (sip002Core f method password address port) name) = some o ∧
    parse doubles (ssLink (legacyCore g method password address port) name) = some o' ∧
    XrayConfig.outboundJson doubles o = XrayConfig.outboundJson doubles o' ∧
    Carries (XrayConfig.outboundJson doubles o) method password address port

/-- A Shadowsocks server with a marker. -/
def ssParsed (method password address name : String) (port uot : Int) : XrayOutbound where
  protocol := "shadowsocks"
  name := name
  address := address
  port := port
  method := method
  password := password
  uotVersion := uot

section Configuration

variable (doubles : Doubles) (method password address name : String) (port uot : Int)

theorem outboundJson_ssParsed :
    XrayConfig.outboundJson doubles (ssParsed method password address name port uot)
      = [("tag", .str "proxy"), ("protocol", .str "shadowsocks"),
         ("settings", .obj (XrayConfig.shadowsocksSettings
           (ssParsed method password address name port uot)))] := rfl

theorem carries_ssParsed :
    Carries (XrayConfig.outboundJson doubles (ssParsed method password address name port uot))
      method password address port :=
  ⟨rfl, rfl, rfl, rfl⟩

/-- The marker is written for the 2022 ciphers only. -/
theorem serverAt_uot :
    serverAt (XrayConfig.outboundJson doubles (ssParsed method password address name port uot)) "uot"
      = if "2022-".toList.isPrefixOf method.toList && decide (0 < uot) then some (.bool true)
        else none := by
  rw [outboundJson_ssParsed]
  unfold serverAt XrayConfig.shadowsocksSettings ssParsed
  dsimp only
  split
  · rfl
  · rfl

end Configuration

section Agree

variable (doubles : Doubles) (f g : Base64.Flavour) {method address name : String} {port : Int}

/-- Without the marker both forms give one configuration. -/
theorem formsAgree_of_not_prefix (hs : SsServer method address port) (heq : '=' ∉ address.toList)
    (hname : isBlank name = false) (password : String) (hp : ¬ "2022-".toList <+: method.toList) :
    FormsAgree doubles f g method password address port name := by
  have hsip := parse_sip002 doubles f hs password hname
    (Text.containsIgnoreCase_of_not_mem (by decide) heq)
  have hlegacy := parse_legacy doubles g hs password hname
  have hpre : "2022-".toList.isPrefixOf method.toList = false := by
    rw [Bool.eq_false_iff]
    exact fun h => hp (List.isPrefixOf_iff_prefix.1 h)
  have hjson : ∀ uot, XrayConfig.outboundJson doubles
      (ssParsed method password address name port uot)
        = XrayConfig.outboundJson doubles (ssParsed method password address name port 0) := by
    intro uot
    rw [outboundJson_ssParsed, outboundJson_ssParsed]
    unfold XrayConfig.shadowsocksSettings ssParsed
    dsimp only
    rw [hpre]
    rfl
  exact ⟨_, _, hsip, hlegacy, hjson _, carries_ssParsed doubles method password address name port _⟩

/-- One form of a 2022 server has the marker, the other has none. -/
theorem not_formsAgree_of_prefix (hs : SsServer method address port) (heq : '=' ∉ address.toList)
    (hname : isBlank name = false) (password : String) (hp : "2022-".toList <+: method.toList) :
    ¬ FormsAgree doubles f g method password address port name := by
  rintro ⟨o, o', ho, ho', hjson, -⟩
  rw [parse_sip002 doubles f hs password hname
    (Text.containsIgnoreCase_of_not_mem (by decide) heq), Option.some.injEq] at ho
  rw [parse_legacy doubles g hs password hname, Option.some.injEq] at ho'
  have hpre := List.isPrefixOf_iff_prefix.2 hp
  have huot : uotOf (sip002Core f method password address port) method = 2 := by
    unfold uotOf
    rw [hpre, Bool.or_true]
    rfl
  have hmarked := serverAt_uot doubles method password address name port 2
  have hbare := serverAt_uot doubles method password address name port 0
  rw [hpre] at hmarked hbare
  have hdiff : some (Json.Leaf.bool true) = none := by
    calc some (Json.Leaf.bool true)
        = serverAt (XrayConfig.outboundJson doubles o) "uot" := by
          rw [← ho, huot]
          exact hmarked.symm
      _ = serverAt (XrayConfig.outboundJson doubles o') "uot" := by rw [hjson]
      _ = none := by
          rw [← ho']
          exact hbare
  cases hdiff

/-- **The two forms agree exactly where the method is none of the 2022 ciphers.** The host may be any
    without a separator of the link and without a `=`, so in particular one of letters, digits, dots
    and hyphens. -/
theorem forms_agree_iff (hs : SsServer method address port) (heq : '=' ∉ address.toList)
    (hname : isBlank name = false) (password : String) :
    FormsAgree doubles f g method password address port name ↔
      ¬ "2022-".toList <+: method.toList := by
  constructor
  · intro h hp
    exact not_formsAgree_of_prefix doubles f g hs heq hname password hp h
  · exact formsAgree_of_not_prefix doubles f g hs heq hname password

end Agree

theorem ssServer_example {method : String} (h : ':' ∉ method.toList) :
    SsServer method "a-1.example.com" 8388 :=
  ⟨h, by simp only [List.forall_mem_cons]; decide, by decide, by decide⟩

theorem forms_agree_aes :
    FormsAgree (fun _ => none) ⟨true, false⟩ ⟨false, true⟩ "aes-256-gcm" "p:w@rd" "a-1.example.com"
      8388 "home" := by
  have hp : ¬ "2022-".toList <+: "aes-256-gcm".toList := by decide
  exact (forms_agree_iff _ _ _ (ssServer_example (by decide)) (by decide) (by decide) "p:w@rd").2 hp

/-- A 2022 server gets the marker from one form of its link only. -/
theorem forms_differ_2022 : ':' ∉ "2022-blake3-aes-128-gcm".toList ∧ isBlank "home" = false ∧
    ¬ FormsAgree (fun _ => none) ⟨true, false⟩ ⟨true, false⟩ "2022-blake3-aes-128-gcm" "p:w@rd"
      "a-1.example.com" 8388 "home" := by
  have hp : "2022-".toList <+: "2022-blake3-aes-128-gcm".toList := by decide
  exact ⟨by decide, by decide, not_formsAgree_of_prefix _ _ _ (ssServer_example (by decide))
    (by decide) (by decide) "p:w@rd" hp⟩

end XrayShareLink

end SwiftVpn
