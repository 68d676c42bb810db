/-
  File:      SwiftVpn/Xray/Credentials.lean
  Subject:   WHICH NAMES AND CREDENTIALS SURVIVE A URI SHARE LINK.

  The serializer escapes once. The parser decodes the user info and the fragment twice, by
  `java.net.URI` and then by `URLDecoder`, which also turns a `+` into a space.

  * `Exportable` -- the outbounds in question: a host of letters, digits, dots and hyphens, a port, a
    name and the credentials of the protocol, none of them blank;
  * `RoundTrips` -- the link exists, parses, and gives back name, address, port and credentials;
  * `roundTrips_iff` -- exactly when the host is one that a URI accepts, the second decoding leaves the
    credentials and the name alone, and nothing is set that the protocol has no place for;
  * `password_lost` -- a password with a `+`.
-/
import SwiftVpn.Xray.RoundTrip

namespace SwiftVpn

namespace XrayShareLink

/-! ## 1. The outbounds and the property -/

/-- The credentials of the protocol. -/
def usedCredentials (o : XrayOutbound) : List String :=
  if o.protocol = "vless" then [o.uuid]
  else if o.protocol = "socks" ∨ o.protocol = "http" then [o.username, o.password]
  else [o.password]

/-- The credentials the protocol has no place for. -/
def unusedCredentials (o : XrayOutbound) : List String :=
  if o.protocol = "vless" then [o.username, o.password]
  else if o.protocol = "socks" ∨ o.protocol = "http" then [o.uuid]
  else [o.uuid, o.username]

/-- The user info of the link, before it is escaped. -/
def userInfoOf (o : XrayOutbound) : String :=
  if o.protocol = "vless" then o.uuid
  else if o.protocol = "socks" ∨ o.protocol = "http" then o.username ++ ":" ++ o.password
  else o.password

/-- The outbounds in question. A letter may be of any script. -/
structure Exportable (o : XrayOutbound) : Prop where
  protocol : o.protocol ∈ ["vless", "trojan", "hysteria2", "socks", "http"]
  address : ∀ c ∈ o.address.toList,
    c.isAlphanum = true ∨ c = '.' ∨ c = '-' ∨ 127 < c.toNat
  port : 1 ≤ o.port ∧ o.port ≤ 65535
  name : isBlank o.name = false
  credentials : ∀ s ∈ usedCredentials o, isBlank s = false
  username : ':' ∉ o.username.toList

/-- Name, endpoint and credentials are the same. -/
def SameLogin (o o' : XrayOutbound) : Prop :=
  o'.name = o.name ∧ o'.address = o.address ∧ o'.port = o.port ∧ o'.uuid = o.uuid ∧
    o'.username = o.username ∧ o'.password = o.password

instance (o o' : XrayOutbound) : Decidable (SameLogin o o') :=
  inferInstanceAs (Decidable (_ ∧ _))

/-- The link exists, parses, and says the same. -/
def RoundTrips (doubles : Doubles) (o : XrayOutbound) : Prop :=
  ∃ link o', toLink o = some link ∧ parse doubles link = some o' ∧ SameLogin o o'

theorem roundTrips_of_parse {doubles : Doubles} {o o' : XrayOutbound} {link : String}
    (hl : toLink o = some link) (hp : parse doubles link = some o') :
    RoundTrips doubles o ↔ SameLogin o o' := by
  constructor
  · rintro ⟨link', o'', hl', hp', hs⟩
    rw [hl, Option.some.injEq] at hl'
    subst hl'
    rw [hp, Option.some.injEq] at hp'
    subst hp'
    exact hs
  · exact fun hs => ⟨link, o', hl, hp, hs⟩

/-! ## 2. The name -/

/-- The endpoint as a text survives decoding. -/
theorem verbatim_hostAndPort {address : String} {port : Int}
    (hh : Uri.isPlainHost address.toList = true) (hpos : 0 < port) :
    Verbatim (hostAndPort address port) := by
  have hmem : ∀ c ∈ (hostAndPort address port).toList, c ≠ '%' ∧ c ≠ '+' := by
    intro c hc
    have halnum : ∀ c : Char, c.isAlphanum = true → c ≠ '%' ∧ c ≠ '+' := by
      intro c hc
      constructor <;> (rintro rfl; revert hc; decide)
    rw [toList_hostAndPort address (Int.le_of_lt hpos), List.mem_append, List.mem_cons] at hc
    rcases hc with hc | rfl | hc
    · have := Uri.mem_isPlainHost hh hc
      simp only [Uri.hostChar, Bool.or_eq_true, beq_iff_eq] at this
      rcases this with ((h | rfl) | rfl) | rfl
      · exact halnum c h
      all_goals decide
    · decide
    · exact halnum c (Uri.isAlphanum_of_isDigit
        (Nat.isDigit_of_mem_toDigits (by decide) (by decide) hc))
  right
  exact ⟨fun h => (hmem _ h).1 rfl, fun h => (hmem _ h).2 rfl⟩

/-- **A name comes back exactly when the second decoding leaves it alone.** -/
theorem rereadName_eq_iff {o : XrayOutbound} (hh : Uri.isPlainHost o.address.toList = true)
    (hpos : 0 < o.port) (hn : isBlank o.name = false) :
    rereadName o = o.name ↔ Verbatim o.name := by
  have hname : ifBlank o.name (hostAndPort o.address o.port) = o.name := by
    simp [ifBlank, hn]
  unfold rereadName
  rw [hname, ← urlDecode_eq_self_iff]
  cases hb : isBlank (urlDecode o.name) with
  | false => simp [ifBlank, hb]
  | true =>
    -- nothing is left of the name: what comes back is the endpoint, which is no such name
    have hendpoint := (urlDecode_eq_self_iff _).2 (verbatim_hostAndPort hh hpos)
    simp only [ifBlank, hb, if_true]
    constructor
    · intro e
      rw [← e, hendpoint, isBlank_hostAndPort] at hb
      cases hb
    · intro e
      rw [e, hn] at hb
      cases hb

/-! ## 3. The login of SOCKS and HTTP -/

theorem substring_login {user : String} (hu : ':' ∉ user.toList) (hne : isBlank user = false)
    (password text : String) :
    (substringBefore ':' text "" = user ∧ substringAfter ':' text "" = password) ↔
      text = user ++ ":" ++ password := by
  have hjoin : (user ++ ":" ++ password).toList = user.toList ++ ':' :: password.toList := by
    simp
  unfold substringBefore substringAfter
  constructor
  · rintro ⟨h1, h2⟩
    cases hcut : Text.cutFirst ':' text.toList with
    | none =>
      rw [hcut] at h1
      simp only at h1
      rw [← h1] at hne
      cases hne
    | some parts =>
      obtain ⟨l, r⟩ := parts
      rw [hcut] at h1 h2
      simp only at h1 h2
      rw [← String.toList_inj, hjoin, Text.cutFirst_eq_some hcut, ← h1, ← h2]
      simp
  · rintro rfl
    rw [hjoin, Text.cutFirst_append hu]
    simp

/-! ## 4. When a login survives -/

section Survives

variable {doubles : Doubles} {o : XrayOutbound}

/-- The address does not start with a bracket. -/
theorem Exportable.head (h : Exportable o) : o.address.toList.head? ≠ some '[' := by
  intro hb
  have := h.address '[' (List.mem_of_mem_head? hb)
  revert this
  decide

theorem Exportable.linkable (h : Exportable o) (hh : Uri.isPlainHost o.address.toList = true) :
    Linkable o := by
  have hport := h.port
  exact ⟨Uri.isHost_of_isPlainHost hh, by omega, by omega⟩

/-- The link of an exportable outbound, whatever its host. -/
theorem Exportable.link (h : Exportable o) : ∃ link user query, linkOf o = some link ∧
    link.toList = linkChars o.protocol.toList user o.address o.port query
      (ifBlank o.name (hostAndPort o.address o.port)) := by
  have hcred := h.credentials
  have hprotocol := h.protocol
  simp only [List.mem_cons, List.not_mem_nil, or_false] at hprotocol
  rcases hprotocol with hp | hp | hp | hp
  · obtain ⟨link, hl, hc⟩ := linkOf_vless hp
    exact ⟨link, _, _, hl, hp ▸ hc⟩
  · obtain ⟨link, hl, hc⟩ := linkOf_trojan hp
    exact ⟨link, _, _, hl, hp ▸ hc⟩
  · obtain ⟨link, hl, hc⟩ := linkOf_hysteria2 hp
    exact ⟨link, _, _, hl, hp ▸ hc⟩
  · have hused : usedCredentials o = [o.username, o.password] := by
      unfold usedCredentials
      rcases hp with hp | hp <;> (rw [hp]; rfl)
    rw [hused] at hcred
    obtain ⟨link, hl, hc⟩ := linkOf_socksHttp hp (hcred _ (by simp)) (hcred _ (by simp))
    exact ⟨link, _, _, hl, hc⟩

/-- Whatever form of the link parses, its host is one that a URI accepts. -/
theorem Exportable.isHost_of_parse (h : Exportable o) {link : String} {o' : XrayOutbound}
    (hl : toLink o = some link) (hp : parse doubles link = some o') :
    Uri.isHost o'.address.toList = true := by
  have hlink : linkOf o = some link := by
    unfold toLink at hl
    split at hl
    · cases hl
    · exact hl
  obtain ⟨link', user, query, hl', hchars⟩ := h.link
  rw [hlink, Option.some.injEq] at hl'
  subst hl'
  have hprotocol := h.protocol
  have hstart : ∀ {lit scheme : String}, o.protocol = scheme →
      lit.toList = scheme.toList ++ [':', '/', '/'] →
      scheme.toList.head?.any (fun c => !isWhitespace c) = true →
      startsWithIgnoreCase (trim link) lit = true := by
    intro lit scheme hs hlit hw
    rw [hs] at hchars
    rw [trim_link hchars hw]
    exact startsWithIgnoreCase_link hchars hlit
  simp only [List.mem_cons, List.not_mem_nil, or_false] at hprotocol
  rcases hprotocol with hs | hs | hs | hs | hs
  · obtain ⟨form, hform, ho⟩ := parse_cases "vless://" (by decide)
      (hstart hs (by decide) (by decide)) hp
    rw [parseOnce_vless hform] at ho
    exact (parseVless_cases ho).2.1.host
  · obtain ⟨form, hform, ho⟩ := parse_cases "trojan://" (by decide)
      (hstart hs (by decide) (by decide)) hp
    rw [parseOnce_trojan hform] at ho
    exact (parseTrojan_cases ho).2.1.host
  · obtain ⟨form, hform, ho⟩ := parse_cases "hysteria2://" (by decide)
      (hstart hs (by decide) (by decide)) hp
    rw [parseOnce_hysteria2 hform] at ho
    exact isHost_of_parseHysteria2 ho
  · obtain ⟨form, hform, ho⟩ := parse_cases "socks://" (by decide)
      (hstart hs (by decide) (by decide)) hp
    rw [parseOnce_socks hform] at ho
    exact isHost_of_parseSocksHttp ho
  · obtain ⟨form, hform, ho⟩ := parse_cases "http://" (by decide)
      (hstart hs (by decide) (by decide)) hp
    rw [parseOnce_http hform] at ho
    exact isHost_of_parseSocksHttp ho

/-- With a host that a URI accepts, what is lost is lost by the second decoding or was never
    written. -/
theorem Exportable.roundTrips_of_isPlainHost (h : Exportable o)
    (hh : Uri.isPlainHost o.address.toList = true) :
    RoundTrips doubles o ↔
      Verbatim (userInfoOf o) ∧ Verbatim o.name ∧ ∀ s ∈ unusedCredentials o, s = "" := by
  have hl := h.linkable hh
  have hname := rereadName_eq_iff hh hl.pos h.name
  have hcred := h.credentials
  have hprotocol := h.protocol
  simp only [List.mem_cons, List.not_mem_nil, or_false] at hprotocol
  rcases hprotocol with hs | hs | hs | hs
  · have hunused : unusedCredentials o = [o.username, o.password] := if_pos hs
    have hinfo : userInfoOf o = o.uuid := if_pos hs
    obtain ⟨link, hlink, hp⟩ := parse_toLink_vless doubles hl hs
    rw [roundTrips_of_parse hlink hp, hunused, hinfo, ← hname, ← urlDecode_eq_self_iff]
    unfold SameLogin
    dsimp only
    constructor
    · rintro ⟨hn, -, -, hu, hname, hpw⟩
      exact ⟨hu, hn, by simp [← hname, ← hpw]⟩
    · rintro ⟨hu, hn, hrest⟩
      exact ⟨hn, rfl, rfl, hu, (hrest _ (by simp)).symm, (hrest _ (by simp)).symm⟩
  · have hunused : unusedCredentials o = [o.uuid, o.username] := by simp [unusedCredentials, hs]
    have hinfo : userInfoOf o = o.password := by simp [userInfoOf, hs]
    obtain ⟨link, hlink, hp⟩ := parse_toLink_trojan doubles hl hs
    rw [roundTrips_of_parse hlink hp, hunused, hinfo, ← hname, ← urlDecode_eq_self_iff]
    unfold SameLogin
    dsimp only
    constructor
    · rintro ⟨hn, -, -, hu, hname, hpw⟩
      exact ⟨hpw, hn, by simp [← hu, ← hname]⟩
    · rintro ⟨hpw, hn, hrest⟩
      exact ⟨hn, rfl, rfl, (hrest _ (by simp)).symm, (hrest _ (by simp)).symm, hpw⟩
  · have hunused : unusedCredentials o = [o.uuid, o.username] := by simp [unusedCredentials, hs]
    have hinfo : userInfoOf o = o.password := by simp [userInfoOf, hs]
    obtain ⟨link, hlink, hp⟩ := parse_toLink_hysteria2 doubles hl hs
    rw [roundTrips_of_parse hlink hp, hunused, hinfo, ← hname, ← urlDecode_eq_self_iff]
    unfold SameLogin
    dsimp only
    constructor
    · rintro ⟨hn, -, -, hu, hname, hpw⟩
      exact ⟨hpw, hn, by simp [← hu, ← hname]⟩
    · rintro ⟨hpw, hn, hrest⟩
      exact ⟨hn, rfl, rfl, (hrest _ (by simp)).symm, (hrest _ (by simp)).symm, hpw⟩
  · have hne : o.protocol ≠ "vless" := by
      intro e
      rcases hs with hs | hs <;> (rw [e] at hs; revert hs; decide)
    have hunused : unusedCredentials o = [o.uuid] := by simp [unusedCredentials, hne, hs]
    have hinfo : userInfoOf o = o.username ++ ":" ++ o.password := by simp [userInfoOf, hne, hs]
    simp only [usedCredentials, if_neg hne, if_pos hs, List.forall_mem_cons] at hcred
    obtain ⟨link, hlink, hp⟩ := parse_toLink_socksHttp doubles hl hs hcred.1 hcred.2.1
    -- the parts are those of the login exactly where the login decodes to itself
    have hlogin := substring_login h.username hcred.1 o.password
      (urlDecode (o.username ++ ":" ++ o.password))
    rw [roundTrips_of_parse hlink hp, hunused, hinfo, ← hname, ← urlDecode_eq_self_iff, ← hlogin]
    unfold SameLogin
    dsimp only
    constructor
    · rintro ⟨hn, -, -, hu, hlogin⟩
      exact ⟨hlogin, hn, by simp [← hu]⟩
    · rintro ⟨hlogin, hn, hrest⟩
      exact ⟨hn, rfl, rfl, (hrest _ (by simp)).symm, hlogin⟩

/-- **Which logins survive.** The host is one that a URI accepts, the second decoding leaves the
    credentials and the name alone, and nothing else is set. -/
theorem roundTrips_iff (doubles : Doubles) (o : XrayOutbound) (h : Exportable o) :
    RoundTrips doubles o ↔
      Uri.isPlainHost o.address.toList = true ∧ Verbatim (userInfoOf o) ∧ Verbatim o.name ∧
        ∀ s ∈ unusedCredentials o, s = "" := by
  constructor
  · intro hr
    obtain ⟨link, o', hl, hp, hs⟩ := id hr
    have hhost := h.isHost_of_parse hl hp
    rw [hs.2.1] at hhost
    have hplain := Uri.isPlainHost_of_isHost hhost h.head
    exact ⟨hplain, (h.roundTrips_of_isPlainHost hplain).1 hr⟩
  · rintro ⟨hplain, hrest⟩
    exact (h.roundTrips_of_isPlainHost hplain).2 hrest

end Survives

/-- A Trojan server with the password `password`. -/
def trojanServer (password : String) : XrayOutbound :=
  { protocol := "trojan", name := "Home", address := "example.com", port := 443,
    password := password }

theorem exportable_trojanServer (password : String) (h : isBlank password = false) :
    Exportable (trojanServer password) where
  protocol := by simp [trojanServer]
  address := by
    have hall : "example.com".toList.all
        (fun c => c.isAlphanum || c == '.' || c == '-' || decide (127 < c.toNat)) = true := by decide
    intro c hc
    simpa [or_assoc] using List.all_eq_true.1 hall c hc
  port := by simp [trojanServer]
  name := by
    have hname : isBlank "Home" = false := by decide
    exact hname
  credentials := by
    intro s hs
    rw [List.mem_singleton.1 hs]
    exact h
  username := by simp [trojanServer]

/-- A percent sign that starts no escape survives. -/
theorem roundTrips_iff_percent :
    Exportable (trojanServer "100%") ∧ RoundTrips (fun _ => none) (trojanServer "100%") :=
  have he := exportable_trojanServer "100%" (by decide)
  ⟨he, (roundTrips_iff _ _ he).2 (by decide)⟩

/-- **A password with a `+` comes back with a space.** -/
theorem password_lost :
    Exportable (trojanServer "a+b") ∧ ¬ RoundTrips (fun _ => none) (trojanServer "a+b") := by
  have he := exportable_trojanServer "a+b" (by decide)
  refine ⟨he, ?_⟩
  rw [he.roundTrips_of_isPlainHost (by decide)]
  decide

end XrayShareLink

end SwiftVpn
