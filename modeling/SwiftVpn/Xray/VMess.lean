/-
  File:      SwiftVpn/Xray/VMess.lean
  Subject:   WHAT A VMESS LINK KEEPS.

  Both forms of a VMess link are parsed into one record, which is written back as the base64 of a JSON
  object (`vmessMembers`) and in no other way.

  * `parse_toLink_vmess` -- the outbound that comes back, field by field (`rereadVmess`);
  * `VmessParsed` -- what is known of an outbound that either form gave;
  * `VmessKept` -- the object has no place for a security other than TLS, for a gRPC service name
    beside the path, and for mode and extra of XHTTP;
  * `vmess_kept_iff` -- the configuration comes back exactly where there is nothing of this to lose,
    and the name always;
  * `reality_lost` -- a REALITY server comes back with TLS.
-/
import SwiftVpn.Lib.JsonLayout
import SwiftVpn.Xray.Transport

namespace SwiftVpn

namespace XrayShareLink

/-! ## 1. The link -/

/-- The bytes as a padded base64 text. -/
def base64 (bs : List UInt8) : String := String.ofList (Base64.encode Base64.digit true bs)

theorem toList_base64 (bs : List UInt8) : (base64 bs).toList = Base64.encode Base64.digit true bs :=
  String.toList_ofList

section Encoded

variable {bs : List UInt8} {c : Char}

theorem isBase64_of_mem_base64 (h : c ∈ (base64 bs).toList) : Base64.isBase64 c = true := by
  rw [toList_base64] at h
  exact Base64.Flavour.isBase64_of_mem (f := ⟨false, true⟩) h

theorem trim_base64 (bs : List UInt8) : trim (base64 bs) = base64 bs :=
  trim_flavour ⟨false, true⟩ bs

/-- **The bytes behind a base64 text that was written.** -/
theorem decodeBase64_base64 (bs : List UInt8) : decodeBase64 (base64 bs) = some bs :=
  decodeBase64_flavour ⟨false, true⟩ bs

/-- The body of a written link. -/
theorem removePrefix_base64 (bs : List UInt8) :
    removePrefix (removePrefix ("vmess://" ++ base64 bs) "vmess://") "VMESS://" = base64 bs := by
  rw [removePrefix_of_eq String.toList_append, String.ofList_toList]
  -- a second scheme would bring a colon, which is no base64 digit
  apply removePrefix_eq_self
  intro hp
  have hmem := hp.mem (show ':' ∈ "VMESS://".toList by decide)
  exact absurd (isBase64_of_mem_base64 hmem) (by decide)

theorem trim_vmess (bs : List UInt8) : trim ("vmess://" ++ base64 bs) = "vmess://" ++ base64 bs := by
  have hvisible : ∀ c ∈ ("vmess://" ++ base64 bs).toList, isWhitespace c = false := by
    have hscheme : "vmess://".toList.all (fun c => !isWhitespace c) = true := by decide
    intro c hc
    rw [String.toList_append, List.mem_append] at hc
    rcases hc with h | h
    · simpa using List.all_eq_true.1 hscheme c h
    · exact (isBase64_props (isBase64_of_mem_base64 h)).1
  exact trim_eq_self (fun c hc => hvisible c (List.mem_of_mem_head? hc))
    (fun c hc => hvisible c (List.mem_of_getLast? hc))

end Encoded

/-- **A written VMess link is parsed as the object in it.** -/
theorem parse_vmess {doubles : Doubles} {ms : List (String × String)}
    (hnodup : (ms.map Prod.fst).Nodup) {o : XrayOutbound}
    (ho : parseVmessJson (Json.texts ms) = some o) :
    parse doubles ("vmess://" ++ base64 (toByteArray (Json.render (.obj (Json.texts ms))))) = some o := by
  have hscheme : ∀ bs, startsWithIgnoreCase ("vmess://" ++ base64 bs) "vmess://" = true := by
    intro bs
    rw [startsWithIgnoreCase_iff]
    exact ⟨_, _, String.toList_append, rfl⟩
  refine parse_of_parseOnce (trim_vmess _) ?_
  rw [parseOnce_vmess (hscheme _)]
  unfold parseVmess
  simp only [removePrefix_base64, trim_base64, decodeBase64_base64, Option.bind_some,
    utf8String_toByteArray, Json.ofText_render doubles ms hnodup]
  exact ho

/-! ## 2. The outbound that comes back -/

/-- A stream, written and read: the security as `tls` or nothing, the path for the service name too. -/
def rereadVmessStream (st : XrayStream) : XrayStream where
  network := ifBlank st.network "tcp"
  security := if st.security = "tls" ∨ st.security = "reality" then "tls" else "none"
  sni := ifBlank st.sni st.host
  fingerprint := st.fingerprint
  alpn := st.alpn
  host := st.host
  path := ifBlank st.path "/"
  headerType := ifBlank st.headerType "none"
  serviceName := ifBlank st.path "/"

/-- An outbound, written and read. -/
def rereadVmess (o : XrayOutbound) : XrayOutbound :=
  { protocol := "vmess"
    name := ifBlank o.name (hostAndPort o.address o.port)
    address := o.address
    port := o.port
    uuid := o.uuid
    alterId := o.alterId
    security := ifBlank o.security "auto"
    stream := rereadVmessStream o.stream }

theorem optString_texts (ms : List (String × String)) (k fallback : String) :
    (Json.texts ms).optString k fallback = (ms.lookup k).getD fallback := by
  have hlookup : (Json.texts ms).lookup k = (ms.lookup k).map Json.str := by
    induction ms with
    | nil => rfl
    | cons m ms ih =>
      obtain ⟨k', v⟩ := m
      unfold Json.texts at ih ⊢
      rw [List.map_cons, List.lookup_cons, List.lookup_cons, ih]
      cases k == k' <;> rfl
  unfold JsonObject.optString
  rw [hlookup]
  cases ms.lookup k <;> rfl

theorem nodup_vmessMembers (o : XrayOutbound) : ((vmessMembers o).map Prod.fst).Nodup := by
  have hkeys : (vmessMembers o).map Prod.fst = ["v", "ps", "add", "port", "id", "aid", "scy", "net",
      "type", "host", "path", "tls", "sni", "alpn", "fp"] := rfl
  rw [hkeys]
  decide

/-- The members of the object, as the parser reads them. -/
theorem parseVmessJson_members {o : XrayOutbound} (haddr : isBlank o.address = false)
    (hport : -2 ^ 31 ≤ o.port ∧ o.port < 2 ^ 31) (haid : -2 ^ 31 ≤ o.alterId ∧ o.alterId < 2 ^ 31) :
    parseVmessJson (Json.texts (vmessMembers o)) = some (rereadVmess o) := by
  have hp : parseIntOrNull (toString o.port) = some o.port :=
    Text.parseInteger_toString hport.1 hport.2
  have ha : parseIntOrNull (toString o.alterId) = some o.alterId :=
    Text.parseInteger_toString haid.1 haid.2
  have hname := ifBlank_of_isBlank_eq_false (isBlank_ifBlank (s := o.name)
    (isBlank_hostAndPort o.address o.port)) (hostAndPort o.address o.port)
  have hscy := ifBlank_of_isBlank_eq_false (isBlank_ifBlank (s := o.security)
    (show isBlank "auto" = false by decide)) "auto"
  have hnet := ifBlank_of_isBlank_eq_false (isBlank_ifBlank (s := o.stream.network)
    (show isBlank "tcp" = false by decide)) "tcp"
  unfold parseVmessJson
  simp only [optString_texts, vmessMembers, List.lookup_cons, String.reduceBEq, Option.getD_some, hp,
    ha, hname, hscy, hnet, haddr]
  by_cases h : o.stream.security = "tls" ∨ o.stream.security = "reality"
  · simp [rereadVmess, rereadVmessStream, h, show equalsIgnoreCase "tls" "tls" = true by decide]
  · simp [rereadVmess, rereadVmessStream, h, show equalsIgnoreCase "" "tls" = false by decide,
      show equalsIgnoreCase "" "reality" = false by decide]

/-! ## 3. What either form gives -/

/-- What is known of an outbound that a VMess link gave. -/
structure VmessParsed (o : XrayOutbound) : Prop where
  protocol : o.protocol = "vmess"
  port : -2 ^ 31 ≤ o.port ∧ o.port < 2 ^ 31
  alterId : -2 ^ 31 ≤ o.alterId ∧ o.alterId < 2 ^ 31
  name : isBlank o.name = false
  network : isBlank o.stream.network = false

theorem parseIntOrNull_bounds (s : String) {default : Int}
    (h : -2 ^ 31 ≤ default ∧ default < 2 ^ 31) :
    -2 ^ 31 ≤ (parseIntOrNull s).getD default ∧ (parseIntOrNull s).getD default < 2 ^ 31 := by
  cases hn : parseIntOrNull s with
  | none => exact h
  | some n => exact Text.parseInteger_bounds hn

theorem vmessParsed_of_json {json : JsonObject} {o : XrayOutbound}
    (h : parseVmessJson json = some o) : VmessParsed o := by
  unfold parseVmessJson at h
  simp only at h
  split at h
  · cases h
  · rw [Option.some.injEq] at h
    subst h
    exact ⟨rfl, parseIntOrNull_bounds _ (by decide), parseIntOrNull_bounds _ (by decide),
      isBlank_ifBlank (isBlank_hostAndPort _ _), isBlank_ifBlank (by decide)⟩

theorem vmessParsed_of_query {body : String} {o : XrayOutbound}
    (h : parseVmessQuery body = some o) : VmessParsed o := by
  have hname : ∀ (uri : Uri) (fallback : String), isBlank fallback = false →
      isBlank (fragmentName uri fallback) = false := by
    intro uri fallback hf
    unfold fragmentName
    split
    · exact isBlank_ifBlank hf
    · exact hf
  unfold parseVmessQuery at h
  obtain ⟨uri, huri, h⟩ := Option.bind_eq_some_iff.1 h
  obtain ⟨uuid, huuid, h⟩ := Option.bind_eq_some_iff.1 h
  obtain ⟨host, hhost, h⟩ := Option.bind_eq_some_iff.1 h
  cases h
  have hport := portOr_bounds huri hhost 443 (by decide) (by decide)
  have hlo : -2 ^ 31 ≤ portOr uri 443 := by omega
  have haid : -2 ^ 31 ≤ (0 : Int) ∧ (0 : Int) < 2 ^ 31 := by decide
  exact ⟨rfl, ⟨hlo, hport.2⟩, haid, hname uri _ (isBlank_hostAndPort _ _), (streamFrom_nonblank _).1⟩

theorem vmessParsed_of_parse {doubles : Doubles} {raw : String} {o : XrayOutbound}
    (hscheme : startsWithIgnoreCase (trim raw) "vmess://" = true)
    (hp : parse doubles raw = some o) : VmessParsed o := by
  obtain ⟨form, hform, ho⟩ := parse_cases "vmess://" (by decide) hscheme hp
  rw [parseOnce_vmess hform] at ho
  unfold parseVmess at ho
  simp only at ho
  split at ho
  · exact vmessParsed_of_query ho
  · exact vmessParsed_of_json ho

/-- **The link of a parsed outbound, read back.** -/
theorem VmessParsed.parse_toLink (doubles : Doubles) {o : XrayOutbound} {link : String}
    (h : VmessParsed o) (hl : toLink o = some link) : parse doubles link = some (rereadVmess o) := by
  unfold toLink at hl
  split at hl
  · cases hl
  · rename_i hguard
    have haddr : isBlank o.address = false := by
      simp only [Bool.or_eq_true, not_or] at hguard
      simpa using hguard.1
    have hlink : linkOf o
        = some ("vmess://" ++ base64 (toByteArray (Json.render (.obj (Json.texts (vmessMembers o)))))) := by
      unfold linkOf
      rw [h.protocol]
      rfl
    rw [hlink, Option.some.injEq] at hl
    rw [← hl]
    exact parse_vmess (nodup_vmessMembers o) (parseVmessJson_members haddr h.port h.alterId)

/-! ## 4. What is lost -/

section Configuration

open XrayConfig

variable {doubles : Doubles} {o : XrayOutbound}

/-- There is nothing to lose: the object says no security but TLS, its path is the gRPC service name
    too, and it has neither mode nor extra. -/
structure VmessKept (doubles : Doubles) (o : XrayOutbound) : Prop where
  security : isBlank o.stream.security = true ∨ o.stream.security = "tls" ∨ o.stream.security = "none"
  serviceName : o.stream.network = "grpc" → o.stream.serviceName = ifBlank o.stream.path "/"
  xhttp : o.stream.network = "xhttp" ∨ o.stream.network = "splithttp" →
    isBlank o.stream.mode = true ∧
      (isBlank o.stream.extra = true ∨ Json.ofText doubles o.stream.extra = none)

theorem settings_rereadVmess (hv : o.protocol = "vmess") : settings (rereadVmess o) = settings o := by
  have hscy := ifBlank_of_isBlank_eq_false (isBlank_ifBlank (s := o.security)
    (show isBlank "auto" = false by decide)) "auto"
  simp [settings, hv, rereadVmess, vmessSettings, vnext, vmessUser, hscy]

theorem tlsSettings_rereadVmess (o : XrayOutbound) : tlsSettings (rereadVmess o) = tlsSettings o := by
  have hserver : ifBlank (ifBlank o.stream.sni o.stream.host) (ifBlank o.stream.host o.address)
      = ifBlank o.stream.sni (ifBlank o.stream.host o.address) := by
    cases hs : isBlank o.stream.sni with
    | false => rw [ifBlank_of_isBlank_eq_false hs, ifBlank_of_isBlank_eq_false hs]
    | true => cases hh : isBlank o.stream.host <;> simp [ifBlank, hs, hh]
  unfold tlsSettings
  simp only [rereadVmess, rereadVmessStream, hserver]

theorem streamSettings_rereadVmess (hsec : isBlank o.stream.security = true ∨
      o.stream.security = "tls" ∨ o.stream.security = "none")
    (hnet : isBlank o.stream.network = false)
    (hsettings : networkSettings doubles (rereadVmessStream o.stream) = networkSettings doubles o.stream) :
    streamSettings doubles (rereadVmess o) = streamSettings doubles o := by
  have hstream : (rereadVmess o).stream = rereadVmessStream o.stream := rfl
  have hn : (rereadVmessStream o.stream).network = o.stream.network :=
    ifBlank_of_isBlank_eq_false hnet "tcp"
  have hboth : ifBlank (rereadVmessStream o.stream).security "none" = ifBlank o.stream.security "none" ∧
      securitySettings (rereadVmess o) = securitySettings o := by
    unfold securitySettings
    rw [hstream, tlsSettings_rereadVmess]
    simp only [rereadVmessStream]
    rcases hsec with h | h | h
    · have hne : o.stream.security ≠ "tls" ∧ o.stream.security ≠ "reality" := by
        constructor <;> (intro e; rw [e] at h; revert h; decide)
      simp [hne, ifBlank, h]
    · simp [h]
    · simp [h]
  unfold streamSettings
  rw [hboth.2, hstream, hn, hboth.1, hsettings]

theorem networkSettings_rereadVmess (hnet : isBlank o.stream.network = false)
    (hk : VmessKept doubles o) :
    networkSettings doubles (rereadVmessStream o.stream) = networkSettings doubles o.stream := by
  have hn : (rereadVmessStream o.stream).network = o.stream.network :=
    ifBlank_of_isBlank_eq_false hnet "tcp"
  have hpath : ifBlank (rereadVmessStream o.stream).path "/" = ifBlank o.stream.path "/" :=
    ifBlank_of_isBlank_eq_false (isBlank_ifBlank (by decide)) "/"
  have hhost : (rereadVmessStream o.stream).host = o.stream.host := rfl
  have hheader : (rereadVmessStream o.stream).headerType = "http" ↔ o.stream.headerType = "http" :=
    ifBlank_eq_http_iff o.stream.headerType
  unfold networkSettings
  simp only [hn, hpath, hhost, hheader]
  split
  · rfl
  · split
    · rename_i h
      rw [hk.serviceName h]
      rfl
    · split
      · rename_i h
        obtain ⟨hm, he⟩ := hk.xhttp h
        have hextra : extraMember doubles o.stream = [] := by
          unfold extraMember
          rcases he with he | he <;> simp [he]
        have hnone : extraMember doubles (rereadVmessStream o.stream) = [] := if_pos isBlank_empty
        rw [hextra, hnone, hm]
        rfl
      · rfl

theorem security_of_same
    (hs : Json.Same (.obj (streamSettings doubles (rereadVmess o))) (.obj (streamSettings doubles o))) :
    isBlank o.stream.security = true ∨ o.stream.security = "tls" ∨ o.stream.security = "none" := by
  have h := hs [.key "security"]
  rw [at_security, at_security] at h
  cases hb : isBlank o.stream.security with
  | true => exact .inl rfl
  | false =>
    right
    rw [ifBlank_of_isBlank_eq_false hb] at h
    simp only [rereadVmess, rereadVmessStream] at h
    split at h
    · left
      rw [ifBlank_of_isBlank_eq_false (by decide)] at h
      simpa using h.symm
    · right
      simpa [ifBlank] using h.symm

/-- **The configuration comes back exactly where there is nothing to lose.** -/
theorem VmessParsed.same_outboundJson_iff (h : VmessParsed o) :
    Json.Same (.obj (outboundJson doubles (rereadVmess o))) (.obj (outboundJson doubles o)) ↔
      VmessKept doubles o := by
  have hm : o.protocol ∈ ["vless", "vmess", "trojan"] := by simp [h.protocol]
  have hm' : (rereadVmess o).protocol ∈ ["vless", "vmess", "trojan"] := by simp [rereadVmess]
  constructor
  · intro hs
    have hstream := hs.lookup (lookup_streamSettings hm') (lookup_streamSettings hm)
    have hnetwork := same_networkSettings hstream
    have hn : (rereadVmess o).stream.network = o.stream.network :=
      ifBlank_of_isBlank_eq_false h.network "tcp"
    refine ⟨security_of_same hstream, ?_, ?_⟩
    · intro hg
      have hname := hnetwork [.key "grpcSettings", .key "serviceName"]
      rw [at_serviceName (hn.trans hg), at_serviceName hg] at hname
      simpa [rereadVmess, rereadVmessStream] using hname.symm
    · intro hx
      have hmode := hnetwork [.key "xhttpSettings", .key "mode"]
      have hextra := hnetwork [.key "xhttpSettings", .key "extra"]
      rw [at_mode (hn ▸ hx), at_mode hx] at hmode
      rw [at_extra (hn ▸ hx), at_extra hx] at hextra
      refine ⟨isBlank_of_ite hmode, ?_⟩
      cases hb : isBlank o.stream.extra with
      | true => exact .inl rfl
      | false =>
        right
        simpa [rereadVmess, rereadVmessStream, isBlank_empty, hb] using hextra.symm
  · intro hk
    apply Json.Same.of_eq
    rw [outboundJson_eq hm, outboundJson_eq hm', settings_rereadVmess h.protocol,
      streamSettings_rereadVmess hk.security h.network (networkSettings_rereadVmess h.network hk),
      h.protocol]
    rfl

end Configuration

/-! ## 5. Links -/

/-- The configuration of `o'` is that of `o`, and so is the name. -/
def SameServer (doubles : Doubles) (o o' : XrayOutbound) : Prop :=
  Json.Same (.obj (XrayConfig.outboundJson doubles o')) (.obj (XrayConfig.outboundJson doubles o)) ∧
    o'.name = o.name

theorem VmessParsed.sameServer_iff {doubles : Doubles} {o : XrayOutbound} {link : String}
    (h : VmessParsed o) (hl : toLink o = some link) :
    (∃ o', parse doubles link = some o' ∧ SameServer doubles o o') ↔ VmessKept doubles o := by
  have hp := h.parse_toLink doubles hl
  have hname : (rereadVmess o).name = o.name := ifBlank_of_isBlank_eq_false h.name _
  rw [← h.same_outboundJson_iff]
  constructor
  · rintro ⟨o', hp', hs, -⟩
    rw [hp, Option.some.injEq] at hp'
    rw [hp']
    exact hs
  · intro hs
    exact ⟨rereadVmess o, hp, hs, hname⟩

/-- **Which VMess servers survive.** -/
theorem vmess_kept_iff (doubles : Doubles) (raw link : String) (o : XrayOutbound)
    (hscheme : startsWithIgnoreCase (trim raw) "vmess://" = true)
    (hp : parse doubles raw = some o) (hl : toLink o = some link) :
    (∃ o', parse doubles link = some o' ∧ SameServer doubles o o') ↔ VmessKept doubles o :=
  (vmessParsed_of_parse hscheme hp).sameServer_iff hl

/-- A query-string link of a server with the security `security`. -/
def vmessLink (security : String) : String :=
  "vmess://id@example.com:443?type=ws&security=" ++ security ++ "#Home"

/-- The outbound of it. -/
def vmessOutbound (security : String) : XrayOutbound :=
  { protocol := "vmess", name := "Home", address := "example.com", port := 443, uuid := "id",
    stream := { network := "ws", security := security } }

/-- A WebSocket server with TLS, in the query-string form. -/
theorem vmess_kept_iff_tls : ∃ link o', toLink (vmessOutbound "tls") = some link ∧
    parse (fun _ => none) (vmessLink "tls") = some (vmessOutbound "tls") ∧
    parse (fun _ => none) link = some o' ∧ SameServer (fun _ => none) (vmessOutbound "tls") o' := by
  have hp : parse (fun _ => none) (vmessLink "tls") = some (vmessOutbound "tls") := by decide +kernel
  have hsome : (toLink (vmessOutbound "tls")).isSome = true := by decide +kernel
  obtain ⟨link, hl⟩ := Option.isSome_iff_exists.1 hsome
  have hkept : VmessKept (fun _ => none) (vmessOutbound "tls") := ⟨by decide, by decide, by decide⟩
  obtain ⟨o', hp', hs⟩ := (vmess_kept_iff _ (vmessLink "tls") link _ (by decide) hp hl).2 hkept
  exact ⟨link, o', hl, hp, hp', hs⟩

/-- **A REALITY server comes back with TLS.** -/
theorem reality_lost : ∃ link, toLink (vmessOutbound "reality") = some link ∧
    parse (fun _ => none) (vmessLink "reality") = some (vmessOutbound "reality") ∧
    ¬ ∃ o', parse (fun _ => none) link = some o' ∧
      SameServer (fun _ => none) (vmessOutbound "reality") o' := by
  have hp : parse (fun _ => none) (vmessLink "reality") = some (vmessOutbound "reality") := by
    decide +kernel
  have hsome : (toLink (vmessOutbound "reality")).isSome = true := by decide +kernel
  obtain ⟨link, hl⟩ := Option.isSome_iff_exists.1 hsome
  refine ⟨link, hl, hp, ?_⟩
  rw [(vmessParsed_of_parse (by decide) hp).sameServer_iff hl]
  intro hk
  have hsec := hk.security
  revert hsec
  decide

end XrayShareLink

end SwiftVpn
