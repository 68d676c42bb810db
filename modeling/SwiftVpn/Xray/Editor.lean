/-
  File:      SwiftVpn/Xray/Editor.lean
  Subject:   THE EDITOR OF AN XRAY PROFILE: XraySettingsScreen.kt.

  * `Form`, `Form.initial`, `buildOutbound` -- the fields of the screen, what they show of a parsed link,
    and the outbound that is built of them;
  * `Respaced` -- an outbound whose texts differ in the white space around them only;
  * `Unlost` -- what the screen has no field for, or one of another meaning: the encryption of VLESS, the
    flow of Trojan, the UDP marker of a Shadowsocks 2022 cipher, an obfuscation that is not salamander;
  * `editor_lossless_iff` -- untouched fields give the configuration of the link, up to white space, exactly
    where there is nothing of this to lose.
-/
import SwiftVpn.Xray.Transport
import SwiftVpn.Xray.VMess
import SwiftVpn.Xray.Links

namespace SwiftVpn

namespace XraySettingsScreen

open XrayShareLink XrayConfig

/-! ## 1. The screen -/

/-- The fields. -/
structure Form where
  name : String
  protocol : String
  address : String
  port : String
  uuid : String
  flow : String
  alterId : String
  vmessCipher : String
  password : String
  method : String
  username : String
  network : String
  security : String
  sni : String
  fingerprint : String
  alpn : String
  host : String
  path : String
  headerType : String
  serviceName : String
  publicKey : String
  shortId : String
  spiderX : String
  pqv : String
  xhttpMode : String
  extra : String
  hy2Obfs : Bool
  hy2Insecure : Bool
  deriving DecidableEq, Repr

/-- What the fields show first. -/
def Form.initial (name : String) (parsed : Option XrayOutbound) : Form :=
  let st := parsed.map (·.stream)
  { name := name
    protocol := (parsed.map (·.protocol)).getD "vless"
    address := (parsed.map (·.address)).getD ""
    port := (parsed.map fun o => toString o.port).getD ""
    uuid := (parsed.map (·.uuid)).getD ""
    flow := (parsed.map (·.flow)).getD ""
    alterId := (parsed.map fun o => toString o.alterId).getD "0"
    vmessCipher := (parsed.map (·.security)).getD "auto"
    password := (parsed.map (·.password)).getD ""
    method := (parsed.map (·.method)).getD "aes-256-gcm"
    username := (parsed.map (·.username)).getD ""
    network := (st.map (·.network)).getD "tcp"
    security := (st.map (·.security)).getD "none"
    sni := (st.map (·.sni)).getD ""
    fingerprint := (st.map (·.fingerprint)).getD ""
    alpn := (st.map (·.alpn)).getD ""
    host := (st.map (·.host)).getD ""
    path := (st.map (·.path)).getD "/"
    headerType := (st.map (·.headerType)).getD "none"
    serviceName := (st.map (·.serviceName)).getD ""
    publicKey := (st.map (·.publicKey)).getD ""
    shortId := (st.map (·.shortId)).getD ""
    spiderX := (st.map (·.spiderX)).getD ""
    pqv := (st.map (·.pqv)).getD ""
    xhttpMode := (st.map (·.mode)).getD ""
    extra := (st.map (·.extra)).getD ""
    hy2Obfs := (parsed.map (·.protocol)) == some "hysteria2" && !(st.map fun s => isBlank s.path).getD true
    hy2Insecure := (st.map (·.headerType)) == some "1" }

section Build

variable (f : Form)

/-- The stream of `hysteria2`: the obfuscation password, its type and the insecure flag. -/
def hysteria2Stream : XrayStream :=
  { network := "hysteria2"
    security := "tls"
    sni := trim f.sni
    host := if f.hy2Obfs then trim f.host else ""
    path := if f.hy2Obfs then "salamander" else ""
    headerType := if f.hy2Insecure then "1" else "" }

def stream : XrayStream :=
  { network := f.network
    security := f.security
    sni := if f.security = "none" then "" else trim f.sni
    fingerprint := if f.security = "none" then "" else trim f.fingerprint
    alpn := if f.security = "none" then "" else trim f.alpn
    host := trim f.host
    path := ifBlank (trim f.path) "/"
    headerType := if f.network = "tcp" then f.headerType else "none"
    serviceName := trim f.serviceName
    publicKey := if f.security = "reality" then trim f.publicKey else ""
    shortId := if f.security = "reality" then trim f.shortId else ""
    spiderX := if f.security = "reality" then trim f.spiderX else ""
    pqv := if f.security = "reality" then trim f.pqv else ""
    mode := if f.network = "xhttp" ∨ f.network = "splithttp" then f.xhttpMode else ""
    extra := if f.network = "xhttp" ∨ f.network = "splithttp" then trim f.extra else "" }

/-- `buildOutbound`. -/
def buildOutbound : XrayOutbound :=
  if f.protocol = "hysteria2" then
    { protocol := f.protocol
      name := trim f.name
      address := trim f.address
      port := (parseIntOrNull f.port).getD 0
      password := trim f.password
      stream := hysteria2Stream f }
  else
    { protocol := f.protocol
      name := trim f.name
      address := trim f.address
      port := (parseIntOrNull f.port).getD 0
      uuid := trim f.uuid
      flow := if f.protocol = "vless" then trim f.flow else ""
      encryption := "none"
      alterId := if f.protocol = "vmess" then (parseIntOrNull f.alterId).getD 0 else 0
      security := if f.protocol = "vmess" then f.vmessCipher else "auto"
      password := trim f.password
      method := if f.protocol = "shadowsocks" then f.method else ""
      username := if f.protocol = "socks" ∨ f.protocol = "http" then trim f.username else ""
      stream := if f.protocol = "shadowsocks" then {} else stream f }

end Build

/-! ## 2. Up to white space -/

/-- The texts differ in the white space around them only. -/
structure RespacedStream (s s' : XrayStream) : Prop where
  network : trim s'.network = trim s.network
  security : trim s'.security = trim s.security
  sni : trim s'.sni = trim s.sni
  fingerprint : trim s'.fingerprint = trim s.fingerprint
  alpn : trim s'.alpn = trim s.alpn
  host : trim s'.host = trim s.host
  path : trim s'.path = trim s.path
  headerType : trim s'.headerType = trim s.headerType
  serviceName : trim s'.serviceName = trim s.serviceName
  publicKey : trim s'.publicKey = trim s.publicKey
  shortId : trim s'.shortId = trim s.shortId
  spiderX : trim s'.spiderX = trim s.spiderX
  pqv : trim s'.pqv = trim s.pqv
  mode : trim s'.mode = trim s.mode
  extra : trim s'.extra = trim s.extra

@[inherit_doc RespacedStream]
structure Respaced (o o' : XrayOutbound) : Prop where
  protocol : o'.protocol = o.protocol
  name : trim o'.name = trim o.name
  address : trim o'.address = trim o.address
  port : o'.port = o.port
  uuid : trim o'.uuid = trim o.uuid
  flow : trim o'.flow = trim o.flow
  encryption : trim o'.encryption = trim o.encryption
  alterId : o'.alterId = o.alterId
  security : trim o'.security = trim o.security
  password : trim o'.password = trim o.password
  method : trim o'.method = trim o.method
  username : trim o'.username = trim o.username
  uotVersion : o'.uotVersion = o.uotVersion
  stream : RespacedStream o.stream o'.stream

/-- The configuration of `b` is that of `o`, up to white space around the values of its fields. -/
def SameConfig (doubles : Doubles) (b o : XrayOutbound) : Prop :=
  ∃ o', Respaced o o' ∧ outboundJson doubles b = outboundJson doubles o'

/-- The texts that the screen trims, trimmed. -/
def trimmedStream (s : XrayStream) : XrayStream :=
  { s with
    sni := trim s.sni
    fingerprint := trim s.fingerprint
    alpn := trim s.alpn
    host := trim s.host
    path := trim s.path
    serviceName := trim s.serviceName
    publicKey := trim s.publicKey
    shortId := trim s.shortId
    spiderX := trim s.spiderX
    pqv := trim s.pqv
    extra := trim s.extra }

@[inherit_doc trimmedStream]
def trimmed (o : XrayOutbound) : XrayOutbound :=
  { o with
    address := trim o.address
    uuid := trim o.uuid
    flow := trim o.flow
    encryption := trim o.encryption
    password := trim o.password
    username := trim o.username
    stream := trimmedStream o.stream }

theorem respaced_trimmed (o : XrayOutbound) : Respaced o (trimmed o) where
  protocol := rfl
  name := rfl
  address := trim_trim _
  port := rfl
  uuid := trim_trim _
  flow := trim_trim _
  encryption := trim_trim _
  alterId := rfl
  security := rfl
  password := trim_trim _
  method := rfl
  username := trim_trim _
  uotVersion := rfl
  stream :=
    { network := rfl
      security := rfl
      sni := trim_trim _
      fingerprint := trim_trim _
      alpn := trim_trim _
      host := trim_trim _
      path := trim_trim _
      headerType := rfl
      serviceName := trim_trim _
      publicKey := trim_trim _
      shortId := trim_trim _
      spiderX := trim_trim _
      pqv := trim_trim _
      mode := rfl
      extra := trim_trim _ }

/-- A text without anything visible, trimmed or not. -/
theorem isBlank_iff_trim (s : String) : isBlank s = true ↔ trim s = "" := by
  unfold isBlank trim
  rw [← String.toList_inj, String.toList_ofList, List.all_eq_true]
  show _ ↔ Text.strip isWhitespace s.toList = []
  constructor
  · intro h
    have hstrip := Text.strip_append_left h []
    rwa [List.append_nil] at hstrip
  · intro h c hc
    by_contra hw
    have hmem := Text.mem_strip hc (Bool.not_eq_true _ ▸ hw)
    rw [h] at hmem
    cases hmem

@[simp] theorem isBlank_trim (s : String) : isBlank (trim s) = isBlank s := by
  rw [Bool.eq_iff_iff, isBlank_iff_trim, isBlank_iff_trim, trim_trim]

theorem isBlank_congr {s s' : String} (h : trim s' = trim s) : isBlank s' = isBlank s := by
  rw [← isBlank_trim s', h, isBlank_trim]

/-! ## 3. What untouched fields give -/

/-- There is nothing to lose. -/
structure Unlost (o : XrayOutbound) : Prop where
  vless : o.protocol = "vless" → isBlank o.encryption = true ∨ trim o.encryption = "none"
  trojan : o.protocol = "trojan" → isBlank o.flow = true
  shadowsocks : o.protocol = "shadowsocks" → "2022-".toList.isPrefixOf o.method.toList = true → o.uotVersion ≤ 0
  hysteria2 : o.protocol = "hysteria2" → isBlank o.stream.path = false → isBlank o.stream.host = false →
    equalsIgnoreCase (trim o.stream.path) "salamander" = true

/-- What untouched fields give. -/
def rebuilt (name : String) (o : XrayOutbound) : XrayOutbound := buildOutbound (Form.initial name (some o))

/-- The numbers of an outbound fit. -/
structure Numbers (o : XrayOutbound) : Prop where
  port : -2 ^ 31 ≤ o.port ∧ o.port < 2 ^ 31
  alterId : -2 ^ 31 ≤ o.alterId ∧ o.alterId < 2 ^ 31

section Rebuilt

variable {doubles : Doubles} {o : XrayOutbound} (name : String)

theorem rebuilt_hysteria2 (hn : Numbers o) (h : o.protocol = "hysteria2") :
    rebuilt name o =
      { protocol := "hysteria2"
        name := trim name
        address := trim o.address
        port := o.port
        password := trim o.password
        stream :=
          { network := "hysteria2"
            security := "tls"
            sni := trim o.stream.sni
            host := if isBlank o.stream.path then "" else trim o.stream.host
            path := if isBlank o.stream.path then "" else "salamander"
            headerType := if o.stream.headerType = "1" then "1" else "" } } := by
  have hport : parseIntOrNull (toString o.port) = some o.port := Text.parseInteger_toString hn.port.1 hn.port.2
  have hobfs : (Form.initial name (some o)).hy2Obfs = !isBlank o.stream.path := by
    show (some o.protocol == some "hysteria2" && !isBlank o.stream.path) = _
    rw [h, beq_self_eq_true, Bool.true_and]
  have hinsecure : (Form.initial name (some o)).hy2Insecure = decide (o.stream.headerType = "1") := by
    show (some o.stream.headerType == some "1") = _
    rw [Bool.eq_iff_iff, beq_iff_eq, decide_eq_true_eq, Option.some.injEq]
  unfold rebuilt buildOutbound
  rw [if_pos (show (Form.initial name (some o)).protocol = "hysteria2" from h), hysteria2Stream, hobfs, hinsecure]
  simp only [Form.initial, Option.map_some, Option.getD_some, hport, h, Bool.not_eq_true', decide_eq_true_eq]
  cases isBlank o.stream.path <;> rfl

/-- The stream of the other protocols. -/
def rebuiltStream (s : XrayStream) : XrayStream :=
  { network := s.network
    security := s.security
    sni := if s.security = "none" then "" else trim s.sni
    fingerprint := if s.security = "none" then "" else trim s.fingerprint
    alpn := if s.security = "none" then "" else trim s.alpn
    host := trim s.host
    path := ifBlank (trim s.path) "/"
    headerType := if s.network = "tcp" then s.headerType else "none"
    serviceName := trim s.serviceName
    publicKey := if s.security = "reality" then trim s.publicKey else ""
    shortId := if s.security = "reality" then trim s.shortId else ""
    spiderX := if s.security = "reality" then trim s.spiderX else ""
    pqv := if s.security = "reality" then trim s.pqv else ""
    mode := if s.network = "xhttp" ∨ s.network = "splithttp" then s.mode else ""
    extra := if s.network = "xhttp" ∨ s.network = "splithttp" then trim s.extra else "" }

theorem rebuilt_other (hn : Numbers o) (h : o.protocol ≠ "hysteria2") :
    rebuilt name o =
      { protocol := o.protocol
        name := trim name
        address := trim o.address
        port := o.port
        uuid := trim o.uuid
        flow := if o.protocol = "vless" then trim o.flow else ""
        encryption := "none"
        alterId := if o.protocol = "vmess" then o.alterId else 0
        security := if o.protocol = "vmess" then o.security else "auto"
        password := trim o.password
        method := if o.protocol = "shadowsocks" then o.method else ""
        username := if o.protocol = "socks" ∨ o.protocol = "http" then trim o.username else ""
        stream := if o.protocol = "shadowsocks" then {} else rebuiltStream o.stream } := by
  have hport : parseIntOrNull (toString o.port) = some o.port := Text.parseInteger_toString hn.port.1 hn.port.2
  have haid : parseIntOrNull (toString o.alterId) = some o.alterId :=
    Text.parseInteger_toString hn.alterId.1 hn.alterId.2
  unfold rebuilt buildOutbound
  rw [if_neg (show (Form.initial name (some o)).protocol ≠ "hysteria2" from h)]
  simp only [Form.initial, Option.map_some, Option.getD_some, hport, haid]
  rfl

theorem ifBlank_ifBlank (s default : String) : ifBlank (ifBlank s default) default = ifBlank s default := by
  unfold ifBlank
  cases hs : isBlank s with
  | true => simp
  | false => simp [hs]

theorem tlsSettings_rebuilt {p q : XrayOutbound} (haddr : p.address = q.address)
    (hp : p.stream = rebuiltStream o.stream) (hq : q.stream = trimmedStream o.stream)
    (hsec : o.stream.security = "tls") : tlsSettings p = tlsSettings q := by
  unfold tlsSettings
  rw [hp, hq, haddr]
  simp [rebuiltStream, trimmedStream, hsec]

theorem realitySettings_rebuilt {s : XrayStream} (hsec : s.security = "reality") :
    realitySettings (rebuiltStream s) = realitySettings (trimmedStream s) := by
  simp [realitySettings, rebuiltStream, trimmedStream, hsec]

theorem networkSettings_rebuilt (s : XrayStream) :
    networkSettings doubles (rebuiltStream s) = networkSettings doubles (trimmedStream s) := by
  unfold networkSettings
  simp only [rebuiltStream, trimmedStream, ifBlank_ifBlank]
  split_ifs <;> simp_all [extraMember]

/-- The transport is that of the link. -/
theorem streamSettings_rebuilt {p q : XrayOutbound} (haddr : p.address = q.address)
    (hp : p.stream = rebuiltStream o.stream) (hq : q.stream = trimmedStream o.stream) :
    streamSettings doubles p = streamSettings doubles q := by
  have hnet : networkSettings doubles p.stream = networkSettings doubles q.stream := by
    rw [hp, hq, networkSettings_rebuilt]
  have hps : p.stream.security = o.stream.security := by rw [hp]; rfl
  have hqs : q.stream.security = o.stream.security := by rw [hq]; rfl
  have hpn : p.stream.network = o.stream.network := by rw [hp]; rfl
  have hqn : q.stream.network = o.stream.network := by rw [hq]; rfl
  have hsec : securitySettings p = securitySettings q := by
    unfold securitySettings
    rw [hps, hqs]
    split_ifs with ht hr
    · rw [tlsSettings_rebuilt haddr hp hq ht]
    · rw [hp, hq, realitySettings_rebuilt hr]
    · rfl
  rw [streamSettings, streamSettings, hnet, hsec, hps, hqs, hpn, hqn]

/-- The tag that is put is there already. -/
theorem outboundJson_eq_proxyOutbound (o : XrayOutbound) : outboundJson doubles o = proxyOutbound doubles o := by
  unfold outboundJson proxyOutbound
  simp only [List.cons_append, JsonObject.put, if_true]

theorem settings_hysteria2 (h : o.protocol = "hysteria2") : settings o = hysteriaSettings o := by
  simp [settings, h]

theorem settings_shadowsocks (h : o.protocol = "shadowsocks") : settings o = shadowsocksSettings o := by
  simp [settings, h]

theorem settings_vless (h : o.protocol = "vless") : settings o = vlessSettings o := by
  simp [settings, h]

theorem settings_trojan (h : o.protocol = "trojan") : settings o = trojanSettings o := by
  simp [settings, h]

theorem equalsIgnoreCase_empty : equalsIgnoreCase "" "salamander" = false := by decide

/-- The obfuscation is salamander, or there is none. -/
theorem hysteriaStream_rebuilt (hn : Numbers o) (h : o.protocol = "hysteria2") (hu : Unlost o) :
    hysteriaStream (rebuilt name o) = hysteriaStream (trimmed o) := by
  rw [rebuilt_hysteria2 name hn h]
  simp only [hysteriaStream, trimmed, trimmedStream, isBlank_trim]
  cases hp : isBlank o.stream.path with
  | true =>
    rw [(isBlank_iff_trim _).1 hp]
    simp [equalsIgnoreCase_empty, member]
  | false =>
    cases hh : isBlank o.stream.host with
    | true => simp [member, hh]
    | false =>
      have hsal : equalsIgnoreCase "salamander" "salamander" = true := by decide
      simp [hu.hysteria2 h hp hh, hsal, hh]

theorem shadowsocksSettings_rebuilt (hn : Numbers o) (h : o.protocol = "shadowsocks") (hu : Unlost o) :
    shadowsocksSettings (rebuilt name o) = shadowsocksSettings (trimmed o) := by
  have hne : o.protocol ≠ "hysteria2" := by
    rw [h]
    decide
  rw [rebuilt_other name hn hne]
  simp only [shadowsocksSettings, trimmed, h, if_true]
  cases hm : "2022-".toList.isPrefixOf o.method.toList with
  | true =>
    have hle := hu.shadowsocks h hm
    have hnot : ¬0 < o.uotVersion := by omega
    simp [hnot]
  | false => simp

theorem vlessSettings_rebuilt (hn : Numbers o) (h : o.protocol = "vless") (hu : Unlost o) :
    vlessSettings (rebuilt name o) = vlessSettings (trimmed o) := by
  have hne : o.protocol ≠ "hysteria2" := by
    rw [h]
    decide
  have henc : ifBlank (trim o.encryption) "none" = "none" := by
    rcases hu.vless h with hb | hb
    · rw [ifBlank, isBlank_trim, hb, if_pos rfl]
    · rw [hb]
      decide
  have hnone : ifBlank "none" "none" = "none" := by decide
  rw [rebuilt_other name hn hne]
  simp only [vlessSettings, vnext, vlessUser, trimmed, h, if_true, henc, hnone]

theorem trojanSettings_rebuilt (hn : Numbers o) (h : o.protocol = "trojan") (hu : Unlost o) :
    trojanSettings (rebuilt name o) = trojanSettings (trimmed o) := by
  have hne : o.protocol ≠ "hysteria2" := by
    rw [h]
    decide
  have hv : o.protocol ≠ "vless" := by
    rw [h]
    decide
  rw [rebuilt_other name hn hne]
  simp only [trojanSettings, trimmed, if_neg hv, isBlank_trim, hu.trojan h, isBlank_empty, member, Bool.not_true,
    Bool.false_eq_true, if_false]

theorem vmessSettings_rebuilt (hn : Numbers o) (h : o.protocol = "vmess") :
    vmessSettings (rebuilt name o) = vmessSettings (trimmed o) := by
  have hne : o.protocol ≠ "hysteria2" := by
    rw [h]
    decide
  rw [rebuilt_other name hn hne]
  simp only [vmessSettings, vnext, vmessUser, trimmed, if_pos h]

theorem socksHttpSettings_rebuilt (hn : Numbers o) (h : o.protocol = "socks" ∨ o.protocol = "http") :
    socksHttpSettings (rebuilt name o) = socksHttpSettings (trimmed o) := by
  have hne : o.protocol ≠ "hysteria2" := by
    rcases h with h | h <;>
    · rw [h]
      decide
  rw [rebuilt_other name hn hne]
  funext userKey
  simp only [socksHttpSettings, trimmed, if_pos h]

theorem settings_rebuilt (hn : Numbers o) (h : o.protocol ≠ "hysteria2") (hss : o.protocol ≠ "shadowsocks")
    (hu : Unlost o) : settings (rebuilt name o) = settings (trimmed o) := by
  have hrp : (rebuilt name o).protocol = o.protocol := by rw [rebuilt_other name hn h]
  have htp : (trimmed o).protocol = o.protocol := rfl
  by_cases hv : o.protocol = "vless"
  · rw [settings_vless (hrp.trans hv), settings_vless (htp.trans hv), vlessSettings_rebuilt name hn hv hu]
  by_cases ht : o.protocol = "trojan"
  · rw [settings_trojan (hrp.trans ht), settings_trojan (htp.trans ht), trojanSettings_rebuilt name hn ht hu]
  unfold settings
  rw [hrp, htp, if_neg hv, if_neg hv, if_neg ht, if_neg ht, if_neg hss, if_neg hss, if_neg h, if_neg h]
  by_cases hm : o.protocol = "vmess"
  · rw [if_pos hm, if_pos hm, vmessSettings_rebuilt name hn hm]
  by_cases hs : o.protocol = "socks" ∨ o.protocol = "http"
  · rw [if_neg hm, if_neg hm, socksHttpSettings_rebuilt name hn hs]
  · rw [not_or] at hs
    rw [if_neg hm, if_neg hm, if_neg hs.1, if_neg hs.1, if_neg hs.2, if_neg hs.2]

/-- Where there is nothing to lose, nothing is lost. -/
theorem sameConfig_of_unlost (doubles : Doubles) (hn : Numbers o) (hu : Unlost o) :
    SameConfig doubles (rebuilt name o) o := by
  refine ⟨trimmed o, respaced_trimmed o, ?_⟩
  rw [outboundJson_eq_proxyOutbound, outboundJson_eq_proxyOutbound]
  have htp : (trimmed o).protocol = o.protocol := rfl
  unfold proxyOutbound
  by_cases hy : o.protocol = "hysteria2"
  · have hrp : (rebuilt name o).protocol = "hysteria2" := by rw [rebuilt_hysteria2 name hn hy]
    have hset : hysteriaSettings (rebuilt name o) = hysteriaSettings (trimmed o) := by
      rw [rebuilt_hysteria2 name hn hy]
      rfl
    rw [settings_hysteria2 hrp, settings_hysteria2 (htp.trans hy), hset, hysteriaStream_rebuilt name hn hy hu, hrp,
      htp, hy]
    rfl
  · have hrp : (rebuilt name o).protocol = o.protocol := by rw [rebuilt_other name hn hy]
    rw [hrp, htp]
    by_cases hss : o.protocol = "shadowsocks"
    · rw [settings_shadowsocks (hrp.trans hss), settings_shadowsocks (htp.trans hss),
        shadowsocksSettings_rebuilt name hn hss hu, if_pos hss, if_pos hss]
    · have hstream : streamSettings doubles (rebuilt name o) = streamSettings doubles (trimmed o) := by
        refine streamSettings_rebuilt (o := o) ?_ ?_ rfl
        · rw [rebuilt_other name hn hy]
          rfl
        · rw [rebuilt_other name hn hy]
          exact if_neg hss
      rw [settings_rebuilt name hn hy hss hu, hstream]
      simp only [hy, if_false]

/-- What differs in the configuration is seen. -/
theorem settings_of_sameConfig {p q : XrayOutbound} (h : outboundJson doubles p = outboundJson doubles q) :
    settings p = settings q := by
  rw [outboundJson_eq_proxyOutbound, outboundJson_eq_proxyOutbound] at h
  have hlookup := congrArg (List.lookup "settings") h
  exact Json.obj.inj (Option.some.inj hlookup)

theorem encryption_of_settings {p q : XrayOutbound} (h : vlessSettings p = vlessSettings q) :
    ifBlank p.encryption "none" = ifBlank q.encryption "none" := by
  simp only [vlessSettings, vnext, vlessUser, List.cons_append, List.cons.injEq, Prod.mk.injEq, Json.arr.injEq,
    Json.obj.injEq, Json.str.injEq, true_and, and_true] at h
  exact h.2.2.2.1

theorem flow_of_settings {p q : XrayOutbound} (h : trojanSettings p = trojanSettings q) :
    isBlank p.flow = isBlank q.flow := by
  simp only [trojanSettings, List.cons_append, List.cons.injEq, Prod.mk.injEq, Json.arr.injEq, Json.obj.injEq,
    Json.str.injEq, true_and, and_true] at h
  have hlength := congrArg List.length h.2.2.2
  unfold member at hlength
  cases hp : isBlank p.flow <;> cases hq : isBlank q.flow <;> simp [hp, hq] at hlength ⊢

theorem uot_of_settings {p q : XrayOutbound} (h : shadowsocksSettings p = shadowsocksSettings q) :
    p.method = q.method ∧
      ("2022-".toList.isPrefixOf p.method.toList && decide (0 < p.uotVersion))
        = ("2022-".toList.isPrefixOf q.method.toList && decide (0 < q.uotVersion)) := by
  simp only [shadowsocksSettings, List.cons_append, List.cons.injEq, Prod.mk.injEq, Json.arr.injEq, Json.obj.injEq,
    Json.str.injEq, true_and, and_true] at h
  obtain ⟨-, -, hmethod, -, huot⟩ := h
  refine ⟨hmethod, ?_⟩
  have hlength := congrArg List.length huot
  generalize ("2022-".toList.isPrefixOf p.method.toList && decide (0 < p.uotVersion)) = hasP at hlength ⊢
  generalize ("2022-".toList.isPrefixOf q.method.toList && decide (0 < q.uotVersion)) = hasQ at hlength ⊢
  cases hasP <;> cases hasQ <;> simp at hlength ⊢

theorem obfs_of_sameConfig {p q : XrayOutbound} (hp : p.protocol = "hysteria2") (hq : q.protocol = "hysteria2")
    (h : outboundJson doubles p = outboundJson doubles q) :
    (equalsIgnoreCase p.stream.path "salamander" && !isBlank p.stream.host)
      = (equalsIgnoreCase q.stream.path "salamander" && !isBlank q.stream.host) := by
  have hlookup : ∀ {r : XrayOutbound}, r.protocol = "hysteria2" →
      (outboundJson doubles r).lookup "streamSettings" = some (.obj (hysteriaStream r)) := by
    intro r hr
    rw [outboundJson_eq_proxyOutbound, proxyOutbound, hr]
    rfl
  have hstream := congrArg (List.lookup "streamSettings") h
  rw [hlookup hp, hlookup hq] at hstream
  have hlength := congrArg List.length (Json.obj.inj (Option.some.inj hstream))
  unfold hysteriaStream member at hlength
  cases hp' : equalsIgnoreCase p.stream.path "salamander" && !isBlank p.stream.host <;>
    cases hq' : equalsIgnoreCase q.stream.path "salamander" && !isBlank q.stream.host <;>
    simp [hp', hq'] at hlength ⊢

theorem foldCase_of_isWhitespace {c : Char} (h : isWhitespace c = true) : Text.foldCase c = c := by
  have hc : ¬(65 ≤ c.toNat ∧ c.toNat ≤ 90) ∧ c.toNat ≠ 0x17F ∧ c.toNat ≠ 0x130 ∧ c.toNat ≠ 0x131 ∧
      c.toNat ≠ 0x212A := by
    simp only [isWhitespace, Bool.or_eq_true, Bool.and_eq_true, decide_eq_true_eq, beq_iff_eq] at h
    omega
  unfold Text.foldCase
  split
  · exact absurd ‹_› hc.2.1
  · exact absurd ‹_› hc.2.2.1
  · exact absurd ‹_› hc.2.2.2.1
  · exact absurd ‹_› hc.2.2.2.2
  · exact Text.toLower_of_not_upper hc.1

/-- The name of the obfuscation has no white space around it. -/
theorem trim_of_salamander {s : String} (h : equalsIgnoreCase s "salamander" = true) : trim s = s := by
  have hchars : ∀ c ∈ s.toList, isWhitespace c = false := by
    intro c hc
    rw [Bool.eq_false_iff]
    intro hw
    have hmap : s.toList.map Text.foldCase = "salamander".toList.map Text.foldCase := beq_iff_eq.1 h
    have hmem : c ∈ "salamander".toList.map Text.foldCase := by
      rw [← hmap, ← foldCase_of_isWhitespace hw]
      exact List.mem_map_of_mem hc
    have hvisible : ∀ d ∈ "salamander".toList.map Text.foldCase, isWhitespace d = false := by decide
    rw [hvisible c hmem] at hw
    cases hw
  exact trim_eq_self (fun c hc => hchars c (List.mem_of_mem_head? hc))
    fun c hc => hchars c (List.mem_of_mem_getLast? hc)

/-- Where something is lost, the configuration differs. -/
theorem unlost_of_sameConfig (hn : Numbers o) (h : SameConfig doubles (rebuilt name o) o) : Unlost o := by
  obtain ⟨o', hr, heq⟩ := h
  have hset := settings_of_sameConfig heq
  have hother : o.protocol ≠ "hysteria2" → (rebuilt name o).protocol = o.protocol := fun hy => by
    rw [rebuilt_other name hn hy]
  refine ⟨fun hv => ?_, fun ht => ?_, fun hss hm => ?_, fun hy hpath hhost => ?_⟩
  · have hne : o.protocol ≠ "hysteria2" := by rw [hv]; decide
    rw [settings_vless ((hother hne).trans hv), settings_vless (hr.protocol.trans hv)] at hset
    have henc := encryption_of_settings hset
    rw [rebuilt_other name hn hne] at henc
    have hdefault : ifBlank "none" "none" = "none" := by decide
    have hnone : ifBlank o'.encryption "none" = "none" := henc.symm.trans hdefault
    rw [← isBlank_congr hr.encryption, ← hr.encryption]
    cases hb : isBlank o'.encryption with
    | true => exact .inl rfl
    | false =>
      rw [ifBlank_of_isBlank_eq_false hb] at hnone
      rw [hnone]
      exact .inr (by decide)
  · have hne : o.protocol ≠ "hysteria2" := by rw [ht]; decide
    have hv : o.protocol ≠ "vless" := by rw [ht]; decide
    rw [settings_trojan ((hother hne).trans ht), settings_trojan (hr.protocol.trans ht)] at hset
    have hflow := flow_of_settings hset
    rw [rebuilt_other name hn hne, if_neg hv, isBlank_congr hr.flow] at hflow
    exact hflow.symm.trans isBlank_empty
  · have hne : o.protocol ≠ "hysteria2" := by rw [hss]; decide
    rw [settings_shadowsocks ((hother hne).trans hss), settings_shadowsocks (hr.protocol.trans hss)] at hset
    obtain ⟨hmethod, huot⟩ := uot_of_settings hset
    rw [rebuilt_other name hn hne] at hmethod huot
    dsimp only at hmethod huot
    rw [if_pos hss] at hmethod huot
    rw [← hmethod, hm, hr.uotVersion] at huot
    simpa using huot
  · have hrp : (rebuilt name o).protocol = "hysteria2" := by rw [rebuilt_hysteria2 name hn hy]
    have hobfs := obfs_of_sameConfig hrp (hr.protocol.trans hy) heq
    rw [rebuilt_hysteria2 name hn hy] at hobfs
    simp only [hpath, Bool.false_eq_true, if_false, isBlank_trim, hhost, isBlank_congr hr.stream.host] at hobfs
    have hsal : equalsIgnoreCase "salamander" "salamander" = true := by decide
    rw [hsal] at hobfs
    have hpath' : equalsIgnoreCase o'.stream.path "salamander" = true := by simpa using hobfs.symm
    rw [← hr.stream.path, trim_of_salamander hpath']
    exact hpath'

end Rebuilt

/-! ## 4. Parsed links -/

theorem numbers_of_portOr {link : String} {uri : Uri} {host : String} (huri : uriOf link = some uri)
    (hhost : hostOf uri = some host) {default : Int} (hpos : 0 < default) (hlt : default < 2 ^ 31) :
    -2 ^ 31 ≤ portOr uri default ∧ portOr uri default < 2 ^ 31 := by
  have hport := portOr_bounds huri hhost default hpos hlt
  omega

section Parsers

variable {link : String} {o : XrayOutbound}

theorem zero_fits : -2 ^ 31 ≤ (0 : Int) ∧ (0 : Int) < 2 ^ 31 := by decide

theorem numbers_of_parseVless (h : parseVless link = some o) : Numbers o := by
  unfold parseVless at h
  obtain ⟨uri, huri, h⟩ := Option.bind_eq_some_iff.1 h
  obtain ⟨uuid, huuid, h⟩ := Option.bind_eq_some_iff.1 h
  obtain ⟨host, hhost, h⟩ := Option.bind_eq_some_iff.1 h
  cases h
  exact ⟨numbers_of_portOr huri hhost (by decide) (by decide), zero_fits⟩

theorem numbers_of_parseTrojan (h : parseTrojan link = some o) : Numbers o := by
  unfold parseTrojan at h
  obtain ⟨uri, huri, h⟩ := Option.bind_eq_some_iff.1 h
  obtain ⟨password, hpassword, h⟩ := Option.bind_eq_some_iff.1 h
  obtain ⟨host, hhost, h⟩ := Option.bind_eq_some_iff.1 h
  cases h
  exact ⟨numbers_of_portOr huri hhost (by decide) (by decide), zero_fits⟩

theorem numbers_of_parseHysteria2 (h : parseHysteria2 link = some o) : Numbers o := by
  unfold parseHysteria2 at h
  obtain ⟨uri, huri, h⟩ := Option.bind_eq_some_iff.1 h
  obtain ⟨password, hpassword, h⟩ := Option.bind_eq_some_iff.1 h
  obtain ⟨host, hhost, h⟩ := Option.bind_eq_some_iff.1 h
  cases h
  exact ⟨numbers_of_portOr huri hhost (by decide) (by decide), zero_fits⟩

theorem numbers_of_parseSocksHttp {protocol : String} (h : parseSocksHttp link protocol = some o) : Numbers o := by
  unfold parseSocksHttp at h
  obtain ⟨uri, huri, h⟩ := Option.bind_eq_some_iff.1 h
  obtain ⟨host, hhost, h⟩ := Option.bind_eq_some_iff.1 h
  cases h
  refine ⟨numbers_of_portOr huri hhost ?_ ?_, zero_fits⟩ <;> split <;> decide

theorem numbers_of_parseSip002 {name core userInfo rest : String} (h : parseSip002 name core userInfo rest = some o) :
    Numbers o := by
  unfold parseSip002 at h
  obtain ⟨bytes, hbytes, h⟩ := Option.bind_eq_some_iff.1 h
  obtain ⟨port, hport, h⟩ := Option.bind_eq_some_iff.1 h
  have ho := Option.some.inj h
  rw [← ho]
  exact ⟨Text.parseInteger_bounds hport, zero_fits⟩

theorem numbers_of_parseLegacy {name core : String} (h : parseLegacy name core = some o) : Numbers o := by
  unfold parseLegacy at h
  obtain ⟨bytes, hbytes, h⟩ := Option.bind_eq_some_iff.1 h
  obtain ⟨parts, hparts, h⟩ := Option.bind_eq_some_iff.1 h
  obtain ⟨port, hport, h⟩ := Option.bind_eq_some_iff.1 h
  have ho := Option.some.inj h
  rw [← ho]
  exact ⟨Text.parseInteger_bounds hport, zero_fits⟩

theorem numbers_of_parseShadowsocks (h : parseShadowsocks link = some o) : Numbers o := by
  unfold parseShadowsocks at h
  dsimp only at h
  split_ifs at h
  split at h
  · exact numbers_of_parseSip002 h
  · exact numbers_of_parseLegacy h

theorem numbers_of_parseVmess {doubles : Doubles} (h : parseVmess doubles link = some o) : Numbers o := by
  unfold parseVmess at h
  dsimp only at h
  split at h
  · have hparsed := vmessParsed_of_query h
    exact ⟨hparsed.port, hparsed.alterId⟩
  · have hparsed := vmessParsed_of_json h
    exact ⟨hparsed.port, hparsed.alterId⟩

/-- The numbers of a parsed link fit. -/
theorem numbers_of_parseOnce {doubles : Doubles} (h : parseOnce doubles link = some o) : Numbers o := by
  unfold parseOnce at h
  split_ifs at h
  · exact numbers_of_parseVless h
  · exact numbers_of_parseVmess h
  · exact numbers_of_parseTrojan h
  · exact numbers_of_parseShadowsocks h
  · exact numbers_of_parseHysteria2 h
  · exact numbers_of_parseHysteria2 h
  · exact numbers_of_parseSocksHttp h
  · exact numbers_of_parseSocksHttp h

end Parsers

theorem numbers_of_parse {doubles : Doubles} {raw : String} {o : XrayOutbound} (h : parse doubles raw = some o) :
    Numbers o := by
  obtain ⟨link, -, ho⟩ := List.exists_of_findSome?_eq_some h
  exact numbers_of_parseOnce ho

/-- **Untouched fields give the configuration of the link** exactly where there is nothing to lose. -/
theorem editor_lossless_iff {doubles : Doubles} {raw : String} {o : XrayOutbound}
    (h : parse doubles raw = some o) (name : String) :
    SameConfig doubles (buildOutbound (Form.initial name (parse doubles raw))) o ↔ Unlost o := by
  rw [h]
  have hn := numbers_of_parse h
  exact ⟨unlost_of_sameConfig name hn, sameConfig_of_unlost name doubles hn⟩

/-- **The encryption of VLESS is lost**: the screen has no field for it. -/
theorem editor_loses_encryption :
    parse (fun _ => none) "vless://u@h:1?encryption=x" = some
        { protocol := "vless", name := "h:1", address := "h", port := 1, uuid := "u", encryption := "x" } ∧
      ¬SameConfig (fun _ => none)
        (buildOutbound (Form.initial "h" (parse (fun _ => none) "vless://u@h:1?encryption=x")))
        { protocol := "vless", name := "h:1", address := "h", port := 1, uuid := "u", encryption := "x" } := by
  have hp : parse (fun _ => none) "vless://u@h:1?encryption=x" = some
      { protocol := "vless", name := "h:1", address := "h", port := 1, uuid := "u", encryption := "x" } := by
    decide +kernel
  refine ⟨hp, fun hs => ?_⟩
  rw [hp] at hs
  have hlost := (unlost_of_sameConfig "h" (numbers_of_parse hp) hs).vless rfl
  revert hlost
  decide

theorem editor_lossless_webSocket :
    SameConfig (fun _ => none) (buildOutbound (Form.initial "Home" (parse (fun _ => none) webSocketLink)))
      webSocketOutbound := by
  have hp : parse (fun _ => none) webSocketLink = some webSocketOutbound := by decide +kernel
  refine (editor_lossless_iff hp "Home").2 ⟨fun _ => .inr (by decide), ?_, ?_, ?_⟩
  all_goals
    intro hprotocol
    exact absurd hprotocol (by decide)

end XraySettingsScreen

end SwiftVpn
