/-
  File:      SwiftVpn/Xray/Transport.lean
  Subject:   WHAT A VLESS OR TROJAN LINK KEEPS OF THE TRANSPORT.

  * `streamFrom_streamQuery` -- the stream that comes back of a link, field by field (`reread`);
  * `lookup_settings`, `same_networkSettings`, `at_flow` and their kind -- where the fields stand in the
    core's configuration;
  * `Kept` -- what the writer leaves out and the configuration reads: the flow of Trojan, path and host
    of the network "h2", the host of an HTTP header and of a TLS server name, and blanks in a gRPC
    service name and in REALITY's server name and key;
  * `transport_kept_iff` -- the configuration comes back exactly where there is nothing of this to lose;
  * `host_lost` -- a TLS link without SNI whose host is not its address.
-/
import SwiftVpn.Xray.RoundTrip
import SwiftVpn.Xray.Config

namespace SwiftVpn

namespace XrayShareLink

/-! ## 1. The parameters that are written -/

/-- The networks whose path and host are written. -/
def carriesHost (net : String) : Bool :=
  net == "ws" || net == "xhttp" || net == "splithttp" || net == "http"

theorem lookup_param (cond : Bool) (k k' v : String) :
    (param cond k v).lookup k' = if cond = true ∧ k' = k then some v else none := by
  cases cond
  · rfl
  · by_cases h : k' = k
    · simp [param, h]
    · simp [param, h]

theorem networkQuery_eq (net path host serviceName headerType : String) :
    (if net = "ws" ∨ net = "xhttp" ∨ net = "splithttp" ∨ net = "http" then
      ("path", ifBlank path "/") :: param (!isBlank host) "host" host
    else if net = "grpc" then param (!isBlank serviceName) "serviceName" serviceName
    else if net = "tcp" then
      param (!isBlank headerType && headerType != "none") "headerType" headerType
    else []) =
      param (carriesHost net) "path" (ifBlank path "/") ++
      param (carriesHost net && !isBlank host) "host" host ++
      param (net == "grpc" && !isBlank serviceName) "serviceName" serviceName ++
      param (net == "tcp" && (!isBlank headerType && headerType != "none")) "headerType" headerType := by
  split
  · rename_i h
    rcases h with rfl | rfl | rfl | rfl <;> simp [carriesHost, param]
  · rename_i h
    have hc : carriesHost net = false := by
      simp only [not_or] at h
      simp [carriesHost, h]
    split
    · rename_i hg
      subst hg
      simp [carriesHost, param]
    · split
      · rename_i hg ht
        subst ht
        simp [carriesHost, param]
      · rename_i hg ht
        simp [hc, hg, ht, param]

theorem realityQuery_eq (st : XrayStream) :
    (if st.security = "reality" then
      param (!isBlank st.publicKey) "pbk" st.publicKey ++
      param (!isBlank st.shortId) "sid" st.shortId ++
      param (!isBlank st.spiderX) "spx" st.spiderX ++
      param (!isBlank st.pqv) "pqv" st.pqv
    else []) =
      param (st.security == "reality" && !isBlank st.publicKey) "pbk" st.publicKey ++
      param (st.security == "reality" && !isBlank st.shortId) "sid" st.shortId ++
      param (st.security == "reality" && !isBlank st.spiderX) "spx" st.spiderX ++
      param (st.security == "reality" && !isBlank st.pqv) "pqv" st.pqv := by
  split
  · rename_i h
    simp [h]
  · rename_i h
    simp [h, param]

theorem xhttpQuery_eq (net mode extra : String) :
    (if net = "xhttp" ∨ net = "splithttp" then
      param (!isBlank mode) "mode" mode ++ param (!isBlank extra) "extra" extra
    else []) =
      param (decide (net = "xhttp" ∨ net = "splithttp") && !isBlank mode) "mode" mode ++
      param (decide (net = "xhttp" ∨ net = "splithttp") && !isBlank extra) "extra" extra := by
  split
  · rename_i h
    simp [h]
  · rename_i h
    simp [h, param]

/-! ## 2. The stream that comes back -/

/-- A stream, written and read: each field under the writer's condition, otherwise the reader's
    default. -/
def reread (st : XrayStream) : XrayStream where
  network := st.network
  security := st.security
  sni := ifBlank st.sni ""
  fingerprint := ifBlank st.fingerprint ""
  alpn := ifBlank st.alpn ""
  host := if carriesHost st.network then ifBlank st.host "" else ""
  path := if carriesHost st.network then ifBlank st.path "/" else "/"
  headerType := if st.network = "tcp" then ifBlank st.headerType "none" else "none"
  serviceName := if st.network = "grpc" then ifBlank st.serviceName "" else ""
  publicKey := if st.security = "reality" then ifBlank st.publicKey "" else ""
  shortId := if st.security = "reality" then ifBlank st.shortId "" else ""
  spiderX := if st.security = "reality" then ifBlank st.spiderX "" else ""
  pqv := if st.security = "reality" then ifBlank st.pqv "" else ""
  mode := if st.network = "xhttp" ∨ st.network = "splithttp" then ifBlank st.mode "" else ""
  extra := if st.network = "xhttp" ∨ st.network = "splithttp" then ifBlank st.extra "" else ""

/-- A parameter that is read without a default. -/
theorem getD_param (cond : Bool) (s : String) :
    (if (cond && !isBlank s) = true then some s else none).getD ""
      = if cond then ifBlank s "" else "" := by
  cases cond
  · rfl
  · cases h : isBlank s <;> simp [ifBlank, h]

/-- A parameter that is not written where it is the default, and read with that default. -/
theorem ifNullOrBlank_param {cond : Bool} {s default : String} (h : cond = false → s = default) :
    ifNullOrBlank (if cond = true then some s else none) default = ifBlank s default := by
  cases cond
  · rw [h rfl]
    simp [ifNullOrBlank, ifBlank]
  · rfl

/-- **The stream of a link that was written.** -/
theorem streamFrom_streamQuery {st : XrayStream} (hnet : isBlank st.network = false)
    (hsec : isBlank st.security = false) : streamFrom (streamQuery st) = reread st := by
  have hnet' := ifBlank_of_isBlank_eq_false hnet "tcp"
  have hsec' := ifBlank_of_isBlank_eq_false hsec "none"
  have hsni : ifNullOrBlank (if (!isBlank st.sni) = true then some st.sni else none) ""
      = ifBlank st.sni "" := by
    cases h : isBlank st.sni <;> simp [ifNullOrBlank, ifBlank, h]
  have hpath : ifNullOrBlank
      (if carriesHost st.network = true then some (ifBlank st.path "/") else none) "/"
      = if carriesHost st.network = true then ifBlank st.path "/" else "/" := by
    split
    · exact ifBlank_of_isBlank_eq_false (isBlank_ifBlank (by decide)) "/"
    · rfl
  have hheader : ifNullOrBlank (if (st.network == "tcp" &&
        (!isBlank st.headerType && st.headerType != "none")) = true then some st.headerType else none)
        "none" = if st.network = "tcp" then ifBlank st.headerType "none" else "none" := by
    by_cases ht : st.network = "tcp"
    · cases hb : isBlank st.headerType
      · by_cases hn : st.headerType = "none"
        · simp [ht, hn, ifNullOrBlank, ifBlank]
        · simp [ht, hb, hn, ifNullOrBlank, ifBlank]
      · simp [ht, hb, ifNullOrBlank, ifBlank]
    · simp [ht, ifNullOrBlank]
  have hplain : ∀ s : String, (if (!isBlank s) = true then some s else none).getD "" = ifBlank s "" :=
    fun s => getD_param true s
  unfold streamFrom streamQuery reread
  simp only [hnet', networkQuery_eq, realityQuery_eq, xhttpQuery_eq, List.lookup_append, lookup_param,
    String.reduceEq, and_false, and_true, if_false, Option.or_none, Option.none_or, Option.getD_none]
  rw [ifNullOrBlank_param (by simp), ifNullOrBlank_param (by simp [hsec]), hsni, hpath, hheader, hnet',
    hsec']
  simp only [hplain, getD_param, decide_eq_true_eq, beq_iff_eq]

theorem lookup_flow_streamQuery (st : XrayStream) : (streamQuery st).lookup "flow" = none := by
  rw [List.lookup_eq_none_iff]
  intro m hm
  have hk := (keys_streamQuery st).mem (List.mem_map_of_mem hm)
  have hne : ∀ k ∈ streamKeys, "flow" ≠ k := by decide
  simpa using hne m.1 hk

/-- The parameters of VLESS itself are none of the stream's. -/
theorem streamFrom_vlessQuery (o : XrayOutbound) :
    streamFrom (vlessQuery o) = streamFrom (streamQuery o.stream) := by
  unfold streamFrom vlessQuery
  simp only [List.lookup_append, List.lookup_singleton, lookup_param, String.reduceBEq, String.reduceEq,
    and_false, if_false, Option.none_or, Bool.false_eq_true]

/-! ## 3. Where the fields stand -/

end XrayShareLink

namespace XrayConfig

section Places

variable {doubles : Doubles} {o : XrayOutbound}

/-- The outbound of a protocol with a transport of its own kind. -/
theorem outboundJson_eq (h : o.protocol ∈ ["vless", "vmess", "trojan"]) :
    outboundJson doubles o = [("tag", .str proxyTag), ("protocol", .str o.protocol),
      ("settings", .obj (settings o)), ("streamSettings", .obj (streamSettings doubles o))] := by
  unfold outboundJson proxyOutbound
  simp only [List.mem_cons, List.not_mem_nil, or_false] at h
  rcases h with h | h | h <;> simp [h, JsonObject.put]

theorem lookup_settings (doubles : Doubles) (h : o.protocol ∈ ["vless", "vmess", "trojan"]) :
    (outboundJson doubles o).lookup "settings" = some (.obj (settings o)) := by
  rw [outboundJson_eq h]
  rfl

theorem lookup_streamSettings (h : o.protocol ∈ ["vless", "vmess", "trojan"]) :
    (outboundJson doubles o).lookup "streamSettings" = some (.obj (streamSettings doubles o)) := by
  rw [outboundJson_eq h]
  rfl

theorem lookup_tlsSettings (h : o.stream.security = "tls") :
    (streamSettings doubles o).lookup "tlsSettings" = some (.obj (tlsSettings o)) := by
  unfold streamSettings securitySettings
  rw [if_pos h]
  rfl

theorem lookup_realitySettings (h : o.stream.security = "reality") :
    (streamSettings doubles o).lookup "realitySettings" = some (.obj (realitySettings o.stream)) := by
  unfold streamSettings securitySettings
  rw [h]
  rfl

/-- The members of the stream that are not the network's. -/
def ownKeys : List String := ["network", "security", "tlsSettings", "realitySettings"]

theorem lookup_of_mem_ownKeys {k : String} (hk : k ∈ ownKeys) (st : XrayStream) :
    (networkSettings doubles st).lookup k = none := by
  have hne : ∀ k' ∉ ownKeys, (k == k') = false := by
    intro k' hk'
    rw [beq_eq_false_iff_ne]
    rintro rfl
    exact hk' hk
  have hone : ∀ (k' : String) (v : Json), k' ∉ ownKeys → List.lookup k [(k', v)] = none := by
    intro k' v hk'
    rw [List.lookup_cons, hne k' hk']
    rfl
  unfold networkSettings
  split
  · exact hone _ _ (by decide)
  · split
    · exact hone _ _ (by decide)
    · split
      · exact hone _ _ (by decide)
      · split
        · exact hone _ _ (by decide)
        · split
          · exact hone _ _ (by decide)
          · rfl

theorem lookup_of_not_mem_ownKeys {k : String} (hk : k ∉ ownKeys) (o : XrayOutbound) :
    (streamSettings doubles o).lookup k = (networkSettings doubles o.stream).lookup k := by
  simp only [ownKeys, List.mem_cons, List.not_mem_nil, or_false, not_or] at hk
  obtain ⟨hn, hs, ht, hr⟩ := hk
  have hsecurity : (securitySettings o).lookup k = none := by
    unfold securitySettings
    split
    · simp [ht]
    · split
      · simp [hr]
      · rfl
  unfold streamSettings
  rw [List.lookup_append, List.lookup_append, hsecurity]
  simp only [List.lookup_cons, beq_false_of_ne hn, beq_false_of_ne hs, List.lookup_nil,
    Option.or_none, Option.none_or]

/-- **Where the streams are the same, the networks are.** -/
theorem same_networkSettings {p : XrayOutbound}
    (hs : Json.Same (.obj (streamSettings doubles p)) (.obj (streamSettings doubles o))) :
    Json.Same (.obj (networkSettings doubles p.stream)) (.obj (networkSettings doubles o.stream)) := by
  intro path
  cases path with
  | nil => rfl
  | cons step path =>
    cases step with
    | index i => rfl
    | key k =>
      have hk := hs (.key k :: path)
      unfold Json.at? at hk ⊢
      by_cases hm : k ∈ ownKeys
      · rw [lookup_of_mem_ownKeys hm, lookup_of_mem_ownKeys hm]
      · rwa [lookup_of_not_mem_ownKeys hm, lookup_of_not_mem_ownKeys hm] at hk

/-! The members of the networks and of the protocols. -/

theorem lookup_member (cond : Bool) (name k : String) (v : Json) :
    (member cond name v).lookup k = if cond = true ∧ k = name then some v else none := by
  cases cond
  · rfl
  · by_cases h : k = name
    · simp [member, h]
    · simp [member, h]

theorem at_flow (h : o.protocol = "trojan") :
    (Json.obj (settings o)).at? [.key "servers", .index 0, .key "flow"]
      = if isBlank o.flow then none else some (.str o.flow) := by
  have hset : settings o = trojanSettings o := by simp [settings, h]
  rw [hset]
  cases hb : isBlank o.flow <;>
    simp [trojanSettings, Json.at?, Json.leaf, List.lookup_cons, lookup_member, hb]

variable {st : XrayStream}

theorem at_h2_path (h : st.network = "h2") :
    (Json.obj (networkSettings doubles st)).at? [.key "httpSettings", .key "path"]
      = some (.str (ifBlank st.path "/")) := by
  simp [networkSettings, h, Json.at?, Json.leaf]

theorem at_h2_host (h : st.network = "h2") :
    (Json.obj (networkSettings doubles st)).at? [.key "httpSettings", .key "host"]
      = if isBlank st.host then none else some (.arr 1) := by
  cases hb : isBlank st.host <;>
    simp [networkSettings, h, Json.at?, Json.leaf, List.lookup_cons, lookup_member, hb]

theorem at_header (h : st.network = "tcp") (ht : st.headerType = "http") :
    (Json.obj (networkSettings doubles st)).at? [.key "tcpSettings", .key "header", .key "request"]
      = if isBlank st.host then none else some .obj := by
  cases hb : isBlank st.host <;>
    simp [networkSettings, h, ht, Json.at?, Json.leaf, List.lookup_cons, lookup_member, hb]

theorem at_serviceName (h : st.network = "grpc") :
    (Json.obj (networkSettings doubles st)).at? [.key "grpcSettings", .key "serviceName"]
      = some (.str st.serviceName) := by
  simp [networkSettings, h, Json.at?, Json.leaf]

theorem at_mode (h : st.network = "xhttp" ∨ st.network = "splithttp") :
    (Json.obj (networkSettings doubles st)).at? [.key "xhttpSettings", .key "mode"]
      = if isBlank st.mode then none else some (.str st.mode) := by
  have hextra : (extraMember doubles st).lookup "mode" = none := by
    unfold extraMember
    split
    · rfl
    · split <;> rfl
  rcases h with h | h <;> cases hb : isBlank st.mode <;>
    simp [networkSettings, h, Json.at?, Json.leaf, List.lookup_cons, List.lookup_append, lookup_member,
      hextra, hb]

theorem at_extra (h : st.network = "xhttp" ∨ st.network = "splithttp") :
    (Json.obj (networkSettings doubles st)).at? [.key "xhttpSettings", .key "extra"]
      = if isBlank st.extra then none else (Json.ofText doubles st.extra).map fun _ => .obj := by
  have hextra : ((extraMember doubles st).lookup "extra").map Json.leaf
      = if isBlank st.extra then none else (Json.ofText doubles st.extra).map fun _ => .obj := by
    unfold extraMember
    split
    · rfl
    · split
      · rename_i ms hms
        rw [hms]
        rfl
      · rename_i hms
        rw [hms]
        rfl
  rw [← hextra]
  rcases h with h | h <;> cases hl : (extraMember doubles st).lookup "extra" <;>
    simp [networkSettings, h, Json.at?, List.lookup_cons, List.lookup_append, lookup_member, hl]

theorem at_security : (Json.obj (streamSettings doubles o)).at? [.key "security"]
    = some (.str (ifBlank o.stream.security "none")) := by
  simp [streamSettings, Json.at?, Json.leaf, List.lookup_cons]

end Places

end XrayConfig

namespace XrayShareLink

open XrayConfig

/-! ## 4. What is lost -/

/-- There is nothing to lose: the writer leaves out the flow of Trojan; path and host of "h2"; the host
    outside the networks that carry one, where an HTTP header or the server name of TLS would need it;
    and blanks, where the configuration has the text as it is. -/
structure Kept (o : XrayOutbound) : Prop where
  flow : o.protocol = "trojan" → isBlank o.flow = true
  h2 : o.stream.network = "h2" → o.stream.path = "/" ∧ isBlank o.stream.host = true
  header : o.stream.network = "tcp" → o.stream.headerType = "http" → isBlank o.stream.host = true
  serverName : o.stream.security = "tls" → isBlank o.stream.sni = true →
    carriesHost o.stream.network = false → isBlank o.stream.host = true ∨ o.stream.host = o.address
  serviceName : o.stream.network = "grpc" → ifBlank o.stream.serviceName "" = o.stream.serviceName
  reality : o.stream.security = "reality" →
    ifBlank o.stream.sni "" = o.stream.sni ∧ ifBlank o.stream.publicKey "" = o.stream.publicKey

/-- `p` is `o` after a round trip, the credentials apart. -/
structure Reread (o p : XrayOutbound) : Prop where
  protocol : p.protocol = o.protocol
  address : p.address = o.address
  port : p.port = o.port
  uuid : p.uuid = o.uuid
  password : p.password = o.password
  encryption : o.protocol = "vless" → ifBlank p.encryption "none" = ifBlank o.encryption "none"
  flow : p.flow = if o.protocol = "vless" then ifBlank o.flow "" else ""
  stream : p.stream = reread o.stream

theorem isBlank_empty : isBlank "" = true := by decide

theorem isBlank_ifBlank_empty (s : String) : isBlank (ifBlank s "") = isBlank s := by
  cases h : isBlank s <;> simp [ifBlank, h, isBlank_empty]

theorem ifBlank_ifBlank_empty (s default : String) : ifBlank (ifBlank s "") default = ifBlank s default := by
  cases h : isBlank s <;> simp [ifBlank, h, isBlank_empty]

theorem ifBlank_eq_http_iff (s : String) : ifBlank s "none" = "http" ↔ s = "http" := by
  cases hb : isBlank s with
  | false => rw [ifBlank_of_isBlank_eq_false hb]
  | true =>
    have hne : s ≠ "http" := by
      rintro rfl
      revert hb
      decide
    simp [ifBlank, hb, hne]

/-- A member that is put where its text is not blank. -/
theorem member_ifBlank (s name : String) (f : String → Json) :
    member (!isBlank (ifBlank s "")) name (f (ifBlank s "")) = member (!isBlank s) name (f s) := by
  rw [isBlank_ifBlank_empty]
  cases h : isBlank s
  · rw [ifBlank_of_isBlank_eq_false h]
  · rfl

section Configuration

variable {doubles : Doubles} {o p : XrayOutbound}

theorem mem_protocols (hv : o.protocol ∈ ["vless", "trojan"]) :
    o.protocol ∈ ["vless", "vmess", "trojan"] := by
  simp only [List.mem_cons, List.not_mem_nil, or_false] at hv ⊢
  tauto

theorem settings_of_reread (hv : o.protocol ∈ ["vless", "trojan"]) (hr : Reread o p)
    (hflow : o.protocol = "trojan" → isBlank o.flow = true) : settings p = settings o := by
  simp only [List.mem_cons, List.not_mem_nil, or_false] at hv
  rcases hv with hv | hv
  · have huser : vlessUser p = vlessUser o := by
      unfold vlessUser
      rw [hr.uuid, hr.encryption hv, hr.flow, if_pos hv, member_ifBlank o.flow "flow" .str]
    simp [settings, hr.protocol, hv, vlessSettings, vnext, hr.address, hr.port, huser]
  · have hne : o.protocol ≠ "vless" := by
      rw [hv]
      decide
    simp [settings, hr.protocol, hv, trojanSettings, hr.address, hr.port, hr.password, hr.flow,
      hflow hv, member, isBlank_empty]

theorem tlsSettings_of_reread (hr : Reread o p)
    (hname : isBlank o.stream.sni = true → carriesHost o.stream.network = false →
      isBlank o.stream.host = true ∨ o.stream.host = o.address) : tlsSettings p = tlsSettings o := by
  have hserver : ifBlank p.stream.sni (ifBlank p.stream.host p.address)
      = ifBlank o.stream.sni (ifBlank o.stream.host o.address) := by
    rw [hr.stream, hr.address]
    simp only [reread]
    rw [ifBlank_ifBlank_empty]
    cases hs : isBlank o.stream.sni with
    | false => rw [ifBlank_of_isBlank_eq_false hs, ifBlank_of_isBlank_eq_false hs]
    | true =>
      cases hc : carriesHost o.stream.network with
      | true => rw [if_pos rfl, ifBlank_ifBlank_empty]
      | false =>
        rcases hname hs hc with hh | hh
        · simp [ifBlank, hs, hh, isBlank_empty]
        · simp [ifBlank, hs, hh, isBlank_empty]
  unfold tlsSettings
  simp only [hserver]
  simp only [hr.stream, reread, member_ifBlank o.stream.fingerprint "fingerprint" .str]
  rw [member_ifBlank o.stream.alpn "alpn" fun s =>
    .arr ((s.toList.splitOn ',').map fun cs => .str (String.ofList (trimChars cs)))]

theorem realitySettings_reread {st : XrayStream} (hsec : st.security = "reality")
    (hsni : ifBlank st.sni "" = st.sni) (hkey : ifBlank st.publicKey "" = st.publicKey) :
    realitySettings (reread st) = realitySettings st := by
  unfold realitySettings
  simp only [reread, if_pos hsec, hsni, hkey, member_ifBlank _ _ Json.str]

theorem securitySettings_of_reread (hr : Reread o p) (hk : Kept o) :
    securitySettings p = securitySettings o := by
  have hsec : p.stream.security = o.stream.security := by
    rw [hr.stream]
    rfl
  unfold securitySettings
  rw [hsec]
  split
  · rename_i h
    rw [tlsSettings_of_reread hr (hk.serverName h)]
  · split
    · rename_i h
      rw [hr.stream, realitySettings_reread h (hk.reality h).1 (hk.reality h).2]
    · rfl

theorem extraMember_reread {st : XrayStream} (h : st.network = "xhttp" ∨ st.network = "splithttp") :
    extraMember doubles (reread st) = extraMember doubles st := by
  unfold extraMember
  simp only [reread, if_pos h, isBlank_ifBlank_empty]
  split
  · rfl
  · rename_i hb
    rw [ifBlank_of_isBlank_eq_false (by simpa using hb)]

theorem networkSettings_reread (hpath : isBlank o.stream.path = false) (hk : Kept o) :
    networkSettings doubles (reread o.stream) = networkSettings doubles o.stream := by
  have hnet : (reread o.stream).network = o.stream.network := rfl
  have hcarried : carriesHost o.stream.network = true →
      (reread o.stream).path = o.stream.path ∧ (reread o.stream).host = ifBlank o.stream.host "" := by
    intro hc
    simp [reread, hc, ifBlank_of_isBlank_eq_false hpath]
  unfold networkSettings
  rw [hnet]
  split
  · rename_i h
    obtain ⟨hp, hh⟩ := hcarried (by simp [carriesHost, h])
    rw [hp, hh, member_ifBlank o.stream.host "host" .str]
  · split
    · rename_i h
      simp [reread, h, hk.serviceName h]
    · split
      · rename_i h
        have hc : carriesHost o.stream.network = true := by
          rcases h with h | h <;> simp [carriesHost, h]
        have hm : (reread o.stream).mode = ifBlank o.stream.mode "" := if_pos h
        obtain ⟨hp, hh⟩ := hcarried hc
        rw [hp, hh, hm, extraMember_reread h, member_ifBlank o.stream.host "host" .str,
          member_ifBlank o.stream.mode "mode" .str]
      · split
        · rename_i h
          rcases h with h | h
          · obtain ⟨hp, hh⟩ := hcarried (by simp [carriesHost, h])
            rw [hp, hh, member_ifBlank o.stream.host "host" fun s => .arr [.str s]]
          · obtain ⟨hp, hh⟩ := hk.h2 h
            have hc : carriesHost o.stream.network = false := by simp [carriesHost, h]
            simp [reread, hc, hp, hh, isBlank_empty, member]
        · have hheader : o.stream.network = "tcp" →
              ((reread o.stream).headerType = "http" ↔ o.stream.headerType = "http") := by
            intro ht
            simp only [reread, if_pos ht]
            exact ifBlank_eq_http_iff o.stream.headerType
          by_cases h : o.stream.network = "tcp" ∧ o.stream.headerType = "http"
          · have hc : carriesHost o.stream.network = false := by simp [carriesHost, h.1]
            rw [if_pos ⟨h.1, (hheader h.1).2 h.2⟩, if_pos h]
            simp [reread, hc, hk.header h.1 h.2, isBlank_empty, member]
          · rw [if_neg fun e => h ⟨e.1, (hheader e.1).1 e.2⟩, if_neg h]

/-- **Nothing to lose, nothing lost.** -/
theorem outboundJson_of_kept (hv : o.protocol ∈ ["vless", "trojan"])
    (hpath : isBlank o.stream.path = false) (hr : Reread o p) (hk : Kept o) :
    outboundJson doubles p = outboundJson doubles o := by
  have hstream : streamSettings doubles p = streamSettings doubles o := by
    unfold streamSettings
    rw [securitySettings_of_reread hr hk, hr.stream, networkSettings_reread hpath hk]
    rfl
  have hm := mem_protocols hv
  rw [outboundJson_eq hm, outboundJson_eq (hr.protocol ▸ hm), hr.protocol, hstream,
    settings_of_reread hv hr hk.flow]

/-- Where nothing is put on one side, the text on the other one is blank. -/
theorem isBlank_of_ite {s : String} {x : Json.Leaf}
    (h : none = if isBlank s = true then none else some x) : isBlank s = true := by
  by_contra hb
  rw [if_neg hb] at h
  cases h

theorem flow_of_same (hv : o.protocol = "trojan") (hr : Reread o p)
    (hs : Json.Same (.obj (settings p)) (.obj (settings o))) : isBlank o.flow = true := by
  have h := hs [.key "servers", .index 0, .key "flow"]
  rw [at_flow (hr.protocol.trans hv), at_flow hv, hr.flow, hv] at h
  exact isBlank_of_ite h

section Network

variable {st : XrayStream}
  (hs : Json.Same (.obj (networkSettings doubles (reread st))) (.obj (networkSettings doubles st)))

include hs

theorem h2_of_same (hn : st.network = "h2") (hpath : isBlank st.path = false) :
    st.path = "/" ∧ isBlank st.host = true := by
  have hn' : (reread st).network = "h2" := hn
  have hc : carriesHost st.network = false := by simp [carriesHost, hn]
  constructor
  · have hp := hs [.key "httpSettings", .key "path"]
    rw [at_h2_path hn, at_h2_path hn', ifBlank_of_isBlank_eq_false hpath] at hp
    simpa [reread, hc, ifBlank] using hp.symm
  · have hh := hs [.key "httpSettings", .key "host"]
    rw [at_h2_host hn, at_h2_host hn'] at hh
    simp only [reread, hc] at hh
    exact isBlank_of_ite hh

theorem header_of_same (hn : st.network = "tcp") (ht : st.headerType = "http") :
    isBlank st.host = true := by
  have hn' : (reread st).network = "tcp" := hn
  have ht' : (reread st).headerType = "http" := by
    simp only [reread, if_pos hn, ht]
    decide
  have hc : carriesHost st.network = false := by simp [carriesHost, hn]
  have hh := hs [.key "tcpSettings", .key "header", .key "request"]
  rw [at_header hn ht, at_header hn' ht'] at hh
  simp only [reread, hc] at hh
  exact isBlank_of_ite hh

theorem serviceName_of_same (hn : st.network = "grpc") :
    ifBlank st.serviceName "" = st.serviceName := by
  have hn' : (reread st).network = "grpc" := hn
  have h := hs [.key "grpcSettings", .key "serviceName"]
  rw [at_serviceName hn, at_serviceName hn'] at h
  simpa [reread, hn] using h

end Network

section Security

variable (hr : Reread o p)
  (hs : Json.Same (.obj (streamSettings doubles p)) (.obj (streamSettings doubles o)))

include hr hs

theorem serverName_of_same (hsec : o.stream.security = "tls") (hsni : isBlank o.stream.sni = true)
    (hc : carriesHost o.stream.network = false) :
    isBlank o.stream.host = true ∨ o.stream.host = o.address := by
  have hsec' : p.stream.security = "tls" := by
    rw [hr.stream]
    exact hsec
  have h := (hs.lookup (lookup_tlsSettings hsec') (lookup_tlsSettings hsec)) [.key "serverName"]
  have hname : ifBlank p.stream.sni (ifBlank p.stream.host p.address)
      = ifBlank o.stream.sni (ifBlank o.stream.host o.address) := by
    simpa [tlsSettings, Json.at?, Json.leaf] using h
  cases hb : isBlank o.stream.host with
  | true => exact .inl rfl
  | false =>
    right
    simpa [hr.stream, hr.address, reread, hc, ifBlank, hsni, hb, isBlank_empty] using hname.symm

theorem reality_of_same (hsec : o.stream.security = "reality") :
    ifBlank o.stream.sni "" = o.stream.sni ∧ ifBlank o.stream.publicKey "" = o.stream.publicKey := by
  have hsec' : p.stream.security = "reality" := by
    rw [hr.stream]
    exact hsec
  have h := hs.lookup (lookup_realitySettings hsec') (lookup_realitySettings hsec)
  rw [hr.stream] at h
  have hname := h [.key "serverName"]
  have hkey := h [.key "publicKey"]
  constructor
  · simpa [realitySettings, Json.at?, Json.leaf, reread] using hname
  · simpa [realitySettings, Json.at?, Json.leaf, List.lookup_cons, reread, hsec] using hkey

end Security

/-- **The configuration comes back exactly where there is nothing to lose.** -/
theorem same_outboundJson_iff (doubles : Doubles) (hv : o.protocol ∈ ["vless", "trojan"])
    (hpath : isBlank o.stream.path = false) (hr : Reread o p) :
    Json.Same (.obj (outboundJson doubles p)) (.obj (outboundJson doubles o)) ↔ Kept o := by
  constructor
  · intro hs
    have hm := mem_protocols hv
    have hsettings := hs.lookup (lookup_settings doubles (hr.protocol ▸ hm)) (lookup_settings doubles hm)
    have hstream := hs.lookup (lookup_streamSettings (hr.protocol ▸ hm)) (lookup_streamSettings hm)
    have hnetwork := same_networkSettings hstream
    rw [hr.stream] at hnetwork
    exact {
      flow := fun hp => flow_of_same hp hr hsettings
      h2 := fun hn => h2_of_same hnetwork hn hpath
      header := header_of_same hnetwork
      serverName := serverName_of_same hr hstream
      serviceName := serviceName_of_same hnetwork
      reality := reality_of_same hr hstream }
  · intro hk
    exact .of_eq (by rw [outboundJson_of_kept hv hpath hr hk])

end Configuration

/-! ## 5. Links -/

/-- What is known of an outbound that a VLESS or a Trojan link gave. -/
structure Parsed (o : XrayOutbound) : Prop where
  protocol : o.protocol ∈ ["vless", "trojan"]
  linkable : Linkable o
  network : isBlank o.stream.network = false
  security : isBlank o.stream.security = false
  path : isBlank o.stream.path = false
  vless : o.protocol = "vless" → o.password = ""
  trojan : o.protocol = "trojan" → o.uuid = "" ∧ o.stream.security ≠ "none"

section Links

variable {doubles : Doubles} {o : XrayOutbound}

theorem streamFrom_nonblank (q : Query) : isBlank (streamFrom q).network = false ∧
    isBlank (streamFrom q).security = false ∧ isBlank (streamFrom q).path = false :=
  ⟨isBlank_ifNullOrBlank (by decide), isBlank_ifNullOrBlank (by decide),
    isBlank_ifNullOrBlank (by decide)⟩

theorem parsed_of_parse {raw : String}
    (hscheme : startsWithIgnoreCase (trim raw) "vless://" = true ∨
      startsWithIgnoreCase (trim raw) "trojan://" = true)
    (hp : parse doubles raw = some o) : Parsed o := by
  rcases hscheme with hs | hs
  · obtain ⟨form, hform, ho⟩ := parse_cases "vless://" (by decide) hs hp
    rw [parseOnce_vless hform] at ho
    obtain ⟨hv, hl, hpw, q, hq⟩ := parseVless_cases ho
    obtain ⟨hn, hsec, hpath⟩ := streamFrom_nonblank q
    rw [← hq] at hn hsec hpath
    exact ⟨by simp [hv], hl, hn, hsec, hpath, fun _ => hpw,
      fun ht => absurd (hv.symm.trans ht) (by decide)⟩
  · obtain ⟨form, hform, ho⟩ := parse_cases "trojan://" (by decide) hs hp
    rw [parseOnce_trojan hform] at ho
    obtain ⟨ht, hl, hu, q, hq⟩ := parseTrojan_cases ho
    obtain ⟨hn, hsec, hpath⟩ := streamFrom_nonblank q
    have hvless : o.protocol = "vless" → o.password = "" :=
      fun hv => absurd (ht.symm.trans hv) (by decide)
    rw [hsec, Bool.false_or] at hq
    split at hq
    · have htls : o.stream.security = "tls" := by rw [hq]
      have hnet : o.stream.network = (streamFrom q).network := by rw [hq]
      have hp' : o.stream.path = (streamFrom q).path := by rw [hq]
      exact ⟨by simp [ht], hl, hnet ▸ hn, by rw [htls]; decide, hp' ▸ hpath, hvless,
        fun _ => ⟨hu, by rw [htls]; decide⟩⟩
    · rename_i hnone
      rw [← hq] at hn hsec hpath hnone
      exact ⟨by simp [ht], hl, hn, hsec, hpath, hvless, fun _ => ⟨hu, by simpa using hnone⟩⟩

/-- **The link of a parsed outbound, read back.** -/
theorem Parsed.reread (doubles : Doubles) (h : Parsed o) : ∃ link o', toLink o = some link ∧
    parse doubles link = some o' ∧ o'.uuid = urlDecode o.uuid ∧ o'.password = urlDecode o.password ∧
      Reread o { o' with uuid := o.uuid, password := o.password } := by
  have hempty : urlDecode "" = "" := by decide
  have hstream := streamFrom_streamQuery h.network h.security
  have hv := h.protocol
  simp only [List.mem_cons, List.not_mem_nil, or_false] at hv
  rcases hv with hv | hv
  · have henc : (vlessQuery o).lookup "encryption" = some (ifBlank o.encryption "none") := rfl
    have hflow : ((vlessQuery o).lookup "flow").getD "" = ifBlank o.flow "" := by
      unfold vlessQuery
      rw [List.lookup_append, List.lookup_append, lookup_flow_streamQuery, lookup_param]
      cases hb : isBlank o.flow <;> simp [ifBlank, hb]
    obtain ⟨link, hlink, hp⟩ := parse_toLink_vless doubles h.linkable hv
    refine ⟨link, _, hlink, hp, rfl, by rw [h.vless hv, hempty], ?_⟩
    refine ⟨hv.symm, rfl, rfl, rfl, rfl, fun _ => ?_, ?_, ?_⟩
    · simp only [henc, ifNullOrBlank]
      rw [ifBlank_of_isBlank_eq_false (isBlank_ifBlank (by decide)),
        ifBlank_of_isBlank_eq_false (isBlank_ifBlank (by decide))]
    · rw [if_pos hv]
      exact hflow
    · exact (streamFrom_vlessQuery o).trans hstream
  · obtain ⟨link, hlink, hp⟩ := parse_toLink_trojan doubles h.linkable hv
    refine ⟨link, _, hlink, hp, by rw [(h.trojan hv).1, hempty], rfl, ?_⟩
    have hnv : o.protocol ≠ "vless" := by
      rw [hv]
      decide
    have hsec : (XrayShareLink.reread o.stream).security = o.stream.security := rfl
    refine ⟨hv.symm, rfl, rfl, rfl, rfl, fun e => absurd e hnv, ?_, ?_⟩
    · rw [if_neg hnv, lookup_flow_streamQuery]
      rfl
    · simp [hstream, hsec, h.security, (h.trojan hv).2]

/-- The configuration of `o'` is that of `o`, apart from what `%` and `+` do to the credentials: with
    the credentials of `o` put back it is, and where they have neither it is anyway. -/
def SameTransport (doubles : Doubles) (o o' : XrayOutbound) : Prop :=
  Json.Same (.obj (outboundJson doubles { o' with uuid := o.uuid, password := o.password }))
      (.obj (outboundJson doubles o)) ∧
    ((∀ x ∈ ['%', '+'], x ∉ o.uuid.toList ∧ x ∉ o.password.toList) →
      Json.Same (.obj (outboundJson doubles o')) (.obj (outboundJson doubles o)))

theorem Parsed.sameTransport_iff (h : Parsed o) {link : String} (hl : toLink o = some link) :
    (∃ o', parse doubles link = some o' ∧ SameTransport doubles o o') ↔ Kept o := by
  obtain ⟨link', o', hl', hp, huuid, hpw, hr⟩ := h.reread doubles
  rw [hl, Option.some.injEq] at hl'
  subst hl'
  have hiff := same_outboundJson_iff doubles h.protocol h.path hr
  constructor
  · rintro ⟨o'', hp', hs, -⟩
    rw [hp, Option.some.injEq] at hp'
    subst hp'
    exact hiff.1 hs
  · intro hk
    refine ⟨o', hp, hiff.2 hk, ?_⟩
    intro hplain
    have hpct := hplain '%' (by decide)
    have hplus := hplain '+' (by decide)
    have hu := (urlDecode_eq_self_iff o.uuid).2 (.inr ⟨hpct.1, hplus.1⟩)
    have hw := (urlDecode_eq_self_iff o.password).2 (.inr ⟨hpct.2, hplus.2⟩)
    have hsame := hiff.2 hk
    rw [← hu, ← hw, ← huuid, ← hpw] at hsame
    exact hsame

end Links

/-- **Which transports survive.** -/
theorem transport_kept_iff (doubles : Doubles) (raw link : String) (o : XrayOutbound)
    (hscheme : startsWithIgnoreCase (trim raw) "vless://" = true ∨
      startsWithIgnoreCase (trim raw) "trojan://" = true)
    (hp : parse doubles raw = some o) (hl : toLink o = some link) :
    (∃ o', parse doubles link = some o' ∧ SameTransport doubles o o') ↔ Kept o :=
  (parsed_of_parse hscheme hp).sameTransport_iff hl

/-- A WebSocket server behind a host of its own. -/
def webSocketLink : String :=
  "vless://id@example.com:443?type=ws&security=tls&host=cdn.example.com&path=%2Fchat#Home"

/-- The outbound of it. -/
def webSocketOutbound : XrayOutbound :=
  { protocol := "vless", name := "Home", address := "example.com", port := 443, uuid := "id",
    stream := { network := "ws", security := "tls", host := "cdn.example.com", path := "/chat" } }

/-- The host of a WebSocket is written and comes back. -/
theorem transport_kept_iff_webSocket : ∃ link o', toLink webSocketOutbound = some link ∧
    parse (fun _ => none) webSocketLink = some webSocketOutbound ∧
    parse (fun _ => none) link = some o' ∧ SameTransport (fun _ => none) webSocketOutbound o' := by
  have hp : parse (fun _ => none) webSocketLink = some webSocketOutbound := by decide +kernel
  have hsome : (toLink webSocketOutbound).isSome = true := by decide +kernel
  obtain ⟨link, hl⟩ := Option.isSome_iff_exists.1 hsome
  have hkept : Kept webSocketOutbound :=
    ⟨by decide, by decide, by decide, by decide, by decide, by decide⟩
  obtain ⟨o', hp', hs⟩ :=
    (transport_kept_iff _ webSocketLink link webSocketOutbound (by decide) hp hl).2 hkept
  exact ⟨link, o', hl, hp, hp', hs⟩

/-- A plain TLS server by its address, with the server name in `host`. -/
def tlsLink : String := "vless://id@203.0.113.7:443?security=tls&host=example.com#Home"

/-- The outbound of it. -/
def tlsOutbound : XrayOutbound :=
  { protocol := "vless", name := "Home", address := "203.0.113.7", port := 443, uuid := "id",
    stream := { security := "tls", host := "example.com" } }

/-- **The server name is lost**: the writer leaves out the host, and TLS falls back to the address. -/
theorem host_lost : ∃ link, toLink tlsOutbound = some link ∧
    parse (fun _ => none) tlsLink = some tlsOutbound ∧
    ¬ ∃ o', parse (fun _ => none) link = some o' ∧ SameTransport (fun _ => none) tlsOutbound o' := by
  have hp : parse (fun _ => none) tlsLink = some tlsOutbound := by decide +kernel
  have hsome : (toLink tlsOutbound).isSome = true := by decide +kernel
  obtain ⟨link, hl⟩ := Option.isSome_iff_exists.1 hsome
  refine ⟨link, hl, hp, ?_⟩
  rw [(parsed_of_parse (.inl (by decide)) hp).sameTransport_iff hl]
  intro hk
  have hname := hk.serverName rfl (by decide) (by decide)
  revert hname
  decide

end XrayShareLink

end SwiftVpn
