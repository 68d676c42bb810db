/-
  File:      SwiftVpn/Xray/Config.lean
  Subject:   THE CORE'S CONFIGURATION: XrayConfig.kt and `XrayEngine.buildConfig`.

  * `XrayConfig.outboundJson` -- the proxy outbound of a parsed link, per protocol, transport and
    security;
  * `XrayConfig.build` -- the whole document around it;
  * `XrayConfig.buildFromCustom` -- a document of the user's with the pieces of the app put into it;
  * `buildConfig` -- which of the two a stored profile gets.

  A configuration is the JSON document itself; the text handed to the core is its `toString()`. A
  member is put under a name that is not there yet wherever the names are written out here, so the
  members are listed in the order of the puts.
-/
import SwiftVpn.Xray.ShareLink

namespace SwiftVpn

namespace XrayConfig

/-- `PROXY_TAG`. -/
def proxyTag : String := "proxy"

/-- A member that is put under a condition. -/
def member (cond : Bool) (name : String) (value : Json) : JsonObject :=
  if cond then [(name, value)] else []

/-! ## 1. The outbound -/

/-- The endpoint only: password and congestion live on the transport. -/
def hysteriaSettings (o : XrayOutbound) : JsonObject :=
  [("version", .int 2), ("address", .str o.address), ("port", .int o.port)]

/-- The hysteria transport, with the salamander obfuscation. -/
def hysteriaStream (o : XrayOutbound) : JsonObject :=
  [("network", .str "hysteria"),
   ("hysteriaSettings", .obj
     [("version", .int 2), ("auth", .str o.password), ("congestion", .str "bbr")])] ++
  member (equalsIgnoreCase o.stream.path "salamander" && !isBlank o.stream.host) "finalmask"
    (.obj [("udp", .arr [.obj
      [("type", .str "salamander"),
       ("settings", .obj [("password", .str o.stream.host)])]])])

/-- The user of a VLESS server. -/
def vlessUser (o : XrayOutbound) : JsonObject :=
  [("id", .str o.uuid), ("encryption", .str (ifBlank o.encryption "none"))] ++
    member (!isBlank o.flow) "flow" (.str o.flow)

/-- The user of a VMess server. -/
def vmessUser (o : XrayOutbound) : JsonObject :=
  [("id", .str o.uuid), ("alterId", .int o.alterId), ("security", .str (ifBlank o.security "auto"))]

/-- A `vnext` server with one user. -/
def vnext (o : XrayOutbound) (user : JsonObject) : JsonObject :=
  [("vnext", .arr [.obj
    [("address", .str o.address), ("port", .int o.port), ("users", .arr [.obj user])]])]

/-- `vlessSettings`. -/
def vlessSettings (o : XrayOutbound) : JsonObject := vnext o (vlessUser o)

/-- `vmessSettings`. -/
def vmessSettings (o : XrayOutbound) : JsonObject := vnext o (vmessUser o)

/-- `trojanSettings`. -/
def trojanSettings (o : XrayOutbound) : JsonObject :=
  [("servers", .arr [.obj
    ([("address", .str o.address), ("port", .int o.port), ("password", .str o.password)] ++
      member (!isBlank o.flow) "flow" (.str o.flow))])]

/-- `shadowsocksSettings`. -/
def shadowsocksSettings (o : XrayOutbound) : JsonObject :=
  [("servers", .arr [.obj
    ([("address", .str o.address), ("port", .int o.port), ("method", .str o.method),
      ("password", .str o.password)] ++
      if "2022-".toList.isPrefixOf o.method.toList && decide (0 < o.uotVersion) then
        [("uot", .bool true), ("uotVersion", .int o.uotVersion)]
      else [])])]

/-- `socksHttpSettings`. -/
def socksHttpSettings (o : XrayOutbound) (userKey : String) : JsonObject :=
  [("servers", .arr [.obj
    ([("address", .str o.address), ("port", .int o.port)] ++
      member (!isBlank o.username) "users"
        (.arr [.obj [(userKey, .str o.username), ("pass", .str o.password)]]))])]

/-- The server name falls back from the SNI to the host and from there to the address. -/
def tlsSettings (o : XrayOutbound) : JsonObject :=
  let s := o.stream
  [("serverName", .str (ifBlank s.sni (ifBlank s.host o.address)))] ++
  member (!isBlank s.fingerprint) "fingerprint" (.str s.fingerprint) ++
  member (!isBlank s.alpn) "alpn"
    (.arr ((s.alpn.toList.splitOn ',').map fun cs => .str (String.ofList (trimChars cs))))

/-- `realitySettings`. -/
def realitySettings (s : XrayStream) : JsonObject :=
  [("serverName", .str s.sni), ("publicKey", .str s.publicKey)] ++
  member (!isBlank s.fingerprint) "fingerprint" (.str s.fingerprint) ++
  member (!isBlank s.shortId) "shortId" (.str s.shortId) ++
  member (!isBlank s.spiderX) "spiderX" (.str s.spiderX) ++
  member (!isBlank s.pqv) "mldsa65Verify" (.str s.pqv)

/-- The settings of the stream's security. -/
def securitySettings (o : XrayOutbound) : JsonObject :=
  if o.stream.security = "tls" then [("tlsSettings", .obj (tlsSettings o))]
  else if o.stream.security = "reality" then [("realitySettings", .obj (realitySettings o.stream))]
  else []

/-- An `extra` that is no JSON object is left out. -/
def extraMember (doubles : Doubles) (s : XrayStream) : JsonObject :=
  if isBlank s.extra then []
  else match Json.ofText doubles s.extra with
    | some ms => [("extra", .obj ms)]
    | none => []

/-- The settings of the stream's network. -/
def networkSettings (doubles : Doubles) (s : XrayStream) : JsonObject :=
  if s.network = "ws" then
    [("wsSettings", .obj
      ([("path", .str (ifBlank s.path "/"))] ++ member (!isBlank s.host) "host" (.str s.host)))]
  else if s.network = "grpc" then
    [("grpcSettings", .obj [("serviceName", .str s.serviceName)])]
  else if s.network = "xhttp" ∨ s.network = "splithttp" then
    [("xhttpSettings", .obj
      ([("path", .str (ifBlank s.path "/"))] ++ member (!isBlank s.host) "host" (.str s.host) ++
        member (!isBlank s.mode) "mode" (.str s.mode) ++ extraMember doubles s))]
  else if s.network = "http" ∨ s.network = "h2" then
    [("httpSettings", .obj
      ([("path", .str (ifBlank s.path "/"))] ++
        member (!isBlank s.host) "host" (.arr [.str s.host])))]
  else if s.network = "tcp" ∧ s.headerType = "http" then
    [("tcpSettings", .obj [("header", .obj
      ([("type", .str "http")] ++ member (!isBlank s.host) "request"
        (.obj [("headers", .obj [("Host", .arr [.str s.host])])])))])]
  else []

/-- `streamSettings`. -/
def streamSettings (doubles : Doubles) (o : XrayOutbound) : JsonObject :=
  [("network", .str (ifBlank o.stream.network "tcp")),
   ("security", .str (ifBlank o.stream.security "none"))] ++
  securitySettings o ++ networkSettings doubles o.stream

/-- The settings of the outbound's protocol. -/
def settings (o : XrayOutbound) : JsonObject :=
  if o.protocol = "vless" then vlessSettings o
  else if o.protocol = "vmess" then vmessSettings o
  else if o.protocol = "trojan" then trojanSettings o
  else if o.protocol = "shadowsocks" then shadowsocksSettings o
  else if o.protocol = "hysteria2" then hysteriaSettings o
  else if o.protocol = "socks" then socksHttpSettings o "user"
  else if o.protocol = "http" then socksHttpSettings o "user"
  else []

/-- `proxyOutbound`; the core registers Hysteria2 as "hysteria". -/
def proxyOutbound (doubles : Doubles) (o : XrayOutbound) : JsonObject :=
  [("tag", .str proxyTag),
   ("protocol", .str (if o.protocol = "hysteria2" then "hysteria" else o.protocol)),
   ("settings", .obj (settings o))] ++
  if o.protocol = "shadowsocks" then []
  else if o.protocol = "hysteria2" then [("streamSettings", .obj (hysteriaStream o))]
  else [("streamSettings", .obj (streamSettings doubles o))]

/-- `outboundJson`. -/
def outboundJson (doubles : Doubles) (o : XrayOutbound) (tag : String := proxyTag) : JsonObject :=
  (proxyOutbound doubles o).put "tag" (.str tag)

/-! ## 2. The document around it -/

/-- `tunInbound`. -/
def tunInbound (mtu : Int) : JsonObject :=
  [("tag", .str "tun-in"), ("port", .int 0), ("protocol", .str "tun"),
   ("settings", .obj [("name", .str "swiftxray"), ("mtu", .int mtu)]),
   ("sniffing", .obj
     [("enabled", .bool true),
      ("destOverride", .arr [.str "http", .str "tls", .str "quic"]),
      ("routeOnly", .bool false)])]

/-- The rule that sends what arrives on the TUN to the outbound `tag`. -/
def tunRule (tag : String) : JsonObject :=
  [("type", .str "field"), ("inboundTag", .arr [.str "tun-in"]), ("outboundTag", .str tag)]

/-- The default `log`, `stats` and `dns`. -/
def defaultLog : Json := .obj [("loglevel", .str "warning")]

@[inherit_doc defaultLog]
def defaultStats : Json := .obj []

@[inherit_doc defaultLog]
def defaultDns : Json := .obj [("servers", .arr [.str "1.1.1.1", .str "8.8.8.8"])]

/-- The counters of the speedometer and the stall watchdog, switched on. -/
def withStats (system : JsonObject) : JsonObject :=
  (((system.put "statsOutboundUplink" (.bool true)).put "statsOutboundDownlink" (.bool true)).put
    "statsInboundUplink" (.bool true)).put "statsInboundDownlink" (.bool true)

/-- `build`. -/
def build (doubles : Doubles) (outbound : XrayOutbound) (mtu : Int := 1500) : JsonObject :=
  [("log", defaultLog),
   ("stats", defaultStats),
   ("policy", .obj [("system", .obj (withStats []))]),
   ("dns", defaultDns),
   ("inbounds", .arr [.obj (tunInbound mtu)]),
   ("outbounds", .arr
     [.obj (proxyOutbound doubles outbound),
      .obj [("protocol", .str "freedom"), ("tag", .str "direct")],
      .obj [("protocol", .str "blackhole"), ("tag", .str "block")]]),
   ("routing", .obj
     [("domainStrategy", .str "IPIfNonMatch"), ("rules", .arr [.obj (tunRule proxyTag)])])]

/-! ## 3. A document of the user's -/

/-- An object under `name` is kept, anything else is replaced. -/
def orDefault (root : JsonObject) (name : String) (default : Json) : JsonObject :=
  if (root.optObject name).isNone then root.put name default else root

/-- The tag of the first outbound, and the outbound tagged if it had none. -/
def tagFirst (first : JsonObject) : String × JsonObject :=
  if isBlank (first.optString "tag") then (proxyTag, first.put "tag" (.str proxyTag))
  else (first.optString "tag", first)

/-- The user's policy with the counters switched on. -/
def withPolicy (root : JsonObject) : JsonObject :=
  let policy := (root.optObject "policy").getD []
  root.put "policy" (.obj (policy.put "system" (.obj (withStats ((policy.optObject "system").getD [])))))

/-- The user's inbounds that are objects and no TUN. -/
def keptInbounds (root : JsonObject) : List Json :=
  ((root.optArray "inbounds").getD []).filter fun
    | .obj inbound => JsonObject.optString inbound "protocol" != "tun"
    | _ => false

/-- `JSONArray.get` on every element: a hole throws. -/
def getAll (es : List Json) : Option (List Json) :=
  es.mapM fun
    | .hole => none
    | e => some e

/-- The user's routing with the rule of the TUN in front. -/
def withRule (root : JsonObject) (tag : String) : Option JsonObject := do
  let routing := (root.optObject "routing").getD []
  let existing ← getAll ((routing.optArray "rules").getD [])
  return root.put "routing" (.obj (routing.put "rules" (.arr (.obj (tunRule tag) :: existing))))

/-- The user's document `root` with the pieces of the app, its outbounds being `first :: rest`. -/
def merge (root first : JsonObject) (rest : List Json) (mtu : Int) : Option JsonObject :=
  let tagged := tagFirst first
  let root := root.put "outbounds" (.arr (.obj tagged.2 :: rest))
  let root := orDefault (orDefault root "log" defaultLog) "stats" defaultStats
  let root := orDefault (withPolicy root) "dns" defaultDns
  let root := root.put "inbounds" (.arr (.obj (tunInbound mtu) :: keptInbounds root))
  withRule root tagged.1

/-- `buildFromCustom`: nothing where the text is no object, or has no outbound, or its first outbound
    is no object, or the document cannot be written out. -/
def buildFromCustom (doubles : Doubles) (jsonText : String) (mtu : Int := 1500) :
    Option JsonObject := do
  let root ← Json.ofText doubles jsonText
  match root.optArray "outbounds" with
  | some (.obj first :: rest) => (merge root first rest mtu).filter fun root => (Json.obj root).finite
  | _ => none

/-- `isCustomJson`: raw JSON rather than a share link. -/
def isCustomJson (text : String) : Bool :=
  (text.toList.dropWhile isWhitespace).head? == some '\x7b'

/-- `isValidCustomJson`: a document with at least one outbound. -/
def isValidCustomJson (doubles : Doubles) (text : String) : Bool :=
  match Json.ofText doubles text with
  | some root => 0 < ((root.optArray "outbounds").map List.length).getD 0
  | none => false

end XrayConfig

/-- `XrayEngine.buildConfig`, for a profile whose stored text is `raw`. -/
def buildConfig (doubles : Doubles) (raw : String) : Option JsonObject :=
  if XrayConfig.isCustomJson raw then XrayConfig.buildFromCustom doubles raw
  else ((XrayShareLink.parse doubles raw).map fun o => XrayConfig.build doubles o).filter fun root =>
    (Json.obj root).finite

end SwiftVpn
