/-
  File:      SwiftVpn/Xray/ShareLink.lean
  Subject:   SHARE LINKS: XrayShareLink.kt with XrayOutbound.kt.

  * `XrayOutbound`, `XrayStream` -- a server as a link describes it;
  * `XrayShareLink.parse` -- the raw link, the decoded link and the link with a decoded fragment are
    tried in this order, each by the parser of its scheme (`parseOnce`);
  * `XrayShareLink.toLink` -- the link written back, or nothing where the address is blank, the port
    not positive or the protocol unknown.

  An exception inside `runCatching` is `none`. The keys of a query are distinct where the code builds
  one, so an assignment to it appends. `Double.valueOf` is a parameter of everything that reads JSON
  (Lib/Json.lean).
-/
import SwiftVpn.Models
import SwiftVpn.Lib.Base64
import SwiftVpn.Lib.Json
import SwiftVpn.Lib.Uri

namespace SwiftVpn

/-! ## 1. Outbounds -/

/-- Transport and security settings. -/
structure XrayStream where
  network : String := "tcp"
  security : String := "none"
  sni : String := ""
  fingerprint : String := ""
  alpn : String := ""
  host : String := ""
  path : String := "/"
  headerType : String := "none"
  serviceName : String := ""
  publicKey : String := ""
  shortId : String := ""
  spiderX : String := ""
  pqv : String := ""
  mode : String := ""
  extra : String := ""
  deriving DecidableEq, Repr

/-- A normalised proxy server. -/
structure XrayOutbound where
  protocol : String
  name : String
  address : String
  port : Int
  uuid : String := ""
  flow : String := ""
  encryption : String := "none"
  alterId : Int := 0
  security : String := "auto"
  password : String := ""
  method : String := ""
  username : String := ""
  uotVersion : Int := 0
  stream : XrayStream := {}
  deriving DecidableEq, Repr

/-! ## 2. Text -/

/-- Kotlin's `ifBlank`. -/
def ifBlank (s default : String) : String := if isBlank s then default else s

/-- `ifNullOrBlank`. -/
def ifNullOrBlank (s : Option String) (default : String) : String :=
  match s with
  | some s => ifBlank s default
  | none => default

/-- Kotlin's `trim`. -/
def trim (s : String) : String := String.ofList (trimChars s.toList)

/-- Kotlin's `toIntOrNull`. -/
def parseIntOrNull (s : String) : Option Int := Text.parseInteger 32 10 s.toList

/-- Kotlin's `removePrefix`. -/
def removePrefix (s lit : String) : String :=
  if lit.toList.isPrefixOf s.toList then String.ofList (s.toList.drop lit.toList.length) else s

/-- `substringBefore(x, missing)`. -/
def substringBefore (x : Char) (s missing : String) : String :=
  match Text.cutFirst x s.toList with
  | some (l, _) => String.ofList l
  | none => missing

/-- `substringAfter(x, missing)`. -/
def substringAfter (x : Char) (s missing : String) : String :=
  match Text.cutFirst x s.toList with
  | some (_, r) => String.ofList r
  | none => missing

/-- `substringBeforeLast(x)`. -/
def substringBeforeLast (x : Char) (s : String) : String :=
  match Text.cutLast x s.toList with
  | some (l, _) => String.ofList l
  | none => s

/-- `substringAfterLast(x)`. -/
def substringAfterLast (x : Char) (s : String) : String :=
  match Text.cutLast x s.toList with
  | some (_, r) => String.ofList r
  | none => s

/-- `startsWith(lit, true)`. -/
def startsWithIgnoreCase (s lit : String) : Bool := Text.startsWithIgnoreCase s.toList lit.toList

/-- `equals(lit, true)`. -/
def equalsIgnoreCase (s lit : String) : Bool := Text.equalsIgnoreCase s.toList lit.toList

/-- `"$address:$port"`. -/
def hostAndPort (address : String) (port : Int) : String := address ++ ":" ++ toString port

theorem isBlank_of_mem {s : String} {c : Char} (h : c ∈ s.toList) (hc : isWhitespace c = false) :
    isBlank s = false := by
  unfold isBlank
  rw [List.all_eq_false]
  exact ⟨c, h, by simp [hc]⟩

theorem isWhitespace_of_visible {c : Char} (hlo : 33 ≤ c.toNat) (hhi : c.toNat ≤ 126) :
    isWhitespace c = false := by
  simp only [isWhitespace, Bool.or_eq_false_iff, Bool.and_eq_false_iff, decide_eq_false_iff_not,
    beq_eq_false_iff_ne]
  omega

theorem isWhitespace_of_isAlphanum {c : Char} (h : c.isAlphanum = true) : isWhitespace c = false := by
  rw [Percent.isAlphanum_iff] at h
  exact isWhitespace_of_visible (by omega) (by omega)

namespace XrayShareLink

/-! ## 3. Helpers -/

/-- A text that does not decode stays as it is. -/
def urlDecode (s : String) : String :=
  match Percent.formDecode s.toList with
  | some cs => String.ofList cs
  | none => s

/-- `URLEncoder`, a space as `%20`. -/
def urlEncode (s : String) : String :=
  String.ofList (Percent.plusToPercent (Percent.formEncode s.toList))

/-- Standard or URL-safe, padded or not. -/
def decodeBase64 (input : String) : Option (List UInt8) :=
  let s := (trimChars input.toList).map fun c =>
    if c = '-' then '+' else if c = '_' then '/' else c
  let padded := match Text.length s % 4 with
    | 2 => s ++ ['=', '=']
    | 3 => s ++ ['=']
    | _ => s
  Base64.decode padded

/-- `String(bytes, UTF_8)`. -/
def utf8String (bytes : List UInt8) : String := String.ofList (Utf8.decode bytes)

/-- `toByteArray(UTF_8)`. -/
def toByteArray (s : String) : List UInt8 := Utf8.encode s.toList

/-- A link with only its fragment decoded. -/
def withDecodedFragment (link : String) : String :=
  match Text.cutFirst '#' link.toList with
  | some (l, r) => String.ofList (l ++ ['#']) ++ urlDecode (String.ofList r)
  | none => link

/-- `URI(link)`. -/
def uriOf (link : String) : Option Uri := Uri.ofText link.toList

/-- A part of a URI, its escapes decoded. -/
def decoded (part : Option (List Char)) : Option String :=
  part.map fun cs => String.ofList ((Percent.decode cs).getD cs)

/-- `uri.host`. -/
def hostOf (uri : Uri) : Option String := uri.host.map String.ofList

/-- `uri.port.takeIf { it > 0 } ?: default`. -/
def portOr (uri : Uri) (default : Int) : Int :=
  match uri.port with
  | some n => if 0 < n then (n : Int) else default
  | none => default

/-- The name in the fragment. -/
def fragmentName (uri : Uri) (fallback : String) : String :=
  match decoded uri.fragment with
  | some f => ifBlank (urlDecode f) fallback
  | none => fallback

/-- The parameters of a link, in order. -/
abbrev Query := List (String × String)

/-- An assignment: the last one of a key counts, where the first one stands. -/
def Query.put (q : Query) (k v : String) : Query :=
  match q with
  | [] => [(k, v)]
  | (k', v') :: rest => if k' = k then (k, v) :: rest else (k', v') :: Query.put rest k v

/-- One `key=value`; a pair without `=` is dropped. -/
def queryPair (pair : List Char) : Option (String × String) :=
  (Text.cutFirst '=' pair).map fun (k, v) =>
    (urlDecode (String.ofList k), urlDecode (String.ofList v))

/-- The parameters of a raw query. -/
def queryMap (rawQuery : Option (List Char)) : Query :=
  match rawQuery with
  | none => []
  | some raw =>
    if raw.all isWhitespace then []
    else ((raw.splitOn '&').filterMap queryPair).foldl (fun q (k, v) => q.put k v) []

/-- The stream of a VLESS or Trojan link. -/
def streamFrom (q : Query) : XrayStream where
  network := ifNullOrBlank (q.lookup "type") "tcp"
  security := ifNullOrBlank (q.lookup "security") "none"
  sni := ifNullOrBlank (q.lookup "sni") ((q.lookup "peer").getD "")
  fingerprint := (q.lookup "fp").getD ""
  alpn := (q.lookup "alpn").getD ""
  host := (q.lookup "host").getD ""
  path := ifNullOrBlank (q.lookup "path") "/"
  headerType := ifNullOrBlank (q.lookup "headerType") "none"
  serviceName := (q.lookup "serviceName").getD ""
  publicKey := (q.lookup "pbk").getD ""
  shortId := (q.lookup "sid").getD ""
  spiderX := (q.lookup "spx").getD ""
  pqv := (q.lookup "pqv").getD ""
  mode := (q.lookup "mode").getD ""
  extra := (q.lookup "extra").getD ""

/-! ## 4. Parsers -/

/-- `vless://uuid@host:port?query#name`. -/
def parseVless (link : String) : Option XrayOutbound := do
  let uri ← uriOf link
  let uuid ← decoded uri.userInfo
  let host ← hostOf uri
  let port := portOr uri 443
  let q := queryMap uri.query
  return { protocol := "vless"
           uuid := urlDecode uuid
           name := fragmentName uri (hostAndPort host port)
           address := host
           port := port
           flow := (q.lookup "flow").getD ""
           encryption := ifNullOrBlank (q.lookup "encryption") "none"
           stream := streamFrom q }

/-- The query-string form of VMess. -/
def parseVmessQuery (body : String) : Option XrayOutbound := do
  let uri ← uriOf ("vmess://" ++ body)
  let uuid ← decoded uri.userInfo
  let host ← hostOf uri
  let port := portOr uri 443
  let q := queryMap uri.query
  return { protocol := "vmess"
           name := fragmentName uri (hostAndPort host port)
           address := host
           port := port
           uuid := urlDecode uuid
           security := ifNullOrBlank (q.lookup "scy") "auto"
           stream := streamFrom q }

/-- The JSON form of VMess. -/
def parseVmessJson (json : JsonObject) : Option XrayOutbound :=
  let host := json.optString "add"
  if isBlank host then none else
  let port := (parseIntOrNull (json.optString "port")).getD 443
  let net := json.optString "net" "tcp"
  let tls := json.optString "tls"
  let stream : XrayStream :=
    { network := ifBlank net "tcp"
      security := if equalsIgnoreCase tls "tls" || equalsIgnoreCase tls "reality" then tls else "none"
      sni := ifBlank (json.optString "sni") (json.optString "host")
      fingerprint := json.optString "fp"
      alpn := json.optString "alpn"
      host := json.optString "host"
      path := json.optString "path"
      headerType := json.optString "type" "none"
      serviceName := json.optString "path" }
  some { protocol := "vmess"
         name := ifBlank (json.optString "ps") (hostAndPort host port)
         address := host
         port := port
         uuid := json.optString "id"
         alterId := (parseIntOrNull (json.optString "aid")).getD 0
         security := ifBlank (json.optString "scy") "auto"
         stream := stream }

/-- `vmess://` with the base64 of a JSON object; a body that is none is read like VLESS. -/
def parseVmess (doubles : Doubles) (link : String) : Option XrayOutbound :=
  let body := trim (removePrefix (removePrefix link "vmess://") "VMESS://")
  match (decodeBase64 body).bind fun bytes => Json.ofText doubles (utf8String bytes) with
  | none => parseVmessQuery body
  | some json => parseVmessJson json

/-- `trojan://password@host:port?query#name`; TLS unless the query says otherwise. -/
def parseTrojan (link : String) : Option XrayOutbound := do
  let uri ← uriOf link
  let password ← decoded uri.userInfo
  let host ← hostOf uri
  let port := portOr uri 443
  let q := queryMap uri.query
  let stream := streamFrom q
  return { protocol := "trojan"
           name := fragmentName uri (hostAndPort host port)
           address := host
           port := port
           password := urlDecode password
           flow := (q.lookup "flow").getD ""
           stream := if isBlank stream.security || stream.security == "none"
             then { stream with security := "tls" } else stream }

/-- The SIP002 form of a Shadowsocks link: `base64(method:password)@host:port`. -/
def parseSip002 (name core userInfo rest : String) : Option XrayOutbound := do
  let hostPort := urlDecode (substringBefore '?' rest rest)
  let methodPass := utf8String (← decodeBase64 userInfo)
  let method := substringBefore ':' methodPass methodPass
  let password := substringAfter ':' methodPass ""
  let uot := if Text.containsIgnoreCase "uot=2".toList core.toList ||
      "2022-".toList.isPrefixOf method.toList then 2 else 0
  let host := substringBeforeLast ':' hostPort
  let port ← parseIntOrNull (substringAfterLast ':' hostPort)
  return { protocol := "shadowsocks"
           name := ifBlank name (hostAndPort host port)
           address := host
           port := port
           method := method
           password := password
           uotVersion := uot }

/-- The legacy form: `base64(method:password@host:port)`. -/
def parseLegacy (name core : String) : Option XrayOutbound := do
  let decoded := utf8String (← decodeBase64 (substringBefore '#' core core))
  let (methodPass, hostPort) ← Text.cutLast '@' decoded.toList
  let methodPass := String.ofList methodPass
  let hostPort := String.ofList hostPort
  let port ← parseIntOrNull (substringAfterLast ':' hostPort)
  return { protocol := "shadowsocks"
           name := ifBlank name hostPort
           address := substringBeforeLast ':' hostPort
           port := port
           method := substringBefore ':' methodPass methodPass
           password := substringAfter ':' methodPass "" }

/-- `ss://`; a link with a plugin is refused. -/
def parseShadowsocks (link : String) : Option XrayOutbound :=
  if Text.containsIgnoreCase "plugin=".toList link.toList then none else
  let afterScheme := removePrefix (removePrefix link "ss://") "SS://"
  let name := urlDecode (substringAfter '#' afterScheme "")
  let core := substringBefore '#' afterScheme afterScheme
  match Text.cutLast '@' core.toList with
  | some (userInfo, rest) => parseSip002 name core (String.ofList userInfo) (String.ofList rest)
  | none => parseLegacy name core

/-- The stream of a Hysteria2 link: its host, path and header type hold the obfuscation password, its
    type and the insecure flag. -/
def hysteria2Stream (q : Query) : XrayStream where
  network := "hysteria2"
  security := "tls"
  sni := (q.lookup "sni").getD ""
  fingerprint := (q.lookup "fp").getD ""
  alpn := (q.lookup "alpn").getD ""
  host := (q.lookup "obfs-password").getD ""
  path := (q.lookup "obfs").getD ""
  headerType := (q.lookup "insecure").getD ""

/-- `hysteria2://password@host:port?query#name`. -/
def parseHysteria2 (link : String) : Option XrayOutbound := do
  let uri ← uriOf link
  let password ← decoded uri.userInfo
  let host ← hostOf uri
  let port := portOr uri 443
  let q := queryMap uri.query
  return { protocol := "hysteria2"
           name := fragmentName uri (hostAndPort host port)
           address := host
           port := port
           password := urlDecode password
           stream := hysteria2Stream q }

/-- `socks://[user:pass@]host:port[#name]` and the `http://` twin. -/
def parseSocksHttp (link protocol : String) : Option XrayOutbound := do
  let uri ← uriOf link
  let host ← hostOf uri
  let port := portOr uri (if protocol = "socks" then 1080 else 8080)
  let userInfo := ((decoded uri.userInfo).map urlDecode).getD ""
  return { protocol := protocol
           name := fragmentName uri (hostAndPort host port)
           address := host
           port := port
           username := substringBefore ':' userInfo ""
           password := substringAfter ':' userInfo "" }

/-- The parser of the link's scheme. -/
def parseOnce (doubles : Doubles) (link : String) : Option XrayOutbound :=
  if startsWithIgnoreCase link "vless://" then parseVless link
  else if startsWithIgnoreCase link "vmess://" then parseVmess doubles link
  else if startsWithIgnoreCase link "trojan://" then parseTrojan link
  else if startsWithIgnoreCase link "ss://" then parseShadowsocks link
  else if startsWithIgnoreCase link "hysteria2://" then parseHysteria2 link
  else if startsWithIgnoreCase link "hy2://" then parseHysteria2 link
  else if startsWithIgnoreCase link "socks://" then parseSocksHttp link "socks"
  else if startsWithIgnoreCase link "http://" then parseSocksHttp link "http"
  else none

/-- Parses a single link. A form that occurs twice among the three is parsed twice here, to the same
    result. -/
def parse (doubles : Doubles) (raw : String) : Option XrayOutbound :=
  let link := trim raw
  [link, urlDecode link, withDecodedFragment link].findSome? (parseOnce doubles)

/-! ## 5. Serializer -/

/-- A parameter that is written under a condition. -/
def param (cond : Bool) (k v : String) : Query := if cond then [(k, v)] else []

/-- The parameters of a stream, as `streamFrom` reads them. -/
def streamQuery (st : XrayStream) : Query :=
  let net := ifBlank st.network "tcp"
  param (net != "tcp") "type" net ++
  param (!isBlank st.security && st.security != "none") "security" st.security ++
  param (!isBlank st.sni) "sni" st.sni ++
  param (!isBlank st.fingerprint) "fp" st.fingerprint ++
  param (!isBlank st.alpn) "alpn" st.alpn ++
  (if net = "ws" ∨ net = "xhttp" ∨ net = "splithttp" ∨ net = "http" then
    ("path", ifBlank st.path "/") :: param (!isBlank st.host) "host" st.host
  else if net = "grpc" then param (!isBlank st.serviceName) "serviceName" st.serviceName
  else if net = "tcp" then
    param (!isBlank st.headerType && st.headerType != "none") "headerType" st.headerType
  else []) ++
  (if st.security = "reality" then
    param (!isBlank st.publicKey) "pbk" st.publicKey ++
    param (!isBlank st.shortId) "sid" st.shortId ++
    param (!isBlank st.spiderX) "spx" st.spiderX ++
    param (!isBlank st.pqv) "pqv" st.pqv
  else []) ++
  (if net = "xhttp" ∨ net = "splithttp" then
    param (!isBlank st.mode) "mode" st.mode ++ param (!isBlank st.extra) "extra" st.extra
  else [])

/-- `key=value`, joined by `&`. -/
def renderQuery (q : Query) : String :=
  String.ofList (['&'].intercalate (q.map fun (k, v) =>
    (urlEncode k).toList ++ '=' :: (urlEncode v).toList))

/-- The fragment: the name, or the endpoint where it is blank. -/
def fragment (o : XrayOutbound) : String :=
  "#" ++ urlEncode (ifBlank o.name (hostAndPort o.address o.port))

/-- The parameters of a VLESS link. -/
def vlessQuery (o : XrayOutbound) : Query :=
  [("encryption", ifBlank o.encryption "none")] ++ param (!isBlank o.flow) "flow" o.flow ++
    streamQuery o.stream

/-- The parameters of a Hysteria2 link. -/
def hysteria2Query (o : XrayOutbound) : Query :=
  param (!isBlank o.stream.sni) "sni" o.stream.sni ++
  param (o.stream.headerType == "1") "insecure" "1" ++
  (if !isBlank o.stream.path && o.stream.path != "/" then
    ("obfs", o.stream.path) :: param (!isBlank o.stream.host) "obfs-password" o.stream.host
  else [])

/-- The login of a SOCKS or HTTP link. -/
def credentials (o : XrayOutbound) : String :=
  if isBlank o.username then ""
  else if isBlank o.password then urlEncode o.username ++ "@"
  else urlEncode o.username ++ ":" ++ urlEncode o.password ++ "@"

/-- The members of the VMess object, in order. -/
def vmessMembers (o : XrayOutbound) : List (String × String) :=
  let st := o.stream
  [("v", "2"),
   ("ps", ifBlank o.name (hostAndPort o.address o.port)),
   ("add", o.address),
   ("port", toString o.port),
   ("id", o.uuid),
   ("aid", toString o.alterId),
   ("scy", ifBlank o.security "auto"),
   ("net", ifBlank st.network "tcp"),
   ("type", ifBlank st.headerType "none"),
   ("host", st.host),
   ("path", ifBlank st.path "/"),
   ("tls", if st.security = "tls" ∨ st.security = "reality" then "tls" else ""),
   ("sni", st.sni),
   ("alpn", st.alpn),
   ("fp", st.fingerprint)]

/-- The link of each protocol. -/
def linkOf (o : XrayOutbound) : Option String :=
  if o.protocol = "vless" then
    some ("vless://" ++ urlEncode o.uuid ++ "@" ++ hostAndPort o.address o.port ++ "?" ++
      renderQuery (vlessQuery o) ++ fragment o)
  else if o.protocol = "trojan" then
    let qs := renderQuery (streamQuery o.stream)
    some ("trojan://" ++ urlEncode o.password ++ "@" ++ hostAndPort o.address o.port ++
      (if qs.isEmpty then "" else "?" ++ qs) ++ fragment o)
  else if o.protocol = "hysteria2" then
    let q := hysteria2Query o
    some ("hysteria2://" ++ urlEncode o.password ++ "@" ++ hostAndPort o.address o.port ++
      (if q.isEmpty then "" else "?" ++ renderQuery q) ++ fragment o)
  else if o.protocol = "shadowsocks" then
    some ("ss://" ++ String.ofList (Base64.encode Base64.urlSafeDigit false
        (toByteArray (o.method ++ ":" ++ o.password))) ++ "@" ++ hostAndPort o.address o.port ++
      fragment o)
  else if o.protocol = "socks" ∨ o.protocol = "http" then
    some (o.protocol ++ "://" ++ credentials o ++ hostAndPort o.address o.port ++ fragment o)
  else if o.protocol = "vmess" then
    some ("vmess://" ++ String.ofList (Base64.encode Base64.digit true
      (toByteArray (Json.render (.obj (Json.texts (vmessMembers o)))))))
  else none

/-- Rebuilds a share link; an outbound without an address or a port has none. -/
def toLink (o : XrayOutbound) : Option String :=
  if isBlank o.address || !decide (0 < o.port) then none else linkOf o

end XrayShareLink

end SwiftVpn
