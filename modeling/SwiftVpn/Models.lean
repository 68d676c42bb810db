/-
  File:      SwiftVpn/Models.lean
  Subject:   THE DATA MODEL OF THE APP (VpnModels.kt) AND THE TEXT SCRAPING OVER IT.

  * `Protocol`, `VpnState`, `VpnState.isActive`, `VpnState.ofStatus` -- VpnModels.kt;
  * `TrafficStats`, `TunnelInfo`, `LogLine` -- the values of the flows the UI observes;
  * `harvestTunnelInfo` -- VpnEngine.kt's reading of the OpenVPN log, its six regular
    expressions written out as functions on character lists;
  * `Stores` -- what the profile stores on disk answer, the one parameter of every machine.

  Profiles are named by their uuid, a `String` as in the source. `Long` values are `Int`: nothing
  here depends on their width.
-/
import Mathlib.Algebra.Order.Ring.Int
import Mathlib.Data.List.Basic
import SwiftVpn.Lib.Text

namespace SwiftVpn

/-- A profile's uuid. -/
abbrev Uuid := String

/-! ## 1. States -/

/-- Which tunnel engine owns a profile. -/
inductive Protocol where
  | openvpn
  | wireguard
  | xray
  | ikev2
  deriving DecidableEq, Repr

/-- Normalised connection state. -/
inductive VpnState where
  | disconnected
  | connecting
  | connected
  | paused
  | authFailed
  | noNetwork
  | waitingForInput
  | unknown
  deriving DecidableEq, Repr

/-- True while the tunnel is up or coming up. -/
def VpnState.isActive : VpnState → Bool
  | .connected | .connecting | .paused => true
  | _ => false

/-- OpenVPN's own levels (ConnectionStatus.java). -/
inductive ConnectionStatus where
  | connected
  | vpnPaused
  | connectingServerReplied
  | connectingNoServerReplyYet
  | noNetwork
  | notConnected
  | start
  | authFailed
  | waitingForUserInput
  | unknownLevel
  deriving DecidableEq, Repr

/-- `VpnState.from`: the level of an OpenVPN callback, null included. -/
def VpnState.ofStatus : Option ConnectionStatus → VpnState
  | some .connected => .connected
  | some .start | some .connectingServerReplied | some .connectingNoServerReplyYet => .connecting
  | some .vpnPaused => .paused
  | some .authFailed => .authFailed
  | some .noNetwork => .noNetwork
  | some .waitingForUserInput => .waitingForInput
  | some .notConnected => .disconnected
  | _ => .unknown

/-! ## 2. The values of the flows -/

/-- Live traffic figures. -/
structure TrafficStats where
  bytesIn : Int := 0
  bytesOut : Int := 0
  downBytesPerSec : Int := 0
  upBytesPerSec : Int := 0
  downHistory : List Int := []
  upHistory : List Int := []
  deriving DecidableEq, Repr

/-- A line of the shared log. -/
structure LogLine where
  timestamp : Int
  message : String
  level : Int
  deriving DecidableEq, Repr

/-- What the Routing tab shows. -/
structure TunnelInfo where
  localIPv4 : Option String := none
  localIPv6 : Option String := none
  remoteServer : Option String := none
  proxy : Option String := none
  mtu : Option Int := none
  dnsServers : List String := []
  routes : List String := []
  deriving DecidableEq, Repr

/-! ## 3. Text -/

/-- Kotlin's `Char.isWhitespace`. -/
def isWhitespace (c : Char) : Bool :=
  let n := c.toNat
  (9 ≤ n && n ≤ 13) || (28 ≤ n && n ≤ 32) || n == 0xA0 || n == 0x1680 ||
    (0x2000 ≤ n && n ≤ 0x200A) || n == 0x2028 || n == 0x2029 || n == 0x202F || n == 0x205F ||
    n == 0x3000

/-- Kotlin's `String.isBlank`. -/
def isBlank (s : String) : Bool := s.toList.all isWhitespace

/-- Kotlin's `String.trim`, on the characters. -/
def trimChars (cs : List Char) : List Char :=
  ((cs.dropWhile isWhitespace).reverse.dropWhile isWhitespace).reverse

/-- The class `\s` of a regular expression on Android: Unicode's `White_Space`. -/
def isRegexSpace (c : Char) : Bool :=
  let n := c.toNat
  (9 ≤ n && n ≤ 13) || n == 32 || n == 0x85 || n == 0xA0 || n == 0x1680 ||
    (0x2000 ≤ n && n ≤ 0x200A) || n == 0x2028 || n == 0x2029 || n == 0x202F || n == 0x205F ||
    n == 0x3000

/-- Where a regular expression ends a line on Android. -/
def isLineEnd (c : Char) : Bool :=
  let n := c.toNat
  (10 ≤ n && n ≤ 13) || n == 0x85 || n == 0x2028 || n == 0x2029

/-- The class `\d` of a regular expression on Android: the decimal digits of every script. Those beyond
    16 bits are digits for it alone, `Character.digit` is asked for each unit. -/
def isRegexDigit (c : Char) : Bool :=
  let n := c.toNat
  (Text.digitOf 10 c).isSome ||
    [0x104A0, 0x10D30, 0x11066, 0x110F0, 0x11136, 0x111D0, 0x112F0, 0x11450, 0x114D0, 0x11650, 0x116C0,
      0x11730, 0x118E0, 0x11950, 0x11C50, 0x11D50, 0x11DA0, 0x11F50, 0x16A60, 0x16AC0, 0x16B50, 0x1D7CE,
      0x1D7D8, 0x1D7E2, 0x1D7EC, 0x1D7F6, 0x1E140, 0x1E2F0, 0x1E4F0, 0x1E950, 0x1FBF0].any
        fun z => z ≤ n && n < z + 10

/-- What follows each occurrence of `lit`, left to right. -/
def afterEach (lit : List Char) : List Char → List (List Char)
  | [] => []
  | c :: cs =>
    if lit.isPrefixOf (c :: cs) then (c :: cs).drop lit.length :: afterEach lit cs
    else afterEach lit cs

/-- `Regex(lit + ...).find`: the first occurrence of `lit` at which the rest `k` matches. -/
def findAfter {α : Type} (lit : String) (k : List Char → Option α) (message : String) : Option α :=
  (afterEach lit.toList message.toList).findSome? k

/-- A nonempty run of characters of a class, or no match. -/
def takeSome (p : Char → Bool) (cs : List Char) : Option (List Char) :=
  if (cs.takeWhile p).isEmpty then none else some (cs.takeWhile p)

/-- `\s*(\S+)`. -/
def spacedWord (cs : List Char) : Option String :=
  (takeSome (fun c => !isRegexSpace c) (cs.dropWhile isRegexSpace)).map String.ofList

/-- `\s*(\d+)`. -/
def spacedDigits (cs : List Char) : Option (List Char) :=
  takeSome isRegexDigit (cs.dropWhile isRegexSpace)

/-- `6?\s+(\S+)`. -/
def dnsWord (cs : List Char) : Option String :=
  let cs := if cs.head? = some '6' then cs.tail else cs
  if cs.head?.any isRegexSpace then spacedWord cs else none

/-- `[^]]+]([\d.]+:\d+)`. -/
def peerAddress (cs : List Char) : Option String :=
  match takeSome (· ≠ ']') cs, (cs.dropWhile (· ≠ ']')).tail with
  | none, _ => none
  | some _, rest =>
    let isAddr := fun c : Char => isRegexDigit c || c == '.'
    match takeSome isAddr rest, rest.dropWhile isAddr with
    | some host, ':' :: tl => (takeSome isRegexDigit tl).map fun port =>
        String.ofList (host ++ ':' :: port)
    | _, _ => none

/-- `\s*(.+)`: the line behind the blanks. The match may consist of blanks alone, which then trim
    to nothing. -/
def spacedLine (cs : List Char) : Option (List Char) :=
  match takeSome (fun c => !isLineEnd c) (cs.dropWhile isRegexSpace) with
  | some line => some line
  | none => if (cs.takeWhile isRegexSpace).any (fun c => !isLineEnd c) then some [] else none

/-- `split(',')`, on the characters. -/
def splitCommas : List Char → List (List Char)
  | [] => [[]]
  | c :: cs =>
    if c == ',' then [] :: splitCommas cs
    else match splitCommas cs with
      | [] => [[c]]
      | w :: ws => (c :: w) :: ws

/-- The routes a `Routes:` line names. -/
def routesOf (line : List Char) : List String :=
  (((splitCommas line).map trimChars).filter (fun r => !r.isEmpty)).map String.ofList

/-- Extracts routing details from an OpenVPN log line. -/
def harvestTunnelInfo (info : TunnelInfo) (message : String) : TunnelInfo :=
  if isBlank message then info else
  let info := match findAfter "Local IPv4:" spacedWord message with
    | some a => { info with localIPv4 := some a }
    | none => info
  let info := match findAfter "Local IPv6:" spacedWord message with
    | some a => { info with localIPv6 := some a }
    | none => info
  let info := match findAfter "MTU:" spacedDigits message with
    | some d => { info with mtu := Text.parseInteger 32 10 d }
    | none => info
  let info := match findAfter "Peer Connection Initiated with [" peerAddress message with
    | some a => { info with remoteServer := some a }
    | none => info
  let info := match findAfter "dhcp-option DNS" dnsWord message with
    | some dns =>
      if info.dnsServers.contains dns then info
      else { info with dnsServers := info.dnsServers ++ [dns] }
    | none => info
  match findAfter "Routes:" spacedLine message with
  | some line =>
    if (routesOf line).isEmpty then info else { info with routes := routesOf line }
  | none => info

/-! ## 4. The profile stores -/

/-- What the profile stores answer. `wgRaw` is `WireGuardStore.rawConfig`; `wgParse` stands for
    `Config.parse` of the session text and answers what `publishTunnelInfo` shows of the config;
    `ovpnProfile` is `ProfileManager.get(..) != null`; `ikev2Gateway` the gateway of the stored
    IKEv2 profile; `xrayConfig` stands for `XrayEngine.buildConfig` and `xrayDescribe` for
    `XrayStore.describe`. -/
structure Stores where
  wgExists : Uuid → Bool
  xrayExists : Uuid → Bool
  ikev2Exists : Uuid → Bool
  wgRaw : Uuid → Option String
  wgParse : String → Option TunnelInfo
  ovpnProfile : Uuid → Bool
  ikev2Gateway : Uuid → Option String
  xrayConfig : Uuid → Option String
  xrayDescribe : Uuid → Option (String × String)

/-- Which engine owns a profile: the first store that has it, OpenVPN as the fallback. -/
def Stores.protocolOf (D : Stores) (uuid : Uuid) : Protocol :=
  if D.wgExists uuid then .wireguard
  else if D.xrayExists uuid then .xray
  else if D.ikev2Exists uuid then .ikev2
  else .openvpn

/-- The parsed config of a WireGuard profile; `none` where the stored text cannot be read or
    parsed. -/
def Stores.wgConfig (D : Stores) (uuid : Uuid) : Option TunnelInfo :=
  (D.wgRaw uuid).bind D.wgParse

/-- The config text of the WireGuard profiles of `sampleStores`. -/
def sampleWgText : String :=
  "[Interface]\nPrivateKey = AAAAAAAAAAAAAAAAAAAAAAAAAAAAAAAAAAAAAAAAAAA=\nAddress = 10.0.0.2/32\n"

/-- The stores of a device for the concrete runs: the WireGuard profiles `wg1` and `wg2`, the
    WireGuard profile `wgBroken` whose file is gone, the Xray profiles `xray1` and `xray2`, the
    IKEv2 profile `ike1`, the OpenVPN profiles `ovpn1` and `ovpn2`. -/
def sampleStores : Stores where
  wgExists u := u ∈ ["wg1", "wg2", "wgBroken"]
  xrayExists u := u ∈ ["xray1", "xray2"]
  ikev2Exists u := u = "ike1"
  wgRaw u := if u ∈ ["wg1", "wg2"] then some sampleWgText else none
  wgParse raw := if raw = sampleWgText then some { localIPv4 := some "10.0.0.2/32" } else none
  ovpnProfile u := u ∈ ["ovpn1", "ovpn2"]
  ikev2Gateway u := if u = "ike1" then some "vpn.example.org" else none
  xrayConfig u := if u ∈ ["xray1", "xray2"] then some "outbounds" else none
  xrayDescribe u := if u ∈ ["xray1", "xray2"] then some ("vpn.example.org:443", "vless") else none

end SwiftVpn
