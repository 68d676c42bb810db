/-
  File:      SwiftVpn/WireGuard/Config.lean
  Subject:   wg-quick DOCUMENTS: Config.java, Interface.java, Peer.java and Attribute.java of awgtunnel.

  * `Attribute.parse`, `Attribute.split` -- a line `KEY = VALUE` and a list of values, their regular
    expressions written out;
  * `InetNetwork.parse`, `InetEndpoint.parse`, `Key.fromBase64`, `isHostname` -- the values;
  * `InterfaceKey`, `PeerKey` -- the attributes, each with the type of what it holds (`Field`) and with
    what a line makes of it (`write`); an interface and a peer hold one such content for each key;
  * `Config.parse` -- the loop over the lines;
  * `document`, `Parses`, `parse_iff` -- the same as a cut into sections: all interface sections are read
    as one, every peer section is a peer;
  * `Interface.parse_iff`, `Peer.parse_iff` -- a section is read key by key, each through the values that
    its lines have for the key.

  `parse` gives `none` where the source throws. `numeric` is `parseNumericAddress` of the platform; an
  address is its four or sixteen bytes. A `LinkedHashSet` is a set here: `equals` does not see its order.
-/
import Mathlib.Data.Finset.Union
import SwiftVpn.Lib.Sections
import SwiftVpn.Xray.Links

namespace SwiftVpn.Awg

/-! ## 1. Lines -/

/-- Java's `trim`. -/
def javaTrim (cs : List Char) : List Char := Text.strip (fun c => c.toNat ≤ 0x20) cs

/-- A line without its comment and without blanks at its ends. -/
def content (raw : String) : List Char := javaTrim (raw.toList.takeWhile (· ≠ '#'))

/-- `readLine`: like `lineSequence`, but there is no line behind the last end of a line. -/
def readLines (text : String) : List String :=
  let lines := lineSequence text
  if lines.getLast? = some "" then lines.dropLast else lines

namespace Attribute

/-- The class `\w`, with all of Unicode beyond ASCII: no attribute has such a character in its name but
    the Kelvin sign, which is a letter. -/
def isWord (c : Char) : Bool := c.isAlphanum || c == '_' || 0x80 ≤ c.toNat

/-- `(\w+)\s*=\s*(.*?)\s*$`. -/
def parse (line : List Char) : Option (List Char × String) :=
  match Text.cutFirst '=' line with
  | none => none
  | some (left, right) =>
    let key := (left.reverse.dropWhile isRegexSpace).reverse
    let value := Text.strip isRegexSpace right
    if !key.isEmpty && key.all isWord && value.all (!isLineEnd ·) then some (key, String.ofList value)
    else none

/-- `split(\s*,\s*)`, for a value without blanks at its ends: empty texts at the end are dropped. -/
def split (value : String) : List String :=
  if ',' ∈ value.toList then
    (((value.toList.splitOnP (· == ',')).map fun cs =>
      String.ofList (Text.strip isRegexSpace cs)).reverse.dropWhile (·.isEmpty)).reverse
  else [value]

end Attribute

/-! ## 2. Values -/

/-- An address, by its bytes. -/
abbrev InetAddress := List UInt8

/-- `InetAddresses.parse`. -/
def parseAddress (numeric : String → Option InetAddress) (address : String) : Option InetAddress :=
  if address.isEmpty then none else numeric address

/-- A label of a host name: letters and digits, with hyphens in between, 63 characters at most. -/
def isLabel (cs : List Char) : Bool :=
  cs.head?.any Char.isAlphanum && cs.getLast?.any Char.isAlphanum &&
    cs.all (fun c => c.isAlphanum || c == '-') && cs.length ≤ 63

/-- `InetAddresses.isHostname`. -/
def isHostname (s : String) : Bool :=
  let cs := s.toList
  let labels := if cs.getLast? == some '.' then cs.dropLast else cs
  0 < cs.length && cs.length ≤ 255 && (labels.splitOnP (· == '.')).all isLabel

/-- `Integer.parseInt`. -/
def parseInt (s : String) : Option Int := Text.parseInteger 32 10 s.toList

structure InetNetwork where
  address : InetAddress
  mask : Int
  deriving DecidableEq, Repr

/-- `InetNetwork.parse`; without a mask, or with a negative one, the mask is that of one address. -/
def InetNetwork.parse (numeric : String → Option InetAddress) (network : String) : Option InetNetwork := do
  let (rawAddress, rawMask) ←
    match Text.cutLast '/' network.toList with
    | some (left, right) => (parseInt (String.ofList right)).map fun n => (String.ofList left, n)
    | none => some (network, -1)
  let address ← parseAddress numeric rawAddress
  let maxMask : Int := if address.length = 4 then 32 else 128
  if maxMask < rawMask then none else some ⟨address, if 0 ≤ rawMask then rawMask else maxMask⟩

structure InetEndpoint where
  host : String
  port : Nat
  deriving DecidableEq, Repr

/-- `InetEndpoint.parse`. -/
def InetEndpoint.parse (endpoint : String) : Option InetEndpoint :=
  if endpoint.toList.any fun c => "/?#".toList.contains c then none else
  match Uri.ofText ("awg://" ++ endpoint).toList with
  | some { host := some host, port := some port, .. } =>
    if 65535 < port then none else some ⟨String.ofList host, port⟩
  | _ => none

/-- A key, by its bytes. -/
abbrev Key := List UInt8

/-- One digit of `decodeBase64`, in the 32 bits of the source and without a branch: what is no digit is
    negative in ASCII, and need not be beyond it. -/
def base64Digit (c : BitVec 32) : BitVec 32 :=
  -1 + ((((64 - c) &&& (c - 91)) >>> 8) &&& (c - 64))
    + ((((96 - c) &&& (c - 123)) >>> 8) &&& (c - 70))
    + ((((47 - c) &&& (c - 58)) >>> 8) &&& (c + 5))
    + ((((42 - c) &&& (c - 44)) >>> 8) &&& 63)
    + ((((46 - c) &&& (c - 48)) >>> 8) &&& 64)

/-- `decodeBase64`, of a chunk of four units. -/
def decodeBase64 (chunk : List Nat) : BitVec 32 :=
  (chunk.zip [18, 12, 6, 0]).foldl
    (fun val u => val ||| base64Digit (BitVec.ofNat 32 u.1) <<< u.2) 0

/-- The three bytes of a chunk. -/
def chunkBytes (val : BitVec 32) : List UInt8 :=
  [UInt8.ofNat (val >>> 16).toNat, UInt8.ofNat (val >>> 8).toNat, UInt8.ofNat val.toNat]

/-- `Key.fromBase64`: no chunk is negative, and the bits behind the last byte are zero. -/
def Key.fromBase64 (str : String) : Option Key :=
  let input := Text.toUtf16 str.toList
  if input.length ≠ 44 ∨ input.getLast? ≠ some '='.toNat then none else
  let vals := (List.range 10).map fun i => decodeBase64 ((input.drop (i * 4)).take 4)
  let val := decodeBase64 ((input.drop 40).take 3 ++ ['A'.toNat])
  let ret := vals.foldl (fun (ret v : BitVec 32) => ret ||| v >>> 31) 0 ||| val >>> 31 ||| (val &&& 0xff)
  if ret ≠ 0 then none else some (vals.flatMap chunkBytes ++ (chunkBytes val).take 2)

/-! ## 3. Attributes -/

/-- A text that is trimmed, and absent where nothing is left. -/
def optionalText (value : String) : Option String :=
  let trimmed := javaTrim value.toList
  if trimmed.isEmpty then none else some (String.ofList trimmed)

/-- A number that must not be negative, and is absent where it is zero. -/
def optionalNumber (value : String) : Option (Option Int) :=
  match parseInt value with
  | some n => if n < 0 then none else some (if n = 0 then none else some n)
  | none => none

/-- `parseListenPort`. -/
def parseListenPort (value : String) : Option (Option Int) :=
  match parseInt value with
  | some n => if n < 0 ∨ 65535 < n then none else some (if n = 0 then none else some n)
  | none => none

/-- `parseAddresses` and `parseAllowedIPs`. -/
def parseNetworks (numeric : String → Option InetAddress) (value : String) : Option (Finset InetNetwork) :=
  ((Attribute.split value).mapM (InetNetwork.parse numeric)).map List.toFinset

structure DnsServers where
  servers : Finset InetAddress
  searchDomains : Finset String
  deriving DecidableEq

/-- One list of servers with another. -/
instance : SemilatticeSup DnsServers where
  le a b := a.servers ⊆ b.servers ∧ a.searchDomains ⊆ b.searchDomains
  sup a b := ⟨a.servers ∪ b.servers, a.searchDomains ∪ b.searchDomains⟩
  le_refl a := ⟨Finset.Subset.refl _, Finset.Subset.refl _⟩
  le_trans a b c h h' := ⟨h.1.trans h'.1, h.2.trans h'.2⟩
  le_antisymm a b h h' := by
    obtain ⟨s, d⟩ := a
    obtain ⟨s', d'⟩ := b
    rw [DnsServers.mk.injEq]
    exact ⟨Finset.Subset.antisymm h.1 h'.1, Finset.Subset.antisymm h.2 h'.2⟩
  le_sup_left a b := ⟨Finset.subset_union_left, Finset.subset_union_left⟩
  le_sup_right a b := ⟨Finset.subset_union_right, Finset.subset_union_right⟩
  sup_le a b c h h' := ⟨Finset.union_subset h.1 h'.1, Finset.union_subset h.2 h'.2⟩

instance : OrderBot DnsServers where
  bot := ⟨∅, ∅⟩
  bot_le _ := ⟨Finset.empty_subset _, Finset.empty_subset _⟩

/-- One entry of `parseDnsServers`: what is no address must be a host name. -/
def addDns (numeric : String → Option InetAddress) (dns : DnsServers) (server : String) : Option DnsServers :=
  match parseAddress numeric server with
  | some address => some { dns with servers := insert address dns.servers }
  | none =>
    if isHostname server then some { dns with searchDomains := insert server dns.searchDomains } else none

/-- The servers of one value. -/
def parseDnsServers (numeric : String → Option InetAddress) (value : String) : Option DnsServers :=
  (Attribute.split value).foldlM (addDns numeric) ⊥

theorem addDns_sup (numeric : String → Option InetAddress) (a b : DnsServers) (server : String) :
    addDns numeric (a ⊔ b) server = (addDns numeric b server).map (a ⊔ ·) := by
  have hservers : ∀ x, (⟨insert x (a ⊔ b).servers, (a ⊔ b).searchDomains⟩ : DnsServers)
      = a ⊔ ⟨insert x b.servers, b.searchDomains⟩ := by
    intro x
    show DnsServers.mk (insert x (a.servers ∪ b.servers)) _ = ⟨a.servers ∪ insert x b.servers, _⟩
    rw [Finset.union_insert]
    rfl
  have hdomains : ∀ x, (⟨(a ⊔ b).servers, insert x (a ⊔ b).searchDomains⟩ : DnsServers)
      = a ⊔ ⟨b.servers, insert x b.searchDomains⟩ := by
    intro x
    show DnsServers.mk _ (insert x (a.searchDomains ∪ b.searchDomains)) = ⟨_, a.searchDomains ∪ insert x _⟩
    rw [Finset.union_insert]
    rfl
  unfold addDns
  cases parseAddress numeric server with
  | some address => exact congrArg some (hservers address)
  | none =>
    dsimp only
    split
    · exact congrArg some (hdomains server)
    · rfl

/-- The servers of a value are added to those that are there. -/
theorem foldlM_addDns (numeric : String → Option InetAddress) (old : DnsServers) (value : String) :
    (Attribute.split value).foldlM (addDns numeric) old = (parseDnsServers numeric value).map (old ⊔ ·) := by
  have hfold : ∀ (servers : List String) (b : DnsServers),
      servers.foldlM (addDns numeric) (old ⊔ b) = (servers.foldlM (addDns numeric) b).map (old ⊔ ·) := by
    intro servers
    induction servers with
    | nil => intro b; rfl
    | cons server servers ih =>
      intro b
      rw [List.foldlM_cons, List.foldlM_cons, addDns_sup]
      cases addDns numeric b server with
      | none => rfl
      | some b' => exact ih b'
  have hbot := hfold (Attribute.split value) ⊥
  rw [sup_bot_eq] at hbot
  exact hbot

/-- `parseHeaderProtectionKey`. -/
def parseHeaderProtectionKey (value : String) : Option (Option Key) :=
  match optionalText value with
  | none => some none
  | some text => (Key.fromBase64 text).map some

/-- `setPersistentKeepalive`. -/
def setPersistentKeepalive (value : String) : Option String :=
  (optionalText value).filter fun text => !Text.equalsIgnoreCase text.toList "off".toList

/-- The attributes of an interface. -/
inductive InterfaceKey where
  | address | dns | excludedApplications | includedApplications | listenPort | mtu | privateKey
  | junkPacketCount | junkPacketMinSize | junkPacketMaxSize
  | initPacketJunkSize | responsePacketJunkSize | cookieReplyPacketJunkSize | transportPacketJunkSize
  | initPacketMagicHeader | responsePacketMagicHeader | underloadPacketMagicHeader
  | transportPacketMagicHeader
  | specialJunkI1 | specialJunkI2 | specialJunkI3 | specialJunkI4 | specialJunkI5
  | headerProtectionKey | contentPaddingAddition
  | rekeyAfterTime | rekeyTimeout | rejectAfterTime | keepaliveTimeout | maxHandshakeAttempts
  | randomTrailers | disableCookies
  deriving DecidableEq, Repr

namespace InterfaceKey

/-- The names, in lower case. -/
def names : List (String × InterfaceKey) :=
  [("address", .address), ("dns", .dns), ("excludedapplications", .excludedApplications),
    ("includedapplications", .includedApplications), ("listenport", .listenPort), ("mtu", .mtu),
    ("privatekey", .privateKey), ("jc", .junkPacketCount), ("jmin", .junkPacketMinSize),
    ("jmax", .junkPacketMaxSize), ("s1", .initPacketJunkSize), ("s2", .responsePacketJunkSize),
    ("s3", .cookieReplyPacketJunkSize), ("s4", .transportPacketJunkSize),
    ("h1", .initPacketMagicHeader), ("h2", .responsePacketMagicHeader),
    ("h3", .underloadPacketMagicHeader), ("h4", .transportPacketMagicHeader), ("i1", .specialJunkI1),
    ("i2", .specialJunkI2), ("i3", .specialJunkI3), ("i4", .specialJunkI4), ("i5", .specialJunkI5),
    ("headerprotectionkey", .headerProtectionKey), ("contentpaddingaddition", .contentPaddingAddition),
    ("rekeyaftertime", .rekeyAfterTime), ("rekeytimeout", .rekeyTimeout),
    ("rejectaftertime", .rejectAfterTime), ("keepalivetimeout", .keepaliveTimeout),
    ("maxhandshakeattempts", .maxHandshakeAttempts), ("randomtrailers", .randomTrailers),
    ("disablecookies", .disableCookies)]

/-- What an attribute holds. -/
@[reducible] def Field : InterfaceKey → Type
  | .address => Finset InetNetwork
  | .dns => DnsServers
  | .excludedApplications | .includedApplications => Finset String
  | .listenPort | .mtu | .junkPacketCount | .junkPacketMinSize | .junkPacketMaxSize
  | .initPacketJunkSize | .responsePacketJunkSize | .cookieReplyPacketJunkSize
  | .transportPacketJunkSize => Option Int
  | .privateKey | .headerProtectionKey => Option Key
  | .initPacketMagicHeader | .responsePacketMagicHeader | .underloadPacketMagicHeader
  | .transportPacketMagicHeader | .specialJunkI1 | .specialJunkI2 | .specialJunkI3 | .specialJunkI4
  | .specialJunkI5 | .contentPaddingAddition | .rekeyAfterTime | .rekeyTimeout | .rejectAfterTime
  | .keepaliveTimeout | .maxHandshakeAttempts | .randomTrailers | .disableCookies => Option String

/-- The defaults of the builder. -/
def initial : (k : InterfaceKey) → k.Field
  | .address => ∅
  | .dns => ⟨∅, ∅⟩
  | .excludedApplications | .includedApplications => ∅
  | .listenPort | .mtu | .junkPacketCount | .junkPacketMinSize | .junkPacketMaxSize
  | .initPacketJunkSize | .responsePacketJunkSize | .cookieReplyPacketJunkSize
  | .transportPacketJunkSize => none
  | .privateKey | .headerProtectionKey => none
  | .initPacketMagicHeader | .responsePacketMagicHeader | .underloadPacketMagicHeader
  | .transportPacketMagicHeader | .specialJunkI1 | .specialJunkI2 | .specialJunkI3 | .specialJunkI4
  | .specialJunkI5 | .contentPaddingAddition | .rekeyAfterTime | .rekeyTimeout | .rejectAfterTime
  | .keepaliveTimeout | .maxHandshakeAttempts | .randomTrailers | .disableCookies => none

/-- What a line makes of its attribute: addresses, name servers and applications are added, everything
    else is set. -/
def write (numeric : String → Option InetAddress) : (k : InterfaceKey) → k.Field → String → Option k.Field
  | .address, old, value => (parseNetworks numeric value).map (old ∪ ·)
  | .dns, old, value => (Attribute.split value).foldlM (addDns numeric) old
  | .excludedApplications, old, value => some (old ∪ (Attribute.split value).toFinset)
  | .includedApplications, old, value => some (old ∪ (Attribute.split value).toFinset)
  | .listenPort, _, value => parseListenPort value
  | .mtu, _, value => optionalNumber value
  | .privateKey, _, value => (Key.fromBase64 value).map some
  | .junkPacketCount, _, value => optionalNumber value
  | .junkPacketMinSize, _, value => optionalNumber value
  | .junkPacketMaxSize, _, value => optionalNumber value
  | .initPacketJunkSize, _, value => optionalNumber value
  | .responsePacketJunkSize, _, value => optionalNumber value
  | .cookieReplyPacketJunkSize, _, value => optionalNumber value
  | .transportPacketJunkSize, _, value => optionalNumber value
  | .initPacketMagicHeader, _, value => some (optionalText value)
  | .responsePacketMagicHeader, _, value => some (optionalText value)
  | .underloadPacketMagicHeader, _, value => some (optionalText value)
  | .transportPacketMagicHeader, _, value => some (optionalText value)
  | .specialJunkI1, _, value => some (optionalText value)
  | .specialJunkI2, _, value => some (optionalText value)
  | .specialJunkI3, _, value => some (optionalText value)
  | .specialJunkI4, _, value => some (optionalText value)
  | .specialJunkI5, _, value => some (optionalText value)
  | .headerProtectionKey, _, value => parseHeaderProtectionKey value
  | .contentPaddingAddition, _, value => some (optionalText value)
  | .rekeyAfterTime, _, value => some (optionalText value)
  | .rekeyTimeout, _, value => some (optionalText value)
  | .rejectAfterTime, _, value => some (optionalText value)
  | .keepaliveTimeout, _, value => some (optionalText value)
  | .maxHandshakeAttempts, _, value => some (optionalText value)
  | .randomTrailers, _, value => some (optionalText value)
  | .disableCookies, _, value => some (optionalText value)

end InterfaceKey

/-- The attributes of a peer. -/
inductive PeerKey where
  | allowedIPs | endpoint | persistentKeepalive | preSharedKey | publicKey
  deriving DecidableEq, Repr

namespace PeerKey

/-- The names, in lower case. -/
def names : List (String × PeerKey) :=
  [("allowedips", .allowedIPs), ("endpoint", .endpoint), ("persistentkeepalive", .persistentKeepalive),
    ("presharedkey", .preSharedKey), ("publickey", .publicKey)]

/-- What an attribute holds. -/
@[reducible] def Field : PeerKey → Type
  | .allowedIPs => Finset InetNetwork
  | .endpoint => Option InetEndpoint
  | .persistentKeepalive => Option String
  | .preSharedKey | .publicKey => Option Key

/-- The defaults of the builder. -/
def initial : (k : PeerKey) → k.Field
  | .allowedIPs => ∅
  | .endpoint => none
  | .persistentKeepalive => none
  | .preSharedKey => none
  | .publicKey => none

/-- What a line makes of its attribute. -/
def write (numeric : String → Option InetAddress) : (k : PeerKey) → k.Field → String → Option k.Field
  | .allowedIPs, old, value => (parseNetworks numeric value).map (old ∪ ·)
  | .endpoint, _, value => (InetEndpoint.parse value).map some
  | .persistentKeepalive, _, value => some (setPersistentKeepalive value)
  | .preSharedKey, _, value => (Key.fromBase64 value).map some
  | .publicKey, _, value => (Key.fromBase64 value).map some

end PeerKey

/-- The attribute of a line, by the names of a section, and its value. -/
def attributeOf {K : Type} (names : List (String × K)) (line : List Char) : Option (K × String) := do
  let (key, value) ← Attribute.parse line
  let k ← names.lookup (String.ofList (Text.lowercase key))
  return (k, value)

abbrev Interface := (k : InterfaceKey) → k.Field

abbrev Peer := (k : PeerKey) → k.Field

/-- `Interface.parse`. The private key must be there, and applications are not both left out and
    chosen. -/
def Interface.parse (numeric : String → Option InetAddress) (lines : List (List Char)) :
    Option Interface := do
  let interface ← lines.foldlM (fun (b : Interface) line =>
    (attributeOf InterfaceKey.names line).bind (Slots.put (InterfaceKey.write numeric) b))
    InterfaceKey.initial
  if (interface .privateKey).isNone then none
  else if interface .includedApplications ≠ ∅ ∧ interface .excludedApplications ≠ ∅ then none
  else some interface

/-- `Peer.parse`. The public key must be there. -/
def Peer.parse (numeric : String → Option InetAddress) (lines : List (List Char)) : Option Peer := do
  let peer ← lines.foldlM (fun (b : Peer) line =>
    (attributeOf PeerKey.names line).bind (Slots.put (PeerKey.write numeric) b)) PeerKey.initial
  if (peer .publicKey).isNone then none else some peer

/-! ## 4. Documents -/

structure Config where
  interface : Interface
  peers : List Peer

/-- Where the loop stands; the two flags of the source are never both set. -/
inductive Place where
  | top
  | inInterface
  | inPeer
  deriving DecidableEq, Repr

/-- The variables of the loop. -/
structure Reading where
  place : Place := .top
  seenInterface : Bool := false
  interfaceLines : List (List Char) := []
  peerLines : List (List Char) := []
  peers : List Peer := []

/-- The lines of a peer section, once it is over. -/
def Reading.closePeer (numeric : String → Option InetAddress) (st : Reading) : Option Reading :=
  if st.place = .inPeer then
    (Peer.parse numeric st.peerLines).map fun p => { st with peers := st.peers ++ [p], peerLines := [] }
  else some st

/-- One line. -/
def Reading.next (numeric : String → Option InetAddress) (st : Reading) (raw : String) : Option Reading :=
  let line := content raw
  if line.isEmpty then some st
  else if line.head? = some '[' then do
    let st ← st.closePeer numeric
    if Text.equalsIgnoreCase line "[Interface]".toList then
      some { st with place := .inInterface, seenInterface := true }
    else if Text.equalsIgnoreCase line "[Peer]".toList then some { st with place := .inPeer }
    else none
  else
    match st.place with
    | .inInterface => some { st with interfaceLines := st.interfaceLines ++ [line] }
    | .inPeer => some { st with peerLines := st.peerLines ++ [line] }
    | .top => none

/-- `Config.parse`. -/
def Config.parse (numeric : String → Option InetAddress) (text : String) : Option Config := do
  let st ← (readLines text).foldlM (Reading.next numeric) {}
  let st ← st.closePeer numeric
  if !st.seenInterface then none else
  let interface ← Interface.parse numeric st.interfaceLines
  return ⟨interface, st.peers⟩

/-! ## 5. Sections -/

/-- A line that starts a section. -/
def isHeader (raw : String) : Bool := (content raw).head? = some '['

inductive Header where
  | interface
  | peer
  deriving DecidableEq, Repr

/-- The section that a line starts. -/
def headerOf (raw : String) : Option Header :=
  if Text.equalsIgnoreCase (content raw) "[Interface]".toList then some .interface
  else if Text.equalsIgnoreCase (content raw) "[Peer]".toList then some .peer
  else none

/-- A text by its sections. -/
def document (text : String) : Sections.Document String := Sections.cut isHeader (lineSequence text)

/-- What lines say: blank lines and comments say nothing. -/
def contents (body : List String) : List (List Char) := (body.map content).filter (!·.isEmpty)

/-- The lines of each section of a kind. -/
def bodies (k : Header) (secs : List (String × List String)) : List (List String) :=
  (secs.filter fun s => headerOf s.1 = some k).map (·.2)

/-- The configuration of a document. -/
structure Parses (numeric : String → Option InetAddress) (d : Sections.Document String) (c : Config) :
    Prop where
  front : contents d.front = []
  headers : ∀ s ∈ d.sections, (headerOf s.1).isSome = true
  interface_ne_nil : bodies .interface d.sections ≠ []
  interface : Interface.parse numeric (contents (bodies .interface d.sections).flatten) = some c.interface
  peers : (bodies .peer d.sections).mapM (fun b => Peer.parse numeric (contents b)) = some c.peers

section Sections

variable {numeric : String → Option InetAddress}

theorem contents_cons_nil {raw : String} (h : content raw = []) (body : List String) :
    contents (raw :: body) = contents body := by
  unfold contents
  rw [List.map_cons, h, List.filter_cons_of_neg (by simp)]

theorem contents_cons {raw : String} (h : content raw ≠ []) (body : List String) :
    contents (raw :: body) = content raw :: contents body := by
  unfold contents
  rw [List.map_cons, List.filter_cons_of_pos (by simpa using h)]

theorem contents_append (b b' : List String) : contents (b ++ b') = contents b ++ contents b' := by
  unfold contents
  rw [List.map_append, List.filter_append]

theorem next_of_nil {raw : String} (h : content raw = []) (st : Reading) :
    st.next numeric raw = some st := by
  unfold Reading.next
  rw [h]
  rfl

/-- The lines below a header. -/
theorem foldlM_body {body : List String} (h : ∀ l ∈ body, isHeader l = false) (st : Reading) :
    body.foldlM (Reading.next numeric) st =
      match st.place with
      | .inInterface => some { st with interfaceLines := st.interfaceLines ++ contents body }
      | .inPeer => some { st with peerLines := st.peerLines ++ contents body }
      | .top => if contents body = [] then some st else none := by
  induction body generalizing st with
  | nil =>
    obtain ⟨place, seen, il, pl, ps⟩ := st
    cases place <;> simp [contents]
  | cons raw body ih =>
    obtain ⟨hraw, hbody⟩ := List.forall_mem_cons.1 h
    rw [List.foldlM_cons]
    by_cases hc : content raw = []
    · rw [next_of_nil hc, contents_cons_nil hc]
      exact ih hbody st
    · have hhead : ¬ ((content raw).head? = some '[') := by simpa [isHeader] using hraw
      have hnext : st.next numeric raw =
          match st.place with
          | .inInterface => some { st with interfaceLines := st.interfaceLines ++ [content raw] }
          | .inPeer => some { st with peerLines := st.peerLines ++ [content raw] }
          | .top => none := by
        unfold Reading.next
        rw [if_neg (by simpa using hc), if_neg hhead]
      rw [hnext, contents_cons hc]
      obtain ⟨place, seen, il, pl, ps⟩ := st
      cases place with
      | top => simp
      | inInterface =>
        show body.foldlM _ _ = _
        rw [ih hbody]
        simp
      | inPeer =>
        show body.foldlM _ _ = _
        rw [ih hbody]
        simp

/-- What a loop has read so far, the open section included. -/
def Reading.result (numeric : String → Option InetAddress) (st : Reading) :
    Option (Bool × List (List Char) × List Peer) :=
  (st.closePeer numeric).map fun st => (st.seenInterface, st.interfaceLines, st.peers)

/-- What sections add to it. -/
def gather (numeric : String → Option InetAddress) (secs : List (String × List String))
    (acc : Bool × List (List Char) × List Peer) : Option (Bool × List (List Char) × List Peer) :=
  if secs.all fun s => (headerOf s.1).isSome then
    ((bodies .peer secs).mapM fun b => Peer.parse numeric (contents b)).map fun ps =>
      (acc.1 || !(bodies .interface secs).isEmpty,
        acc.2.1 ++ contents (bodies .interface secs).flatten, acc.2.2 ++ ps)
  else none

section Cons

variable {s : String × List String} (secs : List (String × List String))

theorem bodies_cons_self {k : Header} (hk : headerOf s.1 = some k) :
    bodies k (s :: secs) = s.2 :: bodies k secs := by
  unfold bodies
  rw [List.filter_cons_of_pos (by simp [hk]), List.map_cons]

theorem bodies_cons_of_ne {k k' : Header} (hk : headerOf s.1 = some k) (h : k ≠ k') :
    bodies k' (s :: secs) = bodies k' secs := by
  unfold bodies
  rw [List.filter_cons_of_neg (by simp [hk, h])]

theorem gather_cons_interface (hk : headerOf s.1 = some .interface)
    (acc : Bool × List (List Char) × List Peer) :
    gather numeric (s :: secs) acc = gather numeric secs (true, acc.2.1 ++ contents s.2, acc.2.2) := by
  unfold gather
  rw [bodies_cons_self secs hk, bodies_cons_of_ne secs hk (by decide), List.flatten_cons, contents_append,
    List.all_cons, hk]
  simp only [Option.isSome_some, Bool.true_and, List.isEmpty_cons, Bool.not_false, Bool.true_or,
    Bool.or_true, List.append_assoc]

theorem gather_cons_peer (hk : headerOf s.1 = some .peer) (acc : Bool × List (List Char) × List Peer) :
    gather numeric (s :: secs) acc = (Peer.parse numeric (contents s.2)).bind fun p =>
      gather numeric secs (acc.1, acc.2.1, acc.2.2 ++ [p]) := by
  unfold gather
  rw [bodies_cons_self secs hk, bodies_cons_of_ne secs hk (by decide), List.mapM_cons, List.all_cons, hk]
  cases hall : secs.all fun s => (headerOf s.1).isSome with
  | false => cases Peer.parse numeric (contents s.2) <;> rfl
  | true =>
    cases Peer.parse numeric (contents s.2) with
    | none => rfl
    | some p =>
      cases (bodies .peer secs).mapM fun b => Peer.parse numeric (contents b) with
      | none => rfl
      | some ps => simp

end Cons

theorem bodies_mapBody {k : Header} {d : Sections.Document String} {f : String → List String → List String}
    {g : List String → List String} (h : ∀ s ∈ d.sections, headerOf s.1 = some k → f s.1 s.2 = g s.2) :
    bodies k (d.mapBody f).sections = (bodies k d.sections).map g := by
  obtain ⟨front, secs⟩ := d
  show bodies k (secs.map _) = (bodies k secs).map g
  dsimp only at h
  induction secs with
  | nil => rfl
  | cons s secs ih =>
    obtain ⟨hs, hss⟩ := List.forall_mem_cons.1 h
    rw [List.map_cons]
    by_cases hk : headerOf s.1 = some k
    · have hself : bodies k ((s.1, f s.1 s.2) :: secs.map fun s => (s.1, f s.1 s.2))
          = f s.1 s.2 :: bodies k (secs.map fun s => (s.1, f s.1 s.2)) := bodies_cons_self _ hk
      rw [hself, bodies_cons_self _ hk, List.map_cons, ih hss, hs hk]
    · unfold bodies at ih ⊢
      rw [List.filter_cons_of_neg (by simpa using hk), List.filter_cons_of_neg (by simpa using hk)]
      exact ih hss

theorem mem_of_mem_bodies {k : Header} {secs : List (String × List String)} {b : List String}
    (h : b ∈ bodies k secs) : ∃ s ∈ secs, headerOf s.1 = some k ∧ s.2 = b := by
  obtain ⟨s, hs, rfl⟩ := List.mem_map.1 h
  obtain ⟨hs, hk⟩ := List.mem_filter.1 hs
  exact ⟨s, hs, of_decide_eq_true hk, rfl⟩

theorem next_header {raw : String} (h : isHeader raw = true) (st : Reading) :
    st.next numeric raw =
      (st.closePeer numeric).bind fun st =>
        (headerOf raw).map fun
          | .interface => { st with place := .inInterface, seenInterface := true }
          | .peer => { st with place := .inPeer } := by
  have hhead : (content raw).head? = some '[' := by simpa [isHeader] using h
  have hne : (content raw).isEmpty = false := by
    cases hc : content raw with
    | nil => rw [hc] at hhead; cases hhead
    | cons _ _ => rfl
  unfold Reading.next headerOf
  dsimp only
  rw [if_neg (by simp [hne]), if_pos hhead]
  cases st.closePeer numeric with
  | none => rfl
  | some st' =>
    dsimp only [Option.bind_eq_bind, Option.bind_some]
    split
    · rfl
    · split <;> rfl

/-- One section. -/
def Reading.readSection (numeric : String → Option InetAddress) (st : Reading) (s : String × List String) :
    Option Reading :=
  (st.next numeric s.1).bind fun st => s.2.foldlM (Reading.next numeric) st

theorem readSection_eq {s : String × List String} (hs : isHeader s.1 = true)
    (hbody : ∀ l ∈ s.2, isHeader l = false) {st : Reading} (hst : st.place ≠ .inPeer → st.peerLines = []) :
    st.readSection numeric s =
      (st.closePeer numeric).bind fun st =>
        (headerOf s.1).map fun
          | .interface => { st with place := .inInterface, seenInterface := true,
                                    interfaceLines := st.interfaceLines ++ contents s.2, peerLines := [] }
          | .peer => { st with place := .inPeer, peerLines := contents s.2 } := by
  have hclosed : ∀ st' : Reading, st.closePeer numeric = some st' → st'.peerLines = [] := by
    intro st' h
    unfold Reading.closePeer at h
    split at h
    · obtain ⟨p, -, rfl⟩ := Option.map_eq_some_iff.1 h
      rfl
    · rename_i hp
      cases h
      exact hst hp
  rw [Reading.readSection, next_header hs]
  cases hcl : st.closePeer numeric with
  | none => rfl
  | some st' =>
    have hpl := hclosed st' hcl
    obtain ⟨place, seen, il, pl, ps⟩ := st'
    cases hpl
    cases headerOf s.1 with
    | none => rfl
    | some k =>
      cases k with
      | interface => exact foldlM_body hbody _
      | peer => exact foldlM_body hbody _

/-- **The loop over the sections.** -/
theorem foldlM_sections (secs : List (String × List String)) (hh : ∀ s ∈ secs, isHeader s.1 = true)
    (hb : ∀ s ∈ secs, ∀ l ∈ s.2, isHeader l = false) {st : Reading}
    (hst : st.place ≠ .inPeer → st.peerLines = []) :
    (secs.foldlM (Reading.readSection numeric) st).bind (Reading.result numeric) =
      (st.result numeric).bind (gather numeric secs) := by
  induction secs generalizing st with
  | nil =>
    show st.result numeric = _
    have hid : gather numeric [] = fun acc => some acc := by
      funext acc
      simp [gather, bodies, contents]
    rw [hid, Option.bind_fun_some]
  | cons s secs ih =>
    obtain ⟨hhs, hh⟩ := List.forall_mem_cons.1 hh
    obtain ⟨hbs, hb⟩ := List.forall_mem_cons.1 hb
    rw [List.foldlM_cons, readSection_eq hhs hbs hst]
    cases hcl : st.closePeer numeric with
    | none =>
      rw [Reading.result, hcl]
      rfl
    | some st' =>
      have hres : st.result numeric = some (st'.seenInterface, st'.interfaceLines, st'.peers) := by
        rw [Reading.result, hcl, Option.map_some]
      rw [hres, Option.bind_some, Option.bind_some]
      cases hk : headerOf s.1 with
      | none => simp [gather, hk]
      | some k =>
        cases k with
        | interface =>
          rw [gather_cons_interface secs hk]
          exact ih hh hb fun _ => rfl
        | peer =>
          rw [gather_cons_peer secs hk]
          refine (ih hh hb fun h => absurd rfl h).trans ?_
          rw [Reading.result, Reading.closePeer, if_pos rfl]
          cases Peer.parse numeric (contents s.2) <;> rfl

/-- A line behind the last end of a line says nothing. -/
theorem foldlM_readLines (text : String) (st : Reading) :
    (readLines text).foldlM (Reading.next numeric) st
      = (lineSequence text).foldlM (Reading.next numeric) st := by
  unfold readLines
  dsimp only
  split
  · rename_i h
    obtain ⟨ls, hls⟩ := List.getLast?_eq_some_iff.1 h
    rw [hls, List.dropLast_concat, List.foldlM_append]
    have hlast : ∀ st : Reading, [""].foldlM (Reading.next numeric) st = some st := by
      intro st
      rw [List.foldlM_cons, next_of_nil (by decide)]
      rfl
    cases ls.foldlM (Reading.next numeric) st with
    | none => rfl
    | some st' => exact (hlast st').symm
  · rfl

/-- `Config.parse`, over the lines of a text. -/
theorem parse_lines (text : String) : Config.parse numeric text
    = (((lineSequence text).foldlM (Reading.next numeric) {}).bind (Reading.result numeric)).bind
        fun r => if !r.1 then none else
          (Interface.parse numeric r.2.1).map fun i => ⟨i, r.2.2⟩ := by
  unfold Config.parse
  rw [foldlM_readLines]
  cases (lineSequence text).foldlM (Reading.next numeric) {} with
  | none => rfl
  | some st =>
    dsimp only [Option.bind_eq_bind, Option.bind_some, Reading.result]
    cases st.closePeer numeric with
    | none => rfl
    | some st' =>
      dsimp only [Option.bind_some, Option.map_some]
      split
      · rfl
      · cases Interface.parse numeric st'.interfaceLines <;> rfl

/-- **`Config.parse` reads a text section by section.** -/
theorem parse_iff {text : String} {c : Config} :
    Config.parse numeric text = some c ↔ Parses numeric (document text) c := by
  have hh := Sections.cut_headed isHeader (lineSequence text)
  have hlines := Sections.lines_cut isHeader (lineSequence text)
  have hdoc : document text = Sections.cut isHeader (lineSequence text) := rfl
  rw [parse_lines, ← hlines, ← hdoc, Sections.foldlM_lines, foldlM_body (hdoc ▸ hh.front)]
  dsimp only
  have hd : ((document text).sections.foldlM (fun b s => (Reading.next numeric b s.1).bind fun b =>
      s.2.foldlM (Reading.next numeric) b) {}).bind (Reading.result numeric)
      = gather numeric (document text).sections (false, [], []) := by
    refine (foldlM_sections (document text).sections (hdoc ▸ hh.header) (hdoc ▸ hh.body) fun _ => rfl).trans ?_
    rfl
  generalize document text = d at hd
  constructor
  · intro h
    split at h
    · rename_i hfront
      rw [Option.bind_some, hd] at h
      obtain ⟨r, hr, h⟩ := Option.bind_eq_some_iff.1 h
      unfold gather at hr
      split at hr
      · rename_i hall
        obtain ⟨ps, hps, rfl⟩ := Option.map_eq_some_iff.1 hr
        dsimp only at h
        split at h
        · cases h
        · rename_i hseen
          obtain ⟨i, hi, rfl⟩ := Option.map_eq_some_iff.1 h
          refine ⟨hfront, fun s hs => List.all_eq_true.1 hall s hs, ?_, hi, hps⟩
          simpa using hseen
      · cases hr
    · cases h
  · intro h
    have hall : (d.sections.all fun s => (headerOf s.1).isSome) = true := List.all_eq_true.2 h.headers
    have hany : (!(bodies .interface d.sections).isEmpty) = true := by
      simpa using h.interface_ne_nil
    rw [if_pos h.front, Option.bind_some, hd, gather, if_pos hall, h.peers, Option.map_some,
      Option.bind_some]
    dsimp only
    rw [hany, Bool.false_or, if_neg (by decide), List.nil_append, List.nil_append, h.interface]
    rfl

end Sections

/-! ## 6. The lines of a section, key by key -/

section Keys

variable {K : Type} [DecidableEq K] {F : K → Type}

/-- The value that a line has for a key. -/
def valueOf (names : List (String × K)) (k : K) (raw : String) : Option String :=
  (attributeOf names (content raw)).bind fun a => if a.1 = k then some a.2 else none

/-- A line that a section may have. -/
def Reads (names : List (String × K)) (raw : String) : Prop :=
  content raw = [] ∨ (attributeOf names (content raw)).isSome = true

omit [DecidableEq K] in
theorem attributeOf_nil (names : List (String × K)) : attributeOf names [] = none := rfl

omit [DecidableEq K] in
/-- The two sides of a line. -/
theorem attributeOf_eq_some {names : List (String × K)} {line : List Char} {k : K} {v : String}
    (h : attributeOf names line = some (k, v)) : ∃ left right,
      line = left ++ '=' :: right ∧ '=' ∉ left ∧
      names.lookup (String.ofList (Text.lowercase (left.rdropWhile isRegexSpace))) = some k ∧
      v = String.ofList (Text.strip isRegexSpace right) ∧
      (Text.strip isRegexSpace right).all (!isLineEnd ·) = true := by
  unfold attributeOf at h
  obtain ⟨⟨key, w⟩, hkey, h⟩ := Option.bind_eq_some_iff.1 h
  obtain ⟨k', hk', h⟩ := Option.bind_eq_some_iff.1 h
  cases h
  unfold Attribute.parse at hkey
  split at hkey
  · cases hkey
  · rename_i left right hcut
    dsimp only at hkey
    split at hkey
    · rename_i hcond
      rw [Bool.and_eq_true] at hcond
      cases hkey
      exact ⟨left, right, Text.cutFirst_eq_some hcut, Text.not_mem_of_cutFirst hcut, hk', rfl, hcond.2⟩
    · cases hkey

theorem valueOf_eq_some {names : List (String × K)} {k : K} {raw v : String} :
    valueOf names k raw = some v ↔ attributeOf names (content raw) = some (k, v) := by
  unfold valueOf
  cases attributeOf names (content raw) with
  | none => simp
  | some a =>
    obtain ⟨k', v'⟩ := a
    dsimp only [Option.bind_some]
    split
    · rename_i h
      subst h
      simp
    · rename_i h
      simp [h]

/-- **A section is read key by key.** -/
theorem foldlM_contents_iff (names : List (String × K)) (write : (k : K) → F k → String → Option (F k))
    (body : List String) (record record' : (k : K) → F k) :
    (contents body).foldlM (fun b line => (attributeOf names line).bind (Slots.put write b)) record
        = some record' ↔
      (∀ raw ∈ body, Reads names raw) ∧
        ∀ k, (body.filterMap (valueOf names k)).foldlM (write k) (record k) = some (record' k) := by
  have hfill : (contents body).foldlM (fun b line => (attributeOf names line).bind (Slots.put write b))
        record = some record' ↔ (∀ raw ∈ body, Reads names raw) ∧
      Slots.fill write record (body.filterMap fun raw => attributeOf names (content raw)) = some record' := by
    induction body generalizing record with
    | nil => simp [contents, Slots.fill]
    | cons raw body ih =>
      rw [List.forall_mem_cons]
      by_cases hc : content raw = []
      · rw [contents_cons_nil hc, ih, List.filterMap_cons_none (by rw [hc, attributeOf_nil])]
        simp [Reads, hc]
      · rw [contents_cons hc, List.foldlM_cons]
        cases ha : attributeOf names (content raw) with
        | none => simp [Reads, hc, ha]
        | some a =>
          rw [List.filterMap_cons_some (f := fun raw => attributeOf names (content raw)) ha, Slots.fill,
            List.foldlM_cons, Option.bind_some]
          cases Slots.put write record a with
          | none => simp
          | some record₁ =>
            show (contents body).foldlM _ record₁ = some record' ↔ _
            rw [ih]
            simp [Reads, ha, Slots.fill]
  have hcolumn : ∀ k, Slots.column k (body.filterMap fun raw => attributeOf names (content raw))
      = body.filterMap (valueOf names k) := by
    intro k
    unfold Slots.column
    rw [← List.filterMap_eq_filter, ← List.filterMap_eq_map, List.filterMap_filterMap,
      List.filterMap_filterMap]
    congr 1
    funext raw
    unfold valueOf
    cases attributeOf names (content raw) with
    | none => rfl
    | some a =>
      by_cases ha : a.1 = k <;> simp [ha]
  rw [hfill, Slots.fill_eq_some_iff]
  simp only [hcolumn]

end Keys

/-- The private key is there, and applications are not both left out and chosen. -/
def Interface.Complete (i : Interface) : Prop :=
  (i .privateKey).isSome = true ∧ ¬ (i .includedApplications ≠ ∅ ∧ i .excludedApplications ≠ ∅)

theorem Interface.parse_iff {numeric : String → Option InetAddress} {body : List String} {i : Interface} :
    Interface.parse numeric (contents body) = some i ↔
      (∀ raw ∈ body, Reads InterfaceKey.names raw) ∧
        (∀ k, (body.filterMap (valueOf InterfaceKey.names k)).foldlM (InterfaceKey.write numeric k)
          (InterfaceKey.initial k) = some (i k)) ∧ i.Complete := by
  rw [← and_assoc, ← foldlM_contents_iff, Interface.parse]
  cases (contents body).foldlM (fun b line =>
    (attributeOf InterfaceKey.names line).bind (Slots.put (InterfaceKey.write numeric) b))
    InterfaceKey.initial with
  | none => simp
  | some i' =>
    dsimp only [Option.bind_eq_bind, Option.bind_some]
    constructor
    · intro h
      split at h
      · cases h
      · rename_i hpk
        split at h
        · cases h
        · rename_i happs
          cases h
          exact ⟨rfl, Option.isSome_iff_ne_none.2 fun e => hpk (by rw [e]; rfl), happs⟩
    · rintro ⟨h, hpk, happs⟩
      cases h
      rw [if_neg fun e => Option.isSome_iff_ne_none.1 hpk (Option.isNone_iff_eq_none.1 e), if_neg happs]

theorem Peer.parse_iff {numeric : String → Option InetAddress} {body : List String} {p : Peer} :
    Peer.parse numeric (contents body) = some p ↔
      (∀ raw ∈ body, Reads PeerKey.names raw) ∧
        (∀ k, (body.filterMap (valueOf PeerKey.names k)).foldlM (PeerKey.write numeric k)
          (PeerKey.initial k) = some (p k)) ∧ (p .publicKey).isSome = true := by
  rw [← and_assoc, ← foldlM_contents_iff, Peer.parse]
  cases (contents body).foldlM (fun b line =>
    (attributeOf PeerKey.names line).bind (Slots.put (PeerKey.write numeric) b)) PeerKey.initial with
  | none => simp
  | some p' =>
    dsimp only [Option.bind_eq_bind, Option.bind_some]
    constructor
    · intro h
      split at h
      · cases h
      · rename_i hpk
        cases h
        exact ⟨rfl, Option.isSome_iff_ne_none.2 fun e => hpk (by rw [e]; rfl)⟩
    · rintro ⟨h, hpk⟩
      cases h
      rw [if_neg fun e => Option.isSome_iff_ne_none.1 hpk (Option.isNone_iff_eq_none.1 e)]

end SwiftVpn.Awg
