/-
  File:      SwiftVpn/WireGuard/HandOver.lean
  Subject:   WHAT A CONFIGURATION IS HANDED OVER AS: `toAwgUserspaceString` of Config.java, Interface.java
             and Peer.java, and the calls of the builder in `setStateInternal` of GoBackend.java.

  The core gets a text of lines `key=value`, Android gets the calls. The sets of the source are
  `LinkedHashSet`s, of which a `Config` keeps no order; `Order` is the order in which they are gone
  through. `hostAddress` is `getHostAddress` of the platform, `resolved` the text of `getResolved`, which
  asks a name server. Where it answers none for the host of a peer, `setStateInternal` throws and nothing
  is handed over; everything here is about a device on which all hosts resolve. `setMetered` and
  `setUnderlyingNetworks`, which are the same for every configuration, are left out.

  * `toUapiBool`, `Interface.fields`, `Peer.lines`, `toAwgUserspaceString`, `builderCalls`, `handOver` --
    what is handed over;
  * `InterfaceKey.Holds`, `PeerKey.Holds` -- what the contents of a configuration have in common that was
    read from a text: no text has an end of a line in it, and every address was read;
  * `SameTunnel` -- two configurations that agree but for an MTU of 1280 that is not written, for how a
    switch is spelled, and for the name of a host that has the same address;
  * `handOver_eq_iff` -- exactly these are handed over alike: nothing else of a configuration gets lost,
    and no value passes for a setting of its own.
-/
import SwiftVpn.Lib.KeyValue
import SwiftVpn.WireGuard.Config

namespace SwiftVpn.Awg

/-! ## 1. The text for the core -/

/-- A digit of `toHex`: `(n - 10) >> 8` has all bits set where `n` is below ten, and `~38` is -39. -/
def hexDigit (n : Nat) : Char := Char.ofNat (87 + n - if n < 10 then 39 else 0)

/-- `Key.toHex`. -/
def Key.toHex (k : Key) : String :=
  String.ofList (k.flatMap fun b => [hexDigit (b.toNat / 16), hexDigit (b.toNat % 16)])

/-- `toUapiBool`. -/
def toUapiBool (value : String) : String :=
  if String.ofList (Text.lowercase (javaTrim value.toList)) ∈ ["on", "1", "true", "t", "yes"] then "1" else "0"

/-- The lines of `Interface.toAwgUserspaceString`, those that are left out included. -/
def Interface.fields (i : Interface) : List (String × Option String) :=
  [("private_key", (i .privateKey).map Key.toHex),
    ("listen_port", (i .listenPort).map toString),
    ("jc", (i .junkPacketCount).map toString),
    ("jmin", (i .junkPacketMinSize).map toString),
    ("jmax", (i .junkPacketMaxSize).map toString),
    ("s1", (i .initPacketJunkSize).map toString),
    ("s2", (i .responsePacketJunkSize).map toString),
    ("s3", (i .cookieReplyPacketJunkSize).map toString),
    ("s4", (i .transportPacketJunkSize).map toString),
    ("h1", i .initPacketMagicHeader),
    ("h2", i .responsePacketMagicHeader),
    ("h3", i .underloadPacketMagicHeader),
    ("h4", i .transportPacketMagicHeader),
    ("i1", i .specialJunkI1),
    ("i2", i .specialJunkI2),
    ("i3", i .specialJunkI3),
    ("i4", i .specialJunkI4),
    ("i5", i .specialJunkI5),
    ("header_protection_key", (i .headerProtectionKey).map Key.toHex),
    ("content_padding_addition", i .contentPaddingAddition),
    ("rekey_after_time", i .rekeyAfterTime),
    ("rekey_timeout", i .rekeyTimeout),
    ("reject_after_time", i .rejectAfterTime),
    ("keepalive_timeout", i .keepaliveTimeout),
    ("max_handshake_attempts", i .maxHandshakeAttempts),
    ("random_trailers", (i .randomTrailers).map toUapiBool),
    ("disable_cookies", (i .disableCookies).map toUapiBool)]

section HandOver

variable (hostAddress : InetAddress → String) (resolved : InetEndpoint → Option String)

/-- `InetNetwork.toString`. -/
def InetNetwork.text (n : InetNetwork) : String := hostAddress n.address ++ "/" ++ toString n.mask

/-- The lines of a peer below the first. -/
def Peer.fields (p : Peer) : List (String × Option String) :=
  [("endpoint", (p .endpoint).bind resolved),
    ("persistent_keepalive_interval", p .persistentKeepalive),
    ("preshared_key", (p .preSharedKey).map Key.toHex)]

/-- The first line of a peer; the key is there in what was read. -/
def Peer.header (p : Peer) : String × String := ("public_key", ((p .publicKey).map Key.toHex).getD "")

/-- The other lines of `Peer.toAwgUserspaceString`. -/
def Peer.body (p : Peer) (allowedIps : List InetNetwork) : List (String × String) :=
  allowedIps.map (fun n => ("allowed_ip", n.text hostAddress)) ++ KeyValue.present (p.fields resolved)

/-- The order in which the sets of a configuration are gone through, those of the peers one by one. -/
structure Order where
  addresses : List InetNetwork
  dnsServers : List InetAddress
  dnsSearchDomains : List String
  excludedApplications : List String
  includedApplications : List String
  allowedIps : List (List InetNetwork)

/-- A list of what is in a set, each once. -/
structure Lists {α : Type} [DecidableEq α] (l : List α) (s : Finset α) : Prop where
  nodup : l.Nodup
  toFinset : l.toFinset = s

/-- An order for the sets of the configuration. -/
structure Order.Of (o : Order) (c : Config) : Prop where
  addresses : Lists o.addresses (c.interface .address)
  dnsServers : Lists o.dnsServers (c.interface .dns).servers
  dnsSearchDomains : Lists o.dnsSearchDomains (c.interface .dns).searchDomains
  excludedApplications : Lists o.excludedApplications (c.interface .excludedApplications)
  includedApplications : Lists o.includedApplications (c.interface .includedApplications)
  allowedIps : List.Forall₂ (fun p ips => Lists ips (p .allowedIPs)) c.peers o.allowedIps

/-- The lines of the text, a section for each peer. -/
def userspace (c : Config) (o : Order) : Sections.Document (String × String) where
  front := KeyValue.present c.interface.fields ++ [("replace_peers", "true")]
  sections := (c.peers.zip o.allowedIps).map fun p => (p.1.header, p.1.body hostAddress resolved p.2)

/-- `Config.toAwgUserspaceString`. -/
def toAwgUserspaceString (c : Config) (o : Order) : String :=
  KeyValue.text (userspace hostAddress resolved c o).lines

/-! ## 2. The calls of the builder -/

inductive BuilderCall where
  | setSession (name : String)
  | addDisallowedApplication (application : String)
  | addAllowedApplication (application : String)
  | addAddress (network : InetNetwork)
  | addDnsServer (address : String)
  | addSearchDomain (domain : String)
  | addRoute (network : InetNetwork)
  | allowFamilies
  | setMtu (mtu : Int)
  | setBlocking
  deriving DecidableEq, Repr

/-- The calls before `establish`, if none of them throws. -/
def builderCalls (name : String) (c : Config) (o : Order) : List BuilderCall :=
  let sawDefaultRoute := o.allowedIps.any fun ips => ips.any (·.mask == 0)
  [BuilderCall.setSession name] ++
    o.excludedApplications.map BuilderCall.addDisallowedApplication ++
    o.includedApplications.map BuilderCall.addAllowedApplication ++
    o.addresses.map BuilderCall.addAddress ++
    o.dnsServers.map (fun a => BuilderCall.addDnsServer (hostAddress a)) ++
    o.dnsSearchDomains.map BuilderCall.addSearchDomain ++
    o.allowedIps.flatten.map BuilderCall.addRoute ++
    -- only one peer with a default route may have the connection to itself
    (if sawDefaultRoute && c.peers.length == 1 then [] else [BuilderCall.allowFamilies]) ++
    [BuilderCall.setMtu ((c.interface .mtu).getD 1280), .setBlocking]

/-- What Android and the core are handed, where all hosts resolve. -/
def handOver (name : String) (c : Config) (o : Order) : List BuilderCall × String :=
  (builderCalls hostAddress name c o, toAwgUserspaceString hostAddress resolved c o)

end HandOver

/-! ## 3. What was read -/

section Read

variable (numeric : String → Option InetAddress)

/-- An address that some text was read as. -/
def Numeric (a : InetAddress) : Prop := ∃ s, numeric s = some a

/-- A text on one line. -/
def OneLine (s : String) : Prop := '\n' ∉ s.toList

/-- What the content of an attribute has that was read. -/
def InterfaceKey.Holds : (k : InterfaceKey) → k.Field → Prop
  | .address, networks => ∀ n ∈ networks, Numeric numeric n.address
  | .dns, d => ∀ a ∈ d.servers, Numeric numeric a
  | .excludedApplications, _ | .includedApplications, _ => True
  | .listenPort, _ | .mtu, _ | .junkPacketCount, _ | .junkPacketMinSize, _ | .junkPacketMaxSize, _
  | .initPacketJunkSize, _ | .responsePacketJunkSize, _ | .cookieReplyPacketJunkSize, _
  | .transportPacketJunkSize, _ => True
  | .privateKey, _ | .headerProtectionKey, _ => True
  | .initPacketMagicHeader, v | .responsePacketMagicHeader, v | .underloadPacketMagicHeader, v
  | .transportPacketMagicHeader, v | .specialJunkI1, v | .specialJunkI2, v | .specialJunkI3, v
  | .specialJunkI4, v | .specialJunkI5, v | .contentPaddingAddition, v | .rekeyAfterTime, v
  | .rekeyTimeout, v | .rejectAfterTime, v | .keepaliveTimeout, v | .maxHandshakeAttempts, v
  | .randomTrailers, v | .disableCookies, v => ∀ s ∈ v, OneLine s

@[inherit_doc InterfaceKey.Holds]
def PeerKey.Holds : (k : PeerKey) → k.Field → Prop
  | .allowedIPs, networks => ∀ n ∈ networks, Numeric numeric n.address
  | .endpoint, _ => True
  | .persistentKeepalive, v => ∀ s ∈ v, OneLine s
  | .preSharedKey, _ | .publicKey, _ => True

variable {numeric}

theorem numeric_of_parseAddress {s : String} {a : InetAddress} (h : parseAddress numeric s = some a) :
    Numeric numeric a := by
  unfold parseAddress at h
  split at h
  · cases h
  · exact ⟨s, h⟩

theorem numeric_of_parse {network : String} {n : InetNetwork} (h : InetNetwork.parse numeric network = some n) :
    Numeric numeric n.address := by
  have hrest : ∀ raw : String × Int, (parseAddress numeric raw.1).bind (fun address =>
      if (if address.length = 4 then 32 else 128) < raw.2 then none
      else some ⟨address, if 0 ≤ raw.2 then raw.2 else if address.length = 4 then 32 else 128⟩) = some n →
      Numeric numeric n.address := by
    intro raw h
    obtain ⟨address, haddress, h⟩ := Option.bind_eq_some_iff.1 h
    obtain ⟨-, h⟩ := Option.ite_none_left_eq_some.1 h
    cases h
    exact numeric_of_parseAddress haddress
  unfold InetNetwork.parse at h
  split at h
  · obtain ⟨raw, -, h⟩ := Option.bind_eq_some_iff.1 h
    exact hrest raw h
  · exact hrest (network, -1) h

theorem numeric_of_parseNetworks {value : String} {networks : Finset InetNetwork}
    (h : parseNetworks numeric value = some networks) : ∀ n ∈ networks, Numeric numeric n.address := by
  obtain ⟨list, hlist, rfl⟩ := Option.map_eq_some_iff.1 h
  intro n hn
  obtain ⟨s, -, hs⟩ := Sections.exists_of_mapM hlist (List.mem_toFinset.1 hn)
  exact numeric_of_parse hs

/-- Networks that are added. -/
theorem numeric_union {old networks : Finset InetNetwork} {value : String}
    (hold : ∀ n ∈ old, Numeric numeric n.address)
    (h : (parseNetworks numeric value).map (old ∪ ·) = some networks) :
    ∀ n ∈ networks, Numeric numeric n.address := by
  obtain ⟨new, hnew, rfl⟩ := Option.map_eq_some_iff.1 h
  intro n hn
  exact (Finset.mem_union.1 hn).elim (hold n) (numeric_of_parseNetworks hnew n)

theorem numeric_addDns {old dns : DnsServers} {server : String} (hold : ∀ a ∈ old.servers, Numeric numeric a)
    (h : addDns numeric old server = some dns) : ∀ a ∈ dns.servers, Numeric numeric a := by
  unfold addDns at h
  split at h
  · rename_i address haddress
    cases h
    intro a ha
    rcases Finset.mem_insert.1 ha with rfl | ha
    · exact numeric_of_parseAddress haddress
    · exact hold a ha
  · split at h
    · cases h
      exact hold
    · cases h

theorem oneLine_optionalText {value : String} (hvalue : OneLine value) : ∀ s ∈ optionalText value, OneLine s := by
  intro s hs
  unfold optionalText at hs
  dsimp only at hs
  split at hs
  · cases hs
  · cases hs
    unfold OneLine
    rw [String.toList_ofList]
    exact fun hm => hvalue (Text.mem_of_mem_strip hm)

/-- A line keeps what holds of its attribute. -/
theorem InterfaceKey.holds_write {k : InterfaceKey} {old new : k.Field} {value : String}
    (hold : k.Holds numeric old) (hvalue : OneLine value) (h : k.write numeric old value = some new) :
    k.Holds numeric new := by
  cases k
  case address => exact numeric_union hold h
  case dns =>
    exact Sections.foldlM_inv (P := fun _ => True) (fun _ _ _ hb _ hs => numeric_addDns hb hs)
      (fun _ _ => trivial) hold h
  all_goals first
    | trivial
    | (cases h; exact oneLine_optionalText hvalue)

@[inherit_doc InterfaceKey.holds_write]
theorem PeerKey.holds_write {k : PeerKey} {old new : k.Field} {value : String}
    (hold : k.Holds numeric old) (hvalue : OneLine value) (h : k.write numeric old value = some new) :
    k.Holds numeric new := by
  cases k with
  | allowedIPs => exact numeric_union hold h
  | persistentKeepalive =>
    cases h
    intro s hs
    exact oneLine_optionalText hvalue s (Option.filter_eq_some_iff.1 hs).1
  | endpoint => trivial
  | preSharedKey => trivial
  | publicKey => trivial

theorem InterfaceKey.holds_initial (k : InterfaceKey) : k.Holds numeric k.initial := by
  cases k <;> simp [Holds, initial]

theorem PeerKey.holds_initial (k : PeerKey) : k.Holds numeric k.initial := by
  cases k <;> simp [Holds, initial]

/-- The value of a line ends where the line does. -/
theorem oneLine_of_valueOf {K : Type} [DecidableEq K] {names : List (String × K)} {k : K} {raw value : String}
    (h : valueOf names k raw = some value) : OneLine value := by
  obtain ⟨left, right, -, -, -, rfl, hall⟩ := attributeOf_eq_some (valueOf_eq_some.1 h)
  unfold OneLine
  rw [String.toList_ofList]
  intro hm
  have hend := List.all_eq_true.1 hall _ hm
  exact absurd hend (by decide)

theorem oneLine_of_mem_values {K : Type} [DecidableEq K] {names : List (String × K)} {k : K} {body : List String} :
    ∀ value ∈ body.filterMap (valueOf names k), OneLine value := by
  intro value hm
  obtain ⟨raw, -, h⟩ := List.mem_filterMap.1 hm
  exact oneLine_of_valueOf h

/-- What holds of the attributes of an interface that was read. -/
theorem Interface.holds_of_parse {body : List String} {i : Interface}
    (h : Interface.parse numeric (contents body) = some i) (k : InterfaceKey) : k.Holds numeric (i k) := by
  obtain ⟨-, hcolumns, -⟩ := Interface.parse_iff.1 h
  exact Sections.foldlM_inv (fun _ _ _ hb hl hs => InterfaceKey.holds_write hb hl hs) oneLine_of_mem_values
    k.holds_initial (hcolumns k)

theorem Peer.holds_of_parse {body : List String} {p : Peer} (h : Peer.parse numeric (contents body) = some p) :
    (∀ k : PeerKey, k.Holds numeric (p k)) ∧ (p .publicKey).isSome = true := by
  obtain ⟨-, hcolumns, hkey⟩ := Peer.parse_iff.1 h
  refine ⟨fun k => ?_, hkey⟩
  exact Sections.foldlM_inv (fun _ _ _ hb hl hs => PeerKey.holds_write hb hl hs) oneLine_of_mem_values
    k.holds_initial (hcolumns k)

/-- What a configuration has that was read from a text. -/
structure Config.Holds (numeric : String → Option InetAddress) (c : Config) : Prop where
  interface : ∀ k : InterfaceKey, k.Holds numeric (c.interface k)
  peer : ∀ p ∈ c.peers, ∀ k : PeerKey, k.Holds numeric (p k)
  publicKey : ∀ p ∈ c.peers, (p .publicKey).isSome = true

theorem Config.holds_of_parse {text : String} {c : Config} (h : Config.parse numeric text = some c) :
    c.Holds numeric := by
  have hparses := parse_iff.1 h
  have hpeers : ∀ p ∈ c.peers, (∀ k : PeerKey, k.Holds numeric (p k)) ∧ (p .publicKey).isSome = true := by
    intro p hp
    obtain ⟨body, -, hbody⟩ := Sections.exists_of_mapM hparses.peers hp
    exact Peer.holds_of_parse hbody
  exact ⟨Interface.holds_of_parse hparses.interface, fun p hp => (hpeers p hp).1, fun p hp => (hpeers p hp).2⟩

end Read

/-! ## 4. The lines -/

theorem oneLine_toString (n : Int) : OneLine (toString n) := by
  obtain ⟨c, cs, hchars, hmem, -⟩ := Json.toString_int_chars n
  unfold OneLine
  rw [hchars]
  exact fun hm => absurd (hmem _ hm) (by decide)

theorem hexDigit_injective : ∀ m < 16, ∀ n < 16, hexDigit m = hexDigit n → m = n := by decide

theorem toHex_injective : Function.Injective Key.toHex := by
  intro k k' h
  have hchars := congrArg String.toList h
  simp only [Key.toHex, String.toList_ofList] at hchars
  clear h
  induction k generalizing k' with
  | nil =>
    cases k' with
    | nil => rfl
    | cons b k' => simp at hchars
  | cons b k ih =>
    cases k' with
    | nil => simp at hchars
    | cons b' k' =>
      simp only [List.flatMap_cons, List.cons_append, List.nil_append, List.cons.injEq] at hchars
      obtain ⟨hhigh, hlow, hrest⟩ := hchars
      have hb := b.toNat_lt
      have hb' := b'.toNat_lt
      have hhigh := hexDigit_injective _ (by omega) _ (by omega) hhigh
      have hlow := hexDigit_injective _ (by omega) _ (by omega) hlow
      have hbyte : b = b' := UInt8.toNat_inj.1 (by omega)
      rw [hbyte, ih hrest]

theorem oneLine_toHex (k : Key) : OneLine k.toHex := by
  have hdigit : ∀ n < 16, hexDigit n ≠ '\n' := by decide
  unfold OneLine Key.toHex
  rw [String.toList_ofList, List.mem_flatMap]
  rintro ⟨b, -, hm⟩
  have hb := b.toNat_lt
  rcases List.mem_pair.1 hm with he | he
  · exact hdigit _ (by omega) he.symm
  · exact hdigit _ (by omega) he.symm

theorem oneLine_toUapiBool (value : String) : OneLine (toUapiBool value) := by
  unfold toUapiBool OneLine
  split <;> decide

/-- The names of the lines of an interface. -/
def fieldNames : List String :=
  ["private_key", "listen_port", "jc", "jmin", "jmax", "s1", "s2", "s3", "s4", "h1", "h2", "h3", "h4",
    "i1", "i2", "i3", "i4", "i5", "header_protection_key", "content_padding_addition", "rekey_after_time",
    "rekey_timeout", "reject_after_time", "keepalive_timeout", "max_handshake_attempts", "random_trailers",
    "disable_cookies"]

theorem names_fields (i : Interface) : i.fields.map Prod.fst = fieldNames := rfl

theorem names_peerFields (resolved : InetEndpoint → Option String) (p : Peer) :
    (p.fields resolved).map Prod.fst = ["endpoint", "persistent_keepalive_interval", "preshared_key"] := rfl

/-- What the platform says of addresses: the text of one that was read is read as the same one, and is on
    one line, as is the text of an endpoint. -/
structure Spelled (numeric : String → Option InetAddress) (hostAddress : InetAddress → String)
    (resolved : InetEndpoint → Option String) : Prop where
  read : ∀ s a, numeric s = some a → numeric (hostAddress a) = some a
  hostAddress : ∀ s a, numeric s = some a → OneLine (hostAddress a)
  resolved : ∀ e t, resolved e = some t → OneLine t

section Lines

variable {numeric : String → Option InetAddress} {hostAddress : InetAddress → String}
  {resolved : InetEndpoint → Option String}

theorem Spelled.hostAddress_inj (h : Spelled numeric hostAddress resolved) {a b : InetAddress}
    (ha : Numeric numeric a) (hb : Numeric numeric b) (he : hostAddress a = hostAddress b) : a = b := by
  obtain ⟨s, hs⟩ := ha
  obtain ⟨t, ht⟩ := hb
  have hread := h.read s a hs
  rw [he, h.read t b ht] at hread
  exact (Option.some.inj hread).symm

theorem slash_not_mem_toString (n : Int) : '/' ∉ (toString n).toList := by
  obtain ⟨c, cs, hchars, hmem, -⟩ := Json.toString_int_chars n
  rw [hchars]
  exact fun hm => absurd (hmem _ hm) (by decide)

theorem toString_int_injective {m n : Int} (h : toString m = toString n) : m = n := by
  -- as many bits as both need
  have hpow : ((m.natAbs + n.natAbs : Nat) : Int) < 2 ^ (m.natAbs + n.natAbs) := by
    exact_mod_cast Nat.lt_two_pow_self
  have hm : Text.parseInteger (m.natAbs + n.natAbs + 1) 10 (toString m).toList = some m :=
    Text.parseInteger_toString (by rw [Nat.add_sub_cancel]; omega) (by rw [Nat.add_sub_cancel]; omega)
  have hn : Text.parseInteger (m.natAbs + n.natAbs + 1) 10 (toString n).toList = some n :=
    Text.parseInteger_toString (by rw [Nat.add_sub_cancel]; omega) (by rw [Nat.add_sub_cancel]; omega)
  rw [h, hn] at hm
  exact (Option.some.inj hm).symm

/-- The mask stands behind the last slash. -/
theorem Spelled.text_inj (h : Spelled numeric hostAddress resolved) {m n : InetNetwork}
    (hm : Numeric numeric m.address) (hn : Numeric numeric n.address)
    (he : m.text hostAddress = n.text hostAddress) : m = n := by
  have hchars := congrArg String.toList he
  simp only [InetNetwork.text, String.toList_append] at hchars
  have hslash : "/".toList = ['/'] := rfl
  rw [hslash, List.append_assoc, List.append_assoc, List.singleton_append, List.singleton_append] at hchars
  have hcut := Text.cutLast_append (slash_not_mem_toString m.mask) (hostAddress m.address).toList
  rw [hchars, Text.cutLast_append (slash_not_mem_toString n.mask)] at hcut
  obtain ⟨haddress, hmask⟩ := Prod.mk.inj (Option.some.inj hcut)
  have ha := h.hostAddress_inj hm hn (String.toList_injective haddress.symm)
  have hmask := toString_int_injective (String.toList_injective hmask.symm)
  cases m
  cases n
  dsimp only at ha hmask
  rw [ha, hmask]

theorem Spelled.oneLine_text (h : Spelled numeric hostAddress resolved) {n : InetNetwork}
    (hn : Numeric numeric n.address) : OneLine (n.text hostAddress) := by
  obtain ⟨s, hs⟩ := hn
  unfold OneLine InetNetwork.text
  simp only [String.toList_append, List.mem_append, not_or]
  exact ⟨⟨h.hostAddress s n.address hs, by decide⟩, oneLine_toString n.mask⟩

theorem oneLine_map {α : Type} {f : α → String} (hf : ∀ x, OneLine (f x)) (o : Option α) :
    ∀ v ∈ o.map f, OneLine v := by
  intro v hv
  obtain ⟨x, -, rfl⟩ := Option.map_eq_some_iff.1 hv
  exact hf x

/-- The values of an interface are on one line each. -/
theorem oneLine_fields {i : Interface} (h : ∀ k : InterfaceKey, k.Holds numeric (i k)) :
    ∀ f ∈ i.fields, ∀ v ∈ f.2, OneLine v := by
  unfold Interface.fields
  simp only [List.forall_mem_cons, List.not_mem_nil, false_implies, implies_true, and_true]
  exact ⟨oneLine_map oneLine_toHex _, oneLine_map oneLine_toString _, oneLine_map oneLine_toString _,
    oneLine_map oneLine_toString _, oneLine_map oneLine_toString _, oneLine_map oneLine_toString _,
    oneLine_map oneLine_toString _, oneLine_map oneLine_toString _, oneLine_map oneLine_toString _,
    h .initPacketMagicHeader, h .responsePacketMagicHeader, h .underloadPacketMagicHeader,
    h .transportPacketMagicHeader, h .specialJunkI1, h .specialJunkI2, h .specialJunkI3, h .specialJunkI4,
    h .specialJunkI5, oneLine_map oneLine_toHex _, h .contentPaddingAddition, h .rekeyAfterTime,
    h .rekeyTimeout, h .rejectAfterTime, h .keepaliveTimeout, h .maxHandshakeAttempts,
    oneLine_map oneLine_toUapiBool _, oneLine_map oneLine_toUapiBool _⟩

theorem Spelled.oneLine_peerFields (hs : Spelled numeric hostAddress resolved) {p : Peer}
    (h : ∀ k : PeerKey, k.Holds numeric (p k)) : ∀ f ∈ p.fields resolved, ∀ v ∈ f.2, OneLine v := by
  unfold Peer.fields
  simp only [List.forall_mem_cons, List.not_mem_nil, false_implies, implies_true, and_true]
  refine ⟨fun v hv => ?_, h .persistentKeepalive, oneLine_map oneLine_toHex _⟩
  obtain ⟨e, -, he⟩ := Option.bind_eq_some_iff.1 hv
  exact hs.resolved e v he

end Lines

/-! ## 5. Who is handed over alike -/

/-- Two interfaces that agree but for an MTU that is the default, and for how a switch is spelled. -/
structure SameInterface (i i' : Interface) : Prop where
  others : ∀ k, k ≠ .mtu → k ≠ .randomTrailers → k ≠ .disableCookies → i k = i' k
  mtu : (i .mtu).getD 1280 = (i' .mtu).getD 1280
  randomTrailers : (i .randomTrailers).map toUapiBool = (i' .randomTrailers).map toUapiBool
  disableCookies : (i .disableCookies).map toUapiBool = (i' .disableCookies).map toUapiBool

/-- Two peers that agree but for the names of their hosts. -/
structure SamePeer (resolved : InetEndpoint → Option String) (p p' : Peer) : Prop where
  others : ∀ k, k ≠ .endpoint → p k = p' k
  endpoint : (p .endpoint).bind resolved = (p' .endpoint).bind resolved

structure SameTunnel (resolved : InetEndpoint → Option String) (c c' : Config) : Prop where
  interface : SameInterface c.interface c'.interface
  peers : List.Forall₂ (SamePeer resolved) c.peers c'.peers

section Alike

variable {numeric : String → Option InetAddress} {hostAddress : InetAddress → String}
  {resolved : InetEndpoint → Option String}

theorem Lists.eq {α : Type} [DecidableEq α] {l l' : List α} {s s' : Finset α} (h : Lists l s) (h' : Lists l' s')
    (he : l = l') : s = s' := by
  rw [← h.toFinset, ← h'.toFinset, he]

theorem Lists.mem {α : Type} [DecidableEq α] {l : List α} {s : Finset α} (h : Lists l s) {a : α} :
    a ∈ l ↔ a ∈ s := by
  rw [← h.toFinset, List.mem_toFinset]

/-- Lists whose elements are told apart by their texts. -/
theorem map_inj_of_mem {α β : Type} {f : α → β} {l l' : List α} (hf : ∀ a ∈ l, ∀ b ∈ l', f a = f b → a = b)
    (h : l.map f = l'.map f) : l = l' := by
  induction l generalizing l' with
  | nil =>
    cases l' with
    | nil => rfl
    | cons b l' => cases h
  | cons a l ih =>
    cases l' with
    | nil => cases h
    | cons b l' =>
      rw [List.map_cons, List.map_cons, List.cons.injEq] at h
      rw [hf a List.mem_cons_self b List.mem_cons_self h.1,
        ih (fun a ha b hb => hf a (List.mem_cons_of_mem _ ha) b (List.mem_cons_of_mem _ hb)) h.2]

/-- The lines of a peer tell its networks from its other attributes. -/
theorem body_inj (hs : Spelled numeric hostAddress resolved) {p p' : Peer} {ips ips' : List InetNetwork}
    (hips : ∀ n ∈ ips, Numeric numeric n.address) (hips' : ∀ n ∈ ips', Numeric numeric n.address)
    (h : p.body hostAddress resolved ips = p'.body hostAddress resolved ips') :
    ips = ips' ∧ p.fields resolved = p'.fields resolved := by
  have hfilter : ∀ (q : Peer) (ns : List InetNetwork),
      (q.body hostAddress resolved ns).filter (·.1 == "allowed_ip")
        = ns.map fun n => ("allowed_ip", n.text hostAddress) := by
    intro q ns
    unfold Peer.body
    rw [List.filter_append, List.filter_eq_self.2, List.filter_eq_nil_iff.2, List.append_nil]
    · intro l hl
      have hname := List.mem_map_of_mem (f := Prod.fst) (KeyValue.mem_present.1 hl)
      rw [names_peerFields] at hname
      have hall : ∀ name ∈ ["endpoint", "persistent_keepalive_interval", "preshared_key"],
          ¬ (name == "allowed_ip") = true := by decide
      exact hall l.1 hname
    · intro l hl
      obtain ⟨n, -, rfl⟩ := List.mem_map.1 hl
      rfl
  have hnetworks := congrArg (List.filter (·.1 == "allowed_ip")) h
  rw [hfilter, hfilter] at hnetworks
  have heq : ips = ips' := by
    refine map_inj_of_mem (fun m hm n hn he => ?_) hnetworks
    exact hs.text_inj (hips m hm) (hips' n hn) (Prod.mk.inj he).2
  refine ⟨heq, ?_⟩
  unfold Peer.body at h
  rw [heq] at h
  refine KeyValue.present_injective ((names_peerFields resolved p).trans (names_peerFields resolved p').symm)
    ?_ (List.append_cancel_left h)
  rw [names_peerFields]
  decide

theorem toHex_map_injective {o o' : Option Key} (h : o.map Key.toHex = o'.map Key.toHex) : o = o' :=
  Option.map_injective toHex_injective h

theorem toString_map_injective {o o' : Option Int} (h : o.map toString = o'.map toString) : o = o' :=
  Option.map_injective (fun _ _ he => toString_int_injective he) h

/-- One peer, by its section. -/
theorem samePeer_of_section (hs : Spelled numeric hostAddress resolved) {p p' : Peer}
    {ips ips' : List InetNetwork} (hips : Lists ips (p .allowedIPs)) (hips' : Lists ips' (p' .allowedIPs))
    (hp : ∀ k : PeerKey, k.Holds numeric (p k)) (hp' : ∀ k : PeerKey, k.Holds numeric (p' k))
    (hkey : (p .publicKey).isSome = true) (hkey' : (p' .publicKey).isSome = true)
    (h : (p.header, p.body hostAddress resolved ips) = (p'.header, p'.body hostAddress resolved ips')) :
    SamePeer resolved p p' := by
  obtain ⟨hheader, hbody⟩ := Prod.mk.inj h
  have hnumeric : ∀ n ∈ ips, Numeric numeric n.address := fun n hn => hp .allowedIPs n (hips.mem.1 hn)
  have hnumeric' : ∀ n ∈ ips', Numeric numeric n.address := fun n hn => hp' .allowedIPs n (hips'.mem.1 hn)
  obtain ⟨heq, hfields⟩ := body_inj hs hnumeric hnumeric' hbody
  simp only [Peer.fields, List.cons.injEq, Prod.mk.injEq, true_and, and_true] at hfields
  obtain ⟨hendpoint, hkeepalive, hshared⟩ := hfields
  have hpublic : p .publicKey = p' .publicKey := by
    obtain ⟨k, hk⟩ := Option.isSome_iff_exists.1 hkey
    obtain ⟨k', hk'⟩ := Option.isSome_iff_exists.1 hkey'
    have hhex := (Prod.mk.inj hheader).2
    rw [hk, hk'] at hhex ⊢
    exact congrArg some (toHex_injective hhex)
  refine ⟨fun k hk => ?_, hendpoint⟩
  cases k with
  | endpoint => exact absurd rfl hk
  | allowedIPs => exact hips.eq hips' heq
  | persistentKeepalive => exact hkeepalive
  | preSharedKey => exact toHex_map_injective hshared
  | publicKey => exact hpublic

/-- The peers, by their sections. -/
theorem samePeers_of_sections (hs : Spelled numeric hostAddress resolved) {ps ps' : List Peer}
    {ipss ipss' : List (List InetNetwork)} (hips : List.Forall₂ (fun p ips => Lists ips (p .allowedIPs)) ps ipss)
    (hips' : List.Forall₂ (fun p ips => Lists ips (p .allowedIPs)) ps' ipss')
    (hps : ∀ p ∈ ps, (∀ k : PeerKey, k.Holds numeric (p k)) ∧ (p .publicKey).isSome = true)
    (hps' : ∀ p ∈ ps', (∀ k : PeerKey, k.Holds numeric (p k)) ∧ (p .publicKey).isSome = true)
    (h : ((ps.zip ipss).map fun p => (p.1.header, p.1.body hostAddress resolved p.2))
      = (ps'.zip ipss').map fun p => (p.1.header, p.1.body hostAddress resolved p.2)) :
    List.Forall₂ (SamePeer resolved) ps ps' := by
  induction hips generalizing ps' ipss' with
  | nil =>
    cases hips' with
    | nil => exact .nil
    | cons _ _ => cases h
  | cons hp _ ih =>
    cases hips' with
    | nil => cases h
    | cons hp' hrest' =>
      rw [List.zip_cons_cons, List.zip_cons_cons, List.map_cons, List.map_cons, List.cons.injEq] at h
      obtain ⟨hold, hps⟩ := List.forall_mem_cons.1 hps
      obtain ⟨hold', hps'⟩ := List.forall_mem_cons.1 hps'
      exact .cons (samePeer_of_section hs hp hp' hold.1 hold'.1 hold.2 hold'.2 h.1) (ih hrest' hps hps' h.2)

/-- A line that starts a peer. -/
def isPeerLine (l : String × String) : Bool := l.1 == "public_key"

theorem headed_userspace (hostAddress : InetAddress → String) (resolved : InetEndpoint → Option String)
    (c : Config) (o : Order) : (userspace hostAddress resolved c o).Headed isPeerLine where
  front l hl := by
    have hall : ∀ name ∈ fieldNames ++ ["replace_peers"], (name == "public_key") = false := by decide
    refine hall l.1 ?_
    rcases List.mem_append.1 hl with hl | hl
    · have hname := List.mem_map_of_mem (f := Prod.fst) (KeyValue.mem_present.1 hl)
      rw [names_fields] at hname
      exact List.mem_append_left _ hname
    · rw [List.mem_singleton.1 hl]
      exact List.mem_append_right _ List.mem_cons_self
  header s hs := by
    obtain ⟨p, -, rfl⟩ := List.mem_map.1 hs
    rfl
  body s hs l hl := by
    obtain ⟨p, -, rfl⟩ := List.mem_map.1 hs
    rcases List.mem_append.1 hl with hl | hl
    · obtain ⟨n, -, rfl⟩ := List.mem_map.1 hl
      rfl
    · have hname := List.mem_map_of_mem (f := Prod.fst) (KeyValue.mem_present.1 hl)
      rw [names_peerFields] at hname
      have hall : ∀ name ∈ ["endpoint", "persistent_keepalive_interval", "preshared_key"],
          (name == "public_key") = false := by decide
      exact hall l.1 hname

/-- Every line of the text is one. -/
theorem fits_userspace (hs : Spelled numeric hostAddress resolved) {c : Config} (hc : c.Holds numeric)
    {o : Order} (ho : o.Of c) : ∀ l ∈ (userspace hostAddress resolved c o).lines, KeyValue.Fits l := by
  have hname : ∀ {names : List String} {fields : List (String × Option String)}, fields.map Prod.fst = names →
      (∀ name ∈ names, '=' ∉ name.toList) → (∀ f ∈ fields, ∀ v ∈ f.2, OneLine v) →
      ∀ l ∈ KeyValue.present fields, KeyValue.Fits l := by
    rintro names fields rfl hkeys hvalues l hl
    have hf := KeyValue.mem_present.1 hl
    exact ⟨hkeys l.1 (List.mem_map_of_mem (f := Prod.fst) hf), hvalues _ hf l.2 rfl⟩
  have hpeers : ∀ q ∈ c.peers.zip o.allowedIps, q.1 ∈ c.peers ∧ Lists q.2 (q.1 .allowedIPs) := fun q hq =>
    ⟨(List.of_mem_zip hq).1, (List.forall₂_iff_zip.1 ho.allowedIps).2 hq⟩
  intro l hl
  rcases List.mem_append.1 hl with hl | hl
  · rcases List.mem_append.1 hl with hl | hl
    · exact hname (names_fields c.interface) (by decide) (oneLine_fields hc.interface) l hl
    · rw [List.mem_singleton.1 hl]
      exact ⟨by decide, by decide⟩
  · obtain ⟨s, hs', hl⟩ := List.mem_flatMap.1 hl
    obtain ⟨q, hq, rfl⟩ := List.mem_map.1 hs'
    obtain ⟨hp, hips⟩ := hpeers q hq
    rcases List.mem_cons.1 hl with rfl | hl
    · obtain ⟨k, hk⟩ := Option.isSome_iff_exists.1 (hc.publicKey q.1 hp)
      have hheader : q.1.header = ("public_key", k.toHex) := by
        unfold Peer.header
        rw [hk]
        rfl
      have hkey : '=' ∉ "public_key".toList := by decide
      rw [hheader]
      exact ⟨hkey, oneLine_toHex k⟩
    · rcases List.mem_append.1 hl with hl | hl
      · obtain ⟨n, hn, rfl⟩ := List.mem_map.1 hl
        have hkey : '=' ∉ "allowed_ip".toList := by decide
        exact ⟨hkey, hs.oneLine_text (hc.peer q.1 hp .allowedIPs n (hips.mem.1 hn))⟩
      · exact hname (names_peerFields resolved q.1) (by decide) (hs.oneLine_peerFields (hc.peer q.1 hp)) l hl

/-- **The text for the core is read back line by line and section by section.** -/
theorem userspace_eq_of_text (hs : Spelled numeric hostAddress resolved) {c c' : Config} (hc : c.Holds numeric)
    (hc' : c'.Holds numeric) {o o' : Order} (ho : o.Of c) (ho' : o'.Of c')
    (h : toAwgUserspaceString hostAddress resolved c o = toAwgUserspaceString hostAddress resolved c' o') :
    userspace hostAddress resolved c o = userspace hostAddress resolved c' o' := by
  have hlines := KeyValue.text_injective (fits_userspace hs hc ho) (fits_userspace hs hc' ho') h
  rw [← Sections.cut_lines (headed_userspace hostAddress resolved c o), hlines,
    Sections.cut_lines (headed_userspace hostAddress resolved c' o')]

/-- The interface, but for what only Android is told. -/
theorem fields_eq_of_front {i i' : Interface}
    (h : KeyValue.present i.fields ++ [("replace_peers", "true")]
      = KeyValue.present i'.fields ++ [("replace_peers", "true")]) : i.fields = i'.fields :=
  KeyValue.present_injective ((names_fields i).trans (names_fields i').symm)
    (by rw [names_fields]; decide) (List.append_cancel_right h)

/-- What a call adds to each of the lists. -/
def BuilderCall.disallowed? : BuilderCall → Option String
  | .addDisallowedApplication application => some application
  | _ => none

@[inherit_doc BuilderCall.disallowed?]
def BuilderCall.allowed? : BuilderCall → Option String
  | .addAllowedApplication application => some application
  | _ => none

@[inherit_doc BuilderCall.disallowed?]
def BuilderCall.address? : BuilderCall → Option InetNetwork
  | .addAddress network => some network
  | _ => none

@[inherit_doc BuilderCall.disallowed?]
def BuilderCall.dnsServer? : BuilderCall → Option String
  | .addDnsServer address => some address
  | _ => none

@[inherit_doc BuilderCall.disallowed?]
def BuilderCall.searchDomain? : BuilderCall → Option String
  | .addSearchDomain domain => some domain
  | _ => none

@[inherit_doc BuilderCall.disallowed?]
def BuilderCall.mtu? : BuilderCall → Option Int
  | .setMtu mtu => some mtu
  | _ => none

/-- The calls, list by list. -/
structure Called (hostAddress : InetAddress → String) (calls : List BuilderCall) (c : Config) (o : Order) : Prop where
  disallowed : calls.filterMap BuilderCall.disallowed? = o.excludedApplications
  allowed : calls.filterMap BuilderCall.allowed? = o.includedApplications
  address : calls.filterMap BuilderCall.address? = o.addresses
  dnsServer : calls.filterMap BuilderCall.dnsServer? = o.dnsServers.map hostAddress
  searchDomain : calls.filterMap BuilderCall.searchDomain? = o.dnsSearchDomains
  mtu : calls.filterMap BuilderCall.mtu? = [(c.interface .mtu).getD 1280]

theorem called (hostAddress : InetAddress → String) (name : String) (c : Config) (o : Order) :
    Called hostAddress (builderCalls hostAddress name c o) c o := by
  have hfamilies : ∀ {α : Type} (f : BuilderCall → Option α) (b : Bool), f .allowFamilies = none →
      (if b = true then [] else [BuilderCall.allowFamilies]).filterMap f = [] := by
    intro α f b hf
    cases b <;> simp [hf]
  have hnone : ∀ {α β : Type} (l : List α), l.filterMap (fun _ => (none : Option β)) = [] := by
    intro α β l
    simp
  have hsome : ∀ {α β : Type} (f : α → β) (l : List α), l.filterMap (fun a => some (f a)) = l.map f :=
    fun f l => congrFun List.filterMap_eq_map l
  constructor <;>
    simp only [builderCalls, List.filterMap_append, List.filterMap_map, Function.comp_def,
      hfamilies BuilderCall.disallowed? _ rfl, hfamilies BuilderCall.allowed? _ rfl,
      hfamilies BuilderCall.address? _ rfl, hfamilies BuilderCall.dnsServer? _ rfl,
      hfamilies BuilderCall.searchDomain? _ rfl, hfamilies BuilderCall.mtu? _ rfl, List.filterMap_cons,
      List.filterMap_nil, hnone, hsome, List.map_id', List.append_nil, List.nil_append,
      BuilderCall.disallowed?, BuilderCall.allowed?, BuilderCall.address?, BuilderCall.dnsServer?,
      BuilderCall.searchDomain?, BuilderCall.mtu?]

/-- The interface, from what both are handed. -/
theorem sameInterface_of_called (hs : Spelled numeric hostAddress resolved) {c c' : Config}
    (hc : c.Holds numeric) (hc' : c'.Holds numeric) {o o' : Order} (ho : o.Of c) (ho' : o'.Of c')
    {calls : List BuilderCall} (h : Called hostAddress calls c o) (h' : Called hostAddress calls c' o')
    (hfields : c.interface.fields = c'.interface.fields) : SameInterface c.interface c'.interface := by
  have haddress := ho.addresses.eq ho'.addresses (h.address.symm.trans h'.address)
  have hexcluded := ho.excludedApplications.eq ho'.excludedApplications (h.disallowed.symm.trans h'.disallowed)
  have hincluded := ho.includedApplications.eq ho'.includedApplications (h.allowed.symm.trans h'.allowed)
  have hmtu := (List.cons.inj (h.mtu.symm.trans h'.mtu)).1
  have hdns : c.interface .dns = c'.interface .dns := by
    have hlist : o.dnsServers = o'.dnsServers := by
      refine map_inj_of_mem (fun a ha b hb he => ?_) (h.dnsServer.symm.trans h'.dnsServer)
      exact hs.hostAddress_inj (hc.interface .dns a (ho.dnsServers.mem.1 ha))
        (hc'.interface .dns b (ho'.dnsServers.mem.1 hb)) he
    have hservers := ho.dnsServers.eq ho'.dnsServers hlist
    have hdomains := ho.dnsSearchDomains.eq ho'.dnsSearchDomains (h.searchDomain.symm.trans h'.searchDomain)
    calc c.interface .dns = ⟨(c.interface .dns).servers, (c.interface .dns).searchDomains⟩ := rfl
      _ = ⟨(c'.interface .dns).servers, (c'.interface .dns).searchDomains⟩ := by rw [hservers, hdomains]
  simp only [Interface.fields, List.cons.injEq, Prod.mk.injEq, true_and, and_true] at hfields
  obtain ⟨hprivate, hport, hjc, hjmin, hjmax, hs1, hs2, hs3, hs4, hh1, hh2, hh3, hh4, hi1, hi2, hi3, hi4, hi5,
    hheader, hpadding, hrekey, htimeout, hreject, hkeepalive, hattempts, htrailers, hcookies⟩ := hfields
  refine ⟨fun k hmtu htrailers hcookies => ?_, hmtu, htrailers, hcookies⟩
  cases k with
  | address => exact haddress
  | dns => exact hdns
  | excludedApplications => exact hexcluded
  | includedApplications => exact hincluded
  | mtu => exact absurd rfl hmtu
  | randomTrailers => exact absurd rfl htrailers
  | disableCookies => exact absurd rfl hcookies
  | privateKey => exact toHex_map_injective hprivate
  | headerProtectionKey => exact toHex_map_injective hheader
  | listenPort => exact toString_map_injective hport
  | junkPacketCount => exact toString_map_injective hjc
  | junkPacketMinSize => exact toString_map_injective hjmin
  | junkPacketMaxSize => exact toString_map_injective hjmax
  | initPacketJunkSize => exact toString_map_injective hs1
  | responsePacketJunkSize => exact toString_map_injective hs2
  | cookieReplyPacketJunkSize => exact toString_map_injective hs3
  | transportPacketJunkSize => exact toString_map_injective hs4
  | initPacketMagicHeader => exact hh1
  | responsePacketMagicHeader => exact hh2
  | underloadPacketMagicHeader => exact hh3
  | transportPacketMagicHeader => exact hh4
  | specialJunkI1 => exact hi1
  | specialJunkI2 => exact hi2
  | specialJunkI3 => exact hi3
  | specialJunkI4 => exact hi4
  | specialJunkI5 => exact hi5
  | contentPaddingAddition => exact hpadding
  | rekeyAfterTime => exact hrekey
  | rekeyTimeout => exact htimeout
  | rejectAfterTime => exact hreject
  | keepaliveTimeout => exact hkeepalive
  | maxHandshakeAttempts => exact hattempts

/-- What the sets of a configuration are, in some order. -/
theorem exists_order (c : Config) : ∃ o : Order, o.Of c := by
  have hlists : ∀ {α : Type} [DecidableEq α] (s : Finset α), Lists s.toList s := fun s =>
    ⟨s.nodup_toList, Finset.toList_toFinset s⟩
  refine ⟨⟨(c.interface .address).toList, (c.interface .dns).servers.toList,
    (c.interface .dns).searchDomains.toList, (c.interface .excludedApplications).toList,
    (c.interface .includedApplications).toList, c.peers.map fun p => (p .allowedIPs).toList⟩,
    hlists _, hlists _, hlists _, hlists _, hlists _, ?_⟩
  rw [List.forall₂_map_right_iff]
  exact List.forall₂_same.2 fun p _ => hlists (p .allowedIPs)

/-- An order for one is an order for the other. -/
theorem Order.Of.congr {c c' : Config} (h : SameTunnel resolved c c') {o : Order} (ho : o.Of c) : o.Of c' := by
  have hfield : ∀ k : InterfaceKey, k ≠ .mtu → k ≠ .randomTrailers → k ≠ .disableCookies →
      c.interface k = c'.interface k := h.interface.others
  refine ⟨?_, ?_, ?_, ?_, ?_, ?_⟩
  · rw [← hfield .address (by decide) (by decide) (by decide)]
    exact ho.addresses
  · rw [← hfield .dns (by decide) (by decide) (by decide)]
    exact ho.dnsServers
  · rw [← hfield .dns (by decide) (by decide) (by decide)]
    exact ho.dnsSearchDomains
  · rw [← hfield .excludedApplications (by decide) (by decide) (by decide)]
    exact ho.excludedApplications
  · rw [← hfield .includedApplications (by decide) (by decide) (by decide)]
    exact ho.includedApplications
  · have hpeers := h.peers
    have hips := ho.allowedIps
    revert hips
    generalize o.allowedIps = ipss
    generalize c.peers = ps at hpeers ⊢
    generalize c'.peers = ps' at hpeers ⊢
    intro hips
    induction hpeers generalizing ipss with
    | nil =>
      cases hips
      exact .nil
    | cons hp _ ih =>
      cases hips with
      | cons hip hips =>
        refine .cons ?_ (ih _ hips)
        rw [← hp.others .allowedIPs (by decide)]
        exact hip

theorem fields_congr {i i' : Interface} (h : SameInterface i i') : i.fields = i'.fields := by
  have hfield : ∀ k : InterfaceKey, k ≠ .mtu → k ≠ .randomTrailers → k ≠ .disableCookies → i k = i' k :=
    h.others
  unfold Interface.fields
  rw [h.randomTrailers, h.disableCookies]
  simp (disch := decide) only [hfield]

theorem sections_congr {ps ps' : List Peer} (h : List.Forall₂ (SamePeer resolved) ps ps')
    (ipss : List (List InetNetwork)) :
    ((ps.zip ipss).map fun p => (p.1.header, p.1.body hostAddress resolved p.2))
      = (ps'.zip ipss).map fun p => (p.1.header, p.1.body hostAddress resolved p.2) := by
  induction h generalizing ipss with
  | nil => rfl
  | @cons p p' ps ps' hp _ ih =>
    cases ipss with
    | nil => rfl
    | cons ips ipss =>
      have hheader : p.header = p'.header := by
        unfold Peer.header
        rw [hp.others .publicKey (by decide)]
      have hbody : p.body hostAddress resolved ips = p'.body hostAddress resolved ips := by
        unfold Peer.body Peer.fields
        rw [hp.others .persistentKeepalive (by decide), hp.others .preSharedKey (by decide), hp.endpoint]
      simp only [List.zip_cons_cons, List.map_cons, ih ipss, hheader, hbody]

theorem handOver_congr (name : String) {c c' : Config} (h : SameTunnel resolved c c') (o : Order) :
    handOver hostAddress resolved name c o = handOver hostAddress resolved name c' o := by
  have hlength := h.peers.length_eq
  unfold handOver builderCalls toAwgUserspaceString userspace
  rw [hlength, h.interface.mtu, fields_congr h.interface, sections_congr h.peers o.allowedIps]

/-- **Two profiles are handed over alike, in some order of their sets, exactly where they agree** but for the
    default MTU, the spelling of a switch and the name of a host: everything else that a profile says is
    told to Android or to the core, and none of it can be taken for something else. -/
theorem handOver_eq_iff (hs : Spelled numeric hostAddress resolved) (name : String) {text text' : String}
    {c c' : Config} (hc : Config.parse numeric text = some c) (hc' : Config.parse numeric text' = some c') :
    (∃ o o' : Order, o.Of c ∧ o'.Of c' ∧
        handOver hostAddress resolved name c o = handOver hostAddress resolved name c' o') ↔
      SameTunnel resolved c c' := by
  have hholds := Config.holds_of_parse hc
  have hholds' := Config.holds_of_parse hc'
  constructor
  · rintro ⟨o, o', ho, ho', h⟩
    obtain ⟨hcalls, htext⟩ := Prod.mk.inj h
    have hdocument := userspace_eq_of_text hs hholds hholds' ho ho' htext
    obtain ⟨hfront, hsections⟩ := Sections.Document.mk.inj hdocument
    have hcalled := called hostAddress name c o
    rw [hcalls] at hcalled
    exact ⟨sameInterface_of_called hs hholds hholds' ho ho' hcalled (called hostAddress name c' o')
        (fields_eq_of_front hfront),
      samePeers_of_sections hs ho.allowedIps ho'.allowedIps
        (fun p hp => ⟨hholds.peer p hp, hholds.publicKey p hp⟩)
        (fun p hp => ⟨hholds'.peer p hp, hholds'.publicKey p hp⟩) hsections⟩
  · intro h
    obtain ⟨o, ho⟩ := exists_order c
    exact ⟨o, o, ho, ho.congr h, handOver_congr name h o⟩

end Alike

/-! ## 6. Two spellings of one tunnel -/

/-- One address and one host, of a platform that knows no others. -/
def sampleNumeric (s : String) : Option InetAddress := if s = "10.0.0.2" then some [10, 0, 0, 2] else none

@[inherit_doc sampleNumeric]
def sampleHostAddress (a : InetAddress) : String := if a = [10, 0, 0, 2] then "10.0.0.2" else ""

@[inherit_doc sampleNumeric]
def sampleResolved (e : InetEndpoint) : Option String :=
  if e = ⟨"vpn.example", 51820⟩ then some "192.0.2.1:51820" else none

theorem spelled_sample : Spelled sampleNumeric sampleHostAddress sampleResolved where
  read s a h := by
    unfold sampleNumeric at h
    split at h
    · cases h
      decide
    · cases h
  hostAddress s a h := by
    unfold sampleNumeric at h
    split at h
    · cases h
      unfold OneLine
      decide
    · cases h
  resolved e t h := by
    unfold sampleResolved at h
    split at h
    · cases h
      unfold OneLine
      decide
    · cases h

/-- A profile with the lines `extra` in its interface. -/
def sampleLines (extra : List String) : List String :=
  ["[Interface]", "PrivateKey = AAAAAAAAAAAAAAAAAAAAAAAAAAAAAAAAAAAAAAAAAAA=", "Address = 10.0.0.2"] ++ extra ++
    ["[Peer]", "PublicKey = AAAAAAAAAAAAAAAAAAAAAAAAAAAAAAAAAAAAAAAAAAA=", "Endpoint = vpn.example:51820",
      "AllowedIPs = 10.0.0.2"]

theorem isSome_sampleLines : ∀ extra ∈ [[], ["MTU = 1280"]],
    (Config.parse sampleNumeric (XrayShareLink.plain (sampleLines extra))).isSome = true := by
  have hline : ∀ extra ∈ [[], ["MTU = 1280"]], ∀ l ∈ sampleLines extra, ∀ c ∈ l.toList, c ≠ '\n' ∧ c ≠ '\r' := by
    decide +kernel
  have hparse : ∀ extra ∈ [[], ["MTU = 1280"]],
      ((((sampleLines extra).foldlM (Reading.next sampleNumeric) {}).bind (Reading.result sampleNumeric)).bind
        fun r => if !r.1 then none else
          (Interface.parse sampleNumeric r.2.1).map fun i => (⟨i, r.2.2⟩ : Config)).isSome = true := by
    decide +kernel
  intro extra hextra
  rw [parse_lines, XrayShareLink.lineSequence_plain (by simp [sampleLines]) (hline extra hextra)]
  exact hparse extra hextra

theorem handOver_eq_iff_sample :
    ∃ c c', Config.parse sampleNumeric (XrayShareLink.plain (sampleLines [])) = some c ∧
      Config.parse sampleNumeric (XrayShareLink.plain (sampleLines ["MTU = 1280"])) = some c' ∧
      ((∃ o o' : Order, o.Of c ∧ o'.Of c' ∧ handOver sampleHostAddress sampleResolved "wg0" c o
          = handOver sampleHostAddress sampleResolved "wg0" c' o') ↔ SameTunnel sampleResolved c c') := by
  obtain ⟨c, hc⟩ := Option.isSome_iff_exists.1 (isSome_sampleLines [] (by decide))
  obtain ⟨c', hc'⟩ := Option.isSome_iff_exists.1 (isSome_sampleLines ["MTU = 1280"] (by decide))
  exact ⟨c, c', hc, hc', handOver_eq_iff spelled_sample "wg0" hc hc'⟩

end SwiftVpn.Awg
