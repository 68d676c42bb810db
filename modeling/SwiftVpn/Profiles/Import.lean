/-
  File:      SwiftVpn/Profiles/Import.lean
  Subject:   PROFILES OF EVERY PROTOCOL, AND THE IMPORT OF ONE TEXT: WireGuardStore.kt, Ikev2Store.kt,
             what the app uses of ProfileManager.java, and VpnEngine.importConfig.

  * `AppState` -- the four stores, the favourites and the tile; `profiles` is the list the app shows;
  * `Platform` -- what is taken from elsewhere: the uuids that are drawn, the two number readers
    (`truncate` is `(int) Double.parseDouble`), the certificate store (`installCa` is the alias that a
    certificate gets there), and the two parsers. `parseWireGuard` tells whether `Config.parse` accepts a
    text, `parseOpenVpn` the credentials that stand in a text that `ConfigParser` accepts;
  * `importConfig` -- four looks at the content, each of which commits to an importer;
  * `importConfig_cases` -- what one call can do, on which every later result rests;
  * `importConfig_stores_iff` -- a text that one of the two parsers accepts is stored exactly where no
    earlier look takes it for links or for JSON that then turn out to be none.

  Files, preferences and rows are written without failure. `take(4_000)` counts UTF-16 units.
-/
import SwiftVpn.Xray.Store

namespace SwiftVpn

/-! ## 1. The stores -/

/-- What the list of profiles shows of one; the columns that nothing here reads are left out. -/
structure Profile where
  uuid : Uuid
  name : String
  protocol : Protocol
  isFavourite : Bool := false
  deriving DecidableEq, Repr

/-- User name and password; null is the empty text. -/
structure Credentials where
  username : String := ""
  password : String := ""
  deriving DecidableEq, Repr

/-- What is taken from elsewhere. `newUuid` are the uuids that each store draws, in their order. -/
structure Platform where
  newUuid : Protocol → Nat → Uuid
  doubles : Doubles
  parseWireGuard : String → Bool
  parseOpenVpn : String → Option Credentials
  truncate : String → Option Int
  installCa : String → Option String

/-- A file `wireguard/<uuid>.conf`. -/
structure WireGuardFile where
  uuid : Uuid
  text : String
  deriving DecidableEq, Repr

/-- The directory and the preferences of WireGuardStore.kt. -/
structure WireGuardStore where
  files : List WireGuardFile
  names : Uuid → Option String
  drawn : Nat

namespace WireGuardStore

/-- The display name of a profile. -/
def name (s : WireGuardStore) (uuid : Uuid) : String :=
  (s.names uuid).getD (String.ofList (uuid.toList.take 8))

/-- `profiles`: a file that does not parse is skipped. -/
def profiles (pf : Platform) (s : WireGuardStore) : List Profile :=
  (s.files.filter fun f => pf.parseWireGuard f.text).map fun f => ⟨f.uuid, s.name f.uuid, .wireguard, false⟩

/-- A new file with its name. -/
def addFile (s : WireGuardStore) (f : WireGuardFile) (name : String) : WireGuardStore where
  files := s.files ++ [f]
  names := setPref s.names f.uuid (some name)
  drawn := s.drawn + 1

/-- `import`. -/
def importText (pf : Platform) (s : WireGuardStore) (text preferredName : String) :
    Option (WireGuardStore × Profile) :=
  if !pf.parseWireGuard text then none else
  let uuid := pf.newUuid .wireguard s.drawn
  let name := uniqueAgainst (ifBlank preferredName "wireguard") ((s.profiles pf).map (·.name))
  some (s.addFile ⟨uuid, text⟩ name, ⟨uuid, name, .wireguard, false⟩)

/-- `rename`; a blank name is ignored. -/
def rename (s : WireGuardStore) (uuid : Uuid) (newName : String) : WireGuardStore :=
  if isBlank newName then s else { s with names := setPref s.names uuid (some newName) }

end WireGuardStore

/-- An OpenVPN profile: `mName`, `mUsername`, `mPassword`, and the text `openvpn_src/<uuid>.ovpn` it
    was imported from, if that was kept. -/
structure OpenVpnProfile where
  uuid : Uuid
  mName : String
  credentials : Credentials
  source : Option String
  deriving DecidableEq, Repr

/-- `getName`. -/
def OpenVpnProfile.name (p : OpenVpnProfile) : String :=
  if p.mName.isEmpty then "No profile name" else p.mName

/-- `ProfileManager`: its profiles, under their uuids. -/
structure ProfileManager where
  profiles : List OpenVpnProfile
  drawn : Nat

namespace ProfileManager

/-- `get`. -/
def get (pm : ProfileManager) (uuid : Uuid) : Option OpenVpnProfile :=
  pm.profiles.find? (·.uuid == uuid)

/-- The profile under a uuid, changed and saved. -/
def update (pm : ProfileManager) (uuid : Uuid) (change : OpenVpnProfile → OpenVpnProfile) :
    ProfileManager :=
  { pm with profiles := pm.profiles.map fun p => if p.uuid = uuid then change p else p }

/-- The OpenVPN branch of `importConfig`, from the parser to the copy of the source. -/
def importText (pf : Platform) (pm : ProfileManager) (text preferredName : String) :
    Option (ProfileManager × Profile) := do
  let credentials ← pf.parseOpenVpn text
  let uuid := pf.newUuid .openvpn pm.drawn
  let name := uniqueAgainst (ifBlank preferredName "profile") (pm.profiles.map (·.name))
  let profile : OpenVpnProfile := ⟨uuid, name, credentials, some text⟩
  return (⟨pm.profiles ++ [profile], pm.drawn + 1⟩, ⟨uuid, profile.name, .openvpn, false⟩)

end ProfileManager

/-- `Ikev2Profile`. -/
structure Ikev2Profile where
  uuid : Uuid
  name : String
  gateway : String
  port : Int := 500
  vpnType : String := "ikev2-eap"
  username : String := ""
  password : String := ""
  caAlias : String := ""
  userCertAlias : String := ""
  localId : String := ""
  remoteId : String := ""
  mtu : Int := 0
  natKeepalive : Int := 0
  ikeProposal : String := ""
  espProposal : String := ""
  eapType : String := ""
  dnsServers : String := ""
  suppressCertReqs : Bool := false
  disableCrl : Bool := false
  disableOcsp : Bool := false
  strictRevocation : Bool := false
  rsaPss : Bool := false
  ipv6Transport : Bool := false
  deriving DecidableEq, Repr

/-- The identifiers of `VpnType`. -/
def vpnTypes : List String :=
  ["ikev2-eap", "ikev2-cert", "ikev2-cert-eap", "ikev2-eap-tls", "ikev2-byod-eap"]

/-- What `fromVpnProfile` reads back of what `toVpnProfile` writes into the row. -/
def Ikev2Profile.stored (p : Ikev2Profile) : Ikev2Profile :=
  { p with
    vpnType := if p.vpnType ∈ vpnTypes then p.vpnType else "ikev2-eap"
    username := ifBlank p.username ""
    password := ifBlank p.password ""
    caAlias := ifBlank p.caAlias ""
    userCertAlias := ifBlank p.userCertAlias ""
    localId := ifBlank p.localId ""
    remoteId := ifBlank p.remoteId "%any"
    mtu := if 0 < p.mtu then p.mtu else 0
    port := if 0 < p.port then p.port else 500
    natKeepalive := if 0 < p.natKeepalive then p.natKeepalive else 0
    ikeProposal := ifBlank p.ikeProposal ""
    espProposal := ifBlank p.espProposal ""
    eapType := ifBlank p.eapType ""
    dnsServers := ifBlank p.dnsServers "" }

theorem ifBlank_ifBlank (s default : String) :
    ifBlank (ifBlank s default) default = ifBlank s default := by
  unfold ifBlank
  by_cases hs : isBlank s = true
  · rw [if_pos hs]
    split <;> rfl
  · rw [if_neg hs, if_neg hs]

theorem default_idem {α : Type} (valid : α → Prop) [DecidablePred valid] (x default : α) :
    (if valid (if valid x then x else default) then (if valid x then x else default) else default)
      = if valid x then x else default := by
  by_cases h : valid x
  · rw [if_pos h, if_pos h]
  · rw [if_neg h]
    split <;> rfl

/-- A row that was read is written as it is. -/
theorem Ikev2Profile.stored_stored (p : Ikev2Profile) : p.stored.stored = p.stored := by
  simp only [Ikev2Profile.stored, ifBlank_ifBlank]
  congr 1
  · exact default_idem (fun n : Int => 0 < n) p.port 500
  · exact default_idem (fun t : String => t ∈ vpnTypes) p.vpnType "ikev2-eap"
  · exact default_idem (fun n : Int => 0 < n) p.mtu 0
  · exact default_idem (fun n : Int => 0 < n) p.natKeepalive 0

/-- A row of the table, as it is read. -/
structure Ikev2Row where
  profile : Ikev2Profile
  stored_profile : profile.stored = profile

/-- `Ikev2Store`. -/
structure Ikev2Store where
  rows : List Ikev2Row
  drawn : Nat

namespace Ikev2Store

/-- `profile`. -/
def profile (s : Ikev2Store) (uuid : Uuid) : Option Ikev2Profile :=
  (s.rows.find? (·.profile.uuid == uuid)).map (·.profile)

/-- `save`: the row of the uuid is overwritten, or a new one is inserted. -/
def save (s : Ikev2Store) (p : Ikev2Profile) : Ikev2Store :=
  let row : Ikev2Row := ⟨p.stored, p.stored_stored⟩
  if (s.profile p.uuid).isSome then
    { s with rows := s.rows.map fun r => if r.profile.uuid = p.uuid then row else r }
  else { s with rows := s.rows ++ [row] }

end Ikev2Store

/-- `XrayStore.profiles`. -/
def XrayStore.profiles (doubles : Doubles) (s : XrayStore) : List Profile :=
  (s.files.filter fun f =>
    XrayConfig.isCustomJson f.text || (XrayShareLink.parse doubles f.text).isSome).map
    fun f => ⟨f.uuid, s.name f.uuid, .xray, false⟩

/-- The stores, and ProfileStore.kt: the favourites and the profile of the tile. -/
structure AppState where
  openVpn : ProfileManager
  wireGuard : WireGuardStore
  xray : XrayStore
  ikev2 : Ikev2Store
  favourites : List Uuid
  tile : Option (Uuid × String)
  lastBatchImport : Nat

namespace AppState

/-- `VpnEngine.profiles`. -/
def profiles (pf : Platform) (s : AppState) : List Profile :=
  (s.openVpn.profiles.map fun p => ⟨p.uuid, p.name, .openvpn, false⟩) ++ s.wireGuard.profiles pf ++
    s.xray.profiles pf.doubles ++
    s.ikev2.rows.map fun r => ⟨r.profile.uuid, r.profile.name, .ikev2, false⟩

end AppState

/-! ## 2. Looking at the content -/

namespace WireGuardStore

/-- The first `n` UTF-16 units. Of a pair that is cut the first half is kept, which no pattern
    matches. -/
def takeUnits (n : Nat) : List Char → List Char
  | [] => []
  | c :: cs =>
    if n = 0 then []
    else if (Text.unitsOf c).length ≤ n then c :: takeUnits (n - (Text.unitsOf c).length) cs
    else ['\uFFFD']

/-- The texts behind the starts of the lines. -/
def lineStarts : List Char → List (List Char)
  | [] => []
  | c :: cs =>
    if isLineEnd c && !(c == '\r' && cs.head? == some '\n') then cs :: lineStarts cs else lineStarts cs

/-- What stands behind blanks and the text `lit`, case ignored. -/
def afterLiteral (lit : String) (cs : List Char) : Option (List Char) :=
  let rest := cs.dropWhile isRegexSpace
  if Text.startsWithIgnoreCase rest lit.toList then some (rest.drop lit.toList.length) else none

/-- A line that is a section header: `^\s*\[Interface]\s*$` and `^\s*\[Peer]\s*$`. -/
def hasSection (header : String) (cs : List Char) : Bool :=
  (cs :: lineStarts cs).any fun line =>
    (afterLiteral header line).any fun rest => (rest.takeWhile (!isLineEnd ·)).all isRegexSpace

/-- A line that sets the private key: `^\s*PrivateKey\s*=`. -/
def hasPrivateKey (cs : List Char) : Bool :=
  (cs :: lineStarts cs).any fun line =>
    (afterLiteral "PrivateKey" line).any fun rest => (rest.dropWhile isRegexSpace).head? == some '='

/-- `looksLikeWireGuard`. -/
def looksLikeWireGuard (text : String) : Bool :=
  let head := takeUnits 4000 text.toList
  hasSection "[Interface]" head && (hasPrivateKey head || hasSection "[Peer]" head)

end WireGuardStore

/-! ## 3. The import of one text -/

/-- The texts shown for a failed import. -/
inductive ImportError where
  | importFailed
  | importZipEmpty
  deriving DecidableEq, Repr

/-- What `importConfig` leaves, returns and reports. -/
structure ImportOutcome where
  state : AppState
  profile : Option Profile
  error : Option ImportError

/-- The profile of an importer, or the error. -/
def ImportOutcome.of (s : AppState) : Option (AppState × Profile) → ImportOutcome
  | some (s', profile) => ⟨s', some profile, none⟩
  | none => ⟨s, none, some .importFailed⟩

namespace VpnEngine

/-- A share link as a profile. -/
def importLink (pf : Platform) (s : AppState) (text preferredName : String) :
    Option (AppState × Profile) :=
  (s.xray.importLink (pf.newUuid .xray) pf.doubles text preferredName none none).map fun r =>
    ({ s with xray := r.1 }, ⟨pf.newUuid .xray s.xray.drawn, r.2, .xray, false⟩)

/-- A custom config as a profile. -/
def importCustomJson (pf : Platform) (s : AppState) (text preferredName : String) :
    Option (AppState × Profile) :=
  (s.xray.importCustomJson (pf.newUuid .xray) pf.doubles text preferredName none).map fun r =>
    ({ s with xray := r.1 }, ⟨pf.newUuid .xray s.xray.drawn, r.2, .xray, false⟩)

/-- A wg-quick text as a profile. -/
def importWireGuard (pf : Platform) (s : AppState) (text preferredName : String) :
    Option (AppState × Profile) :=
  (s.wireGuard.importText pf text preferredName).map fun r => ({ s with wireGuard := r.1 }, r.2)

/-- An OpenVPN text as a profile. -/
def importOpenVpn (pf : Platform) (s : AppState) (text preferredName : String) :
    Option (AppState × Profile) :=
  (s.openVpn.importText pf text preferredName).map fun r => ({ s with openVpn := r.1 }, r.2)

/-- `importConfig`. The look at the sections only decides which of the two parsers is tried first. -/
def importConfig (pf : Platform) (s : AppState) (configText preferredName : String) : ImportOutcome :=
  let pasted := XrayShareLink.extractLinks configText
  if 1 < pasted.length then
    let batch := s.xray.importMany (pf.newUuid .xray) pf.doubles (XrayShareLink.plain pasted) none
    ⟨{ s with xray := batch.1, lastBatchImport := batch.2 }, none,
      if batch.2 = 0 then some .importFailed else none⟩
  else
  let s := { s with lastBatchImport := 0 }
  if XrayShareLink.looksLikeShareLink configText then .of s (importLink pf s configText preferredName)
  else if XrayConfig.isCustomJson configText then
    .of s (importCustomJson pf s configText preferredName)
  else if WireGuardStore.looksLikeWireGuard configText then
    .of s (importWireGuard pf s configText preferredName <|> importOpenVpn pf s configText preferredName)
  else
    .of s (importOpenVpn pf s configText preferredName <|> importWireGuard pf s configText preferredName)

end VpnEngine

/-! ## 4. What an import adds -/

/-- `n` uuids, drawn from the number `k` on. -/
def drawnFrom (newUuid : Nat → Uuid) (k n : Nat) : List Uuid := (List.range' k n).map newUuid

theorem drawnFrom_append (newUuid : Nat → Uuid) (k m n : Nat) :
    drawnFrom newUuid k m ++ drawnFrom newUuid (k + m) n = drawnFrom newUuid k (m + n) := by
  unfold drawnFrom
  rw [← List.map_append, List.range'_append_1]

/-- The manager `pm'` is `pm` with the profiles `new`. -/
structure ProfileManager.Extended (newUuid : Nat → Uuid) (pm pm' : ProfileManager)
    (new : List OpenVpnProfile) : Prop where
  profiles : pm'.profiles = pm.profiles ++ new
  uuids : new.map (·.uuid) = drawnFrom newUuid pm.drawn new.length
  drawn : pm'.drawn = pm.drawn + new.length

/-- The store `s'` is `s` with the files `new`, all of which parse. -/
structure WireGuardStore.Extended (pf : Platform) (s s' : WireGuardStore) (new : List WireGuardFile) :
    Prop where
  files : s'.files = s.files ++ new
  uuids : new.map (·.uuid) = drawnFrom (pf.newUuid .wireguard) s.drawn new.length
  drawn : s'.drawn = s.drawn + new.length
  names : ∀ u ∉ new.map (·.uuid), s'.names u = s.names u
  parsed : ∀ f ∈ new, pf.parseWireGuard f.text = true

/-- The store `s'` is `s` with the files `new`, all of which are links that parse or custom configs. -/
structure XrayStore.Extended (pf : Platform) (s s' : XrayStore) (new : List XrayFile) : Prop where
  files : s'.files = s.files ++ new
  uuids : new.map (·.uuid) = drawnFrom (pf.newUuid .xray) s.drawn new.length
  drawn : s'.drawn = s.drawn + new.length
  names : ∀ u ∉ new.map (·.uuid), s'.names u = s.names u
  parsed : ∀ f ∈ new,
    (XrayConfig.isCustomJson f.text || (XrayShareLink.parse pf.doubles f.text).isSome) = true

/-- The store `s'` is `s` with the rows `new`. -/
structure Ikev2Store.Extended (newUuid : Nat → Uuid) (s s' : Ikev2Store) (new : List Ikev2Row) :
    Prop where
  rows : s'.rows = s.rows ++ new
  uuids : new.map (·.profile.uuid) = drawnFrom newUuid s.drawn new.length
  drawn : s'.drawn = s.drawn + new.length

section Extended

variable {pf : Platform}

theorem ProfileManager.Extended.refl (newUuid : Nat → Uuid) (pm : ProfileManager) :
    ProfileManager.Extended newUuid pm pm [] := ⟨by simp, rfl, rfl⟩

theorem ProfileManager.Extended.trans {newUuid : Nat → Uuid} {a b c : ProfileManager}
    {new new' : List OpenVpnProfile} (h : ProfileManager.Extended newUuid a b new)
    (h' : ProfileManager.Extended newUuid b c new') :
    ProfileManager.Extended newUuid a c (new ++ new') where
  profiles := by rw [h'.profiles, h.profiles, List.append_assoc]
  uuids := by rw [List.map_append, h.uuids, h'.uuids, h.drawn, drawnFrom_append, List.length_append]
  drawn := by rw [h'.drawn, h.drawn, List.length_append, Nat.add_assoc]

theorem WireGuardStore.Extended.refl (s : WireGuardStore) : WireGuardStore.Extended pf s s [] :=
  ⟨by simp, rfl, rfl, fun _ _ => rfl, nofun⟩

theorem WireGuardStore.Extended.trans {a b c : WireGuardStore} {new new' : List WireGuardFile}
    (h : WireGuardStore.Extended pf a b new) (h' : WireGuardStore.Extended pf b c new') :
    WireGuardStore.Extended pf a c (new ++ new') where
  files := by rw [h'.files, h.files, List.append_assoc]
  uuids := by rw [List.map_append, h.uuids, h'.uuids, h.drawn, drawnFrom_append, List.length_append]
  drawn := by rw [h'.drawn, h.drawn, List.length_append, Nat.add_assoc]
  names u hu := by
    rw [List.map_append, List.mem_append, not_or] at hu
    rw [h'.names u hu.2, h.names u hu.1]
  parsed f hf := (List.mem_append.1 hf).elim (h.parsed f) (h'.parsed f)

theorem XrayStore.Extended.refl (s : XrayStore) : XrayStore.Extended pf s s [] :=
  ⟨by simp, rfl, rfl, fun _ _ => rfl, nofun⟩

theorem XrayStore.Extended.trans {a b c : XrayStore} {new new' : List XrayFile}
    (h : XrayStore.Extended pf a b new) (h' : XrayStore.Extended pf b c new') :
    XrayStore.Extended pf a c (new ++ new') where
  files := by rw [h'.files, h.files, List.append_assoc]
  uuids := by rw [List.map_append, h.uuids, h'.uuids, h.drawn, drawnFrom_append, List.length_append]
  drawn := by rw [h'.drawn, h.drawn, List.length_append, Nat.add_assoc]
  names u hu := by
    rw [List.map_append, List.mem_append, not_or] at hu
    rw [h'.names u hu.2, h.names u hu.1]
  parsed f hf := (List.mem_append.1 hf).elim (h.parsed f) (h'.parsed f)

theorem Ikev2Store.Extended.refl (newUuid : Nat → Uuid) (s : Ikev2Store) :
    Ikev2Store.Extended newUuid s s [] := ⟨by simp, rfl, rfl⟩

theorem Ikev2Store.Extended.trans {newUuid : Nat → Uuid} {a b c : Ikev2Store} {new new' : List Ikev2Row}
    (h : Ikev2Store.Extended newUuid a b new) (h' : Ikev2Store.Extended newUuid b c new') :
    Ikev2Store.Extended newUuid a c (new ++ new') where
  rows := by rw [h'.rows, h.rows, List.append_assoc]
  uuids := by rw [List.map_append, h.uuids, h'.uuids, h.drawn, drawnFrom_append, List.length_append]
  drawn := by rw [h'.drawn, h.drawn, List.length_append, Nat.add_assoc]

end Extended

/-- The profiles that came with imports. -/
structure NewProfiles where
  openVpn : List OpenVpnProfile := []
  wireGuard : List WireGuardFile := []
  xray : List XrayFile := []
  ikev2 : List Ikev2Row := []

namespace NewProfiles

/-- How many there are. -/
def size (new : NewProfiles) : Nat :=
  new.openVpn.length + new.wireGuard.length + new.xray.length + new.ikev2.length

/-- Those of two imports. -/
def append (a b : NewProfiles) : NewProfiles :=
  ⟨a.openVpn ++ b.openVpn, a.wireGuard ++ b.wireGuard, a.xray ++ b.xray, a.ikev2 ++ b.ikev2⟩

theorem size_append (a b : NewProfiles) : (a.append b).size = a.size + b.size := by
  simp only [append, size, List.length_append]
  omega

end NewProfiles

/-- **What an import may do**: the stores grow, favourites and tile stay. -/
structure Grown (pf : Platform) (s s' : AppState) (new : NewProfiles) : Prop where
  openVpn : ProfileManager.Extended (pf.newUuid .openvpn) s.openVpn s'.openVpn new.openVpn
  wireGuard : WireGuardStore.Extended pf s.wireGuard s'.wireGuard new.wireGuard
  xray : XrayStore.Extended pf s.xray s'.xray new.xray
  ikev2 : Ikev2Store.Extended (pf.newUuid .ikev2) s.ikev2 s'.ikev2 new.ikev2
  favourites : s'.favourites = s.favourites
  tile : s'.tile = s.tile

namespace Grown

variable {pf : Platform} {s s' s'' : AppState} {new new' : NewProfiles}

theorem refl (pf : Platform) (s : AppState) : Grown pf s s {} :=
  ⟨.refl _ _, .refl _, .refl _, .refl _ _, rfl, rfl⟩

theorem trans (h : Grown pf s s' new) (h' : Grown pf s' s'' new') :
    Grown pf s s'' (new.append new') :=
  ⟨h.openVpn.trans h'.openVpn, h.wireGuard.trans h'.wireGuard, h.xray.trans h'.xray,
    h.ikev2.trans h'.ikev2, h'.favourites.trans h.favourites, h'.tile.trans h.tile⟩

theorem ofXray {xray : XrayStore} {files : List XrayFile}
    (h : XrayStore.Extended pf s.xray xray files) (n : Nat) :
    Grown pf s { s with xray := xray, lastBatchImport := n } { xray := files } :=
  ⟨.refl _ _, .refl _, h, .refl _ _, rfl, rfl⟩

theorem ofWireGuard {wireGuard : WireGuardStore} {files : List WireGuardFile}
    (h : WireGuardStore.Extended pf s.wireGuard wireGuard files) :
    Grown pf s { s with wireGuard := wireGuard } { wireGuard := files } :=
  ⟨.refl _ _, h, .refl _, .refl _ _, rfl, rfl⟩

theorem ofOpenVpn {openVpn : ProfileManager} {profiles : List OpenVpnProfile}
    (h : ProfileManager.Extended (pf.newUuid .openvpn) s.openVpn openVpn profiles) :
    Grown pf s { s with openVpn := openVpn } { openVpn := profiles } :=
  ⟨h, .refl _, .refl _, .refl _ _, rfl, rfl⟩

/-- Every new profile is in the list. -/
theorem length_profiles (h : Grown pf s s' new) :
    (s'.profiles pf).length = (s.profiles pf).length + new.size := by
  have hw : (new.wireGuard.filter fun f => pf.parseWireGuard f.text) = new.wireGuard :=
    List.filter_eq_self.2 h.wireGuard.parsed
  have hx : (new.xray.filter fun f =>
      XrayConfig.isCustomJson f.text || (XrayShareLink.parse pf.doubles f.text).isSome) = new.xray :=
    List.filter_eq_self.2 h.xray.parsed
  unfold AppState.profiles WireGuardStore.profiles XrayStore.profiles NewProfiles.size
  rw [h.openVpn.profiles, h.wireGuard.files, h.xray.files, h.ikev2.rows]
  simp only [List.length_append, List.length_map, List.filter_append, hw, hx]
  omega

end Grown

section Add

variable {pf : Platform} {s : AppState}

/-- A new file with a name. -/
theorem addFile_extended (s : XrayStore) (json : Bool) (text name : String)
    (h : (XrayConfig.isCustomJson text || (XrayShareLink.parse pf.doubles text).isSome) = true) :
    XrayStore.Extended pf s (s.addFile ⟨pf.newUuid .xray s.drawn, json, text⟩ name none)
      [⟨pf.newUuid .xray s.drawn, json, text⟩] where
  files := rfl
  uuids := rfl
  drawn := rfl
  names u hu := by
    rw [List.map_singleton, List.mem_singleton] at hu
    exact if_neg hu
  parsed f hf := by
    rw [List.mem_singleton] at hf
    rw [hf]
    exact h

theorem addText_extended (s : WireGuardStore) {text : String} (name : String)
    (h : pf.parseWireGuard text = true) :
    WireGuardStore.Extended pf s (s.addFile ⟨pf.newUuid .wireguard s.drawn, text⟩ name)
      [⟨pf.newUuid .wireguard s.drawn, text⟩] where
  files := rfl
  uuids := rfl
  drawn := rfl
  names u hu := by
    rw [List.map_singleton, List.mem_singleton] at hu
    exact if_neg hu
  parsed f hf := by
    rw [List.mem_singleton] at hf
    rw [hf]
    exact h

theorem importable_eq (pf : Platform) :
    XrayStore.importable pf.doubles = fun l => (XrayShareLink.parse pf.doubles l).isSome := by
  funext l
  unfold XrayStore.importable
  rw [XrayShareLink.parse_trim]

theorem addsFiles_extended (pf : Platform) :
    XrayStore.AddsFiles (pf.newUuid .xray) pf.doubles none (XrayStore.Extended pf) where
  refl := .refl
  trans := .trans
  add s link name h := by
    have hparsed : (XrayShareLink.parse pf.doubles (trim link)).isSome = true := h
    exact addFile_extended s false (trim link) name (by rw [hparsed, Bool.or_true])

/-- An importer that gives one profile where `accepted`, and else nothing. -/
def Gives (pf : Platform) (s : AppState) (accepted : Bool) (result : Option (AppState × Profile)) : Prop :=
  (accepted = false ∧ result = none) ∨
    (accepted = true ∧ ∃ s' p new, result = some (s', p) ∧ Grown pf s s' new ∧ new.size = 1)

theorem Gives.orElse {a b : Bool} {r r' : Option (AppState × Profile)} (h : Gives pf s a r)
    (h' : Gives pf s b r') : Gives pf s (a || b) (r <|> r') := by
  rcases h with ⟨rfl, rfl⟩ | ⟨rfl, s', p, new, rfl, hgrown⟩
  · exact h'
  · exact .inr ⟨rfl, s', p, new, rfl, hgrown⟩

/-- A share link is accepted where it parses. -/
theorem importLink_gives (s : AppState) (text name : String) :
    Gives pf s (XrayShareLink.parse pf.doubles text).isSome (VpnEngine.importLink pf s text name) := by
  unfold VpnEngine.importLink
  cases hp : XrayShareLink.parse pf.doubles (trim text) with
  | none =>
    rw [XrayStore.importLink_of_none hp, ← XrayShareLink.parse_trim, hp]
    exact .inl ⟨rfl, rfl⟩
  | some o =>
    obtain ⟨n, hn⟩ := XrayStore.importLink_of_some hp (pf.newUuid .xray) s.xray name none none
    rw [hn, ← XrayShareLink.parse_trim, hp]
    have hparsed : (XrayConfig.isCustomJson (trim text) ||
        (XrayShareLink.parse pf.doubles (trim text)).isSome) = true := by
      rw [hp, Option.isSome_some, Bool.or_true]
    exact .inr ⟨rfl, _, _, _, rfl, .ofXray (addFile_extended s.xray false (trim text) n hparsed) _, rfl⟩

theorem isCustomJson_trim {text : String} (h : XrayConfig.isCustomJson text = true) :
    XrayConfig.isCustomJson (trim text) = true := by
  have hbrace : isWhitespace '\x7b' = false := by decide
  unfold XrayConfig.isCustomJson at h ⊢
  rw [beq_iff_eq] at h
  obtain ⟨rest, hrest⟩ := List.head?_eq_some_iff.1 h
  obtain ⟨r, hr⟩ := XrayShareLink.trimChars_append (p := ['\x7b']) (by simp) (by simpa using hbrace) rest
  have htrim : trimChars text.toList = '\x7b' :: r := by
    rw [← List.singleton_append, ← hr, List.singleton_append]
    unfold trimChars
    rw [hrest, List.dropWhile_cons_of_neg (by simp [hbrace])]
  rw [trim, String.toList_ofList, htrim, List.dropWhile_cons_of_neg (by simp [hbrace]), List.head?_cons,
    beq_self_eq_true]

/-- A custom config is accepted where it has an outbound. -/
theorem importCustomJson_gives (s : AppState) {text : String}
    (h : XrayConfig.isCustomJson text = true) (name : String) :
    Gives pf s (XrayConfig.isValidCustomJson pf.doubles (trim text))
      (VpnEngine.importCustomJson pf s text name) := by
  unfold VpnEngine.importCustomJson XrayStore.importCustomJson
  cases hv : XrayConfig.isValidCustomJson pf.doubles (trim text) with
  | false => exact .inl ⟨rfl, by simp [hv]⟩
  | true =>
    dsimp only
    rw [hv, Bool.not_true, if_neg Bool.false_ne_true]
    have hcustom : (XrayConfig.isCustomJson (trim text) ||
        (XrayShareLink.parse pf.doubles (trim text)).isSome) = true := by
      rw [isCustomJson_trim h, Bool.true_or]
    exact .inr ⟨rfl, _, _, _, rfl, .ofXray (addFile_extended s.xray true (trim text) _ hcustom) _, rfl⟩

theorem importWireGuard_gives (s : AppState) (text name : String) :
    Gives pf s (pf.parseWireGuard text) (VpnEngine.importWireGuard pf s text name) := by
  unfold VpnEngine.importWireGuard WireGuardStore.importText
  cases hv : pf.parseWireGuard text with
  | false => exact .inl ⟨rfl, by simp⟩
  | true =>
    rw [Bool.not_true, if_neg Bool.false_ne_true]
    exact .inr ⟨rfl, _, _, _, rfl, .ofWireGuard (addText_extended s.wireGuard _ hv), rfl⟩

theorem importOpenVpn_gives (s : AppState) (text name : String) :
    Gives pf s (pf.parseOpenVpn text).isSome (VpnEngine.importOpenVpn pf s text name) := by
  unfold VpnEngine.importOpenVpn ProfileManager.importText
  cases hv : pf.parseOpenVpn text with
  | none => exact .inl ⟨rfl, rfl⟩
  | some c =>
    exact .inr ⟨rfl, _, _, _, rfl, .ofOpenVpn ⟨rfl, rfl, rfl⟩, rfl⟩

end Add

/-! ## 5. One call -/

namespace VpnEngine

open XrayShareLink

variable {pf : Platform}

theorem extractLinks_eq (text : String) : ∃ blob, extractLinks text = linksIn blob := by
  unfold extractLinks
  dsimp only
  split
  · exact ⟨String.ofList [], linksIn_nil.symm⟩
  · split
    · exact ⟨_, rfl⟩
    · split
      · exact ⟨_, rfl⟩
      · exact ⟨String.ofList [], linksIn_nil.symm⟩

/-- The links that were found are the lines of the text they are joined to. -/
theorem importMany_extractLinks (s : XrayStore) (text : String)
    (hne : extractLinks text ≠ []) (sub : Option String) :
    s.importMany (pf.newUuid .xray) pf.doubles (plain (extractLinks text)) sub
      = s.importBatch (pf.newUuid .xray) pf.doubles (extractLinks text) sub := by
  obtain ⟨blob, hblob⟩ := extractLinks_eq text
  rw [hblob] at hne ⊢
  have hline : ∀ l ∈ linksIn blob, ∀ c ∈ l.toList, c ≠ '\n' ∧ c ≠ '\r' := by
    intro l hl c hc
    have hspace := isRegexSpace_of_mem_linksIn hl hc
    constructor
    · rintro rfl
      exact absurd hspace (by decide)
    · rintro rfl
      exact absurd hspace (by decide)
  have hlink : ∀ l ∈ linksIn blob, trim l = l ∧ looksLikeShareLink l = true := by
    intro l hl
    obtain ⟨hword, hlooks⟩ := List.mem_filter.1 hl
    obtain ⟨cs, -, rfl⟩ := List.mem_map.1 hword
    exact ⟨trim_trim _, hlooks⟩
  have htrim : (linksIn blob).map trim = linksIn blob := by
    rw [List.map_congr_left fun l hl => (hlink l hl).1, List.map_id']
  have hkeep : (linksIn blob).filter (fun l => !l.isEmpty && looksLikeShareLink l) = linksIn blob := by
    rw [List.filter_eq_self]
    intro l hl
    have hnonempty : l.isEmpty = false := by
      cases he : l.isEmpty with
      | false => rfl
      | true =>
        have : l = "" := String.isEmpty_iff.1 he
        rw [this] at hl
        exact absurd (hlink "" hl).2 (by decide)
    rw [hnonempty, (hlink l hl).2]
    rfl
  unfold XrayStore.importMany
  rw [lineSequence_plain hne hline, htrim, hkeep]

/-- How many profiles a text gives. -/
def profilesIn (pf : Platform) (text : String) : Nat :=
  if 1 < (extractLinks text).length then
    (extractLinks text).countP fun l => (parse pf.doubles l).isSome
  else if looksLikeShareLink text then (parse pf.doubles text).isSome.toNat
  else if XrayConfig.isCustomJson text then
    (XrayConfig.isValidCustomJson pf.doubles (trim text)).toNat
  else (pf.parseWireGuard text || (pf.parseOpenVpn text).isSome).toNat

theorem outcome_of_gives {s : AppState} {accepted : Bool} {result : Option (AppState × Profile)}
    (h : Gives pf { s with lastBatchImport := 0 } accepted result) :
    ∃ new, Grown pf s (ImportOutcome.of { s with lastBatchImport := 0 } result).state new ∧
      new.size = accepted.toNat ∧
      (ImportOutcome.of { s with lastBatchImport := 0 } result).profile.isSome = accepted := by
  rcases h with ⟨rfl, rfl⟩ | ⟨rfl, s', p, new, rfl, hgrown, hsize⟩
  · exact ⟨{}, .ofXray (.refl s.xray) 0, rfl, rfl⟩
  · exact ⟨new, ⟨hgrown.openVpn, hgrown.wireGuard, hgrown.xray, hgrown.ikev2, hgrown.favourites,
      hgrown.tile⟩, hsize, rfl⟩

/-- **What one call does**: the stores grow by the profiles that the text gives, and one is returned
    unless they came as a batch. -/
theorem importConfig_spec (pf : Platform) (s : AppState) (text name : String) :
    ∃ new, Grown pf s (importConfig pf s text name).state new ∧ new.size = profilesIn pf text ∧
      ((importConfig pf s text name).profile.isSome = true ↔
        (extractLinks text).length ≤ 1 ∧ 0 < profilesIn pf text) := by
  have hbool : ∀ b : Bool, b = true ↔ 0 < b.toNat := by decide
  have single : ∀ {b : Bool} {result : Option (AppState × Profile)},
      Gives pf { s with lastBatchImport := 0 } b result → ¬ 1 < (extractLinks text).length →
      ∃ new, Grown pf s (ImportOutcome.of { s with lastBatchImport := 0 } result).state new ∧
        new.size = b.toNat ∧
        ((ImportOutcome.of { s with lastBatchImport := 0 } result).profile.isSome = true ↔
          (extractLinks text).length ≤ 1 ∧ 0 < b.toNat) := by
    intro b result hgives hlen
    obtain ⟨new, hgrown, hsize, hsome⟩ := outcome_of_gives hgives
    refine ⟨new, hgrown, hsize, ?_⟩
    rw [hsome, hbool, and_iff_right (Nat.le_of_not_lt hlen)]
  unfold importConfig profilesIn
  dsimp only
  split
  · rename_i hmany
    have hne : extractLinks text ≠ [] := by
      intro h
      rw [h] at hmany
      exact absurd hmany (by decide)
    rw [importMany_extractLinks s.xray text hne none]
    obtain ⟨new, hext, -, hlen⟩ :=
      XrayStore.importBatch_adds (addsFiles_extended pf) s.xray (extractLinks text)
    refine ⟨_, .ofXray hext _, ?_, ?_⟩
    · rw [← importable_eq pf, ← hlen]
      simp [NewProfiles.size]
    · constructor
      · exact nofun
      · exact fun h => absurd h.1 (Nat.not_le_of_lt hmany)
  · rename_i hlen
    split
    · exact single (importLink_gives _ text name) hlen
    · split
      · rename_i hjson
        exact single (importCustomJson_gives _ hjson name) hlen
      · split
        · exact single ((importWireGuard_gives _ text name).orElse (importOpenVpn_gives _ text name)) hlen
        · rw [Bool.or_comm]
          exact single ((importOpenVpn_gives _ text name).orElse (importWireGuard_gives _ text name)) hlen

/-- No earlier look takes the text for something that it is not. -/
structure NotDiverted (pf : Platform) (text : String) : Prop where
  batch : 1 < (extractLinks text).length → ∃ l ∈ extractLinks text, (parse pf.doubles l).isSome
  link : (extractLinks text).length ≤ 1 → looksLikeShareLink text = true → (parse pf.doubles text).isSome
  json : (extractLinks text).length ≤ 1 → looksLikeShareLink text = false →
    XrayConfig.isCustomJson text = true → XrayConfig.isValidCustomJson pf.doubles (trim text) = true

/-- **A text that one of the two parsers accepts is stored exactly where it is not diverted.** -/
theorem importConfig_stores_iff (pf : Platform) (s : AppState) (text preferredName : String)
    (haccepted : pf.parseWireGuard text = true ∨ (pf.parseOpenVpn text).isSome = true) :
    (s.profiles pf).length < ((importConfig pf s text preferredName).state.profiles pf).length ↔
      NotDiverted pf text := by
  have hpos : ∀ b : Bool, 0 < b.toNat ↔ b = true := by decide
  have haccepted' : (pf.parseWireGuard text || (pf.parseOpenVpn text).isSome) = true := by
    rw [Bool.or_eq_true]
    exact haccepted
  obtain ⟨new, hgrown, hsize, -⟩ := importConfig_spec pf s text preferredName
  rw [hgrown.length_profiles, hsize, Nat.lt_add_right_iff_pos]
  unfold profilesIn
  by_cases hmany : 1 < (extractLinks text).length
  · rw [if_pos hmany, List.countP_pos_iff]
    have hnot : ¬ (extractLinks text).length ≤ 1 := Nat.not_le_of_lt hmany
    exact ⟨fun h => ⟨fun _ => h, fun hle => absurd hle hnot, fun hle => absurd hle hnot⟩,
      fun h => h.batch hmany⟩
  · rw [if_neg hmany]
    have hle : (extractLinks text).length ≤ 1 := Nat.le_of_not_lt hmany
    cases hlooks : looksLikeShareLink text with
    | true =>
      rw [if_pos rfl, hpos]
      exact ⟨fun h => ⟨fun hm => absurd hm hmany, fun _ _ => h,
        fun _ hf => absurd (hf.symm.trans hlooks) Bool.false_ne_true⟩,
        fun h => h.link hle hlooks⟩
    | false =>
      rw [if_neg Bool.false_ne_true]
      cases hjson : XrayConfig.isCustomJson text with
      | true =>
        rw [if_pos rfl, hpos]
        exact ⟨fun h => ⟨fun hm => absurd hm hmany, fun _ ht => absurd (hlooks.symm.trans ht) Bool.false_ne_true,
          fun _ _ _ => h⟩, fun h => h.json hle hlooks hjson⟩
      | false =>
        rw [if_neg Bool.false_ne_true, hpos]
        exact ⟨fun _ => ⟨fun hm => absurd hm hmany, fun _ ht => absurd (hlooks.symm.trans ht) Bool.false_ne_true,
          fun _ _ ht => absurd (hjson.symm.trans ht) Bool.false_ne_true⟩, fun _ => haccepted'⟩

/-- A wg-quick text with `comment` before its sections. -/
def sampleConf (comment : String) : String :=
  comment ++ "\n[Interface]\nPrivateKey = yAnz5TF+lXXJte14tji3zlMNq+hd2rYUIgJBgB3fBmk=\nAddress = 10.0.0.2/32\n"

/-- The first character of the uuids of a store. -/
def sampleTag : Protocol → Char
  | .openvpn => 'o'
  | .wireguard => 'w'
  | .xray => 'x'
  | .ikev2 => 'i'

/-- A platform whose parser accepts these texts. -/
def samplePlatform : Platform where
  newUuid protocol n := String.ofList (sampleTag protocol :: List.replicate (n + 1) 'u')
  doubles _ := none
  parseWireGuard text := text == sampleConf "# office" || text == sampleConf "# ss://a ss://b"
  parseOpenVpn _ := none
  truncate _ := none
  installCa _ := none

/-- No profile at all. -/
def emptyState : AppState where
  openVpn := ⟨[], 0⟩
  wireGuard := ⟨[], fun _ => none, 0⟩
  xray := ⟨[], fun _ => none, fun _ => none, 0⟩
  ikev2 := ⟨[], 0⟩
  favourites := []
  tile := none
  lastBatchImport := 0

theorem not_mem_sampleConf : ':' ∉ (sampleConf "# office").toList := by
  unfold sampleConf
  rw [← String.ofList_append, String.toList_ofList]
  decide +kernel

theorem isBlank_sampleConf : isBlank (sampleConf "# office") = false := by
  unfold sampleConf
  rw [← String.ofList_append]
  unfold isBlank
  rw [String.toList_ofList]
  decide +kernel

theorem length_sampleConf : (toByteArray (sampleConf "# office")).length = 101 := by
  unfold sampleConf
  rw [← String.ofList_append]
  unfold toByteArray
  rw [String.toList_ofList]
  decide +kernel

theorem extractLinks_sampleConf : extractLinks (sampleConf "# office") = [] := by
  have hdirect : linksIn (trim (sampleConf "# office")) = [] := by
    apply linksIn_of_not_mem
    rw [trim, String.toList_ofList]
    exact fun h => not_mem_sampleConf (mem_of_mem_trimChars h)
  -- the rest of the text is not base64 of anything
  have hbytes : XrayShareLink.decodeBase64 (trim (sampleConf "# office")) = none := by
    unfold sampleConf trim
    rw [← String.ofList_append, String.toList_ofList]
    unfold XrayShareLink.decodeBase64
    rw [String.toList_ofList]
    decide +kernel
  unfold extractLinks
  dsimp only
  rw [hdirect, hbytes]
  exact ite_self []

theorem isCustomJson_sampleConf : XrayConfig.isCustomJson (sampleConf "# office") = false := by
  unfold sampleConf XrayConfig.isCustomJson
  rw [← String.ofList_append, String.toList_ofList]
  decide +kernel

theorem importConfig_stores_sample :
    (emptyState.profiles samplePlatform).length
      < ((importConfig samplePlatform emptyState (sampleConf "# office") "office").state.profiles
          samplePlatform).length := by
  refine (importConfig_stores_iff samplePlatform emptyState _ _ (.inl (by decide +kernel))).2 ⟨?_, ?_, ?_⟩
  · rw [extractLinks_sampleConf]
    exact fun h => absurd h (by decide)
  · rw [looksLikeShareLink_of_not_mem not_mem_sampleConf]
    exact fun _ h => absurd h Bool.false_ne_true
  · rw [isCustomJson_sampleConf]
    exact fun _ _ h => absurd h Bool.false_ne_true

/-- Two words in a comment that look like links: the text is accepted by its parser, and lost. -/
theorem importConfig_loses_config :
    samplePlatform.parseWireGuard (sampleConf "# ss://a ss://b") = true ∧
    (importConfig samplePlatform emptyState (sampleConf "# ss://a ss://b") "office").error
      = some .importFailed ∧
    ¬ (emptyState.profiles samplePlatform).length
      < ((importConfig samplePlatform emptyState (sampleConf "# ss://a ss://b") "office").state.profiles
          samplePlatform).length := by
  have hdirect : linksIn (trim (sampleConf "# ss://a ss://b")) = ["ss://a", "ss://b"] := by
    unfold sampleConf trim
    rw [← String.ofList_append, String.toList_ofList]
    exact (linksIn_ofList _).trans (by decide +kernel)
  have hlinks : extractLinks (sampleConf "# ss://a ss://b") = ["ss://a", "ss://b"] := by
    rw [extractLinks_of_ne_nil (hdirect ▸ List.cons_ne_nil _ _), hdirect]
  refine ⟨by decide +kernel, ?_, ?_⟩
  · simp only [importConfig, hlinks]
    decide +kernel
  · simp only [importConfig, hlinks]
    decide +kernel

end VpnEngine

end SwiftVpn
