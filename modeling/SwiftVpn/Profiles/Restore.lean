/-
  File:      SwiftVpn/Profiles/Restore.lean
  Subject:   ARCHIVES AND THEIR MANIFEST: ZipImport.kt, VpnEngine.importZip, the half of BackupManager.kt
             that reads, and the zip path of MainViewModel.importFromUri.

  * `readConfigs`, `readManifest` -- the entries of an archive, with the caps on their number and size;
  * `importZip` -- every entry through its importer; `importZip_spec`: the stores only grow;
  * `applyManifest` -- names, credentials, favourites and the tile, for every profile in the list;
    `saved_applyManifest` says what it makes of each record, by the record alone;
  * `restore_spares_iff` -- the profiles that were there before keep name, credentials and favourite
    exactly where nothing is restored or no line of the manifest speaks of them.

  An archive is the list of the entries that can be read from it.
-/
import SwiftVpn.Profiles.Saved

namespace SwiftVpn

/-! ## 1. Archives -/

/-- An entry of an archive. -/
structure ZipEntry where
  name : String
  bytes : List UInt8
  deriving DecidableEq, Repr

namespace ZipEntry

/-- A name that ends in `/` is a directory. -/
def isDirectory (e : ZipEntry) : Bool := e.name.toList.getLast? == some '/'

/-- The name with `/` for `\`. -/
def path (e : ZipEntry) : List Char := e.name.toList.map fun c => if c = '\\' then '/' else c

/-- The last part of the path. -/
def base (e : ZipEntry) : List Char := ((Text.cutLast '/' e.path).map (·.2)).getD e.path

end ZipEntry

namespace ZipImport

/-- The caps. -/
def maxEntryBytes : Nat := 512 * 1024

def maxTotalBytes : Nat := 8 * 1024 * 1024

def maxEntries : Nat := 500

/-- A config that was found. -/
structure Entry where
  name : String
  text : String
  isIkev2Backup : Bool := false
  deriving DecidableEq, Repr

/-- `lowercase().endsWith(ext)`. -/
def hasExtension (cs : List Char) (ext : String) : Bool := ext.toList.isSuffixOf (Text.lowercase cs)

/-- The extensions of configs. -/
def extensions : List String := [".conf", ".ovpn", ".link", ".json", ".txt"]

/-- `isConfigName`; a file without an extension is taken too. -/
def isConfigName (base : List Char) : Bool :=
  !(base.all isWhitespace || base.head? == some '.') &&
    (extensions.any (hasExtension base) || !(Text.lowercase base).contains '.')

/-- An IKEv2 entry of our own backups. -/
def isIkev2Backup (e : ZipEntry) : Bool :=
  "ikev2/".toList.isPrefixOf e.path && hasExtension e.base ".json"

/-- The configs among the entries, after `seen` entries and `total` bytes. -/
def readFrom (seen total : Nat) : List ZipEntry → List Entry
  | [] => []
  | e :: es =>
    if maxEntries < seen + 1 then []
    else if e.isDirectory then readFrom (seen + 1) total es
    else if !isIkev2Backup e && !isConfigName e.base then readFrom (seen + 1) total es
    else if maxTotalBytes ≤ total then []
    else if min maxEntryBytes (maxTotalBytes - total) < e.bytes.length then readFrom (seen + 1) total es
    else
      let text := XrayShareLink.utf8String e.bytes
      let rest := readFrom (seen + 1) (total + e.bytes.length) es
      if isBlank text then rest
      else ⟨String.ofList (((Text.cutLast '.' e.base).map (·.1)).getD e.base), text, isIkev2Backup e⟩ :: rest

/-- `readConfigs`. -/
def readConfigs (archive : List ZipEntry) : List Entry := readFrom 0 0 archive

/-- A config that is small enough is read. -/
theorem readFrom_config {seen total : Nat} {e : ZipEntry} (hseen : seen < maxEntries)
    (hdirectory : e.isDirectory = false) (hbackup : isIkev2Backup e = false)
    (hname : isConfigName e.base = true) (htotal : total < maxTotalBytes)
    (hlength : e.bytes.length ≤ min maxEntryBytes (maxTotalBytes - total))
    (hblank : isBlank (XrayShareLink.utf8String e.bytes) = false) (es : List ZipEntry) :
    readFrom seen total (e :: es)
      = ⟨String.ofList (((Text.cutLast '.' e.base).map (·.1)).getD e.base),
          XrayShareLink.utf8String e.bytes, false⟩ ::
          readFrom (seen + 1) (total + e.bytes.length) es := by
  rw [readFrom, if_neg (Nat.not_lt.2 hseen), hdirectory, if_neg Bool.false_ne_true, hbackup, hname,
    if_neg (by decide), if_neg (Nat.not_le.2 htotal), if_neg (Nat.not_lt.2 hlength)]
  dsimp only
  rw [hblank, if_neg Bool.false_ne_true]

end ZipImport

/-- `BackupManager.readManifest`. -/
def readManifest (doubles : Doubles) (archive : List ZipEntry) : Option JsonObject :=
  match archive.find? fun e => e.base == "manifest.json".toList with
  | some e => Json.ofText doubles (XrayShareLink.utf8String e.bytes)
  | none => none

/-! ## 2. Importing an archive -/

namespace VpnEngine

open XrayShareLink ZipImport

/-- The profile of an IKEv2 entry. The alias of the CA certificate is the one it gets when it is
    installed again. -/
def ikev2Profile (pf : Platform) (o : JsonObject) (uuid : Uuid) : Ikev2Profile where
  uuid := uuid
  name := ifBlank (o.optString "name") (o.optString "gateway")
  gateway := o.optString "gateway"
  port := o.optInt pf.truncate "port" 500
  vpnType := o.optString "vpnType" "ikev2-eap"
  username := o.optString "username"
  password := o.optString "password"
  caAlias :=
    if isBlank (o.optString "caCertDerB64") then o.optString "caAlias"
    else (pf.installCa (o.optString "caCertDerB64")).getD (o.optString "caAlias")
  userCertAlias := o.optString "userCertAlias"
  localId := o.optString "localId"
  remoteId := o.optString "remoteId"
  mtu := o.optInt pf.truncate "mtu"
  natKeepalive := o.optInt pf.truncate "natKeepalive"
  ikeProposal := o.optString "ikeProposal"
  espProposal := o.optString "espProposal"
  eapType := o.optString "eapType"
  dnsServers := o.optString "dnsServers"
  suppressCertReqs := o.optBoolean "suppressCertReqs"
  disableCrl := o.optBoolean "disableCrl"
  disableOcsp := o.optBoolean "disableOcsp"
  strictRevocation := o.optBoolean "strictRevocation"
  rsaPss := o.optBoolean "rsaPss"
  ipv6Transport := o.optBoolean "ipv6Transport"

/-- The document of an IKEv2 entry that can be restored. -/
def ikev2Document (pf : Platform) (text : String) : Option JsonObject :=
  match Json.ofText pf.doubles text with
  | some o => if isBlank (o.optString "gateway") then none else some o
  | none => none

/-- `importIkev2Backup`, with whether it restored a profile. -/
def importIkev2Backup (pf : Platform) (s : AppState) (text : String) : AppState × Bool :=
  match ikev2Document pf text with
  | none => (s, false)
  | some o =>
    let saved := s.ikev2.save (ikev2Profile pf o (pf.newUuid .ikev2 s.ikev2.drawn))
    ({ s with ikev2 := { saved with drawn := s.ikev2.drawn + 1 } }, true)

/-- The links among the lines of an entry. -/
def entryLinks (text : String) : List String := ((lineSequence text).map trim).filter looksLikeShareLink

theorem entryLinks_of_noScheme {text : String} (h : ¬ [':', '/'] <:+: text.toList) : entryLinks text = [] := by
  unfold entryLinks
  rw [List.filter_eq_nil_iff]
  intro l hl
  rw [looksLikeShareLink_of_lines h hl]
  exact Bool.false_ne_true

theorem entryLinks_of_not_mem {text : String} (h : ':' ∉ text.toList) : entryLinks text = [] :=
  entryLinks_of_noScheme fun hm => h (hm.subset List.mem_cons_self)

/-- One call of `importConfig`, counted where it returns a profile. -/
def importCounted (pf : Platform) (acc : AppState × Nat) (text preferredName : String) : AppState × Nat :=
  let outcome := importConfig pf acc.1 text preferredName
  (outcome.state, if outcome.profile.isSome then acc.2 + 1 else acc.2)

/-- One entry of `importZip`. -/
def importEntry (pf : Platform) (acc : AppState × Nat) (entry : Entry) : AppState × Nat :=
  if entry.isIkev2Backup then
    let restored := importIkev2Backup pf acc.1 entry.text
    (restored.1, if restored.2 then acc.2 + 1 else acc.2)
  else
    let lines := entryLinks entry.text
    if 1 < lines.length then
      lines.zipIdx.foldl (fun acc link =>
        importCounted pf acc link.1 (entry.name ++ "-" ++ toString (link.2 + 1))) acc
    else importCounted pf acc entry.text entry.name

/-- `importZip`: the state, the number of profiles, and the error that is reported. -/
def importZip (pf : Platform) (s : AppState) (archive : List ZipEntry) :
    AppState × Nat × Option ImportError :=
  let entries := readConfigs archive
  if entries.isEmpty then (s, 0, some .importZipEmpty) else
  let acc := entries.foldl (importEntry pf) (s, 0)
  (acc.1, acc.2, none)

end VpnEngine

/-! ## 3. The manifest -/

namespace BackupManager

/-- The directory of a protocol in a backup. -/
def dirName : Protocol → String
  | .wireguard => "wireguard"
  | .openvpn => "openvpn"
  | .xray => "xray"
  | .ikev2 => "ikev2"

/-- Under which a profile is looked up in the manifest. -/
def key (p : Profile) : String := dirName p.protocol ++ "/" ++ p.name

/-- `optString` of an element. -/
def element : Json → String
  | .hole => ""
  | v => v.text

/-- The names of the favourites. -/
def favNames (manifest : JsonObject) : List String :=
  ((manifest.optArray "favourites").getD []).map element

/-- The name that the manifest has for a profile. -/
def originalName (manifest : JsonObject) (p : Profile) : Option String :=
  match manifest.optObject "names" with
  | some names =>
    let original := names.optString (key p)
    if isBlank original then none else some original
  | none => none

/-- The credentials that the manifest has for a profile. -/
def credentialsFor (manifest : JsonObject) (p : Profile) : Option Credentials :=
  match (manifest.optObject "credentials").bind (·.optObject (key p)) with
  | some c =>
    let restored : Credentials := ⟨c.optString "u", c.optString "p"⟩
    if isBlank restored.username && isBlank restored.password then none else some restored
  | none => none

/-- One profile of `applyManifest`. -/
def applyTo (manifest : JsonObject) (s : AppState) (p : Profile) : AppState :=
  let original := originalName manifest p
  let s : AppState := match original with
    | some name => if name ≠ p.name then s.renameProfile p.uuid name else s
    | none => s
  let effectiveName := original.getD p.name
  let s : AppState := match credentialsFor manifest p with
    | some c => s.setCredentials p.uuid c
    | none => s
  let s : AppState :=
    if effectiveName ∈ favNames manifest ∧ p.uuid ∉ s.favourites then s.toggleFavourite p.uuid else s
  if effectiveName = manifest.optString "tileProfile" then { s with tile := some (p.uuid, p.name) } else s

/-- `applyManifest`. -/
def applyManifest (manifest : JsonObject) (s : AppState) (current : List Profile) : AppState :=
  current.foldl (applyTo manifest) s

end BackupManager

/-- The zip path of `importFromUri`: the manifest is applied to the whole list, once a profile was
    restored. -/
def restore (pf : Platform) (s : AppState) (archive : List ZipEntry) : AppState :=
  let imported := VpnEngine.importZip pf s archive
  if 0 < imported.2.1 then
    match readManifest pf.doubles archive with
    | some manifest => BackupManager.applyManifest manifest imported.1 (imported.1.allProfiles pf)
    | none => imported.1
  else imported.1

/-! ## 4. What the manifest makes of a record -/

namespace BackupManager

open Saved

variable {pf : Platform} {s : AppState} {m : JsonObject}

theorem isBlank_originalName {p : Profile} {name : String} (h : originalName m p = some name) :
    isBlank name = false := by
  unfold originalName at h
  split at h
  · dsimp only at h
    split at h
    · cases h
    · rename_i hblank
      cases h
      exact Bool.eq_false_iff.2 hblank
  · cases h

/-- What the manifest makes of a record, for the profile `p` of the list. -/
def restored (m : JsonObject) (p : Profile) (q : Saved) : Saved :=
  { q with
    name := (originalName m p).getD q.name
    credentials := if q.protocol = .openvpn then (credentialsFor m p).getD q.credentials else q.credentials
    isFavourite := q.isFavourite || decide ((originalName m p).getD p.name ∈ favNames m) }

theorem saved_renamed (hs : s.Distinct) {p : Profile} (hp : p.uuid ∈ s.uuids)
    (hname : ∀ q ∈ s.saved pf, q.uuid = p.uuid → q.name = p.name) :
    (match originalName m p with
      | some name => if name ≠ p.name then s.renameProfile p.uuid name else s
      | none => s : AppState).saved pf
      = updateAt p.uuid (fun q => { q with name := (originalName m p).getD q.name }) (s.saved pf) := by
  cases ho : originalName m p with
  | none => exact (updateAt_id p.uuid _).symm
  | some name =>
    dsimp only [Option.getD_some]
    by_cases hne : name = p.name
    · rw [if_neg (not_not.2 hne)]
      refine (updateAt_id p.uuid (s.saved pf)).symm.trans (updateAt_congr fun q hq hu => ?_)
      rw [hne, ← hname q hq hu]
    · rw [if_pos hne]
      exact AppState.saved_renameProfile hs hp (isBlank_originalName ho)

theorem saved_withCredentials (p : Profile) :
    (match credentialsFor m p with
      | some c => s.setCredentials p.uuid c
      | none => s : AppState).saved pf
      = updateAt p.uuid (fun q => { q with
          credentials := if q.protocol = .openvpn then (credentialsFor m p).getD q.credentials
            else q.credentials }) (s.saved pf) := by
  cases hc : credentialsFor m p with
  | none =>
    refine (updateAt_id p.uuid (s.saved pf)).symm.trans (updateAt_congr fun q _ _ => ?_)
    simp
  | some c =>
    dsimp only
    rw [AppState.saved_setCredentials]
    refine updateAt_congr fun q _ _ => ?_
    by_cases hq : q.protocol = .openvpn
    · simp [hq]
    · simp [hq]

theorem saved_starred (p : Profile) (name : String) :
    (if name ∈ favNames m ∧ p.uuid ∉ s.favourites then s.toggleFavourite p.uuid else s : AppState).saved pf
      = updateAt p.uuid (fun q => { q with isFavourite := q.isFavourite || decide (name ∈ favNames m) })
          (s.saved pf) := by
  by_cases hfav : name ∈ favNames m
  · by_cases hu : p.uuid ∈ s.favourites
    · rw [if_neg fun h => h.2 hu]
      refine (updateAt_id p.uuid (s.saved pf)).symm.trans (updateAt_congr fun q hq hqu => ?_)
      have hstar := AppState.isFavourite_of_mem hq
      rw [hqu, decide_eq_true hu] at hstar
      rw [hstar, Bool.true_or, ← hstar]
    · rw [if_pos ⟨hfav, hu⟩, AppState.saved_toggleFavourite hu]
      refine updateAt_congr fun q _ _ => ?_
      rw [decide_eq_true hfav, Bool.or_true]
  · rw [if_neg fun h => hfav h.1]
    refine (updateAt_id p.uuid (s.saved pf)).symm.trans (updateAt_congr fun q _ _ => ?_)
    rw [decide_eq_false hfav, Bool.or_false]

/-- **One profile of the list**: its record is restored, the others are as they were. -/
theorem saved_applyTo (hs : s.Distinct) {p : Profile} (hp : p.uuid ∈ s.uuids)
    (hname : ∀ q ∈ s.saved pf, q.uuid = p.uuid → q.name = p.name) :
    (applyTo m s p).saved pf = updateAt p.uuid (restored m p) (s.saved pf) := by
  have htile : ∀ (t : AppState) (tile : Option (Uuid × String)) (c : Prop) [Decidable c],
      (if c then { t with tile := tile } else t : AppState).saved pf = t.saved pf := by
    intro t tile c _
    split <;> rfl
  unfold applyTo
  dsimp only
  rw [htile, saved_starred, saved_withCredentials, saved_renamed hs hp hname, updateAt_updateAt,
    updateAt_updateAt]
  · rfl
  · exact fun _ => rfl
  · exact fun _ => rfl

theorem uuids_applyTo (s : AppState) (p : Profile) : (applyTo m s p).uuids = s.uuids := by
  have hrenamed : (match originalName m p with
      | some name => if name ≠ p.name then s.renameProfile p.uuid name else s
      | none => s : AppState).uuids = s.uuids := by
    split
    · split
      · exact AppState.uuids_renameProfile s p.uuid _
      · rfl
    · rfl
  have hcredentials : ∀ t : AppState, (match credentialsFor m p with
      | some c => t.setCredentials p.uuid c
      | none => t : AppState).uuids = t.uuids := by
    intro t
    split
    · exact AppState.uuids_setCredentials t p.uuid _
    · rfl
  have hstar : ∀ (t : AppState) (c : Prop) [Decidable c],
      (if c then t.toggleFavourite p.uuid else t : AppState).uuids = t.uuids := by
    intro t c _
    split <;> rfl
  have htile : ∀ (t : AppState) (tile : Option (Uuid × String)) (c : Prop) [Decidable c],
      (if c then { t with tile := tile } else t : AppState).uuids = t.uuids := by
    intro t tile c _
    split <;> rfl
  unfold applyTo
  dsimp only
  rw [htile, hstar, hcredentials, hrenamed]

/-- The record after the whole list: restored for the profile of its uuid, if that is in the list. -/
def restoredIn (m : JsonObject) (current : List Profile) (q : Saved) : Saved :=
  match current.find? fun p => p.uuid == q.uuid with
  | some p => restored m p q
  | none => q

theorem saved_foldl_applyTo (current : List Profile) (hs : s.Distinct)
    (hnodup : (current.map (·.uuid)).Nodup) (hmem : ∀ p ∈ current, p.uuid ∈ s.uuids)
    (hname : ∀ p ∈ current, ∀ q ∈ s.saved pf, q.uuid = p.uuid → q.name = p.name) :
    (applyManifest m s current).saved pf = (s.saved pf).map (restoredIn m current) := by
  induction current generalizing s with
  | nil => exact (List.map_id' _).symm
  | cons p current ih =>
    rw [List.map_cons, List.nodup_cons] at hnodup
    have hstep := saved_applyTo (m := m) hs (hmem p List.mem_cons_self) (hname p List.mem_cons_self)
    have huuids := uuids_applyTo (m := m) s p
    have hdistinct : (applyTo m s p).Distinct := by
      unfold AppState.Distinct
      rw [huuids]
      exact hs
    have hlater : ∀ p' ∈ current, p'.uuid ≠ p.uuid :=
      fun p' hp' he => hnodup.1 (he ▸ List.mem_map_of_mem hp')
    show (applyManifest m (applyTo m s p) current).saved pf = _
    rw [ih hdistinct hnodup.2 (fun p' hp' => huuids ▸ hmem p' (List.mem_cons_of_mem p hp')) ?_, hstep,
      updateAt, List.map_map]
    · refine List.map_congr_left fun q _ => ?_
      rw [Function.comp_apply]
      unfold restoredIn
      by_cases hq : q.uuid = p.uuid
      · have hnone : current.find? (fun p' => p'.uuid == (restored m p q).uuid) = none := by
          rw [List.find?_eq_none]
          intro p' hp' hbeq
          exact hlater p' hp' ((beq_iff_eq.1 hbeq).trans hq)
        rw [if_pos hq, hnone, List.find?_cons_of_pos (by simp [hq])]
      · rw [if_neg hq, List.find?_cons_of_neg (by simpa using Ne.symm hq)]
    · intro p' hp' q hq hu
      rw [hstep] at hq
      obtain ⟨q₀, hq₀, rfl⟩ := List.mem_map.1 hq
      by_cases hqp : q₀.uuid = p.uuid
      · rw [if_pos hqp] at hu
        exact absurd (hu.symm.trans hqp) (hlater p' hp')
      · rw [if_neg hqp] at hu ⊢
        exact hname p' (List.mem_cons_of_mem p hp') q₀ hq₀ hu

/-- **The manifest, applied to all profiles, restores every record by itself.** -/
theorem saved_applyManifest (hs : s.Distinct) : (applyManifest m s (s.allProfiles pf)).saved pf
    = (s.saved pf).map fun q => restored m q.profile q := by
  have hnodup : ((s.saved pf).map (·.uuid)).Nodup := hs.sublist (AppState.uuids_saved_sublist pf s)
  have hall := AppState.allProfiles_eq pf s
  have huuids : (s.allProfiles pf).map (·.uuid) = (s.saved pf).map (·.uuid) := by
    rw [hall, List.map_map]
    rfl
  rw [saved_foldl_applyTo (s.allProfiles pf) hs (huuids ▸ hnodup)]
  · refine List.map_congr_left fun q hq => ?_
    have hfind := AppState.find?_of_nodup (fun p : Profile => p.uuid) (huuids ▸ hnodup)
      (hall ▸ List.mem_map_of_mem hq : q.profile ∈ s.allProfiles pf)
    unfold restoredIn
    rw [show q.uuid = q.profile.uuid from rfl, hfind]
  · intro p hp
    rw [hall] at hp
    obtain ⟨q, hq, rfl⟩ := List.mem_map.1 hp
    exact (AppState.uuids_saved_sublist pf s).subset (List.mem_map_of_mem hq)
  · intro p hp q hq hu
    rw [hall] at hp
    obtain ⟨q', hq', rfl⟩ := List.mem_map.1 hp
    have hsame : q = q' := List.inj_on_of_nodup_map hnodup hq hq' hu
    rw [hsame]
    rfl

end BackupManager

/-! ## 5. What an archive adds -/

namespace VpnEngine

open XrayShareLink ZipImport

variable {pf : Platform}

/-- A text that `importConfig` returns a profile for. -/
def returnsProfile (pf : Platform) (text : String) : Prop :=
  (extractLinks text).length ≤ 1 ∧ 0 < profilesIn pf text

/-- An entry that counts as restored. -/
def Restores (pf : Platform) (e : Entry) : Prop :=
  if e.isIkev2Backup then (ikev2Document pf e.text).isSome = true
  else if 1 < (entryLinks e.text).length then ∃ l ∈ entryLinks e.text, returnsProfile pf l
  else returnsProfile pf e.text

/-- The texts of an entry that `importConfig` is called with. -/
def handed (e : Entry) : List String :=
  if 1 < (entryLinks e.text).length then entryLinks e.text else [e.text]

/-- How many profiles an entry gives. -/
def stored (pf : Platform) (e : Entry) : Nat :=
  if e.isIkev2Backup then (ikev2Document pf e.text).isSome.toNat
  else ((handed e).map (profilesIn pf)).sum

/-- How many profiles `importConfig` returns for a text: none of a batch. -/
def returned (pf : Platform) (text : String) : Nat :=
  if (extractLinks text).length ≤ 1 then profilesIn pf text else 0

/-- What an entry is counted for. -/
def counted (pf : Platform) (e : Entry) : Nat :=
  if e.isIkev2Backup then (ikev2Document pf e.text).isSome.toNat
  else ((handed e).map (returned pf)).sum

/-- From `acc` to `acc'` the stores grow by `m` profiles and the count by `n`. -/
def Gains (pf : Platform) (m n : Nat) (acc acc' : AppState × Nat) : Prop :=
  (∃ new, Grown pf acc.1 acc'.1 new ∧ new.size = m) ∧ acc'.2 = acc.2 + n

theorem Gains.trans {a b c : AppState × Nat} {m n m' n' : Nat} (h : Gains pf m n a b)
    (h' : Gains pf m' n' b c) : Gains pf (m + m') (n + n') a c := by
  obtain ⟨⟨new, hgrown, hsize⟩, hcount⟩ := h
  obtain ⟨⟨new', hgrown', hsize'⟩, hcount'⟩ := h'
  refine ⟨⟨_, hgrown.trans hgrown', ?_⟩, ?_⟩
  · rw [NewProfiles.size_append, hsize, hsize']
  · rw [hcount', hcount, Nat.add_assoc]

theorem Gains.refl (pf : Platform) (acc : AppState × Nat) : Gains pf 0 0 acc acc :=
  ⟨⟨_, .refl pf acc.1, rfl⟩, rfl⟩

/-- A text that is no batch gives one profile at most. -/
theorem profilesIn_le {text : String} (h : (extractLinks text).length ≤ 1) : profilesIn pf text ≤ 1 := by
  unfold profilesIn
  rw [if_neg (Nat.not_lt.mpr h)]
  split
  · exact Bool.toNat_le _
  · split <;> exact Bool.toNat_le _

theorem returned_eq (text : String) :
    returned pf text = if (extractLinks text).length ≤ 1 ∧ 0 < profilesIn pf text then 1 else 0 := by
  unfold returned
  by_cases hone : (extractLinks text).length ≤ 1
  · have hle : profilesIn pf text ≤ 1 := profilesIn_le hone
    rw [if_pos hone]
    split
    · omega
    · rename_i hnone
      have hzero : ¬ 0 < profilesIn pf text := fun hpos => hnone ⟨hone, hpos⟩
      omega
  · rw [if_neg hone, if_neg fun h => hone h.1]

theorem importCounted_gains (acc : AppState × Nat) (text name : String) :
    Gains pf (profilesIn pf text) (returned pf text) acc (importCounted pf acc text name) := by
  obtain ⟨new, hgrown, hsize, hsome⟩ := importConfig_spec pf acc.1 text name
  have hreturned : returned pf text
      = if (importConfig pf acc.1 text name).profile.isSome = true then 1 else 0 := by
    rw [returned_eq]
    exact if_congr hsome.symm rfl rfl
  rw [hreturned]
  unfold importCounted
  generalize importConfig pf acc.1 text name = outcome at hgrown
  dsimp only
  cases outcome.profile.isSome with
  | true => exact ⟨⟨new, hgrown, hsize⟩, rfl⟩
  | false => exact ⟨⟨new, hgrown, hsize⟩, rfl⟩

theorem foldl_importCounted_gains (links : List (String × Nat)) (name : Nat → String)
    (acc : AppState × Nat) :
    Gains pf (links.map fun l => profilesIn pf l.1).sum (links.map fun l => returned pf l.1).sum acc
      (links.foldl (fun acc link => importCounted pf acc link.1 (name link.2)) acc) := by
  induction links generalizing acc with
  | nil => exact Gains.refl pf acc
  | cons link links ih =>
    rw [List.foldl_cons, List.map_cons, List.map_cons, List.sum_cons, List.sum_cons]
    exact (importCounted_gains acc link.1 (name link.2)).trans (ih _)

/-- A new row, where its uuid is new. -/
theorem importIkev2Backup_gains {s : AppState} (hf : s.Fresh pf) (text : String) :
    (∃ new, Grown pf s (importIkev2Backup pf s text).1 new ∧
      new.size = (ikev2Document pf text).isSome.toNat) ∧
      (importIkev2Backup pf s text).2 = (ikev2Document pf text).isSome := by
  unfold importIkev2Backup
  cases hd : ikev2Document pf text with
  | none => exact ⟨⟨_, .refl pf s, rfl⟩, rfl⟩
  | some o =>
    have hnone : s.ikev2.profile (ikev2Profile pf o (pf.newUuid .ikev2 s.ikev2.drawn)).uuid = none := by
      unfold Ikev2Store.profile
      rw [Option.map_eq_none_iff, List.find?_eq_none]
      intro r hr hbeq
      have huuid : r.profile.uuid = pf.newUuid .ikev2 s.ikev2.drawn := beq_iff_eq.1 hbeq
      refine hf.unused .ikev2 s.ikev2.drawn (Nat.le_refl _) ?_
      simp only [AppState.uuids, List.mem_append]
      exact .inr (huuid ▸ List.mem_map_of_mem hr)
    dsimp only [Ikev2Store.save]
    rw [hnone, Option.isSome_none, if_neg Bool.false_ne_true]
    exact ⟨⟨{ ikev2 := [⟨_, Ikev2Profile.stored_stored _⟩] }, ⟨.refl _ _, .refl _, .refl _,
      ⟨rfl, rfl, rfl⟩, rfl, rfl⟩, rfl⟩, rfl⟩

theorem importEntry_gains (acc : AppState × Nat) (hf : acc.1.Fresh pf) (e : Entry) :
    Gains pf (stored pf e) (counted pf e) acc (importEntry pf acc e) := by
  unfold importEntry stored counted
  cases e.isIkev2Backup with
  | true =>
    obtain ⟨hgrown, hsome⟩ := importIkev2Backup_gains hf e.text
    rw [if_pos rfl, if_pos rfl, if_pos rfl]
    dsimp only
    refine ⟨hgrown, ?_⟩
    rw [hsome]
    cases (ikev2Document pf e.text).isSome <;> rfl
  | false =>
    rw [if_neg Bool.false_ne_true, if_neg Bool.false_ne_true, if_neg Bool.false_ne_true]
    unfold handed
    dsimp only
    split
    · have hindexed : ∀ f : String → Nat,
          (entryLinks e.text).map f = (entryLinks e.text).zipIdx.map fun l => f l.1 := by
        intro f
        conv_lhs => rw [← List.zipIdx_map_fst 0 (entryLinks e.text), List.map_map]
        rfl
      rw [hindexed, hindexed]
      exact foldl_importCounted_gains (entryLinks e.text).zipIdx
        (fun i => e.name ++ "-" ++ toString (i + 1)) acc
    · rw [List.map_singleton, List.map_singleton, List.sum_singleton, List.sum_singleton]
      exact importCounted_gains acc e.text e.name

theorem foldl_importEntry_gains (entries : List Entry) (acc : AppState × Nat) (hf : acc.1.Fresh pf) :
    Gains pf (entries.map (stored pf)).sum (entries.map (counted pf)).sum acc
      (entries.foldl (importEntry pf) acc) := by
  induction entries generalizing acc with
  | nil => exact Gains.refl pf acc
  | cons e entries ih =>
    have hstep := importEntry_gains acc hf e
    obtain ⟨new, hgrown, -⟩ := hstep.1
    rw [List.foldl_cons, List.map_cons, List.map_cons, List.sum_cons, List.sum_cons]
    exact hstep.trans (ih _ (hgrown.fresh hf))

/-- **What an archive adds and what is counted of it**, entry by entry. -/
theorem importZip_gains {s : AppState} (hf : s.Fresh pf) (archive : List ZipEntry) :
    (∃ new, Grown pf s (importZip pf s archive).1 new ∧
      new.size = ((readConfigs archive).map (stored pf)).sum) ∧
      (importZip pf s archive).2.1 = ((readConfigs archive).map (counted pf)).sum := by
  obtain ⟨hgrown, hcount⟩ := foldl_importEntry_gains (readConfigs archive) (s, 0) hf
  rw [Nat.zero_add] at hcount
  unfold importZip
  dsimp only
  cases he : readConfigs archive with
  | nil => exact ⟨⟨_, .refl pf s, rfl⟩, rfl⟩
  | cons e es =>
    rw [he] at hgrown hcount
    rw [List.isEmpty_cons, if_neg Bool.false_ne_true]
    exact ⟨hgrown, hcount⟩

theorem returned_pos (text : String) : 0 < returned pf text ↔ returnsProfile pf text := by
  rw [returned_eq]
  unfold returnsProfile
  split
  · exact iff_of_true Nat.one_pos ‹_›
  · exact iff_of_false (Nat.lt_irrefl 0) ‹_›

/-- An entry is counted where it restores a profile. -/
theorem counted_pos (e : Entry) : 0 < counted pf e ↔ Restores pf e := by
  unfold counted Restores handed
  split
  · cases (ikev2Document pf e.text).isSome with
    | true => exact iff_of_true Nat.one_pos rfl
    | false => exact iff_of_false (Nat.lt_irrefl 0) Bool.false_ne_true
  · split
    · simp only [List.sum_pos_iff_exists_pos_nat, List.mem_map, exists_exists_and_eq_and, returned_pos]
    · rw [List.map_singleton, List.sum_singleton, returned_pos]

/-- **An archive only adds profiles**, and counts one where an entry restores one. -/
theorem importZip_spec {s : AppState} (hf : s.Fresh pf) (archive : List ZipEntry) :
    (∃ new, Grown pf s (importZip pf s archive).1 new) ∧
      (0 < (importZip pf s archive).2.1 ↔ ∃ e ∈ readConfigs archive, Restores pf e) := by
  obtain ⟨⟨new, hgrown, -⟩, hcount⟩ := importZip_gains hf archive
  refine ⟨⟨new, hgrown⟩, ?_⟩
  rw [hcount]
  simp only [List.sum_pos_iff_exists_pos_nat, List.mem_map, exists_exists_and_eq_and, counted_pos]

end VpnEngine

/-! ## 6. What was there before -/

namespace BackupManager

/-- What the manifest says of a record is what it already has. -/
structure Spares (m : JsonObject) (q : Saved) : Prop where
  name : ∀ name, originalName m q.profile = some name → name = q.name
  credentials : q.protocol = .openvpn → ∀ c, credentialsFor m q.profile = some c → c = q.credentials
  favourite : q.name ∈ favNames m → q.isFavourite = true

/-- Two records agree in name, credentials and star. -/
def Agrees (q q' : Saved) : Prop :=
  q'.uuid = q.uuid ∧ q'.name = q.name ∧ q'.credentials = q.credentials ∧ q'.isFavourite = q.isFavourite

instance (q q' : Saved) : Decidable (Agrees q q') := inferInstanceAs (Decidable (_ ∧ _ ∧ _ ∧ _))

/-- Every profile that was there has the name, the credentials and the star it had. -/
def Unchanged (pf : Platform) (s s' : AppState) : Prop :=
  ∀ q ∈ s.saved pf, ∃ q' ∈ s'.saved pf, Agrees q q'

theorem getD_eq_iff {α : Type} {o : Option α} {a : α} : o.getD a = a ↔ ∀ b, o = some b → b = a := by
  cases o with
  | none => simp
  | some b => simp

theorem agrees_restored_iff (m : JsonObject) (q : Saved) :
    Agrees q (restored m q.profile q) ↔ Spares m q := by
  unfold Agrees restored
  dsimp only
  constructor
  · rintro ⟨-, hname, hcredentials, hfavourite⟩
    refine ⟨getD_eq_iff.1 hname, fun hp => ?_, fun hm => ?_⟩
    · rw [if_pos hp] at hcredentials
      exact getD_eq_iff.1 hcredentials
    · have heffective : (originalName m q.profile).getD q.profile.name = q.name := hname
      rw [heffective, decide_eq_true hm, Bool.or_true] at hfavourite
      exact hfavourite.symm
  · rintro ⟨hname, hcredentials, hfavourite⟩
    have heffective : (originalName m q.profile).getD q.profile.name = q.name := getD_eq_iff.2 hname
    refine ⟨rfl, getD_eq_iff.2 hname, ?_, ?_⟩
    · by_cases hp : q.protocol = .openvpn
      · rw [if_pos hp]
        exact getD_eq_iff.2 (hcredentials hp)
      · rw [if_neg hp]
    · rw [heffective]
      by_cases hm : q.name ∈ favNames m
      · rw [hfavourite hm, Bool.true_or]
      · rw [decide_eq_false hm, Bool.or_false]

variable {pf : Platform} {s : AppState}

/-- The manifest, applied after an import: the record of each uuid is the restored one. -/
theorem unchanged_applyManifest_iff {s₁ : AppState} {new : NewProfiles} (hgrown : Grown pf s s₁ new)
    (hf : s.Fresh pf) (hs : s.Distinct) (m : JsonObject) :
    Unchanged pf s (applyManifest m s₁ (s₁.allProfiles pf)) ↔ ∀ q ∈ s.saved pf, Spares m q := by
  have hdistinct := hgrown.distinct hf hs
  have hnodup : ((s₁.saved pf).map (·.uuid)).Nodup :=
    List.Nodup.sublist (AppState.uuids_saved_sublist pf s₁) hdistinct
  unfold Unchanged
  rw [saved_applyManifest hdistinct]
  constructor
  · intro h q hq
    obtain ⟨q', hq', hagrees⟩ := h q hq
    obtain ⟨q₁, hq₁, rfl⟩ := List.mem_map.1 hq'
    have hsame : q₁ = q := List.inj_on_of_nodup_map hnodup hq₁ (hgrown.mem_saved hf hq) hagrees.1
    rw [hsame] at hagrees
    exact (agrees_restored_iff m q).1 hagrees
  · intro h q hq
    exact ⟨restored m q.profile q, List.mem_map.2 ⟨q, hgrown.mem_saved hf hq, rfl⟩,
      (agrees_restored_iff m q).2 (h q hq)⟩

/-- **A restore leaves the profiles that were there alone exactly where nothing is restored, there is
    no manifest, or what it says of each of them is what they already have.** -/
theorem restore_spares_iff (hf : s.Fresh pf) (hs : s.Distinct) (archive : List ZipEntry) :
    Unchanged pf s (restore pf s archive) ↔
      ((∃ e ∈ ZipImport.readConfigs archive, VpnEngine.Restores pf e) →
        ∀ m, readManifest pf.doubles archive = some m → ∀ q ∈ s.saved pf, Spares m q) := by
  obtain ⟨⟨new, hgrown⟩, hcount⟩ := VpnEngine.importZip_spec hf archive
  rw [← hcount]
  unfold restore
  generalize VpnEngine.importZip pf s archive = imported at hgrown
  have hkept : Unchanged pf s imported.1 :=
    fun q hq => ⟨q, hgrown.mem_saved hf hq, rfl, rfl, rfl, rfl⟩
  dsimp only
  by_cases hpos : 0 < imported.2.1
  · rw [if_pos hpos, imp_iff_right hpos]
    cases readManifest pf.doubles archive with
    | none => exact ⟨fun _ m h => (by cases h), fun _ => hkept⟩
    | some m =>
      dsimp only
      rw [unchanged_applyManifest_iff hgrown hf hs m]
      simp only [Option.some.injEq, forall_eq']
  · rw [if_neg hpos]
    exact ⟨fun _ h => absurd h hpos, fun _ => hkept⟩

/-- One WireGuard profile, `home`, without a star. -/
def homeState : AppState :=
  { VpnEngine.emptyState with
    wireGuard :=
      { files := [⟨"wu", VpnEngine.sampleConf "# office"⟩]
        names := fun u => if u = "wu" then some "home" else none
        drawn := 1 } }

/-- A backup of one starred WireGuard profile. -/
def starredBackup (name : String) : List ZipEntry :=
  [⟨"wireguard/" ++ name ++ ".conf", XrayShareLink.toByteArray (VpnEngine.sampleConf "# office")⟩,
    ⟨"manifest.json", XrayShareLink.toByteArray ("\x7b\"favourites\":[\"" ++ name ++ "\"]\x7d")⟩]

theorem samplePlatform_injective (p q : Protocol) (m n : Nat)
    (h : VpnEngine.samplePlatform.newUuid p m = VpnEngine.samplePlatform.newUuid q n) :
    p = q ∧ m = n := by
  have hlist := String.ofList_injective h
  rw [List.cons.injEq] at hlist
  have hlength := congrArg List.length hlist.2
  rw [List.length_replicate, List.length_replicate] at hlength
  refine ⟨?_, Nat.succ.inj hlength⟩
  cases p <;> cases q <;> first | rfl | exact absurd hlist.1 (by decide)

theorem homeState_fresh : homeState.Fresh VpnEngine.samplePlatform := by
  refine ⟨samplePlatform_injective, fun p n hn hm => ?_⟩
  have huuids : homeState.uuids = [VpnEngine.samplePlatform.newUuid .wireguard 0] := rfl
  rw [huuids, List.mem_singleton] at hm
  obtain ⟨rfl, rfl⟩ := samplePlatform_injective p .wireguard n 0 hm
  exact absurd hn (by decide)

theorem homeState_distinct : homeState.Distinct := by
  unfold AppState.Distinct
  decide +kernel

theorem saved_homeState : homeState.saved VpnEngine.samplePlatform
    = [⟨"wu", .wireguard, "home", .text (some (VpnEngine.sampleConf "# office")), {}, false⟩] := by
  rfl

/-- The backup of another profile leaves `home` alone. -/
theorem restore_spares_home : Unchanged VpnEngine.samplePlatform homeState
    (restore VpnEngine.samplePlatform homeState (starredBackup "office")) := by
  refine (restore_spares_iff homeState_fresh homeState_distinct _).2 fun _ m hm q hq => ?_
  have hmanifest : ((readManifest VpnEngine.samplePlatform.doubles (starredBackup "office")).map fun m =>
      (favNames m, originalName m ⟨"wu", "home", .wireguard, false⟩)) = some (["office"], none) := by
    decide +kernel
  rw [hm, Option.map_some, Option.some.injEq, Prod.mk.injEq] at hmanifest
  rw [saved_homeState, List.mem_singleton] at hq
  subst hq
  refine ⟨fun name h => ?_, nofun, fun h => ?_⟩
  · rw [show Saved.profile _ = (⟨"wu", "home", .wireguard, false⟩ : Profile) from rfl, hmanifest.2] at h
    cases h
  · rw [hmanifest.1] at h
    exact absurd h (by decide)

section Starred

open VpnEngine ZipImport XrayShareLink

/-- The manifest of the backup of `home`. -/
def homeManifest : String := "\x7b\"favourites\":[\"home\"]\x7d"

/-- The manifest is a `.json` file, and is tried as a config, too. -/
theorem readConfigs_starredBackup : readConfigs (starredBackup "home")
    = [⟨"home", sampleConf "# office", false⟩, ⟨"manifest", homeManifest, false⟩] := by
  have hmanifest : "\x7b\"favourites\":[\"" ++ "home" ++ "\"]\x7d" = homeManifest := by
    decide +kernel
  unfold readConfigs starredBackup
  rw [hmanifest, readFrom_config (by decide) (by decide +kernel) (by decide +kernel) (by decide +kernel)
      (by decide) (by rw [length_sampleConf]; decide)
      (by rw [utf8String_toByteArray]; exact isBlank_sampleConf),
    length_sampleConf, readFrom_config (by decide) (by decide +kernel) (by decide +kernel)
      (by decide +kernel) (by decide) (by decide +kernel)
      (by rw [utf8String_toByteArray]; decide +kernel),
    utf8String_toByteArray, utf8String_toByteArray]
  rfl

/-- The profile of the archive gets a name of its own. -/
theorem importEntry_home :
    importEntry samplePlatform (homeState, 0) ⟨"home", sampleConf "# office", false⟩
      = ({ homeState with
            wireGuard := homeState.wireGuard.addFile ⟨"wuu", sampleConf "# office"⟩ "home (2)"
            lastBatchImport := 0 }, 1) := by
  have hlooks : WireGuardStore.looksLikeWireGuard (sampleConf "# office") = true := by
    unfold sampleConf
    rw [← String.ofList_append]
    unfold WireGuardStore.looksLikeWireGuard
    rw [String.toList_ofList]
    decide +kernel
  have hread : samplePlatform.parseWireGuard (sampleConf "# office") = true := by decide +kernel
  have hname : uniqueAgainst (ifBlank "home" "wireguard")
      ((homeState.wireGuard.profiles samplePlatform).map (·.name)) = "home (2)" := by decide +kernel
  have hconfig : importConfig samplePlatform homeState (sampleConf "# office") "home"
      = ⟨{ homeState with
            wireGuard := homeState.wireGuard.addFile ⟨"wuu", sampleConf "# office"⟩ "home (2)"
            lastBatchImport := 0 }, some ⟨"wuu", "home (2)", .wireguard, false⟩, none⟩ := by
    simp only [importConfig, extractLinks_sampleConf, looksLikeShareLink_of_not_mem not_mem_sampleConf,
      isCustomJson_sampleConf, hlooks, importWireGuard, WireGuardStore.importText,
      hread, hname]
    rfl
  simp only [importEntry, importCounted, entryLinks_of_not_mem not_mem_sampleConf, hconfig]
  rfl

/-- The manifest gives no profile. -/
theorem importEntry_manifest (s : AppState) (n : Nat) :
    importEntry samplePlatform (s, n) ⟨"manifest", homeManifest, false⟩
      = ({ s with lastBatchImport := 0 }, n) := by
  have hlines : entryLinks homeManifest = [] := by decide +kernel
  have hlinks : extractLinks homeManifest = [] := by decide +kernel
  have hlooks : looksLikeShareLink homeManifest = false := by decide +kernel
  have hjson : XrayConfig.isCustomJson homeManifest = true := by decide +kernel
  have hvalid : XrayConfig.isValidCustomJson samplePlatform.doubles
      (trim homeManifest) = false := by decide +kernel
  simp only [importEntry, importCounted, hlines, importConfig, hlinks, hlooks, hjson, importCustomJson,
    XrayStore.importCustomJson, hvalid]
  rfl

end Starred

/-- The backup of a starred profile of the same name: it is restored as `home (2)`, and the star goes to
    the profile that was there. -/
theorem restore_stars_old_profile :
    (restore VpnEngine.samplePlatform homeState (starredBackup "home")).allProfiles
      VpnEngine.samplePlatform = [⟨"wu", "home", .wireguard, true⟩, ⟨"wuu", "home (2)", .wireguard, false⟩] ∧
    ¬ Unchanged VpnEngine.samplePlatform homeState
      (restore VpnEngine.samplePlatform homeState (starredBackup "home")) := by
  have hall : (restore VpnEngine.samplePlatform homeState (starredBackup "home")).allProfiles
      VpnEngine.samplePlatform
      = [⟨"wu", "home", .wireguard, true⟩, ⟨"wuu", "home (2)", .wireguard, false⟩] := by
    simp only [restore, VpnEngine.importZip, readConfigs_starredBackup, List.isEmpty_cons, List.foldl_cons,
      List.foldl_nil, importEntry_home, importEntry_manifest]
    decide +kernel
  refine ⟨hall, fun hsame => ?_⟩
  obtain ⟨q, hq, huuid, -, -, hstar⟩ := hsame _ (saved_homeState ▸ List.mem_singleton_self _)
  have hrow : q.profile ∈ [⟨"wu", "home", .wireguard, true⟩, ⟨"wuu", "home (2)", .wireguard, false⟩] := by
    rw [← hall, AppState.allProfiles_eq]
    exact List.mem_map_of_mem hq
  rcases List.mem_pair.1 hrow with he | he
  · exact absurd (hstar.symm.trans (congrArg Profile.isFavourite he)) (by decide)
  · exact absurd (huuid.symm.trans (congrArg Profile.uuid he)) (by decide)

end BackupManager

end SwiftVpn
