/-
  File:      SwiftVpn/Profiles/Ikev2Mapping.lean
  Subject:   THE RECORDS OF AN IKEV2 PROFILE: Ikev2Models.kt, what it uses of strongSwan's VpnProfile.java
             and VpnType.java, and the document of a backup, which BackupManager.exportAll writes and
             VpnEngine.importIkev2Backup reads.

  * `toVpnProfile`, `fromVpnProfile` -- between the app's record and strongSwan's, whose fields may be
    null and whose six switches are the bits of one number;
  * `fromVpnProfile_toVpnProfile` -- what comes back is `Ikev2Profile.stored`, the record that the store
    of Profiles/Import.lean keeps;
  * `ikev2Dump` -- the text of a profile in a backup, with the material of its certificates;
  * `importIkev2Backup_ikev2Dump` -- a profile that was stored is stored again, under the new uuid;
  * `ikev2_mapped` -- both together.

  The tunnel settings of `VpnProfile` that the app never sets are left out.
-/
import SwiftVpn.Lib.JsonLayout
import SwiftVpn.Lib.Uuid
import SwiftVpn.Profiles.Restore

namespace SwiftVpn

/-! ## 1. The record of strongSwan -/

/-- `VpnType`. -/
inductive VpnType where
  | ikev2Eap
  | ikev2Cert
  | ikev2CertEap
  | ikev2EapTls
  | ikev2ByodEap
  deriving DecidableEq, Repr

namespace VpnType

/-- `values`. -/
def values : List VpnType := [.ikev2Eap, .ikev2Cert, .ikev2CertEap, .ikev2EapTls, .ikev2ByodEap]

/-- `getIdentifier`. -/
def identifier : VpnType → String
  | .ikev2Eap => "ikev2-eap"
  | .ikev2Cert => "ikev2-cert"
  | .ikev2CertEap => "ikev2-cert-eap"
  | .ikev2EapTls => "ikev2-eap-tls"
  | .ikev2ByodEap => "ikev2-byod-eap"

/-- `fromIdentifier`: an identifier that is not known is taken for EAP. -/
def fromIdentifier (identifier : String) : VpnType :=
  (values.find? fun type => type.identifier == identifier).getD .ikev2Eap

theorem map_identifier_values : values.map identifier = vpnTypes := rfl

theorem identifier_fromIdentifier (s : String) :
    (fromIdentifier s).identifier = if s ∈ vpnTypes then s else "ikev2-eap" := by
  unfold fromIdentifier
  cases hfind : values.find? fun type => type.identifier == s with
  | none =>
    have hnot : s ∉ vpnTypes := by
      rw [← map_identifier_values, List.mem_map]
      rintro ⟨type, htype, hs⟩
      have := List.find?_eq_none.1 hfind type htype
      exact this (beq_iff_eq.2 hs)
    rw [if_neg hnot]
    rfl
  | some type =>
    have hs : type.identifier = s := by
      have htest := List.find?_some hfind
      exact beq_iff_eq.1 htest
    have hmem : s ∈ vpnTypes := by
      rw [← map_identifier_values, ← hs]
      exact List.mem_map_of_mem (List.mem_of_find?_eq_some hfind)
    rw [if_pos hmem]
    exact hs

end VpnType

/-- `VpnProfile`, as far as the app sets it. -/
structure VpnProfile where
  mUUID : UUID
  mName : Option String
  mGateway : Option String
  mVpnType : Option VpnType
  mUsername : Option String
  mPassword : Option String
  mCertificate : Option String
  mUserCertificate : Option String
  mLocalId : Option String
  mRemoteId : Option String
  mMTU : Option Int
  mPort : Option Int
  mNATKeepAlive : Option Int
  mIkeProposal : Option String
  mEspProposal : Option String
  mEapType : Option String
  mDnsServers : Option String
  mFlags : Option (BitVec 32)
  deriving DecidableEq, Repr

namespace VpnProfile

def FLAGS_SUPPRESS_CERT_REQS : BitVec 32 := 1 <<< 0

def FLAGS_DISABLE_CRL : BitVec 32 := 1 <<< 1

def FLAGS_DISABLE_OCSP : BitVec 32 := 1 <<< 2

def FLAGS_STRICT_REVOCATION : BitVec 32 := 1 <<< 3

def FLAGS_RSA_PSS : BitVec 32 := 1 <<< 4

def FLAGS_IPv6_TRANSPORT : BitVec 32 := 1 <<< 5

/-- `getFlags`. -/
def getFlags (p : VpnProfile) : BitVec 32 := p.mFlags.getD 0

end VpnProfile

/-! ## 2. The mapping -/

namespace Ikev2Profile

open VpnProfile

/-- `ifBlank { null }`. -/
def blankToNull (s : String) : Option String := if isBlank s then none else some s

/-- `takeIf { it > 0 }`. -/
def takeIfPositive (n : Int) : Option Int := if 0 < n then some n else none

/-- The bits of the six switches. -/
def flagsOf (suppressCertReqs disableCrl disableOcsp strictRevocation rsaPss ipv6Transport : Bool) :
    BitVec 32 :=
  let flags : BitVec 32 := 0
  let flags := if suppressCertReqs then flags ||| FLAGS_SUPPRESS_CERT_REQS else flags
  let flags := if disableCrl then flags ||| FLAGS_DISABLE_CRL else flags
  let flags := if disableOcsp then flags ||| FLAGS_DISABLE_OCSP else flags
  let flags := if strictRevocation then flags ||| FLAGS_STRICT_REVOCATION else flags
  let flags := if rsaPss then flags ||| FLAGS_RSA_PSS else flags
  if ipv6Transport then flags ||| FLAGS_IPv6_TRANSPORT else flags

/-- `toVpnProfile`; `UUID.fromString` throws where the text is no uuid. -/
def toVpnProfile (q : Ikev2Profile) : Option VpnProfile :=
  (UUID.fromString q.uuid).map fun uuid => {
    mUUID := uuid
    mName := some q.name
    mGateway := some q.gateway
    mVpnType := some (VpnType.fromIdentifier q.vpnType)
    mUsername := blankToNull q.username
    mPassword := blankToNull q.password
    mCertificate := blankToNull q.caAlias
    mUserCertificate := blankToNull q.userCertAlias
    mLocalId := blankToNull q.localId
    mRemoteId := some (ifBlank q.remoteId "%any")
    mMTU := takeIfPositive q.mtu
    mPort := takeIfPositive q.port
    mNATKeepAlive := takeIfPositive q.natKeepalive
    mIkeProposal := blankToNull q.ikeProposal
    mEspProposal := blankToNull q.espProposal
    mEapType := blankToNull q.eapType
    mDnsServers := blankToNull q.dnsServers
    mFlags := some (flagsOf q.suppressCertReqs q.disableCrl q.disableOcsp q.strictRevocation q.rsaPss
      q.ipv6Transport) }

/-- `fromVpnProfile`. -/
def fromVpnProfile (p : VpnProfile) : Ikev2Profile where
  uuid := p.mUUID.toString
  name := p.mName.getD ""
  gateway := p.mGateway.getD ""
  port := p.mPort.getD 500
  vpnType := (p.mVpnType.map (·.identifier)).getD "ikev2-eap"
  username := p.mUsername.getD ""
  password := p.mPassword.getD ""
  caAlias := p.mCertificate.getD ""
  userCertAlias := p.mUserCertificate.getD ""
  localId := p.mLocalId.getD ""
  remoteId := p.mRemoteId.getD ""
  mtu := p.mMTU.getD 0
  natKeepalive := p.mNATKeepAlive.getD 0
  ikeProposal := p.mIkeProposal.getD ""
  espProposal := p.mEspProposal.getD ""
  eapType := p.mEapType.getD ""
  dnsServers := p.mDnsServers.getD ""
  suppressCertReqs := p.getFlags &&& FLAGS_SUPPRESS_CERT_REQS != 0
  disableCrl := p.getFlags &&& FLAGS_DISABLE_CRL != 0
  disableOcsp := p.getFlags &&& FLAGS_DISABLE_OCSP != 0
  strictRevocation := p.getFlags &&& FLAGS_STRICT_REVOCATION != 0
  rsaPss := p.getFlags &&& FLAGS_RSA_PSS != 0
  ipv6Transport := p.getFlags &&& FLAGS_IPv6_TRANSPORT != 0

theorem getD_blankToNull (s : String) : (blankToNull s).getD "" = ifBlank s "" := by
  unfold blankToNull ifBlank
  cases isBlank s <;> rfl

theorem getD_takeIfPositive (n default : Int) :
    (takeIfPositive n).getD default = if 0 < n then n else default := by
  unfold takeIfPositive
  split <;> rfl

/-- **Every combination of the switches is read back.** -/
theorem flagsOf_and : ∀ a b c d e f : Bool,
    (flagsOf a b c d e f &&& FLAGS_SUPPRESS_CERT_REQS != 0) = a ∧
    (flagsOf a b c d e f &&& FLAGS_DISABLE_CRL != 0) = b ∧
    (flagsOf a b c d e f &&& FLAGS_DISABLE_OCSP != 0) = c ∧
    (flagsOf a b c d e f &&& FLAGS_STRICT_REVOCATION != 0) = d ∧
    (flagsOf a b c d e f &&& FLAGS_RSA_PSS != 0) = e ∧
    (flagsOf a b c d e f &&& FLAGS_IPv6_TRANSPORT != 0) = f := by
  decide

/-- **What the mapping gives back.** -/
theorem fromVpnProfile_toVpnProfile {q : Ikev2Profile} (h : UUID.IsCanonical q.uuid) :
    ∃ p, q.toVpnProfile = some p ∧ fromVpnProfile p = q.stored := by
  obtain ⟨uuid, hfrom, hto⟩ := UUID.toString_fromString h
  refine ⟨_, congrArg _ hfrom, ?_⟩
  obtain ⟨hsuppress, hcrl, hocsp, hstrict, hpss, hipv6⟩ := flagsOf_and q.suppressCertReqs q.disableCrl
    q.disableOcsp q.strictRevocation q.rsaPss q.ipv6Transport
  simp only [fromVpnProfile, stored, getFlags, Option.getD_some, Option.map_some, getD_blankToNull,
    getD_takeIfPositive, VpnType.identifier_fromIdentifier, hto, hsuppress, hcrl, hocsp, hstrict, hpss, hipv6]

end Ikev2Profile

/-! ## 3. The document of a backup -/

namespace BackupManager

/-- What the stores of certificates and keys have under an alias; `none` where there is nothing, or where
    it cannot be had. -/
structure Certificates where
  caCertificate : String → Option (List UInt8)
  certificateChain : String → Option (List (List UInt8))
  privateKey : String → Option (List UInt8)

/-- `Base64.encodeToString(bytes, DEFAULT)`: lines of 76 characters, each with its end. -/
def encodeToString (bytes : List UInt8) : String :=
  let digits := Base64.encode Base64.digit true bytes
  String.ofList ((List.range ((digits.length + 75) / 76)).flatMap fun i =>
    (digits.drop (76 * i)).take 76 ++ ['\n'])

/-- What is put as `caCertDerB64`. -/
def caCertDer (certs : Certificates) (prof : Ikev2Profile) : Option String :=
  if isBlank prof.caAlias then none else (certs.caCertificate prof.caAlias).map encodeToString

/-- What is put as `userCertChainDerB64`. -/
def userCertChainDer (certs : Certificates) (prof : Ikev2Profile) : Option (List String) :=
  if isBlank prof.userCertAlias then none
  else match certs.certificateChain prof.userCertAlias with
    | some chain => if chain.isEmpty then none else some (chain.map encodeToString)
    | none => none

/-- What is put as `userKeyPkcs8B64`. -/
def userKeyPkcs8 (certs : Certificates) (prof : Ikev2Profile) : Option String :=
  if isBlank prof.userCertAlias then none else (certs.privateKey prof.userCertAlias).map encodeToString

/-- The members for the certificates of a profile. -/
def certificateMembers (certs : Certificates) (prof : Ikev2Profile) : JsonObject :=
  ((caCertDer certs prof).map fun cert => ("caCertDerB64", Json.str cert)).toList ++
    ((userCertChainDer certs prof).map fun chain =>
      ("userCertChainDerB64", Json.arr (chain.map Json.str))).toList ++
    ((userKeyPkcs8 certs prof).map fun key => ("userKeyPkcs8B64", Json.str key)).toList

/-- The members for its settings. -/
def settingMembers (prof : Ikev2Profile) : JsonObject :=
  [("name", .str prof.name),
   ("gateway", .str prof.gateway),
   ("port", .int prof.port),
   ("vpnType", .str prof.vpnType),
   ("username", .str prof.username),
   ("password", .str prof.password),
   ("caAlias", .str prof.caAlias),
   ("userCertAlias", .str prof.userCertAlias),
   ("localId", .str prof.localId),
   ("remoteId", .str prof.remoteId),
   ("mtu", .int prof.mtu),
   ("natKeepalive", .int prof.natKeepalive),
   ("ikeProposal", .str prof.ikeProposal),
   ("espProposal", .str prof.espProposal),
   ("eapType", .str prof.eapType),
   ("dnsServers", .str prof.dnsServers),
   ("suppressCertReqs", .bool prof.suppressCertReqs),
   ("disableCrl", .bool prof.disableCrl),
   ("disableOcsp", .bool prof.disableOcsp),
   ("strictRevocation", .bool prof.strictRevocation),
   ("rsaPss", .bool prof.rsaPss),
   ("ipv6Transport", .bool prof.ipv6Transport)]

/-- The document that `exportAll` puts together for an IKEv2 profile. -/
def ikev2Json (certs : Certificates) (prof : Ikev2Profile) : JsonObject :=
  settingMembers prof ++ certificateMembers certs prof

/-- Its text, as it is written into the file of the profile: none where the profile is gone. -/
def ikev2Dump (certs : Certificates) (store : Ikev2Store) (uuid : Uuid) : Option String :=
  (store.profile uuid).map fun prof => Json.layOut (Json.indented 2) (.obj (ikev2Json certs prof))

end BackupManager

namespace Ikev2Profile

/-- The numbers are those of an `Int`. -/
def InRange (q : Ikev2Profile) : Prop :=
  ∀ n ∈ [q.port, q.mtu, q.natKeepalive], -(2 ^ 31 : Int) ≤ n ∧ n < (2 ^ 31 : Int)

instance instDecidableInRange (q : Ikev2Profile) : Decidable q.InRange :=
  inferInstanceAs (Decidable (∀ n ∈ [q.port, q.mtu, q.natKeepalive], _))

end Ikev2Profile

namespace BackupManager

variable {certs : Certificates} {q : Ikev2Profile}

theorem map_fst_toList {α : Type} (name : String) (o : Option α) (value : α → Json) :
    ((o.map fun a => (name, value a)).toList.map Prod.fst).Sublist [name] := by
  cases o with
  | none => exact List.nil_sublist _
  | some a => exact List.Sublist.refl _

theorem keys_certificateMembers : ((certificateMembers certs q).map Prod.fst).Sublist
    ["caCertDerB64", "userCertChainDerB64", "userKeyPkcs8B64"] := by
  unfold certificateMembers
  rw [List.map_append, List.map_append]
  exact ((map_fst_toList "caCertDerB64" _ _).append (map_fst_toList "userCertChainDerB64" _ _)).append
    (map_fst_toList "userKeyPkcs8B64" _ _)

theorem keys_settingMembers : (settingMembers q).map Prod.fst =
    ["name", "gateway", "port", "vpnType", "username", "password", "caAlias", "userCertAlias", "localId",
      "remoteId", "mtu", "natKeepalive", "ikeProposal", "espProposal", "eapType", "dnsServers",
      "suppressCertReqs", "disableCrl", "disableOcsp", "strictRevocation", "rsaPss", "ipv6Transport"] := rfl

/-- No member is put twice. -/
theorem nodup_ikev2Json : ((ikev2Json certs q).map Prod.fst).Nodup := by
  unfold ikev2Json
  rw [List.map_append, keys_settingMembers]
  refine List.Nodup.sublist (List.Sublist.append (List.Sublist.refl _) keys_certificateMembers) ?_
  decide

theorem plain_certificateMembers : ∀ m ∈ certificateMembers certs q, m.2.plain = true := by
  intro m hm
  simp only [certificateMembers, List.mem_append, Option.mem_toList, Option.map_eq_some_iff] at hm
  rcases hm with (⟨cert, -, rfl⟩ | ⟨chain, -, rfl⟩) | ⟨key, -, rfl⟩
  · rfl
  · refine (Json.plain_arr_iff _).2 fun e he => ?_
    obtain ⟨cert, -, rfl⟩ := List.mem_map.1 he
    rfl
  · rfl

theorem plain_settingMembers (h : q.InRange) : ∀ m ∈ settingMembers q, m.2.plain = true := by
  have hint : ∀ n ∈ [q.port, q.mtu, q.natKeepalive], (Json.int n).plain = true := by
    intro n hn
    obtain ⟨hlo, hhi⟩ := h n hn
    exact decide_eq_true ⟨by omega, by omega⟩
  have hport := hint q.port (by simp)
  have hmtu := hint q.mtu (by simp)
  have hkeepalive := hint q.natKeepalive (by simp)
  simp only [settingMembers, List.forall_mem_cons, Json.plain, true_and]
  exact ⟨hport, hmtu, hkeepalive, fun m hm => absurd hm List.not_mem_nil⟩

theorem plain_ikev2Json (h : q.InRange) : (Json.obj (ikev2Json certs q)).plain = true := by
  refine (Json.plain_obj_iff _).2 ⟨nodup_ikev2Json, fun m hm => ?_⟩
  rcases List.mem_append.1 hm with hm | hm
  · exact plain_settingMembers h m hm
  · exact plain_certificateMembers m hm

/-- The settings are read off the document wherever they are not texts of a certificate. -/
theorem lookup_ikev2Json {name : String} {v : Json} (h : (settingMembers q).lookup name = some v) :
    (ikev2Json certs q).lookup name = some v := by
  unfold ikev2Json
  rw [List.lookup_append, h]
  rfl

theorem lookup_caCertDer :
    (ikev2Json certs q).lookup "caCertDerB64" = (caCertDer certs q).map Json.str := by
  have hsetting : (settingMembers q).lookup "caCertDerB64" = none := rfl
  unfold ikev2Json certificateMembers
  rw [List.lookup_append, hsetting]
  cases caCertDer certs q with
  | some cert => rfl
  | none =>
    cases userCertChainDer certs q <;> cases userKeyPkcs8 certs q <;> rfl

theorem optString_ikev2Json {name s : String} (h : (settingMembers q).lookup name = some (.str s))
    (fallback : String) : (ikev2Json certs q).optString name fallback = s := by
  rw [JsonObject.optString_of_some (lookup_ikev2Json h)]
  rfl

theorem optBoolean_ikev2Json {name : String} {b : Bool}
    (h : (settingMembers q).lookup name = some (.bool b)) :
    (ikev2Json certs q).optBoolean name = b := by
  unfold JsonObject.optBoolean
  rw [lookup_ikev2Json h]

theorem optInt_ikev2Json {truncate : String → Option Int} {name : String} {n : Int}
    (h : (settingMembers q).lookup name = some (.int n)) (hlo : -(2 ^ 31 : Int) ≤ n)
    (hhi : n < (2 ^ 31 : Int)) (fallback : Int) :
    (ikev2Json certs q).optInt truncate name fallback = n := by
  unfold JsonObject.optInt
  rw [lookup_ikev2Json h]
  exact Int.bmod_eq_of_le (by omega) (by omega)

/-- **The document is read as the profile**, its uuid aside. -/
theorem ikev2Profile_ikev2Json (pf : Platform) (hname : isBlank q.name = false) (hrange : q.InRange)
    (hca : ∀ der ∈ caCertDer certs q, ∀ installed ∈ pf.installCa der, installed = q.caAlias) (uuid : Uuid) :
    VpnEngine.ikev2Profile pf (ikev2Json certs q) uuid = { q with uuid := uuid } := by
  have hport := hrange q.port (by simp)
  have hmtu := hrange q.mtu (by simp)
  have hkeepalive := hrange q.natKeepalive (by simp)
  have hnamed : ifBlank ((ikev2Json certs q).optString "name") ((ikev2Json certs q).optString "gateway")
      = q.name := by
    have hread : (ikev2Json certs q).optString "name" = q.name := optString_ikev2Json rfl ""
    rw [hread, ifBlank, hname]
    rfl
  have hstored : (ikev2Json certs q).optString "caAlias" = q.caAlias := optString_ikev2Json rfl ""
  have halias : (if isBlank ((ikev2Json certs q).optString "caCertDerB64") then q.caAlias
      else (pf.installCa ((ikev2Json certs q).optString "caCertDerB64")).getD q.caAlias) = q.caAlias := by
    split
    · rfl
    · rename_i hsome
      cases hder : caCertDer certs q with
      | none =>
        exfalso
        apply hsome
        rw [JsonObject.optString_of_none (by rw [lookup_caCertDer, hder]; rfl)]
        rfl
      | some der =>
        have hread : (ikev2Json certs q).optString "caCertDerB64" = der := by
          rw [JsonObject.optString_of_some (by rw [lookup_caCertDer, hder]; rfl)]
          rfl
        rw [hread]
        cases hinstalled : pf.installCa der with
        | none => rfl
        | some installed => exact hca der hder installed hinstalled
  unfold VpnEngine.ikev2Profile
  rw [hnamed, hstored, halias, Ikev2Profile.mk.injEq]
  exact ⟨rfl, rfl, optString_ikev2Json rfl _, optInt_ikev2Json rfl hport.1 hport.2 _,
    optString_ikev2Json rfl _, optString_ikev2Json rfl _, optString_ikev2Json rfl _, rfl,
    optString_ikev2Json rfl _, optString_ikev2Json rfl _, optString_ikev2Json rfl _,
    optInt_ikev2Json rfl hmtu.1 hmtu.2 _, optInt_ikev2Json rfl hkeepalive.1 hkeepalive.2 _,
    optString_ikev2Json rfl _, optString_ikev2Json rfl _, optString_ikev2Json rfl _,
    optString_ikev2Json rfl _, optBoolean_ikev2Json rfl, optBoolean_ikev2Json rfl,
    optBoolean_ikev2Json rfl, optBoolean_ikev2Json rfl, optBoolean_ikev2Json rfl,
    optBoolean_ikev2Json rfl⟩

end BackupManager

/-! ## 4. Back into the store -/

namespace Ikev2Store

variable {s : Ikev2Store} {q : Ikev2Profile}

/-- A profile that is read from the store is as it was stored. -/
theorem stored_of_profile {uuid : Uuid} (h : s.profile uuid = some q) : q.stored = q := by
  obtain ⟨row, -, rfl⟩ := Option.map_eq_some_iff.1 h
  exact row.stored_profile

/-- A profile that is saved is found under its uuid. -/
theorem profile_save (q : Ikev2Profile) : (s.save q).profile q.uuid = some q.stored := by
  have huuid : q.stored.uuid = q.uuid := rfl
  unfold save
  dsimp only
  split
  · rename_i hsome
    obtain ⟨row, hrow⟩ : ∃ row, s.rows.find? (·.profile.uuid == q.uuid) = some row := by
      unfold profile at hsome
      rw [Option.isSome_map] at hsome
      exact Option.isSome_iff_exists.1 hsome
    have hfound : row.profile.uuid = q.uuid := by
      have htest := List.find?_some hrow
      exact beq_iff_eq.1 htest
    have hsame : ∀ r : Ikev2Row,
        ((if r.profile.uuid = q.uuid then ⟨q.stored, q.stored_stored⟩ else r : Ikev2Row).profile.uuid
          == q.uuid) = (r.profile.uuid == q.uuid) := by
      intro r
      by_cases hr : r.profile.uuid = q.uuid
      · rw [if_pos hr, hr, huuid]
      · rw [if_neg hr]
    unfold profile
    rw [List.find?_map]
    simp only [Function.comp_def, hsame]
    rw [hrow, Option.map_some, Option.map_some, if_pos hfound]
  · rename_i hnone
    have hrows : s.rows.find? (·.profile.uuid == q.uuid) = none := by
      unfold profile at hnone
      rw [Option.isSome_map, Bool.not_eq_true, Option.isSome_eq_false_iff, Option.isNone_iff_eq_none] at hnone
      exact hnone
    unfold profile
    rw [List.find?_append, hrows]
    simp [huuid]

end Ikev2Store

namespace BackupManager

open VpnEngine Ikev2Profile

/-- **A profile that was stored is stored again from its backup**, under the uuid that is drawn. -/
theorem importIkev2Backup_ikev2Dump {pf : Platform} {certs : Certificates} {store : Ikev2Store}
    {uuid : Uuid} {q : Ikev2Profile} (hq : store.profile uuid = some q) (hname : isBlank q.name = false)
    (hgateway : isBlank q.gateway = false) (hrange : q.InRange)
    (hca : ∀ der ∈ caCertDer certs q, ∀ installed ∈ pf.installCa der, installed = q.caAlias)
    (s : AppState) :
    ∃ text, ikev2Dump certs store uuid = some text ∧ (importIkev2Backup pf s text).2 = true ∧
      (importIkev2Backup pf s text).1.ikev2.profile (pf.newUuid .ikev2 s.ikev2.drawn)
        = some { q with uuid := pf.newUuid .ikev2 s.ikev2.drawn } := by
  have htext : ikev2Dump certs store uuid
      = some (Json.layOut (Json.indented 2) (.obj (ikev2Json certs q))) := by
    rw [ikev2Dump, hq]
    rfl
  have hread : (ikev2Json certs q).optString "gateway" = q.gateway := optString_ikev2Json rfl ""
  have hdocument : ikev2Document pf (Json.layOut (Json.indented 2) (.obj (ikev2Json certs q)))
      = some (ikev2Json certs q) := by
    unfold ikev2Document
    rw [Json.ofText_layOut pf.doubles _ (plain_ikev2Json hrange)]
    dsimp only
    rw [hread, hgateway]
    rfl
  have hprofile := ikev2Profile_ikev2Json pf hname hrange hca (pf.newUuid .ikev2 s.ikev2.drawn)
  have hstored : Ikev2Profile.stored { q with uuid := pf.newUuid .ikev2 s.ikev2.drawn }
      = { q with uuid := pf.newUuid .ikev2 s.ikev2.drawn } :=
    congrArg (fun r : Ikev2Profile => { r with uuid := pf.newUuid .ikev2 s.ikev2.drawn })
      (Ikev2Store.stored_of_profile hq)
  refine ⟨_, htext, ?_, ?_⟩
  · rw [importIkev2Backup, hdocument]
  · have hsaved := Ikev2Store.profile_save (s := s.ikev2)
      { q with uuid := pf.newUuid .ikev2 s.ikev2.drawn }
    rw [hstored] at hsaved
    rw [importIkev2Backup, hdocument]
    dsimp only
    rw [hprofile]
    exact hsaved

/-- **The mapping of IKEv2 profiles**: what the two functions give back, and a second time the same; and
    what a backup gives back of what was stored. -/
theorem ikev2_mapped :
    (∀ q : Ikev2Profile, UUID.IsCanonical q.uuid → q.vpnType ∈ vpnTypes →
      ∃ p r p', q.toVpnProfile = some p ∧ fromVpnProfile p = r ∧
        r = { q with
          username := ifBlank q.username ""
          password := ifBlank q.password ""
          caAlias := ifBlank q.caAlias ""
          userCertAlias := ifBlank q.userCertAlias ""
          localId := ifBlank q.localId ""
          remoteId := ifBlank q.remoteId "%any"
          ikeProposal := ifBlank q.ikeProposal ""
          espProposal := ifBlank q.espProposal ""
          eapType := ifBlank q.eapType ""
          dnsServers := ifBlank q.dnsServers ""
          port := if 0 < q.port then q.port else 500
          mtu := if 0 < q.mtu then q.mtu else 0
          natKeepalive := if 0 < q.natKeepalive then q.natKeepalive else 0 } ∧
        r.toVpnProfile = some p' ∧ fromVpnProfile p' = r) ∧
    (∀ (pf : Platform) (certs : Certificates) (store : Ikev2Store) (uuid : Uuid) (q : Ikev2Profile)
      (s : AppState), store.profile uuid = some q → isBlank q.name = false → isBlank q.gateway = false →
      q.InRange → (∀ der ∈ caCertDer certs q, ∀ installed ∈ pf.installCa der, installed = q.caAlias) →
      ∃ text, ikev2Dump certs store uuid = some text ∧ (importIkev2Backup pf s text).2 = true ∧
        (importIkev2Backup pf s text).1.ikev2.profile (pf.newUuid .ikev2 s.ikev2.drawn)
          = some { q with uuid := pf.newUuid .ikev2 s.ikev2.drawn }) := by
  refine ⟨fun q huuid htype => ?_, fun pf certs store uuid q s hq hname hgateway hrange hca =>
    importIkev2Backup_ikev2Dump hq hname hgateway hrange hca s⟩
  obtain ⟨p, hto, hfrom⟩ := fromVpnProfile_toVpnProfile huuid
  obtain ⟨p', hto', hfrom'⟩ := fromVpnProfile_toVpnProfile (q := q.stored) huuid
  rw [stored_stored] at hfrom'
  refine ⟨p, q.stored, p', hto, hfrom, ?_, hto', hfrom'⟩
  unfold Ikev2Profile.stored
  rw [if_pos htype]

/-- A profile that was stored. -/
def sampleIkev2 : Ikev2Profile where
  uuid := "00000000-0000-4000-8000-00000000002a"
  name := "office"
  gateway := "vpn.example.org"
  port := 4500
  caAlias := "local:2f"
  remoteId := "%any"
  disableCrl := true

/-- A store of certificates with one in it. -/
def sampleCertificates : Certificates where
  caCertificate name := if name = "local:2f" then some [48, 130, 1, 10] else none
  certificateChain _ := none
  privateKey _ := none

/-- The platform that finds this certificate again. -/
def certificatePlatform : Platform := { samplePlatform with installCa := fun _ => some "local:2f" }

theorem ikev2_mapped_sample :
    (∃ p, sampleIkev2.toVpnProfile = some p ∧ fromVpnProfile p = sampleIkev2) ∧
    ∃ text, ikev2Dump sampleCertificates ⟨[⟨sampleIkev2, by decide⟩], 1⟩ sampleIkev2.uuid = some text ∧
      (importIkev2Backup certificatePlatform emptyState text).1.ikev2.profile "iu"
        = some { sampleIkev2 with uuid := "iu" } := by
  obtain ⟨p, r, p', hto, hfrom, hr, -⟩ := ikev2_mapped.1 sampleIkev2 (by decide) (by decide)
  obtain ⟨text, htext, -, hprofile⟩ := ikev2_mapped.2 certificatePlatform sampleCertificates
    ⟨[⟨sampleIkev2, by decide⟩], 1⟩ sampleIkev2.uuid sampleIkev2 emptyState (by decide) (by decide)
    (by decide) (by decide) (by
      intro der _ installed hinstalled
      exact (Option.some.inj hinstalled).symm)
  refine ⟨⟨p, hto, hfrom.trans (hr.trans (by decide))⟩, text, htext, hprofile⟩

end BackupManager

end SwiftVpn
