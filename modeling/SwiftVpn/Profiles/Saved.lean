/-
  File:      SwiftVpn/Profiles/Saved.lean
  Subject:   WHAT IS SAVED OF A PROFILE, ACROSS THE STORES: VpnEngine.renameProfile and setCredentials,
             ProfileStore.toggleFavourite.

  * `Saved` -- one record for a profile of any protocol: name, config, credentials, star;
    `AppState.saved` is the list of them, and the list that the app shows is read off it;
  * `saved_renameProfile`, `saved_setCredentials`, `saved_toggleFavourite` -- each operation changes the
    record of one uuid and no other, where every profile has a uuid of its own (`Distinct`);
  * `Grown.mem_saved`, `Grown.distinct`, `Grown.fresh` -- what an import adds leaves the records and the
    uuids alone, where the uuids that are drawn are new (`Fresh`).
-/
import SwiftVpn.Profiles.Import

namespace SwiftVpn

/-! ## 1. Operations on a profile -/

namespace AppState

/-- The uuids of all stores. -/
def uuids (s : AppState) : List Uuid :=
  s.openVpn.profiles.map (·.uuid) ++ s.wireGuard.files.map (·.uuid) ++ s.xray.uuids ++
    s.ikev2.rows.map (·.profile.uuid)

/-- `VpnEngine.protocolOf`. -/
def protocolOf (s : AppState) (uuid : Uuid) : Protocol :=
  if uuid ∈ s.wireGuard.files.map (·.uuid) then .wireguard
  else if uuid ∈ s.xray.uuids then .xray
  else if (s.ikev2.profile uuid).isSome then .ikev2
  else .openvpn

/-- `VpnEngine.renameProfile`. -/
def renameProfile (s : AppState) (uuid : Uuid) (newName : String) : AppState :=
  match s.protocolOf uuid with
  | .wireguard => { s with wireGuard := s.wireGuard.rename uuid newName }
  | .xray => { s with xray := s.xray.rename uuid newName }
  | .ikev2 =>
    match s.ikev2.profile uuid with
    | some p => { s with ikev2 := s.ikev2.save { p with name := newName } }
    | none => s
  | .openvpn => { s with openVpn := s.openVpn.update uuid fun p => { p with mName := newName } }

/-- `VpnEngine.setCredentials`, with `persist`. -/
def setCredentials (s : AppState) (uuid : Uuid) (c : Credentials) : AppState :=
  match s.openVpn.get uuid with
  | none => s
  | some _ => { s with openVpn := s.openVpn.update uuid fun p => { p with credentials := c } }

/-- `ProfileStore.toggleFavourite`. -/
def toggleFavourite (s : AppState) (uuid : Uuid) : AppState :=
  { s with
    favourites :=
      if uuid ∈ s.favourites then s.favourites.filter (· ≠ uuid) else s.favourites ++ [uuid] }

/-- The list of the view model: the profiles with their stars. -/
def allProfiles (pf : Platform) (s : AppState) : List Profile :=
  (s.profiles pf).map fun p => { p with isFavourite := p.uuid ∈ s.favourites }

end AppState

/-! ## 2. What is saved of a profile -/

/-- The stored config: a text, or the fields of an IKEv2 profile. -/
inductive Content where
  | text (text : Option String)
  | ikev2 (fields : Ikev2Profile)
  deriving DecidableEq, Repr

/-- What is saved of a profile. -/
structure Saved where
  uuid : Uuid
  protocol : Protocol
  name : String
  content : Content
  credentials : Credentials := {}
  isFavourite : Bool
  deriving DecidableEq, Repr

namespace Saved

/-- The profile as the list shows it. -/
def profile (q : Saved) : Profile := ⟨q.uuid, q.name, q.protocol, q.isFavourite⟩

/-- The records of a list, with `change` made to the one of `uuid`. -/
def updateAt (uuid : Uuid) (change : Saved → Saved) (l : List Saved) : List Saved :=
  l.map fun q => if q.uuid = uuid then change q else q

theorem updateAt_append (uuid : Uuid) (change : Saved → Saved) (l l' : List Saved) :
    updateAt uuid change (l ++ l') = updateAt uuid change l ++ updateAt uuid change l' := List.map_append

theorem updateAt_of_not_mem {uuid : Uuid} {l : List Saved} (h : ∀ q ∈ l, q.uuid ≠ uuid)
    (change : Saved → Saved) : updateAt uuid change l = l := by
  unfold updateAt
  rw [List.map_congr_left fun q hq => if_neg (h q hq), List.map_id']

theorem updateAt_updateAt (u : Uuid) {f g : Saved → Saved} (h : ∀ q, (g q).uuid = q.uuid)
    (l : List Saved) : updateAt u f (updateAt u g l) = updateAt u (fun q => f (g q)) l := by
  unfold updateAt
  rw [List.map_map]
  refine List.map_congr_left fun q _ => ?_
  rw [Function.comp_apply]
  by_cases hq : q.uuid = u
  · rw [if_pos hq, if_pos hq, if_pos ((h q).trans hq)]
  · rw [if_neg hq, if_neg hq, if_neg hq]

theorem updateAt_congr {u : Uuid} {f g : Saved → Saved} {l : List Saved}
    (h : ∀ q ∈ l, q.uuid = u → f q = g q) : updateAt u f l = updateAt u g l := by
  refine List.map_congr_left fun q hq => ?_
  by_cases hu : q.uuid = u
  · rw [if_pos hu, if_pos hu, h q hq hu]
  · rw [if_neg hu, if_neg hu]

theorem updateAt_id (u : Uuid) (l : List Saved) : updateAt u (fun q => q) l = l := by
  unfold updateAt
  rw [List.map_congr_left fun q _ => ite_self q, List.map_id']

end Saved

namespace AppState

open Saved

/-- The records of the OpenVPN profiles. -/
def savedOpenVpn (s : AppState) : List Saved :=
  s.openVpn.profiles.map fun p =>
    ⟨p.uuid, .openvpn, p.name, .text p.source, p.credentials, decide (p.uuid ∈ s.favourites)⟩

/-- Those of the WireGuard profiles. -/
def savedWireGuard (pf : Platform) (s : AppState) : List Saved :=
  (s.wireGuard.files.filter fun f => pf.parseWireGuard f.text).map fun f =>
    ⟨f.uuid, .wireguard, s.wireGuard.name f.uuid, .text (some f.text), {}, decide (f.uuid ∈ s.favourites)⟩

/-- Those of the Xray profiles. -/
def savedXray (pf : Platform) (s : AppState) : List Saved :=
  (s.xray.files.filter fun f =>
    XrayConfig.isCustomJson f.text || (XrayShareLink.parse pf.doubles f.text).isSome).map fun f =>
    ⟨f.uuid, .xray, s.xray.name f.uuid, .text (some f.text), {}, decide (f.uuid ∈ s.favourites)⟩

/-- That of an IKEv2 profile; name and uuid are not kept twice. -/
def savedRow (favourites : List Uuid) (p : Ikev2Profile) : Saved :=
  ⟨p.uuid, .ikev2, p.name, .ikev2 { p with uuid := "", name := "" }, {}, decide (p.uuid ∈ favourites)⟩

/-- Those of the IKEv2 profiles. -/
def savedIkev2 (s : AppState) : List Saved := s.ikev2.rows.map fun r => savedRow s.favourites r.profile

/-- What is saved of all profiles, in the order of the list. -/
def saved (pf : Platform) (s : AppState) : List Saved :=
  s.savedOpenVpn ++ s.savedWireGuard pf ++ s.savedXray pf ++ s.savedIkev2

/-- The list shows what is saved. -/
theorem allProfiles_eq (pf : Platform) (s : AppState) :
    s.allProfiles pf = (s.saved pf).map Saved.profile := by
  simp only [allProfiles, profiles, saved, savedOpenVpn, savedWireGuard, savedXray, savedIkev2,
    WireGuardStore.profiles, XrayStore.profiles, List.map_append, List.map_map]
  rfl

/-- Every profile has a uuid of its own. -/
def Distinct (s : AppState) : Prop := s.uuids.Nodup

section Members

variable {pf : Platform} {s : AppState} {q : Saved}

theorem uuid_mem_openVpn (h : q ∈ s.savedOpenVpn) : q.uuid ∈ s.openVpn.profiles.map (·.uuid) := by
  obtain ⟨p, hp, rfl⟩ := List.mem_map.1 h
  exact List.mem_map_of_mem hp

theorem uuid_mem_wireGuard (h : q ∈ s.savedWireGuard pf) : q.uuid ∈ s.wireGuard.files.map (·.uuid) := by
  obtain ⟨f, hf, rfl⟩ := List.mem_map.1 h
  exact List.mem_map_of_mem (List.mem_of_mem_filter hf)

theorem uuid_mem_xray (h : q ∈ s.savedXray pf) : q.uuid ∈ s.xray.uuids := by
  obtain ⟨f, hf, rfl⟩ := List.mem_map.1 h
  exact List.mem_map_of_mem (List.mem_of_mem_filter hf)

theorem uuid_mem_ikev2 (h : q ∈ s.savedIkev2) : q.uuid ∈ s.ikev2.rows.map (·.profile.uuid) := by
  obtain ⟨r, hr, rfl⟩ := List.mem_map.1 h
  exact List.mem_map_of_mem hr

end Members

/-- Among elements with distinct keys each is found under its own. -/
theorem find?_of_nodup {α : Type} (key : α → Uuid) {l : List α} (h : (l.map key).Nodup) {a : α}
    (ha : a ∈ l) : l.find? (fun b => key b == key a) = some a := by
  induction l with
  | nil => cases ha
  | cons b l ih =>
    rw [List.map_cons, List.nodup_cons] at h
    rcases List.mem_cons.1 ha with rfl | ha
    · exact List.find?_cons_of_pos (beq_self_eq_true _)
    · have hne : key b ≠ key a := fun he => h.1 (he ▸ List.mem_map_of_mem ha)
      rw [List.find?_cons_of_neg (by simpa using hne)]
      exact ih h.2 ha

/-- The stores have no uuid in common. -/
structure Disjoint (s : AppState) : Prop where
  wireGuard : ∀ u ∈ s.wireGuard.files.map (·.uuid), u ∉ s.openVpn.profiles.map (·.uuid)
  xray : ∀ u ∈ s.xray.uuids, u ∉ s.openVpn.profiles.map (·.uuid) ∧ u ∉ s.wireGuard.files.map (·.uuid)
  ikev2 : ∀ u ∈ s.ikev2.rows.map (·.profile.uuid), u ∉ s.openVpn.profiles.map (·.uuid) ∧
    u ∉ s.wireGuard.files.map (·.uuid) ∧ u ∉ s.xray.uuids
  rows : (s.ikev2.rows.map (·.profile.uuid)).Nodup

theorem Distinct.disjoint {s : AppState} (h : s.Distinct) : s.Disjoint := by
  unfold Distinct uuids at h
  obtain ⟨howx, hi, hdi⟩ := List.nodup_append.1 h
  obtain ⟨how, -, hdx⟩ := List.nodup_append.1 howx
  obtain ⟨-, -, hdw⟩ := List.nodup_append.1 how
  refine ⟨fun u hu ho => hdw u ho u hu rfl, fun u hu => ⟨fun ho => ?_, fun hw => ?_⟩,
    fun u hu => ⟨fun ho => ?_, fun hw => ?_, fun hx => ?_⟩, hi⟩
  · exact hdx u (List.mem_append_left _ ho) u hu rfl
  · exact hdx u (List.mem_append_right _ hw) u hu rfl
  · exact hdi u (List.mem_append_left _ (List.mem_append_left _ ho)) u hu rfl
  · exact hdi u (List.mem_append_left _ (List.mem_append_right _ hw)) u hu rfl
  · exact hdi u (List.mem_append_right _ hx) u hu rfl

/-- The row of a uuid is the one that is found. -/
theorem Disjoint.profile_eq {s : AppState} (h : s.Disjoint) {r : Ikev2Row} (hr : r ∈ s.ikev2.rows) :
    s.ikev2.profile r.profile.uuid = some r.profile := by
  unfold Ikev2Store.profile
  rw [find?_of_nodup (·.profile.uuid) h.rows hr, Option.map_some]

/-! ## 3. What the operations make of the records -/

variable {pf : Platform} {s : AppState}

theorem saved_eq_star (pf : Platform) (s : AppState) : s.saved pf
    = (({ s with favourites := [] } : AppState).saved pf).map fun q =>
        { q with isFavourite := decide (q.uuid ∈ s.favourites) } := by
  simp only [saved, savedOpenVpn, savedWireGuard, savedXray, savedIkev2, List.map_append, List.map_map]
  rfl

theorem saved_toggleFavourite {u : Uuid} (hu : u ∉ s.favourites) :
    (s.toggleFavourite u).saved pf = updateAt u (fun q => { q with isFavourite := true }) (s.saved pf) := by
  have hbase : ({ s.toggleFavourite u with favourites := [] } : AppState) = { s with favourites := [] } := rfl
  rw [saved_eq_star pf s, saved_eq_star pf (s.toggleFavourite u), hbase, updateAt, List.map_map]
  refine List.map_congr_left fun q _ => ?_
  have hfav : (s.toggleFavourite u).favourites = s.favourites ++ [u] := if_neg hu
  rw [hfav, Function.comp_apply]
  by_cases hq : q.uuid = u
  · simp [hq]
  · simp [hq]

theorem saved_setCredentials (u : Uuid) (c : Credentials) : (s.setCredentials u c).saved pf
    = updateAt u (fun q => if q.protocol = .openvpn then { q with credentials := c } else q)
        (s.saved pf) := by
  have hother : ∀ l : List Saved, (∀ q ∈ l, q.protocol ≠ .openvpn) →
      updateAt u (fun q => if q.protocol = .openvpn then { q with credentials := c } else q) l = l := by
    intro l hl
    unfold updateAt
    rw [List.map_congr_left (g := fun q => q), List.map_id']
    intro q hq
    dsimp only
    rw [if_neg (hl q hq), ite_self]
  have hwx : ∀ q ∈ s.savedWireGuard pf ++ s.savedXray pf ++ s.savedIkev2, q.protocol ≠ .openvpn := by
    intro q hq
    simp only [List.mem_append, savedWireGuard, savedXray, savedIkev2, List.mem_map] at hq
    rcases hq with (⟨f, -, rfl⟩ | ⟨f, -, rfl⟩) | ⟨r, -, rfl⟩ <;> exact nofun
  have hopen : (s.setCredentials u c).savedOpenVpn
      = updateAt u (fun q => if q.protocol = .openvpn then { q with credentials := c } else q)
          s.savedOpenVpn := by
    unfold setCredentials
    cases hget : s.openVpn.get u with
    | none =>
      have habsent : ∀ p ∈ s.openVpn.profiles, ¬ (p.uuid == u) = true := by
        unfold ProfileManager.get at hget
        exact List.find?_eq_none.1 hget
      refine (updateAt_of_not_mem (fun q hq => ?_) _).symm
      obtain ⟨p, hp, rfl⟩ := List.mem_map.1 hq
      exact fun he => habsent p hp (beq_iff_eq.2 he)
    | some p =>
      simp only [savedOpenVpn, ProfileManager.update, updateAt, List.map_map]
      refine List.map_congr_left fun p _ => ?_
      by_cases hp : p.uuid = u
      · simp [hp, OpenVpnProfile.name]
      · simp [hp]
  have hrest : (s.setCredentials u c).savedWireGuard pf ++ (s.setCredentials u c).savedXray pf
      ++ (s.setCredentials u c).savedIkev2
      = s.savedWireGuard pf ++ s.savedXray pf ++ s.savedIkev2 := by
    unfold setCredentials
    cases s.openVpn.get u with
    | none => rfl
    | some p => rfl
  simp only [saved, List.append_assoc] at hrest hwx ⊢
  rw [hrest, hopen, updateAt_append, hother _ hwx]

/-- The record with another name. -/
def withName (name : String) (q : Saved) : Saved := { q with name := name }

theorem saved_rename_wireGuard (h : s.Disjoint) {u : Uuid} (hu : u ∈ s.wireGuard.files.map (·.uuid))
    {name : String} (hname : isBlank name = false) :
    ({ s with wireGuard := s.wireGuard.rename u name } : AppState).saved pf
      = updateAt u (withName name) (s.saved pf) := by
  have ho : ∀ q ∈ s.savedOpenVpn, q.uuid ≠ u :=
    fun q hq he => h.wireGuard u hu (he ▸ uuid_mem_openVpn hq)
  have hx : ∀ q ∈ s.savedXray pf, q.uuid ≠ u :=
    fun q hq he => (h.xray u (he ▸ uuid_mem_xray hq)).2 hu
  have hi : ∀ q ∈ s.savedIkev2, q.uuid ≠ u :=
    fun q hq he => (h.ikev2 u (he ▸ uuid_mem_ikev2 hq)).2.1 hu
  have hw : ({ s with wireGuard := s.wireGuard.rename u name } : AppState).savedWireGuard pf
      = updateAt u (withName name) (s.savedWireGuard pf) := by
    have hrename : s.wireGuard.rename u name
        = { s.wireGuard with names := setPref s.wireGuard.names u (some name) } := by
      rw [WireGuardStore.rename, hname, if_neg Bool.false_ne_true]
    simp only [savedWireGuard, updateAt, hrename, List.map_map]
    refine List.map_congr_left fun f _ => ?_
    by_cases hf : f.uuid = u
    · simp [hf, WireGuardStore.name, setPref, withName]
    · simp [hf, WireGuardStore.name, setPref]
  simp only [saved, updateAt_append, updateAt_of_not_mem ho, updateAt_of_not_mem hx,
    updateAt_of_not_mem hi, hw]
  rfl

theorem saved_rename_xray (h : s.Disjoint) {u : Uuid} (hu : u ∈ s.xray.uuids) {name : String}
    (hname : isBlank name = false) :
    ({ s with xray := s.xray.rename u name } : AppState).saved pf
      = updateAt u (withName name) (s.saved pf) := by
  have ho : ∀ q ∈ s.savedOpenVpn, q.uuid ≠ u :=
    fun q hq he => (h.xray u hu).1 (he ▸ uuid_mem_openVpn hq)
  have hw : ∀ q ∈ s.savedWireGuard pf, q.uuid ≠ u :=
    fun q hq he => (h.xray u hu).2 (he ▸ uuid_mem_wireGuard hq)
  have hi : ∀ q ∈ s.savedIkev2, q.uuid ≠ u :=
    fun q hq he => (h.ikev2 u (he ▸ uuid_mem_ikev2 hq)).2.2 hu
  have hx : ({ s with xray := s.xray.rename u name } : AppState).savedXray pf
      = updateAt u (withName name) (s.savedXray pf) := by
    have hrename : s.xray.rename u name
        = { s.xray with names := setPref s.xray.names u (some name) } := by
      rw [XrayStore.rename, hname, if_neg Bool.false_ne_true]
    simp only [savedXray, updateAt, hrename, List.map_map]
    refine List.map_congr_left fun f _ => ?_
    by_cases hf : f.uuid = u
    · simp [hf, XrayStore.name, setPref, withName]
    · simp [hf, XrayStore.name, setPref]
  simp only [saved, updateAt_append, updateAt_of_not_mem ho, updateAt_of_not_mem hw,
    updateAt_of_not_mem hi, hx]
  rfl

theorem saved_rename_ikev2 (h : s.Disjoint) {u : Uuid} {p : Ikev2Profile}
    (hp : s.ikev2.profile u = some p) (name : String) :
    ({ s with ikev2 := s.ikev2.save { p with name := name } } : AppState).saved pf
      = updateAt u (withName name) (s.saved pf) := by
  obtain ⟨r, hfind, rfl⟩ := Option.map_eq_some_iff.1 hp
  have hr := List.mem_of_find?_eq_some hfind
  have huuid : r.profile.uuid = u := by
    have hbeq := List.find?_some hfind
    exact beq_iff_eq.1 hbeq
  have hu : u ∈ s.ikev2.rows.map (·.profile.uuid) := huuid ▸ List.mem_map_of_mem hr
  have ho : ∀ q ∈ s.savedOpenVpn, q.uuid ≠ u :=
    fun q hq he => (h.ikev2 u hu).1 (he ▸ uuid_mem_openVpn hq)
  have hw : ∀ q ∈ s.savedWireGuard pf, q.uuid ≠ u :=
    fun q hq he => (h.ikev2 u hu).2.1 (he ▸ uuid_mem_wireGuard hq)
  have hx : ∀ q ∈ s.savedXray pf, q.uuid ≠ u :=
    fun q hq he => (h.ikev2 u hu).2.2 (he ▸ uuid_mem_xray hq)
  generalize hq : ({ r.profile with name := name } : Ikev2Profile) = q
  have hquuid : q.uuid = u := by
    rw [← hq]
    exact huuid
  -- the row was read, so it is written as it is but for the name
  have hstored : q.stored = q := by
    have hname : ∀ a : Ikev2Profile, ({ a with name := name } : Ikev2Profile).stored
        = { a.stored with name := name } := fun _ => rfl
    rw [← hq, hname, r.stored_profile]
  have hsaved : savedRow s.favourites q = withName name (savedRow s.favourites r.profile) := by
    rw [← hq]
    rfl
  have hi : ({ s with ikev2 := s.ikev2.save q } : AppState).savedIkev2
      = updateAt u (withName name) s.savedIkev2 := by
    have hsome : (s.ikev2.profile q.uuid).isSome = true := by
      rw [hquuid, hp]
      rfl
    simp only [savedIkev2, updateAt, Ikev2Store.save, if_pos hsome, List.map_map]
    refine List.map_congr_left fun a ha => ?_
    rw [Function.comp_apply, Function.comp_apply, hquuid]
    by_cases hau : a.profile.uuid = u
    · have hrow : a.profile = r.profile := by
        have hfound := h.profile_eq ha
        rw [hau, hp] at hfound
        exact (Option.some.inj hfound).symm
      rw [if_pos hau, if_pos (show (savedRow s.favourites a.profile).uuid = u from hau), hrow, ← hsaved]
      exact congrArg (savedRow s.favourites) hstored
    · rw [if_neg hau, if_neg (show (savedRow s.favourites a.profile).uuid ≠ u from hau)]
  simp only [saved, updateAt_append, updateAt_of_not_mem ho, updateAt_of_not_mem hw,
    updateAt_of_not_mem hx, hi]
  rfl

theorem saved_rename_openVpn (h : s.Disjoint) {u : Uuid}
    (hu : u ∈ s.openVpn.profiles.map (·.uuid)) {name : String} (hname : isBlank name = false) :
    ({ s with openVpn := s.openVpn.update u fun p => { p with mName := name } } : AppState).saved pf
      = updateAt u (withName name) (s.saved pf) := by
  have hw : ∀ q ∈ s.savedWireGuard pf, q.uuid ≠ u :=
    fun q hq he => h.wireGuard u (he ▸ uuid_mem_wireGuard hq) hu
  have hx : ∀ q ∈ s.savedXray pf, q.uuid ≠ u :=
    fun q hq he => (h.xray u (he ▸ uuid_mem_xray hq)).1 hu
  have hi : ∀ q ∈ s.savedIkev2, q.uuid ≠ u :=
    fun q hq he => (h.ikev2 u (he ▸ uuid_mem_ikev2 hq)).1 hu
  have hempty : name ≠ "" := by
    rintro rfl
    exact absurd hname (by decide)
  have ho : ({ s with openVpn := s.openVpn.update u fun p => { p with mName := name } } :
      AppState).savedOpenVpn = updateAt u (withName name) s.savedOpenVpn := by
    simp only [savedOpenVpn, updateAt, ProfileManager.update, List.map_map]
    refine List.map_congr_left fun p _ => ?_
    by_cases hp : p.uuid = u
    · simp [hp, OpenVpnProfile.name, hempty, withName]
    · simp [hp]
  simp only [saved, updateAt_append, updateAt_of_not_mem hw, updateAt_of_not_mem hx,
    updateAt_of_not_mem hi, ho]
  rfl

/-- **A profile that is renamed has the new name, the others are as they were.** -/
theorem saved_renameProfile (h : s.Distinct) {u : Uuid} (hu : u ∈ s.uuids) {name : String}
    (hname : isBlank name = false) :
    (s.renameProfile u name).saved pf = updateAt u (withName name) (s.saved pf) := by
  have hd := h.disjoint
  unfold renameProfile protocolOf
  by_cases hw : u ∈ s.wireGuard.files.map (·.uuid)
  · rw [if_pos hw]
    exact saved_rename_wireGuard hd hw hname
  · rw [if_neg hw]
    by_cases hx : u ∈ s.xray.uuids
    · rw [if_pos hx]
      exact saved_rename_xray hd hx hname
    · rw [if_neg hx]
      cases hi : s.ikev2.profile u with
      | some p =>
        rw [Option.isSome_some, if_pos rfl]
        exact saved_rename_ikev2 hd hi name
      | none =>
        rw [Option.isSome_none, if_neg Bool.false_ne_true]
        refine saved_rename_openVpn hd ?_ hname
        have hni : u ∉ s.ikev2.rows.map (·.profile.uuid) := by
          intro hm
          obtain ⟨r, hr, rfl⟩ := List.mem_map.1 hm
          rw [hd.profile_eq hr] at hi
          cases hi
        unfold uuids at hu
        simp only [List.mem_append] at hu
        rcases hu with ((ho | hw') | hx') | hi'
        · exact ho
        · exact absurd hw' hw
        · exact absurd hx' hx
        · exact absurd hi' hni

/-! The steps keep the uuids. -/

theorem uuids_update (s : AppState) (u : Uuid) {change : OpenVpnProfile → OpenVpnProfile}
    (h : ∀ p, (change p).uuid = p.uuid) :
    ({ s with openVpn := s.openVpn.update u change } : AppState).uuids = s.uuids := by
  have hmap : (s.openVpn.update u change).profiles.map (·.uuid) = s.openVpn.profiles.map (·.uuid) := by
    rw [ProfileManager.update, List.map_map]
    refine List.map_congr_left fun p _ => ?_
    rw [Function.comp_apply]
    split
    · exact h p
    · rfl
  simp only [uuids, hmap]

theorem uuids_setCredentials (s : AppState) (u : Uuid) (c : Credentials) :
    (s.setCredentials u c).uuids = s.uuids := by
  unfold setCredentials
  split
  · rfl
  · exact uuids_update s u fun _ => rfl

theorem uuids_renameProfile (s : AppState) (u : Uuid) (name : String) :
    (s.renameProfile u name).uuids = s.uuids := by
  unfold renameProfile
  split
  · unfold WireGuardStore.rename
    split <;> rfl
  · unfold XrayStore.rename
    split <;> rfl
  · split
    · rename_i p hp
      obtain ⟨r, hfind, rfl⟩ := Option.map_eq_some_iff.1 hp
      have hbeq := List.find?_some hfind
      have huuid : r.profile.uuid = u := beq_iff_eq.1 hbeq
      have hsome : (s.ikev2.profile ({ r.profile with name := name } : Ikev2Profile).uuid).isSome = true := by
        rw [huuid, hp]
        rfl
      have hmap : (s.ikev2.save { r.profile with name := name }).rows.map (·.profile.uuid)
          = s.ikev2.rows.map (·.profile.uuid) := by
        simp only [Ikev2Store.save, if_pos hsome, List.map_map]
        refine List.map_congr_left fun a _ => ?_
        rw [Function.comp_apply]
        split
        · rename_i ha
          exact ha.symm
        · rfl
      simp only [uuids, hmap]
    · rfl
  · exact uuids_update s u fun _ => rfl

theorem isFavourite_of_mem {q : Saved} (h : q ∈ s.saved pf) :
    q.isFavourite = decide (q.uuid ∈ s.favourites) := by
  rw [saved_eq_star] at h
  obtain ⟨q', -, rfl⟩ := List.mem_map.1 h
  rfl

theorem uuids_saved_sublist (pf : Platform) (s : AppState) :
    ((s.saved pf).map (·.uuid)).Sublist s.uuids := by
  simp only [saved, savedOpenVpn, savedWireGuard, savedXray,
    savedIkev2, List.map_append, List.map_map]
  exact (((List.Sublist.refl _).append (List.filter_sublist.map _)).append
    (List.filter_sublist.map _)).append (List.Sublist.refl _)

end AppState

/-! ## 4. What an import leaves -/

namespace AppState

/-- How many uuids a store has drawn. -/
def drawn (s : AppState) : Protocol → Nat
  | .openvpn => s.openVpn.drawn
  | .wireguard => s.wireGuard.drawn
  | .xray => s.xray.drawn
  | .ikev2 => s.ikev2.drawn

/-- The uuids that are still to be drawn are new, and differ from each other. -/
structure Fresh (pf : Platform) (s : AppState) : Prop where
  injective : ∀ p q m n, pf.newUuid p m = pf.newUuid q n → p = q ∧ m = n
  unused : ∀ p n, s.drawn p ≤ n → pf.newUuid p n ∉ s.uuids

end AppState

/-- The uuids of new profiles. -/
def NewProfiles.uuids (new : NewProfiles) : List Uuid :=
  new.openVpn.map (·.uuid) ++ new.wireGuard.map (·.uuid) ++ new.xray.map (·.uuid) ++
    new.ikev2.map (·.profile.uuid)

namespace Grown

variable {pf : Platform} {s s' : AppState} {new : NewProfiles}

theorem uuids_perm (h : Grown pf s s' new) : s'.uuids.Perm (s.uuids ++ new.uuids) := by
  unfold AppState.uuids XrayStore.uuids NewProfiles.uuids
  rw [h.openVpn.profiles, h.wireGuard.files, h.xray.files, h.ikev2.rows]
  rw [List.perm_iff_count]
  intro u
  simp only [List.map_append, List.count_append]
  omega

theorem mem_drawnFrom {newUuid : Nat → Uuid} {k n : Nat} {u : Uuid} (h : u ∈ drawnFrom newUuid k n) :
    ∃ i, k ≤ i ∧ i < k + n ∧ newUuid i = u := by
  obtain ⟨i, hi, rfl⟩ := List.mem_map.1 h
  exact ⟨i, (List.mem_range'_1.1 hi).1, (List.mem_range'_1.1 hi).2, rfl⟩

/-- A new uuid was drawn by one of the stores. -/
theorem drawn_of_mem (h : Grown pf s s' new) {u : Uuid} (hu : u ∈ new.uuids) :
    ∃ p i, s.drawn p ≤ i ∧ i < s'.drawn p ∧ pf.newUuid p i = u := by
  unfold NewProfiles.uuids at hu
  rw [h.openVpn.uuids, h.wireGuard.uuids, h.xray.uuids, h.ikev2.uuids] at hu
  simp only [List.mem_append] at hu
  rcases hu with ((hu | hu) | hu) | hu
  · obtain ⟨i, hlo, hhi, rfl⟩ := mem_drawnFrom hu
    exact ⟨.openvpn, i, hlo, Nat.lt_of_lt_of_eq hhi h.openVpn.drawn.symm, rfl⟩
  · obtain ⟨i, hlo, hhi, rfl⟩ := mem_drawnFrom hu
    exact ⟨.wireguard, i, hlo, Nat.lt_of_lt_of_eq hhi h.wireGuard.drawn.symm, rfl⟩
  · obtain ⟨i, hlo, hhi, rfl⟩ := mem_drawnFrom hu
    exact ⟨.xray, i, hlo, Nat.lt_of_lt_of_eq hhi h.xray.drawn.symm, rfl⟩
  · obtain ⟨i, hlo, hhi, rfl⟩ := mem_drawnFrom hu
    exact ⟨.ikev2, i, hlo, Nat.lt_of_lt_of_eq hhi h.ikev2.drawn.symm, rfl⟩

theorem drawn_le (h : Grown pf s s' new) (p : Protocol) : s.drawn p ≤ s'.drawn p := by
  cases p with
  | openvpn => exact Nat.le.intro h.openVpn.drawn.symm
  | wireguard => exact Nat.le.intro h.wireGuard.drawn.symm
  | xray => exact Nat.le.intro h.xray.drawn.symm
  | ikev2 => exact Nat.le.intro h.ikev2.drawn.symm

/-- A new uuid is none of the old ones. -/
theorem not_mem (h : Grown pf s s' new) (hf : s.Fresh pf) {u : Uuid} (hu : u ∈ new.uuids) :
    u ∉ s.uuids := by
  obtain ⟨p, i, hlo, -, rfl⟩ := h.drawn_of_mem hu
  exact hf.unused p i hlo

theorem fresh (h : Grown pf s s' new) (hf : s.Fresh pf) : s'.Fresh pf := by
  refine ⟨hf.injective, fun p n hn hm => ?_⟩
  rcases List.mem_append.1 (h.uuids_perm.subset hm) with hold | hnew
  · exact hf.unused p n (Nat.le_trans (h.drawn_le p) hn) hold
  · obtain ⟨q, i, -, hhi, he⟩ := h.drawn_of_mem hnew
    obtain ⟨rfl, rfl⟩ := hf.injective q p i n he
    omega

theorem nodup_drawnFrom (hf : s.Fresh pf) (p : Protocol) (k n : Nat) :
    (drawnFrom (pf.newUuid p) k n).Nodup :=
  List.Nodup.map (fun _ _ he => (hf.injective p p _ _ he).2) List.nodup_range'

theorem disjoint_drawnFrom (hf : s.Fresh pf) {p q : Protocol} (hpq : p ≠ q) {k n k' n' : Nat} :
    ∀ u ∈ drawnFrom (pf.newUuid p) k n, ∀ v ∈ drawnFrom (pf.newUuid q) k' n', u ≠ v := by
  intro u hu v hv he
  obtain ⟨i, -, -, rfl⟩ := mem_drawnFrom hu
  obtain ⟨j, -, -, rfl⟩ := mem_drawnFrom hv
  exact hpq (hf.injective p q i j he).1

theorem nodup_uuids (h : Grown pf s s' new) (hf : s.Fresh pf) : new.uuids.Nodup := by
  unfold NewProfiles.uuids
  rw [h.openVpn.uuids, h.wireGuard.uuids, h.xray.uuids, h.ikev2.uuids]
  simp only [List.nodup_append, List.mem_append]
  refine ⟨⟨⟨nodup_drawnFrom hf _ _ _, nodup_drawnFrom hf _ _ _, disjoint_drawnFrom hf (by decide)⟩,
    nodup_drawnFrom hf _ _ _, ?_⟩, nodup_drawnFrom hf _ _ _, ?_⟩
  · rintro u (hu | hu)
    · exact disjoint_drawnFrom hf (by decide) u hu
    · exact disjoint_drawnFrom hf (by decide) u hu
  · rintro u ((hu | hu) | hu)
    · exact disjoint_drawnFrom hf (by decide) u hu
    · exact disjoint_drawnFrom hf (by decide) u hu
    · exact disjoint_drawnFrom hf (by decide) u hu

theorem distinct (h : Grown pf s s' new) (hf : s.Fresh pf) (hs : s.Distinct) : s'.Distinct := by
  unfold AppState.Distinct
  rw [h.uuids_perm.nodup_iff, List.nodup_append]
  exact ⟨hs, h.nodup_uuids hf, fun u hu v hv he => h.not_mem hf hv (he ▸ hu)⟩

/-- **What was saved is still saved.** -/
theorem mem_saved (h : Grown pf s s' new) (hf : s.Fresh pf) {q : Saved} (hq : q ∈ s.saved pf) :
    q ∈ s'.saved pf := by
  unfold AppState.saved at hq ⊢
  simp only [List.mem_append] at hq ⊢
  rcases hq with ((hq | hq) | hq) | hq
  · refine .inl (.inl (.inl ?_))
    unfold AppState.savedOpenVpn at hq ⊢
    rw [h.openVpn.profiles, List.map_append, h.favourites]
    exact List.mem_append_left _ hq
  · refine .inl (.inl (.inr ?_))
    obtain ⟨f, hm, rfl⟩ := List.mem_map.1 hq
    obtain ⟨hfile, hparsed⟩ := List.mem_filter.1 hm
    have hold : f.uuid ∉ new.wireGuard.map (·.uuid) := by
      intro hnew
      refine h.not_mem hf (u := f.uuid) ?_ ?_
      · simp only [NewProfiles.uuids, List.mem_append]
        exact .inl (.inl (.inr hnew))
      · simp only [AppState.uuids, List.mem_append]
        exact .inl (.inl (.inr (List.mem_map_of_mem hfile)))
    refine List.mem_map.2 ⟨f, List.mem_filter.2 ⟨?_, hparsed⟩, ?_⟩
    · rw [h.wireGuard.files]
      exact List.mem_append_left _ hfile
    · simp only [WireGuardStore.name, h.wireGuard.names _ hold, h.favourites]
  · refine .inl (.inr ?_)
    obtain ⟨f, hm, rfl⟩ := List.mem_map.1 hq
    obtain ⟨hfile, hparsed⟩ := List.mem_filter.1 hm
    have hold : f.uuid ∉ new.xray.map (·.uuid) := by
      intro hnew
      refine h.not_mem hf (u := f.uuid) ?_ ?_
      · simp only [NewProfiles.uuids, List.mem_append]
        exact .inl (.inr hnew)
      · simp only [AppState.uuids, List.mem_append]
        exact .inl (.inr (List.mem_map_of_mem hfile))
    refine List.mem_map.2 ⟨f, List.mem_filter.2 ⟨?_, hparsed⟩, ?_⟩
    · rw [h.xray.files]
      exact List.mem_append_left _ hfile
    · simp only [XrayStore.name, h.xray.names _ hold, h.favourites]
  · refine .inr ?_
    unfold AppState.savedIkev2 at hq ⊢
    rw [h.ikev2.rows, List.map_append, h.favourites]
    exact List.mem_append_left _ hq

end Grown

end SwiftVpn
