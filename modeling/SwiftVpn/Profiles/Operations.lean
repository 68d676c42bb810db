/-
  File:      SwiftVpn/Profiles/Operations.lean
  Subject:   EVERYTHING THAT CHANGES THE STORES: the calls that MainViewModel.kt makes on them through
             VpnEngine.kt, ProfileStore.kt, XraySubscription.kt and BackupManager.kt.

  * `Operation`, `AppState.perform` -- the calls, each of which is one step;
  * `SameBut U` -- two states that hold the same of every profile whose uuid is not in `U`;
    `perform_sameBut`: an operation touches the uuids it names (`touches`), and those it draws;
  * `Kept` -- THE INVARIANT: the keys of each store are distinct uuids that this store has drawn, and
    only uuids that were drawn are starred; `perform_kept`.

  Files, preferences and rows are written without failure. The history of a profile's traffic is a
  store of its own.
-/
import SwiftVpn.Profiles.Restore
import SwiftVpn.Profiles.Saves

namespace SwiftVpn

/-! ## 1. The calls -/

/-- `delete`. -/
def WireGuardStore.delete (s : WireGuardStore) (uuid : Uuid) : WireGuardStore :=
  { s with files := s.files.filter (·.uuid ≠ uuid), names := setPref s.names uuid none }

/-- `removeProfile`. -/
def ProfileManager.remove (pm : ProfileManager) (uuid : Uuid) : ProfileManager :=
  { pm with profiles := pm.profiles.filter (·.uuid ≠ uuid) }

/-- `delete`. -/
def Ikev2Store.delete (s : Ikev2Store) (uuid : Uuid) : Ikev2Store :=
  { s with rows := s.rows.filter (·.profile.uuid ≠ uuid) }

namespace VpnEngine

/-- The copy of an OpenVPN text, deleted. -/
def dropSource (s : AppState) (uuid : Uuid) : AppState :=
  { s with openVpn := s.openVpn.update uuid fun p => { p with source := none } }

/-- `deleteProfile`. The copy of the source goes first. -/
def deleteProfile (s : AppState) (uuid : Uuid) : AppState :=
  let s := dropSource s uuid
  match s.protocolOf uuid with
  | .wireguard => { s with wireGuard := s.wireGuard.delete uuid }
  | .xray => { s with xray := s.xray.delete uuid }
  | .ikev2 => { s with ikev2 := s.ikev2.delete uuid }
  | .openvpn => { s with openVpn := s.openVpn.remove uuid }

/-- `setCredentials`; without `persist` the password goes to a cache in memory. -/
def setCredentials (s : AppState) (uuid : Uuid) (c : Credentials) (persist : Bool) : AppState :=
  s.setCredentials uuid (if persist then c else { c with password := "" })

/-- `saveXraySettings`. -/
def saveXraySettings (pf : Platform) (s : AppState) (uuid : Uuid) (rawLink name : String) :
    AppState × Bool :=
  let saved := s.xray.saveLink pf.doubles uuid rawLink none
  if saved.2 then ({ s with xray := saved.1.rename uuid name }, true) else ({ s with xray := saved.1 }, false)

/-- `saveWireGuardSettings`. -/
def saveWireGuardSettings (pf : Platform) (s : AppState) (uuid : Uuid) (rawConfig name : String) :
    AppState × Bool :=
  if pf.parseWireGuard rawConfig then
    ({ s with wireGuard := (s.wireGuard.writeFile ⟨uuid, rawConfig⟩).rename uuid name }, true)
  else (s, false)

/-- `saveProfileSettings`, of which the store keeps the name and the user name. -/
def saveProfileSettings (s : AppState) (uuid : Uuid) (name username : String) : AppState × Bool :=
  match s.openVpn.get uuid with
  | none => (s, false)
  | some _ =>
    ({ s with
      openVpn := s.openVpn.update uuid fun p =>
        { p with mName := ifBlank name p.mName, credentials := { p.credentials with username := username } } },
      true)

/-- `saveIkev2Settings`. -/
def saveIkev2Settings (s : AppState) (p : Ikev2Profile) : AppState := { s with ikev2 := s.ikev2.save p }

end VpnEngine

namespace ProfileStore

/-- `select`. -/
def select (s : AppState) (uuid : Uuid) (name : String) : AppState := { s with tile := some (uuid, name) }

/-- `clearSelectionIfMatches`. -/
def clearSelectionIfMatches (s : AppState) (uuid : Uuid) : AppState :=
  if s.tile.map (·.1) = some uuid then { s with tile := none } else s

end ProfileStore

namespace MainViewModel

/-- `templateLink`. -/
def templateLink (kind : String) : String :=
  if kind = "vless" then
    "vless://00000000-0000-0000-0000-000000000000@example.com:443?encryption=none&security=none&type=tcp#VLESS"
  else if kind = "vmess" then "vmess://00000000-0000-0000-0000-000000000000@example.com:443?scy=auto#VMess"
  else if kind = "trojan" then "trojan://password@example.com:443#Trojan"
  else if kind = "shadowsocks" then "ss://YWVzLTI1Ni1nY206cGFzc3dvcmQ@example.com:8388#Shadowsocks"
  else if kind = "hysteria2" then "hysteria2://password@example.com:443#Hysteria2"
  else if kind = "socks" then "socks://example.com:1080#SOCKS"
  else if kind = "http" then "http://example.com:8080#HTTP"
  else "vless://00000000-0000-0000-0000-000000000000@example.com:443?encryption=none#VLESS"

/-- `CUSTOM_JSON_TEMPLATE`, its indentation trimmed. -/
def customJsonTemplate : String :=
  "\x7b
  \"outbounds\": [
    \x7b
      \"tag\": \"proxy\",
      \"protocol\": \"vless\",
      \"settings\": \x7b
        \"vnext\": [
          \x7b
            \"address\": \"example.com\",
            \"port\": 443,
            \"users\": [
              \x7b \"id\": \"00000000-0000-0000-0000-000000000000\", \"encryption\": \"none\" \x7d
            ]
          \x7d
        ]
      \x7d,
      \"streamSettings\": \x7b \"network\": \"tcp\", \"security\": \"none\" \x7d
    \x7d
  ]
\x7d"

/-- `replaceFirstChar { it.uppercase() }`; the kinds are ASCII. -/
def capitalised (kind : String) : String :=
  match kind.toList with
  | [] => kind
  | c :: cs => String.ofList (c.toUpper :: cs)

/-- The import of `createXrayProfile`. -/
def createXrayProfile (pf : Platform) (s : AppState) (kind : String) : Option (AppState × Profile) :=
  if kind = "custom" then VpnEngine.importCustomJson pf s customJsonTemplate "Custom config"
  else VpnEngine.importLink pf s (templateLink kind) (capitalised kind)

/-- The import of `createWarpProfile`, of the text that was generated. -/
def createWarpProfile (pf : Platform) (s : AppState) (text : String) : Option (AppState × Profile) :=
  VpnEngine.importWireGuard pf s text "WARP"

/-- The blank profile of `createIkev2Profile`; `name` is a text of the app. -/
def freshIkev2 (pf : Platform) (s : AppState) (name : String) : Ikev2Profile where
  uuid := pf.newUuid .ikev2 s.ikev2.drawn
  name := name
  gateway := ""

/-- `createIkev2Profile`, up to the save. -/
def createIkev2Profile (pf : Platform) (s : AppState) (name : String) : AppState :=
  let saved := VpnEngine.saveIkev2Settings s (freshIkev2 pf s name)
  { saved with ikev2 := { saved.ikev2 with drawn := s.ikev2.drawn + 1 } }

end MainViewModel

/-- The calls. -/
inductive Operation where
  | importConfig (configText preferredName : String)
  | importZip (archive : List ZipEntry)
  | applyManifest (manifest : JsonObject) (current : List Profile)
  | deleteProfile (uuid : Uuid)
  | renameProfile (uuid : Uuid) (newName : String)
  | toggleFavourite (uuid : Uuid)
  | select (uuid : Uuid) (name : String)
  | clearSelection (uuid : Uuid)
  | setCredentials (uuid : Uuid) (credentials : Credentials) (persist : Bool)
  | saveXraySettings (uuid : Uuid) (rawLink name : String)
  | saveWireGuardSettings (uuid : Uuid) (rawConfig name : String)
  | saveIkev2Settings (profile : Ikev2Profile)
  | saveProfileSettings (uuid : Uuid) (name username : String)
  | createXrayProfile (kind : String)
  | createWarpProfile (text : String)
  | createIkev2Profile (name : String)
  | refreshSubscription (id : String) (activeUuid : Option Uuid) (links : List String)
  | removeSubscription (id : String) (activeUuid : Option Uuid)

namespace AppState

/-- One call: the state after it, and whether it did what was asked for. -/
def perform (pf : Platform) (s : AppState) : Operation → AppState × Bool
  | .importConfig configText preferredName =>
    let outcome := VpnEngine.importConfig pf s configText preferredName
    (outcome.state, outcome.profile.isSome)
  | .importZip archive =>
    let imported := VpnEngine.importZip pf s archive
    (imported.1, 0 < imported.2.1)
  | .applyManifest manifest current => (BackupManager.applyManifest manifest s current, true)
  | .deleteProfile uuid => (VpnEngine.deleteProfile s uuid, true)
  | .renameProfile uuid newName => (s.renameProfile uuid newName, true)
  | .toggleFavourite uuid => (s.toggleFavourite uuid, true)
  | .select uuid name => (ProfileStore.select s uuid name, true)
  | .clearSelection uuid => (ProfileStore.clearSelectionIfMatches s uuid, true)
  | .setCredentials uuid c persist => (VpnEngine.setCredentials s uuid c persist, true)
  | .saveXraySettings uuid rawLink name => VpnEngine.saveXraySettings pf s uuid rawLink name
  | .saveWireGuardSettings uuid rawConfig name => VpnEngine.saveWireGuardSettings pf s uuid rawConfig name
  | .saveIkev2Settings p => (VpnEngine.saveIkev2Settings s p, true)
  | .saveProfileSettings uuid name username => VpnEngine.saveProfileSettings s uuid name username
  | .createXrayProfile kind =>
    match MainViewModel.createXrayProfile pf s kind with
    | some (s', _) => (s', true)
    | none => (s, false)
  | .createWarpProfile text =>
    match MainViewModel.createWarpProfile pf s text with
    | some (s', _) => (s', true)
    | none => (s, false)
  | .createIkev2Profile name => (MainViewModel.createIkev2Profile pf s name, true)
  | .refreshSubscription id active links =>
    ({ s with
      xray := (XraySubscriptionStore.replaceProfiles (pf.newUuid .xray) pf.doubles s.xray id active links).1 },
      true)
  | .removeSubscription id active => ({ s with xray := s.xray.deleteBySubscription id active }, true)

/-- The profiles that a call is about: those whose uuids it was given, or that a subscription owns. -/
def touches (s : AppState) : Operation → Uuid → Prop
  | .applyManifest _ current => (· ∈ current.map (·.uuid))
  | .deleteProfile uuid | .renameProfile uuid _ | .toggleFavourite uuid | .setCredentials uuid _ _
  | .saveXraySettings uuid _ _ | .saveWireGuardSettings uuid _ _ | .saveProfileSettings uuid _ _ => (· = uuid)
  | .saveIkev2Settings p => (· = p.uuid)
  | .refreshSubscription id _ _ | .removeSubscription id _ => fun u => s.xray.subs u = some id
  | _ => fun _ => False

end AppState

/-- The profiles that a call saves in full: it makes them where they are not there. -/
def Operation.saves : Operation → Uuid → Prop
  | .saveXraySettings uuid _ _ | .saveWireGuardSettings uuid _ _ => (· = uuid)
  | .saveIkev2Settings p => (· = p.uuid)
  | _ => fun _ => False

namespace AppState

/-- The uuids of one store. -/
def keys (s : AppState) : Protocol → List Uuid
  | .openvpn => s.openVpn.profiles.map (·.uuid)
  | .wireguard => s.wireGuard.files.map (·.uuid)
  | .xray => s.xray.uuids
  | .ikev2 => s.ikev2.rows.map (·.profile.uuid)

/-- A uuid that the store of `p` has drawn. -/
def Drawn (pf : Platform) (s : AppState) (p : Protocol) (u : Uuid) : Prop :=
  ∃ i < s.drawn p, pf.newUuid p i = u

/-- A save is of a profile of its protocol, a star of some profile: its uuid was drawn before. -/
def Admissible (pf : Platform) (s : AppState) : Operation → Prop
  | .saveXraySettings uuid _ _ => s.Drawn pf .xray uuid
  | .saveWireGuardSettings uuid _ _ => s.Drawn pf .wireguard uuid
  | .saveIkev2Settings p => s.Drawn pf .ikev2 p.uuid
  | .toggleFavourite uuid => ∃ p, s.Drawn pf p uuid
  | .applyManifest _ current => ∀ p ∈ current, ∃ q, s.Drawn pf q p.uuid
  | _ => True

end AppState

/-! ## 2. What a call leaves alone -/

/-- Of a profile whose uuid is not in `U` the two states hold the same. -/
structure SameBut (U : Uuid → Prop) (s s' : AppState) : Prop where
  openVpn : ∀ p, ¬ U p.uuid → (p ∈ s'.openVpn.profiles ↔ p ∈ s.openVpn.profiles)
  wireGuard : ∀ f, ¬ U f.uuid → (f ∈ s'.wireGuard.files ↔ f ∈ s.wireGuard.files)
  xray : ∀ f, ¬ U f.uuid → (f ∈ s'.xray.files ↔ f ∈ s.xray.files)
  ikev2 : ∀ r, ¬ U r.profile.uuid → (r ∈ s'.ikev2.rows ↔ r ∈ s.ikev2.rows)
  wireGuardNames : ∀ u, ¬ U u → s'.wireGuard.names u = s.wireGuard.names u
  xrayNames : ∀ u, ¬ U u → s'.xray.names u = s.xray.names u
  favourites : ∀ u, ¬ U u → (u ∈ s'.favourites ↔ u ∈ s.favourites)

namespace SameBut

variable {U V : Uuid → Prop} {s s' s'' : AppState} {pf : Platform}

theorem refl (U : Uuid → Prop) (s : AppState) : SameBut U s s :=
  ⟨fun _ _ => Iff.rfl, fun _ _ => Iff.rfl, fun _ _ => Iff.rfl, fun _ _ => Iff.rfl, fun _ _ => rfl,
    fun _ _ => rfl, fun _ _ => Iff.rfl⟩

theorem symm (h : SameBut U s s') : SameBut U s' s where
  openVpn p hp := (h.openVpn p hp).symm
  wireGuard f hf := (h.wireGuard f hf).symm
  xray f hf := (h.xray f hf).symm
  ikev2 r hr := (h.ikev2 r hr).symm
  wireGuardNames u hu := (h.wireGuardNames u hu).symm
  xrayNames u hu := (h.xrayNames u hu).symm
  favourites u hu := (h.favourites u hu).symm

theorem trans (h : SameBut U s s') (h' : SameBut U s' s'') : SameBut U s s'' where
  openVpn p hp := (h'.openVpn p hp).trans (h.openVpn p hp)
  wireGuard f hf := (h'.wireGuard f hf).trans (h.wireGuard f hf)
  xray f hf := (h'.xray f hf).trans (h.xray f hf)
  ikev2 r hr := (h'.ikev2 r hr).trans (h.ikev2 r hr)
  wireGuardNames u hu := (h'.wireGuardNames u hu).trans (h.wireGuardNames u hu)
  xrayNames u hu := (h'.xrayNames u hu).trans (h.xrayNames u hu)
  favourites u hu := (h'.favourites u hu).trans (h.favourites u hu)

theorem mono (h : SameBut U s s') (hle : ∀ u, U u → V u) : SameBut V s s' where
  openVpn p hp := h.openVpn p fun hu => hp (hle _ hu)
  wireGuard f hf := h.wireGuard f fun hu => hf (hle _ hu)
  xray f hf := h.xray f fun hu => hf (hle _ hu)
  ikev2 r hr := h.ikev2 r fun hu => hr (hle _ hu)
  wireGuardNames u hu := h.wireGuardNames u fun hv => hu (hle _ hv)
  xrayNames u hu := h.xrayNames u fun hv => hu (hle _ hv)
  favourites u hu := h.favourites u fun hv => hu (hle _ hv)

theorem mem_of_mem (h : SameBut U s s') {q : Saved} (hu : ¬ U q.uuid) (hq : q ∈ s.saved pf) :
    q ∈ s'.saved pf := by
  have hstar : ∀ u, ¬ U u → decide (u ∈ s'.favourites) = decide (u ∈ s.favourites) :=
    fun u hu => decide_eq_decide.2 (h.favourites u hu)
  unfold AppState.saved at hq ⊢
  simp only [List.mem_append] at hq ⊢
  rcases hq with ((hq | hq) | hq) | hq
  · obtain ⟨p, hp, rfl⟩ := List.mem_map.1 hq
    refine .inl (.inl (.inl (List.mem_map.2 ⟨p, (h.openVpn p hu).2 hp, ?_⟩)))
    rw [hstar p.uuid hu]
  · obtain ⟨f, hf, rfl⟩ := List.mem_map.1 hq
    obtain ⟨hfile, hparsed⟩ := List.mem_filter.1 hf
    refine .inl (.inl (.inr (List.mem_map.2 ⟨f, List.mem_filter.2 ⟨(h.wireGuard f hu).2 hfile, hparsed⟩, ?_⟩)))
    unfold WireGuardStore.name
    rw [hstar f.uuid hu, h.wireGuardNames f.uuid hu]
  · obtain ⟨f, hf, rfl⟩ := List.mem_map.1 hq
    obtain ⟨hfile, hparsed⟩ := List.mem_filter.1 hf
    refine .inl (.inr (List.mem_map.2 ⟨f, List.mem_filter.2 ⟨(h.xray f hu).2 hfile, hparsed⟩, ?_⟩))
    unfold XrayStore.name
    rw [hstar f.uuid hu, h.xrayNames f.uuid hu]
  · obtain ⟨r, hr, rfl⟩ := List.mem_map.1 hq
    refine .inr (List.mem_map.2 ⟨r, (h.ikev2 r hu).2 hr, ?_⟩)
    unfold AppState.savedRow
    rw [hstar r.profile.uuid hu]

/-- **What is saved under a uuid that is not in `U` is the same.** -/
theorem mem_saved_iff (h : SameBut U s s') {q : Saved} (hu : ¬ U q.uuid) :
    q ∈ s'.saved pf ↔ q ∈ s.saved pf := ⟨h.symm.mem_of_mem hu, h.mem_of_mem hu⟩

end SameBut

/-! ### The parts of a state -/

section Parts

variable {s : AppState} {u : Uuid}

theorem mem_filter_ne {α : Type} {key : α → Uuid} {l : List α} {a : α} (h : key a ≠ u) :
    a ∈ l.filter (fun b => key b ≠ u) ↔ a ∈ l := by
  rw [List.mem_filter, decide_eq_true h]
  exact and_iff_left rfl

/-- Where one entry of a key is written in place, the others are as they were. -/
theorem mem_map_update {α : Type} (key : α → Uuid) {l : List α} {change : α → α} {a : α}
    (hkey : ∀ b, key b = u → key (change b) = u) (h : key a ≠ u) :
    a ∈ l.map (fun b => if key b = u then change b else b) ↔ a ∈ l := by
  rw [List.mem_map]
  constructor
  · rintro ⟨b, hb, rfl⟩
    by_cases hu : key b = u
    · rw [if_pos hu] at h
      exact absurd (hkey b hu) h
    · rw [if_neg hu]
      exact hb
  · exact fun ha => ⟨a, ha, if_neg h⟩

theorem keys_map_update {α : Type} (key : α → Uuid) {l : List α} {change : α → α}
    (hkey : ∀ b, key b = u → key (change b) = u) :
    (l.map fun b => if key b = u then change b else b).map key = l.map key := by
  rw [List.map_map]
  refine List.map_congr_left fun b _ => ?_
  rw [Function.comp_apply]
  split
  · rename_i hb
    rw [hkey b hb, hb]
  · rfl

theorem sameBut_openVpn {pm : ProfileManager}
    (h : ∀ p : OpenVpnProfile, p.uuid ≠ u → (p ∈ pm.profiles ↔ p ∈ s.openVpn.profiles)) :
    SameBut (· = u) s { s with openVpn := pm } :=
  { SameBut.refl (· = u) s with openVpn := h }

theorem sameBut_wireGuard {store : WireGuardStore}
    (h : ∀ f : WireGuardFile, f.uuid ≠ u → (f ∈ store.files ↔ f ∈ s.wireGuard.files))
    (hnames : ∀ v, v ≠ u → store.names v = s.wireGuard.names v) :
    SameBut (· = u) s { s with wireGuard := store } :=
  { SameBut.refl (· = u) s with wireGuard := h, wireGuardNames := hnames }

theorem sameBut_xray {U : Uuid → Prop} {store : XrayStore}
    (h : ∀ f : XrayFile, ¬ U f.uuid → (f ∈ store.files ↔ f ∈ s.xray.files))
    (hnames : ∀ v, ¬ U v → store.names v = s.xray.names v) :
    SameBut U s { s with xray := store } :=
  { SameBut.refl U s with xray := h, xrayNames := hnames }

theorem sameBut_ikev2 {store : Ikev2Store}
    (h : ∀ r : Ikev2Row, r.profile.uuid ≠ u → (r ∈ store.rows ↔ r ∈ s.ikev2.rows)) :
    SameBut (· = u) s { s with ikev2 := store } :=
  { SameBut.refl (· = u) s with ikev2 := h }

theorem setPref_of_ne {prefs : Uuid → Option String} {value : Option String} {v : Uuid} (h : v ≠ u) :
    setPref prefs u value v = prefs v := if_neg h

theorem Ikev2Store.mem_save_iff {s : Ikev2Store} {p : Ikev2Profile} {r : Ikev2Row}
    (h : r.profile.uuid ≠ p.uuid) : r ∈ (s.save p).rows ↔ r ∈ s.rows := by
  unfold Ikev2Store.save
  dsimp only
  split
  · exact mem_map_update (fun r : Ikev2Row => r.profile.uuid) (fun _ _ => rfl) h
  · rw [List.mem_append, List.mem_singleton]
    refine or_iff_left ?_
    rintro rfl
    exact h rfl

/-- A save inserts the uuid, if it is not there. -/
theorem Ikev2Store.keys_save (s : Ikev2Store) (p : Ikev2Profile) :
    (s.save p).rows.map (·.profile.uuid)
      = if p.uuid ∈ s.rows.map (·.profile.uuid) then s.rows.map (·.profile.uuid)
        else s.rows.map (·.profile.uuid) ++ [p.uuid] := by
  have hsome : (s.profile p.uuid).isSome = true ↔ p.uuid ∈ s.rows.map (·.profile.uuid) := by
    unfold Ikev2Store.profile
    rw [Option.isSome_map, List.find?_isSome, List.mem_map]
    simp only [beq_iff_eq]
  unfold Ikev2Store.save
  dsimp only
  by_cases h : p.uuid ∈ s.rows.map (·.profile.uuid)
  · rw [if_pos (hsome.2 h), if_pos h]
    exact keys_map_update (fun r : Ikev2Row => r.profile.uuid) fun _ _ => rfl
  · rw [if_neg fun hs => h (hsome.1 hs), if_neg h, List.map_append]
    rfl

end Parts

/-! ## 3. What the calls keep -/

namespace AppState

/-- **What every call keeps.** `injective` is what is relied on of random uuids. -/
structure Kept (pf : Platform) (s : AppState) : Prop where
  injective : ∀ p q m n, pf.newUuid p m = pf.newUuid q n → p = q ∧ m = n
  nodup : ∀ p, (s.keys p).Nodup
  drawn : ∀ p, ∀ u ∈ s.keys p, s.Drawn pf p u
  stars : ∀ u ∈ s.favourites, ∃ p, s.Drawn pf p u

section Kept

variable {pf : Platform} {s s' : AppState}

theorem mem_uuids_iff {u : Uuid} : u ∈ s.uuids ↔ ∃ p, u ∈ s.keys p := by
  unfold uuids
  simp only [List.mem_append]
  constructor
  · rintro (((h | h) | h) | h)
    · exact ⟨.openvpn, h⟩
    · exact ⟨.wireguard, h⟩
    · exact ⟨.xray, h⟩
    · exact ⟨.ikev2, h⟩
  · rintro ⟨p, h⟩
    cases p with
    | openvpn => exact .inl (.inl (.inl h))
    | wireguard => exact .inl (.inl (.inr h))
    | xray => exact .inl (.inr h)
    | ikev2 => exact .inr h

theorem Drawn.mono {p : Protocol} {u : Uuid} (h : s.Drawn pf p u) (hle : s.drawn p ≤ s'.drawn p) :
    s'.Drawn pf p u := by
  obtain ⟨i, hi, hu⟩ := h
  exact ⟨i, Nat.lt_of_lt_of_le hi hle, hu⟩

/-- No uuid is in two stores. -/
theorem Kept.unique (h : s.Kept pf) {p q : Protocol} {u : Uuid} (hp : u ∈ s.keys p) (hq : u ∈ s.keys q) :
    p = q := by
  obtain ⟨i, -, hi⟩ := h.drawn p u hp
  obtain ⟨j, -, hj⟩ := h.drawn q u hq
  exact (h.injective p q i j (hi.trans hj.symm)).1

theorem Kept.distinct (h : s.Kept pf) : s.Distinct := by
  have hne : ∀ {p q : Protocol}, p ≠ q → ∀ u ∈ s.keys p, ∀ v ∈ s.keys q, u ≠ v :=
    fun hpq u hu v hv he => hpq (h.unique hu (he ▸ hv))
  unfold Distinct uuids
  simp only [List.nodup_append, List.mem_append]
  refine ⟨⟨⟨h.nodup .openvpn, h.nodup .wireguard, hne (p := .openvpn) (q := .wireguard) (by decide)⟩,
    h.nodup .xray, ?_⟩, h.nodup .ikev2, ?_⟩
  · rintro u (hu | hu)
    · exact hne (p := .openvpn) (q := .xray) (by decide) u hu
    · exact hne (p := .wireguard) (q := .xray) (by decide) u hu
  · rintro u ((hu | hu) | hu)
    · exact hne (p := .openvpn) (q := .ikev2) (by decide) u hu
    · exact hne (p := .wireguard) (q := .ikev2) (by decide) u hu
    · exact hne (p := .xray) (q := .ikev2) (by decide) u hu

theorem Kept.fresh (h : s.Kept pf) : s.Fresh pf := by
  refine ⟨h.injective, fun p n hn hm => ?_⟩
  obtain ⟨q, hq⟩ := mem_uuids_iff.1 hm
  obtain ⟨i, hi, he⟩ := h.drawn q _ hq
  obtain ⟨rfl, rfl⟩ := h.injective q p i n he
  omega

/-- **The store that has a uuid is the one that is found for it.** -/
theorem Kept.protocolOf_eq (h : s.Kept pf) {p : Protocol} {u : Uuid} (hu : u ∈ s.keys p) :
    s.protocolOf u = p := by
  have hikev2 : (s.ikev2.profile u).isSome = true ↔ u ∈ s.keys .ikev2 := by
    unfold Ikev2Store.profile keys
    rw [Option.isSome_map, List.find?_isSome, List.mem_map]
    simp only [beq_iff_eq]
  unfold protocolOf
  split
  · rename_i hw
    exact h.unique (q := p) (p := .wireguard) hw hu
  · rename_i hw
    split
    · rename_i hx
      exact h.unique (q := p) (p := .xray) hx hu
    · rename_i hx
      split
      · rename_i hi
        exact h.unique (q := p) (hikev2.1 hi) hu
      · rename_i hi
        cases p with
        | openvpn => rfl
        | wireguard => exact absurd hu hw
        | xray => exact absurd hu hx
        | ikev2 => exact absurd (hikev2.2 hu) hi

/-- A uuid that the store of `p` draws on the way from `s` to `s'`. -/
def Draws (pf : Platform) (s s' : AppState) (p : Protocol) (u : Uuid) : Prop :=
  ∃ i, s.drawn p ≤ i ∧ i < s'.drawn p ∧ pf.newUuid p i = u

/-- From `s` to `s'` the store of `p` keeps some of its uuids, and those that it gets, it draws, or had
    drawn before where they are in `W`. -/
structure Moved (pf : Platform) (W : Uuid → Prop) (s s' : AppState) (p : Protocol) : Prop where
  le : s.drawn p ≤ s'.drawn p
  keys : ∃ kept new : List Uuid, kept.Sublist (s.keys p) ∧ (s'.keys p).Perm (kept ++ new) ∧ new.Nodup ∧
    ∀ u ∈ new, u ∉ kept ∧ (Draws pf s s' p u ∨ W u ∧ s.Drawn pf p u)

variable {W : Uuid → Prop}

theorem Moved.of_sublist {p : Protocol} (hdrawn : s'.drawn p = s.drawn p)
    (hkeys : (s'.keys p).Sublist (s.keys p)) : Moved pf W s s' p :=
  ⟨hdrawn.ge, s'.keys p, [], hkeys, by rw [List.append_nil], List.nodup_nil,
    fun _ hu => absurd hu List.not_mem_nil⟩

/-- A uuid of the store that is written. -/
theorem Moved.of_write {p : Protocol} {kept : List Uuid} {u : Uuid} (hdrawn : s'.drawn p = s.drawn p)
    (hkept : kept.Sublist (s.keys p)) (hnot : u ∉ kept) (hkeys : s'.keys p = kept ++ [u])
    (hu : s.Drawn pf p u) (hwritten : W u) : Moved pf W s s' p := by
  refine ⟨hdrawn.ge, kept, [u], hkept, .of_eq hkeys, List.nodup_singleton u, fun v hv => ?_⟩
  rw [List.mem_singleton.1 hv]
  exact ⟨hnot, .inr ⟨hwritten, hu⟩⟩

/-- Uuids that are drawn one after the other. -/
theorem Moved.of_drawn (h : s.Kept pf) {p : Protocol} {kept new : List Uuid}
    (hkept : kept.Sublist (s.keys p)) (hkeys : s'.keys p = kept ++ new)
    (hnew : new = drawnFrom (pf.newUuid p) (s.drawn p) new.length)
    (hdrawn : s'.drawn p = s.drawn p + new.length) : Moved pf W s s' p := by
  refine ⟨Nat.le.intro hdrawn.symm, kept, new, hkept, .of_eq hkeys, ?_, fun u hu => ?_⟩
  · rw [hnew]
    exact Grown.nodup_drawnFrom h.fresh p _ _
  · rw [hnew] at hu
    obtain ⟨i, hlo, hhi, rfl⟩ := Grown.mem_drawnFrom hu
    refine ⟨fun hm => ?_, .inl ⟨i, hlo, Nat.lt_of_lt_of_eq hhi hdrawn.symm, rfl⟩⟩
    obtain ⟨j, hj, he⟩ := h.drawn p _ (hkept.subset hm)
    obtain ⟨-, rfl⟩ := h.injective p p j i he
    omega

/-- **The step lemma**: where every store moves so, and only uuids that were drawn are starred. -/
theorem Kept.step (h : s.Kept pf) (hmoved : ∀ p, Moved pf W s s' p)
    (hstars : ∀ u ∈ s'.favourites, u ∈ s.favourites ∨ ∃ p, s.Drawn pf p u) : s'.Kept pf := by
  refine ⟨h.injective, fun p => ?_, fun p u hu => ?_, fun u hu => ?_⟩
  · obtain ⟨kept, new, hkept, hkeys, hnew, hof⟩ := (hmoved p).keys
    rw [hkeys.nodup_iff, List.nodup_append]
    exact ⟨(h.nodup p).sublist hkept, hnew, fun u hu v hv he => (hof v hv).1 (he ▸ hu)⟩
  · obtain ⟨kept, new, hkept, hkeys, -, hof⟩ := (hmoved p).keys
    rcases List.mem_append.1 (hkeys.subset hu) with hold | hadded
    · exact (h.drawn p u (hkept.subset hold)).mono (hmoved p).le
    · rcases (hof u hadded).2 with ⟨i, -, hi, he⟩ | ⟨-, hdrawn⟩
      · exact ⟨i, hi, he⟩
      · exact hdrawn.mono (hmoved p).le
  · rcases hstars u hu with hold | ⟨p, hp⟩
    · obtain ⟨p, hp⟩ := h.stars u hold
      exact ⟨p, hp.mono (hmoved p).le⟩
    · exact ⟨p, hp.mono (hmoved p).le⟩

end Kept

end AppState

/-! ## 4. Every call -/

namespace AppState

/-- A uuid that was drawn on the way from `s` to `s'`. -/
def NewUuid (pf : Platform) (s s' : AppState) (u : Uuid) : Prop := ∃ p, Draws pf s s' p u

/-- **What a call may do**: off the uuids in `U` and those it draws nothing changes, the stores move and
    get those in `W` at most, and the stars are those there were or of uuids that were drawn. -/
structure Effect (pf : Platform) (U W : Uuid → Prop) (s s' : AppState) : Prop where
  same : SameBut (fun u => U u ∨ NewUuid pf s s' u) s s'
  moved : ∀ p, Moved pf W s s' p
  stars : ∀ u ∈ s'.favourites, u ∈ s.favourites ∨ ∃ p, s.Drawn pf p u

section Effects

variable {pf : Platform} {s s' : AppState} {U W : Uuid → Prop}

theorem Effect.kept (h : Effect pf U W s s') (hs : s.Kept pf) : s'.Kept pf := hs.step h.moved h.stars

theorem Effect.refl (pf : Platform) (U W : Uuid → Prop) (s : AppState) : Effect pf U W s s :=
  ⟨.refl _ s, fun _ => .of_sublist rfl (List.Sublist.refl _), fun _ hu => .inl hu⟩

theorem Effect.mono {U' W' : Uuid → Prop} (h : Effect pf U W s s') (hle : ∀ u, U u → U' u)
    (hwritten : ∀ u, W u → W' u) : Effect pf U' W' s s' := by
  refine ⟨h.same.mono fun u hu => hu.imp_left (hle u), fun p => ⟨(h.moved p).le, ?_⟩, h.stars⟩
  obtain ⟨kept, new, hkept, hkeys, hnew, hof⟩ := (h.moved p).keys
  exact ⟨kept, new, hkept, hkeys, hnew, fun u hu => (hof u hu).imp_right (.imp_right (.imp_left (hwritten u)))⟩

/-- **A store gets no uuid but those that it draws and those in `W`.** -/
theorem Effect.mem_keys (h : Effect pf U W s s') {p : Protocol} {u : Uuid} (hu : u ∈ s'.keys p) :
    u ∈ s.keys p ∨ NewUuid pf s s' u ∨ W u := by
  obtain ⟨kept, new, hkept, hkeys, -, hof⟩ := (h.moved p).keys
  rcases List.mem_append.1 (hkeys.subset hu) with hold | hadded
  · exact .inl (hkept.subset hold)
  · exact .inr ((hof u hadded).2.imp (fun hd => ⟨p, hd⟩) And.left)

/-- A call that writes within the stores: no store gets or loses a uuid. -/
theorem Effect.of_edit (hsame : SameBut U s s') (hkeys : ∀ p, s'.keys p = s.keys p)
    (hdrawn : ∀ p, s'.drawn p = s.drawn p)
    (hstars : ∀ u ∈ s'.favourites, u ∈ s.favourites ∨ ∃ p, s.Drawn pf p u) : Effect pf U W s s' :=
  ⟨hsame.mono fun _ hu => .inl hu, fun p => .of_sublist (hdrawn p) (by rw [hkeys p]), hstars⟩

/-- A call that only takes from the stores. -/
structure Removal (U : Uuid → Prop) (s s' : AppState) : Prop where
  same : SameBut U s s'
  keys : ∀ p, (s'.keys p).Sublist (s.keys p)
  drawn : ∀ p, s'.drawn p = s.drawn p
  favourites : s'.favourites = s.favourites

theorem Removal.effect (h : Removal U s s') : Effect pf U W s s' :=
  ⟨h.same.mono fun _ hu => .inl hu, fun p => .of_sublist (h.drawn p) (h.keys p),
    fun _ hu => .inl (h.favourites ▸ hu)⟩

theorem Removal.trans {s'' : AppState} (h : Removal U s s') (h' : Removal U s' s'') : Removal U s s'' :=
  ⟨h.same.trans h'.same, fun p => (h'.keys p).trans (h.keys p), fun p => (h'.drawn p).trans (h.drawn p),
    h'.favourites.trans h.favourites⟩

/-- Calls that write within the stores, one after the other. -/
structure Edit (pf : Platform) (U : Uuid → Prop) (s s' : AppState) : Prop where
  same : SameBut U s s'
  keys : ∀ p, s'.keys p = s.keys p
  drawn : ∀ p, s'.drawn p = s.drawn p
  stars : ∀ u ∈ s'.favourites, u ∈ s.favourites ∨ ∃ p, s.Drawn pf p u

theorem Edit.effect (h : Edit pf U s s') : Effect pf U W s s' := .of_edit h.same h.keys h.drawn h.stars

theorem Edit.refl (pf : Platform) (U : Uuid → Prop) (s : AppState) : Edit pf U s s :=
  ⟨.refl U s, fun _ => rfl, fun _ => rfl, fun _ hu => .inl hu⟩

theorem Edit.trans {s'' : AppState} (h : Edit pf U s s') (h' : Edit pf U s' s'') : Edit pf U s s'' where
  same := h.same.trans h'.same
  keys p := (h'.keys p).trans (h.keys p)
  drawn p := (h'.drawn p).trans (h.drawn p)
  stars u hu := by
    rcases h'.stars u hu with hold | ⟨p, hp⟩
    · exact h.stars u hold
    · exact .inr ⟨p, hp.mono (h.drawn p).le⟩

theorem Edit.mono {V : Uuid → Prop} (h : Edit pf U s s') (hle : ∀ u, U u → V u) : Edit pf V s s' :=
  ⟨h.same.mono hle, h.keys, h.drawn, h.stars⟩

theorem edit_openVpn (s : AppState) (u : Uuid) {change : OpenVpnProfile → OpenVpnProfile}
    (h : ∀ p, (change p).uuid = p.uuid) :
    Edit pf (· = u) s { s with openVpn := s.openVpn.update u change } where
  same := sameBut_openVpn fun _ hp =>
    mem_map_update OpenVpnProfile.uuid (fun b hb => (h b).trans hb) hp
  keys p := by
    cases p with
    | openvpn => exact keys_map_update OpenVpnProfile.uuid fun b hb => (h b).trans hb
    | wireguard => rfl
    | xray => rfl
    | ikev2 => rfl
  drawn p := by cases p <;> rfl
  stars _ hv := .inl hv

theorem edit_renameProfile (s : AppState) (u : Uuid) (name : String) :
    Edit pf (· = u) s (s.renameProfile u name) := by
  unfold renameProfile
  split
  · unfold WireGuardStore.rename
    split
    · exact .refl pf _ s
    · exact ⟨sameBut_wireGuard (fun _ _ => Iff.rfl) fun _ hv => setPref_of_ne hv,
        fun p => by cases p <;> rfl, fun p => by cases p <;> rfl, fun _ hv => .inl hv⟩
  · unfold XrayStore.rename
    split
    · exact .refl pf _ s
    · exact ⟨sameBut_xray (fun _ _ => Iff.rfl) fun _ hv => setPref_of_ne hv,
        fun p => by cases p <;> rfl, fun p => by cases p <;> rfl, fun _ hv => .inl hv⟩
  · split
    · rename_i p hp
      obtain ⟨r, hfind, rfl⟩ := Option.map_eq_some_iff.1 hp
      have hbeq := List.find?_some hfind
      have huuid : r.profile.uuid = u := beq_iff_eq.1 hbeq
      have hmem : u ∈ s.ikev2.rows.map (·.profile.uuid) :=
        huuid ▸ List.mem_map_of_mem (List.mem_of_find?_eq_some hfind)
      refine ⟨sameBut_ikev2 fun r' hr' => Ikev2Store.mem_save_iff (huuid ▸ hr'), fun p => ?_, fun p => ?_,
        fun _ hv => .inl hv⟩
      · cases p with
        | ikev2 => exact (Ikev2Store.keys_save s.ikev2 _).trans (if_pos (huuid ▸ hmem))
        | openvpn => rfl
        | wireguard => rfl
        | xray => rfl
      · cases p with
        | ikev2 =>
          show (s.ikev2.save _).drawn = s.ikev2.drawn
          unfold Ikev2Store.save
          dsimp only
          split <;> rfl
        | openvpn => rfl
        | wireguard => rfl
        | xray => rfl
    · exact .refl pf _ s
  · exact edit_openVpn s u fun _ => rfl

theorem edit_setCredentials (s : AppState) (u : Uuid) (c : Credentials) :
    Edit pf (· = u) s (s.setCredentials u c) := by
  unfold setCredentials
  split
  · exact .refl pf _ s
  · exact edit_openVpn s u fun _ => rfl

theorem mem_toggleFavourite_of_ne {u v : Uuid} (h : v ≠ u) :
    v ∈ (s.toggleFavourite u).favourites ↔ v ∈ s.favourites := by
  unfold toggleFavourite
  dsimp only
  split
  · rw [List.mem_filter, decide_eq_true h, and_iff_left rfl]
  · rw [List.mem_append, List.mem_singleton, or_iff_left h]

theorem edit_toggleFavourite (s : AppState) {u : Uuid} (hu : ∃ p, s.Drawn pf p u) :
    Edit pf (· = u) s (s.toggleFavourite u) where
  same := { SameBut.refl (· = u) s with favourites := fun _ hv => mem_toggleFavourite_of_ne hv }
  keys p := by cases p <;> rfl
  drawn p := by cases p <;> rfl
  stars v hv := by
    by_cases hne : v = u
    · exact .inr (hne ▸ hu)
    · exact .inl ((mem_toggleFavourite_of_ne hne).1 hv)

theorem edit_tile (s : AppState) (U : Uuid → Prop) (tile : Option (Uuid × String)) :
    Edit pf U s { s with tile := tile } :=
  { Edit.refl pf U s with same := { SameBut.refl U s with } }

theorem edit_applyTo (m : JsonObject) (s : AppState) {p : Profile} (hp : ∃ q, s.Drawn pf q p.uuid) :
    Edit pf (· = p.uuid) s (BackupManager.applyTo m s p) := by
  have hrenamed : ∀ name : String,
      Edit pf (· = p.uuid) s (if name ≠ p.name then s.renameProfile p.uuid name else s) := by
    intro name
    split
    · exact edit_renameProfile s p.uuid _
    · exact .refl pf _ s
  have hstar : ∀ (t : AppState) (c : Prop) [Decidable c], (∃ q, t.Drawn pf q p.uuid) →
      Edit pf (· = p.uuid) t (if c then t.toggleFavourite p.uuid else t) := by
    intro t c _ ht
    split
    · exact edit_toggleFavourite t ht
    · exact .refl pf _ t
  have htile : ∀ (t : AppState) (tile : Option (Uuid × String)) (c : Prop) [Decidable c],
      Edit pf (· = p.uuid) t (if c then { t with tile := tile } else t) := by
    intro t tile c _
    split
    · exact edit_tile t _ tile
    · exact .refl pf _ t
  -- the star and the tile come last, whatever was renamed before
  have hlast : ∀ {t : AppState} (c d : Prop) [Decidable c] [Decidable d] (tile : Option (Uuid × String)),
      Edit pf (· = p.uuid) s t → Edit pf (· = p.uuid) s
        (if d then { (if c then t.toggleFavourite p.uuid else t) with tile := tile }
          else if c then t.toggleFavourite p.uuid else t) := by
    intro t c d _ _ tile hbefore
    refine (hbefore.trans (hstar _ _ ?_)).trans (htile _ _ _)
    obtain ⟨q, hq⟩ := hp
    exact ⟨q, hq.mono (hbefore.drawn q).ge⟩
  unfold BackupManager.applyTo
  cases BackupManager.originalName m p with
  | none =>
    cases BackupManager.credentialsFor m p with
    | none => exact hlast _ _ _ (.refl pf _ s)
    | some c => exact hlast _ _ _ (edit_setCredentials s p.uuid c)
  | some name =>
    cases BackupManager.credentialsFor m p with
    | none => exact hlast _ _ _ (hrenamed name)
    | some c => exact hlast _ _ _ ((hrenamed name).trans (edit_setCredentials _ p.uuid c))

/-- The manifest writes to the profiles of the list that it is applied to. -/
theorem edit_applyManifest (m : JsonObject) (current : List Profile) (s : AppState)
    (h : ∀ p ∈ current, ∃ q, s.Drawn pf q p.uuid) :
    Edit pf (· ∈ current.map (·.uuid)) s (BackupManager.applyManifest m s current) := by
  induction current generalizing s with
  | nil => exact .refl pf _ s
  | cons p current ih =>
    have hstep := edit_applyTo m s (h p List.mem_cons_self)
    have hrest := ih (BackupManager.applyTo m s p) fun p' hp' => by
      obtain ⟨q, hq⟩ := h p' (List.mem_cons_of_mem p hp')
      exact ⟨q, hq.mono (hstep.drawn q).ge⟩
    refine (hstep.mono fun u hu => ?_).trans (hrest.mono fun u hu => ?_)
    · exact hu ▸ List.mem_cons_self
    · exact List.mem_cons_of_mem _ hu

/-- What an import adds. -/
theorem Effect.of_grown {new : NewProfiles} (h : Grown pf s s' new) (hs : s.Kept pf) :
    Effect pf (fun _ => False) W s s' := by
  have hnew : ∀ u, ¬ (False ∨ NewUuid pf s s' u) → u ∉ new.uuids := by
    intro u hu hm
    obtain ⟨p, i, hi⟩ := h.drawn_of_mem hm
    exact hu (.inr ⟨p, i, hi⟩)
  have hparts : ∀ u, u ∉ new.uuids → u ∉ new.openVpn.map (·.uuid) ∧ u ∉ new.wireGuard.map (·.uuid) ∧
      u ∉ new.xray.map (·.uuid) ∧ u ∉ new.ikev2.map (·.profile.uuid) := by
    intro u hu
    unfold NewProfiles.uuids at hu
    simpa only [List.mem_append, not_or, and_assoc] using hu
  refine ⟨⟨fun p hp => ?_, fun f hf => ?_, fun f hf => ?_, fun r hr => ?_, fun u hu => ?_, fun u hu => ?_,
    fun u _ => ?_⟩, fun p => ?_, fun u hu => .inl (h.favourites ▸ hu)⟩
  · rw [h.openVpn.profiles, List.mem_append]
    exact or_iff_left fun hm => (hparts _ (hnew _ hp)).1 (List.mem_map_of_mem hm)
  · rw [h.wireGuard.files, List.mem_append]
    exact or_iff_left fun hm => (hparts _ (hnew _ hf)).2.1 (List.mem_map_of_mem hm)
  · rw [h.xray.files, List.mem_append]
    exact or_iff_left fun hm => (hparts _ (hnew _ hf)).2.2.1 (List.mem_map_of_mem hm)
  · rw [h.ikev2.rows, List.mem_append]
    exact or_iff_left fun hm => (hparts _ (hnew _ hr)).2.2.2 (List.mem_map_of_mem hm)
  · exact h.wireGuard.names u (hparts u (hnew u hu)).2.1
  · exact h.xray.names u (hparts u (hnew u hu)).2.2.1
  · rw [h.favourites]
  · cases p with
    | openvpn =>
      exact .of_drawn hs (List.Sublist.refl _) (by unfold keys; rw [h.openVpn.profiles, List.map_append])
        (by rw [List.length_map]; exact h.openVpn.uuids) (by rw [List.length_map]; exact h.openVpn.drawn)
    | wireguard =>
      exact .of_drawn hs (List.Sublist.refl _) (by unfold keys; rw [h.wireGuard.files, List.map_append])
        (by rw [List.length_map]; exact h.wireGuard.uuids) (by rw [List.length_map]; exact h.wireGuard.drawn)
    | xray =>
      exact .of_drawn hs (List.Sublist.refl _)
        (by unfold keys XrayStore.uuids; rw [h.xray.files, List.map_append])
        (by rw [List.length_map]; exact h.xray.uuids) (by rw [List.length_map]; exact h.xray.drawn)
    | ikev2 =>
      exact .of_drawn hs (List.Sublist.refl _) (by unfold keys; rw [h.ikev2.rows, List.map_append])
        (by rw [List.length_map]; exact h.ikev2.uuids) (by rw [List.length_map]; exact h.ikev2.drawn)

end Effects

end AppState

/-! ### The calls one by one -/

namespace AppState

section Calls

variable {pf : Platform} {s : AppState} {W : Uuid → Prop}

theorem effect_of_gives {accepted : Bool} {result : Option (AppState × Profile)} (hs : s.Kept pf)
    (h : Gives pf s accepted result) :
    Effect pf (fun _ => False) W s
      (match result with
        | some (s', _) => (s', true)
        | none => (s, false)).1 := by
  rcases h with ⟨-, rfl⟩ | ⟨-, s', p, new, rfl, hgrown, -⟩
  · exact .refl pf _ _ s
  · exact .of_grown hgrown hs

theorem not_mem_filter_ne {α : Type} (key : α → Uuid) (l : List α) (u : Uuid) :
    u ∉ (l.filter fun a => key a ≠ u).map key := by
  intro hm
  obtain ⟨a, ha, he⟩ := List.mem_map.1 hm
  exact of_decide_eq_true (List.mem_filter.1 ha).2 he

theorem removal_dropSource (s : AppState) (u : Uuid) : Removal (· = u) s (VpnEngine.dropSource s u) := by
  have h : Edit VpnEngine.samplePlatform (· = u) s (VpnEngine.dropSource s u) := edit_openVpn s u fun _ => rfl
  exact ⟨h.same, fun p => by rw [h.keys p], h.drawn, rfl⟩

/-- **The store of a uuid loses it**, and nothing else is lost. -/
theorem removal_deleteProfile (s : AppState) (u : Uuid) :
    Removal (· = u) s (VpnEngine.deleteProfile s u) ∧
      u ∉ (VpnEngine.deleteProfile s u).keys (s.protocolOf u) := by
  have hsource := removal_dropSource s u
  have hprotocol : (VpnEngine.dropSource s u).protocolOf u = s.protocolOf u := rfl
  rw [← hprotocol]
  unfold VpnEngine.deleteProfile
  dsimp only
  generalize VpnEngine.dropSource s u = t at hsource
  cases hp : t.protocolOf u with
  | openvpn =>
    refine ⟨hsource.trans ⟨sameBut_openVpn fun _ hne => mem_filter_ne hne, fun p => ?_,
      fun p => by cases p <;> rfl, rfl⟩, not_mem_filter_ne OpenVpnProfile.uuid _ u⟩
    cases p with
    | openvpn => exact List.filter_sublist.map _
    | _ => exact List.Sublist.refl _
  | wireguard =>
    refine ⟨hsource.trans ⟨sameBut_wireGuard (fun _ hne => mem_filter_ne hne)
      (fun _ hne => setPref_of_ne hne), fun p => ?_, fun p => by cases p <;> rfl, rfl⟩,
      not_mem_filter_ne WireGuardFile.uuid _ u⟩
    cases p with
    | wireguard => exact List.filter_sublist.map _
    | _ => exact List.Sublist.refl _
  | xray =>
    refine ⟨hsource.trans ⟨sameBut_xray (fun _ hne => mem_filter_ne hne)
      (fun _ hne => setPref_of_ne hne), fun p => ?_, fun p => by cases p <;> rfl, rfl⟩,
      not_mem_filter_ne XrayFile.uuid _ u⟩
    cases p with
    | xray => exact List.filter_sublist.map _
    | _ => exact List.Sublist.refl _
  | ikev2 =>
    refine ⟨hsource.trans ⟨sameBut_ikev2 fun _ hne => mem_filter_ne hne, fun p => ?_,
      fun p => by cases p <;> rfl, rfl⟩, not_mem_filter_ne (fun r : Ikev2Row => r.profile.uuid) _ u⟩
    cases p with
    | ikev2 => exact List.filter_sublist.map _
    | _ => exact List.Sublist.refl _

theorem edit_saveProfileSettings (s : AppState) (u : Uuid) (name username : String) :
    Edit pf (· = u) s (VpnEngine.saveProfileSettings s u name username).1 := by
  unfold VpnEngine.saveProfileSettings
  split
  · exact .refl pf _ s
  · exact edit_openVpn s u fun _ => rfl

/-- A file of an Xray profile, written over those of its uuid. -/
theorem effect_writeXray {store : XrayStore} {f : XrayFile} (hu : s.Drawn pf .xray f.uuid)
    (hfiles : store.files = s.xray.files.filter (fun g => g.uuid ≠ f.uuid) ++ [f])
    (hnames : ∀ v, v ≠ f.uuid → store.names v = s.xray.names v) (hdrawn : store.drawn = s.xray.drawn) :
    Effect pf (· = f.uuid) (· = f.uuid) s { s with xray := store } := by
  refine ⟨(sameBut_xray (fun g hg => ?_) hnames).mono fun _ hv => .inl hv, fun p => ?_, fun _ hv => .inl hv⟩
  · rw [hfiles, List.mem_append, mem_filter_ne hg, List.mem_singleton]
    refine or_iff_left ?_
    rintro rfl
    exact hg rfl
  · cases p with
    | xray =>
      refine .of_write hdrawn (List.filter_sublist.map _) (not_mem_filter_ne XrayFile.uuid _ f.uuid) ?_ hu rfl
      unfold keys XrayStore.uuids
      rw [hfiles, List.map_append]
      rfl
    | _ => exact .of_sublist rfl (List.Sublist.refl _)

theorem effect_saveXraySettings (s : AppState) {u : Uuid} (hu : s.Drawn pf .xray u) (link name : String) :
    Effect pf (· = u) (· = u) s (VpnEngine.saveXraySettings pf s u link name).1 := by
  have hrename : ∀ t : XrayStore, (t.rename u name).files = t.files ∧ (t.rename u name).drawn = t.drawn ∧
      ∀ v, v ≠ u → (t.rename u name).names v = t.names v := by
    intro t
    unfold XrayStore.rename
    split
    · exact ⟨rfl, rfl, fun _ _ => rfl⟩
    · exact ⟨rfl, rfl, fun _ hv => setPref_of_ne hv⟩
  unfold VpnEngine.saveXraySettings
  rw [XrayStore.saveLink_eq]
  cases XrayStore.saveRejects pf.doubles link with
  | true => exact .refl pf _ _ s
  | false =>
    obtain ⟨hfiles, hdrawn, hnames⟩ :=
      hrename (s.xray.saveFile ⟨u, XrayConfig.isCustomJson (trim link), trim link⟩ none).1
    refine effect_writeXray (f := ⟨u, XrayConfig.isCustomJson (trim link), trim link⟩) hu ?_ hnames hdrawn
    rw [← XrayStore.saveFile_files]
    exact hfiles

theorem effect_saveWireGuardSettings (s : AppState) {u : Uuid} (hu : s.Drawn pf .wireguard u)
    (rawConfig name : String) :
    Effect pf (· = u) (· = u) s (VpnEngine.saveWireGuardSettings pf s u rawConfig name).1 := by
  unfold VpnEngine.saveWireGuardSettings
  split
  · have hrename : ∀ t : WireGuardStore, (t.rename u name).files = t.files ∧ (t.rename u name).drawn = t.drawn ∧
        ∀ v, v ≠ u → (t.rename u name).names v = t.names v := by
      intro t
      unfold WireGuardStore.rename
      split
      · exact ⟨rfl, rfl, fun _ _ => rfl⟩
      · exact ⟨rfl, rfl, fun _ hv => setPref_of_ne hv⟩
    obtain ⟨hfiles, hdrawn, hnames⟩ := hrename (s.wireGuard.writeFile ⟨u, rawConfig⟩)
    have hkept : s.wireGuard.files.filter (·.uuid != u) = s.wireGuard.files.filter (fun f => f.uuid ≠ u) := by
      refine List.filter_congr fun f _ => ?_
      by_cases hf : f.uuid = u
      · simp [hf]
      · simp [hf]
    have hwritten : (s.wireGuard.writeFile ⟨u, rawConfig⟩).files
        = s.wireGuard.files.filter (fun f => f.uuid ≠ u) ++ [⟨u, rawConfig⟩] := by
      unfold WireGuardStore.writeFile
      rw [← hkept]
    refine ⟨(sameBut_wireGuard (fun f hf => ?_) hnames).mono fun _ hv => .inl hv, fun p => ?_,
      fun _ hv => .inl hv⟩
    · rw [hfiles, hwritten, List.mem_append, mem_filter_ne hf, List.mem_singleton]
      refine or_iff_left ?_
      rintro rfl
      exact hf rfl
    · cases p with
      | wireguard =>
        refine .of_write hdrawn (List.filter_sublist.map _) (not_mem_filter_ne WireGuardFile.uuid _ u) ?_ hu rfl
        unfold keys
        dsimp only
        rw [hfiles, hwritten, List.map_append]
        rfl
      | _ => exact .of_sublist rfl (List.Sublist.refl _)
  · exact .refl pf _ _ s

theorem drawn_save (s : Ikev2Store) (p : Ikev2Profile) : (s.save p).drawn = s.drawn := by
  unfold Ikev2Store.save
  dsimp only
  split <;> rfl

theorem effect_saveIkev2Settings (s : AppState) {p : Ikev2Profile} (hp : s.Drawn pf .ikev2 p.uuid) :
    Effect pf (· = p.uuid) (· = p.uuid) s (VpnEngine.saveIkev2Settings s p) := by
  refine ⟨(sameBut_ikev2 fun _ hr => Ikev2Store.mem_save_iff hr).mono fun _ hv => .inl hv, fun q => ?_,
    fun _ hv => .inl hv⟩
  cases q with
  | ikev2 =>
    have hkeys := Ikev2Store.keys_save s.ikev2 p
    by_cases hmem : p.uuid ∈ s.ikev2.rows.map (·.profile.uuid)
    · rw [if_pos hmem] at hkeys
      have hsame : (VpnEngine.saveIkev2Settings s p).keys .ikev2 = s.keys .ikev2 := hkeys
      exact .of_sublist (drawn_save s.ikev2 p) (by rw [hsame])
    · rw [if_neg hmem] at hkeys
      exact .of_write (drawn_save s.ikev2 p) (List.Sublist.refl _) hmem hkeys hp rfl
  | _ => exact .of_sublist rfl (List.Sublist.refl _)

/-- A blank profile is under a uuid of its own. -/
theorem effect_createIkev2Profile (hs : s.Kept pf) (name : String) :
    Effect pf (fun _ => False) W s (MainViewModel.createIkev2Profile pf s name) := by
  have hnew : pf.newUuid .ikev2 s.ikev2.drawn ∉ s.ikev2.rows.map (·.profile.uuid) := fun hm =>
    hs.fresh.unused .ikev2 _ (Nat.le_refl _) (mem_uuids_iff.2 ⟨.ikev2, hm⟩)
  have hkeys := Ikev2Store.keys_save s.ikev2 (MainViewModel.freshIkev2 pf s name)
  rw [if_neg (by exact hnew)] at hkeys
  refine ⟨⟨fun _ _ => Iff.rfl, fun _ _ => Iff.rfl, fun _ _ => Iff.rfl, fun r hr => ?_, fun _ _ => rfl,
    fun _ _ => rfl, fun _ _ => Iff.rfl⟩, fun q => ?_, fun _ hv => .inl hv⟩
  · refine Ikev2Store.mem_save_iff fun he => hr (.inr ⟨.ikev2, s.ikev2.drawn, Nat.le_refl _, ?_, he.symm⟩)
    exact Nat.lt_succ_self _
  · cases q with
    | ikev2 => exact .of_drawn hs (List.Sublist.refl _) hkeys rfl rfl
    | _ => exact .of_sublist rfl (List.Sublist.refl _)

theorem removal_removeSubscription (s : AppState) (id : String) (active : Option Uuid) :
    Removal (fun u => s.xray.subs u = some id) s { s with xray := s.xray.deleteBySubscription id active } := by
  obtain ⟨-, hnames, hfiles, hdrawn⟩ := XrayStore.deleteBySubscription_spec s.xray id active
  refine ⟨sameBut_xray (fun f hf => ?_) (fun u hu => ?_), fun p => ?_, fun p => ?_, rfl⟩
  · rw [hfiles]
    exact and_iff_left fun ho => absurd ho hf
  · rw [hnames]
    exact if_neg fun h => hu h.2.1
  · cases p with
    | xray => exact (XrayStore.deleteBySubscription_sublist s.xray id active).map _
    | _ => exact List.Sublist.refl _
  · cases p with
    | xray => exact hdrawn
    | _ => rfl

/-- A refresh takes the servers of its subscription and adds new ones. -/
theorem effect_refreshSubscription (hs : s.Kept pf) (id : String) (active : Option Uuid) (links : List String) :
    Effect pf (fun u => s.xray.subs u = some id) W s
      { s with
        xray := (XraySubscriptionStore.replaceProfiles (pf.newUuid .xray) pf.doubles s.xray id active links).1 } := by
  have hremoval := removal_removeSubscription s id active
  obtain ⟨new, himported, -, -⟩ := XrayStore.importBatch_spec (pf.newUuid .xray) pf.doubles id
    (s.xray.deleteBySubscription id active) links
  have hreplaced : (XraySubscriptionStore.replaceProfiles (pf.newUuid .xray) pf.doubles s.xray id active links).1
      = ((s.xray.deleteBySubscription id active).importBatch (pf.newUuid .xray) pf.doubles links (some id)).1 := rfl
  rw [hreplaced]
  generalize ((s.xray.deleteBySubscription id active).importBatch (pf.newUuid .xray) pf.doubles links
    (some id)).1 = store at himported
  generalize s.xray.deleteBySubscription id active = deleted at himported hremoval
  have hdrawn : deleted.drawn = s.xray.drawn := hremoval.drawn .xray
  have hnumber : store.drawn = s.xray.drawn + new.length := by rw [himported.drawn, hdrawn]
  have huuids : new.map (·.uuid) = drawnFrom (pf.newUuid .xray) s.xray.drawn new.length := by
    rw [himported.uuids, hdrawn]
    rfl
  have hnot : ∀ u, ¬ (s.xray.subs u = some id ∨ NewUuid pf s { s with xray := store } u) →
      s.xray.subs u ≠ some id ∧ u ∉ new.map (·.uuid) := by
    intro u hu
    refine ⟨fun ho => hu (.inl ho), fun hm => hu (.inr ?_)⟩
    rw [huuids] at hm
    obtain ⟨i, hlo, hhi, he⟩ := Grown.mem_drawnFrom hm
    exact ⟨.xray, i, hlo, Nat.lt_of_lt_of_eq hhi hnumber.symm, he⟩
  refine ⟨sameBut_xray (fun f hf => ?_) (fun u hu => ?_), fun p => ?_, fun _ hv => .inl hv⟩
  · obtain ⟨ho, hm⟩ := hnot _ hf
    rw [himported.files, List.mem_append, or_iff_left fun hn => hm (List.mem_map_of_mem hn)]
    exact hremoval.same.xray f ho
  · obtain ⟨ho, hm⟩ := hnot _ hu
    rw [himported.names u hm]
    exact hremoval.same.xrayNames u ho
  · cases p with
    | xray =>
      have hkeys : store.uuids = deleted.uuids ++ new.map (·.uuid) := by
        unfold XrayStore.uuids
        rw [himported.files, List.map_append]
      exact .of_drawn hs (hremoval.keys .xray) hkeys (by rw [List.length_map]; exact huuids)
        (by rw [List.length_map]; exact hnumber)
    | _ => exact .of_sublist rfl (List.Sublist.refl _)

/-- The templates are accepted as what they are. -/
theorem gives_createXrayProfile (s : AppState) (kind : String) :
    ∃ accepted, Gives pf s accepted (MainViewModel.createXrayProfile pf s kind) := by
  have hcustom : XrayConfig.isCustomJson MainViewModel.customJsonTemplate = true := by
    unfold MainViewModel.customJsonTemplate XrayConfig.isCustomJson
    rw [String.toList_ofList]
    rfl
  unfold MainViewModel.createXrayProfile
  split
  · exact ⟨_, importCustomJson_gives s hcustom "Custom config"⟩
  · exact ⟨_, importLink_gives s _ _⟩

/-- **What every call may do.** -/
theorem perform_effect (hs : s.Kept pf) {op : Operation} (hop : s.Admissible pf op) :
    Effect pf (s.touches op) op.saves s (s.perform pf op).1 := by
  cases op with
  | importConfig text name =>
    obtain ⟨new, hgrown, -, -⟩ := VpnEngine.importConfig_spec pf s text name
    have heffect := Effect.of_grown (W := fun _ => False) hgrown hs
    unfold perform
    dsimp only
    exact heffect
  | importZip archive =>
    obtain ⟨⟨new, hgrown, -⟩, -⟩ := VpnEngine.importZip_gains hs.fresh archive
    have heffect := Effect.of_grown (W := fun _ => False) hgrown hs
    unfold perform
    dsimp only
    exact heffect
  | applyManifest m current => exact (edit_applyManifest m current s hop).effect
  | deleteProfile u => exact (removal_deleteProfile s u).1.effect
  | renameProfile u name => exact (edit_renameProfile s u name).effect
  | toggleFavourite u => exact (edit_toggleFavourite s hop).effect
  | select u name => exact (edit_tile s _ (some (u, name))).effect
  | clearSelection u =>
    show Effect pf _ _ s (ProfileStore.clearSelectionIfMatches s u)
    unfold ProfileStore.clearSelectionIfMatches
    split
    · exact (edit_tile s _ none).effect
    · exact .refl pf _ _ s
  | setCredentials u c persist => exact (edit_setCredentials s u _).effect
  | saveXraySettings u link name => exact effect_saveXraySettings s hop link name
  | saveWireGuardSettings u rawConfig name => exact effect_saveWireGuardSettings s hop rawConfig name
  | saveIkev2Settings p => exact effect_saveIkev2Settings s hop
  | saveProfileSettings u name username => exact (edit_saveProfileSettings s u name username).effect
  | createXrayProfile kind =>
    obtain ⟨accepted, hgives⟩ : ∃ accepted, Gives pf s accepted (MainViewModel.createXrayProfile pf s kind) :=
      gives_createXrayProfile s kind
    exact effect_of_gives hs hgives
  | createWarpProfile text => exact effect_of_gives hs (importWireGuard_gives s text "WARP")
  | createIkev2Profile name => exact effect_createIkev2Profile hs name
  | refreshSubscription id active links => exact effect_refreshSubscription hs id active links
  | removeSubscription id active => exact (removal_removeSubscription s id active).effect

/-- The condition on a call stays met while more uuids are drawn. -/
theorem Admissible.mono {s' : AppState} {op : Operation} (h : s.Admissible pf op)
    (hle : ∀ p, s.drawn p ≤ s'.drawn p) : s'.Admissible pf op := by
  cases op with
  | saveXraySettings u link name => exact Drawn.mono h (hle .xray)
  | saveWireGuardSettings u rawConfig name => exact Drawn.mono h (hle .wireguard)
  | saveIkev2Settings p => exact Drawn.mono h (hle .ikev2)
  | toggleFavourite u =>
    obtain ⟨p, hp⟩ := h
    exact ⟨p, hp.mono (hle p)⟩
  | applyManifest m current =>
    intro p hp
    obtain ⟨q, hq⟩ := h p hp
    exact ⟨q, hq.mono (hle q)⟩
  | _ => trivial

/-- **The step lemma**: every call keeps the stores. -/
theorem perform_kept (hs : s.Kept pf) {op : Operation} (hop : s.Admissible pf op) :
    (s.perform pf op).1.Kept pf := (perform_effect hs hop).kept hs

/-- A uuid that was drawn is not drawn again. -/
theorem Kept.not_newUuid (hs : s.Kept pf) {s' : AppState} {p : Protocol} {u : Uuid} (hu : s.Drawn pf p u) :
    ¬ NewUuid pf s s' u := by
  rintro ⟨q, j, hlo, -, he⟩
  obtain ⟨i, hi, hu⟩ := hu
  obtain ⟨rfl, rfl⟩ := hs.injective p q i j (hu.trans he.symm)
  omega

/-- **A call changes nothing of a profile that it is not about.** -/
theorem Effect.mem_saved_iff {U : Uuid → Prop} {s' : AppState} (h : Effect pf U W s s') (hs : s.Kept pf)
    {q : Saved} {p : Protocol} (hdrawn : s.Drawn pf p q.uuid) (hq : ¬ U q.uuid) :
    q ∈ s'.saved pf ↔ q ∈ s.saved pf :=
  h.same.mem_saved_iff fun hu => hu.elim hq (hs.not_newUuid hdrawn)

/-- **What is deleted is gone.** -/
theorem not_mem_deleteProfile (hs : s.Kept pf) (u : Uuid) : u ∉ (VpnEngine.deleteProfile s u).uuids := by
  obtain ⟨hremoval, hgone⟩ := removal_deleteProfile s u
  intro hm
  obtain ⟨p, hp⟩ := mem_uuids_iff.1 hm
  rw [hs.protocolOf_eq ((hremoval.keys p).subset hp)] at hgone
  exact hgone hp

end Calls

end AppState

end SwiftVpn
