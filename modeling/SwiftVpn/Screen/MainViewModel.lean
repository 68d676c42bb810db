/-
  File:      SwiftVpn/Screen/MainViewModel.lean
  Subject:   THE LIST SCREEN OVER THE STORES: MainViewModel.kt, its list, filters, selection, editors and
             subscriptions.

  What the user does runs on the main thread; the coroutine that it launches goes on in segments, each
  of which runs on the main thread or on one of many others, and between which anything may happen.
  `segments` are the segments that are still to run, in no order.

  * `ListView`, `applyView` -- what is shown: the profiles that were loaded last, filtered and sorted;
  * `Connecting`, `Testing` -- the connections that are asked for, and the tests;
  * `Segment`, `runSegment` -- the segments of the coroutines;
  * `Event`, `step` -- what the user does, a restart of the process, and one segment that runs.

  Each call to a store is one step, also those that read and write back the list of subscriptions.
  `lower` is `lowercase()`, `hostOf` the host of a URL, `newId` the ids that subscriptions draw.
-/
import Mathlib.Data.List.Sort
import SwiftVpn.Lib.Machine
import SwiftVpn.Profiles.Operations
import SwiftVpn.Xray.Ownership

namespace SwiftVpn

open Machine

/-! ## 1. What is shown -/

/-- A profile of the list, with the subscription that owns it. -/
structure Row where
  profile : Profile
  subscriptionId : Option String
  deriving DecidableEq, Repr

/-- What `refresh` loads. -/
def AppState.rows (pf : Platform) (s : AppState) : List Row :=
  (s.allProfiles pf).map fun p => ⟨p, if p.protocol = .xray then s.xray.subs p.uuid else none⟩

/-- `Protocol.entries`. -/
def Protocol.entries : List Protocol := [.openvpn, .wireguard, .xray, .ikev2]

/-- The flows of the list. `savedFilter` is the preference behind `protocolFilter`. -/
structure ListView where
  allProfiles : List Row := []
  profiles : List Row := []
  availableProtocols : List Protocol := []
  protocolFilter : Option Protocol
  savedFilter : Option Protocol
  groupFilter : Option String := none
  selected : List Uuid := []
  subscriptions : List Subscription := []
  deriving DecidableEq, Repr

namespace ListView

section View

variable (lower : String → String)

/-- The name as it is compared, in UTF-16 units. -/
def sortKey (r : Row) : List Nat := Text.toUtf16 (lower r.profile.name).toList

/-- Starred before others, then by name. -/
def before (a b : Row) : Bool :=
  if a.profile.isFavourite = b.profile.isFavourite then sortKey lower a ≤ sortKey lower b
  else a.profile.isFavourite

/-- `sorted`; the sort is stable. -/
def sorted (l : List Row) : List Row := l.insertionSort fun a b => before lower a b

/-- The profiles of the type or of the group that is chosen. -/
def filtered (v : ListView) : List Row :=
  match v.groupFilter, v.protocolFilter with
  | some id, _ => v.allProfiles.filter fun r => r.subscriptionId = some id
  | none, some p => v.allProfiles.filter fun r => r.profile.protocol = p ∧ r.subscriptionId = none
  | none, none => v.allProfiles

/-- `applyView`. -/
def applyView (v : ListView) : ListView :=
  { v with
    profiles := sorted lower v.filtered
    availableProtocols := Protocol.entries.filter fun p =>
      v.allProfiles.any fun r => r.profile.protocol = p ∧ r.subscriptionId = none }

/-- `setProtocolFilter`. -/
def setProtocolFilter (v : ListView) (protocol : Option Protocol) : ListView :=
  applyView lower
    { v with
      savedFilter := protocol
      protocolFilter := protocol
      groupFilter := if protocol.isSome then none else v.groupFilter }

/-- `setGroupFilter`. -/
def setGroupFilter (v : ListView) (subscriptionId : Option String) : ListView :=
  let v := { v with groupFilter := subscriptionId }
  applyView lower
    (if subscriptionId.isSome && v.protocolFilter.isSome then { v with protocolFilter := none, savedFilter := none }
    else v)

/-- The end of `refresh`: a profile that is gone is ticked no more, and a group that is gone is left. -/
def loaded (v : ListView) (rows : List Row) (subs : List Subscription) : ListView :=
  let v := { v with
    allProfiles := rows
    selected := v.selected.filter fun u => u ∈ rows.map (·.profile.uuid)
    groupFilter := v.groupFilter.filter fun id => subs.any fun s => s.id == id }
  { applyView lower v with subscriptions := subs }

end View

/-- `toggleSelected`. -/
def toggleSelected (v : ListView) (uuid : Uuid) : ListView :=
  { v with
    selected := if uuid ∈ v.selected then v.selected.filter (· ≠ uuid) else v.selected ++ [uuid] }

/-- `selectAllVisible`. -/
def selectAllVisible (v : ListView) : ListView := { v with selected := v.profiles.map (·.profile.uuid) }

end ListView

/-! ## 2. The coroutines -/

/-- A segment that is still to run. -/
inductive Segment where
  | load
  | show (rows : List Row)
  | call (op : Operation)
  | returned (op : Operation) (ok : Bool) (created : Option Uuid)
  | importZip (archive : List ZipEntry) (text : Option String) (preferredName : String)
  | imported (any : Bool) (archive : List ZipEntry) (text : Option String) (preferredName : String)
  | manifest (archive : List ZipEntry)
  | delete (rest : List Uuid)
  | openSettings (uuid : Uuid)
  | settings (protocol : Protocol) (uuid : Uuid)
  | opened (protocol : Protocol) (uuid : Uuid) (found : Bool)
  | addSubscription (name url : String)
  | added (id : Option String)
  | fetch (sub : Subscription)
  | fetched
  | removeSubscription (id : String)
  | removed (id : String)
  | startTunnel (uuid : Uuid)
  | checked (uuid : Uuid) (username : Option String)
  | test (rest : List Uuid)
  | probe (uuid : Uuid)
  | speed (uuid : Uuid)

/-- What the user is asked before a connection, and all the connections that the engine was asked for, before
    a restart as well. -/
structure Connecting where
  pendingConnect : Option Uuid := none
  permissionAsked : Bool := false
  credentialsFor : Option Profile := none
  savedUsername : String := ""
  connects : List Uuid := []

/-- The tests: the rows that show a spinner, and what was measured last. -/
structure Testing where
  testing : List Uuid := []
  latency : Uuid → Option (Option Nat) := fun _ => none

/-- The view model over what is stored. `editors` are the editors that are open, one for a protocol. -/
structure MainViewModel where
  app : AppState
  subs : List Subscription
  drawnIds : Nat
  view : ListView
  tileUuid : Option Uuid
  editors : Protocol → Option Uuid
  connecting : Connecting
  tests : Testing
  segments : List Segment

namespace MainViewModel

/-- `removeSuffix`. -/
def removeSuffix (s suffix : String) : String :=
  if suffix.toList.isSuffixOf s.toList then String.ofList (s.toList.take (s.length - suffix.length)) else s

/-- `MainViewModel` when it is made: `init` starts a refresh. -/
def init (app : AppState) (subs : List Subscription) (drawnIds : Nat) (filter : Option Protocol)
    (connects : List Uuid) : MainViewModel where
  app := app
  subs := subs
  drawnIds := drawnIds
  view := { protocolFilter := filter, savedFilter := filter }
  tileUuid := app.tile.map (·.1)
  editors _ := none
  connecting := { connects := connects }
  tests := {}
  segments := [.load]

/-- The first start. -/
def start : MainViewModel := init VpnEngine.emptyState [] 0 none []

/-- What the environment gives to a segment: the body that was fetched, the profile in use, the time,
    what `needUserPWInput` says of an OpenVPN profile, and what a test measured. -/
structure Env where
  fetched : Option String := none
  activeUuid : Option Uuid := none
  now : Int := 0
  needsInput : Bool := false
  measured : Option Nat := none
  deriving DecidableEq, Repr

/-- One editor, opened or closed. -/
def setEditor (vm : MainViewModel) (p : Protocol) (uuid : Option Uuid) : MainViewModel :=
  { vm with editors := fun q => if q = p then uuid else vm.editors q }

/-- The row of a uuid that is shown. -/
def shown (vm : MainViewModel) (uuid : Uuid) : Option Row :=
  vm.view.profiles.find? (·.profile.uuid == uuid)

/-- A subscription that is shown. -/
def listed (vm : MainViewModel) (id : String) : Bool := vm.view.subscriptions.any (·.id == id)

/-- `assignToTile`. -/
def assignToTile (vm : MainViewModel) (p : Profile) : MainViewModel :=
  { vm with app := ProfileStore.select vm.app p.uuid p.name, tileUuid := some p.uuid }

/-- The engine is asked to connect. -/
def connect (vm : MainViewModel) (uuid : Uuid) : MainViewModel :=
  { vm with connecting := { vm.connecting with connects := vm.connecting.connects ++ [uuid] } }

/-- A spinner. -/
def testing (vm : MainViewModel) (uuids : List Uuid) : MainViewModel :=
  { vm with tests := { vm.tests with testing := vm.tests.testing ++ uuids } }

/-- A test that is over. -/
def tested (vm : MainViewModel) (uuid : Uuid) (ms : Option (Option Nat)) : MainViewModel :=
  { vm with tests :=
    { testing := vm.tests.testing.filter (· ≠ uuid)
      latency := fun u => if u = uuid ∧ ms.isSome then ms else vm.tests.latency u } }

/-- `needsCredentials`. -/
def needsCredentials (s : AppState) (uuid : Uuid) (needsInput : Bool) : Bool :=
  s.protocolOf uuid = .openvpn && (s.openVpn.get uuid).isSome && needsInput

/-- `savedUsername`. -/
def savedUsername (s : AppState) (uuid : Uuid) : String :=
  ((s.openVpn.get uuid).map (·.credentials.username)).getD ""

/-- The uuid of the profile that a call makes, if its editor is opened next. -/
def createdBy (pf : Platform) (s : AppState) : Operation → Option Uuid
  | .createXrayProfile _ => some (pf.newUuid .xray s.xray.drawn)
  | .createIkev2Profile _ => some (pf.newUuid .ikev2 s.ikev2.drawn)
  | _ => none

/-- Whether the settings of a profile are found by the store of its protocol. -/
def settingsOf (pf : Platform) (s : AppState) (p : Protocol) (uuid : Uuid) : Bool :=
  match p with
  | .wireguard => (s.wireGuard.rawConfig uuid).any pf.parseWireGuard
  | .xray => (s.xray.link uuid).isSome
  | .openvpn => s.protocolOf uuid = .openvpn && (s.openVpn.get uuid).isSome
  | .ikev2 => (s.ikev2.profile uuid).isSome

/-- What is done when a call has returned, and what is launched then. -/
def returned (vm : MainViewModel) (op : Operation) (ok : Bool) (created : Option Uuid) :
    MainViewModel × List Segment :=
  match op with
  | .importConfig _ _ => (vm, if ok || 0 < vm.app.lastBatchImport then [.load] else [])
  | .renameProfile _ _ => (vm, [.load])
  | .saveProfileSettings _ _ _ => (vm.setEditor .openvpn none, if ok then [.load] else [])
  | .saveWireGuardSettings _ _ _ => if ok then (vm.setEditor .wireguard none, [.load]) else (vm, [])
  | .saveXraySettings _ _ _ => if ok then (vm.setEditor .xray none, [.load]) else (vm, [])
  | .saveIkev2Settings _ => (vm.setEditor .ikev2 none, [.load])
  | .createXrayProfile _ | .createIkev2Profile _ =>
    (vm, if ok then .load :: created.toList.map .openSettings else [])
  | .createWarpProfile _ => (vm, if ok then [.load] else [])
  | .setCredentials uuid _ _ => (vm.connect uuid, [])
  | _ => (vm, [])

section Step

variable (pf : Platform) (lower hostOf : String → String) (newId : Nat → String)

/-- A segment runs: what it does, and what is to run next. -/
def runSegment (vm : MainViewModel) (env : Env) : Segment → MainViewModel × List Segment
  | .load => (vm, [.show (vm.app.rows pf)])
  | .show rows => ({ vm with view := vm.view.loaded lower rows vm.subs }, [])
  | .call op =>
    let result := vm.app.perform pf op
    ({ vm with app := result.1 }, [.returned op result.2 (createdBy pf vm.app op)])
  | .returned op ok created => vm.returned op ok created
  | .importZip archive text name =>
    let result := vm.app.perform pf (.importZip archive)
    ({ vm with app := result.1 }, [.imported result.2 archive text name])
  | .imported any archive text name =>
    if any then (vm, [.load, .manifest archive])
    else (vm, text.toList.map fun text => .call (.importConfig text name))
  | .manifest archive =>
    match readManifest pf.doubles archive with
    | some manifest =>
      ({ vm with app := (vm.app.perform pf (.applyManifest manifest (vm.view.allProfiles.map (·.profile)))).1 },
        [.load])
    | none => (vm, [])
  | .delete (uuid :: rest) => ({ vm with app := VpnEngine.deleteProfile vm.app uuid }, [.delete rest])
  | .delete [] => ({ vm with view := { vm.view with selected := [] } }, [.load])
  | .openSettings uuid => (vm, [.settings (vm.app.protocolOf uuid) uuid])
  | .settings p uuid => (vm, [.opened p uuid (settingsOf pf vm.app p uuid)])
  | .opened p uuid found => (vm.setEditor p (if found then some uuid else none), [])
  | .addSubscription name url =>
    match XraySubscriptionStore.newSubscription hostOf (newId vm.drawnIds) name url with
    | some sub =>
      ({ vm with subs := vm.subs ++ [sub], drawnIds := vm.drawnIds + 1 }, [.added (some sub.id)])
    | none => (vm, [.added none])
  | .added none => (vm, [])
  | .added (some id) =>
    ({ vm with view := { vm.view with subscriptions := vm.subs } },
      (vm.subs.find? (·.id == id)).toList.map .fetch)
  | .fetch sub =>
    let result := XraySubscriptionStore.refresh (pf.newUuid .xray) pf.doubles ⟨vm.app.xray, vm.subs⟩ sub
      env.activeUuid env.now env.fetched
    ({ vm with app := { vm.app with xray := result.1.store }, subs := result.1.subs }, [.fetched])
  | .fetched => ({ vm with view := { vm.view with subscriptions := vm.subs } }, [.load])
  | .removeSubscription id =>
    ({ vm with
      app := { vm.app with xray := vm.app.xray.deleteBySubscription id env.activeUuid }
      subs := vm.subs.filter (·.id ≠ id) }, [.removed id])
  | .removed id =>
    ({ vm with
      view := { vm.view with
        subscriptions := vm.subs
        groupFilter := if vm.view.groupFilter = some id then none else vm.view.groupFilter } }, [.load])
  | .startTunnel uuid =>
    (vm, [.checked uuid
      (if needsCredentials vm.app uuid env.needsInput then some (savedUsername vm.app uuid) else none)])
  | .checked uuid (some username) =>
    ({ vm with
      connecting := { vm.connecting with
        savedUsername := username
        credentialsFor := (vm.shown uuid).map (·.profile) } }, [])
  | .checked uuid none => (((vm.shown uuid).elim vm fun r => vm.assignToTile r.profile).connect uuid, [])
  | .test (uuid :: rest) => (vm.tested uuid (some env.measured), if rest = [] then [] else [.test rest])
  | .test [] => (vm, [])
  | .probe uuid => (vm.tested uuid (env.measured.map some), [])
  | .speed uuid => (vm.tested uuid none, [])

/-! ## 3. What happens -/

/-- What the user does, a restart, and a segment that runs. A call to a store that is on the main
    thread is part of the event. `stops` is whether a tap is on the profile that is being connected or is
    connected, `permitted` whether the VPN permission is there, `active` whether some tunnel is. -/
inductive Event where
  | restart
  | refresh
  | setProtocolFilter (protocol : Option Protocol)
  | setGroupFilter (subscriptionId : Option String)
  | toggleFavourite (uuid : Uuid)
  | toggleSelected (uuid : Uuid)
  | selectAllVisible
  | clearSelection
  | toggle (uuid : Uuid) (stops permitted : Bool)
  | permissionResult (granted : Bool)
  | submitCredentials (credentials : Credentials) (remember : Bool)
  | dismissCredentials
  | testLatency (uuid : Uuid) (active : Bool)
  | testAllLatency (active : Bool)
  | probeXray (uuid : Uuid) (active : Bool)
  | testDownloadSpeed (uuid : Uuid) (active : Bool)
  | importFromText (text : String)
  | importFromUri (archive : Option (List ZipEntry)) (text : Option String) (name : String)
  | deleteAll (uuids : List Uuid)
  | rename (uuid : Uuid) (newName : String)
  | openSettings (uuid : Uuid)
  | closeSettings
  | saveSettings (name username : String)
  | saveWireGuardSettings (rawConfig name : String)
  | saveXraySettings (rawLink name : String)
  | saveIkev2Settings (updated : Ikev2Profile)
  | createXrayProfile (kind : String)
  | createWarpProfile (text : String)
  | createIkev2Profile (name : String)
  | addSubscription (name url : String)
  | refreshSubscription (id : String)
  | removeSubscription (id : String)
  | advance (i : Nat) (env : Env)

/-- What the user does: what it does on the main thread, and what it launches. A tap is on a row or a
    subscription that is shown, a save in an editor that is open. -/
def act (vm : MainViewModel) : Event → Option (MainViewModel × List Segment)
  | .restart | .advance _ _ => none
  | .refresh => some (vm, [.load])
  | .setProtocolFilter p => some ({ vm with view := vm.view.setProtocolFilter lower p }, [])
  | .setGroupFilter id =>
    if id.all vm.listed then some ({ vm with view := vm.view.setGroupFilter lower id }, []) else none
  | .toggleFavourite uuid =>
    if (vm.shown uuid).isSome then
      some ({ vm with app := (vm.app.perform pf (.toggleFavourite uuid)).1 }, [.load])
    else none
  | .toggleSelected uuid =>
    if (vm.shown uuid).isSome then some ({ vm with view := vm.view.toggleSelected uuid }, []) else none
  | .selectAllVisible => some ({ vm with view := vm.view.selectAllVisible }, [])
  | .clearSelection => some ({ vm with view := { vm.view with selected := [] } }, [])
  | .toggle uuid stops permitted =>
    some (if stops then (vm, [])
      else if permitted then (vm, [.startTunnel uuid])
      else
        ({ vm with connecting := { vm.connecting with pendingConnect := some uuid, permissionAsked := true } }, []))
  | .permissionResult granted =>
    some ({ vm with connecting := { vm.connecting with pendingConnect := none, permissionAsked := false } },
      if granted then vm.connecting.pendingConnect.toList.map .startTunnel else [])
  | .submitCredentials c remember =>
    vm.connecting.credentialsFor.map fun p =>
      ({ vm with connecting := { vm.connecting with credentialsFor := none } }.assignToTile p,
        [.call (.setCredentials p.uuid c remember)])
  | .dismissCredentials => some ({ vm with connecting := { vm.connecting with credentialsFor := none } }, [])
  | .testLatency uuid active =>
    some (if active || !vm.view.allProfiles.any (·.profile.uuid == uuid) then (vm, [])
      else (vm.testing [uuid], [.test [uuid]]))
  | .testAllLatency active =>
    let targets := vm.view.profiles.map (·.profile.uuid)
    some (if active then (vm, []) else (vm.testing targets, [.test targets]))
  | .probeXray uuid active => some (if active then (vm, []) else (vm.testing [uuid], [.probe uuid]))
  | .testDownloadSpeed uuid active => some (if active then (vm, []) else (vm.testing [uuid], [.speed uuid]))
  | .importFromText text =>
    some (vm, if isBlank (trim text) then [] else [.call (.importConfig (trim text) "imported")])
  | .importFromUri archive text name =>
    let preferredName := removeSuffix (removeSuffix name ".ovpn") ".conf"
    some (vm,
      match archive with
      | some archive => [.importZip archive text preferredName]
      | none => text.toList.map fun text => .call (.importConfig text preferredName))
  | .deleteAll uuids =>
    if uuids = [] ∨ uuids ≠ vm.view.selected ∧ ¬ uuids.all fun u => (vm.shown u).isSome then none
    else
      some ({ vm with
        app := uuids.foldl ProfileStore.clearSelectionIfMatches vm.app
        tileUuid := vm.tileUuid.filter (· ∉ uuids) }, [.delete uuids])
  | .rename uuid newName =>
    if (vm.shown uuid).isSome then some (vm, [.call (.renameProfile uuid newName)]) else none
  | .openSettings uuid => if (vm.shown uuid).isSome then some (vm, [.openSettings uuid]) else none
  | .closeSettings => some ({ vm with editors := fun _ => none }, [])
  | .saveSettings name username =>
    (vm.editors .openvpn).map fun uuid => (vm, [.call (.saveProfileSettings uuid name username)])
  | .saveWireGuardSettings rawConfig name =>
    (vm.editors .wireguard).map fun uuid => (vm, [.call (.saveWireGuardSettings uuid rawConfig name)])
  | .saveXraySettings rawLink name =>
    (vm.editors .xray).map fun uuid => (vm, [.call (.saveXraySettings uuid rawLink name)])
  | .saveIkev2Settings updated =>
    if vm.editors .ikev2 = some updated.uuid then some (vm, [.call (.saveIkev2Settings updated)]) else none
  | .createXrayProfile kind => some (vm, [.call (.createXrayProfile kind)])
  | .createWarpProfile text => some (vm, [.call (.createWarpProfile text)])
  | .createIkev2Profile name => some (vm, [.call (.createIkev2Profile name)])
  | .addSubscription name url => some (vm, [.addSubscription name url])
  | .refreshSubscription id =>
    if vm.listed id then some (vm, (vm.subs.find? (·.id == id)).toList.map .fetch) else none
  | .removeSubscription id => if vm.listed id then some (vm, [.removeSubscription id]) else none

/-- One step: a restart, a segment, or what the user does. -/
def step (vm : MainViewModel) : Event → Option MainViewModel
  | .restart =>
    some (init { vm.app with lastBatchImport := 0 } vm.subs vm.drawnIds vm.view.savedFilter vm.connecting.connects)
  | .advance i env =>
    (vm.segments[i]?).map fun t =>
      let result := vm.runSegment pf lower hostOf newId env t
      { result.1 with segments := vm.segments.eraseIdx i ++ result.2 }
  | e => (vm.act pf lower e).map fun result => { result.1 with segments := vm.segments ++ result.2 }

end Step

/-- The steps. -/
theorem step_cases {pf : Platform} {lower hostOf : String → String} {newId : Nat → String}
    {vm vm' : MainViewModel} {e : Event} (h : vm.step pf lower hostOf newId e = some vm') :
    (e = .restart ∧ vm' = init { vm.app with lastBatchImport := 0 } vm.subs vm.drawnIds vm.view.savedFilter
      vm.connecting.connects) ∨
    (∃ i env t, e = .advance i env ∧ vm.segments[i]? = some t ∧
      vm' = { (vm.runSegment pf lower hostOf newId env t).1 with
        segments := vm.segments.eraseIdx i ++ (vm.runSegment pf lower hostOf newId env t).2 }) ∨
    ∃ result, vm.act pf lower e = some result ∧ vm' = { result.1 with segments := vm.segments ++ result.2 } := by
  unfold step at h
  split at h
  · exact .inl ⟨rfl, (Option.some.inj h).symm⟩
  · rename_i i env
    obtain ⟨t, ht, rfl⟩ := Option.map_eq_some_iff.1 h
    exact .inr (.inl ⟨i, env, t, rfl, ht, rfl⟩)
  · obtain ⟨result, hact, rfl⟩ := Option.map_eq_some_iff.1 h
    exact .inr (.inr ⟨result, hact, rfl⟩)

end MainViewModel

end SwiftVpn
