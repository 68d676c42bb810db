/-
  File:      SwiftVpn/Router/App.lean
  Subject:   THE ROUTER AT WORK: `connect`, `disconnect` and the drivers' callbacks, interleaved.

  `App` is the UI process: the router (`VpnEngine`), the WireGuard driver, `XrayEngine.activeUuid`,
  the `connect` calls issued so far and the threads `stopTunnel` has started. One label is one step
  of one of them:

  * `connect` runs on an IO thread and is cut at every access to a shared field: the four stops of
    `stopOtherEngine`, the assignments, the start of the engine and what follows its return
    (`Pc`, `callStep`);
  * `disconnect` is a tap on the main thread and one step (`tap`);
  * the drivers report at any moment: OpenVPN and IKEv2 through `callback`, Xray through `xray`,
    WireGuard through the steps of its own machine (`call`, `job`, `onDestroy`, `pollDown`);
  * the binder of the OpenVPN service comes and goes (`serviceConnected`, `serviceDisconnected`),
    and a stop thread makes its binder call (`stopVpn`).

  A step yields its effects: accesses to the router, engines started and engines told to stop. The
  router moves by these accesses alone (`App.step`, `control_vpn`). The label of a callback names the
  session it comes from by the `connect` call that started it; the code has no such name and nothing
  here reads it.

  A callback is one step, whatever thread makes it. Two things that WireGuard's poll loop does are left
  out: the watchdog's own calls of `connect`, and the late state check of a loop that is cancelled. They
  are steps of `Drivers` (Router/Drivers.lean) and of `PollSystem` (WireGuard/Polling.lean).

  `CallMove` -- what one step of a connect call does; `callStep_move` -- that it does nothing else.
-/
import SwiftVpn.Lib.Machine
import SwiftVpn.WireGuard.Engine

namespace SwiftVpn

open Machine

/-! ## 1. The state -/

/-- Where a `connect` call of the router stands. -/
inductive Pc where
  -- `stopOtherEngine`
  | stopOpenVpn
  | stopWireGuard
  | awaitDown (job : Nat)
  | stopIkev2
  | stopXray
  -- `connect`
  | resetTraffic
  | setPending
  | setProtocol
  -- `connectOpenVpn`
  | ovpnProfile
  | ovpnBind
  | ovpnStart
  | ovpnFailed
  -- `connectWireGuard`
  | wgConnecting
  | wgConnect (pc : WgPc)
  -- `connectXray`, `XrayEngine.connect`
  | xrayConnecting
  | xrayConnected
  | xrayActive
  | xrayState
  | xrayStart
  -- `connectIkev2`
  | ikeProfile
  | ikeRefused
  | ikeUnknown
  | ikeConnecting
  | ikeConnected
  | ikeInstall
  | ikeStart
  | returned (ok : Bool)
  deriving DecidableEq, Repr

/-- The points of `stopOtherEngine`. -/
def Pc.stopping : Pc → Bool
  | .stopOpenVpn | .stopWireGuard | .awaitDown _ | .stopIkev2 | .stopXray => true
  | _ => false

/-- The points after both assignments of `connect`. -/
def Pc.assigned : Pc → Bool
  | .resetTraffic | .setPending | .setProtocol => false
  | pc => !pc.stopping

/-- A `connect` call; `protocol` is what `protocolOf` answered at its start. -/
structure Call where
  uuid : Uuid
  protocol : Protocol
  pc : Pc
  deriving DecidableEq, Repr

/-- The call has returned. -/
def Call.finished (c : Call) : Bool :=
  match c.pc with
  | .returned _ => true
  | _ => false

/-- The UI process. `xrayUuid` is `XrayEngine.activeUuid`; `ikev2Callback` is true once
    `Ikev2Engine.onState` is installed; `stops` are the threads of `stopTunnel`, true once the
    binder call is made. -/
structure App where
  vpn : VpnEngine := {}
  wg : WireGuardEngine := {}
  xrayUuid : Option Uuid := none
  ikev2Callback : Bool := false
  calls : List Call := []
  stops : List Bool := []
  deriving DecidableEq, Repr

/-- What a step of a call reads from outside: `started` is false where starting the engine
    throws. -/
structure Input extends WgInput where
  started : Bool := true
  deriving DecidableEq, Repr

/-- What a step does besides moving the drivers. -/
inductive Effect where
  | router (a : Action)
  | start (p : Protocol)
  | stop (p : Protocol)
  | bindTunnelService
  | stopVpn
  deriving DecidableEq, Repr

/-- The accesses to the router among the effects. -/
def accesses (es : List Effect) : List Action :=
  es.filterMap fun e => match e with
    | .router a => some a
    | _ => none

/-- The messages of the Xray service, as `XrayRemote.events` reads them. -/
inductive XrayEvent where
  | connected
  | error (message : String)
  | stopped
  | bytes (bytesIn bytesOut diffIn diffOut : Int)
  | log (message : String)
  | tunnelInfo (info : TunnelInfo)
  deriving DecidableEq, Repr

/-- The reports that clear `XrayEngine.activeUuid`. -/
def XrayEvent.ends : XrayEvent → Bool
  | .error _ | .stopped => true
  | _ => false

/-- `reportConnected`, `reportError`, ..: what `XrayEngine` passes on. -/
def XrayEvent.actions (now : Int) : XrayEvent → List Action
  | .connected => [.onState .xray .connected none now]
  | .error m => [.onLog .xray ("Xray failed: " ++ m) now, .onState .xray .disconnected (some m) now]
  | .stopped => [.onState .xray .disconnected none now]
  | .bytes inB outB dIn dOut => [.onBytes .xray inB outB dIn dOut]
  | .log m => [.onLog .xray m now]
  | .tunnelInfo info => [.onTunnelInfo .xray info]

inductive Label where
  | connect (uuid : Uuid)
  | disconnect (now : Int)
  | call (i : Nat) (inp : Input)
  | job (j : Nat) (inp : WgInput)
  | onDestroy (now : Int)
  | pollDown (now : Int)
  | callback (session : Nat) (a : Action)
  | xray (session : Nat) (ev : XrayEvent) (now : Int)
  | serviceConnected
  | serviceDisconnected
  | stopVpn (k : Nat)
  deriving DecidableEq, Repr

namespace App

/-- What arrives from the OpenVPN listeners, from charon's state reporter (once
    `Ikev2Engine.onState` is installed) and from the sampling loops of IKEv2 and WireGuard. -/
def delivers (s : App) : Action → Bool
  | .updateState .. | .setConnectedVPN _ | .logListener _ => true
  | .ikev2State .. => s.ikev2Callback
  | .onBytes p .. => p ≠ .xray
  | .onLog p .. => p = .wireguard
  | _ => false

/-! ## 2. The steps -/

/-- The first point of the engine's own connect function. -/
def enginePc : Protocol → Pc
  | .openvpn => .ovpnProfile
  | .wireguard => .wgConnecting
  | .xray => .xrayConnecting
  | .ikev2 => .ikeProfile

/-- The engine effects of a step inside `WireGuardEngine.connect`. -/
def wgEffects (w : WireGuardEngine) : WgPc → List Effect
  | .preTeardown => if w.active ≠ none then [.stop .wireguard] else []
  | .create => [.start .wireguard]
  | _ => []

/-- One step of the call `i`; `none` where it has to wait. -/
def callStep (D : Stores) (s : App) (i : Nat) (uuid : Uuid) (protocol : Protocol) (inp : Input) :
    Pc → Option (App × Pc × List Effect)
  | .stopOpenVpn =>
    if protocol ≠ .openvpn ∧ s.vpn.activeProtocol = .openvpn ∧ s.vpn.tunnelService = true then
      some ({ s with stops := s.stops ++ [false] }, .stopWireGuard, [.stop .openvpn])
    else some (s, .stopWireGuard, [])
  | .stopWireGuard =>
    if protocol ≠ .wireguard then
      match s.wg.active with
      | none => some ({ s with wg := s.wg.stopPolling }, .stopIkev2, [])
      | some _ => some ({ s with wg := s.wg.stopPolling.launchDown }, .awaitDown s.wg.jobs.length,
          [.stop .wireguard])
    else some (s, .stopIkev2, [])
  -- the end of `disconnectBlocking`
  | .awaitDown j =>
    if s.wg.jobs[j]?.any (·.pc = .done) then
      some (s, .stopIkev2, [.router (.onState .wireguard .disconnected none inp.now)])
    else none
  | .stopIkev2 =>
    if protocol ≠ .ikev2 ∧ s.vpn.activeProtocol = .ikev2 then some (s, .stopXray, [.stop .ikev2])
    else some (s, .stopXray, [])
  -- `XrayEngine.forceStop`
  | .stopXray =>
    if protocol ≠ .xray ∧ s.xrayUuid ≠ none then
      some ({ s with xrayUuid := none }, .resetTraffic, [.stop .xray])
    else some (s, .resetTraffic, [])
  | .resetTraffic => some (s, .setPending, [.router .resetTraffic])
  | .setPending => some (s, .setProtocol, [.router (.setPending (some uuid))])
  | .setProtocol => some (s, enginePc protocol, [.router (.setProtocol protocol)])
  | .ovpnProfile =>
    if D.ovpnProfile uuid then some (s, .ovpnBind, [])
    else some (s, .returned false, [.router (.setPending none)])
  | .ovpnBind => some (s, .ovpnStart, [.bindTunnelService])
  | .ovpnStart =>
    if inp.started then some (s, .returned true, [.start .openvpn]) else some (s, .ovpnFailed, [])
  | .ovpnFailed => some (s, .returned false, [.router (.setPending none)])
  | .wgConnecting =>
    some (s, .wgConnect .lock, [.router (.applyState .connecting none inp.now)])
  | .wgConnect (.done none) =>
    some (s, .returned true, [.router (.setConnected (some uuid))])
  | .wgConnect (.done (some _)) => some (s, .returned false, [])
  | .wgConnect pc =>
    match s.wg.connectStep D i uuid inp.toWgInput pc with
    | none => none
    | some (w, pc', as) =>
      some ({ s with wg := w }, .wgConnect pc', wgEffects s.wg pc ++ as.map .router)
  | .xrayConnecting =>
    some (s, .xrayConnected, [.router (.applyState .connecting none inp.now)])
  | .xrayConnected => some (s, .xrayActive, [.router (.setConnected (some uuid))])
  | .xrayActive => some ({ s with xrayUuid := some uuid }, .xrayState, [])
  | .xrayState =>
    some (s, .xrayStart, [.router (.onState .xray .connecting none inp.now)])
  -- `XrayVpnService.start`
  | .xrayStart =>
    if inp.started then some (s, .returned true, [.start .xray])
    else some ({ s with xrayUuid := none }, .returned true,
      ((XrayEvent.error "The VPN service could not be started").actions inp.now).map .router)
  | .ikeProfile =>
    if (D.ikev2Gateway uuid).all isBlank then
      some (s, .ikeRefused,
        [.router (.appendLog "IKEv2 connect refused: no gateway configured" inp.now)])
    else some (s, .ikeConnecting, [])
  | .ikeRefused => some (s, .ikeUnknown, [.router (.setPending none)])
  | .ikeUnknown =>
    some (s, .returned false, [.router (.applyState .unknown
      (some "IKEv2 profile has no server address — open its settings first") inp.now)])
  | .ikeConnecting =>
    some (s, .ikeConnected, [.router (.applyState .connecting none inp.now)])
  | .ikeConnected => some (s, .ikeInstall, [.router (.setConnected (some uuid))])
  | .ikeInstall => some ({ s with ikev2Callback := true }, .ikeStart, [])
  | .ikeStart => some (s, .returned true, [.start .ikev2])
  | .returned _ => none

/-- The engine part of `disconnect`, after `pendingUuid` is cleared. -/
def stopActive (s : App) (now : Int) : App × List Effect :=
  match s.vpn.activeProtocol with
  | .wireguard =>
    ({ s with wg := (s.wg.disconnectAsync now).1 },
      (if s.wg.active ≠ none then [.stop .wireguard] else []) ++
        (s.wg.disconnectAsync now).2.map .router)
  | .xray => (s, [.stop .xray])
  | .ikev2 => (s, [.stop .ikev2])
  | .openvpn =>
    if s.vpn.tunnelService then ({ s with stops := s.stops ++ [false] }, [.stop .openvpn])
    else (s, [.router (.setDisconnectPending true), .bindTunnelService])

/-- `disconnect`. -/
def tap (s : App) (now : Int) : App × List Effect :=
  ((s.stopActive now).1, .router (.setPending none) :: (s.stopActive now).2)

/-- `tunnelConnection.onServiceConnected`. -/
def onServiceConnected (s : App) : App × List Effect :=
  if s.vpn.disconnectPending then
    ({ s with stops := s.stops ++ [false] },
      [.router (.setTunnelService true), .router (.setDisconnectPending false), .stop .openvpn])
  else (s, [.router (.setTunnelService true)])

/-- A step, before its accesses to the router are made. -/
def control (D : Stores) (s : App) : Label → Option (App × List Effect)
  | .connect uuid =>
    some ({ s with calls := s.calls ++ [⟨uuid, D.protocolOf uuid, .stopOpenVpn⟩] }, [])
  | .disconnect now => some (s.tap now)
  | .call i inp =>
    match s.calls[i]? with
    | none => none
    | some c =>
      match s.callStep D i c.uuid c.protocol inp c.pc with
      | none => none
      | some (s', pc, es) => some ({ s' with calls := s.calls.set i { c with pc := pc } }, es)
  | .job j inp =>
    match s.wg.jobStep j inp with
    | none => none
    | some (w, as) => some ({ s with wg := w }, as.map .router)
  | .onDestroy now =>
    some ({ s with wg := (s.wg.onDestroy now).1 }, (s.wg.onDestroy now).2.map .router)
  -- the poll loop finds its tunnel no longer UP
  | .pollDown now =>
    match s.wg.pollJob with
    | none => none
    | some tunnel =>
      if s.wg.backend.getState tunnel = .up then none
      else some ({ s with wg := { s.wg with active := none, pollJob := none } },
        [.router (.onLog .wireguard "WireGuard tunnel went down" now),
          .router (.onState .wireguard .disconnected none now)])
  | .callback _ a => if s.delivers a then some (s, [.router a]) else none
  | .xray _ ev now =>
    some ({ s with xrayUuid := if ev.ends then none else s.xrayUuid }, (ev.actions now).map .router)
  | .serviceConnected => some s.onServiceConnected
  | .serviceDisconnected => some (s, [.router (.setTunnelService false)])
  | .stopVpn k =>
    if s.stops[k]? = some false then some ({ s with stops := s.stops.set k true }, [.stopVpn])
    else none

/-- The accesses of a step, made. -/
def apply (s : App) (es : List Effect) : App := { s with vpn := s.vpn.performAll (accesses es) }

/-- One step of the UI process, with its effects. -/
def step (D : Stores) (s : App) (l : Label) : Option (App × List Effect) :=
  match s.control D l with
  | none => none
  | some (s', es) => some (s'.apply es, es)

end App

/-! ## 3. Every step of a connect call -/

/-- What one step of the `connect` call `i` on `uuid` does: the process after it, the point the
    call then stands at, and the effects. -/
inductive CallMove (D : Stores) (s : App) (i : Nat) (uuid : Uuid) (protocol : Protocol)
    (inp : Input) : Pc → App → Pc → List Effect → Prop where
  | ovpnStop (hp : protocol ≠ .openvpn) (ha : s.vpn.activeProtocol = .openvpn)
      (hb : s.vpn.tunnelService = true) :
      CallMove D s i uuid protocol inp .stopOpenVpn { s with stops := s.stops ++ [false] }
        .stopWireGuard [.stop .openvpn]
  | ovpnSkip (h : ¬ (protocol ≠ .openvpn ∧ s.vpn.activeProtocol = .openvpn ∧
      s.vpn.tunnelService = true)) :
      CallMove D s i uuid protocol inp .stopOpenVpn s .stopWireGuard []
  | wgStop (t : WgTunnel) (hp : protocol ≠ .wireguard) (ha : s.wg.active = some t) :
      CallMove D s i uuid protocol inp .stopWireGuard
        { s with wg := s.wg.stopPolling.launchDown } (.awaitDown s.wg.jobs.length)
        [.stop .wireguard]
  | wgIdle (hp : protocol ≠ .wireguard) (ha : s.wg.active = none) :
      CallMove D s i uuid protocol inp .stopWireGuard { s with wg := s.wg.stopPolling } .stopIkev2
        []
  | wgSkip (hp : protocol = .wireguard) :
      CallMove D s i uuid protocol inp .stopWireGuard s .stopIkev2 []
  | awaited (j : Nat) (hj : s.wg.jobs[j]?.any (·.pc = .done) = true) :
      CallMove D s i uuid protocol inp (.awaitDown j) s .stopIkev2
        [.router (.onState .wireguard .disconnected none inp.now)]
  | ikeStop (hp : protocol ≠ .ikev2) (ha : s.vpn.activeProtocol = .ikev2) :
      CallMove D s i uuid protocol inp .stopIkev2 s .stopXray [.stop .ikev2]
  | ikeSkip (h : ¬ (protocol ≠ .ikev2 ∧ s.vpn.activeProtocol = .ikev2)) :
      CallMove D s i uuid protocol inp .stopIkev2 s .stopXray []
  | xrayStop (hp : protocol ≠ .xray) (hx : s.xrayUuid ≠ none) :
      CallMove D s i uuid protocol inp .stopXray { s with xrayUuid := none } .resetTraffic
        [.stop .xray]
  | xraySkip (h : ¬ (protocol ≠ .xray ∧ s.xrayUuid ≠ none)) :
      CallMove D s i uuid protocol inp .stopXray s .resetTraffic []
  | reset : CallMove D s i uuid protocol inp .resetTraffic s .setPending [.router .resetTraffic]
  | pending :
      CallMove D s i uuid protocol inp .setPending s .setProtocol
        [.router (.setPending (some uuid))]
  | protocol :
      CallMove D s i uuid protocol inp .setProtocol s (App.enginePc protocol)
        [.router (.setProtocol protocol)]
  | ovpnMissing (h : D.ovpnProfile uuid = false) :
      CallMove D s i uuid protocol inp .ovpnProfile s (.returned false)
        [.router (.setPending none)]
  | ovpnFound (h : D.ovpnProfile uuid = true) :
      CallMove D s i uuid protocol inp .ovpnProfile s .ovpnBind []
  | ovpnBind : CallMove D s i uuid protocol inp .ovpnBind s .ovpnStart [.bindTunnelService]
  | ovpnStarted (h : inp.started = true) :
      CallMove D s i uuid protocol inp .ovpnStart s (.returned true) [.start .openvpn]
  | ovpnThrew (h : inp.started = false) :
      CallMove D s i uuid protocol inp .ovpnStart s .ovpnFailed []
  | ovpnFailed :
      CallMove D s i uuid protocol inp .ovpnFailed s (.returned false) [.router (.setPending none)]
  | wgConnecting :
      CallMove D s i uuid protocol inp .wgConnecting s (.wgConnect .lock)
        [.router (.applyState .connecting none inp.now)]
  | wgOk :
      CallMove D s i uuid protocol inp (.wgConnect (.done none)) s (.returned true)
        [.router (.setConnected (some uuid))]
  | wgError (e : String) :
      CallMove D s i uuid protocol inp (.wgConnect (.done (some e))) s (.returned false) []
  | wgStep (pc pc' : WgPc) (w : WireGuardEngine) (as : List Action) (hf : pc.finished = false)
      (h : s.wg.connectStep D i uuid inp.toWgInput pc = some (w, pc', as)) :
      CallMove D s i uuid protocol inp (.wgConnect pc) { s with wg := w } (.wgConnect pc')
        (App.wgEffects s.wg pc ++ as.map .router)
  | xrayConnecting :
      CallMove D s i uuid protocol inp .xrayConnecting s .xrayConnected
        [.router (.applyState .connecting none inp.now)]
  | xrayConnected :
      CallMove D s i uuid protocol inp .xrayConnected s .xrayActive
        [.router (.setConnected (some uuid))]
  | xrayActive :
      CallMove D s i uuid protocol inp .xrayActive { s with xrayUuid := some uuid } .xrayState []
  | xrayState :
      CallMove D s i uuid protocol inp .xrayState s .xrayStart
        [.router (.onState .xray .connecting none inp.now)]
  | xrayStarted (h : inp.started = true) :
      CallMove D s i uuid protocol inp .xrayStart s (.returned true) [.start .xray]
  | xrayThrew (h : inp.started = false) :
      CallMove D s i uuid protocol inp .xrayStart { s with xrayUuid := none } (.returned true)
        (((XrayEvent.error "The VPN service could not be started").actions inp.now).map .router)
  | ikeNoGateway (h : (D.ikev2Gateway uuid).all isBlank = true) :
      CallMove D s i uuid protocol inp .ikeProfile s .ikeRefused
        [.router (.appendLog "IKEv2 connect refused: no gateway configured" inp.now)]
  | ikeGateway (h : (D.ikev2Gateway uuid).all isBlank = false) :
      CallMove D s i uuid protocol inp .ikeProfile s .ikeConnecting []
  | ikeRefused :
      CallMove D s i uuid protocol inp .ikeRefused s .ikeUnknown [.router (.setPending none)]
  | ikeUnknown :
      CallMove D s i uuid protocol inp .ikeUnknown s (.returned false)
        [.router (.applyState .unknown
          (some "IKEv2 profile has no server address — open its settings first") inp.now)]
  | ikeConnecting :
      CallMove D s i uuid protocol inp .ikeConnecting s .ikeConnected
        [.router (.applyState .connecting none inp.now)]
  | ikeConnected :
      CallMove D s i uuid protocol inp .ikeConnected s .ikeInstall
        [.router (.setConnected (some uuid))]
  | ikeInstall :
      CallMove D s i uuid protocol inp .ikeInstall { s with ikev2Callback := true } .ikeStart []
  | ikeStart : CallMove D s i uuid protocol inp .ikeStart s (.returned true) [.start .ikev2]

/-- Every step of a connect call is one of the moves. -/
theorem callStep_move {D : Stores} {s s' : App} {i : Nat} {uuid : Uuid} {protocol : Protocol}
    {inp : Input} {pc pc' : Pc} {es : List Effect}
    (h : s.callStep D i uuid protocol inp pc = some (s', pc', es)) :
    CallMove D s i uuid protocol inp pc s' pc' es := by
  cases pc with
  | stopOpenVpn =>
    simp only [App.callStep] at h
    split at h
    · rename_i hc
      obtain ⟨rfl, rfl, rfl⟩ := h
      exact .ovpnStop hc.1 hc.2.1 hc.2.2
    · rename_i hc
      obtain ⟨rfl, rfl, rfl⟩ := h
      exact .ovpnSkip hc
  | stopWireGuard =>
    simp only [App.callStep] at h
    split at h
    · rename_i hp
      split at h
      · rename_i ha
        obtain ⟨rfl, rfl, rfl⟩ := h
        exact .wgIdle hp ha
      · rename_i t ha
        obtain ⟨rfl, rfl, rfl⟩ := h
        exact .wgStop t hp ha
    · rename_i hp
      obtain ⟨rfl, rfl, rfl⟩ := h
      exact .wgSkip (by simpa using hp)
  | awaitDown j =>
    simp only [App.callStep] at h
    split at h
    · rename_i hj
      obtain ⟨rfl, rfl, rfl⟩ := h
      exact .awaited j hj
    · cases h
  | stopIkev2 =>
    simp only [App.callStep] at h
    split at h
    · rename_i hc
      obtain ⟨rfl, rfl, rfl⟩ := h
      exact .ikeStop hc.1 hc.2
    · rename_i hc
      obtain ⟨rfl, rfl, rfl⟩ := h
      exact .ikeSkip hc
  | stopXray =>
    simp only [App.callStep] at h
    split at h
    · rename_i hc
      obtain ⟨rfl, rfl, rfl⟩ := h
      exact .xrayStop hc.1 hc.2
    · rename_i hc
      obtain ⟨rfl, rfl, rfl⟩ := h
      exact .xraySkip hc
  | resetTraffic =>
    obtain ⟨rfl, rfl, rfl⟩ := h
    exact .reset
  | setPending =>
    obtain ⟨rfl, rfl, rfl⟩ := h
    exact .pending
  | setProtocol =>
    obtain ⟨rfl, rfl, rfl⟩ := h
    exact .protocol
  | ovpnProfile =>
    simp only [App.callStep] at h
    split at h
    · rename_i hp
      obtain ⟨rfl, rfl, rfl⟩ := h
      exact .ovpnFound hp
    · rename_i hp
      obtain ⟨rfl, rfl, rfl⟩ := h
      exact .ovpnMissing (by simpa using hp)
  | ovpnBind =>
    obtain ⟨rfl, rfl, rfl⟩ := h
    exact .ovpnBind
  | ovpnStart =>
    simp only [App.callStep] at h
    split at h
    · rename_i hs
      obtain ⟨rfl, rfl, rfl⟩ := h
      exact .ovpnStarted hs
    · rename_i hs
      obtain ⟨rfl, rfl, rfl⟩ := h
      exact .ovpnThrew (by simpa using hs)
  | ovpnFailed =>
    obtain ⟨rfl, rfl, rfl⟩ := h
    exact .ovpnFailed
  | wgConnecting =>
    obtain ⟨rfl, rfl, rfl⟩ := h
    exact .wgConnecting
  | wgConnect pc =>
    by_cases hf : pc.finished = true
    · cases pc with
      | done e =>
        cases e with
        | none =>
          obtain ⟨rfl, rfl, rfl⟩ := h
          exact .wgOk
        | some e =>
          obtain ⟨rfl, rfl, rfl⟩ := h
          exact .wgError e
      | _ => cases hf
    · have hf : pc.finished = false := by simpa using hf
      have hstep : s.callStep D i uuid protocol inp (.wgConnect pc) =
          match s.wg.connectStep D i uuid inp.toWgInput pc with
          | none => none
          | some (w, pc', as) =>
            some ({ s with wg := w }, .wgConnect pc', App.wgEffects s.wg pc ++ as.map .router) := by
        cases pc with
        | done e => cases hf
        | _ => rfl
      rw [hstep] at h
      cases hw : s.wg.connectStep D i uuid inp.toWgInput pc with
      | none => rw [hw] at h; cases h
      | some r =>
        obtain ⟨w, pc', as⟩ := r
        rw [hw] at h
        obtain ⟨rfl, rfl, rfl⟩ := h
        exact .wgStep pc pc' w as hf hw
  | xrayConnecting =>
    obtain ⟨rfl, rfl, rfl⟩ := h
    exact .xrayConnecting
  | xrayConnected =>
    obtain ⟨rfl, rfl, rfl⟩ := h
    exact .xrayConnected
  | xrayActive =>
    obtain ⟨rfl, rfl, rfl⟩ := h
    exact .xrayActive
  | xrayState =>
    obtain ⟨rfl, rfl, rfl⟩ := h
    exact .xrayState
  | xrayStart =>
    simp only [App.callStep] at h
    split at h
    · rename_i hs
      obtain ⟨rfl, rfl, rfl⟩ := h
      exact .xrayStarted hs
    · rename_i hs
      obtain ⟨rfl, rfl, rfl⟩ := h
      exact .xrayThrew (by simpa using hs)
  | ikeProfile =>
    simp only [App.callStep] at h
    split at h
    · rename_i hg
      obtain ⟨rfl, rfl, rfl⟩ := h
      exact .ikeNoGateway hg
    · rename_i hg
      obtain ⟨rfl, rfl, rfl⟩ := h
      exact .ikeGateway (by simpa using hg)
  | ikeRefused =>
    obtain ⟨rfl, rfl, rfl⟩ := h
    exact .ikeRefused
  | ikeUnknown =>
    obtain ⟨rfl, rfl, rfl⟩ := h
    exact .ikeUnknown
  | ikeConnecting =>
    obtain ⟨rfl, rfl, rfl⟩ := h
    exact .ikeConnecting
  | ikeConnected =>
    obtain ⟨rfl, rfl, rfl⟩ := h
    exact .ikeConnected
  | ikeInstall =>
    obtain ⟨rfl, rfl, rfl⟩ := h
    exact .ikeInstall
  | ikeStart =>
    obtain ⟨rfl, rfl, rfl⟩ := h
    exact .ikeStart
  | returned ok => cases h

/-! ## 4. What a step does to the router -/

@[simp] theorem accesses_nil : accesses [] = [] := rfl

@[simp] theorem accesses_router (a : Action) (es : List Effect) :
    accesses (.router a :: es) = a :: accesses es := rfl

@[simp] theorem accesses_start (p : Protocol) (es : List Effect) :
    accesses (.start p :: es) = accesses es := rfl

@[simp] theorem accesses_stop (p : Protocol) (es : List Effect) :
    accesses (.stop p :: es) = accesses es := rfl

@[simp] theorem accesses_bind (es : List Effect) :
    accesses (.bindTunnelService :: es) = accesses es := rfl

@[simp] theorem accesses_stopVpn (es : List Effect) : accesses (.stopVpn :: es) = accesses es := rfl

@[simp] theorem accesses_append (es fs : List Effect) :
    accesses (es ++ fs) = accesses es ++ accesses fs := List.filterMap_append

@[simp] theorem accesses_map (as : List Action) : accesses (as.map .router) = as := by
  induction as with
  | nil => rfl
  | cons a as ih => rw [List.map_cons, accesses_router, ih]

@[simp] theorem accesses_wgEffects (w : WireGuardEngine) (pc : WgPc) :
    accesses (App.wgEffects w pc) = [] := by
  unfold App.wgEffects
  split
  · split <;> rfl
  · rfl
  · rfl

/-- Inside its driver a WireGuard call starts and stops WireGuard only. -/
theorem mem_wgEffects {w : WireGuardEngine} {pc : WgPc} {f : Effect} (h : f ∈ App.wgEffects w pc) :
    f = .stop .wireguard ∨ f = .start .wireguard := by
  unfold App.wgEffects at h
  split at h
  · split at h
    · exact Or.inl (List.mem_singleton.mp h)
    · cases h
  · exact Or.inr (List.mem_singleton.mp h)
  · cases h

theorem CallMove.vpn_eq {D : Stores} {s s' : App} {i : Nat} {uuid : Uuid} {protocol : Protocol}
    {inp : Input} {pc pc' : Pc} {es : List Effect}
    (h : CallMove D s i uuid protocol inp pc s' pc' es) : s'.vpn = s.vpn := by
  cases h <;> rfl

/-- A step of a call, taken apart. -/
theorem control_call {D : Stores} {s s' : App} {i : Nat} {inp : Input} {es : List Effect}
    (h : s.control D (.call i inp) = some (s', es)) :
    ∃ c r pc, s.calls[i]? = some c ∧ CallMove D s i c.uuid c.protocol inp c.pc r pc es ∧
      s' = { r with calls := s.calls.set i { c with pc := pc } } := by
  simp only [App.control] at h
  cases hi : s.calls[i]? with
  | none => simp [hi] at h
  | some c =>
    cases hc : s.callStep D i c.uuid c.protocol inp c.pc with
    | none => simp [hi, hc] at h
    | some r =>
      obtain ⟨r, pc, fs⟩ := r
      simp only [hi, hc, Option.some.injEq, Prod.mk.injEq] at h
      obtain ⟨rfl, rfl⟩ := h
      exact ⟨c, r, pc, rfl, callStep_move hc, rfl⟩

/-- A step of a DOWN job, taken apart. -/
theorem control_job {D : Stores} {s s' : App} {j : Nat} {inp : WgInput} {es : List Effect}
    (h : s.control D (.job j inp) = some (s', es)) :
    ∃ w as, JobMove s.wg j inp w as ∧ s' = { s with wg := w } ∧ es = as.map .router := by
  simp only [App.control] at h
  cases hj : s.wg.jobStep j inp with
  | none => simp [hj] at h
  | some r =>
    obtain ⟨w, as⟩ := r
    simp only [hj, Option.some.injEq, Prod.mk.injEq] at h
    exact ⟨w, as, jobStep_move hj, h.1.symm, h.2.symm⟩

/-- The report of the poll loop, taken apart. -/
theorem control_pollDown {D : Stores} {s s' : App} {now : Int} {es : List Effect}
    (h : s.control D (.pollDown now) = some (s', es)) :
    ∃ t, s.wg.pollJob = some t ∧ s.wg.backend.currentTunnel ≠ some t ∧
      s' = { s with wg := { s.wg with active := none, pollJob := none } } ∧
      es = [.router (.onLog .wireguard "WireGuard tunnel went down" now),
        .router (.onState .wireguard .disconnected none now)] := by
  simp only [App.control] at h
  cases hp : s.wg.pollJob with
  | none => simp [hp] at h
  | some t =>
    simp only [hp] at h
    split at h
    · cases h
    · rename_i hg
      obtain ⟨rfl, rfl⟩ := h
      refine ⟨t, rfl, fun hc => hg ?_, rfl, rfl⟩
      simp [GoBackend.getState, hc]

/-- The router does not move before the accesses of a step are made. -/
theorem control_vpn {D : Stores} {s s' : App} {l : Label} {es : List Effect}
    (h : s.control D l = some (s', es)) : s'.vpn = s.vpn := by
  cases l with
  | connect uuid | onDestroy now | xray session ev now | serviceDisconnected =>
    obtain ⟨rfl, rfl⟩ := h
    rfl
  | disconnect now =>
    obtain ⟨rfl, rfl⟩ := h
    unfold App.stopActive
    cases s.vpn.activeProtocol with
    | openvpn => dsimp only; split <;> rfl
    | _ => rfl
  | call i inp =>
    obtain ⟨c, r, pc, -, hm, rfl⟩ := control_call h
    exact hm.vpn_eq
  | job j inp =>
    obtain ⟨w, as, -, rfl, -⟩ := control_job h
    rfl
  | pollDown now =>
    obtain ⟨t, -, -, rfl, -⟩ := control_pollDown h
    rfl
  | callback session a =>
    simp only [App.control] at h
    split at h
    · obtain ⟨rfl, rfl⟩ := h
      rfl
    · cases h
  | serviceConnected =>
    have hs : s.onServiceConnected.1 = s' := congrArg Prod.fst (Option.some.inj h)
    subst hs
    unfold App.onServiceConnected
    split <;> rfl
  | stopVpn k =>
    simp only [App.control] at h
    split at h
    · obtain ⟨rfl, rfl⟩ := h
      rfl
    · cases h

/-- A step other than a call's or a new connect leaves the calls alone. -/
theorem control_calls {D : Stores} {s s' : App} {l : Label} {es : List Effect}
    (h : s.control D l = some (s', es)) (hl : ∀ i inp, l ≠ .call i inp)
    (hc : ∀ uuid, l ≠ .connect uuid) : s'.calls = s.calls := by
  cases l with
  | connect uuid => exact absurd rfl (hc uuid)
  | disconnect now =>
    have hs : (s.stopActive now).1 = s' := congrArg Prod.fst (Option.some.inj h)
    subst hs
    unfold App.stopActive
    cases s.vpn.activeProtocol with
    | openvpn => dsimp only; split <;> rfl
    | _ => rfl
  | call i inp => exact absurd rfl (hl i inp)
  | job j inp =>
    obtain ⟨w, as, -, rfl, -⟩ := control_job h
    rfl
  | pollDown now =>
    obtain ⟨t, -, -, rfl, -⟩ := control_pollDown h
    rfl
  | serviceConnected =>
    have hs : s.onServiceConnected.1 = s' := congrArg Prod.fst (Option.some.inj h)
    subst hs
    unfold App.onServiceConnected
    split <;> rfl
  | callback session a =>
    simp only [App.control] at h
    split at h
    · obtain ⟨rfl, rfl⟩ := h
      rfl
    · cases h
  | stopVpn k =>
    simp only [App.control] at h
    split at h
    · obtain ⟨rfl, rfl⟩ := h
      rfl
    · cases h
  | onDestroy now | xray session ev now | serviceDisconnected =>
    obtain ⟨rfl, rfl⟩ := h
    rfl

/-- A step is its control part and the accesses it makes. -/
theorem step_control {D : Stores} {s s' : App} {l : Label} {es : List Effect}
    (h : s.step D l = some (s', es)) :
    ∃ r, s.control D l = some (r, es) ∧ s' = r.apply es ∧
      s'.vpn = s.vpn.performAll (accesses es) := by
  unfold App.step at h
  cases hc : s.control D l with
  | none => rw [hc] at h; cases h
  | some r =>
    obtain ⟨r, fs⟩ := r
    rw [hc] at h
    obtain ⟨rfl, rfl⟩ := h
    refine ⟨r, rfl, rfl, ?_⟩
    rw [← control_vpn hc]
    rfl

/-! ## 5. Calls stay on their engine -/

/-- The engine whose connect function a point belongs to. -/
def Pc.home : Pc → Option Protocol
  | .ovpnProfile | .ovpnBind | .ovpnStart | .ovpnFailed => some .openvpn
  | .wgConnecting | .wgConnect _ => some .wireguard
  | .xrayConnecting | .xrayConnected | .xrayActive | .xrayState | .xrayStart => some .xray
  | .ikeProfile | .ikeRefused | .ikeUnknown | .ikeConnecting | .ikeConnected | .ikeInstall
  | .ikeStart => some .ikev2
  | _ => none

/-- Every call is at a point of its own engine. -/
def AtHome (s : App) : Prop := ∀ c ∈ s.calls, ∀ p, c.pc.home = some p → c.protocol = p

theorem CallMove.home {D : Stores} {s s' : App} {i : Nat} {uuid : Uuid} {protocol : Protocol}
    {inp : Input} {pc pc' : Pc} {es : List Effect}
    (h : CallMove D s i uuid protocol inp pc s' pc' es)
    (hpc : ∀ p, pc.home = some p → protocol = p) : ∀ p, pc'.home = some p → protocol = p := by
  cases h with
  | protocol => cases protocol <;> exact fun p hp => Option.some.inj hp
  | ovpnFound | ovpnBind | ovpnThrew | wgConnecting | wgStep | xrayConnecting | xrayConnected
  | xrayActive | xrayState | ikeNoGateway | ikeGateway | ikeRefused | ikeConnecting | ikeConnected
  | ikeInstall => exact hpc
  | _ => exact nofun

theorem atHome_step {D : Stores} {s s' : App} {l : Label} {es : List Effect} (I : AtHome s)
    (h : s.step D l = some (s', es)) : AtHome s' := by
  obtain ⟨r, hc, rfl, -⟩ := step_control h
  by_cases hcall : ∃ i inp, l = .call i inp
  · obtain ⟨i, inp, rfl⟩ := hcall
    obtain ⟨c, r, pc, hi, hmove, rfl⟩ := control_call hc
    intro c' hc'
    rcases List.mem_or_eq_of_mem_set hc' with hm | rfl
    · exact I c' hm
    · exact hmove.home (I c (List.mem_of_getElem? hi))
  by_cases hconn : ∃ uuid, l = .connect uuid
  · obtain ⟨uuid, rfl⟩ := hconn
    obtain ⟨rfl, rfl⟩ := hc
    intro c' hc'
    rcases List.mem_append.mp hc' with hm | hm
    · exact I c' hm
    · rw [List.mem_singleton.mp hm]
      exact nofun
  · have hcalls := control_calls hc (fun i inp e => hcall ⟨i, inp, e⟩) fun uuid e => hconn ⟨uuid, e⟩
    intro c' hc'
    exact I c' (hcalls ▸ hc')

end SwiftVpn
