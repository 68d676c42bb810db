/-
  File:      SwiftVpn/WireGuard/Engine.lean
  Subject:   THE WIREGUARD DRIVER: GoBackend.java's tunnel slot and WireGuardEngine.kt over it.

  * `GoBackend`, `setStateInternal`, `setState`, `onDestroy` -- the backend's one slot. Whether
    the native and system calls inside an UP succeed is an input (`Option Failure`). On every
    failure `awgTurnOn` returns -1, so the native handle is -1 exactly while `currentTunnel` is
    null and is not kept apart. A state callback is returned with the tunnel it is delivered to.
  * `WireGuardEngine` -- the driver's fields. A `WgTunnel` carries its object identity (`id`),
    since the backend compares tunnels by reference.
  * `connectStep` -- `connect`, cut at the lock, the pre-teardown, the settle delay, the
    assignment of `active` and the two ends of `setState(UP)`; `WgPc` is the point it stands at.
  * `disconnectAsync`, `DownJob`, `jobStep` -- the optimistic stop and the DOWN it launches
    (`disconnectBlocking` runs the same DOWN and waits for it).

  What the driver tells the router is returned as accesses (`Action`), in the order of the calls.
  The poll loop is represented by the tunnel it is bound to (`pollJob`); its samples, its watchdog
  and the log lines of `clampMtu` and `addKeepalive` are not part of this file.
-/
import SwiftVpn.VpnEngine

namespace SwiftVpn

/-! ## 1. The backend -/

/-- A tunnel object: its identity and the profile it was made for. -/
structure WgTunnel where
  id : Nat
  uuid : Uuid
  deriving DecidableEq, Repr

/-- `Tunnel.State`. -/
inductive TunnelState where
  | down
  | toggle
  | up
  deriving DecidableEq, Repr

/-- `BackendException.Reason`. -/
inductive Reason where
  | unknownKernelModuleName
  | awgQuickConfigErrorCode
  | tunnelMissingConfig
  | vpnNotAuthorized
  | unableToStartVpn
  | tunCreationError
  | goActivationErrorCode
  | dnsResolutionFailure
  deriving DecidableEq, Repr

/-- What `setState` can throw: a `BackendException`, or any other exception with its localized
    message and the simple name of its class. -/
inductive Failure where
  | backend (reason : Reason)
  | other (localizedMessage : Option String) (simpleName : String)
  deriving DecidableEq, Repr

/-- The backend's slot. -/
structure GoBackend where
  currentTunnel : Option WgTunnel := none
  currentConfig : Option TunnelInfo := none
  deriving DecidableEq, Repr

/-- State callbacks in the order of delivery. -/
abbrev Callbacks := List (WgTunnel × TunnelState)

namespace GoBackend

/-- `setStateInternal(.., UP)`; `fault` is what its native and system calls come to. -/
def internalUp (b : GoBackend) (tunnel : WgTunnel) (config : Option TunnelInfo)
    (fault : Option Failure) : Except Failure (GoBackend × Callbacks) :=
  if config = none then .error (.backend .tunnelMissingConfig)
  else match fault with
    | some f => .error f
    | none =>
      if b.currentTunnel ≠ none then .ok (b, []) -- "Tunnel already up"
      else .ok (⟨some tunnel, config⟩, [(tunnel, .up)])

/-- `setStateInternal(.., DOWN)`. -/
def internalDown (b : GoBackend) (tunnel : WgTunnel) : GoBackend × Callbacks :=
  if b.currentTunnel = none then (b, []) -- "Tunnel already down"
  else ({}, [(tunnel, .down)])

/-- The UP branch of `setState`: the incumbent goes down first, and comes back (`refault` is what
    that comes to) when the new tunnel fails. -/
def bringUp (b : GoBackend) (tunnel : WgTunnel) (config : Option TunnelInfo)
    (fault refault : Option Failure) : GoBackend × Callbacks × Option Failure :=
  match b.currentTunnel with
  | none =>
    match b.internalUp tunnel config fault with
    | .ok (b', cs) => (b', cs, none)
    | .error f => (b, [], some f)
  | some original =>
    let (b₁, cs₁) := b.internalDown original
    match b₁.internalUp tunnel config fault with
    | .ok (b', cs) => (b', cs₁ ++ cs, none)
    | .error f =>
      match b₁.internalUp original b.currentConfig refault with
      | .ok (b', cs) => (b', cs₁ ++ cs, some f)
      | .error g => (b₁, cs₁, some g)

def getState (b : GoBackend) (tunnel : WgTunnel) : TunnelState :=
  if b.currentTunnel = some tunnel then .up else .down

def setState (b : GoBackend) (tunnel : WgTunnel) (state : TunnelState) (config : Option TunnelInfo)
    (fault refault : Option Failure) : GoBackend × Callbacks × Option Failure :=
  let originalState := b.getState tunnel
  let state := if state = .toggle then (if originalState = .up then .down else .up) else state
  if state = originalState ∧ b.currentTunnel = some tunnel ∧ config = b.currentConfig then
    (b, [], none)
  else if state = .up then b.bringUp tunnel config fault refault
  else if b.currentTunnel = some tunnel then
    let (b', cs) := b.internalDown tunnel
    (b', cs, none)
  else (b, [], none)

/-- `GoBackend.VpnService.onDestroy`: the system takes the service away. -/
def onDestroy (b : GoBackend) : GoBackend × Callbacks :=
  match b.currentTunnel with
  | some tunnel => ({}, [(tunnel, .down)])
  | none => (b, [])

end GoBackend

/-! ## 2. The driver's fields -/

/-- Who holds `stateMutex`: the `connect` call `i`, or the DOWN job `j`. -/
inductive Owner where
  | call (i : Nat)
  | job (j : Nat)
  deriving DecidableEq, Repr

/-- Where a DOWN job stands: waiting for the lock, inside `setState(DOWN)`, finished. -/
inductive JobPc where
  | lock
  | down
  | done
  deriving DecidableEq, Repr

structure DownJob where
  tunnel : WgTunnel
  pc : JobPc
  deriving DecidableEq, Repr

structure WireGuardEngine where
  backend : GoBackend := {}
  stateMutex : Option Owner := none
  lastDownAt : Int := 0
  pollJob : Option WgTunnel := none
  active : Option WgTunnel := none
  lastUuid : Option Uuid := none
  stallRestarts : Nat := 0
  jobs : List DownJob := []
  nextTunnel : Nat := 0
  deriving DecidableEq, Repr

/-- `DOWN_SETTLE_MS`. -/
def downSettleMs : Int := 400

/-- What a step reads from outside: the wall clock, what the calls inside an UP (and inside the
    restore of the incumbent) come to, the backend's version and its tun batch size. -/
structure WgInput where
  now : Int := 0
  fault : Option Failure := none
  refault : Option Failure := none
  version : String := "?"
  batch : Int := -1
  deriving DecidableEq, Repr

/-- `reasonToState`, and DISCONNECTED for every other exception. -/
def reasonToState : Failure → VpnState
  | .backend .vpnNotAuthorized => .authFailed
  | .backend .dnsResolutionFailure => .noNetwork
  | _ => .disconnected

/-- `describe`. -/
def describe : Reason → String
  | .vpnNotAuthorized => "VPN permission was not granted"
  | .dnsResolutionFailure => "Could not resolve the server address"
  | .tunCreationError => "Android refused to create the tunnel interface"
  | .unableToStartVpn => "The VPN service could not be started"
  | .tunnelMissingConfig => "This profile has no usable configuration"
  | .goActivationErrorCode => "The WireGuard backend rejected this configuration"
  | .unknownKernelModuleName => "unknown kernel module name"
  | .awgQuickConfigErrorCode => "awg quick config error code"

/-- The message `onState` carries with a failure. -/
def Failure.message : Failure → Option String
  | .backend r => some (describe r)
  | .other m _ => m

/-- The error text `connect` returns for a failure. -/
def Failure.error : Failure → String
  | .backend r => describe r
  | .other m _ => m.getD "Could not start the WireGuard tunnel"

/-- What the log says of a failure. -/
def Failure.logged : Failure → String
  | .backend r => describe r
  | .other m c => m.getD c

/-- The error text for a config that cannot be read or parsed. -/
def unreadable : String := "This WireGuard profile could not be read"

namespace WireGuardEngine

def stopPolling (w : WireGuardEngine) : WireGuardEngine := { w with pollJob := none }

def startPolling (w : WireGuardEngine) : WireGuardEngine :=
  if w.pollJob ≠ none then w
  else match w.active with
    | some tunnel => { w with pollJob := some tunnel }
    | none => w

/-- The name of a state in the log line. -/
def stateName : TunnelState → String
  | .down => "DOWN"
  | .toggle => "TOGGLE"
  | .up => "UP"

/-- What `onStateChange` tells the router. TOGGLE is never a state the backend reports. -/
def stateActions (newState : TunnelState) (now : Int) : List Action :=
  let line := Action.onLog .wireguard ("WireGuard tunnel is now " ++ stateName newState) now
  match newState with
  | .up => [line, .onState .wireguard .connected none now]
  | .down => [line, .onState .wireguard .disconnected none now]
  | .toggle => []

/-- `WgTunnel.onStateChange`. -/
def onStateChange (w : WireGuardEngine) (newState : TunnelState) (now : Int) :
    WireGuardEngine × List Action :=
  match newState with
  | .up => (w.startPolling, stateActions .up now)
  | .down => (w.stopPolling, stateActions .down now)
  | .toggle => (w, stateActions .toggle now)

/-- Delivers the backend's callbacks in order. -/
def deliver (w : WireGuardEngine) (now : Int) : Callbacks → WireGuardEngine × List Action
  | [] => (w, [])
  | (_, st) :: cs =>
    let (w₁, as₁) := w.onStateChange st now
    let (w₂, as₂) := w₁.deliver now cs
    (w₂, as₁ ++ as₂)

/-- `backend.setState`, its callbacks delivered. -/
def setState (w : WireGuardEngine) (tunnel : WgTunnel) (state : TunnelState)
    (config : Option TunnelInfo) (inp : WgInput) :
    WireGuardEngine × List Action × Option Failure :=
  let (b, cs, f) := w.backend.setState tunnel state config inp.fault inp.refault
  let (w', as) := { w with backend := b }.deliver inp.now cs
  (w', as, f)

/-! ## 3. The stops -/

/-- The common end of the stops: the tunnel in `active` is taken out and its DOWN launched. -/
def launchDown (w : WireGuardEngine) : WireGuardEngine :=
  match w.active with
  | some tunnel => { w with active := none, jobs := w.jobs ++ [⟨tunnel, .lock⟩] }
  | none => w

theorem launchDown_active (w : WireGuardEngine) : w.launchDown.active = none := by
  unfold launchDown
  split
  · rfl
  · assumption

/-- `disconnectAsync`: the stop of a user's tap. -/
def disconnectAsync (w : WireGuardEngine) (now : Int) : WireGuardEngine × List Action :=
  (w.stopPolling.launchDown, [.onState .wireguard .disconnected none now])

/-- One step of the DOWN job `j`. -/
def jobStep (w : WireGuardEngine) (j : Nat) (inp : WgInput) :
    Option (WireGuardEngine × List Action) :=
  match w.jobs[j]? with
  | none => none
  | some job =>
    match job.pc with
    | .lock =>
      if w.stateMutex = none then
        some ({ w with stateMutex := some (.job j), jobs := w.jobs.set j ⟨job.tunnel, .down⟩ }, [])
      else none
    | .down =>
      let (w', as, _) := w.setState job.tunnel .down none inp
      some ({ w' with lastDownAt := inp.now, stateMutex := none,
                      jobs := w'.jobs.set j ⟨job.tunnel, .done⟩ }, as)
    | .done => none

/-- `GoBackend.VpnService.onDestroy`, its callback delivered. -/
def onDestroy (w : WireGuardEngine) (now : Int) : WireGuardEngine × List Action :=
  let (b, cs) := w.backend.onDestroy
  { w with backend := b }.deliver now cs

end WireGuardEngine

/-! ## 4. The connect call -/

/-- Where a `connect` call stands. -/
inductive WgPc where
  | lock
  | read
  | preTeardown
  | down (tunnel : WgTunnel)
  | settle
  | delay (wake : Int)
  | create
  | report (tunnel : WgTunnel)
  | up (tunnel : WgTunnel)
  | failed (failure : Failure)
  | publish
  | unlock (error : Option String)
  | done (error : Option String)
  deriving DecidableEq, Repr

/-- The call has returned. -/
def WgPc.finished : WgPc → Bool
  | .done _ => true
  | _ => false

/-- The log lines after a successful UP. -/
def upLog (inp : WgInput) : List String :=
  ("WireGuard: userspace backend " ++ inp.version) ::
    (if inp.batch ≤ 0 then []
     else if inp.batch = 1 then ["WireGuard: tun offload inactive (legacy single-packet path)"]
     else ["WireGuard: tun offload ACTIVE (kernel batching, batchSize=" ++ toString inp.batch ++ ")"])

/-- One step of the `connect` call `i` on the profile `uuid`; `none` where it has to wait. -/
def WireGuardEngine.connectStep (D : Stores) (w : WireGuardEngine) (i : Nat) (uuid : Uuid)
    (inp : WgInput) : WgPc → Option (WireGuardEngine × WgPc × List Action)
  | .lock =>
    if w.stateMutex = none then some ({ w with stateMutex := some (.call i) }, .read, []) else none
  | .read =>
    match D.wgRaw uuid with
    | none => some (w, .unlock (some unreadable), [])
    | some raw =>
      let w := { w with lastUuid := some uuid, stallRestarts := 0 }
      match D.wgParse raw with
      | none => some (w, .unlock (some unreadable), [])
      | some _ => some (w, .preTeardown, [])
  -- `disconnectBlockingLocked`
  | .preTeardown =>
    let w := w.stopPolling
    match w.active with
    | none => some (w, .settle, [])
    | some tunnel => some ({ w with active := none }, .down tunnel, [])
  | .down tunnel =>
    let (w', as, _) := w.setState tunnel .down none inp
    some ({ w' with lastDownAt := inp.now }, .settle, as)
  | .settle =>
    let sinceDown := inp.now - w.lastDownAt
    if w.lastDownAt > 0 ∧ sinceDown < downSettleMs then
      some (w, .delay (inp.now + (downSettleMs - sinceDown)), [])
    else some (w, .create, [])
  | .delay wake => if wake ≤ inp.now then some (w, .create, []) else none
  | .create =>
    let tunnel : WgTunnel := ⟨w.nextTunnel, uuid⟩
    some ({ w with active := some tunnel, nextTunnel := w.nextTunnel + 1 }, .report tunnel, [])
  | .report tunnel =>
    some (w, .up tunnel, [.onState .wireguard .connecting none inp.now,
      .onLog .wireguard "Starting WireGuard tunnel" inp.now])
  | .up tunnel =>
    match w.setState tunnel .up (D.wgConfig uuid) inp with
    | (w', as, none) => some (w', .publish, as)
    | (w', as, some f) => some (w', .failed f, as)
  | .failed f =>
    some ({ w with active := none }, .unlock (some f.error),
      [.onState .wireguard (reasonToState f) f.message inp.now,
        .onLog .wireguard ("WireGuard failed: " ++ f.logged) inp.now])
  | .publish =>
    some (w, .unlock none, .onTunnelInfo .wireguard ((D.wgConfig uuid).getD {}) ::
      (upLog inp).map (.onLog .wireguard · inp.now))
  | .unlock error => some ({ w with stateMutex := none }, .done error, [])
  | .done _ => none

/-! ## 5. What the backend's calls do -/

namespace GoBackend

/-- DOWN takes the current tunnel out of the slot and tells it; it does nothing to any other. -/
theorem setState_down (b : GoBackend) (tunnel : WgTunnel) (fault refault : Option Failure) :
    b.setState tunnel .down none fault refault =
      if b.currentTunnel = some tunnel then ({}, [(tunnel, .down)], none) else (b, [], none) := by
  by_cases h : b.currentTunnel = some tunnel
  · simp [setState, getState, internalDown, h]
  · simp [setState, getState, h]

/-- What an UP comes to: a missing config fails before any native call. -/
def upFault (config : Option TunnelInfo) (fault : Option Failure) : Option Failure :=
  if config = none then some (.backend .tunnelMissingConfig) else fault

/-- UP on an empty slot: the tunnel is in it and told, or nothing has happened. -/
theorem setState_up_free {b : GoBackend} (hb : b.currentTunnel = none) (tunnel : WgTunnel)
    (config : Option TunnelInfo) (fault refault : Option Failure) :
    b.setState tunnel .up config fault refault =
      match upFault config fault with
      | none => (⟨some tunnel, config⟩, [(tunnel, .up)], none)
      | some f => (b, [], some f) := by
  cases config with
  | none => simp [setState, getState, bringUp, internalUp, upFault, hb]
  | some c => cases fault <;> simp [setState, getState, bringUp, internalUp, upFault, hb]

/-- UP of the tunnel that is in the slot with this config does nothing. -/
theorem setState_up_same {b : GoBackend} {tunnel : WgTunnel} {config : Option TunnelInfo}
    (hb : b.currentTunnel = some tunnel) (hc : config = b.currentConfig)
    (fault refault : Option Failure) :
    b.setState tunnel .up config fault refault = (b, [], none) := by
  simp [setState, getState, hb, hc]

/-- UP on a slot that is taken: the tunnel in it is told DOWN first. After a failure the slot is
    empty, or the incumbent is back in it and told UP. -/
theorem setState_up_taken {b : GoBackend} {original tunnel : WgTunnel}
    {config : Option TunnelInfo} (hb : b.currentTunnel = some original)
    (hne : ¬ (original = tunnel ∧ config = b.currentConfig)) (fault refault : Option Failure) :
    (upFault config fault = none ∧ b.setState tunnel .up config fault refault =
        (⟨some tunnel, config⟩, [(original, .down), (tunnel, .up)], none)) ∨
    (∃ f g, upFault config fault = some f ∧
      b.setState tunnel .up config fault refault = ({}, [(original, .down)], some g)) ∨
    (∃ f, upFault config fault = some f ∧ b.setState tunnel .up config fault refault =
      (⟨some original, b.currentConfig⟩, [(original, .down), (original, .up)], some f)) := by
  have hd : b.internalDown original = ({}, [(original, .down)]) := by simp [internalDown, hb]
  have hup : b.setState tunnel .up config fault refault = b.bringUp tunnel config fault refault := by
    have hneg : ¬ ((TunnelState.up = b.getState tunnel) ∧ b.currentTunnel = some tunnel ∧
        config = b.currentConfig) := fun h => hne ⟨Option.some.inj (hb.symm.trans h.2.1), h.2.2⟩
    unfold setState
    dsimp only
    rw [if_neg (by simp : ¬ TunnelState.up = .toggle), if_neg hneg, if_pos rfl]
  have hin : ({} : GoBackend).internalUp tunnel config fault =
      match upFault config fault with
      | none => .ok (⟨some tunnel, config⟩, [(tunnel, .up)])
      | some f => .error f := by
    cases config <;> cases fault <;> simp [internalUp, upFault]
  have hre : ({} : GoBackend).internalUp original b.currentConfig refault =
      match upFault b.currentConfig refault with
      | none => .ok (⟨some original, b.currentConfig⟩, [(original, .up)])
      | some g => .error g := by
    cases b.currentConfig <;> cases refault <;> simp [internalUp, upFault]
  cases hf : upFault config fault with
  | none => exact Or.inl ⟨rfl, by simp [hup, bringUp, hb, hd, hin, hf]⟩
  | some f =>
    cases hg : upFault b.currentConfig refault with
    | none => exact Or.inr (Or.inr ⟨f, rfl, by simp [hup, bringUp, hb, hd, hin, hf, hre, hg]⟩)
    | some g => exact Or.inr (Or.inl ⟨f, g, rfl, by simp [hup, bringUp, hb, hd, hin, hf, hre, hg]⟩)

end GoBackend

namespace WireGuardEngine

/-- The poll loop after the callbacks `cs`: DOWN stops it, UP binds one to `active` where none is
    running. -/
def pollAfter (active : Option WgTunnel) : Callbacks → Option WgTunnel → Option WgTunnel
  | [], p => p
  | (_, .up) :: cs, p => pollAfter active cs (p.or active)
  | (_, .down) :: cs, _ => pollAfter active cs none
  | (_, .toggle) :: cs, p => pollAfter active cs p

theorem startPolling_eq (w : WireGuardEngine) :
    w.startPolling = { w with pollJob := w.pollJob.or w.active } := by
  obtain ⟨b, m, l, p, a, u, r, j, n⟩ := w
  cases p with
  | some t => rfl
  | none => cases a <;> rfl

/-- Delivering callbacks moves the poll loop and nothing else of the driver. -/
theorem deliver_fst (w : WireGuardEngine) (now : Int) (cs : Callbacks) :
    (w.deliver now cs).1 = { w with pollJob := pollAfter w.active cs w.pollJob } := by
  induction cs generalizing w with
  | nil => rfl
  | cons c cs ih =>
    obtain ⟨t, st⟩ := c
    show ((w.onStateChange st now).1.deliver now cs).1 = _
    rw [ih]
    cases st with
    | up =>
      have hw : (w.onStateChange .up now).1 = { w with pollJob := w.pollJob.or w.active } :=
        startPolling_eq w
      rw [hw]
      rfl
    | down => rfl
    | toggle => rfl

/-- What the router is told are the callbacks' states in order. -/
theorem deliver_snd (w : WireGuardEngine) (now : Int) (cs : Callbacks) :
    (w.deliver now cs).2 = cs.flatMap fun c => stateActions c.2 now := by
  induction cs generalizing w with
  | nil => rfl
  | cons c cs ih =>
    have hs : (w.onStateChange c.2 now).2 = stateActions c.2 now := by
      unfold onStateChange
      cases c.2 <;> rfl
    show (w.onStateChange c.2 now).2 ++ ((w.onStateChange c.2 now).1.deliver now cs).2 = _
    rw [ih, hs, List.flatMap_cons]

/-- `setState` of the driver is the backend's, its callbacks told to the router; of the driver's
    own fields only the poll loop moves. -/
theorem setState_spec (w : WireGuardEngine) (tunnel : WgTunnel) (state : TunnelState)
    (config : Option TunnelInfo) (inp : WgInput) {b : GoBackend} {cs : Callbacks}
    {f : Option Failure}
    (h : w.backend.setState tunnel state config inp.fault inp.refault = (b, cs, f)) :
    w.setState tunnel state config inp =
      ({ w with backend := b, pollJob := pollAfter w.active cs w.pollJob },
        cs.flatMap (fun c => stateActions c.2 inp.now), f) := by
  unfold setState
  rw [h]
  dsimp only
  rw [← deliver_snd { w with backend := b }, deliver_fst]

/-- DOWN through the driver. -/
theorem setState_down (w : WireGuardEngine) (tunnel : WgTunnel) (inp : WgInput) :
    (w.backend.currentTunnel = some tunnel ∧ w.setState tunnel .down none inp =
        ({ w with backend := {}, pollJob := none }, stateActions .down inp.now, none)) ∨
    (w.backend.currentTunnel ≠ some tunnel ∧ w.setState tunnel .down none inp =
        (w, [], none)) := by
  have hs := GoBackend.setState_down w.backend tunnel inp.fault inp.refault
  by_cases h : w.backend.currentTunnel = some tunnel
  · rw [if_pos h] at hs
    exact Or.inl ⟨h, setState_spec w tunnel .down none inp hs⟩
  · rw [if_neg h] at hs
    exact Or.inr ⟨h, setState_spec w tunnel .down none inp hs⟩

end WireGuardEngine

/-! ## 6. Every step of a connect call -/

/-- What one step of the `connect` call `i` on `uuid` does: the driver after it, the point the
    call then stands at, and what the router is told. -/
inductive ConnectMove (D : Stores) (w : WireGuardEngine) (i : Nat) (uuid : Uuid) (inp : WgInput) :
    WgPc → WireGuardEngine → WgPc → List Action → Prop where
  | lock (hm : w.stateMutex = none) :
      ConnectMove D w i uuid inp .lock { w with stateMutex := some (.call i) } .read []
  | unread (lu : Option Uuid) (sr : Nat) (hc : D.wgConfig uuid = none) :
      ConnectMove D w i uuid inp .read { w with lastUuid := lu, stallRestarts := sr }
        (.unlock (some unreadable)) []
  | read (c : TunnelInfo) (hc : D.wgConfig uuid = some c) :
      ConnectMove D w i uuid inp .read { w with lastUuid := some uuid, stallRestarts := 0 }
        .preTeardown []
  | idle (ha : w.active = none) :
      ConnectMove D w i uuid inp .preTeardown w.stopPolling .settle []
  | take (t : WgTunnel) (ha : w.active = some t) :
      ConnectMove D w i uuid inp .preTeardown { w.stopPolling with active := none } (.down t) []
  | down (t : WgTunnel) (hb : w.backend.currentTunnel = some t) :
      ConnectMove D w i uuid inp (.down t)
        { w with backend := {}, pollJob := none, lastDownAt := inp.now } .settle
        (WireGuardEngine.stateActions .down inp.now)
  | downOther (t : WgTunnel) (hb : w.backend.currentTunnel ≠ some t) :
      ConnectMove D w i uuid inp (.down t) { w with lastDownAt := inp.now } .settle []
  | pace (wake : Int) (hl : w.lastDownAt > 0 ∧ inp.now - w.lastDownAt < downSettleMs)
      (hw : wake = inp.now + (downSettleMs - (inp.now - w.lastDownAt))) :
      ConnectMove D w i uuid inp .settle w (.delay wake) []
  | settled (hl : ¬ (w.lastDownAt > 0 ∧ inp.now - w.lastDownAt < downSettleMs)) :
      ConnectMove D w i uuid inp .settle w .create []
  | wake (wake : Int) (hw : wake ≤ inp.now) : ConnectMove D w i uuid inp (.delay wake) w .create []
  | create :
      ConnectMove D w i uuid inp .create
        { w with active := some ⟨w.nextTunnel, uuid⟩, nextTunnel := w.nextTunnel + 1 }
        (.report ⟨w.nextTunnel, uuid⟩) []
  | report (t : WgTunnel) :
      ConnectMove D w i uuid inp (.report t) w (.up t)
        [.onState .wireguard .connecting none inp.now,
          .onLog .wireguard "Starting WireGuard tunnel" inp.now]
  | upFree (t : WgTunnel) (hb : w.backend.currentTunnel = none)
      (hf : GoBackend.upFault (D.wgConfig uuid) inp.fault = none) :
      ConnectMove D w i uuid inp (.up t)
        { w with backend := ⟨some t, D.wgConfig uuid⟩, pollJob := w.pollJob.or w.active } .publish
        (WireGuardEngine.stateActions .up inp.now)
  | upRefused (t : WgTunnel) (f : Failure) (hb : w.backend.currentTunnel = none)
      (hf : GoBackend.upFault (D.wgConfig uuid) inp.fault = some f) :
      ConnectMove D w i uuid inp (.up t) w (.failed f) []
  | upSwap (t o : WgTunnel) (hb : w.backend.currentTunnel = some o)
      (hf : GoBackend.upFault (D.wgConfig uuid) inp.fault = none) :
      ConnectMove D w i uuid inp (.up t)
        { w with backend := ⟨some t, D.wgConfig uuid⟩, pollJob := w.active } .publish
        (WireGuardEngine.stateActions .down inp.now ++ WireGuardEngine.stateActions .up inp.now)
  | upSame (t : WgTunnel) (hb : w.backend.currentTunnel = some t) :
      ConnectMove D w i uuid inp (.up t) w .publish []
  | upLost (t o : WgTunnel) (f g : Failure) (hb : w.backend.currentTunnel = some o)
      (hf : GoBackend.upFault (D.wgConfig uuid) inp.fault = some f) :
      ConnectMove D w i uuid inp (.up t) { w with backend := {}, pollJob := none } (.failed g)
        (WireGuardEngine.stateActions .down inp.now)
  | upBack (t o : WgTunnel) (f : Failure) (hb : w.backend.currentTunnel = some o)
      (hf : GoBackend.upFault (D.wgConfig uuid) inp.fault = some f) :
      ConnectMove D w i uuid inp (.up t)
        { w with backend := ⟨some o, w.backend.currentConfig⟩, pollJob := w.active } (.failed f)
        (WireGuardEngine.stateActions .down inp.now ++ WireGuardEngine.stateActions .up inp.now)
  | failed (f : Failure) :
      ConnectMove D w i uuid inp (.failed f) { w with active := none } (.unlock (some f.error))
        [.onState .wireguard (reasonToState f) f.message inp.now,
          .onLog .wireguard ("WireGuard failed: " ++ f.logged) inp.now]
  | publish :
      ConnectMove D w i uuid inp .publish w (.unlock none)
        (.onTunnelInfo .wireguard ((D.wgConfig uuid).getD {}) ::
          (upLog inp).map (.onLog .wireguard · inp.now))
  | unlock (e : Option String) :
      ConnectMove D w i uuid inp (.unlock e) { w with stateMutex := none } (.done e) []

/-- An UP, as a move. -/
theorem connectMove_up {D : Stores} {w w' : WireGuardEngine} {i : Nat} {uuid : Uuid} {inp : WgInput}
    {t : WgTunnel} {pc' : WgPc} {as : List Action}
    (h : w.connectStep D i uuid inp (.up t) = some (w', pc', as)) :
    ConnectMove D w i uuid inp (.up t) w' pc' as := by
  cases hb : w.backend.currentTunnel with
  | none =>
    have hs := GoBackend.setState_up_free hb t (D.wgConfig uuid) inp.fault inp.refault
    cases hf : GoBackend.upFault (D.wgConfig uuid) inp.fault with
    | none =>
      rw [hf] at hs
      rw [WireGuardEngine.connectStep, w.setState_spec t .up (D.wgConfig uuid) inp hs] at h
      obtain ⟨rfl, rfl, rfl⟩ := h
      exact .upFree t hb hf
    | some f =>
      rw [hf] at hs
      rw [WireGuardEngine.connectStep, w.setState_spec t .up (D.wgConfig uuid) inp hs] at h
      obtain ⟨rfl, rfl, rfl⟩ := h
      exact .upRefused t f hb hf
  | some o =>
    by_cases hne : o = t ∧ D.wgConfig uuid = w.backend.currentConfig
    · obtain ⟨rfl, hcfg⟩ := hne
      have hs := GoBackend.setState_up_same hb hcfg inp.fault inp.refault
      rw [WireGuardEngine.connectStep, w.setState_spec o .up (D.wgConfig uuid) inp hs] at h
      obtain ⟨rfl, rfl, rfl⟩ := h
      exact .upSame o hb
    rcases GoBackend.setState_up_taken hb hne inp.fault inp.refault with
      ⟨hf, hs⟩ | ⟨f, g, hf, hs⟩ | ⟨f, hf, hs⟩
    · rw [WireGuardEngine.connectStep, w.setState_spec t .up (D.wgConfig uuid) inp hs] at h
      obtain ⟨rfl, rfl, rfl⟩ := h
      exact .upSwap t o hb hf
    · rw [WireGuardEngine.connectStep, w.setState_spec t .up (D.wgConfig uuid) inp hs] at h
      obtain ⟨rfl, rfl, rfl⟩ := h
      exact .upLost t o f g hb hf
    · rw [WireGuardEngine.connectStep, w.setState_spec t .up (D.wgConfig uuid) inp hs] at h
      obtain ⟨rfl, rfl, rfl⟩ := h
      exact .upBack t o f hb hf

/-- Every step of a connect call is one of the moves. -/
theorem connectStep_move {D : Stores} {w w' : WireGuardEngine} {i : Nat} {uuid : Uuid}
    {inp : WgInput} {pc pc' : WgPc} {as : List Action}
    (h : w.connectStep D i uuid inp pc = some (w', pc', as)) :
    ConnectMove D w i uuid inp pc w' pc' as := by
  cases pc with
  | lock =>
    simp only [WireGuardEngine.connectStep] at h
    split at h
    · rename_i hm
      simp only [Option.some.injEq, Prod.mk.injEq] at h
      obtain ⟨rfl, rfl, rfl⟩ := h
      exact .lock hm
    · cases h
  | read =>
    simp only [WireGuardEngine.connectStep] at h
    cases hr : D.wgRaw uuid with
    | none =>
      simp only [hr, Option.some.injEq, Prod.mk.injEq] at h
      obtain ⟨rfl, rfl, rfl⟩ := h
      exact .unread w.lastUuid w.stallRestarts (by simp [Stores.wgConfig, hr])
    | some raw =>
      cases hp : D.wgParse raw with
      | none =>
        simp only [hr, hp, Option.some.injEq, Prod.mk.injEq] at h
        obtain ⟨rfl, rfl, rfl⟩ := h
        exact .unread (some uuid) 0 (by simp [Stores.wgConfig, hr, hp])
      | some c =>
        simp only [hr, hp, Option.some.injEq, Prod.mk.injEq] at h
        obtain ⟨rfl, rfl, rfl⟩ := h
        exact .read c (by simp [Stores.wgConfig, hr, hp])
  | preTeardown =>
    simp only [WireGuardEngine.connectStep] at h
    cases ha : w.active with
    | none =>
      simp only [WireGuardEngine.stopPolling, ha, Option.some.injEq, Prod.mk.injEq] at h
      obtain ⟨rfl, rfl, rfl⟩ := h
      have hw : w.stopPolling = { w with pollJob := none, active := none } := by
        simp only [WireGuardEngine.stopPolling, ← ha]
      exact hw ▸ .idle ha
    | some t =>
      simp only [WireGuardEngine.stopPolling, ha, Option.some.injEq, Prod.mk.injEq] at h
      obtain ⟨rfl, rfl, rfl⟩ := h
      exact .take t ha
  | down t =>
    simp only [WireGuardEngine.connectStep] at h
    rcases w.setState_down t inp with ⟨hb, hs⟩ | ⟨hb, hs⟩
    · simp only [hs, Option.some.injEq, Prod.mk.injEq] at h
      obtain ⟨rfl, rfl, rfl⟩ := h
      exact .down t hb
    · simp only [hs, Option.some.injEq, Prod.mk.injEq] at h
      obtain ⟨rfl, rfl, rfl⟩ := h
      exact .downOther t hb
  | settle =>
    simp only [WireGuardEngine.connectStep] at h
    split at h
    · rename_i hl
      simp only [Option.some.injEq, Prod.mk.injEq] at h
      obtain ⟨rfl, rfl, rfl⟩ := h
      exact .pace _ hl rfl
    · rename_i hl
      simp only [Option.some.injEq, Prod.mk.injEq] at h
      obtain ⟨rfl, rfl, rfl⟩ := h
      exact .settled hl
  | delay wake =>
    simp only [WireGuardEngine.connectStep] at h
    split at h
    · rename_i hw
      simp only [Option.some.injEq, Prod.mk.injEq] at h
      obtain ⟨rfl, rfl, rfl⟩ := h
      exact .wake wake hw
    · cases h
  | create =>
    simp only [WireGuardEngine.connectStep, Option.some.injEq, Prod.mk.injEq] at h
    obtain ⟨rfl, rfl, rfl⟩ := h
    exact .create
  | report t =>
    simp only [WireGuardEngine.connectStep, Option.some.injEq, Prod.mk.injEq] at h
    obtain ⟨rfl, rfl, rfl⟩ := h
    exact .report t
  | up t => exact connectMove_up h
  | failed f =>
    simp only [WireGuardEngine.connectStep, Option.some.injEq, Prod.mk.injEq] at h
    obtain ⟨rfl, rfl, rfl⟩ := h
    exact .failed f
  | publish =>
    simp only [WireGuardEngine.connectStep, Option.some.injEq, Prod.mk.injEq] at h
    obtain ⟨rfl, rfl, rfl⟩ := h
    exact .publish
  | unlock e =>
    simp only [WireGuardEngine.connectStep, Option.some.injEq, Prod.mk.injEq] at h
    obtain ⟨rfl, rfl, rfl⟩ := h
    exact .unlock e
  | done e => cases h

/-! ## 7. Every step of a DOWN job -/

/-- What one step of the DOWN job `j` does. -/
inductive JobMove (w : WireGuardEngine) (j : Nat) (inp : WgInput) :
    WireGuardEngine → List Action → Prop where
  | lock (t : WgTunnel) (hj : w.jobs[j]? = some ⟨t, .lock⟩) (hm : w.stateMutex = none) :
      JobMove w j inp
        { w with stateMutex := some (.job j), jobs := w.jobs.set j ⟨t, .down⟩ } []
  | down (t : WgTunnel) (hj : w.jobs[j]? = some ⟨t, .down⟩)
      (hb : w.backend.currentTunnel = some t) :
      JobMove w j inp
        { w with backend := {}, pollJob := none, lastDownAt := inp.now, stateMutex := none,
                 jobs := w.jobs.set j ⟨t, .done⟩ }
        (WireGuardEngine.stateActions .down inp.now)
  | downOther (t : WgTunnel) (hj : w.jobs[j]? = some ⟨t, .down⟩)
      (hb : w.backend.currentTunnel ≠ some t) :
      JobMove w j inp
        { w with lastDownAt := inp.now, stateMutex := none,
                 jobs := w.jobs.set j ⟨t, .done⟩ } []

theorem jobStep_move {w w' : WireGuardEngine} {j : Nat} {inp : WgInput} {as : List Action}
    (h : w.jobStep j inp = some (w', as)) : JobMove w j inp w' as := by
  unfold WireGuardEngine.jobStep at h
  cases hj : w.jobs[j]? with
  | none => simp [hj] at h
  | some job =>
    obtain ⟨t, pc⟩ := job
    cases pc with
    | lock =>
      simp only [hj] at h
      split at h
      · rename_i hm
        simp only [Option.some.injEq, Prod.mk.injEq] at h
        obtain ⟨rfl, rfl⟩ := h
        exact .lock t hj hm
      · cases h
    | down =>
      simp only [hj] at h
      rcases w.setState_down t inp with ⟨hb, hs⟩ | ⟨hb, hs⟩
      · simp only [hs, Option.some.injEq, Prod.mk.injEq] at h
        obtain ⟨rfl, rfl⟩ := h
        exact .down t hj hb
      · simp only [hs, Option.some.injEq, Prod.mk.injEq] at h
        obtain ⟨rfl, rfl⟩ := h
        exact .downOther t hj hb
    | done => simp [hj] at h

/-- What the system's `onDestroy` does: the slot is emptied and its tunnel told. -/
theorem onDestroy_cases (w : WireGuardEngine) (now : Int) :
    (w.backend.currentTunnel = none ∧ w.onDestroy now = (w, [])) ∨
    (w.backend.currentTunnel ≠ none ∧ w.onDestroy now =
      ({ w with backend := {}, pollJob := none }, WireGuardEngine.stateActions .down now)) := by
  unfold WireGuardEngine.onDestroy GoBackend.onDestroy
  cases hb : w.backend.currentTunnel with
  | none => exact Or.inl ⟨rfl, rfl⟩
  | some t => exact Or.inr ⟨by simp, rfl⟩

/-! ## 8. What the router is told belongs to WireGuard -/

namespace WireGuardEngine

theorem stateActions_engine (st : TunnelState) (now : Int) :
    ∀ a ∈ stateActions st now, a.engine = some .wireguard := by
  cases st <;> simp [stateActions, Action.engine]

theorem deliver_engine (w : WireGuardEngine) (now : Int) (cs : Callbacks) :
    ∀ a ∈ (w.deliver now cs).2, a.engine = some .wireguard := by
  intro a ha
  rw [deliver_snd] at ha
  obtain ⟨c, -, hc⟩ := List.mem_flatMap.mp ha
  exact stateActions_engine c.2 now a hc

end WireGuardEngine

theorem ConnectMove.engine {D : Stores} {w w' : WireGuardEngine} {i : Nat} {uuid : Uuid}
    {inp : WgInput} {pc pc' : WgPc} {as : List Action}
    (h : ConnectMove D w i uuid inp pc w' pc' as) : ∀ a ∈ as, a.engine = some .wireguard := by
  have hdown := WireGuardEngine.stateActions_engine .down inp.now
  have hup := WireGuardEngine.stateActions_engine .up inp.now
  have hboth : ∀ a ∈ WireGuardEngine.stateActions .down inp.now ++
      WireGuardEngine.stateActions .up inp.now, a.engine = some .wireguard := by
    intro a ha
    rcases List.mem_append.mp ha with ha | ha
    · exact hdown a ha
    · exact hup a ha
  cases h with
  | down | upLost => exact hdown
  | upFree => exact hup
  | upSwap | upBack => exact hboth
  | report | failed => simp [Action.engine]
  | publish =>
    intro a ha
    rcases List.mem_cons.mp ha with rfl | ha
    · rfl
    · obtain ⟨m, -, rfl⟩ := List.mem_map.mp ha
      rfl
  | _ => exact fun a ha => by cases ha

theorem JobMove.engine {w w' : WireGuardEngine} {j : Nat} {inp : WgInput} {as : List Action}
    (h : JobMove w j inp w' as) : ∀ a ∈ as, a.engine = some .wireguard := by
  cases h with
  | lock => simp
  | down => exact WireGuardEngine.stateActions_engine .down inp.now
  | downOther => simp

/-! ## 9. Tunnel objects are made once -/

/-- The tunnel a call has in hand. -/
def WgPc.tunnel : WgPc → Option WgTunnel
  | .down t | .report t | .up t => some t
  | _ => none

/-- Every tunnel the driver knows has been made, and an empty slot has no poll loop. -/
structure WireGuardEngine.Made (w : WireGuardEngine) : Prop where
  slot : ∀ t, w.backend.currentTunnel = some t → t.id < w.nextTunnel
  active : ∀ t, w.active = some t → t.id < w.nextTunnel
  jobs : ∀ b ∈ w.jobs, b.tunnel.id < w.nextTunnel
  poll : w.backend.currentTunnel = none → w.pollJob = none

theorem made_init : WireGuardEngine.Made {} :=
  ⟨nofun, nofun, nofun, fun _ => rfl⟩

theorem ConnectMove.made {D : Stores} {w w' : WireGuardEngine} {i : Nat} {uuid : Uuid}
    {inp : WgInput} {pc pc' : WgPc} {as : List Action}
    (h : ConnectMove D w i uuid inp pc w' pc' as) (M : w.Made)
    (ht : ∀ t, pc.tunnel = some t → t.id < w.nextTunnel) :
    w'.Made ∧ w.nextTunnel ≤ w'.nextTunnel ∧ ∀ t, pc'.tunnel = some t → t.id < w'.nextTunnel := by
  cases h with
  | take t ha =>
    refine ⟨⟨M.slot, nofun, M.jobs, fun _ => rfl⟩, Nat.le_refl _, fun t' ht' => ?_⟩
    obtain rfl := Option.some.inj ht'
    exact M.active t ha
  | idle ha => exact ⟨⟨M.slot, M.active, M.jobs, fun _ => rfl⟩, Nat.le_refl _, nofun⟩
  | down t hb => exact ⟨⟨nofun, M.active, M.jobs, fun _ => rfl⟩, Nat.le_refl _, nofun⟩
  | create =>
    refine ⟨⟨fun t h => Nat.lt_succ_of_lt (M.slot t h), fun t h => ?_,
      fun b hb => Nat.lt_succ_of_lt (M.jobs b hb), M.poll⟩, Nat.le_succ _, fun t h => ?_⟩
    · obtain rfl := Option.some.inj h
      exact Nat.lt_succ_self _
    · obtain rfl := Option.some.inj h
      exact Nat.lt_succ_self _
  | report t => exact ⟨M, Nat.le_refl _, ht⟩
  | upFree t hb hf =>
    refine ⟨⟨fun t' h => ?_, M.active, M.jobs, nofun⟩, Nat.le_refl _, nofun⟩
    obtain rfl := Option.some.inj h
    exact ht t rfl
  | upSwap t o hb hf =>
    refine ⟨⟨fun t' h => ?_, M.active, M.jobs, nofun⟩, Nat.le_refl _, nofun⟩
    obtain rfl := Option.some.inj h
    exact ht t rfl
  | upLost t o f g hb hf => exact ⟨⟨nofun, M.active, M.jobs, fun _ => rfl⟩, Nat.le_refl _, nofun⟩
  | upBack t o f hb hf =>
    exact ⟨⟨fun t' h => M.slot t' (hb.trans h), M.active, M.jobs, nofun⟩, Nat.le_refl _, nofun⟩
  | failed f => exact ⟨⟨M.slot, nofun, M.jobs, M.poll⟩, Nat.le_refl _, nofun⟩
  | lock | unread | read | downOther | upRefused | upSame | pace | settled | wake | publish
  | unlock => exact ⟨⟨M.slot, M.active, M.jobs, M.poll⟩, Nat.le_refl _, nofun⟩

theorem JobMove.made {w w' : WireGuardEngine} {j : Nat} {inp : WgInput} {as : List Action}
    (h : JobMove w j inp w' as) (M : w.Made) :
    w'.Made ∧ w.nextTunnel ≤ w'.nextTunnel := by
  have hjobs : ∀ {t : WgTunnel} {pc pc' : JobPc}, w.jobs[j]? = some ⟨t, pc⟩ →
      ∀ b ∈ w.jobs.set j ⟨t, pc'⟩, b.tunnel.id < w.nextTunnel := by
    intro t pc pc' hj b hb
    rcases List.mem_or_eq_of_mem_set hb with hm | rfl
    · exact M.jobs b hm
    · exact M.jobs ⟨t, pc⟩ (List.mem_of_getElem? hj)
  cases h with
  | lock t hj hm => exact ⟨⟨M.slot, M.active, hjobs hj, M.poll⟩, Nat.le_refl _⟩
  | down t hj hb => exact ⟨⟨nofun, M.active, hjobs hj, fun _ => rfl⟩, Nat.le_refl _⟩
  | downOther t hj hb => exact ⟨⟨M.slot, M.active, hjobs hj, M.poll⟩, Nat.le_refl _⟩

namespace WireGuardEngine

theorem Made.launchDown {w : WireGuardEngine} (M : w.Made) : w.stopPolling.launchDown.Made := by
  unfold WireGuardEngine.launchDown
  split
  · rename_i t ha
    refine ⟨M.slot, nofun, fun b hb => ?_, fun _ => rfl⟩
    rcases List.mem_append.mp hb with hb | hb
    · exact M.jobs b hb
    · rw [List.mem_singleton.mp hb]
      exact M.active t ha
  · exact ⟨M.slot, M.active, M.jobs, fun _ => rfl⟩

theorem launchDown_nextTunnel (w : WireGuardEngine) :
    w.stopPolling.launchDown.nextTunnel = w.nextTunnel := by
  unfold launchDown
  split <;> rfl

theorem Made.onDestroy {w : WireGuardEngine} (M : w.Made) (now : Int) :
    (w.onDestroy now).1.Made ∧ (w.onDestroy now).1.nextTunnel = w.nextTunnel := by
  rcases onDestroy_cases w now with ⟨-, h⟩ | ⟨-, h⟩
  · rw [h]
    exact ⟨M, rfl⟩
  · rw [h]
    exact ⟨⟨nofun, M.active, M.jobs, fun _ => rfl⟩, rfl⟩

end WireGuardEngine

end SwiftVpn
