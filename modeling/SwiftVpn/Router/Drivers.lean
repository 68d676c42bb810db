/-
  File:      SwiftVpn/Router/Drivers.lean
  Subject:   THE UI PROCESS WITH THE COROUTINES OF ITS DRIVERS, and the Xray service it talks to.

  `App` leaves it to its surroundings when the drivers report. Here the drivers run:

  * WireGuard -- the poll loops of WireGuard/Polling.lean with their state check. A restart of the
    watchdog is a call of `WireGuardEngine.connect` among the others, which uses `stateMutex` as they do
    and does not return to the router (`restarts`); where its loop is cancelled it throws (`thrown`);
  * Xray -- the service of Xray/Service.lean with the intents, the requests to stop at once and the
    messages on their way (`XraySession`);
  * IKEv2 -- charon's reports, and the coroutine of `startStats` that they start and stop;
  * OpenVPN -- its listeners' callbacks; `level` is the last one that was reported.

  * `Drivers.step` -- one step, with the accesses to the router it makes; `clearLogs` is the one step
    that writes a flow and is no access;
  * `step_vpn` -- so the router moves by the accesses alone.

  Each callback and each access is one step. The coroutine of a user's connect is never cancelled here, nor
  is a DOWN job.
-/
import SwiftVpn.WireGuard.Polling
import SwiftVpn.Xray.Session

namespace SwiftVpn

open Machine

/-! ## 1. The state -/

/-- `VpnStateService.State`. -/
inductive CharonState where
  | connecting
  | connected
  | disconnecting
  | disabled
  deriving DecidableEq, Repr

/-- What the state reporter of `Ikev2Engine` makes of it. -/
def CharonState.mapped : CharonState → VpnState
  | .connecting | .disconnecting => .connecting
  | .connected => .connected
  | .disabled => .disconnected

/-- Where the coroutine of `startStats` stands. -/
inductive SamplerPc where
  | head
  | sample
  | bytes (rx tx : Int)
  | delay
  | done
  deriving DecidableEq, Repr

/-- The coroutine of `startStats` and its locals. -/
structure Sampler where
  baseRx : Int := -1
  baseTx : Int := -1
  cancelled : Bool := false
  pc : SamplerPc := .head
  deriving DecidableEq, Repr

/-- The UI process, its drivers' coroutines and the Xray service. `forced` counts the requests to stop at
    once that are on their way to the service; `restarts` are the calls that a poll loop made, `thrown`
    those of them that end with a CancellationException. -/
structure Drivers extends XraySession where
  forced : Nat := 0
  loops : List PollLoop := []
  restarts : List Nat := []
  thrown : List Nat := []
  samplers : List Sampler := []
  level : Option ConnectionStatus := none
  deriving DecidableEq, Repr

inductive DriverLabel where
  | app (l : Label)
  | openVpn (a : Action)
  | charon (state : CharonState) (error : Option String) (now : Int)
  | sampler (k : Nat) (counters : Option (Int × Int))
  | loop (k : Nat) (inp : PollInput)
  | interruptLoop (k : Nat)
  | interruptCall (k : Nat)
  | handle
  | handleForceStop
  | service (k : Nat) (l : XrayLabel)
  | deliver (now : Int)
  | clearLogs
  deriving DecidableEq, Repr

/-- The steps of the UI process that are no report of a driver's. -/
def Label.isUi : Label → Bool
  | .callback .. | .xray .. | .pollDown _ => false
  | _ => true

/-- The callbacks of OpenVPN's listeners. -/
def Action.isOpenVpn : Action → Bool
  | .updateState .. | .setConnectedVPN _ | .logListener _ | .onBytes .openvpn .. => true
  | _ => false

/-- The level OpenVPN has reported last. -/
def Action.levelAfter (level : Option ConnectionStatus) : Action → Option ConnectionStatus
  | .updateState _ _ level _ => level
  | _ => level

/-! ## 2. The steps -/

/-- The `onBytes` of a sample: the first one establishes the baseline. -/
def Sampler.bytesAction (m : Sampler) (rx tx : Int) : Action :=
  if m.baseRx < 0 then .onBytes .ikev2 rx tx 0 0
  else .onBytes .ikev2 rx tx (max (rx - m.baseRx) 0) (max (tx - m.baseTx) 0)

/-- One step of the coroutine; `counters` is what `readTunBytes` answers. -/
def Sampler.step (m : Sampler) (counters : Option (Int × Int)) : Option (Sampler × List Action) :=
  match m.pc with
  | .head => some ({ m with pc := if m.cancelled then .done else .sample }, [])
  | .sample =>
    match counters with
    | none => some ({ m with pc := .delay }, [])
    | some (rx, tx) => some ({ m with pc := .bytes rx tx }, [])
  | .bytes rx tx =>
    some ({ m with baseRx := rx, baseTx := tx, pc := .delay }, [m.bytesAction rx tx])
  | .delay => some ({ m with pc := if m.cancelled then .done else .head }, [])
  | .done => none

/-- `startStats`. -/
def startStats (ms : List Sampler) : List Sampler :=
  if ms.any fun m => !m.cancelled then ms else ms ++ [{ pc := .head }]

/-- `stopStats`. -/
def stopStats (ms : List Sampler) : List Sampler := ms.map fun m => { m with cancelled := true }

namespace Drivers

/-- The intents that a step of the UI process sends: a tap stops the service by one, a connect by a
    request. -/
def intents (s : Drivers) (es : List Effect) : Label → List XrayCommand
  | .call i _ => (XraySession.intents ((s.app.calls[i]?.map (·.uuid)).getD "") es).filter (· ≠ .stop)
  | _ => XraySession.intents "" es

/-- The requests that a step of the UI process makes. -/
def requests (es : List Effect) : Label → Nat
  | .call _ _ => es.count (.stop .xray)
  | _ => 0

/-- A step of the UI process. -/
def ui (D : Stores) (s : Drivers) (l : Label) : Option (Drivers × List Action) :=
  match s.app.step D l with
  | none => none
  | some (app, es) =>
    some ({ s with
      app := app
      commands := s.commands ++ s.intents es l
      forced := s.forced + requests es l
      loops := rebind s.loops s.app.wg.pollJob app.wg.pollJob }, accesses es)

/-- The label steps a call of a poll loop that is over. -/
def isOver (s : Drivers) : Label → Bool
  | .call i _ => decide (i ∈ s.restarts) && s.app.calls[i]?.any fun c => match c.pc with
    | .wgConnect pc => pc.finished
    | _ => false
  | _ => false

/-- A call, as the poll loops see it. -/
def task (s : Drivers) (i : Nat) (c : Call) : WgTask where
  uuid := c.uuid
  pc := match c.pc with
    | .wgConnect pc => pc
    | _ => .done none
  thrown := decide (i ∈ s.thrown)

/-- The driver with its calls and its loops. -/
def polls (s : Drivers) : PollSystem where
  eng := s.app.wg
  calls := s.app.calls.mapIdx s.task
  loops := s.loops

/-- After the step of a poll loop that led to `p`. -/
def looped (s : Drivers) (p : PollSystem) (as : List Action) : Drivers :=
  { s with
    app := { s.app with
      vpn := s.app.vpn.performAll as
      wg := p.eng
      calls := s.app.calls ++ (p.calls.drop s.app.calls.length).map fun t =>
        ⟨t.uuid, .wireguard, .wgConnect t.pc⟩ }
    loops := p.loops
    restarts := s.restarts ++
      List.range' s.app.calls.length (p.calls.length - s.app.calls.length) }

/-- The call `i` throws and stands at `pc`. -/
def throwAt (s : Drivers) (i : Nat) (c : Call) (pc : WgPc) : Drivers :=
  { s with app := { s.app with calls := s.app.calls.set i { c with pc := .wgConnect pc } }
           thrown := i :: s.thrown }

/-- A step of the service, or the delivery of a message. -/
def session (D : Stores) (s : Drivers) (l : SessionLabel) : Option (Drivers × List Action) :=
  match s.toXraySession.step D l with
  | none => none
  | some (x, es) => some ({ s with toXraySession := x }, accesses es)

/-- One step, with the accesses to the router. -/
def step (D : Stores) (s : Drivers) : DriverLabel → Option (Drivers × List Action)
  | .app l => if l.isUi && !s.isOver l then s.ui D l else none
  | .openVpn a =>
    if a.isOpenVpn then { s with level := a.levelAfter s.level }.ui D (.callback 0 a) else none
  -- the state reporter
  | .charon state error now =>
    let s := match state with
      | .connected => { s with samplers := startStats s.samplers }
      | .disabled => { s with samplers := stopStats s.samplers }
      | _ => s
    if s.app.ikev2Callback then s.ui D (.callback 0 (.ikev2State state.mapped error now))
    else some (s, [])
  | .sampler k counters =>
    match s.samplers[k]? with
    | none => none
    | some m =>
      match m.step counters with
      | none => none
      | some (m', as) =>
        some ({ s with samplers := s.samplers.set k m'
                       app := { s.app with vpn := s.app.vpn.performAll as } }, as)
  | .loop k inp =>
    match s.loops[k]? with
    | none => none
    | some lp =>
      match s.polls.loopStep k lp inp with
      | none => none
      | some (p, as) => some (s.looped p as, as)
  | .interruptLoop k =>
    match s.loops[k]? with
    | none => none
    | some lp =>
      match lp.cancelled, lp.pc with
      | true, .delay _ => some ({ s with loops := s.loops.set k { lp with pc := .done } }, [])
      | _, _ => none
  -- the exception reaches the call that the cancelled loop waits for
  | .interruptCall k =>
    match s.loops[k]? with
    | none => none
    | some lp =>
      match lp.cancelled, lp.pc with
      | true, .restarting i _ _ =>
        match s.app.calls[i]? with
        | none => none
        | some c =>
          match c.pc with
          | .wgConnect .lock => some (s.throwAt i c (.done none), [])
          | .wgConnect (.delay _) => some (s.throwAt i c (.unlock none), [])
          | _ => none
      | _, _ => none
  | .handle => s.session D .handle
  | .handleForceStop =>
    if s.forced = 0 then none
    else match s.toXraySession.serve D (s.services.length - 1) .forceStop with
      | none => none
      | some (x, _) => some ({ s with toXraySession := x, forced := s.forced - 1 }, [])
  | .service k l => s.session D (.service k l)
  | .deliver now => s.session D (.deliver now)
  | .clearLogs => some ({ s with app := { s.app with vpn := { s.app.vpn with logs := [] } } }, [])

end Drivers

/-! ## 3. Every step -/

/-- What reporting to the router leaves of the process. -/
def App.report (s : App) (as : List Action) : App := { s with vpn := s.vpn.performAll as }

/-- The coroutines of `startStats` after a report of charon's. -/
def CharonState.sampled (ms : List Sampler) : CharonState → List Sampler
  | .connected => startStats ms
  | .disabled => stopStats ms
  | _ => ms

/-- What one step of the instance `k` of the service does to the two processes. -/
inductive Served (D : Stores) (x : XraySession) (k : Nat) (l : XrayLabel) : XraySession → Prop where
  | mk (svc svc' : XrayVpnService) (es : List XrayEffect) (hk : x.services[k]? = some svc)
      (hs : svc.step D l = some (svc', es)) :
      Served D x k l
        { x with services := x.services.set k svc', messages := x.messages ++ XraySession.sent es }

/-- The processes after the message `ev` has arrived, `evs` being behind it. -/
def Drivers.delivered (s : Drivers) (ev : XrayEvent) (evs : List XrayEvent) (now : Int) : Drivers :=
  { s with
    messages := evs
    app := { s.app with
      xrayUuid := if ev.ends then none else s.app.xrayUuid
      vpn := s.app.vpn.performAll (ev.actions now) } }

/-- What one step does, with the accesses to the router. -/
inductive DriverMove (D : Stores) (s : Drivers) : DriverLabel → Drivers → List Action → Prop where
  | app (l : Label) (r : App) (es : List Effect) (hl : l.isUi = true) (ho : s.isOver l = false)
      (h : s.app.step D l = some (r, es)) :
      DriverMove D s (.app l)
        { s with
          app := r
          commands := s.commands ++ s.intents es l
          forced := s.forced + Drivers.requests es l
          loops := rebind s.loops s.app.wg.pollJob r.wg.pollJob } (accesses es)
  | openVpn (a : Action) (ha : a.isOpenVpn = true) :
      DriverMove D s (.openVpn a) { s with level := a.levelAfter s.level, app := s.app.report [a] } [a]
  | charon (state : CharonState) (error : Option String) (now : Int)
      (hc : s.app.ikev2Callback = true) :
      DriverMove D s (.charon state error now)
        { s with samplers := state.sampled s.samplers
                 app := s.app.report [.ikev2State state.mapped error now] }
        [.ikev2State state.mapped error now]
  | unheard (state : CharonState) (error : Option String) (now : Int)
      (hc : s.app.ikev2Callback = false) :
      DriverMove D s (.charon state error now) { s with samplers := state.sampled s.samplers } []
  | sampler (k : Nat) (counters : Option (Int × Int)) (m m' : Sampler) (as : List Action)
      (hk : s.samplers[k]? = some m) (hm : m.step counters = some (m', as)) :
      DriverMove D s (.sampler k counters)
        { s with samplers := s.samplers.set k m', app := s.app.report as } as
  | loop (k : Nat) (inp : PollInput) (lp : PollLoop) (p : PollSystem) (as : List Action)
      (hk : s.loops[k]? = some lp) (hm : s.polls.loopStep k lp inp = some (p, as)) :
      DriverMove D s (.loop k inp) (s.looped p as) as
  | interruptLoop (k : Nat) (lp : PollLoop) (hk : s.loops[k]? = some lp) :
      DriverMove D s (.interruptLoop k) { s with loops := s.loops.set k { lp with pc := .done } } []
  | interruptCall (k i : Nat) (lp : PollLoop) (rx tx : Int) (c : Call) (pc pc' : WgPc)
      (hk : s.loops[k]? = some lp) (hpc : lp.pc = .restarting i rx tx) (hi : s.app.calls[i]? = some c)
      (hc : c.pc = .wgConnect pc)
      (hpc' : pc = .lock ∧ pc' = .done none ∨ ∃ wake, pc = .delay wake ∧ pc' = .unlock none) :
      DriverMove D s (.interruptCall k) (s.throwAt i c pc') []
  | handle (c : XrayCommand) (cs : List XrayCommand) (x : XraySession) (hc : s.commands = c :: cs)
      (hs : Served D { s.toXraySession with commands := cs }.started
        ({ s.toXraySession with commands := cs }.started.services.length - 1)
        (XraySession.command c) x) :
      DriverMove D s .handle { s with toXraySession := x } []
  | handleForceStop (x : XraySession)
      (hs : Served D s.toXraySession (s.services.length - 1) .forceStop x) :
      DriverMove D s .handleForceStop { s with toXraySession := x, forced := s.forced - 1 } []
  | service (k : Nat) (l : XrayLabel) (x : XraySession) (hstart : ∀ uuid, l ≠ .start uuid)
      (hstop : l ≠ .stop) (hs : Served D s.toXraySession k l x) :
      DriverMove D s (.service k l) { s with toXraySession := x } []
  | deliver (ev : XrayEvent) (evs : List XrayEvent) (now : Int) (hm : s.messages = ev :: evs) :
      DriverMove D s (.deliver now) (s.delivered ev evs now) (ev.actions now)
  | clearLogs :
      DriverMove D s .clearLogs
        { s with app := { s.app with vpn := { s.app.vpn with logs := [] } } } []

section Steps

variable {D : Stores} {s s' : Drivers} {as : List Action}

@[simp] theorem rebind_self (loops : List PollLoop) (p : Option WgTunnel) : rebind loops p p = loops :=
  if_pos rfl

theorem intents_map_router (uuid : Uuid) (as : List Action) :
    XraySession.intents uuid (as.map .router) = [] := by
  unfold XraySession.intents
  rw [List.filterMap_map]
  exact List.filterMap_eq_nil_iff.2 fun a _ => rfl

/-- A callback does what it does to the router. -/
theorem ui_callback {a : Action} (ha : s.app.delivers a = true) :
    s.ui D (.callback 0 a) = some ({ s with app := s.app.report [a] }, [a]) := by
  have hstep : s.app.step D (.callback 0 a) = some (s.app.report [a], [.router a]) := by
    unfold App.step App.control
    dsimp only
    rw [if_pos ha]
    rfl
  unfold Drivers.ui
  rw [hstep]
  dsimp only
  simp only [Drivers.intents, Drivers.requests, Nat.add_zero]
  have hnone : XraySession.intents "" [.router a] = [] := rfl
  have hloops : rebind s.loops s.app.wg.pollJob (s.app.report [a]).wg.pollJob = s.loops :=
    rebind_self s.loops s.app.wg.pollJob
  rw [hnone, List.append_nil, hloops]
  rfl

theorem delivers_of_isOpenVpn {s : App} {a : Action} (ha : a.isOpenVpn = true) : s.delivers a = true := by
  cases a with
  | onBytes p => cases p <;> first | rfl | cases ha
  | updateState | setConnectedVPN | logListener => rfl
  | _ => cases ha

theorem serve_served {x x' : XraySession} {k : Nat} {l : XrayLabel} {es : List Effect}
    (h : x.serve D k l = some (x', es)) : Served D x k l x' ∧ es = [] := by
  unfold XraySession.serve at h
  split at h
  · cases h
  · rename_i svc hk
    split at h
    · cases h
    · rename_i svc' xes hs
      obtain ⟨rfl, rfl⟩ := h
      exact ⟨.mk svc svc' xes hk hs, rfl⟩

/-- An intent reaches the newest instance, or a new one; nothing else moves. -/
theorem started_eq (x : XraySession) :
    x.started.app = x.app ∧ x.started.commands = x.commands ∧ x.started.messages = x.messages := by
  unfold XraySession.started
  split
  · split <;> exact ⟨rfl, rfl, rfl⟩
  · exact ⟨rfl, rfl, rfl⟩

theorem Served.same {x x' : XraySession} {k : Nat} {l : XrayLabel} (h : Served D x k l x') :
    x'.app = x.app ∧ x'.commands = x.commands := by
  cases h
  exact ⟨rfl, rfl⟩

/-- The service and the delivery of its messages. -/
theorem session_move {l : SessionLabel} (h : s.session D l = some (s', as)) :
    (l = .handle → DriverMove D s .handle s' as) ∧
    (∀ k m, l = .service k m → DriverMove D s (.service k m) s' as) ∧
    (∀ now, l = .deliver now → DriverMove D s (.deliver now) s' as) := by
  unfold Drivers.session at h
  cases hx : s.toXraySession.step D l with
  | none =>
    rw [hx] at h
    cases h
  | some r =>
    obtain ⟨x, es⟩ := r
    rw [hx] at h
    obtain ⟨rfl, rfl⟩ := h
    refine ⟨?_, ?_, ?_⟩
    · rintro rfl
      simp only [XraySession.step] at hx
      split at hx
      · cases hx
      · rename_i c cs hc
        obtain ⟨hs, rfl⟩ := serve_served hx
        exact .handle c cs x hc hs
    · rintro k m rfl
      simp only [XraySession.step] at hx
      split at hx
      · cases hx
      · cases hx
      · cases hx
      · rename_i hstart hstop _
        obtain ⟨hs, rfl⟩ := serve_served hx
        exact .service k m x hstart hstop hs
    · rintro now rfl
      simp only [XraySession.step] at hx
      split at hx
      · cases hx
      · rename_i ev evs hm
        unfold XraySession.ui App.step App.control App.apply at hx
        dsimp only at hx
        rw [accesses_map, intents_map_router, List.append_nil] at hx
        obtain ⟨rfl, rfl⟩ := hx
        rw [accesses_map]
        exact .deliver ev evs now hm

/-- Every step is one of the moves. -/
theorem step_driverMove {l : DriverLabel} (h : s.step D l = some (s', as)) : DriverMove D s l s' as := by
  cases l with
  | app l =>
    simp only [Drivers.step, Bool.and_eq_true, Bool.not_eq_true'] at h
    split at h
    · rename_i hl
      unfold Drivers.ui at h
      cases hs : s.app.step D l with
      | none =>
        rw [hs] at h
        cases h
      | some r =>
        rw [hs] at h
        obtain ⟨rfl, rfl⟩ := h
        exact .app l r.1 r.2 hl.1 hl.2 hs
    · cases h
  | openVpn a =>
    simp only [Drivers.step] at h
    split at h
    · rename_i ha
      rw [ui_callback (delivers_of_isOpenVpn ha)] at h
      obtain ⟨rfl, rfl⟩ := h
      exact .openVpn a ha
    · cases h
  | charon state error now =>
    have hstep : s.step D (.charon state error now) =
        if s.app.ikev2Callback then
          { s with samplers := state.sampled s.samplers }.ui D (.callback 0 (.ikev2State state.mapped error now))
        else some ({ s with samplers := state.sampled s.samplers }, []) := by
      cases state <;> rfl
    rw [hstep] at h
    split at h
    · rename_i hc
      rw [ui_callback (by exact hc)] at h
      obtain ⟨rfl, rfl⟩ := h
      exact .charon state error now hc
    · rename_i hc
      obtain ⟨rfl, rfl⟩ := h
      exact .unheard state error now (Bool.eq_false_iff.mpr hc)
  | sampler k counters =>
    simp only [Drivers.step] at h
    split at h
    · cases h
    · rename_i m hk
      split at h
      · cases h
      · rename_i m' as' hm
        obtain ⟨rfl, rfl⟩ := h
        exact .sampler k counters m m' _ hk hm
  | loop k inp =>
    simp only [Drivers.step] at h
    split at h
    · cases h
    · rename_i lp hk
      split at h
      · cases h
      · rename_i p as' hm
        obtain ⟨rfl, rfl⟩ := h
        exact .loop k inp lp p _ hk hm
  | interruptLoop k =>
    simp only [Drivers.step] at h
    split at h
    · cases h
    · rename_i lp hk
      split at h
      · obtain ⟨rfl, rfl⟩ := h
        exact .interruptLoop k lp hk
      · cases h
  | interruptCall k =>
    simp only [Drivers.step] at h
    split at h
    · cases h
    · rename_i lp hk
      split at h
      · rename_i i rx tx _ hpc
        split at h
        · cases h
        · rename_i c hi
          split at h
          · rename_i hc
            obtain ⟨rfl, rfl⟩ := h
            exact .interruptCall k i lp rx tx c _ _ hk hpc hi hc (.inl ⟨rfl, rfl⟩)
          · rename_i wake hc
            obtain ⟨rfl, rfl⟩ := h
            exact .interruptCall k i lp rx tx c _ _ hk hpc hi hc (.inr ⟨wake, rfl, rfl⟩)
          · cases h
      · cases h
  | handle => exact (session_move h).1 rfl
  | handleForceStop =>
    simp only [Drivers.step] at h
    split at h
    · cases h
    · split at h
      · cases h
      · rename_i x es hx
        obtain ⟨rfl, rfl⟩ := h
        exact .handleForceStop x (serve_served hx).1
  | service k l => exact (session_move h).2.1 k l rfl
  | deliver now => exact (session_move h).2.2 now rfl
  | clearLogs =>
    obtain ⟨rfl, rfl⟩ := h
    exact .clearLogs

/-- **The router moves by the accesses alone**; only the log may be cleared besides. -/
theorem step_vpn {l : DriverLabel} (h : s.step D l = some (s', as)) :
    s'.app.vpn = if l = .clearLogs then { s.app.vpn with logs := [] } else s.app.vpn.performAll as := by
  cases step_driverMove h with
  | app l r es hl ho hs =>
    obtain ⟨u, -, -, hvpn⟩ := step_control hs
    exact hvpn
  | handle c cs x hc hs =>
    show x.app.vpn = s.app.vpn
    rw [hs.same.1, (started_eq { s.toXraySession with commands := cs }).1]
  | handleForceStop x hs | service k l x hstart hstop hs =>
    cases hs
    rfl
  | _ => rfl

end Steps

end SwiftVpn
