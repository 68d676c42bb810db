/-
  File:      SwiftVpn/Router/Quiet.lean
  Subject:   WHEN A DRIVER IS QUIET: where its coroutines stand while no figures can come from them.

  * `Action.figure` -- the accesses that fill the graphs or the tunnel info;
  * `Drivers.busy` -- a coroutine of the engine is past its check and has yet to report;
  * `Drivers.quiet` -- none is, and none passes its check: each is cancelled or has lost its tunnel. For
    the service this counts every coroutine, what is on its way to the UI process, and a START;
  * `Drivers.orderly` -- **when the ends of a session may come**: not while a coroutine is between its
    check and its report. Of the drivers that run here it says nothing of what is reported or when it
    arrives; OpenVPN, whose process is outside, reports figures only under an active level.
  * `performAll_state` -- the state after a sequence of accesses is the last one they show.
-/
import SwiftVpn.Router.Drivers

namespace SwiftVpn

open Machine

/-! ## 1. The accesses -/

/-- The access puts something into the graphs or into the tunnel info. -/
def Action.figure : Action → Bool
  | .onBytes .. => true
  | .onTunnelInfo _ info => info ≠ {}
  | .logListener line => harvestTunnelInfo {} line.message ≠ {}
  | _ => false

/-- The state the access brings while `p` owns the tunnel. -/
def Action.shown (p : Protocol) : Action → Option VpnState
  | .updateState _ _ level _ => if p = .openvpn then some (.ofStatus level) else none
  | .onState q state _ _ => if p = q then some state else none
  | .ikev2State state error _ =>
    if p = .ikev2 then
      match state, error with
      | .connected, _ => some .connected
      | .disconnected, none => some .disconnected
      | _, some _ => some .unknown
      | _, none => none
    else none
  | .applyState state _ _ => some state
  | _ => none

/-- The access hands the tunnel to another engine. -/
def Action.reowns : Action → Bool
  | .setProtocol _ => true
  | _ => false

/-- The last state that a sequence of accesses brings. -/
def lastShown (p : Protocol) (as : List Action) : Option VpnState := (as.filterMap (·.shown p)).getLast?

/-- The messages of the service that end up as figures. -/
def XrayEvent.figure : XrayEvent → Bool
  | .bytes .. | .tunnelInfo _ => true
  | _ => false

/-! ## 2. Where the coroutines stand -/

/-- A `connect` that has taken the old tunnel down and not yet told how the new one came up. -/
def WgPc.comingUp : WgPc → Bool
  | .down _ | .settle | .delay _ | .create | .report _ | .up _ | .failed _ => true
  | _ => false

@[inherit_doc WgPc.comingUp]
def Pc.comingUp : Pc → Bool
  | .wgConnect pc => pc.comingUp
  | _ => false

/-- The points between the check and the report. -/
def SamplerPc.sampling : SamplerPc → Bool
  | .sample | .bytes _ _ => true
  | _ => false

/-- The points of a coroutine of the service at which it asks whether it was cancelled. -/
def XrayPc.asks : XrayPc → Bool
  | .start | .pollHead _ | .delay _ => true
  | _ => false

/-- The points behind which no figures come. -/
def XrayPc.over : XrayPc → Bool
  | .done | .emit _ | .fail _ | .cleanup => true
  | _ => false

/-- The points at which a coroutine of the service gives up. -/
def XrayPc.failing : XrayPc → Bool
  | .fail _ | .stallFail _ _ => true
  | _ => false

/-- The coroutine brings no more figures. -/
def XrayJob.rests (job : XrayJob) : Bool := job.pc.over || (job.pc.asks && job.cancelled)

namespace XrayVpnService

/-- No coroutine of the service brings figures. -/
def rests (s : XrayVpnService) : Bool := s.jobs.all XrayJob.rests

/-- `cleanup` cancels the coroutine. -/
def cancels (s : XrayVpnService) (j : Nat) (job : XrayJob) : Bool :=
  s.pollJob = some j || (s.scope ≠ none && job.scope = s.scope)

/-- Each coroutine rests, or asks at a point at which `cleanup` reaches it. -/
def stoppable (s : XrayVpnService) : Bool :=
  s.jobs.zipIdx.all fun x => x.1.rests || (x.1.pc.asks && s.cancels x.2 x.1)

end XrayVpnService

/-- The command brings a session up. -/
def XrayCommand.starts : XrayCommand → Bool
  | .start _ => true
  | .stop => false

namespace XraySession

/-- No instance of the service brings figures. -/
def rests (x : XraySession) : Bool := x.services.all XrayVpnService.rests

/-- The instance `k` can be stopped and the others rest. -/
def stoppable (x : XraySession) (k : Nat) : Bool :=
  x.services.zipIdx.all fun y => if y.2 = k then y.1.stoppable else y.1.rests

end XraySession

namespace Drivers

/-- The call `i` of a poll loop throws, or the router hears of its end before the loop goes on. -/
def awaits (s : Drivers) (i : Nat) : Bool :=
  decide (i ∈ s.thrown) || field (·.pc.comingUp) false s.app.calls i

/-- The poll loop has passed its check and has yet to report. -/
def sending (s : Drivers) (lp : PollLoop) : Bool :=
  match lp.pc with
  | .sample | .watch _ _ | .bytes _ _ => true
  | .restarting i _ _ => !s.awaits i
  | _ => false

/-- The poll loop waits for the call `i`. -/
def waitsFor (i : Nat) (lp : PollLoop) : Bool :=
  match lp.pc with
  | .restarting j _ _ => j = i
  | _ => false

/-- `isActive && active === tunnel`. -/
def passes (s : Drivers) (lp : PollLoop) : Bool :=
  !lp.cancelled && decide (s.app.wg.active = some lp.tunnel)

/-- A coroutine of WireGuard or of IKEv2 is between its check and its report. -/
def busy (s : Drivers) : Protocol → Bool
  | .wireguard => s.loops.any s.sending || s.app.calls.any (·.pc = .wgConnect .publish)
  | .ikev2 => s.samplers.any (·.pc.sampling)
  | _ => false

/-- No figures come from the engine. -/
def quiet (s : Drivers) : Protocol → Bool
  | .wireguard => !s.busy .wireguard && s.loops.all fun lp => lp.pc = .done || !s.passes lp
  | .ikev2 => !s.busy .ikev2 && s.samplers.all (·.cancelled)
  | .xray => s.toXraySession.rests && s.messages.all (!·.figure) && s.commands.all (!·.starts)
  | .openvpn => !(VpnState.ofStatus s.level).isActive

/-- `p` does not own the tunnel, or `b` holds. -/
def owned (s : Drivers) (p : Protocol) (b : Bool) : Bool := s.app.vpn.activeProtocol ≠ p || b

theorem owned_eq {s : Drivers} {p : Protocol} {b : Bool} (hp : s.app.vpn.activeProtocol = p)
    (h : s.owned p b = true) : b = true := by
  unfold owned at h
  simpa [hp] using h

/-! ## 3. When the ends may come -/

/-- A step of the call `c`, the call `i`. -/
def orderlyCall (s : Drivers) (i : Nat) (inp : Input) (c : Call) : Bool :=
  match c.pc with
  -- the end of `disconnectBlocking`, which no stop goes along with
  | .awaitDown _ => s.owned .wireguard (s.quiet .wireguard)
  | .setProtocol => s.app.vpn.state.isActive || s.quiet c.protocol
  | .ikeUnknown => s.quiet s.app.vpn.activeProtocol
  | .xrayStart => s.owned .xray (if inp.started then s.app.vpn.state.isActive else s.quiet .xray)
  | .wgConnect (.down _) | .wgConnect (.up _) => s.owned .wireguard (!s.busy .wireguard)
  -- the restart of a watchdog that fails: its loop goes on to its report
  | .wgConnect (.failed _) =>
    s.owned .wireguard (!s.busy .wireguard && s.loops.all (!waitsFor i ·))
  | _ => true

/-- A step of the UI process. -/
def orderlyApp (s : Drivers) : Label → Bool
  | .disconnect _ | .onDestroy _ => s.owned .wireguard (!s.busy .wireguard)
  | .job j _ =>
    s.app.wg.jobs[j]?.any (·.pc = .lock) || s.owned .wireguard (!s.busy .wireguard)
  | .call i inp => s.app.calls[i]?.all (s.orderlyCall i inp)
  | _ => true

/-- A step of the instance `k` of the service. -/
def orderlyService (s : Drivers) (k : Nat) : XrayLabel → Bool
  | .onRevoke => s.toXraySession.stoppable k
  | .onDestroy =>
    s.services[k]?.any (fun svc => svc.controller = none && svc.tunFd < 0) ||
      s.toXraySession.stoppable k
  | .job j _ =>
    s.toXraySession.rests ||
      !(s.services[k]?.any fun svc => svc.jobs[j]?.any (·.pc.failing))
  | _ => true

/-- The service handles its next intent: a STOP as below, a START once the end of the session before has
    arrived. -/
def orderlyHandle (s : Drivers) : Bool :=
  match s.commands with
  | .start _ :: _ => s.messages.all (!·.ends)
  | .stop :: cs =>
    let x := { s.toXraySession with commands := cs }.started
    x.stoppable (x.services.length - 1)
  | [] => true

/-- **The ends of a session come while no coroutine of its driver is between its check and its report**, a
    new one begins when they have arrived, and OpenVPN reports figures only under an active level. -/
def orderly (s : Drivers) : DriverLabel → Bool
  | .app l => s.orderlyApp l
  | .openVpn a => !a.figure || (VpnState.ofStatus s.level).isActive
  | .charon state error _ =>
    match state with
    | .connected => s.owned .ikev2 s.app.ikev2Callback
    | .disabled => s.owned .ikev2 (!s.busy .ikev2)
    | _ => s.owned .ikev2 (error = none || s.quiet .ikev2)
  | .loop k _ =>
    s.loops[k]?.all fun lp => lp.pc ≠ .wentDown || s.owned .wireguard (!s.busy .wireguard)
  | .handle => s.orderlyHandle
  | .service k l => s.orderlyService k l
  | .deliver _ =>
    s.messages.head?.all fun ev => !ev.ends || s.owned .xray (s.commands.all (!·.starts))
  | _ => true

end Drivers

/-! ## 4. What the accesses show -/

namespace VpnEngine

/-- **The state after an access** is the one it shows. -/
theorem perform_state (e : VpnEngine) (a : Action) :
    (e.perform a).state = (a.shown e.activeProtocol).getD e.state := by
  have hgate : ∀ (p : Protocol) (f : VpnEngine → VpnEngine) (st : VpnState), (f e).state = st →
      (e.gated p f).state = (if e.activeProtocol = p then some st else none).getD e.state := by
    intro p f st hf
    unfold gated
    split
    · exact hf
    · rfl
  have hmute : ∀ (p : Protocol) (f : VpnEngine → VpnEngine), (f e).state = e.state →
      (e.gated p f).state = e.state := by
    intro p f hf
    unfold gated
    split
    · exact hf
    · rfl
  cases a with
  | updateState state logmessage level now => exact hgate _ _ _ (applyState_state e _ _ now)
  | onState p state message now => exact hgate _ _ _ (applyState_state e _ _ now)
  | ikev2State state error now =>
    show (e.gated .ikev2 (·.ikev2OnState state error now)).state = _
    unfold gated Action.shown
    by_cases hp : e.activeProtocol = .ikev2
    · rw [if_pos hp]
      dsimp only
      rw [if_pos hp]
      cases state <;> cases error <;> first | exact applyState_state e _ _ now | rfl
    · rw [if_neg hp]
      dsimp only
      rw [if_neg hp]
      rfl
  | applyState mapped message now => exact applyState_state e mapped message now
  | setConnectedVPN uuid =>
    refine hmute .openvpn _ ?_
    dsimp only
    split <;> rfl
  | logListener line => exact hmute .openvpn _ rfl
  | onBytes p bytesIn bytesOut diffIn diffOut =>
    refine hmute p _ ?_
    unfold applyBytes
    dsimp only
    split
    · split <;> rfl
    · rfl
  | onLog p message now => exact hmute p _ (appendLog_state e now message)
  | onTunnelInfo p info => exact hmute p _ rfl
  | appendLog message now => exact appendLog_state e now message
  | _ => rfl

theorem perform_activeProtocol (e : VpnEngine) {a : Action} (ha : a.reowns = false) :
    (e.perform a).activeProtocol = e.activeProtocol := by
  by_cases hlink : a.links = true
  · cases a with
    | setProtocol p => cases ha
    | setTunnelService | setDisconnectPending => rfl
    | _ => cases hlink
  · exact (perform_sameLink e (Bool.eq_false_iff.mpr hlink)).activeProtocol

/-- The state after a sequence of accesses is the last one they show. -/
theorem performAll_state {as : List Action} (e : VpnEngine) (h : ∀ a ∈ as, a.reowns = false) :
    (e.performAll as).activeProtocol = e.activeProtocol ∧
    (e.performAll as).state = (lastShown e.activeProtocol as).getD e.state := by
  unfold lastShown
  induction as generalizing e with
  | nil => exact ⟨rfl, rfl⟩
  | cons a as ih =>
    have hsame := perform_activeProtocol e (h a List.mem_cons_self)
    obtain ⟨howner, hstate⟩ := ih (e.perform a) fun b hb => h b (List.mem_cons_of_mem a hb)
    refine ⟨howner.trans hsame, ?_⟩
    rw [performAll_cons, hstate, hsame, perform_state]
    cases ha : a.shown e.activeProtocol with
    | none => rw [List.filterMap_cons_none ha, Option.getD_none]
    | some st => rw [List.filterMap_cons_some ha, List.getLast?_cons, Option.getD_some, Option.getD_some]

end VpnEngine

end SwiftVpn
