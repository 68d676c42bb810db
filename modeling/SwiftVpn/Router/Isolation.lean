/-
  File:      SwiftVpn/Router/Isolation.lean
  Subject:   ENGINES APART: what the engines that do not own the tunnel can do to the router.

  * `engineOf` -- the engine a step belongs to: a callback, a step inside a driver, or what a
    `connect` call does after its driver has returned;
  * `foreign` -- it belongs to an engine other than `activeProtocol`;
  * `foreign_step` -- such a step changes nothing the UI observes exactly when it is `guarded`: the
    callbacks are, behind their gates; of the resumptions two write behind no gate, WireGuard's
    `connectedUuid = uuid` and OpenVPN's `pendingUuid = null`;
  * `isolation` -- along guarded steps, deleting every foreign step from a run leaves the router as
    it was;
  * `isolation_lost` -- a WireGuard call returns after an Xray profile has taken over.
-/
import SwiftVpn.Router.App

namespace SwiftVpn

open Machine

/-! ## 1. Foreign steps -/

/-- What the UI observes of the router, and the usage history. -/
structure Observables where
  state : VpnState
  stateMessage : Option String
  connectedUuid : Option Uuid
  pendingUuid : Option Uuid
  traffic : TrafficStats
  tunnelInfo : TunnelInfo
  connectedSince : Option Int
  usage : List (Uuid × Int × Int)
  deriving DecidableEq, Repr

def VpnEngine.observe (e : VpnEngine) : Observables :=
  ⟨e.state, e.stateMessage, e.connectedUuid, e.pendingUuid, e.traffic, e.tunnelInfo,
    e.connectedSince, e.usage⟩

/-- The engine whose driver a call is inside of, or has returned from. -/
def Pc.engine : Pc → Option Protocol
  | .awaitDown _ | .wgConnect _ => some .wireguard
  | .ovpnFailed => some .openvpn
  | .xrayState | .xrayStart => some .xray
  | _ => none

namespace App

/-- The engine a step belongs to. -/
def engineOf (s : App) : Label → Option Protocol
  | .call i _ =>
    match s.calls[i]? with
    | none => none
    | some c => c.pc.engine
  | .job .. | .onDestroy _ | .pollDown _ => some .wireguard
  | .callback _ a => a.engine
  | .xray .. => some .xray
  | _ => none

/-- The step belongs to an engine that does not own the tunnel. -/
def foreign (s : App) (l : Label) : Bool :=
  match s.engineOf l with
  | none => false
  | some p => s.vpn.activeProtocol ≠ p

/-- The resumptions that write behind no gate find their engine still in charge, or have nothing to
    change. -/
def guarded (s : App) : Label → Bool
  | .call i _ =>
    match s.calls[i]? with
    | none => true
    | some c =>
      match c.pc with
      | .wgConnect (.done none) =>
        s.vpn.activeProtocol == .wireguard || s.vpn.connectedUuid == some c.uuid
      | .ovpnFailed => s.vpn.activeProtocol == .openvpn || s.vpn.pendingUuid == none
      | _ => true
  | _ => true

/-- What a step tells the router, foreign steps deleted. -/
def kept (s : App) (l : Label) (es : List Effect) : List Action :=
  if s.foreign l then [] else accesses es

end App

/-- The two points at which a call writes after its driver has returned. -/
def Pc.resumes : Pc → Bool
  | .wgConnect (.done none) | .ovpnFailed => true
  | _ => false

/-! ## 2. One foreign step -/

/-- Inside a driver a call only makes that driver's callbacks. -/
theorem CallMove.engine {D : Stores} {s s' : App} {i : Nat} {uuid : Uuid} {protocol : Protocol}
    {inp : Input} {pc pc' : Pc} {es : List Effect} {p : Protocol}
    (h : CallMove D s i uuid protocol inp pc s' pc' es) (hp : pc.engine = some p)
    (hr : pc.resumes = false) : ∀ a ∈ accesses es, a.engine = some p := by
  cases h with
  | wgStep pc pc' w as hf hw =>
    simp only [accesses_append, accesses_wgEffects, accesses_map, List.nil_append]
    obtain rfl := Option.some.inj hp
    exact (connectStep_move hw).engine
  | wgOk | ovpnFailed => cases hr
  | awaited | wgError | xrayState | xrayStarted | xrayThrew =>
    obtain rfl := Option.some.inj hp
    simp [Action.engine, XrayEvent.actions]
  | _ => cases hp

/-- A foreign step that is no resumption makes only its engine's callbacks, and these are
    dropped. -/
theorem foreign_unchanged {D : Stores} {s r : App} {l : Label} {es : List Effect}
    (h : s.control D l = some (r, es)) (hf : s.foreign l = true)
    (hr : ∀ i inp c, l = .call i inp → s.calls[i]? = some c → c.pc.resumes = false) :
    s.vpn.performAll (accesses es) = s.vpn := by
  unfold App.foreign at hf
  cases hp : s.engineOf l with
  | none => rw [hp] at hf; cases hf
  | some p =>
    rw [hp] at hf
    refine VpnEngine.performAll_foreign (p := p) ?_ (by simpa using hf)
    cases l with
    | call i inp =>
      obtain ⟨c, r, pc, hi, hmove, -⟩ := control_call h
      simp only [App.engineOf, hi] at hp
      exact hmove.engine hp (hr i inp c rfl hi)
    | job j inp =>
      obtain ⟨w, as, hj, -, rfl⟩ := control_job h
      obtain rfl := Option.some.inj hp
      rw [accesses_map]
      exact hj.engine
    | onDestroy now =>
      obtain ⟨rfl, rfl⟩ := h
      obtain rfl := Option.some.inj hp
      rw [accesses_map]
      exact WireGuardEngine.deliver_engine _ _ _
    | pollDown now =>
      obtain ⟨t, -, -, -, rfl⟩ := control_pollDown h
      obtain rfl := Option.some.inj hp
      simp [Action.engine]
    | callback session a =>
      simp only [App.control] at h
      split at h
      · obtain ⟨rfl, rfl⟩ := h
        simpa [App.engineOf] using hp
      · cases h
    | xray session ev now =>
      obtain ⟨rfl, rfl⟩ := h
      obtain rfl := Option.some.inj hp
      rw [accesses_map]
      cases ev <;> simp [XrayEvent.actions, Action.engine]
    | connect | disconnect | serviceConnected | serviceDisconnected | stopVpn => cases hp

/-- What a resumption writes, and what `guarded` asks of it. -/
theorem resumption {D : Stores} {s r : App} {i : Nat} {inp : Input} {c : Call} {es : List Effect}
    (h : s.control D (.call i inp) = some (r, es)) (hi : s.calls[i]? = some c)
    (hr : c.pc.resumes = true) (hf : s.foreign (.call i inp) = true) :
    (accesses es = [.setConnected (some c.uuid)] ∧
      (s.guarded (.call i inp) = true ↔ s.vpn.connectedUuid = some c.uuid)) ∨
    (accesses es = [.setPending none] ∧
      (s.guarded (.call i inp) = true ↔ s.vpn.pendingUuid = none)) := by
  obtain ⟨c', r, pc, hi', hmove, -⟩ := control_call h
  rw [hi] at hi'
  obtain rfl := Option.some.inj hi'
  obtain ⟨uuid, protocol, pc₀⟩ := c
  simp only [App.foreign, App.engineOf, hi] at hf
  simp only [App.guarded, hi]
  dsimp only at hmove hr hf ⊢
  cases hmove with
  | wgOk =>
    have hp : s.vpn.activeProtocol ≠ .wireguard := by simpa [Pc.engine] using hf
    exact Or.inl ⟨rfl, by simp [hp]⟩
  | ovpnFailed =>
    have hp : s.vpn.activeProtocol ≠ .openvpn := by simpa [Pc.engine] using hf
    exact Or.inr ⟨rfl, by simp [hp]⟩
  | wgStep pc pc' w as hw =>
    cases pc with
    | done e => cases hw
    | _ => cases hr
  | _ => cases hr

theorem guarded_of_not_resumes {s : App} {l : Label}
    (hr : ∀ i inp c, l = .call i inp → s.calls[i]? = some c → c.pc.resumes = false) :
    s.guarded l = true := by
  cases l with
  | call i inp =>
    cases hi : s.calls[i]? with
    | none => simp only [App.guarded, hi]
    | some c =>
      have hc := hr i inp c rfl hi
      simp only [App.guarded, hi]
      split
      · rename_i hpc
        rw [hpc] at hc
        cases hc
      · rename_i hpc
        rw [hpc] at hc
        cases hc
      · rfl
  | _ => rfl

/-- **A foreign step changes nothing the UI observes exactly when it is guarded**, and then it
    changes nothing of the router at all. -/
theorem foreign_step {D : Stores} {s s' : App} {l : Label} {es : List Effect}
    (h : s.step D l = some (s', es)) (hf : s.foreign l = true) :
    (s'.vpn.observe = s.vpn.observe ↔ s.guarded l = true) ∧
      (s.guarded l = true → s'.vpn = s.vpn) := by
  obtain ⟨r, hc, -, hvpn⟩ := step_control h
  by_cases hres : ∃ i inp c, l = .call i inp ∧ s.calls[i]? = some c ∧ c.pc.resumes = true
  · obtain ⟨i, inp, c, rfl, hi, hr⟩ := hres
    rcases resumption hc hi hr hf with ⟨ha, hg⟩ | ⟨ha, hg⟩
    · rw [hvpn, ha, hg]
      refine ⟨⟨fun ho => ?_, fun hu => ?_⟩, fun hu => ?_⟩
      · exact (congrArg Observables.connectedUuid ho).symm
      · simp [VpnEngine.perform, VpnEngine.observe, hu]
      · rw [VpnEngine.performAll_cons, VpnEngine.performAll_nil, VpnEngine.perform, ← hu]
    · rw [hvpn, ha, hg]
      refine ⟨⟨fun ho => ?_, fun hu => ?_⟩, fun hu => ?_⟩
      · exact (congrArg Observables.pendingUuid ho).symm
      · simp [VpnEngine.perform, VpnEngine.observe, hu]
      · rw [VpnEngine.performAll_cons, VpnEngine.performAll_nil, VpnEngine.perform, ← hu]
  · have hr : ∀ i inp c, l = .call i inp → s.calls[i]? = some c → c.pc.resumes = false := by
      intro i inp c hl hi
      cases hb : c.pc.resumes with
      | false => rfl
      | true => exact absurd ⟨i, inp, c, hl, hi, hb⟩ hres
    have hsame : s'.vpn = s.vpn := hvpn.trans (foreign_unchanged hc hf hr)
    have hg : s.guarded l = true := guarded_of_not_resumes hr
    exact ⟨⟨fun _ => hg, fun _ => by rw [hsame]⟩, fun _ => hsame⟩

/-! ## 3. Runs with the foreign steps deleted -/

/-- What the router is after a run along guarded steps is what the kept accesses make of it. -/
theorem replay_kept {D : Stores} {ls : List Label} {s s' : App}
    (hC : Along (silent (App.step D)) (fun s l => s.guarded l = true) s ls)
    (h : exec (silent (App.step D)) s ls = some s') :
    s'.vpn = s.vpn.performAll (outputs (App.step D) App.kept s ls) := by
  induction ls generalizing s with
  | nil =>
    obtain rfl := Option.some.inj h
    rfl
  | cons l ls ih =>
    obtain ⟨t, ht, hrun⟩ := exec_cons.mp h
    obtain ⟨hl, hls⟩ := (along_cons ht).mp hC
    obtain ⟨es, hs⟩ := silent_some ht
    have hhead : t.vpn = s.vpn.performAll (s.kept l es) := by
      unfold App.kept
      split
      · rename_i hf
        exact (foreign_step hs hf).2 hl
      · obtain ⟨r, -, -, hvpn⟩ := step_control hs
        exact hvpn
    rw [ih hls hrun, hhead, outputs_cons hs]
    exact (List.foldl_append ..).symm

/-- **Engines apart.** At every point of a run a step of an engine that does not own the tunnel
    changes nothing the UI observes exactly when it is guarded; and along guarded steps, deleting
    all these steps leaves everything the UI observes as it was. -/
theorem isolation (D : Stores) :
    (∀ (ls : List Label) (s s' : App) (l : Label), exec (silent (App.step D)) {} ls = some s →
      silent (App.step D) s l = some s' → s.foreign l = true →
        (s'.vpn.observe = s.vpn.observe ↔ s.guarded l = true)) ∧
    ∀ (ls : List Label) (s : App),
      Along (silent (App.step D)) (fun s l => s.guarded l = true) {} ls →
      exec (silent (App.step D)) {} ls = some s →
        s.vpn.observe =
          (VpnEngine.performAll {} (outputs (App.step D) App.kept {} ls)).observe := by
  refine ⟨fun ls s s' l _ hs hf => ?_, fun ls s hC h => ?_⟩
  · obtain ⟨es, hs⟩ := silent_some hs
    exact (foreign_step hs hf).1
  · exact congrArg VpnEngine.observe (replay_kept hC h)

/-- A WireGuard profile comes up; an Xray profile takes over once the call has returned. -/
def takeover : List Label :=
  [Label.connect "wg1"] ++ List.replicate 18 (Label.call 0 {}) ++ [Label.connect "xray1"] ++
    List.replicate 2 (Label.call 1 {}) ++ [Label.job 0 {}, .job 0 {}] ++ List.replicate 11 (Label.call 1 {}) ++
    [Label.callback 0 (.onBytes .wireguard 10 20 1 2)]

theorem isolation_takeover :
    ∃ s, exec (silent (App.step sampleStores)) {} takeover = some s ∧
      s.vpn.observe =
        (VpnEngine.performAll {}
          (outputs (App.step sampleStores) App.kept {} takeover)).observe := by
  refine ⟨_, rfl, ?_⟩
  exact (isolation sampleStores).2 takeover _ (by decide) rfl

/-- The WireGuard call returns from its driver, an Xray profile takes over, and then the call
    resumes: **it writes its own uuid over the new owner's**. -/
theorem isolation_lost :
    ∃ s s', exec (silent (App.step sampleStores)) {}
        ([Label.connect "wg1"] ++ List.replicate 17 (Label.call 0 {}) ++ [Label.connect "xray1"] ++
          List.replicate 2 (Label.call 1 {}) ++ [Label.job 0 {}, .job 0 {}] ++
          List.replicate 11 (Label.call 1 {})) = some s ∧
      silent (App.step sampleStores) s (.call 0 {}) = some s' ∧
      s.foreign (.call 0 {}) = true ∧ s.vpn.activeProtocol = .xray ∧
      s.vpn.connectedUuid = some "xray1" ∧ s'.vpn.connectedUuid = some "wg1" := by
  refine ⟨_, _, rfl, rfl, ?_, ?_, ?_, ?_⟩ <;> decide

end SwiftVpn
