/-
  File:      SwiftVpn/Router/Attempts.lean
  Subject:   WHAT THE ROW OF A WIREGUARD PROFILE SHOWS while its attempt runs and after it failed.

  * `AppMade` -- the driver's tunnels are made once, in every reachable state;
  * `failed_shown_iff` -- a `connect` on a WireGuard profile that returns false, run on its own
    from any reachable state: its row shows the failure exactly when the config is readable and
    the association is gone or names the profile as connected. Otherwise the router stays in
    CONNECTING (an unreadable config reports no state), or the row does (a pending row with an
    inactive state shows CONNECTING).
-/
import SwiftVpn.Router.App

namespace SwiftVpn

open Machine

/-! ## 1. Reachable drivers -/

/-- `WireGuardEngine.Made`, the tunnels the calls have in hand included. -/
structure AppMade (s : App) : Prop where
  wg : s.wg.Made
  calls : ∀ c ∈ s.calls, ∀ pc t, c.pc = .wgConnect pc → pc.tunnel = some t →
    t.id < s.wg.nextTunnel

theorem CallMove.made {D : Stores} {s s' : App} {i : Nat} {uuid : Uuid} {protocol : Protocol}
    {inp : Input} {pc pc' : Pc} {es : List Effect}
    (h : CallMove D s i uuid protocol inp pc s' pc' es) (M : s.wg.Made)
    (ht : ∀ wpc t, pc = .wgConnect wpc → wpc.tunnel = some t → t.id < s.wg.nextTunnel) :
    s'.wg.Made ∧ s.wg.nextTunnel ≤ s'.wg.nextTunnel ∧
      ∀ wpc t, pc' = .wgConnect wpc → wpc.tunnel = some t → t.id < s'.wg.nextTunnel := by
  cases h with
  | wgStep pc pc' w as hf hw =>
    obtain ⟨hm, hle, ht'⟩ := (connectStep_move hw).made M fun t => ht pc t rfl
    refine ⟨hm, hle, fun wpc t hpc => ?_⟩
    injection hpc with hpc
    exact hpc ▸ ht' t
  | wgStop t hp ha =>
    have hnext := WireGuardEngine.launchDown_nextTunnel s.wg
    refine ⟨M.launchDown, Nat.le_of_eq hnext.symm, fun wpc t hpc => ?_⟩
    cases hpc
  | wgIdle hp ha =>
    refine ⟨⟨M.slot, M.active, M.jobs, fun _ => rfl⟩, Nat.le_refl _, fun wpc t hpc => ?_⟩
    cases hpc
  | wgConnecting =>
    refine ⟨M, Nat.le_refl _, fun wpc t hpc ht' => ?_⟩
    injection hpc with hpc
    rw [← hpc] at ht'
    cases ht'
  | protocol =>
    refine ⟨M, Nat.le_refl _, fun wpc t hpc => ?_⟩
    cases protocol <;> cases hpc
  | _ =>
    refine ⟨M, Nat.le_refl _, fun wpc t hpc => ?_⟩
    cases hpc

theorem appMade_step {D : Stores} (s : App) (l : Label) (s' : App) (M : AppMade s)
    (h : silent (App.step D) s l = some s') : AppMade s' := by
  obtain ⟨es, hs⟩ := silent_some h
  obtain ⟨r, hc, rfl, -⟩ := step_control hs
  -- a step that leaves the calls alone and makes no tunnel
  have hsame : ∀ {w : WireGuardEngine}, w.Made → w.nextTunnel = s.wg.nextTunnel →
      ∀ {r : App}, r.wg = w → r.calls = s.calls → AppMade (r.apply es) := by
    intro w hw hn r hr hcalls
    refine ⟨hr ▸ hw, fun c hm pc t hpc ht => ?_⟩
    have hlt := M.calls c (hcalls ▸ hm) pc t hpc ht
    rw [← hn, ← hr] at hlt
    exact hlt
  cases l with
  | connect uuid =>
    obtain ⟨rfl, rfl⟩ := hc
    refine ⟨M.wg, fun c hm pc t hpc => ?_⟩
    rcases List.mem_append.mp hm with hm | hm
    · exact M.calls c hm pc t hpc
    · rw [List.mem_singleton.mp hm] at hpc
      cases hpc
  | disconnect now =>
    have hr : (s.stopActive now).1 = r := congrArg Prod.fst (Option.some.inj hc)
    subst hr
    unfold App.stopActive
    cases s.vpn.activeProtocol with
    | wireguard =>
      exact hsame M.wg.launchDown (WireGuardEngine.launchDown_nextTunnel _) rfl rfl
    | openvpn => dsimp only; split <;> exact hsame M.wg rfl rfl rfl
    | _ => exact hsame M.wg rfl rfl rfl
  | call i inp =>
    obtain ⟨c, r, pc, hi, hmove, rfl⟩ := control_call hc
    obtain ⟨hw, hle, ht⟩ := hmove.made M.wg (M.calls c (List.mem_of_getElem? hi))
    refine ⟨hw, fun c' hm wpc t hpc ht' => ?_⟩
    rcases List.mem_or_eq_of_mem_set hm with hm | rfl
    · exact Nat.lt_of_lt_of_le (M.calls c' hm wpc t hpc ht') hle
    · exact ht wpc t hpc ht'
  | job j inp =>
    obtain ⟨w, as, hj, rfl, -⟩ := control_job hc
    have hn : w.nextTunnel = s.wg.nextTunnel := by cases hj <;> rfl
    exact hsame (hj.made M.wg).1 hn rfl rfl
  | onDestroy now =>
    obtain ⟨rfl, rfl⟩ := hc
    exact hsame (M.wg.onDestroy now).1 (M.wg.onDestroy now).2 rfl rfl
  | pollDown now =>
    obtain ⟨t, -, -, rfl, -⟩ := control_pollDown hc
    exact hsame (w := { s.wg with active := none, pollJob := none })
      ⟨M.wg.slot, nofun, M.wg.jobs, fun _ => rfl⟩ rfl rfl rfl
  | callback session a =>
    simp only [App.control] at hc
    split at hc
    · obtain ⟨rfl, rfl⟩ := hc
      exact hsame M.wg rfl rfl rfl
    · cases hc
  | xray session ev now =>
    obtain ⟨rfl, rfl⟩ := hc
    exact hsame M.wg rfl rfl rfl
  | serviceConnected =>
    have hr : s.onServiceConnected.1 = r := congrArg Prod.fst (Option.some.inj hc)
    subst hr
    unfold App.onServiceConnected
    split <;> exact hsame M.wg rfl rfl rfl
  | serviceDisconnected =>
    obtain ⟨rfl, rfl⟩ := hc
    exact hsame M.wg rfl rfl rfl
  | stopVpn k =>
    simp only [App.control] at hc
    split at hc
    · obtain ⟨rfl, rfl⟩ := hc
      exact hsame M.wg rfl rfl rfl
    · cases hc

theorem appMade_reach {D : Stores} {ls : List Label} {s : App}
    (h : exec (silent (App.step D)) {} ls = some s) : AppMade s :=
  exec_inv' appMade_step ⟨made_init, fun c hc => by simp at hc⟩ h

/-! ## 2. A failed attempt -/

/-- The steps of the call `i` alone, at the times `ts`; what the backend's calls come to is in
    `inp`. -/
def solo (i : Nat) (inp : Input) (ts : List Int) : List Label :=
  ts.map fun t => .call i { inp with now := t }

section Solo

/-- `r` still associates what `e` did, `u` pending. -/
def Intact (e r : VpnEngine) (u : Uuid) : Prop :=
  r.connectedUuid = e.connectedUuid ∧ r.pendingUuid = some u

/-- `r` associates no profile. -/
def Cleared (r : VpnEngine) : Prop := r.connectedUuid = none ∧ r.pendingUuid = none

variable (D : Stores) (s : App) (u : Uuid) (inp : Input)

/-- Between the pre-teardown and the UP: the tunnel of before is gone and has taken the
    association with it, or nothing has happened yet. -/
def Torn (r : App) : Prop :=
  (s.wg.backend.currentTunnel ≠ none ∧ r.wg.backend.currentTunnel = none ∧ Cleared r.vpn) ∨
    (r.wg.backend.currentTunnel = s.wg.backend.currentTunnel ∧ Intact s.vpn r.vpn u)

/-- The UP has failed with `f`. -/
def Refused (f : Failure) (r : VpnEngine) : Prop :=
  (s.wg.backend.currentTunnel ≠ none ∧ Cleared r) ∨
    (s.wg.backend.currentTunnel = none ∧ Intact s.vpn r u ∧ inp.fault = some f)

/-- The driver has answered with an error. -/
def Outcome (r : VpnEngine) : Prop :=
  (D.wgConfig u = none ∧ r.state = .connecting) ∨
    (D.wgConfig u ≠ none ∧ ∃ f, r.state = reasonToState f ∧
      ((s.wg.backend.currentTunnel ≠ none ∧ Cleared r) ∨
        (s.wg.backend.currentTunnel = none ∧ inp.fault = some f ∧
          if reasonToState f = .disconnected then Cleared r else Intact s.vpn r u)))

/-- What holds inside the driver. -/
def SoloWg (r : App) : WgPc → Prop
  | .lock | .read =>
    Intact s.vpn r.vpn u ∧ r.wg.backend.currentTunnel = s.wg.backend.currentTunnel ∧
      r.vpn.state = .connecting
  | .preTeardown | .down _ =>
    D.wgConfig u ≠ none ∧ Intact s.vpn r.vpn u ∧
      r.wg.backend.currentTunnel = s.wg.backend.currentTunnel
  | .settle | .delay _ | .create => D.wgConfig u ≠ none ∧ Torn s u r
  | .report t | .up t =>
    D.wgConfig u ≠ none ∧ Torn s u r ∧ r.wg.backend.currentTunnel ≠ some t
  | .failed f => D.wgConfig u ≠ none ∧ Refused s u inp f r.vpn
  | .unlock (some _) | .done (some _) => Outcome D s u inp r.vpn
  | _ => True

/-- What holds at each point of the call, `s` being the state it was issued in; the points of the
    other engines are not reached. -/
def SoloAt (r : App) : Pc → Prop
  | .stopOpenVpn | .stopWireGuard | .stopIkev2 | .stopXray | .resetTraffic | .setPending =>
    r.vpn.connectedUuid = s.vpn.connectedUuid ∧
      r.wg.backend.currentTunnel = s.wg.backend.currentTunnel
  | .setProtocol =>
    Intact s.vpn r.vpn u ∧ r.wg.backend.currentTunnel = s.wg.backend.currentTunnel
  | .wgConnecting =>
    r.vpn.activeProtocol = .wireguard ∧ Intact s.vpn r.vpn u ∧
      r.wg.backend.currentTunnel = s.wg.backend.currentTunnel
  | .wgConnect pc => r.vpn.activeProtocol = .wireguard ∧ SoloWg D s u inp r pc
  | .returned false => Outcome D s u inp r.vpn
  | .returned true => True
  | _ => False

end Solo

/-- What the row shows once the driver has answered with an error. -/
theorem Outcome.shown_iff {D : Stores} {s : App} {u : Uuid} {inp : Input} {r : VpnEngine}
    (h : Outcome D s u inp r) :
    (r.state.isActive = false ∧ (r.stateFor u).isActive = false) ↔
      D.wgConfig u ≠ none ∧ ((∃ f, inp.fault = some f ∧ reasonToState f = .disconnected) ∨
        s.wg.backend.currentTunnel ≠ none ∨ s.vpn.connectedUuid = some u) := by
  have hina : ∀ f, (reasonToState f).isActive = false := by
    intro f
    unfold reasonToState
    split <;> rfl
  rcases h with ⟨hc, hs⟩ | ⟨hc, f, hs, ⟨ht, hr⟩ | ⟨ht, hf, hr⟩⟩
  · simp [hc, hs, VpnState.isActive]
  · -- the tunnel of before has taken the association with it
    have hrow : r.stateFor u = .disconnected := by simp [VpnEngine.stateFor, hr.1, hr.2]
    have hstate : r.state.isActive = false := by rw [hs]; exact hina f
    exact ⟨fun _ => ⟨hc, Or.inr (Or.inl ht)⟩, fun _ => ⟨hstate, by rw [hrow]; rfl⟩⟩
  · by_cases hd : reasonToState f = .disconnected
    · rw [if_pos hd] at hr
      have hrow : r.stateFor u = .disconnected := by simp [VpnEngine.stateFor, hr.1, hr.2]
      have hstate : r.state.isActive = false := by rw [hs]; exact hina f
      exact ⟨fun _ => ⟨hc, Or.inl ⟨f, hf, hd⟩⟩, fun _ => ⟨hstate, by rw [hrow]; rfl⟩⟩
    · rw [if_neg hd] at hr
      have hcond : ¬ ∃ f, inp.fault = some f ∧ reasonToState f = .disconnected := by
        rintro ⟨g, hg, hgd⟩
        rw [hf] at hg
        exact hd (Option.some.inj hg ▸ hgd)
      have hstate : r.state.isActive = false := by rw [hs]; exact hina f
      by_cases hu : s.vpn.connectedUuid = some u
      · have hrow : r.stateFor u = r.state := by simp [VpnEngine.stateFor, hr.1, hu]
        exact ⟨fun _ => ⟨hc, Or.inr (Or.inr hu)⟩, fun _ => ⟨hstate, by rw [hrow]; exact hstate⟩⟩
      · -- the pending row shows CONNECTING over an inactive state
        have hrow : r.stateFor u = .connecting := by
          simp [VpnEngine.stateFor, hr.1, hr.2, hu, hstate]
        simp only [hrow, hcond, ht, hu, ne_eq, not_true_eq_false, or_self, and_false, iff_false]
        rintro ⟨-, h⟩
        cases h

/-! ### 2.1 What the driver's reports do to the association -/

section Told

variable {e : VpnEngine} (now : Int) (hp : e.activeProtocol = .wireguard)
include hp

/-- DOWN clears the association. -/
theorem told_down : Cleared (e.performAll (WireGuardEngine.stateActions .down now)) ∧
    (e.performAll (WireGuardEngine.stateActions .down now)).activeProtocol = .wireguard := by
  simp [WireGuardEngine.stateActions, VpnEngine.perform, VpnEngine.gated, hp, Cleared]

/-- DOWN and then UP clears the association. -/
theorem told_down_up : Cleared (e.performAll (WireGuardEngine.stateActions .down now ++
      WireGuardEngine.stateActions .up now)) ∧
    (e.performAll (WireGuardEngine.stateActions .down now ++
      WireGuardEngine.stateActions .up now)).activeProtocol = .wireguard := by
  simp [WireGuardEngine.stateActions, VpnEngine.perform, VpnEngine.gated, hp, Cleared]

/-- CONNECTING keeps it. -/
theorem told_connecting (m : String) :
    let r := e.performAll [.onState .wireguard .connecting none now, .onLog .wireguard m now]
    r.connectedUuid = e.connectedUuid ∧ r.pendingUuid = e.pendingUuid ∧
      r.activeProtocol = .wireguard := by
  simp [VpnEngine.perform, VpnEngine.gated, hp]

/-- A failure is shown; DISCONNECTED clears the association. -/
theorem told_failed (f : Failure) (m : String) :
    let r := e.performAll [.onState .wireguard (reasonToState f) f.message now,
      .onLog .wireguard m now]
    r.state = reasonToState f ∧ r.activeProtocol = .wireguard ∧
      if reasonToState f = .disconnected then Cleared r
      else r.connectedUuid = e.connectedUuid ∧ r.pendingUuid = e.pendingUuid := by
  by_cases hd : reasonToState f = .disconnected
  · simp [VpnEngine.perform, VpnEngine.gated, hp, hd, Cleared]
  · simp [VpnEngine.perform, VpnEngine.gated, hp, hd]

end Told

/-! ### 2.2 The steps of the call -/

section SoloSteps

variable {D : Stores} {s r r' : App} {u : Uuid} {inp : Input} {i : Nat}

/-- The association is as torn as before when the step touches neither it nor the slot. -/
theorem Torn.same (h : Torn s u r) (hb : r'.wg.backend = r.wg.backend)
    (hc : r'.vpn.connectedUuid = r.vpn.connectedUuid) (hp : r'.vpn.pendingUuid = r.vpn.pendingUuid) :
    Torn s u r' := by
  unfold Torn Cleared Intact
  rw [hb, hc, hp]
  exact h

/-- A step inside the driver. -/
theorem soloWg_move {w : WireGuardEngine} {inp' : WgInput} {pc pc' : WgPc} {as : List Action}
    (hf : inp'.fault = inp.fault) (M : r.wg.Made) (hp : r.vpn.activeProtocol = .wireguard)
    (S : SoloWg D s u inp r pc) (h : ConnectMove D r.wg i u inp' pc w pc' as)
    (hv : r'.vpn = r.vpn.performAll as) (hw : r'.wg = w) :
    r'.vpn.activeProtocol = .wireguard ∧ SoloWg D s u inp r' pc' := by
  have hfault : ∀ {f : Failure}, D.wgConfig u ≠ none →
      GoBackend.upFault (D.wgConfig u) inp'.fault = some f → inp.fault = some f := by
    intro f hc h
    rw [GoBackend.upFault, if_neg hc, hf] at h
    exact h
  cases h with
  | lock hm =>
    rw [VpnEngine.performAll_nil] at hv
    refine ⟨by rw [hv]; exact hp, ?_⟩
    show Intact _ _ _ ∧ _ ∧ _
    rw [hv, hw]
    exact S
  | unread lu sr hc =>
    rw [VpnEngine.performAll_nil] at hv
    refine ⟨by rw [hv]; exact hp, Or.inl ⟨hc, ?_⟩⟩
    rw [hv]
    exact S.2.2
  | read c hc =>
    rw [VpnEngine.performAll_nil] at hv
    refine ⟨by rw [hv]; exact hp, by rw [hc]; simp, ?_⟩
    rw [hv, hw]
    exact ⟨S.1, S.2.1⟩
  | idle ha =>
    rw [VpnEngine.performAll_nil] at hv
    refine ⟨by rw [hv]; exact hp, S.1, Or.inr ?_⟩
    rw [hv, hw]
    exact ⟨S.2.2, S.2.1⟩
  | take t ha =>
    rw [VpnEngine.performAll_nil] at hv
    refine ⟨by rw [hv]; exact hp, S.1, ?_⟩
    rw [hv, hw]
    exact S.2
  | down t hb =>
    obtain ⟨hcl, hp'⟩ := told_down inp'.now hp
    refine ⟨by rw [hv]; exact hp', S.1, Or.inl ?_⟩
    rw [hv, hw, ← S.2.2, hb]
    exact ⟨by simp, rfl, hcl⟩
  | downOther t hb =>
    rw [VpnEngine.performAll_nil] at hv
    refine ⟨by rw [hv]; exact hp, S.1, Or.inr ?_⟩
    rw [hv, hw]
    exact ⟨S.2.2, S.2.1⟩
  | pace | settled | wake =>
    rw [VpnEngine.performAll_nil] at hv
    exact ⟨by rw [hv]; exact hp, S.1, S.2.same (by rw [hw]) (by rw [hv]) (by rw [hv])⟩
  | create =>
    rw [VpnEngine.performAll_nil] at hv
    refine ⟨by rw [hv]; exact hp, S.1, S.2.same (by rw [hw]) (by rw [hv]) (by rw [hv]), ?_⟩
    rw [hw]
    intro hb
    exact Nat.lt_irrefl _ (M.slot _ hb)
  | report t =>
    obtain ⟨hc, hpe, hp'⟩ := told_connecting inp'.now hp "Starting WireGuard tunnel"
    refine ⟨by rw [hv]; exact hp', S.1, S.2.1.same (by rw [hw]) (by rw [hv]; exact hc)
      (by rw [hv]; exact hpe), ?_⟩
    rw [hw]
    exact S.2.2
  | upFree | upSwap =>
    refine ⟨?_, trivial⟩
    rw [hv]
    simp [WireGuardEngine.stateActions, VpnEngine.perform, VpnEngine.gated, hp]
  | upSame t hb => exact absurd hb S.2.2
  | upRefused t f hb hf' =>
    rw [VpnEngine.performAll_nil] at hv
    refine ⟨by rw [hv]; exact hp, S.1, ?_⟩
    rw [hv]
    rcases S.2.1 with ⟨hs, -, hcl⟩ | ⟨hs, hi⟩
    · exact Or.inl ⟨hs, hcl⟩
    · exact Or.inr ⟨hs ▸ hb, hi, hfault S.1 hf'⟩
  | upLost t o f g hb hf' =>
    obtain ⟨hcl, hp'⟩ := told_down inp'.now hp
    refine ⟨by rw [hv]; exact hp', S.1, Or.inl ⟨?_, by rw [hv]; exact hcl⟩⟩
    rcases S.2.1 with ⟨hs, -⟩ | ⟨hs, -⟩
    · exact hs
    · rw [← hs, hb]
      simp
  | upBack t o f hb hf' =>
    obtain ⟨hcl, hp'⟩ := told_down_up inp'.now hp
    refine ⟨by rw [hv]; exact hp', S.1, Or.inl ⟨?_, by rw [hv]; exact hcl⟩⟩
    rcases S.2.1 with ⟨hs, -⟩ | ⟨hs, -⟩
    · exact hs
    · rw [← hs, hb]
      simp
  | failed f =>
    obtain ⟨hst, hp', ha⟩ := told_failed inp'.now hp f ("WireGuard failed: " ++ f.logged)
    refine ⟨by rw [hv]; exact hp', Or.inr ⟨S.1, f, by rw [hv]; exact hst, ?_⟩⟩
    rw [hv]
    rcases S.2 with ⟨hs, hcl⟩ | ⟨hs, hi, hfi⟩
    · refine Or.inl ⟨hs, ?_⟩
      by_cases hd : reasonToState f = .disconnected
      · rw [if_pos hd] at ha
        exact ha
      · rw [if_neg hd] at ha
        exact ⟨ha.1.trans hcl.1, ha.2.trans hcl.2⟩
    · refine Or.inr ⟨hs, hfi, ?_⟩
      by_cases hd : reasonToState f = .disconnected
      · rw [if_pos hd] at ha ⊢
        exact ha
      · rw [if_neg hd] at ha ⊢
        exact ⟨ha.1.trans hi.1, ha.2.trans hi.2⟩
  | publish =>
    refine ⟨?_, trivial⟩
    rw [hv]
    refine VpnEngine.performAll_inv (I := fun e => e.activeProtocol = .wireguard)
      (fun a ha e he => ?_) hp
    rcases List.mem_cons.mp ha with rfl | ha
    · simp [VpnEngine.perform, VpnEngine.gated, he]
    · obtain ⟨m, -, rfl⟩ := List.mem_map.mp ha
      simp [VpnEngine.perform, VpnEngine.gated, he]
  | unlock err =>
    rw [VpnEngine.performAll_nil] at hv
    refine ⟨by rw [hv]; exact hp, ?_⟩
    cases err with
    | none => trivial
    | some m =>
      show Outcome _ _ _ _ _
      rw [hv]
      exact S

/-- A step of the call. -/
theorem soloAt_move {q : App} {inp' : Input} {pc pc' : Pc} {es : List Effect}
    (hf : inp'.fault = inp.fault) (M : r.wg.Made) (S : SoloAt D s u inp r pc)
    (h : CallMove D r i u .wireguard inp' pc q pc' es)
    (hv : r'.vpn = r.vpn.performAll (accesses es)) (hw : r'.wg = q.wg) :
    SoloAt D s u inp r' pc' := by
  cases h with
  | ovpnStop | ovpnSkip | wgSkip | ikeStop | ikeSkip | xrayStop | xraySkip | reset =>
    show _ ∧ _
    rw [hv, hw]
    exact S
  | wgStop t hp | wgIdle hp => exact absurd rfl hp
  | pending =>
    show Intact _ _ _ ∧ _
    rw [hv, hw]
    exact ⟨⟨S.1, rfl⟩, S.2⟩
  | protocol =>
    show _ ∧ Intact _ _ _ ∧ _
    rw [hv, hw]
    exact ⟨rfl, S.1, S.2⟩
  | wgConnecting =>
    have hap := S.1
    show _ ∧ Intact _ _ _ ∧ _ ∧ _
    rw [hv, hw]
    refine ⟨?_, ⟨?_, ?_⟩, S.2.2, ?_⟩
    · simp [VpnEngine.perform, hap]
    · simp [VpnEngine.perform, S.2.1.1]
    · simp [VpnEngine.perform, S.2.1.2]
    · simp [VpnEngine.perform]
  | wgOk => trivial
  | wgError e =>
    show Outcome _ _ _ _ _
    rw [hv]
    exact S.2
  | wgStep pc pc' w as hfin hs =>
    simp only [accesses_append, accesses_wgEffects, accesses_map, List.nil_append] at hv
    exact soloWg_move hf M S.1 S.2 (connectStep_move hs) hv hw
  | awaited | ovpnMissing | ovpnFound | ovpnBind | ovpnStarted | ovpnThrew | ovpnFailed
  | xrayConnecting | xrayConnected | xrayActive | xrayState | xrayStarted | xrayThrew
  | ikeNoGateway | ikeGateway | ikeRefused | ikeUnknown | ikeConnecting | ikeConnected
  | ikeInstall | ikeStart => exact S.elim

end SoloSteps

/-- The call `i` on `u` and what holds at the point it stands at. -/
def SoloInv (D : Stores) (s : App) (u : Uuid) (inp : Input) (i : Nat) (r : App) : Prop :=
  AppMade r ∧ ∃ pc, r.calls[i]? = some ⟨u, .wireguard, pc⟩ ∧ SoloAt D s u inp r pc

theorem soloInv_step {D : Stores} {s : App} {u : Uuid} {inp : Input} {i : Nat} (r : App)
    (l : Label) (r' : App) (S : SoloInv D s u inp i r)
    (hl : ∃ t, l = .call i { inp with now := t }) (h : silent (App.step D) r l = some r') :
    SoloInv D s u inp i r' := by
  obtain ⟨t, rfl⟩ := hl
  obtain ⟨M, pc, hi, hat⟩ := S
  refine ⟨appMade_step r _ r' M h, ?_⟩
  obtain ⟨es, hs⟩ := silent_some h
  obtain ⟨q, hc, rfl, hvpn⟩ := step_control hs
  obtain ⟨c, q, pc', hi', hmove, rfl⟩ := control_call hc
  rw [hi] at hi'
  obtain rfl := Option.some.inj hi'
  refine ⟨pc', ?_, ?_⟩
  · exact List.getElem?_set_self (List.getElem?_eq_some_iff.mp hi).1
  · refine soloAt_move ?_ M.wg hat hmove hvpn rfl
    rfl

/-- **A failed attempt is shown as failed exactly when** the config is readable, and the failure is
    one the router takes for DISCONNECTED, or a tunnel was in the backend's slot, or the profile was
    already the connected one. -/
theorem failed_shown_iff (D : Stores) (pre : List Label) (u : Uuid) (inp : Input) (ts : List Int)
    {s s' : App} (hpre : exec (silent (App.step D)) {} pre = some s)
    (hu : D.protocolOf u = .wireguard)
    (hrun : exec (silent (App.step D)) s (.connect u :: solo s.calls.length inp ts) = some s')
    (hret : s'.calls[s.calls.length]? = some ⟨u, .wireguard, .returned false⟩) :
    (s'.vpn.state.isActive = false ∧ (s'.vpn.stateFor u).isActive = false) ↔
      D.wgConfig u ≠ none ∧ ((∃ f, inp.fault = some f ∧ reasonToState f = .disconnected) ∨
        s.wg.backend.currentTunnel ≠ none ∨ s.vpn.connectedUuid = some u) := by
  obtain ⟨t, ht, hsolo⟩ := exec_cons.mp hrun
  have hmade := appMade_step s _ t (appMade_reach hpre) ht
  obtain ⟨es, hs⟩ := silent_some ht
  obtain ⟨q, hc, rfl, -⟩ := step_control hs
  obtain ⟨rfl, rfl⟩ := hc
  have hstart : SoloInv D s u inp s.calls.length _ :=
    ⟨hmade, .stopOpenVpn, by simp [App.apply, hu], rfl, rfl⟩
  have halong : ∀ l ∈ solo s.calls.length inp ts,
      ∃ t, l = .call s.calls.length { inp with now := t } := by
    intro l hl
    obtain ⟨t, -, rfl⟩ := List.mem_map.mp hl
    exact ⟨t, rfl⟩
  obtain ⟨-, pc, hpc, hat⟩ := exec_inv soloInv_step hstart (along_of_forall halong) hsolo
  rw [hret] at hpc
  injection hpc with hpc
  injection hpc with _ _ hpc
  subst hpc
  exact hat.shown_iff

theorem failed_shown_iff_tunCreationError :
    ∃ s', exec (silent (App.step sampleStores)) {} (.connect "wg1" :: solo 0
        { fault := some (.backend .tunCreationError) } (List.replicate 18 0)) = some s' ∧
      s'.vpn.state.isActive = false ∧ (s'.vpn.stateFor "wg1").isActive = false := by
  refine ⟨_, rfl, ?_⟩
  exact (failed_shown_iff sampleStores [] "wg1" { fault := some (.backend .tunCreationError) }
    (List.replicate 18 0) rfl (by decide) rfl (by decide)).mpr
    ⟨by decide, Or.inl ⟨_, rfl, by decide⟩⟩

/-- After an attempt on a profile whose config is gone **the router is left in CONNECTING**; after
    one without the VPN permission **the row is**. -/
theorem failed_shown_as_connecting :
    (∃ s', exec (silent (App.step sampleStores)) {}
        (.connect "wgBroken" :: solo 0 {} (List.replicate 12 0)) = some s' ∧
      s'.calls[0]? = some ⟨"wgBroken", .wireguard, .returned false⟩ ∧
      s'.vpn.state = .connecting ∧ s'.vpn.stateFor "wgBroken" = .connecting) ∧
    ∃ s', exec (silent (App.step sampleStores)) {} (.connect "wg1" :: solo 0
        { fault := some (.backend .vpnNotAuthorized) } (List.replicate 18 0)) = some s' ∧
      s'.calls[0]? = some ⟨"wg1", .wireguard, .returned false⟩ ∧
      s'.vpn.state = .authFailed ∧ s'.vpn.stateFor "wg1" = .connecting := by
  refine ⟨⟨_, rfl, ?_, ?_, ?_⟩, ⟨_, rfl, ?_, ?_, ?_⟩⟩ <;> decide

end SwiftVpn
