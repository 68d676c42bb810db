/-
  File:      SwiftVpn/Router/Visible.lean
  Subject:   A RUNNING ATTEMPT STAYS VISIBLE: the row of a WireGuard profile from the assignment of
             `pendingUuid` until its `connect` returns.

  The row is active as long as the profile is pending and, where it is also the connected one, the
  router's state is active (`Shown`). What can end that are state callbacks:

  * `calm` -- the steps that do not: no command, no clean stop and no connected profile reported by
    the engine that owned the tunnel before, no destroyed service, no failure of the UP that the
    row would show;
  * `attempt_visible` -- along such steps, from a state with an empty slot and no other connect in
    flight, the row is active in every state until the call returns;
  * `attempt_hidden` -- a live tunnel in the slot: the DOWN callback of the pre-teardown passes the
    gate and clears the new attempt's association.
-/
import SwiftVpn.Router.Attempts

namespace SwiftVpn

open Machine

/-! ## 1. Calm steps -/

/-- `u` is pending, and where it is connected the state is active. -/
def Shown (u : Uuid) (e : VpnEngine) : Prop :=
  e.pendingUuid = some u ∧ (e.connectedUuid = some u → e.state.isActive = true)

theorem Shown.stateFor {u : Uuid} {e : VpnEngine} (h : Shown u e) :
    (e.stateFor u).isActive = true := by
  unfold VpnEngine.stateFor
  by_cases hc : e.connectedUuid = some u
  · rw [if_pos hc]
    exact h.2 hc
  · rw [if_neg hc, if_pos h.1]
    by_cases ha : e.state.isActive = true
    · rw [if_pos ha]
      exact ha
    · rw [if_neg ha]
      rfl

/-- The row of `u` stays active under the state `st`. -/
def VpnEngine.keeps (e : VpnEngine) (u : Uuid) (st : VpnState) : Bool :=
  st.isActive || (st != .disconnected && e.connectedUuid != some u)

/-- A callback of the engine that owns the tunnel leaves the row of `u` active. -/
def Action.harmless (u : Uuid) (e : VpnEngine) : Action → Bool
  | .updateState _ _ level _ => e.keeps u (.ofStatus level)
  | .ikev2State .connected _ _ => true
  | .ikev2State _ (some _) _ => e.keeps u .unknown
  | .ikev2State .disconnected none _ => false
  | .setConnectedVPN (some _) => false
  | _ => true

/-- The steps that leave a running attempt on `u` visible. -/
def App.calm (r : App) (u : Uuid) : Label → Bool
  | .connect _ | .disconnect _ => false
  | .call j inp =>
    match r.calls[j]? with
    | some ⟨_, _, .wgConnect (.up _)⟩ => inp.fault.all fun f => r.vpn.keeps u (reasonToState f)
    | _ => true
  | .onDestroy _ => r.wg.backend.currentTunnel == none
  | .callback _ a => a.engine != some r.vpn.activeProtocol || a.harmless u r.vpn
  | .xray _ ev _ => r.vpn.activeProtocol != .xray || !ev.ends
  | _ => true

theorem Shown.applyState {u : Uuid} {e : VpnEngine} {st : VpnState} (h : Shown u e)
    (hk : e.keeps u st = true) (message : Option String) (now : Int) :
    Shown u (e.applyState st message now) := by
  unfold VpnEngine.keeps at hk
  by_cases hd : st = .disconnected
  · subst hd
    cases hk
  · refine ⟨?_, fun hc => ?_⟩
    · rw [VpnEngine.applyState_pendingUuid, if_neg hd]
      exact h.1
    · rw [VpnEngine.applyState_connectedUuid, if_neg hd] at hc
      rw [VpnEngine.applyState_state]
      cases ha : st.isActive with
      | true => rfl
      | false => simp [ha, hc] at hk

/-- Fields the row does not depend on may change. -/
theorem Shown.same {u : Uuid} {e e' : VpnEngine} (h : Shown u e) (hp : e'.pendingUuid = e.pendingUuid)
    (hc : e'.connectedUuid = e.connectedUuid) (hs : e'.state = e.state) : Shown u e' := by
  unfold Shown
  rw [hp, hc, hs]
  exact h

theorem Shown.applyBytes {u : Uuid} {e : VpnEngine} (h : Shown u e) (inB outB dIn dOut : Int) :
    Shown u (e.applyBytes inB outB dIn dOut) := by
  unfold VpnEngine.applyBytes
  dsimp only
  split
  · split
    · exact h.same rfl rfl rfl
    · exact h.same rfl rfl rfl
  · exact h.same rfl rfl rfl

/-- What a driver delivers has an engine. -/
theorem delivers_engine {r : App} {a : Action} (hd : r.delivers a = true) :
    ∃ p, a.engine = some p := by
  cases a with
  | updateState | setConnectedVPN | logListener | ikev2State | onBytes | onLog => exact ⟨_, rfl⟩
  | _ => cases hd

/-- A harmless callback of the owner, or any callback of another engine. -/
theorem Shown.callback {u : Uuid} {r : App} {a : Action} (h : Shown u r.vpn)
    (hd : r.delivers a = true)
    (hc : a.engine ≠ some r.vpn.activeProtocol ∨ a.harmless u r.vpn = true) :
    Shown u (r.vpn.perform a) := by
  by_cases he : a.engine = some r.vpn.activeProtocol
  · have hh : a.harmless u r.vpn = true := hc.resolve_left (fun hn => hn he)
    cases a with
    | updateState state logmessage level now =>
      obtain hp := Option.some.inj he
      simp only [VpnEngine.perform, VpnEngine.gated, ← hp, ↓reduceIte]
      exact h.applyState hh _ _
    | setConnectedVPN uuid =>
      cases uuid with
      | some w => cases hh
      | none =>
        obtain hp := Option.some.inj he
        simp only [VpnEngine.perform, VpnEngine.gated, ← hp, ↓reduceIte]
        exact ⟨h.1, fun hc => by cases hc⟩
    | logListener line =>
      obtain hp := Option.some.inj he
      simp only [VpnEngine.perform, VpnEngine.gated, ← hp, ↓reduceIte]
      exact h.same rfl rfl rfl
    | ikev2State state error now =>
      obtain hp := Option.some.inj he
      simp only [VpnEngine.perform, VpnEngine.gated, ← hp, ↓reduceIte]
      unfold VpnEngine.ikev2OnState
      split
      · exact h.applyState rfl _ _
      · exact h.applyState hh _ _
      · cases hh
      · rename_i hn _
        refine h.applyState ?_ _ _
        cases state <;> first | exact hh | exact absurd rfl hn
      · exact h
    | onBytes p inB outB dIn dOut =>
      obtain hp := Option.some.inj he
      simp only [VpnEngine.perform, VpnEngine.gated, ← hp, ↓reduceIte]
      exact h.applyBytes _ _ _ _
    | onLog p m now =>
      obtain hp := Option.some.inj he
      simp only [VpnEngine.perform, VpnEngine.gated, ← hp, ↓reduceIte]
      exact h.same (by simp) (by simp) (by simp)
    | _ => cases hd
  · obtain ⟨p, hp⟩ := delivers_engine hd
    rw [VpnEngine.perform_foreign hp fun e => he (by rw [hp, e])]
    exact h

/-! ## 2. The window -/

section Window

variable (u : Uuid)

/-- No DOWN job is for the tunnel `t`. -/
def Untouched (w : WireGuardEngine) (t : WgTunnel) : Prop := ∀ b ∈ w.jobs, b.tunnel ≠ t

/-- What holds of the driver at each point inside it. -/
def WindowWg (r : App) : WgPc → Prop
  | .report t | .up t =>
    r.wg.backend.currentTunnel = none ∧ r.wg.active = some t ∧ Untouched r.wg t
  | .failed f =>
    r.wg.backend.currentTunnel = none ∧ r.vpn.keeps u (reasonToState f) = true
  | .publish | .unlock none | .done none =>
    ∃ t, r.wg.backend.currentTunnel = some t ∧ r.wg.pollJob = some t ∧ Untouched r.wg t
  | _ => r.wg.backend.currentTunnel = none

/-- What holds at each point of the call. -/
def WindowAt (r : App) : Pc → Prop
  | .setProtocol => r.wg.backend.currentTunnel = none
  | .wgConnecting => r.vpn.activeProtocol = .wireguard ∧ r.wg.backend.currentTunnel = none
  | .wgConnect pc => r.vpn.activeProtocol = .wireguard ∧ WindowWg u r pc
  | _ => False

/-- The attempt of the call `i` on `u` is visible, and nobody else is at work; or it is over. -/
structure Window (i : Nat) (r : App) : Prop where
  made : AppMade r
  others : ∀ (j : Nat) (c : Call), r.calls[j]? = some c → j ≠ i → c.finished = true
  call : ∃ pc, r.calls[i]? = some ⟨u, .wireguard, pc⟩ ∧
    ((∃ ok, pc = .returned ok) ∨ Shown u r.vpn ∧ WindowAt u r pc)

end Window

/-- The slot of an attempt is empty, or holds its tunnel, and then no DOWN job is for it. -/
theorem WindowAt.slot {u : Uuid} {r : App} {pc : Pc} (h : WindowAt u r pc) :
    r.wg.backend.currentTunnel = none ∨
      ∃ t, r.wg.backend.currentTunnel = some t ∧ r.wg.pollJob = some t ∧ Untouched r.wg t := by
  cases pc with
  | setProtocol => exact Or.inl h
  | wgConnecting => exact Or.inl h.2
  | wgConnect pc =>
    cases pc with
    | report t | up t | failed f => exact Or.inl h.2.1
    | publish => exact Or.inr h.2
    | unlock e | done e =>
      cases e with
      | none => exact Or.inr h.2
      | some m => exact Or.inl h.2
    | _ => exact Or.inl h.2
  | _ => exact h.elim

/-- A step that leaves the driver's slot, its tunnel and its poll loop alone, adds no DOWN job and
    keeps who owns the tunnel and what the row rests on, keeps the window open. -/
theorem WindowAt.same {u : Uuid} {r r' : App} {pc : Pc} (h : WindowAt u r pc)
    (hb : r'.wg.backend = r.wg.backend) (ha : r'.wg.active = r.wg.active)
    (hp : r'.wg.pollJob = r.wg.pollJob) (hj : ∀ t, Untouched r.wg t → Untouched r'.wg t)
    (hap : r'.vpn.activeProtocol = r.vpn.activeProtocol)
    (hc : r.vpn.activeProtocol = .wireguard → r'.vpn.connectedUuid = r.vpn.connectedUuid) :
    WindowAt u r' pc := by
  cases pc with
  | setProtocol => exact (congrArg GoBackend.currentTunnel hb).trans h
  | wgConnecting => exact ⟨hap.trans h.1, (congrArg GoBackend.currentTunnel hb).trans h.2⟩
  | wgConnect pc =>
    refine ⟨hap.trans h.1, ?_⟩
    cases pc with
    | report t | up t =>
      exact ⟨(congrArg GoBackend.currentTunnel hb).trans h.2.1, ha.trans h.2.2.1, hj t h.2.2.2⟩
    | failed f =>
      refine ⟨(congrArg GoBackend.currentTunnel hb).trans h.2.1, ?_⟩
      unfold VpnEngine.keeps
      rw [hc h.1]
      exact h.2.2
    | publish =>
      obtain ⟨t, ht, hp', hu⟩ := h.2
      exact ⟨t, (congrArg GoBackend.currentTunnel hb).trans ht, hp.trans hp', hj t hu⟩
    | unlock e | done e =>
      cases e with
      | none =>
        obtain ⟨t, ht, hp', hu⟩ := h.2
        exact ⟨t, (congrArg GoBackend.currentTunnel hb).trans ht, hp.trans hp', hj t hu⟩
      | some m => exact (congrArg GoBackend.currentTunnel hb).trans h.2
    | _ => exact (congrArg GoBackend.currentTunnel hb).trans h.2
  | _ => exact h.elim

/-! ## 3. The steps -/

section Steps

variable {D : Stores} {u : Uuid} {r r' : App} {i : Nat}

/-- A state report of the driver reaches the row. -/
theorem Shown.onState {e : VpnEngine} (h : Shown u e) (hp : e.activeProtocol = .wireguard)
    (st : VpnState) (hk : e.keeps u st = true) (message : Option String) (now : Int) :
    Shown u (e.perform (.onState .wireguard st message now)) ∧
      (e.perform (.onState .wireguard st message now)).activeProtocol = .wireguard := by
  simp only [VpnEngine.perform, VpnEngine.gated, hp, ↓reduceIte]
  exact ⟨h.applyState hk _ _, (VpnEngine.applyState_activeProtocol ..).trans hp⟩

/-- A log line does not. -/
theorem Shown.onLog {e : VpnEngine} (h : Shown u e) (hp : e.activeProtocol = .wireguard)
    (m : String) (now : Int) :
    Shown u (e.perform (.onLog .wireguard m now)) ∧
      (e.perform (.onLog .wireguard m now)).activeProtocol = .wireguard := by
  simp only [VpnEngine.perform, VpnEngine.gated, hp, ↓reduceIte]
  exact ⟨h.same (by simp) (by simp) (by simp), by simp [hp]⟩

/-- A step of the attempt inside the driver. -/
theorem windowWg_move {w : WireGuardEngine} {inp : WgInput} {pc pc' : WgPc} {as : List Action}
    (hcfg : D.wgConfig u ≠ none) (M : r.wg.Made) (hp : r.vpn.activeProtocol = .wireguard)
    (hsh : Shown u r.vpn) (W : WindowWg u r pc)
    (hup : ∀ t, pc = .up t → ∀ f, inp.fault = some f → r.vpn.keeps u (reasonToState f) = true)
    (h : ConnectMove D r.wg i u inp pc w pc' as) (hv : r'.vpn = r.vpn.performAll as)
    (hw : r'.wg = w) :
    Shown u r'.vpn ∧ r'.vpn.activeProtocol = .wireguard ∧ WindowWg u r' pc' := by
  -- a step that tells the router nothing
  have hquiet : as = [] → WindowWg u r' pc' →
      Shown u r'.vpn ∧ r'.vpn.activeProtocol = .wireguard ∧ WindowWg u r' pc' := by
    rintro rfl hwin
    rw [VpnEngine.performAll_nil] at hv
    rw [hv]
    exact ⟨hsh, hp, hwin⟩
  cases h with
  | unread lu sr hc => exact absurd hc hcfg
  | lock hm =>
    refine hquiet rfl ?_
    show r'.wg.backend.currentTunnel = none
    rw [hw]
    exact W
  | read c hc =>
    refine hquiet rfl ?_
    show r'.wg.backend.currentTunnel = none
    rw [hw]
    exact W
  | idle | take | downOther | pace | settled | wake =>
    refine hquiet rfl ?_
    show r'.wg.backend.currentTunnel = none
    rw [hw]
    exact W
  | down t hb =>
    have hnone : r.wg.backend.currentTunnel = none := W
    rw [hnone] at hb
    cases hb
  | create =>
    refine hquiet rfl ?_
    show r'.wg.backend.currentTunnel = none ∧ _ ∧ Untouched _ _
    rw [hw]
    refine ⟨W, rfl, fun b hb he => ?_⟩
    have hlt := M.jobs b hb
    rw [he] at hlt
    exact Nat.lt_irrefl _ hlt
  | report t =>
    obtain ⟨h₁, hp₁⟩ := hsh.onState hp .connecting rfl none inp.now
    obtain ⟨h₂, hp₂⟩ := h₁.onLog hp₁ "Starting WireGuard tunnel" inp.now
    rw [hv]
    refine ⟨h₂, hp₂, ?_⟩
    show r'.wg.backend.currentTunnel = none ∧ _ ∧ Untouched _ _
    rw [hw]
    exact W
  | upFree t hb hf =>
    obtain ⟨h₁, hp₁⟩ := hsh.onLog hp "WireGuard tunnel is now UP" inp.now
    obtain ⟨h₂, hp₂⟩ := h₁.onState hp₁ .connected rfl none inp.now
    rw [hv]
    refine ⟨h₂, hp₂, t, ?_, ?_, ?_⟩
    · rw [hw]
    · rw [hw, M.poll hb]
      exact W.2.1
    · rw [hw]
      exact W.2.2
  | upRefused t f hb hf =>
    rw [VpnEngine.performAll_nil] at hv
    rw [GoBackend.upFault, if_neg hcfg] at hf
    rw [hv]
    refine ⟨hsh, hp, ?_⟩
    show r'.wg.backend.currentTunnel = none ∧ _
    rw [hv, hw]
    exact ⟨hb, hup t rfl f hf⟩
  | upSwap t o hb | upSame o hb | upLost t o f g hb | upBack t o f hb =>
    rw [W.1] at hb
    cases hb
  | failed f =>
    obtain ⟨h₁, hp₁⟩ := hsh.onState hp _ W.2 f.message inp.now
    obtain ⟨h₂, hp₂⟩ := h₁.onLog hp₁ ("WireGuard failed: " ++ f.logged) inp.now
    rw [hv]
    refine ⟨h₂, hp₂, ?_⟩
    show r'.wg.backend.currentTunnel = none
    rw [hw]
    exact W.1
  | publish =>
    have hrow : Shown u r'.vpn ∧ r'.vpn.activeProtocol = .wireguard := by
      rw [hv]
      refine VpnEngine.performAll_inv (I := fun e => Shown u e ∧ e.activeProtocol = .wireguard)
        (fun a ha e he => ?_) ⟨hsh, hp⟩
      rcases List.mem_cons.mp ha with rfl | ha
      · simp only [VpnEngine.perform, VpnEngine.gated, he.2, ↓reduceIte]
        exact ⟨he.1.same rfl rfl rfl, trivial⟩
      · obtain ⟨m, -, rfl⟩ := List.mem_map.mp ha
        exact he.1.onLog he.2 m inp.now
    refine ⟨hrow.1, hrow.2, ?_⟩
    obtain ⟨t, ht⟩ := W
    refine ⟨t, ?_⟩
    rw [hw]
    exact ht
  | unlock e =>
    refine hquiet rfl ?_
    cases e with
    | none =>
      obtain ⟨t, ht⟩ := W
      refine ⟨t, ?_⟩
      rw [hw]
      exact ht
    | some m =>
      show r'.wg.backend.currentTunnel = none
      rw [hw]
      exact W

/-- A step of the attempt. -/
theorem windowAt_move {q : App} {inp : Input} {pc pc' : Pc} {es : List Effect}
    (hcfg : D.wgConfig u ≠ none) (M : r.wg.Made) (hsh : Shown u r.vpn) (W : WindowAt u r pc)
    (hup : ∀ t, pc = .wgConnect (.up t) →
      ∀ f, inp.fault = some f → r.vpn.keeps u (reasonToState f) = true)
    (h : CallMove D r i u .wireguard inp pc q pc' es)
    (hv : r'.vpn = r.vpn.performAll (accesses es)) (hw : r'.wg = q.wg) :
    (∃ ok, pc' = .returned ok) ∨ Shown u r'.vpn ∧ WindowAt u r' pc' := by
  cases h with
  | protocol =>
    refine Or.inr ⟨?_, ?_, ?_⟩
    · rw [hv]
      exact hsh
    · rw [hv]
      rfl
    · rw [hw]
      exact W
  | wgConnecting =>
    have hv' : r'.vpn = r.vpn.applyState .connecting none inp.now := hv
    refine Or.inr ⟨?_, ?_, ?_⟩
    · rw [hv']
      exact hsh.applyState rfl none inp.now
    · rw [hv', VpnEngine.applyState_activeProtocol]
      exact W.1
    · show r'.wg.backend.currentTunnel = none
      rw [hw]
      exact W.2
  | wgOk => exact Or.inl ⟨true, rfl⟩
  | wgError e => exact Or.inl ⟨false, rfl⟩
  | wgStep pc pc' w as hfin hs =>
    simp only [accesses_append, accesses_wgEffects, accesses_map, List.nil_append] at hv
    obtain ⟨h₁, h₂, h₃⟩ := windowWg_move hcfg M W.1 hsh W.2
      (fun t ht => hup t (by rw [ht])) (connectStep_move hs) hv hw
    exact Or.inr ⟨h₁, h₂, h₃⟩
  | _ => exact W.elim

/-- The driver's DOWN jobs find nothing to take down. -/
theorem windowAt_job {w : WireGuardEngine} {j : Nat} {inp : WgInput} {as : List Action} {pc : Pc}
    (W : WindowAt u r pc) (h : JobMove r.wg j inp w as) :
    as = [] ∧ w.backend = r.wg.backend ∧ w.active = r.wg.active ∧ w.pollJob = r.wg.pollJob ∧
      ∀ t, Untouched r.wg t → Untouched w t := by
  have hset : ∀ {t : WgTunnel} {pc pc' : JobPc}, r.wg.jobs[j]? = some ⟨t, pc⟩ →
      ∀ t', Untouched r.wg t' → ∀ b ∈ r.wg.jobs.set j ⟨t, pc'⟩, b.tunnel ≠ t' := by
    intro t pc pc' hj t' hu b hb
    rcases List.mem_or_eq_of_mem_set hb with hm | rfl
    · exact hu b hm
    · exact hu ⟨t, pc⟩ (List.mem_of_getElem? hj)
  cases h with
  | lock t hj hm => exact ⟨rfl, rfl, rfl, rfl, hset hj⟩
  | down t hj hb =>
    rcases W.slot with hn | ⟨t', ht', -, hu⟩
    · rw [hn] at hb
      cases hb
    · rw [ht'] at hb
      exact absurd (Option.some.inj hb).symm (hu _ (List.mem_of_getElem? hj))
  | downOther t hj hb => exact ⟨rfl, rfl, rfl, rfl, hset hj⟩

/-- While WireGuard owns the tunnel no callback assigns a uuid. -/
theorem callback_connectedUuid {a : Action} (hd : r.delivers a = true)
    (hp : r.vpn.activeProtocol = .wireguard) :
    (r.vpn.perform a).connectedUuid = r.vpn.connectedUuid := by
  obtain ⟨p, hep⟩ := delivers_engine hd
  by_cases hpw : p = .wireguard
  · subst hpw
    cases a with
    | onBytes p inB outB dIn dOut =>
      obtain rfl := Option.some.inj hep
      simp only [VpnEngine.perform, VpnEngine.gated, hp, ↓reduceIte]
      unfold VpnEngine.applyBytes
      dsimp only
      split
      · split <;> rfl
      · rfl
    | onLog p m now =>
      obtain rfl := Option.some.inj hep
      simp [VpnEngine.perform, VpnEngine.gated, hp]
    | updateState | setConnectedVPN | logListener | ikev2State => cases hep
    | _ => cases hd
  · rw [VpnEngine.perform_foreign hep fun e => hpw (e.symm.trans hp)]

/-- An Xray message that ends nothing, or that the gate drops. -/
theorem Shown.xray {ev : XrayEvent} {now : Int} (h : Shown u r.vpn)
    (hc : r.vpn.activeProtocol ≠ .xray ∨ ev.ends = false) :
    Shown u (r.vpn.performAll (ev.actions now)) := by
  by_cases hp : r.vpn.activeProtocol = .xray
  · have he : ev.ends = false := hc.resolve_left (fun hn => hn hp)
    cases ev with
    | connected =>
      simp only [XrayEvent.actions, VpnEngine.performAll_cons, VpnEngine.performAll_nil,
        VpnEngine.perform, VpnEngine.gated, hp, ↓reduceIte]
      exact h.applyState rfl none now
    | error m => cases he
    | stopped => cases he
    | bytes inB outB dIn dOut =>
      simp only [XrayEvent.actions, VpnEngine.performAll_cons, VpnEngine.performAll_nil,
        VpnEngine.perform, VpnEngine.gated, hp, ↓reduceIte]
      exact h.applyBytes _ _ _ _
    | log m =>
      simp only [XrayEvent.actions, VpnEngine.performAll_cons, VpnEngine.performAll_nil,
        VpnEngine.perform, VpnEngine.gated, hp, ↓reduceIte]
      exact h.same (by simp) (by simp) (by simp)
    | tunnelInfo info =>
      simp only [XrayEvent.actions, VpnEngine.performAll_cons, VpnEngine.performAll_nil,
        VpnEngine.perform, VpnEngine.gated, hp, ↓reduceIte]
      exact h.same rfl rfl rfl
  · rw [VpnEngine.performAll_foreign (p := .xray) ?_ hp]
    · exact h
    · cases ev <;> simp [XrayEvent.actions, Action.engine]

/-- What a calm step other than the attempt's own does: the attempt's point is where it was. -/
theorem window_other {l : Label} {es : List Effect} {q : App} {pc : Pc} (M : AppMade r)
    (hsh : Shown u r.vpn) (W : WindowAt u r pc) (hl : ∀ j inp, l ≠ .call j inp)
    (hcalm : r.calm u l = true) (hc : r.control D l = some (q, es)) :
    q.calls = r.calls ∧ Shown u (q.apply es).vpn ∧ WindowAt u (q.apply es) pc := by
  have hvpn : q.vpn = r.vpn := control_vpn hc
  -- a step of the router's own that moves neither the driver nor the row
  have hrow : q.wg = r.wg → Shown u (r.vpn.performAll (accesses es)) →
      (r.vpn.performAll (accesses es)).activeProtocol = r.vpn.activeProtocol →
      (r.vpn.activeProtocol = .wireguard →
        (r.vpn.performAll (accesses es)).connectedUuid = r.vpn.connectedUuid) →
      Shown u (q.apply es).vpn ∧ WindowAt u (q.apply es) pc := by
    intro hw h₁ h₂ h₃
    unfold App.apply
    rw [hvpn]
    refine ⟨h₁, W.same ?_ ?_ ?_ ?_ h₂ h₃⟩
    · exact congrArg _ hw
    · exact congrArg _ hw
    · exact congrArg _ hw
    · intro t ht
      exact hw ▸ ht
  cases l with
  | connect uuid => cases hcalm
  | disconnect now => cases hcalm
  | call j inp => exact absurd rfl (hl j inp)
  | job j inp =>
    obtain ⟨w, as, hj, rfl, rfl⟩ := control_job hc
    obtain ⟨rfl, hb, ha, hp, hu⟩ := windowAt_job W hj
    exact ⟨rfl, hsh, W.same hb ha hp hu rfl fun _ => rfl⟩
  | onDestroy now =>
    have hslot : r.wg.backend.currentTunnel = none := by simpa [App.calm] using hcalm
    rcases onDestroy_cases r.wg now with ⟨-, hd⟩ | ⟨hn, -⟩
    · simp only [App.control, hd, Option.some.injEq, Prod.mk.injEq] at hc
      obtain ⟨rfl, rfl⟩ := hc
      exact ⟨rfl, hsh, W.same rfl rfl rfl (fun _ h => h) rfl fun _ => rfl⟩
    · exact absurd hslot hn
  | pollDown now =>
    obtain ⟨t, hp, hb, -, -⟩ := control_pollDown hc
    rcases W.slot with hn | ⟨t', ht', hp', -⟩
    · rw [M.wg.poll hn] at hp
      cases hp
    · rw [hp'] at hp
      exact absurd (ht'.trans hp) hb
  | callback session a =>
    simp only [App.control] at hc
    split at hc
    · rename_i hd
      obtain ⟨rfl, rfl⟩ := hc
      have hca : a.engine ≠ some r.vpn.activeProtocol ∨ a.harmless u r.vpn = true := by
        simpa [App.calm] using hcalm
      refine ⟨rfl, hrow rfl (hsh.callback hd hca) ?_ (callback_connectedUuid hd)⟩
      refine (VpnEngine.perform_sameLink r.vpn ?_).activeProtocol
      cases a with
      | setProtocol | setTunnelService | setDisconnectPending => cases hd
      | _ => rfl
    · cases hc
  | xray session ev now =>
    obtain ⟨rfl, rfl⟩ := hc
    have hcx : r.vpn.activeProtocol ≠ .xray ∨ ev.ends = false := by
      simpa [App.calm] using hcalm
    have heng : ∀ a ∈ ev.actions now, a.engine = some .xray := by
      cases ev <;> simp [XrayEvent.actions, Action.engine]
    have hlinks : ∀ a ∈ ev.actions now, a.links = false := by
      cases ev <;> simp [XrayEvent.actions, Action.links]
    rw [accesses_map] at hrow
    refine ⟨rfl, hrow rfl (hsh.xray hcx) ?_ fun hp => ?_⟩
    · exact (VpnEngine.performAll_sameLink r.vpn hlinks).activeProtocol
    · rw [VpnEngine.performAll_foreign heng (by rw [hp]; simp)]
  | serviceConnected =>
    have hes : r.onServiceConnected = (q, es) := Option.some.inj hc
    unfold App.onServiceConnected at hes
    split at hes
    · obtain ⟨rfl, rfl⟩ := hes
      exact ⟨rfl, hrow rfl (hsh.same rfl rfl rfl) rfl fun _ => rfl⟩
    · obtain ⟨rfl, rfl⟩ := hes
      exact ⟨rfl, hrow rfl (hsh.same rfl rfl rfl) rfl fun _ => rfl⟩
  | serviceDisconnected =>
    obtain ⟨rfl, rfl⟩ := hc
    exact ⟨rfl, hrow rfl (hsh.same rfl rfl rfl) rfl fun _ => rfl⟩
  | stopVpn k =>
    simp only [App.control] at hc
    split at hc
    · obtain ⟨rfl, rfl⟩ := hc
      exact ⟨rfl, hrow rfl hsh rfl fun _ => rfl⟩
    · cases hc

end Steps

/-! ## 4. Every state of the window -/

/-- A calm step keeps the attempt visible until its call returns. -/
theorem window_step {D : Stores} {u : Uuid} {i : Nat} (hcfg : D.wgConfig u ≠ none) (r : App)
    (l : Label) (r' : App) (I : Window u i r) (hl : r.calm u l = true)
    (h : silent (App.step D) r l = some r') : Window u i r' := by
  have hmade := appMade_step r l r' I.made h
  obtain ⟨es, hs⟩ := silent_some h
  obtain ⟨q, hc, rfl, hvpn⟩ := step_control hs
  obtain ⟨pc, hi, hcase⟩ := I.call
  by_cases hcall : ∃ j inp, l = .call j inp
  · obtain ⟨j, inp, rfl⟩ := hcall
    obtain ⟨c, q, pc', hj, hmove, rfl⟩ := control_call hc
    have hji : j = i := by
      by_contra hne
      have hfin := I.others j c hj hne
      obtain ⟨uuid, protocol, pc₀⟩ := c
      cases hmove <;> cases hfin
    subst hji
    rw [hi] at hj
    obtain rfl := Option.some.inj hj
    refine ⟨hmade, fun k c' hk hne => ?_, pc', ?_, ?_⟩
    · rcases get_set hi hk with ⟨rfl, -⟩ | ⟨-, hk⟩
      · exact absurd rfl hne
      · exact I.others k c' hk hne
    · exact List.getElem?_set_self (List.getElem?_eq_some_iff.mp hi).1
    · rcases hcase with ⟨ok, rfl⟩ | ⟨hsh, hwin⟩
      · cases hmove
      · refine windowAt_move hcfg I.made.wg hsh hwin (fun t ht f hf => ?_) hmove hvpn rfl
        subst ht
        simpa [App.calm, hi, hf] using hl
  · have hcall : ∀ j inp, l ≠ .call j inp := fun j inp e => hcall ⟨j, inp, e⟩
    have hconn : ∀ uuid, l ≠ .connect uuid := by
      rintro uuid rfl
      cases hl
    have hcalls : (q.apply es).calls = r.calls := by
      show q.calls = r.calls
      exact control_calls hc hcall hconn
    refine ⟨hmade, fun k c' hk => I.others k c' (hcalls ▸ hk), pc, hcalls ▸ hi, ?_⟩
    rcases hcase with hret | ⟨hsh, hwin⟩
    · exact Or.inl hret
    · exact Or.inr (window_other I.made hsh hwin hcall hl hc).2

/-- **A running attempt stays visible** along calm steps, from a state with an empty slot, no other
    connect in flight and no inactive state shown on the row: from the assignment of `pendingUuid`
    until the call returns the row of `u` is active in every state. -/
theorem attempt_visible (D : Stores) (pre ls : List Label) (i : Nat) (u : Uuid) (inp : Input)
    {s s₁ s' : App} {c : Call} (hpre : exec (silent (App.step D)) {} pre = some s)
    (hi : s.calls[i]? = some ⟨u, .wireguard, .setPending⟩) (hcfg : D.wgConfig u ≠ none)
    (hothers : ∀ (j : Nat) (c : Call), s.calls[j]? = some c → j ≠ i → c.finished = true)
    (hslot : s.wg.backend.currentTunnel = none)
    (hrow : s.vpn.connectedUuid = some u → s.vpn.state.isActive = true)
    (hset : silent (App.step D) s (.call i inp) = some s₁)
    (hC : Along (silent (App.step D)) (fun r l => r.calm u l = true) s₁ ls)
    (h : exec (silent (App.step D)) s₁ ls = some s') (hc : s'.calls[i]? = some c)
    (hn : c.finished = false) : (s'.vpn.stateFor u).isActive = true := by
  have hstart : Window u i s₁ := by
    have hmade := appMade_step s _ s₁ (appMade_reach hpre) hset
    obtain ⟨es, hs⟩ := silent_some hset
    obtain ⟨q, hctl, rfl, hvpn⟩ := step_control hs
    obtain ⟨c, q, pc', hi', hmove, rfl⟩ := control_call hctl
    rw [hi] at hi'
    obtain rfl := Option.some.inj hi'
    cases hmove
    refine ⟨hmade, fun k c' hk hne => ?_, .setProtocol, ?_, Or.inr ⟨?_, hslot⟩⟩
    · rcases get_set hi hk with ⟨rfl, -⟩ | ⟨-, hk⟩
      · exact absurd rfl hne
      · exact hothers k c' hk hne
    · exact List.getElem?_set_self (List.getElem?_eq_some_iff.mp hi).1
    · rw [hvpn]
      exact ⟨rfl, hrow⟩
  obtain ⟨pc, hpc, hcase⟩ := (exec_inv (window_step hcfg) hstart hC h).call
  rw [hc] at hpc
  obtain rfl := Option.some.inj hpc
  rcases hcase with ⟨ok, rfl⟩ | ⟨hsh, -⟩
  · cases hn
  · exact hsh.stateFor

/-- The attempt on an idle app, up to its UP. -/
theorem attempt_visible_idle :
    ∃ s₁ s', exec (silent (App.step sampleStores)) {}
        ([Label.connect "wg1"] ++ List.replicate 6 (Label.call 0 {})) = some s₁ ∧
      exec (silent (App.step sampleStores)) s₁ (List.replicate 9 (Label.call 0 {})) = some s' ∧
      (s'.vpn.stateFor "wg1").isActive = true := by
  refine ⟨_, _, rfl, rfl, ?_⟩
  exact attempt_visible sampleStores ([Label.connect "wg1"] ++ List.replicate 5 (Label.call 0 {}))
    (List.replicate 9 (Label.call 0 {})) 0 "wg1" {} rfl rfl (by decide) (fun j c hj hne => by
      cases j with
      | zero => exact absurd rfl hne
      | succ j => cases hj) rfl (by decide) rfl (by decide) rfl rfl rfl

/-- A live tunnel of another profile: the pre-teardown's DOWN callback passes the gate, and **the
    row of the running attempt falls back to DISCONNECTED**. -/
theorem attempt_hidden :
    ∃ s, exec (silent (App.step sampleStores)) {}
        ([Label.connect "wg1"] ++ List.replicate 18 (Label.call 0 {}) ++ [Label.connect "wg2"] ++
          List.replicate 12 (Label.call 1 {})) = some s ∧
      s.calls[1]? = some ⟨"wg2", .wireguard, .wgConnect .settle⟩ ∧
      s.vpn.stateFor "wg2" = .disconnected := by
  refine ⟨_, rfl, ?_, ?_⟩ <;> decide

end SwiftVpn
