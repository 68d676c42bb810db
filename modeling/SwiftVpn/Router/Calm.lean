/-
  File:      SwiftVpn/Router/Calm.lean
  Subject:   WHAT A STEP MEANS FOR AN IDLE ROUTER: the accesses that keep it idle, and the steps of the UI
             process.

  * `Idle` -- in a state that is not active the traffic, both graph windows, the tunnel info and
    `connectedSince` are at their initial values;
  * `Action.timely` -- a byte count arrives only while the state is active, and so does whatever
    puts something into the tunnel info;
  * `perform_idle_iff` -- an access keeps the router idle if and only if it is timely;
  * `Calm` -- no figures come from a quiet driver, and an inactive state comes from one that is quiet then;
    `Calm.idle` -- such a step keeps the router idle;
  * `UiStep.calm` -- **the steps of the UI process are calm**, or hand the tunnel over.

  `applyState` empties the flows on every way into an inactive state; `applyBytes`, the tunnel-info
  callbacks and `harvestTunnelInfo` do not look at the state.
-/
import SwiftVpn.Router.WgQuiet
import SwiftVpn.Router.XrayQuiet

namespace SwiftVpn

open Machine

/-! ## 1. Idle, and the accesses that keep it -/

namespace VpnEngine

/-- The flows are at their initial values. -/
structure Empty (e : VpnEngine) : Prop where
  traffic : e.traffic = {}
  downWindow : e.downWindow = []
  upWindow : e.upWindow = []
  tunnelInfo : e.tunnelInfo = {}
  connectedSince : e.connectedSince = none

/-- While the state is not active the flows are empty. -/
def Idle (e : VpnEngine) : Prop := e.state.isActive = false → e.Empty

end VpnEngine

/-- The access brings no figures to an inactive router: behind its gate, a byte count needs an active
    state, and so does tunnel info, unless there is nothing in it. -/
def Action.timely (e : VpnEngine) : Action → Bool
  | .onBytes p .. => e.activeProtocol ≠ p || e.state.isActive
  | .onTunnelInfo p info => e.activeProtocol ≠ p || e.state.isActive || info = {}
  | .logListener line =>
    e.activeProtocol ≠ .openvpn || e.state.isActive || harvestTunnelInfo {} line.message = {}
  | _ => true

/-- Every access of a sequence is timely when it is made. -/
def timelyAll : VpnEngine → List Action → Bool
  | _, [] => true
  | e, a :: as => a.timely e && timelyAll (e.perform a) as

namespace VpnEngine

/-- Every way into an inactive state empties the flows. -/
theorem applyState_idle (e : VpnEngine) (mapped : VpnState) (message : Option String) (now : Int) :
    (e.applyState mapped message now).Idle := by
  intro hs
  rw [applyState_state] at hs
  have hne : ¬ (mapped = .connected ∧ e.state ≠ .connected) := by
    rintro ⟨rfl, -⟩
    cases hs
  unfold applyState
  simp only [if_neg hne, hs, Bool.not_false, if_true]
  split
  · exact ⟨rfl, rfl, rfl, rfl, rfl⟩
  · exact ⟨rfl, rfl, rfl, rfl, rfl⟩

theorem gated_idle {e : VpnEngine} (p : Protocol) {f : VpnEngine → VpnEngine} (h : e.Idle)
    (hf : (f e).Idle) : (e.gated p f).Idle := by
  unfold gated
  split
  · exact hf
  · exact h

/-- An access that leaves the state and the flows alone. -/
theorem Idle.same {e e' : VpnEngine} (h : e.Idle) (hstate : e'.state = e.state)
    (hflows : e'.traffic = e.traffic ∧ e'.downWindow = e.downWindow ∧ e'.upWindow = e.upWindow ∧
      e'.tunnelInfo = e.tunnelInfo ∧ e'.connectedSince = e.connectedSince) : e'.Idle := by
  intro hs
  obtain ⟨ht, hd, hu, hi, hc⟩ := hflows
  have E := h (hstate ▸ hs)
  exact ⟨ht.trans E.traffic, hd.trans E.downWindow, hu.trans E.upWindow, hi.trans E.tunnelInfo,
    hc.trans E.connectedSince⟩

/-- A byte count in an inactive state leaves its samples in the windows. -/
theorem applyBytes_not_idle {e : VpnEngine} (hs : e.state.isActive = false)
    (inB outB dIn dOut : Int) : ¬ (e.applyBytes inB outB dIn dOut).Idle := by
  intro h
  have hstate : (e.applyBytes inB outB dIn dOut).state = e.state := by
    unfold applyBytes
    dsimp only
    split
    · split <;> rfl
    · rfl
  have hwindow : (e.applyBytes inB outB dIn dOut).downWindow = push e.downWindow dIn := by
    unfold applyBytes
    dsimp only
    split
    · split <;> rfl
    · rfl
  have hempty := (h (hstate.symm ▸ hs)).downWindow
  rw [hwindow, push, List.drop_eq_nil_iff, List.length_append, List.length_singleton] at hempty
  unfold historySeconds at hempty
  omega

/-- What an access to the tunnel info does to an idle router. -/
theorem tunnelInfo_idle_iff {e : VpnEngine} (h : e.Idle) {logs : List LogLine} {info : TunnelInfo} :
    ({ e with logs := logs, tunnelInfo := info } : VpnEngine).Idle ↔
      e.state.isActive = true ∨ info = {} := by
  constructor
  · intro h'
    cases hs : e.state.isActive with
    | true => exact .inl rfl
    | false => exact .inr (h' hs).tunnelInfo
  · rintro (hs | rfl) hs'
    · rw [hs] at hs'
      cases hs'
    · have E := h hs'
      exact ⟨E.traffic, E.downWindow, E.upWindow, rfl, E.connectedSince⟩

/-- **An access keeps the router idle if and only if it is timely.** -/
theorem perform_idle_iff {e : VpnEngine} (h : e.Idle) (a : Action) :
    (e.perform a).Idle ↔ a.timely e = true := by
  cases a with
  | onBytes p inB outB dIn dOut =>
    simp only [perform, gated, Action.timely, Bool.or_eq_true, decide_eq_true_eq]
    split
    · rename_i hp
      cases hs : e.state.isActive with
      | true =>
        have hstate : (e.applyBytes inB outB dIn dOut).state = e.state := by
          unfold applyBytes
          dsimp only
          split
          · split <;> rfl
          · rfl
        refine iff_of_true (fun hs' => ?_) (.inr rfl)
        rw [hstate, hs] at hs'
        cases hs'
      | false =>
        refine iff_of_false (applyBytes_not_idle hs inB outB dIn dOut) ?_
        rintro (hp' | hs')
        · exact hp' hp
        · cases hs'
    · rename_i hp
      exact iff_of_true h (.inl hp)
  | onTunnelInfo p info =>
    simp only [perform, gated, Action.timely, Bool.or_eq_true, decide_eq_true_eq]
    split
    · rename_i hp
      rw [show ({ e with tunnelInfo := info } : VpnEngine) =
        { e with logs := e.logs, tunnelInfo := info } from rfl, tunnelInfo_idle_iff h]
      simp [hp]
    · rename_i hp
      exact iff_of_true h (.inl (.inl hp))
  | logListener line =>
    simp only [perform, gated, Action.timely, Bool.or_eq_true, decide_eq_true_eq]
    split
    · rename_i hp
      rw [tunnelInfo_idle_iff h]
      cases hs : e.state.isActive with
      | true => simp
      | false => simp [hp, (h hs).tunnelInfo]
    · rename_i hp
      exact iff_of_true h (.inl (.inl hp))
  | updateState state logmessage level now =>
    exact iff_of_true (gated_idle _ h (applyState_idle e _ _ _)) rfl
  | onState p state message now => exact iff_of_true (gated_idle _ h (applyState_idle e _ _ _)) rfl
  | applyState mapped message now => exact iff_of_true (applyState_idle e _ _ _) rfl
  | ikev2State state error now =>
    refine iff_of_true (gated_idle _ h ?_) rfl
    unfold ikev2OnState
    split
    · exact applyState_idle e _ _ _
    · exact applyState_idle e _ _ _
    · exact (applyState_idle e .disconnected none now).same rfl ⟨rfl, rfl, rfl, rfl, rfl⟩
    · exact applyState_idle e _ _ _
    · exact h
  | setConnectedVPN uuid =>
    refine iff_of_true (gated_idle _ h ?_) rfl
    dsimp only
    split
    · exact h.same rfl ⟨rfl, rfl, rfl, rfl, rfl⟩
    · exact h.same rfl ⟨rfl, rfl, rfl, rfl, rfl⟩
  | onLog p message now =>
    exact iff_of_true (gated_idle _ h (h.same (appendLog_state e now message)
      ⟨by simp only [appendLog], by simp only [appendLog], by simp only [appendLog],
        by simp only [appendLog], by simp only [appendLog]⟩)) rfl
  | appendLog message now =>
    exact iff_of_true (h.same (appendLog_state e now message)
      ⟨by simp only [perform, appendLog], by simp only [perform, appendLog],
        by simp only [perform, appendLog], by simp only [perform, appendLog],
        by simp only [perform, appendLog]⟩) rfl
  | resetTraffic =>
    refine iff_of_true (fun hs => ?_) rfl
    exact ⟨rfl, rfl, rfl, rfl, (h hs).connectedSince⟩
  | setPending | setConnected | setProtocol | setTunnelService | setDisconnectPending =>
    exact iff_of_true (h.same rfl ⟨rfl, rfl, rfl, rfl, rfl⟩) rfl

/-- A sequence of timely accesses. -/
theorem performAll_idle {as : List Action} : ∀ {e : VpnEngine}, e.Idle → timelyAll e as = true →
    (e.performAll as).Idle := by
  induction as with
  | nil => exact fun h _ => h
  | cons a as ih =>
    intro e h ht
    rw [timelyAll, Bool.and_eq_true] at ht
    exact ih ((perform_idle_iff h a).mpr ht.1) ht.2

end VpnEngine

/-! ## 2. What a step means for the router -/

/-- What a step means for a router: the engine that owns the tunnel brings figures only if it was not quiet,
    and then no state; without a state a quiet driver stays quiet while the state is not active; and it is
    quiet after a state that is not. -/
structure Calm (s s' : Drivers) (as : List Action) : Prop where
  reowns : ∀ a ∈ as, a.reowns = false
  figures : (∀ a ∈ as, a.figure = true → a.engine ≠ some s.app.vpn.activeProtocol) ∨
    s.quiet s.app.vpn.activeProtocol = false ∧ ∀ a ∈ as, a.shown s.app.vpn.activeProtocol = none
  kept : (∀ a ∈ as, a.shown s.app.vpn.activeProtocol = none) → s.app.vpn.state.isActive = false →
    s.quiet s.app.vpn.activeProtocol = true → s'.quiet s.app.vpn.activeProtocol = true
  stopped : ∀ st, lastShown s.app.vpn.activeProtocol as = some st →
    st.isActive = true ∨ s'.quiet s.app.vpn.activeProtocol = true

theorem lastShown_eq_none {p : Protocol} {as : List Action} :
    lastShown p as = none ↔ ∀ a ∈ as, a.shown p = none := by
  unfold lastShown
  rw [List.getLast?_eq_none_iff, List.filterMap_eq_nil_iff]

/-- An access of another engine shows nothing. -/
theorem shown_foreign {p q : Protocol} {a : Action} (ha : a.engine = some q) (hp : p ≠ q) : a.shown p = none := by
  cases a with
  | updateState | onState | ikev2State =>
    cases ha
    exact if_neg hp
  | applyState => cases ha
  | _ => rfl

theorem timely_of {e : VpnEngine} {a : Action}
    (h : a.figure = true → a.engine ≠ some e.activeProtocol ∨ e.state.isActive = true) :
    a.timely e = true := by
  cases a with
  | onBytes p =>
    rcases h rfl with hne | hs
    · have hp : e.activeProtocol ≠ p := fun he => hne (congrArg some he.symm)
      simp [Action.timely, hp]
    · simp [Action.timely, hs]
  | onTunnelInfo p info =>
    by_cases hinfo : info = {}
    · simp [Action.timely, hinfo]
    · rcases h (decide_eq_true hinfo) with hne | hs
      · have hp : e.activeProtocol ≠ p := fun he => hne (congrArg some he.symm)
        simp [Action.timely, hp]
      · simp [Action.timely, hs]
  | logListener line =>
    by_cases hinfo : harvestTunnelInfo {} line.message = {}
    · simp [Action.timely, hinfo]
    · rcases h (decide_eq_true hinfo) with hne | hs
      · have hp : e.activeProtocol ≠ .openvpn := fun he => hne (congrArg some he.symm)
        simp [Action.timely, hp]
      · simp [Action.timely, hs]
  | _ => rfl

/-- Figures that no gate lets through are timely, and so are those that come in an active state. -/
theorem timelyAll_of {as : List Action} {e : VpnEngine} (hreowns : ∀ a ∈ as, a.reowns = false)
    (h : (∀ a ∈ as, a.figure = true → a.engine ≠ some e.activeProtocol) ∨
      e.state.isActive = true ∧ ∀ a ∈ as, a.shown e.activeProtocol = none) : timelyAll e as = true := by
  induction as generalizing e with
  | nil => rfl
  | cons a as ih =>
    have hsame := VpnEngine.perform_activeProtocol e (hreowns a List.mem_cons_self)
    rw [timelyAll, Bool.and_eq_true]
    refine ⟨timely_of fun hfigure => ?_, ih (fun b hb => hreowns b (List.mem_cons_of_mem a hb)) ?_⟩
    · exact h.imp (fun hforeign => hforeign a List.mem_cons_self hfigure) And.left
    · rw [hsame]
      refine h.imp (fun hforeign b hb => hforeign b (List.mem_cons_of_mem a hb)) fun ⟨hs, hshown⟩ => ?_
      refine ⟨?_, fun b hb => hshown b (List.mem_cons_of_mem a hb)⟩
      rw [VpnEngine.perform_state, hshown a List.mem_cons_self]
      exact hs

/-- **A calm step keeps the router idle**, and the driver that owns the tunnel quiet while it is. -/
theorem Calm.idle {s s' : Drivers} {as : List Action} (h : Calm s s' as)
    (hvpn : s'.app.vpn = s.app.vpn.performAll as) (hidle : s.app.vpn.Idle)
    (hquiet : s.app.vpn.state.isActive = false → s.quiet s.app.vpn.activeProtocol = true) :
    s'.app.vpn.Idle ∧ (s'.app.vpn.state.isActive = false → s'.quiet s'.app.vpn.activeProtocol = true) := by
  obtain ⟨howner, hstate⟩ := VpnEngine.performAll_state s.app.vpn h.reowns
  have htimely : timelyAll s.app.vpn as = true := by
    refine timelyAll_of h.reowns (h.figures.imp id fun ⟨hloud, hshown⟩ => ⟨?_, hshown⟩)
    by_contra hs
    exact absurd ((hquiet (Bool.eq_false_iff.mpr hs)).symm.trans hloud) (by decide)
  rw [hvpn]
  refine ⟨VpnEngine.performAll_idle hidle htimely, fun hs => ?_⟩
  rw [howner]
  rw [hstate] at hs
  cases hlast : lastShown s.app.vpn.activeProtocol as with
  | none =>
    rw [hlast] at hs
    exact h.kept (lastShown_eq_none.1 hlast) hs (hquiet hs)
  | some st =>
    rw [hlast] at hs
    refine (h.stopped st hlast).resolve_left fun hactive => ?_
    cases hs.symm.trans hactive

/-- A step that brings no state and no figures. -/
theorem calm_mute {s s' : Drivers} {as : List Action} (hreowns : ∀ a ∈ as, a.reowns = false)
    (hfigure : ∀ a ∈ as, a.figure = false) (hshown : ∀ a ∈ as, a.shown s.app.vpn.activeProtocol = none)
    (hkept : s.app.vpn.state.isActive = false → s.quiet s.app.vpn.activeProtocol = true →
      s'.quiet s.app.vpn.activeProtocol = true) : Calm s s' as where
  reowns := hreowns
  figures := .inl fun a ha hf => absurd ((hfigure a ha).symm.trans hf) (by decide)
  kept _ := hkept
  stopped st hst := by
    rw [lastShown_eq_none.2 hshown] at hst
    cases hst

/-- A step of WireGuard, of a router that it owns. -/
theorem WgOutcome.calm {s s' : Drivers} {as : List Action} (h : WgOutcome s s' as)
    (hreowns : ∀ a ∈ as, a.reowns = false) (howner : s.app.vpn.activeProtocol = .wireguard) :
    Calm s s' as := by
  have hmute : (∀ a ∈ as, a.figure = false) → ∀ a ∈ as, a.figure = true → a.engine ≠ some s.app.vpn.activeProtocol :=
    fun hfigure a ha hf => absurd ((hfigure a ha).symm.trans hf) (by decide)
  cases h with
  | kept hshown hfigure h => exact calm_mute hreowns hfigure (howner ▸ hshown) fun _ => howner ▸ h
  | loud hshown h =>
    refine ⟨hreowns, .inr (howner ▸ ⟨h, hshown⟩), fun _ _ hquiet => ?_, fun st hst => ?_⟩
    · rw [howner] at hquiet
      cases hquiet.symm.trans h
    · rw [howner, lastShown_eq_none.2 hshown] at hst
      cases hst
  | up st hst hfigure h =>
    refine ⟨hreowns, .inl (hmute hfigure), fun hnone => ?_, fun st' hst' => ?_⟩
    · rw [howner, ← lastShown_eq_none, hst] at hnone
      cases hnone
    · rw [howner, hst] at hst'
      exact .inl (Option.some.inj hst' ▸ h)
  | stopped hfigure h =>
    exact ⟨hreowns, .inl (hmute hfigure), fun _ _ _ => howner ▸ h, fun _ _ => .inr (howner ▸ h)⟩

/-- A step of an engine that does not own the tunnel. -/
theorem calm_foreign {s s' : Drivers} {as : List Action} {q : Protocol} (hengine : ∀ a ∈ as, a.engine = some q)
    (howner : s.app.vpn.activeProtocol ≠ q)
    (hkept : s.quiet s.app.vpn.activeProtocol = true → s'.quiet s.app.vpn.activeProtocol = true) :
    Calm s s' as where
  reowns a ha := by
    have he := hengine a ha
    cases a with
    | setProtocol => cases he
    | _ => rfl
  figures := .inl fun a ha _ he => howner (Option.some.inj (he.symm.trans (hengine a ha)))
  kept _ _ := hkept
  stopped st hst := by
    rw [lastShown_eq_none.2 fun a ha => shown_foreign (hengine a ha) howner] at hst
    cases hst

/-- A step that brings one state, active or with the driver quiet behind it. -/
theorem calm_state {s s' : Drivers} {as : List Action} {st : VpnState} (hreowns : ∀ a ∈ as, a.reowns = false)
    (hfigure : ∀ a ∈ as, a.figure = false) (hst : lastShown s.app.vpn.activeProtocol as = some st)
    (h : st.isActive = true ∨ s'.quiet s.app.vpn.activeProtocol = true) : Calm s s' as where
  reowns := hreowns
  figures := .inl fun a ha hf => absurd ((hfigure a ha).symm.trans hf) (by decide)
  kept hnone := by
    rw [← lastShown_eq_none, hst] at hnone
    cases hnone
  stopped st' hst' := Option.some.inj (hst.symm.trans hst') ▸ h

/-! ## 3. The UI process -/

section Ui

variable {D : Stores} {s s' : Drivers}

/-- What a step of the UI process leaves of the other drivers than WireGuard. -/
structure Beside (s s' : Drivers) (es : List Effect) : Prop where
  samplers : s'.samplers = s.samplers
  level : s'.level = s.level
  services : s'.services = s.services
  messages : s'.messages = s.messages
  commands : .start .xray ∉ es → s'.commands.all (!·.starts) = s.commands.all (!·.starts)

theorem Beside.quiet {es : List Effect} (h : Beside s s' es) {q : Protocol} (hq : q ≠ .wireguard)
    (hstart : q = .xray → .start .xray ∉ es) : s'.quiet q = s.quiet q := by
  unfold Drivers.quiet
  cases q with
  | wireguard => exact absurd rfl hq
  | ikev2 =>
    unfold Drivers.busy
    dsimp only
    rw [h.samplers]
  | xray =>
    unfold XraySession.rests
    dsimp only
    rw [h.services, h.messages, h.commands (hstart rfl)]
  | openvpn =>
    dsimp only
    rw [h.level]

/-- No session is begun but by a START. -/
theorem intents_starts {es : List Effect} (h : .start .xray ∉ es) (s : Drivers) (l : Label) :
    (s.intents es l).all (!·.starts) = true := by
  have hall : ∀ {u : Uuid} {c : XrayCommand}, c ∈ XraySession.intents u es → c.starts = false := by
    intro u c hc
    unfold XraySession.intents at hc
    obtain ⟨e, he, hsome⟩ := List.mem_filterMap.mp hc
    cases c with
    | stop => rfl
    | start uuid =>
      split at hsome
      · exact absurd he h
      · cases hsome
      · cases hsome
  refine List.all_eq_true.2 fun c hc => ?_
  unfold Drivers.intents at hc
  split at hc
  · rw [hall (List.mem_filter.mp hc).1]
    rfl
  · rw [hall hc]
    rfl

/-- What a step of a call that is not inside the driver does to WireGuard: it stops it or leaves it alone. -/
theorem CallMove.outside {a r : App} {i : Nat} {uuid : Uuid} {protocol : Protocol} {inp : Input} {pc pc' : Pc}
    {es : List Effect} (h : CallMove D a i uuid protocol inp pc r pc' es)
    (hpc : ∀ q, pc = .wgConnect q → q.finished = true) :
    pc.comingUp = false ∧ pc' ≠ .wgConnect .publish ∧ pc'.inHand = none ∧
    r.wg.nextTunnel = a.wg.nextTunnel ∧ r.wg.backend = a.wg.backend ∧
    (r.wg.pollJob = a.wg.pollJob ∨ r.wg.pollJob = none) ∧ (r.wg.active = a.wg.active ∨ r.wg.active = none) := by
  cases h with
  | wgStep q q' w as hf hstep =>
    rw [hpc q rfl] at hf
    cases hf
  | wgStop t hp ha =>
    unfold WireGuardEngine.launchDown WireGuardEngine.stopPolling
    dsimp only
    rw [ha]
    exact ⟨rfl, (fun he => by cases he), rfl, rfl, rfl, .inr rfl, .inr rfl⟩
  | wgIdle => exact ⟨rfl, (fun he => by cases he), rfl, rfl, rfl, .inr rfl, .inl rfl⟩
  | protocol => cases protocol <;> exact ⟨rfl, (fun he => by cases he), rfl, rfl, rfl, .inl rfl, .inl rfl⟩
  | _ => exact ⟨rfl, (fun he => by cases he), rfl, rfl, rfl, .inl rfl, .inl rfl⟩

/-- A step of a call that is not inside the driver. -/
theorem outside_kept {i : Nat} {c : Call} {inp : Input} {r : App} {pc : Pc} {es : List Effect}
    (W : Wired s) (hi : s.app.calls[i]? = some c)
    (hmove : CallMove D s.app i c.uuid c.protocol inp c.pc r pc es)
    (hpc : ∀ q, c.pc = .wgConnect q → q.finished = true) (hwg : s'.app.wg = r.wg)
    (hcalls : s'.app.calls = s.app.calls.set i { c with pc := pc })
    (hloops : s'.loops = rebind s.loops s.app.wg.pollJob s'.app.wg.pollJob)
    (hthrown : s'.thrown = s.thrown) (hbeside : Beside s s' es) :
    Wired s' ∧ ∀ q, (q = .xray → .start .xray ∉ es) → s.quiet q = true → s'.quiet q = true := by
  obtain ⟨hcoming, hpublish, hhand, hnext, hback, hpoll, hactive⟩ := hmove.outside hpc
  rw [← hwg] at hnext hback hpoll hactive
  have hhands : s'.hands = Function.update s.hands i pc.inHand := by
    unfold Drivers.hands
    rw [hcalls]
    exact field_set hi
  have hkept : WgKept s s' := by
    refine .call hi hcalls (fun he => absurd (hcoming.symm.trans he) (by decide)) hpublish hloops hpoll hthrown
      fun lp hlp he => ?_
    rcases hactive with hsame | hnone
    · exact hsame ▸ he
    · cases hnone.symm.trans he
  refine ⟨W.kept hnext hloops hpoll hactive (.inl (by rw [hback])) fun k t ht => ?_, fun q hstart hquiet => ?_⟩
  · rw [hhands, hhand] at ht
    by_cases hk : k = i
    · subst hk
      rw [Function.update_self] at ht
      cases ht
    · rwa [Function.update_of_ne hk] at ht
  · by_cases hq : q = .wireguard
    · subst hq
      exact hkept.quiet hquiet
    · rw [hbeside.quiet hq hstart]
      exact hquiet

/-- A step of `WireGuardEngine.connect` in a call is calm. -/
theorem connectStep_calm {i : Nat} {c : Call} {inp : Input} {q q' : WgPc} {w : WireGuardEngine} {as : List Action}
    (W : Wired s) (hi : s.app.calls[i]? = some c) (hpc : c.pc = .wgConnect q)
    (hconnect : ConnectMove D s.app.wg i c.uuid inp.toWgInput q w q' as) (ho : s.orderlyCall i inp c = true)
    (hwg : s'.app.wg = w) (hcalls : s'.app.calls = s.app.calls.set i { c with pc := .wgConnect q' })
    (hloops : s'.loops = rebind s.loops s.app.wg.pollJob s'.app.wg.pollJob) (hthrown : s'.thrown = s.thrown)
    (hbeside : Beside s s' (App.wgEffects s.app.wg q ++ as.map .router)) : Wired s' ∧ Calm s s' as := by
  have hcall : CallStep s s' i c q q' := ⟨hi, hpc, hcalls, hloops, hthrown⟩
  refine ⟨hconnect.wired W hcall hwg, ?_⟩
  have hengine := hconnect.engine
  have hreowns : ∀ a ∈ as, a.reowns = false := by
    intro a ha
    have he := hengine a ha
    cases a with
    | setProtocol => cases he
    | _ => rfl
  have hnoStart : .start .xray ∉ App.wgEffects s.app.wg q ++ as.map .router := by
    intro hmem
    rcases List.mem_append.mp hmem with hmem | hmem
    · rcases mem_wgEffects hmem with he | he <;> cases he
    · obtain ⟨a, -, he⟩ := List.mem_map.mp hmem
      cases he
  by_cases howner : s.app.vpn.activeProtocol = .wireguard
  · refine WgOutcome.calm ?_ hreowns howner
    unfold Drivers.orderlyCall at ho
    rw [hpc] at ho
    refine hconnect.outcome W hcall hwg (fun hends => ?_) fun f hf lp hlp => ?_
    · cases q with
      | down t | up t => simpa using Drivers.owned_eq howner ho
      | failed f =>
        have hboth := Drivers.owned_eq howner ho
        rw [Bool.and_eq_true] at hboth
        simpa using hboth.1
      | _ => cases hends
    · subst hf
      have hboth := Drivers.owned_eq howner ho
      rw [Bool.and_eq_true, List.all_eq_true] at hboth
      simpa using hboth.2 lp hlp
  · exact calm_foreign hengine howner fun hquiet => by
      rw [hbeside.quiet howner fun _ => hnoStart]
      exact hquiet

/-- **A step of a call is calm**, or hands the tunnel over. -/
theorem call_calm {i : Nat} {c : Call} {inp : Input} {r : App} {pc : Pc} {es : List Effect}
    (W : Wired s) (hi : s.app.calls[i]? = some c)
    (hmove : CallMove D s.app i c.uuid c.protocol inp c.pc r pc es) (ho : s.orderlyCall i inp c = true)
    (hwg : s'.app.wg = r.wg) (hcalls : s'.app.calls = s.app.calls.set i { c with pc := pc })
    (hloops : s'.loops = rebind s.loops s.app.wg.pollJob s'.app.wg.pollJob)
    (hthrown : s'.thrown = s.thrown) (hbeside : Beside s s' es) :
    Wired s' ∧ (c.pc ≠ .setProtocol → Calm s s' (accesses es)) := by
  by_cases hin : ∃ q, c.pc = .wgConnect q ∧ q.finished = false
  · obtain ⟨q, hpc, hq⟩ := hin
    rw [hpc] at hmove
    cases hmove with
    | wgOk => cases hq
    | wgError => cases hq
    | wgStep _ q' w as hf hstep =>
      rw [accesses_append, accesses_wgEffects, accesses_map, List.nil_append]
      obtain ⟨W', hcalm⟩ :=
        connectStep_calm W hi hpc (connectStep_move hstep) ho hwg hcalls hloops hthrown hbeside
      exact ⟨W', fun _ => hcalm⟩
  · have hfinished : ∀ q, c.pc = .wgConnect q → q.finished = true := by
      intro q hq
      by_contra hne
      exact hin ⟨q, hq, Bool.eq_false_iff.mpr hne⟩
    obtain ⟨W', hquiet⟩ := outside_kept W hi hmove hfinished hwg hcalls hloops hthrown hbeside
    refine ⟨W', fun hset => ?_⟩
    unfold Drivers.orderlyCall at ho
    generalize hpc : c.pc = pc₀ at hmove ho
    cases hmove with
    | wgStep q q' w as hf hstep =>
      rw [hfinished q hpc] at hf
      cases hf
    | protocol => exact absurd hpc hset
    | awaited j hj =>
      by_cases howner : s.app.vpn.activeProtocol = .wireguard
      · refine calm_state (by simp [Action.reowns]) (by simp [Action.figure])
          (?_ : lastShown _ _ = some .disconnected) (.inr ?_)
        · rw [howner]
          rfl
        · exact hquiet _ (fun _ => by simp) (howner ▸ Drivers.owned_eq howner ho)
      · exact calm_foreign (q := .wireguard) (by simp [Action.engine]) howner (hquiet _ fun _ => by simp)
    | wgConnecting | xrayConnecting | ikeConnecting =>
      exact calm_state (by simp [Action.reowns]) (by simp [Action.figure]) rfl (.inl rfl)
    | xrayState =>
      by_cases howner : s.app.vpn.activeProtocol = .xray
      · refine calm_state (by simp [Action.reowns]) (by simp [Action.figure])
          (?_ : lastShown _ _ = some .connecting) (.inl rfl)
        rw [howner]
        rfl
      · exact calm_foreign (q := .xray) (by simp [Action.engine]) howner (hquiet _ fun _ => by simp)
    | xrayStarted hstarted =>
      refine calm_mute (by simp) (by simp) (by simp) fun hs hq => ?_
      by_cases howner : s.app.vpn.activeProtocol = .xray
      · have hactive := Drivers.owned_eq howner ho
        rw [if_pos hstarted, hs] at hactive
        cases hactive
      · exact hquiet _ (fun he => absurd he howner) hq
    | xrayThrew hthrew =>
      by_cases howner : s.app.vpn.activeProtocol = .xray
      · refine calm_state (by simp [XrayEvent.actions, Action.reowns])
          (by simp [XrayEvent.actions, Action.figure]) (?_ : lastShown _ _ = some .disconnected) (.inr ?_)
        · rw [howner]
          rfl
        · have hq := Drivers.owned_eq howner ho
          rw [if_neg (by rw [hthrew]; decide)] at hq
          exact hquiet _ (fun _ => by simp) (howner ▸ hq)
      · exact calm_foreign (q := .xray) (by simp [XrayEvent.actions, Action.engine]) howner
          (hquiet _ fun _ => by simp)
    | ikeUnknown =>
      exact calm_state (by simp [Action.reowns]) (by simp [Action.figure]) rfl
        (.inr (hquiet _ (fun _ => by simp) ho))
    | _ =>
      exact calm_mute (by simp [Action.reowns]) (by simp [Action.figure]) (by simp [Action.shown])
        fun _ => hquiet _ fun _ => by simp

/-- A step that is no call's, and launches no loop. -/
theorem Stopping.quiet_kept {es : List Effect} (h : Stopping s s') (hbeside : Beside s s' es)
    (hstart : .start .xray ∉ es) {q : Protocol} (hquiet : s.quiet q = true) : s'.quiet q = true := by
  by_cases hq : q = .wireguard
  · subst hq
    exact h.kept.quiet hquiet
  · rw [hbeside.quiet hq fun _ => hstart]
    exact hquiet

/-- A stop of WireGuard. -/
theorem Stopping.calm {as : List Action} (W : Wired s) (h : Stopping s s')
    (howned : s.owned .wireguard (!s.busy .wireguard) = true) (hnone : s'.app.wg.pollJob = none)
    (hengine : ∀ a ∈ as, a.engine = some .wireguard) (hfigure : ∀ a ∈ as, a.figure = false)
    (hkept : s.app.vpn.activeProtocol ≠ .wireguard → s.quiet s.app.vpn.activeProtocol = true →
      s'.quiet s.app.vpn.activeProtocol = true) : Calm s s' as := by
  by_cases howner : s.app.vpn.activeProtocol = .wireguard
  · have hbusy : s.busy .wireguard = false := by
      simpa using Drivers.owned_eq howner howned
    refine (WgOutcome.stopped hfigure (h.quiet W hbusy hnone)).calm (fun a ha => ?_) howner
    have he := hengine a ha
    cases a with
    | setProtocol => cases he
    | _ => rfl
  · exact calm_foreign hengine howner (hkept howner)

/-- A step of the UI process, as the drivers see it. -/
structure UiStep (D : Stores) (s s' : Drivers) (l : Label) (es : List Effect) : Prop where
  step : s.app.step D l = some (s'.app, es)
  loops : s'.loops = rebind s.loops s.app.wg.pollJob s'.app.wg.pollJob
  thrown : s'.thrown = s.thrown
  beside : Beside s s' es

section UiStep

variable {l : Label} {es : List Effect}

theorem UiStep.control (U : UiStep D s s' l es) :
    ∃ r, s.app.control D l = some (r, es) ∧ s'.app.wg = r.wg ∧ s'.app.calls = r.calls := by
  obtain ⟨r, hc, hr, -⟩ := step_control U.step
  exact ⟨r, hc, by rw [hr]; rfl, by rw [hr]; rfl⟩

/-- A step that leaves WireGuard alone. -/
theorem UiStep.stopping (U : UiStep D s s' l es) (hwg : s'.app.wg = s.app.wg)
    (hcalls : s'.app.calls = s.app.calls) : Stopping s s' := by
  refine ⟨hcalls, U.thrown, U.loops, ?_, .inl ?_, .inl ?_, .inl ?_⟩ <;> rw [hwg]

/-- A step that brings no state and no figures. -/
theorem UiStep.mute (U : UiStep D s s' l es) (h : Stopping s s') (hstart : .start .xray ∉ es)
    (hreowns : ∀ a ∈ accesses es, a.reowns = false) (hfigure : ∀ a ∈ accesses es, a.figure = false)
    (hshown : ∀ a ∈ accesses es, a.shown s.app.vpn.activeProtocol = none) : Calm s s' (accesses es) :=
  calm_mute hreowns hfigure hshown fun _ => h.quiet_kept U.beside hstart

theorem connect_calm {uuid : Uuid} (W : Wired s) (U : UiStep D s s' (.connect uuid) es) :
    Wired s' ∧ Calm s s' (accesses es) := by
  obtain ⟨r, hc, hwg, hcalls⟩ := U.control
  obtain ⟨rfl, rfl⟩ := hc
  replace hwg : s'.app.wg = s.app.wg := hwg
  replace hcalls : s'.app.calls = s.app.calls ++ [⟨uuid, D.protocolOf uuid, .stopOpenVpn⟩] := hcalls
  have hloops : s'.loops = s.loops := by rw [U.loops, hwg, rebind_self]
  have hkept : WgKept s s' := .concat hcalls rfl (fun he => by cases he) hwg hloops U.thrown
  have hhands : s'.hands = s.hands := by
    unfold Drivers.hands
    rw [hcalls]
    exact field_concat rfl
  refine ⟨W.kept (by rw [hwg]) U.loops (.inl (by rw [hwg])) (.inl (by rw [hwg])) (.inl (by rw [hwg]))
    fun k t ht => hhands ▸ ht, calm_mute (by simp) (by simp) (by simp) fun _ hquiet => ?_⟩
  by_cases hq : s.app.vpn.activeProtocol = .wireguard
  · rw [hq] at hquiet ⊢
    exact hkept.quiet hquiet
  · rw [U.beside.quiet hq fun _ => by simp]
    exact hquiet

theorem launchDown_stopping (w : WireGuardEngine) :
    w.stopPolling.launchDown.nextTunnel = w.nextTunnel ∧ w.stopPolling.launchDown.pollJob = none ∧
      w.stopPolling.launchDown.backend = w.backend := by
  unfold WireGuardEngine.launchDown
  split <;> exact ⟨rfl, rfl, rfl⟩

theorem disconnect_calm {now : Int} (W : Wired s) (U : UiStep D s s' (.disconnect now) es)
    (ho : s.owned .wireguard (!s.busy .wireguard) = true) : Wired s' ∧ Calm s s' (accesses es) := by
  obtain ⟨r, hc, hwg, hcalls⟩ := U.control
  obtain ⟨hr, hes⟩ := Prod.mk.inj (Option.some.inj hc)
  unfold App.stopActive at hr hes
  cases howner : s.app.vpn.activeProtocol with
  | wireguard =>
    rw [howner] at hr hes
    subst hr
    replace hwg : s'.app.wg = s.app.wg.stopPolling.launchDown := hwg
    obtain ⟨hnext, hpoll, hback⟩ := launchDown_stopping s.app.wg
    have hnone : s'.app.wg.pollJob = none := by rw [hwg, hpoll]
    have hstop : Stopping s s' := by
      refine ⟨hcalls, U.thrown, U.loops, by rw [hwg, hnext], .inr hnone, .inr ?_, .inl (by rw [hwg, hback])⟩
      rw [hwg, WireGuardEngine.launchDown_active]
    refine ⟨hstop.wired W, ?_⟩
    have hbusy : s.busy .wireguard = false := by
      simpa using Drivers.owned_eq howner ho
    have has : accesses es = [.setPending none, .onState .wireguard .disconnected none now] := by
      rw [← hes, accesses_router, accesses_append, accesses_map]
      split <;> rfl
    rw [has]
    exact (WgOutcome.stopped (by simp [Action.figure]) (hstop.quiet W hbusy hnone)).calm
      (by simp [Action.reowns]) howner
  | openvpn =>
    rw [howner] at hr hes
    dsimp only at hr hes
    split at hes <;>
      · rename_i hbound
        first | rw [if_pos hbound] at hr | rw [if_neg hbound] at hr
        subst hr hes
        have hstop := U.stopping hwg hcalls
        exact ⟨hstop.wired W, U.mute hstop (by simp) (by simp [Action.reowns]) (by simp [Action.figure])
          (by simp [Action.shown])⟩
  | xray | ikev2 =>
    rw [howner] at hr hes
    subst hr hes
    have hstop := U.stopping hwg hcalls
    exact ⟨hstop.wired W, U.mute hstop (by simp) (by simp [Action.reowns]) (by simp [Action.figure])
      (by simp [Action.shown])⟩

theorem job_calm {j : Nat} {inp : WgInput} (W : Wired s) (U : UiStep D s s' (.job j inp) es)
    (ho : (s.app.wg.jobs[j]?.any (·.pc = .lock) || s.owned .wireguard (!s.busy .wireguard)) = true) :
    Wired s' ∧ Calm s s' (accesses es) := by
  obtain ⟨r, hc, hwg, hcalls⟩ := U.control
  obtain ⟨w, as, hmove, rfl, rfl⟩ := control_job hc
  replace hwg : s'.app.wg = w := hwg
  have hengine := hmove.engine
  have hnoStart : .start .xray ∉ as.map Effect.router := by simp
  rw [accesses_map]
  cases hmove with
  | lock t hj hm =>
    have hstop : Stopping s s' := by
      refine ⟨hcalls, U.thrown, U.loops, ?_, .inl ?_, .inl ?_, .inl ?_⟩ <;> rw [hwg]
    exact ⟨hstop.wired W, calm_mute (by simp) (by simp) (by simp) fun _ => hstop.quiet_kept U.beside hnoStart⟩
  | downOther t hj hb =>
    have hstop : Stopping s s' := by
      refine ⟨hcalls, U.thrown, U.loops, ?_, .inl ?_, .inl ?_, .inl ?_⟩ <;> rw [hwg]
    exact ⟨hstop.wired W, calm_mute (by simp) (by simp) (by simp) fun _ => hstop.quiet_kept U.beside hnoStart⟩
  | down t hj hb =>
    have hstop : Stopping s s' := by
      refine ⟨hcalls, U.thrown, U.loops, ?_, .inr ?_, .inl ?_, .inr ?_⟩ <;> rw [hwg]
    rw [hj, Option.any_some, Bool.or_eq_true] at ho
    have howned := ho.resolve_left (by simp)
    exact ⟨hstop.wired W, hstop.calm W howned (by rw [hwg]) hengine
      (by simp [WireGuardEngine.stateActions, Action.figure]) fun _ => hstop.quiet_kept U.beside hnoStart⟩

theorem onDestroy_calm {now : Int} (W : Wired s) (U : UiStep D s s' (.onDestroy now) es)
    (ho : s.owned .wireguard (!s.busy .wireguard) = true) : Wired s' ∧ Calm s s' (accesses es) := by
  obtain ⟨r, hc, hwg, hcalls⟩ := U.control
  obtain ⟨rfl, rfl⟩ := hc
  have hnoStart : .start .xray ∉ (s.app.wg.onDestroy now).2.map Effect.router := by simp
  rw [accesses_map]
  rcases onDestroy_cases s.app.wg now with ⟨-, hdestroyed⟩ | ⟨-, hdestroyed⟩
  · rw [hdestroyed] at hwg ⊢
    have hstop := U.stopping hwg hcalls
    exact ⟨hstop.wired W, calm_mute (by simp) (by simp) (by simp) fun _ => hstop.quiet_kept U.beside hnoStart⟩
  · rw [hdestroyed] at hwg ⊢
    have hstop : Stopping s s' := by
      refine ⟨hcalls, U.thrown, U.loops, ?_, .inr ?_, .inl ?_, .inr ?_⟩ <;> rw [hwg]
    exact ⟨hstop.wired W, hstop.calm W ho (by rw [hwg]) (WireGuardEngine.stateActions_engine .down now)
      (by simp [WireGuardEngine.stateActions, Action.figure]) fun _ => hstop.quiet_kept U.beside hnoStart⟩

/-- **A step of the UI process is calm**, or hands the tunnel over. -/
theorem UiStep.calm (W : Wired s) (U : UiStep D s s' l es) (hl : l.isUi = true)
    (ho : s.orderlyApp l = true) :
    Wired s' ∧ ((∀ i inp c, l = .call i inp → s.app.calls[i]? = some c → c.pc ≠ .setProtocol) →
      Calm s s' (accesses es)) := by
  cases l with
  | callback | xray | pollDown => cases hl
  | call i inp =>
    obtain ⟨r, hc, hwg, hcalls⟩ := U.control
    obtain ⟨c, r, pc, hi, hmove, rfl⟩ := control_call hc
    have horderly : s.orderlyCall i inp c = true := by
      unfold Drivers.orderlyApp at ho
      dsimp only at ho
      rwa [hi, Option.all_some] at ho
    obtain ⟨W', hcalm⟩ := call_calm W hi hmove horderly hwg hcalls U.loops U.thrown U.beside
    exact ⟨W', fun hset => hcalm (hset i inp c rfl hi)⟩
  | connect uuid => exact (connect_calm W U).imp id fun h _ => h
  | disconnect now => exact (disconnect_calm W U ho).imp id fun h _ => h
  | job j inp => exact (job_calm W U ho).imp id fun h _ => h
  | onDestroy now => exact (onDestroy_calm W U ho).imp id fun h _ => h
  | serviceConnected =>
    obtain ⟨r, hc, hwg, hcalls⟩ := U.control
    have hpair : s.app.onServiceConnected = (r, es) := Option.some.inj hc
    unfold App.onServiceConnected at hpair
    split at hpair <;>
      · obtain ⟨rfl, rfl⟩ := hpair
        have hstop := U.stopping hwg hcalls
        exact ⟨hstop.wired W, fun _ => U.mute hstop (by simp) (by simp [Action.reowns])
          (by simp [Action.figure]) (by simp [Action.shown])⟩
  | serviceDisconnected =>
    obtain ⟨r, hc, hwg, hcalls⟩ := U.control
    obtain ⟨rfl, rfl⟩ := hc
    have hstop := U.stopping hwg hcalls
    exact ⟨hstop.wired W, fun _ => U.mute hstop (by simp) (by simp [Action.reowns]) (by simp [Action.figure])
      (by simp [Action.shown])⟩
  | stopVpn k =>
    obtain ⟨r, hc, hwg, hcalls⟩ := U.control
    simp only [App.control] at hc
    split at hc
    · obtain ⟨rfl, rfl⟩ := hc
      have hstop := U.stopping hwg hcalls
      exact ⟨hstop.wired W, fun _ => U.mute hstop (by simp) (by simp) (by simp) (by simp)⟩
    · cases hc

end UiStep

end Ui

end SwiftVpn
