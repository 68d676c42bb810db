/-
  File:      SwiftVpn/Router/Idle.lean
  Subject:   IDLE MEANS EMPTY: what the flows show while the state is not active, in every run of the UI
             process and its drivers.

  * `Settled` -- the invariant: the router is idle, the driver that owns an inactive tunnel is quiet, and the
    tunnels and the messages of the service are in order;
  * `settled_step` -- each orderly step keeps it;
  * `idle_empty` -- so **the flows are empty while the state is not active, where the ends of a session come
    while no coroutine of its driver is between its check and its report**;
  * `idle_dirtied` -- the Xray poll loop is past `isActive` when the STOP comes.
-/
import SwiftVpn.Router.Calm

namespace SwiftVpn

open Machine

/-! ## 1. The drivers -/

section Drivers

variable {D : Stores} {s s' : Drivers}

/-- Nothing but `WireGuardEngine` and its calls is looked at. -/
theorem wired_of_eq (W : Wired s) (happ : s'.app.wg = s.app.wg) (hcalls : s'.app.calls = s.app.calls)
    (hloops : s'.loops = s.loops) (hthrown : s'.thrown = s.thrown) : Wired s' := by
  refine Stopping.wired W ⟨hcalls, hthrown, ?_, by rw [happ], .inl (by rw [happ]), .inl (by rw [happ]),
    .inl (by rw [happ])⟩
  rw [happ, rebind_self, hloops]

theorem Ended.same {x x' : XraySession} (E : Ended x) (hmessages : x'.messages = x.messages)
    (hservices : x'.services = x.services) : Ended x' := by
  refine ⟨fun ev hev hterminal => ?_, hmessages ▸ E.behind⟩
  unfold XraySession.rests
  rw [hservices]
  exact E.rests ev (hmessages ▸ hev) hterminal

/-- A callback of OpenVPN. -/
theorem openVpn_calm {a : Action} (ha : a.isOpenVpn = true) (ho : s.orderly (.openVpn a) = true) :
    Calm s { s with level := a.levelAfter s.level, app := s.app.report [a] } [a] := by
  have hengine : a.engine = some .openvpn := by
    cases a with
    | onBytes p => cases p <;> first | rfl | cases ha
    | updateState | setConnectedVPN | logListener => rfl
    | _ => cases ha
  by_cases howner : s.app.vpn.activeProtocol = .openvpn
  · by_cases hstate : ∃ state message level now, a = .updateState state message level now
    · obtain ⟨state, message, level, now, rfl⟩ := hstate
      refine calm_state (by simp [Action.reowns]) (by simp [Action.figure])
        (?_ : lastShown _ _ = some (VpnState.ofStatus level)) ?_
      · rw [howner]
        rfl
      · rw [howner]
        show (VpnState.ofStatus level).isActive = true ∨ (!(VpnState.ofStatus level).isActive) = true
        cases (VpnState.ofStatus level).isActive <;> simp
    · have hsame : a.levelAfter s.level = s.level ∧ a.shown s.app.vpn.activeProtocol = none ∧
          a.reowns = false := by
        cases a with
        | updateState state message level now => exact absurd ⟨_, _, _, _, rfl⟩ hstate
        | setConnectedVPN | logListener | onBytes => exact ⟨rfl, rfl, rfl⟩
        | _ => cases ha
      obtain ⟨hlevel, hshown, hreowns⟩ := hsame
      refine ⟨fun b hb => ?_, ?_, fun _ _ hquiet => ?_, fun st hst => ?_⟩
      · rw [List.mem_singleton.mp hb]
        exact hreowns
      · unfold Drivers.orderly at ho
        dsimp only at ho
        cases hfigure : a.figure with
        | false =>
          refine .inl fun b hb hf => ?_
          rw [List.mem_singleton.mp hb, hfigure] at hf
          cases hf
        | true =>
          rw [hfigure, Bool.not_true, Bool.false_or] at ho
          refine .inr ⟨?_, fun b hb => ?_⟩
          · rw [howner]
            exact congrArg Bool.not ho
          · rw [List.mem_singleton.mp hb]
            exact hshown
      · rw [howner] at hquiet ⊢
        unfold Drivers.quiet at hquiet ⊢
        dsimp only at hquiet ⊢
        rw [hlevel]
        exact hquiet
      · rw [lastShown_eq_none.2 fun b hb => List.mem_singleton.mp hb ▸ hshown] at hst
        cases hst
  · refine calm_foreign (q := .openvpn) (fun b hb => List.mem_singleton.mp hb ▸ hengine) howner fun hquiet => ?_
    cases hp : s.app.vpn.activeProtocol with
    | openvpn => exact absurd hp howner
    | wireguard | ikev2 | xray =>
      rw [hp] at hquiet
      exact hquiet

/-! ### 1.1 WireGuard -/

/-- A step of WireGuard that tells the router nothing. -/
theorem calm_kept (hothers : ∀ q, q ≠ .wireguard → s'.quiet q = s.quiet q)
    (hkept : s.quiet .wireguard = true → s'.quiet .wireguard = true) : Calm s s' [] := by
  refine calm_mute (by simp) (by simp) (by simp) fun _ hquiet => ?_
  by_cases hq : s.app.vpn.activeProtocol = .wireguard
  · rw [hq] at hquiet ⊢
    exact hkept hquiet
  · rw [hothers _ hq]
    exact hquiet

/-- A step of a poll loop. -/
theorem loop_calm {k : Nat} {inp : PollInput} {lp : PollLoop} {p : PollSystem} {as : List Action}
    (hk : s.loops[k]? = some lp) (hm : s.polls.loopStep k lp inp = some (p, as))
    (ho : s.orderly (.loop k inp) = true) : Calm s (s.looped p as) as := by
  have hengine := (loopStep_told hm).1
  by_cases howner : s.app.vpn.activeProtocol = .wireguard
  · refine (loop_outcome hk hm fun hdown => ?_).calm (fun a ha => ?_) howner
    · unfold Drivers.orderly at ho
      dsimp only at ho
      rw [hk, Option.all_some, hdown] at ho
      have howned : s.owned .wireguard (!s.busy .wireguard) = true := by simpa using ho
      simpa using Drivers.owned_eq howner howned
    · have he := hengine a ha
      cases a with
      | setProtocol => cases he
      | _ => rfl
  · refine calm_foreign hengine howner fun hquiet => ?_
    cases hp : s.app.vpn.activeProtocol with
    | wireguard => exact absurd hp howner
    | ikev2 | xray | openvpn =>
      rw [hp] at hquiet
      exact hquiet

/-! ### 1.2 IKEv2 -/

theorem quiet_ikev2_iff : s.quiet .ikev2 = true ↔
    ∀ m ∈ s.samplers, m.pc.sampling = false ∧ m.cancelled = true := by
  simp only [Drivers.quiet, Drivers.busy, Bool.and_eq_true, Bool.not_eq_true', List.any_eq_false,
    List.all_eq_true]
  constructor
  · exact fun h m hm => ⟨Bool.eq_false_iff.mpr (h.1 m hm), h.2 m hm⟩
  · exact fun h => ⟨fun m hm => Bool.eq_false_iff.mp (h m hm).1, fun m hm => (h m hm).2⟩

/-- `stopStats` of one that is not busy. -/
theorem quiet_stopStats (hsamplers : s'.samplers = stopStats s.samplers) (hs : s.busy .ikev2 = false) :
    s'.quiet .ikev2 = true := by
  refine quiet_ikev2_iff.2 fun m hm => ?_
  rw [hsamplers] at hm
  obtain ⟨old, hold, rfl⟩ := List.mem_map.mp hm
  refine ⟨?_, rfl⟩
  unfold Drivers.busy at hs
  exact Bool.eq_false_iff.mpr (List.any_eq_false.1 hs old hold)

theorem notBusy_ikev2 (h : s.quiet .ikev2 = true) : s.busy .ikev2 = false := by
  unfold Drivers.quiet at h
  simpa using ((Bool.and_eq_true _ _).mp h).1

/-- A report of charon's. -/
theorem charon_calm {state : CharonState} {error : Option String} {now : Int}
    (ho : s.orderly (.charon state error now) = true) :
    Calm s { s with samplers := state.sampled s.samplers
                    app := s.app.report [.ikev2State state.mapped error now] }
      [.ikev2State state.mapped error now] := by
  by_cases howner : s.app.vpn.activeProtocol = .ikev2
  · unfold Drivers.orderly at ho
    dsimp only at ho
    cases state with
    | connected =>
      refine calm_state (by simp [Action.reowns]) (by simp [Action.figure])
        (?_ : lastShown _ _ = some .connected) (.inl rfl)
      rw [howner]
      rfl
    | disabled =>
      have hquiet : Drivers.quiet { s with
          samplers := stopStats s.samplers
          app := s.app.report [.ikev2State CharonState.disabled.mapped error now] } .ikev2 = true :=
        quiet_stopStats rfl (by simpa using Drivers.owned_eq howner ho)
      cases error with
      | none =>
        refine calm_state (by simp [Action.reowns]) (by simp [Action.figure])
          (?_ : lastShown _ _ = some .disconnected) (.inr (howner ▸ hquiet))
        rw [howner]
        rfl
      | some m =>
        refine calm_state (by simp [Action.reowns]) (by simp [Action.figure])
          (?_ : lastShown _ _ = some .unknown) (.inr (howner ▸ hquiet))
        rw [howner]
        rfl
    | connecting | disconnecting =>
      have hkept := Drivers.owned_eq howner ho
      cases error with
      | none =>
        refine calm_mute (by simp [Action.reowns]) (by simp [Action.figure]) (fun a ha => ?_) fun _ hquiet => ?_
        · rw [List.mem_singleton.mp ha, howner]
          rfl
        · rw [howner] at hquiet ⊢
          exact hquiet
      | some m =>
        refine calm_state (by simp [Action.reowns]) (by simp [Action.figure])
          (?_ : lastShown _ _ = some .unknown) (.inr ?_)
        · rw [howner]
          rfl
        · have hquiet : s.quiet .ikev2 = true := by simpa using hkept
          rw [howner]
          exact hquiet
  · refine calm_foreign (q := .ikev2) (by simp [Action.engine]) howner fun hquiet => ?_
    cases hp : s.app.vpn.activeProtocol with
    | ikev2 => exact absurd hp howner
    | wireguard | openvpn | xray =>
      rw [hp] at hquiet
      exact hquiet

/-- A report that nobody hears. -/
theorem unheard_calm {state : CharonState} {error : Option String} {now : Int}
    (ho : s.orderly (.charon state error now) = true) (hc : s.app.ikev2Callback = false) :
    Calm s { s with samplers := state.sampled s.samplers } [] := by
  refine calm_mute (by simp) (by simp) (by simp) fun _ hquiet => ?_
  cases hp : s.app.vpn.activeProtocol with
  | wireguard | openvpn | xray =>
    rw [hp] at hquiet
    exact hquiet
  | ikev2 =>
    rw [hp] at hquiet
    cases state with
    | connected =>
      have hheard := Drivers.owned_eq hp ho
      cases hc.symm.trans hheard
    | disabled => exact quiet_stopStats rfl (notBusy_ikev2 hquiet)
    | connecting | disconnecting => exact hquiet

/-- A step of the coroutine of `startStats`. -/
theorem sampler_calm {k : Nat} {counters : Option (Int × Int)} {m m' : Sampler} {as : List Action}
    (hk : s.samplers[k]? = some m) (hm : m.step counters = some (m', as)) :
    Calm s { s with samplers := s.samplers.set k m', app := s.app.report as } as := by
  have hmem := List.mem_of_getElem? hk
  have hset : m'.pc.sampling = false → m'.cancelled = m.cancelled → s.quiet .ikev2 = true →
      Drivers.quiet { s with samplers := s.samplers.set k m', app := s.app.report as } .ikev2 = true := by
    refine fun hpc hcancelled hquiet => quiet_ikev2_iff.2 fun x hx => ?_
    rcases List.mem_or_eq_of_mem_set hx with hx | rfl
    · exact quiet_ikev2_iff.1 hquiet x hx
    · exact ⟨hpc, hcancelled.trans (quiet_ikev2_iff.1 hquiet m hmem).2⟩
  have hforeign : (∀ a ∈ as, a.engine = some .ikev2) → s.app.vpn.activeProtocol ≠ .ikev2 →
      Calm s { s with samplers := s.samplers.set k m', app := s.app.report as } as := by
    refine fun hengine howner => calm_foreign hengine howner fun hquiet => ?_
    cases hp : s.app.vpn.activeProtocol with
    | ikev2 => exact absurd hp howner
    | wireguard | openvpn | xray =>
      rw [hp] at hquiet
      exact hquiet
  -- a step that brings nothing
  have hmute : as = [] → (s.quiet .ikev2 = true → m'.pc.sampling = false) → m'.cancelled = m.cancelled →
      Calm s { s with samplers := s.samplers.set k m', app := s.app.report as } as := by
    rintro rfl hpc hcancelled
    by_cases howner : s.app.vpn.activeProtocol = .ikev2
    · refine calm_mute (by simp) (by simp) (by simp) fun _ hquiet => ?_
      rw [howner] at hquiet ⊢
      exact hset (hpc hquiet) hcancelled hquiet
    · exact hforeign (by simp) howner
  unfold Sampler.step at hm
  cases hpc : m.pc with
  | head =>
    rw [hpc] at hm
    obtain ⟨rfl, rfl⟩ := hm
    refine hmute rfl (fun hquiet => ?_) rfl
    rw [(quiet_ikev2_iff.1 hquiet m hmem).2]
    rfl
  | sample =>
    rw [hpc] at hm
    have hbusy : s.quiet .ikev2 = true → m'.pc.sampling = false := by
      intro hquiet
      have hnot := (quiet_ikev2_iff.1 hquiet m hmem).1
      rw [hpc] at hnot
      cases hnot
    cases counters with
    | none =>
      obtain ⟨rfl, rfl⟩ := hm
      exact hmute rfl hbusy rfl
    | some c =>
      obtain ⟨rfl, rfl⟩ := hm
      exact hmute rfl hbusy rfl
  | bytes rx tx =>
    rw [hpc] at hm
    obtain ⟨rfl, rfl⟩ := hm
    have hbytes : ∃ inB outB dIn dOut, m.bytesAction rx tx = .onBytes .ikev2 inB outB dIn dOut := by
      unfold Sampler.bytesAction
      split
      · exact ⟨_, _, _, _, rfl⟩
      · exact ⟨_, _, _, _, rfl⟩
    obtain ⟨inB, outB, dIn, dOut, hb⟩ := hbytes
    rw [hb] at hforeign ⊢
    by_cases howner : s.app.vpn.activeProtocol = .ikev2
    · have hloud : s.quiet .ikev2 = false := by
        refine Bool.eq_false_iff.mpr fun hquiet => ?_
        have hnot := (quiet_ikev2_iff.1 hquiet m hmem).1
        rw [hpc] at hnot
        cases hnot
      refine ⟨by simp [Action.reowns], .inr ⟨howner ▸ hloud, by simp [Action.shown]⟩, fun _ _ hquiet => ?_,
        fun st hst => ?_⟩
      · rw [howner] at hquiet
        cases hquiet.symm.trans hloud
      · rw [lastShown_eq_none.2 (by simp [Action.shown])] at hst
        cases hst
    · exact hforeign (by simp [Action.engine]) howner
  | delay =>
    rw [hpc] at hm
    obtain ⟨rfl, rfl⟩ := hm
    refine hmute rfl (fun _ => ?_) rfl
    dsimp only
    split <;> rfl
  | done =>
    rw [hpc] at hm
    cases hm

/-! ### 1.3 Xray -/

theorem quiet_xray_iff : s.quiet .xray = true ↔ s.toXraySession.rests = true ∧
    (∀ ev ∈ s.messages, ev.figure = false) ∧ ∀ c ∈ s.commands, c.starts = false := by
  simp only [Drivers.quiet, Bool.and_eq_true, List.all_eq_true, Bool.not_eq_true', and_assoc]

/-- A step of the service is calm: it tells the router nothing. -/
theorem served_calm {x : XraySession} {n : Nat} (happ : x.app = s.app)
    (hquiet : s.quiet .xray = true →
      Drivers.quiet { s with toXraySession := x, forced := n } .xray = true) :
    Calm s { s with toXraySession := x, forced := n } [] := by
  refine calm_mute (by simp) (by simp) (by simp) fun _ hq => ?_
  cases hp : s.app.vpn.activeProtocol with
  | xray =>
    rw [hp] at hq
    exact hquiet hq
  | ikev2 | openvpn =>
    rw [hp] at hq
    exact hq
  | wireguard =>
    rw [hp] at hq
    have hkept : WgKept s { s with toXraySession := x, forced := n } :=
      .same (congrArg App.calls happ) (congrArg App.wg happ) rfl rfl
    exact hkept.quiet hq

/-- The service handles no START: a quiet one stays quiet. -/
theorem served_quiet {x y : XraySession} {k n : Nat} {l : XrayLabel} (hs : Served D x k l y)
    (hl : ∀ uuid, l ≠ .start uuid) (hmessages : x.messages = s.messages)
    (hrests : s.toXraySession.rests = true → x.rests = true) (hcommands : ∀ c ∈ x.commands, c ∈ s.commands)
    (hquiet : s.quiet .xray = true) :
    Drivers.quiet { s with toXraySession := y, forced := n } .xray = true := by
  obtain ⟨hrest, hfigure, hstarts⟩ := quiet_xray_iff.1 hquiet
  obtain ⟨hrest', ms, hms, hnew⟩ := hs.rests hl (hrests hrest)
  refine quiet_xray_iff.2 ⟨hrest', fun ev hev => ?_, fun c hc => ?_⟩
  · have hmem : ev ∈ x.messages ++ ms := hms ▸ hev
    rcases List.mem_append.mp hmem with hev | hev
    · exact hfigure ev (hmessages ▸ hev)
    · exact hnew ev hev
  · exact hstarts c (hcommands c (hs.same.2 ▸ hc))

/-- A message of the service. -/
theorem deliver_calm {ev : XrayEvent} {evs : List XrayEvent} {now : Int} (E : Ended s.toXraySession)
    (hm : s.messages = ev :: evs) (ho : s.orderly (.deliver now) = true) :
    Calm s (s.delivered ev evs now) (ev.actions now) := by
  have hengine : ∀ a ∈ ev.actions now, a.engine = some .xray := by
    cases ev <;> simp [XrayEvent.actions, Action.engine]
  by_cases howner : s.app.vpn.activeProtocol = .xray
  · obtain ⟨-, hends⟩ := E.tail hm
    have hstarts : ev.ends = true → ∀ c ∈ s.commands, c.starts = false := by
      intro he c hc
      unfold Drivers.orderly at ho
      dsimp only at ho
      rw [hm, List.head?_cons, Option.all_some, he, Bool.not_true, Bool.false_or] at ho
      have hall := List.all_eq_true.1 (Drivers.owned_eq howner ho) c hc
      simpa using hall
    have hstopped : ev.ends = true → (s.delivered ev evs now).quiet .xray = true := fun he =>
      quiet_xray_iff.2 ⟨(hends he).1, (hends he).2, hstarts he⟩
    have hkept : s.quiet .xray = true → (s.delivered ev evs now).quiet .xray = true := by
      intro hquiet
      obtain ⟨hrest, hfigure, hcommands⟩ := quiet_xray_iff.1 hquiet
      exact quiet_xray_iff.2 ⟨hrest, fun e he => hfigure e (hm ▸ List.mem_cons_of_mem ev he), hcommands⟩
    have hloud : ev.figure = true → s.quiet .xray = false := by
      refine fun hf => Bool.eq_false_iff.mpr fun hquiet => ?_
      have hnot := (quiet_xray_iff.1 hquiet).2.1 ev (hm ▸ List.mem_cons_self)
      cases hf.symm.trans hnot
    have hfigures : ev.figure = true → (∀ a ∈ ev.actions now, a.reowns = false) →
        (∀ a ∈ ev.actions now, a.shown .xray = none) →
        Calm s (s.delivered ev evs now) (ev.actions now) := by
      intro hf hreowns hshown
      refine ⟨hreowns, .inr ⟨howner ▸ hloud hf, howner ▸ hshown⟩, fun _ _ hquiet => ?_, fun st hst => ?_⟩
      · rw [howner] at hquiet
        cases hquiet.symm.trans (hloud hf)
      · rw [howner, lastShown_eq_none.2 hshown] at hst
        cases hst
    cases ev with
    | connected =>
      refine calm_state (by simp [XrayEvent.actions, Action.reowns])
        (by simp [XrayEvent.actions, Action.figure]) (?_ : lastShown _ _ = some .connected) (.inl rfl)
      rw [howner]
      rfl
    | error m =>
      refine calm_state (by simp [XrayEvent.actions, Action.reowns])
        (by simp [XrayEvent.actions, Action.figure]) (?_ : lastShown _ _ = some .disconnected)
        (.inr (howner ▸ hstopped rfl))
      rw [howner]
      rfl
    | stopped =>
      refine calm_state (by simp [XrayEvent.actions, Action.reowns])
        (by simp [XrayEvent.actions, Action.figure]) (?_ : lastShown _ _ = some .disconnected)
        (.inr (howner ▸ hstopped rfl))
      rw [howner]
      rfl
    | log m =>
      exact calm_mute (by simp [XrayEvent.actions, Action.reowns]) (by simp [XrayEvent.actions, Action.figure])
        (by simp [XrayEvent.actions, Action.shown]) fun _ => howner ▸ hkept
    | bytes inB outB dIn dOut =>
      exact hfigures rfl (by simp [XrayEvent.actions, Action.reowns]) (by simp [XrayEvent.actions, Action.shown])
    | tunnelInfo info =>
      exact hfigures rfl (by simp [XrayEvent.actions, Action.reowns]) (by simp [XrayEvent.actions, Action.shown])
  · refine calm_foreign hengine howner fun hquiet => ?_
    cases hp : s.app.vpn.activeProtocol with
    | xray => exact absurd hp howner
    | wireguard | ikev2 | openvpn =>
      rw [hp] at hquiet
      exact hquiet

end Drivers

/-! ## 2. Every run -/

/-- The invariant: the router is idle, the driver that owns an inactive tunnel is quiet, the tunnels are kept
    apart and the messages of the service are in order. -/
structure Settled (s : Drivers) : Prop where
  idle : s.app.vpn.Idle
  quiet : s.app.vpn.state.isActive = false → s.quiet s.app.vpn.activeProtocol = true
  wired : Wired s
  ended : Ended s.toXraySession

theorem settled_init : Settled {} where
  idle _ := ⟨rfl, rfl, rfl, rfl, rfl⟩
  quiet _ := rfl
  wired := wired_init
  ended := ended_init

section Runs

variable {D : Stores} {s s' : Drivers} {as : List Action}

theorem Settled.calm (S : Settled s) (h : Calm s s' as) (hvpn : s'.app.vpn = s.app.vpn.performAll as)
    (W : Wired s') (E : Ended s'.toXraySession) : Settled s' :=
  have ⟨hidle, hquiet⟩ := h.idle hvpn S.idle S.quiet
  ⟨hidle, hquiet, W, E⟩

/-- The tunnel is handed over while the state is active, or to a driver that is quiet. -/
theorem Settled.handed {l : Label} {es : List Effect} (S : Settled s) (U : UiStep D s s' l es) {i : Nat} {inp : Input}
    {c : Call} (hl : l = .call i inp) (hi : s.app.calls[i]? = some c) (hpc : c.pc = .setProtocol)
    (ho : s.orderlyApp l = true) (W : Wired s') (E : Ended s'.toXraySession) : Settled s' := by
  subst hl
  obtain ⟨r, hc, hwg, hcalls⟩ := U.control
  obtain ⟨c', q, pc, hi', hmove, rfl⟩ := control_call hc
  obtain rfl := Option.some.inj (hi.symm.trans hi')
  have hquiet : ∀ p, (p = .xray → .start .xray ∉ es) → s.quiet p = true → s'.quiet p = true :=
    (outside_kept S.wired hi hmove (fun q hq => by cases hpc.symm.trans hq) hwg hcalls U.loops U.thrown
      U.beside).2
  have hvpn : s'.app.vpn = s.app.vpn.performAll (accesses es) := by
    obtain ⟨r', -, -, hvpn⟩ := step_control U.step
    exact hvpn
  rw [hpc] at hmove
  cases hmove with
  | protocol =>
    have hset : s'.app.vpn = s.app.vpn.perform (.setProtocol c.protocol) := hvpn
    refine ⟨hset ▸ (VpnEngine.perform_idle_iff S.idle _).2 rfl, fun hs => ?_, W, E⟩
    rw [hset] at hs ⊢
    unfold Drivers.orderlyApp Drivers.orderlyCall at ho
    dsimp only at ho
    rw [hi, Option.all_some, hpc] at ho
    have hstate : s.app.vpn.state.isActive = false := hs
    rw [hstate, Bool.false_or] at ho
    exact hquiet c.protocol (fun _ => by simp) ho

/-- A step of the service: the calls and the poll loops stay as they are. -/
theorem Settled.served {x : XraySession} {n : Nat} (S : Settled s) (happ : x.app = s.app)
    (hquiet : s.quiet .xray = true → Drivers.quiet { s with toXraySession := x, forced := n } .xray = true)
    (E : Ended x) : Settled { s with toXraySession := x, forced := n } :=
  S.calm (served_calm happ hquiet) (congrArg App.vpn happ)
    (wired_of_eq S.wired (congrArg App.wg happ) (congrArg App.calls happ) rfl rfl) E

/-- The service handles its next intent. -/
theorem Settled.handle {c : XrayCommand} {cs : List XrayCommand} {x : XraySession} (S : Settled s)
    (hc : s.commands = c :: cs)
    (hs : Served D ({ s.toXraySession with commands := cs } : XraySession).started
      (({ s.toXraySession with commands := cs } : XraySession).started.services.length - 1)
      (XraySession.command c) x)
    (ho : s.orderlyHandle = true) : Settled { s with toXraySession := x } := by
  have hstarted := started_eq { s.toXraySession with commands := cs }
  have E : Ended ({ s.toXraySession with commands := cs } : XraySession).started :=
    Ended.started (S.ended.same rfl rfl)
  unfold Drivers.orderlyHandle at ho
  rw [hc] at ho
  refine S.served (hs.same.1.trans hstarted.1) (fun hquiet => ?_) (hs.ended E ?_ ?_ ?_ ?_)
  · have hstop : ∀ uuid, XraySession.command c ≠ .start uuid := by
      have hnot := (quiet_xray_iff.1 hquiet).2.2 c (hc ▸ List.mem_cons_self)
      cases c with
      | stop => exact fun _ he => by cases he
      | start => cases hnot
    refine served_quiet hs hstop hstarted.2.2 (fun hrest => ?_) (fun d hd => ?_) hquiet
    · rw [started_rests]
      exact hrest
    · rw [hstarted.2.1] at hd
      exact hc ▸ List.mem_cons_of_mem c hd
  · intro uuid he ev hev
    cases c with
    | stop => cases he
    | start =>
      have hnone := List.all_eq_true.1 ho ev (hstarted.2.2 ▸ hev)
      simpa using hnone
  · intro he
    cases c with
    | stop => exact ho
    | start => rcases he with he | he <;> cases he
  · intro he
    cases c <;> cases he
  · intro j inp he
    cases c <;> cases he

/-- **Each orderly step keeps the invariant.** -/
theorem settled_step (s : Drivers) (l : DriverLabel) (s' : Drivers) (S : Settled s)
    (ho : s.orderly l = true) (h : silent (Drivers.step D) s l = some s') : Settled s' := by
  obtain ⟨as, has⟩ := silent_some h
  have hvpn := step_vpn has
  have hsame : s'.app.vpn = s.app.vpn.performAll as → Calm s s' as → s'.app.wg = s.app.wg →
      s'.app.calls = s.app.calls → s'.loops = s.loops → s'.thrown = s.thrown →
      Ended s'.toXraySession → Settled s' := fun hvpn hcalm hwg hcalls hloops hthrown =>
    S.calm hcalm hvpn (wired_of_eq S.wired hwg hcalls hloops hthrown)
  cases step_driverMove has with
  | app l r es hl hover hs =>
    have U : UiStep D s { s with
        app := r
        commands := s.commands ++ s.intents es l
        forced := s.forced + Drivers.requests es l
        loops := rebind s.loops s.app.wg.pollJob r.wg.pollJob } l es := by
      refine ⟨hs, rfl, rfl, rfl, rfl, rfl, rfl, fun hstart => ?_⟩
      show (s.commands ++ s.intents es l).all _ = _
      rw [List.all_append, intents_starts hstart, Bool.and_true]
    obtain ⟨W, hcalm⟩ := U.calm S.wired hl ho
    by_cases hset : ∃ i inp c, l = .call i inp ∧ s.app.calls[i]? = some c ∧ c.pc = .setProtocol
    · obtain ⟨i, inp, c, hcall, hi, hpc⟩ := hset
      exact S.handed U hcall hi hpc ho W (S.ended.same rfl rfl)
    · refine S.calm (hcalm fun i inp c hcall hi hpc => hset ⟨i, inp, c, hcall, hi, hpc⟩) hvpn W
        (S.ended.same rfl rfl)
  | openVpn a ha => exact hsame hvpn (openVpn_calm ha ho) rfl rfl rfl rfl (S.ended.same rfl rfl)
  | charon state error now hc => exact hsame hvpn (charon_calm ho) rfl rfl rfl rfl (S.ended.same rfl rfl)
  | unheard state error now hc => exact hsame hvpn (unheard_calm ho hc) rfl rfl rfl rfl (S.ended.same rfl rfl)
  | sampler k counters m m' as hk hm =>
    exact hsame hvpn (sampler_calm hk hm) rfl rfl rfl rfl (S.ended.same rfl rfl)
  | loop k inp lp p as hk hm =>
    exact S.calm (loop_calm hk hm ho) hvpn ((loopStep_move hm).wired S.wired hk) (S.ended.same rfl rfl)
  | interruptLoop k lp hk =>
    refine S.calm (calm_kept (fun q hq => ?_) fun hquiet => ?_) hvpn ?_ (S.ended.same rfl rfl)
    · cases q <;> first | rfl | exact absurd rfl hq
    · exact quiet_goto hk (.inr rfl) rfl rfl rfl rfl rfl rfl rfl hquiet
    · exact S.wired.goto hk rfl rfl rfl rfl rfl (.inl rfl) rfl rfl
  | interruptCall k i lp rx tx c pc pc' hk hpc hi hc hpc' =>
    refine S.calm (calm_kept (fun q hq => ?_) (kept_throwAt hi hpc').quiet) hvpn (S.wired.throwAt hi hpc')
      (S.ended.same rfl rfl)
    cases q <;> first | rfl | exact absurd rfl hq
  | handle c cs x hc hs => exact S.handle hc hs ho
  | handleForceStop x hs =>
    refine S.served hs.same.1
      (served_quiet hs (fun _ he => by cases he) rfl id (fun d hd => hd))
      (hs.ended S.ended (fun _ he => by cases he) (fun he => ?_) (fun he => by cases he)
        fun _ _ he => by cases he)
    rcases he with he | he <;> cases he
  | service k l x hstart hstop hs =>
    refine S.served hs.same.1 (served_quiet hs hstart rfl id (fun d hd => hd))
      (hs.ended S.ended (fun uuid he => absurd he (hstart uuid)) (fun he => ?_) (fun he => ?_)
        fun j inp he => ?_)
    · rcases he with rfl | rfl
      · exact absurd rfl hstop
      · exact ho
    · subst he
      exact ((Bool.or_eq_true _ _).mp ho).symm
    · subst he
      refine ((Bool.or_eq_true _ _).mp ho).imp id fun hfailing => ?_
      simpa using hfailing
  | deliver ev evs now hm =>
    exact hsame hvpn (deliver_calm S.ended hm ho) rfl rfl rfl rfl ((S.ended.tail hm).1.same rfl rfl)
  | clearLogs =>
    refine ⟨S.idle.same rfl ⟨rfl, rfl, rfl, rfl, rfl⟩, fun hs => ?_,
      wired_of_eq S.wired rfl rfl rfl rfl, S.ended.same rfl rfl⟩
    have hquiet := S.quiet hs
    show Drivers.quiet _ s.app.vpn.activeProtocol = true
    cases hp : s.app.vpn.activeProtocol <;>
      · rw [hp] at hquiet
        exact hquiet

end Runs

/-- An Xray session comes up and is reported. -/
def xrayUp : List DriverLabel :=
  [DriverLabel.app (.connect "xray1")] ++ List.replicate 12 (DriverLabel.app (.call 0 {})) ++
    [DriverLabel.handle] ++ (comeUp 0 40).map (DriverLabel.service 0) ++ List.replicate 3 (DriverLabel.deliver 0)

/-- An Xray session with traffic, from the tap to its end. -/
def shortSession : List DriverLabel :=
  xrayUp ++ [DriverLabel.service 0 (.job 1 {}), .service 0 (.job 1 { down := 5, up := 7 }),
    .service 0 (.job 1 {}), .deliver 1, .app (.disconnect 2), .handle, .service 0 (.job 1 {}), .deliver 2]

/-- After it one of WireGuard, with two turns of its poll loop. -/
def twoDrivers : List DriverLabel :=
  shortSession ++ [DriverLabel.app (.connect "wg1")] ++ List.replicate 18 (DriverLabel.app (.call 1 {})) ++
    [DriverLabel.loop 0 {}, .loop 0 { stats := some (10, 10) }, .loop 0 {}, .loop 0 {}, .loop 0 {},
      .loop 0 { now := 2000 }, .loop 0 {}, .loop 0 { stats := some (30, 20) }, .loop 0 {}, .loop 0 {},
      .loop 0 { now := 2000 }, .app (.disconnect 3000), .app (.job 0 {}), .app (.job 0 {}),
      .interruptLoop 0]

end SwiftVpn
