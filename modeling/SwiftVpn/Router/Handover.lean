/-
  File:      SwiftVpn/Router/Handover.lean
  Subject:   THE HANDOVER BETWEEN ENGINES: `stopOtherEngine` against the sessions that are running.

  * `Sessions` -- a monitor of the UI process. `live p` is the connect call whose session of the
    engine `p` has been started and neither told to stop nor reported stopped since; `passed` are
    the sessions that were live when a connect call on another engine came to their stop in
    `stopOtherEngine`;
  * `wellTimed` -- the binder of a live OpenVPN session is there when it is to be stopped, and
    neither an overlapping connect nor a late report takes the guard of a stop away from a live
    session;
  * `handover` -- along such steps a session that was passed is live no more, or its stop is
    remembered in `disconnectPending`;
  * `handover_missed` -- an OpenVPN session whose binder has not arrived is neither told to stop nor
    remembered.

  Each stop of `stopOtherEngine` is behind a guard of its own; `Guarded` says of each guard that a
  live session of its engine makes it true.
-/
import SwiftVpn.Router.App

namespace SwiftVpn

open Machine

/-! ## 1. The monitor -/

/-- The engine a point of `stopOtherEngine` stops. -/
def Pc.stops : Pc → Option Protocol
  | .stopOpenVpn => some .openvpn
  | .stopWireGuard => some .wireguard
  | .stopIkev2 => some .ikev2
  | .stopXray => some .xray
  | _ => none

structure Sessions where
  live : Protocol → Option Nat := fun _ => none
  passed : List (Protocol × Nat) := []

namespace Sessions

def set (g : Sessions) (p : Protocol) (session : Option Nat) : Sessions :=
  { g with live := fun q => if q = p then session else g.live q }

/-- An engine is started for the call `i`, or told to stop. -/
def tell (i : Nat) (g : Sessions) : Effect → Sessions
  | .start p => g.set p (some i)
  | .stop p => g.set p none
  | _ => g

def tellAll (g : Sessions) (i : Nat) (es : List Effect) : Sessions := es.foldl (tell i) g

/-- A call on `protocol` comes to the stop of another engine while a session of that is live. -/
def pass (g : Sessions) (protocol : Protocol) (pc : Pc) : Sessions :=
  match pc.stops with
  | some p =>
    if p ≠ protocol then { g with passed := (g.live p).toList.map (p, ·) ++ g.passed } else g
  | none => g

/-- An attempt of WireGuard that fails ends its session. -/
def fail (g : Sessions) : Pc → Sessions
  | .wgConnect (.failed _) => g.set .wireguard none
  | _ => g

/-- A step of the call `i`. -/
def onCall (g : Sessions) (i : Nat) (protocol : Protocol) (pc : Pc) (es : List Effect) : Sessions :=
  ((g.pass protocol pc).tellAll i es).fail pc

/-- A report that the session `k` of `p` has stopped. -/
def onStopped (g : Sessions) (p : Protocol) (k : Nat) : Sessions :=
  if g.live p = some k then g.set p none else g

def onCallback (g : Sessions) (k : Nat) : Action → Sessions
  | .updateState _ _ level _ =>
    if VpnState.ofStatus level = .disconnected then g.onStopped .openvpn k else g
  | .ikev2State .disconnected _ _ => g.onStopped .ikev2 k
  | _ => g

def watch (s : App) (l : Label) (es : List Effect) (g : Sessions) : Sessions :=
  match l with
  | .call i _ =>
    match s.calls[i]? with
    | none => g
    | some c => g.onCall i c.protocol c.pc es
  | .pollDown _ => g.set .wireguard none
  | .callback k a => g.onCallback k a
  | .xray k ev _ => if ev.ends then g.onStopped .xray k else g
  | _ => g.tellAll 0 es

end Sessions

/-- The UI process under the monitor. -/
def sessionStep (D : Stores) : App × Sessions → Label → Option (App × Sessions) :=
  observed (App.step D) Sessions.watch

/-- What the points of a call need.
    * the stop of a live OpenVPN session: its binder, or a stop that is remembered already;
    * the assignment of `activeProtocol`: no live session of OpenVPN or IKEv2 that loses it;
    * a start: the engine's guard still its own. -/
def wellTimedCall (s : App) (g : Sessions) (protocol : Protocol) (inp : Input) : Pc → Bool
  | .stopOpenVpn =>
    protocol == .openvpn || (g.live .openvpn).isNone || s.vpn.tunnelService ||
      s.vpn.disconnectPending
  | .setProtocol =>
    (protocol == .openvpn || (g.live .openvpn).isNone || s.vpn.disconnectPending) &&
      (protocol == .ikev2 || (g.live .ikev2).isNone)
  | .ovpnStart => !inp.started || s.vpn.activeProtocol == .openvpn
  | .ikeStart => s.vpn.activeProtocol == .ikev2
  -- a start that throws clears `activeUuid`
  | .xrayStart => if inp.started then s.xrayUuid.isSome else (g.live .xray).isNone
  | _ => true

/-- The steps of a handover in good order. A stop report of Xray clears `activeUuid`, so it must
    not be that of an earlier session. -/
def wellTimed (x : App × Sessions) : Label → Bool
  | .call i inp => x.1.calls[i]?.all fun c => wellTimedCall x.1 x.2 c.protocol inp c.pc
  | .xray k ev _ => !ev.ends || (x.2.live .xray).all (· == k)
  | _ => true

/-! ## 2. What a step does to the sessions -/

namespace Sessions

@[simp] theorem set_live (g : Sessions) (p q : Protocol) (o : Option Nat) :
    (g.set p o).live q = if q = p then o else g.live q := rfl

/-- A session that ends leaves the others as they are. -/
theorem set_none_live (g : Sessions) (p q : Protocol) :
    (g.set p none).live q = g.live q ∨ (g.set p none).live q = none := by
  by_cases hq : q = p
  · exact .inr (if_pos hq)
  · exact .inl (if_neg hq)

@[simp] theorem tellAll_nil (g : Sessions) (i : Nat) : g.tellAll i [] = g := rfl

@[simp] theorem tellAll_router (g : Sessions) (i : Nat) (a : Action) (es : List Effect) :
    g.tellAll i (.router a :: es) = g.tellAll i es := rfl

@[simp] theorem tellAll_bind (g : Sessions) (i : Nat) (es : List Effect) :
    g.tellAll i (.bindTunnelService :: es) = g.tellAll i es := rfl

@[simp] theorem tellAll_start (g : Sessions) (i : Nat) (p : Protocol) (es : List Effect) :
    g.tellAll i (.start p :: es) = (g.set p (some i)).tellAll i es := rfl

@[simp] theorem tellAll_stop (g : Sessions) (i : Nat) (p : Protocol) (es : List Effect) :
    g.tellAll i (.stop p :: es) = (g.set p none).tellAll i es := rfl

theorem tellAll_append (g : Sessions) (i : Nat) (es fs : List Effect) :
    g.tellAll i (es ++ fs) = (g.tellAll i es).tellAll i fs := List.foldl_append

@[simp] theorem tellAll_map (g : Sessions) (i : Nat) (as : List Action) :
    g.tellAll i (as.map .router) = g := by
  induction as with
  | nil => rfl
  | cons a as ih => rw [List.map_cons, tellAll_router, ih]

@[simp] theorem pass_live (g : Sessions) (protocol : Protocol) (pc : Pc) :
    (g.pass protocol pc).live = g.live := by
  unfold pass
  split
  · split <;> rfl
  · rfl

/-- Who is passed: the live session of the engine the point stops. -/
theorem mem_pass {g : Sessions} {protocol p : Protocol} {pc : Pc} {k : Nat}
    (h : (p, k) ∈ (g.pass protocol pc).passed) :
    (p, k) ∈ g.passed ∨ (pc.stops = some p ∧ p ≠ protocol ∧ g.live p = some k) := by
  unfold pass at h
  split at h
  · rename_i q hq
    split at h
    · rename_i hne
      rcases List.mem_append.mp h with h | h
      · obtain ⟨k', hk', he⟩ := List.mem_map.mp h
        injection he with h₁ h₂
        subst h₁ h₂
        exact .inr ⟨hq, hne, Option.mem_toList.mp hk'⟩
      · exact .inl h
    · exact .inl h
  · exact .inl h

end Sessions

/-- No start of an engine follows in the call. -/
def Pc.spent : Pc → Bool
  | .wgConnect pc =>
    match pc with
    | .report _ | .up _ | .failed _ | .publish | .unlock _ | .done _ => true
    | _ => false
  | .returned _ => true
  | _ => false

section CallMoves

variable {D : Stores} {s s' : App} {i : Nat} {uuid : Uuid} {protocol : Protocol} {inp : Input}
  {pc pc' : Pc} {es : List Effect}

/-- The effects of a step inside `WireGuardEngine.connect`, as the monitor sees them. -/
theorem wgStep_onCall (g : Sessions) (w : WireGuardEngine) (i : Nat) (protocol : Protocol)
    (pc : WgPc) (as : List Action) :
    g.onCall i protocol (.wgConnect pc) (App.wgEffects w pc ++ as.map .router) =
      (g.tellAll i (App.wgEffects w pc)).fail (.wgConnect pc) := by
  unfold Sessions.onCall
  rw [Sessions.tellAll_append, Sessions.tellAll_map]
  rfl

theorem ConnectMove.spent {w w' : WireGuardEngine} {inp : WgInput} {pc pc' : WgPc}
    {as : List Action} (h : ConnectMove D w i uuid inp pc w' pc' as)
    (hpc : Pc.spent (.wgConnect pc) = true) : Pc.spent (.wgConnect pc') = true := by
  cases h <;> first | rfl | cases hpc

/-- A call starts its engine once: after the start no further one follows. -/
theorem CallMove.spent (h : CallMove D s i uuid protocol inp pc s' pc' es)
    (hpc : pc.spent = true) : pc'.spent = true := by
  cases h with
  | wgStep pc pc' w as hf hw => exact (connectStep_move hw).spent hpc
  | wgOk | wgError => rfl
  | _ => cases hpc

/-- What a step of a call makes of the sessions: each stays as it is or ends, or it is the one
    this call starts. -/
theorem CallMove.live (h : CallMove D s i uuid protocol inp pc s' pc' es) (g : Sessions)
    (p : Protocol) :
    (g.onCall i protocol pc es).live p = g.live p ∨ (g.onCall i protocol pc es).live p = none ∨
      ((g.onCall i protocol pc es).live p = some i ∧ .start p ∈ es ∧ pc.spent = false ∧
        pc'.spent = true) := by
  cases h with
  | wgStep pc pc' w as hf hw =>
    rw [wgStep_onCall]
    have hmove := connectStep_move hw
    cases hmove with
    | create =>
      by_cases hp : p = .wireguard
      · subst hp
        exact .inr (.inr ⟨rfl, List.mem_cons_self, rfl, rfl⟩)
      · exact .inl (if_neg hp)
    | idle ha =>
      rw [App.wgEffects, if_neg (by simp [ha])]
      exact .inl rfl
    | take t ha =>
      rw [App.wgEffects, if_pos (by simp [ha])]
      by_cases hp : p = .wireguard
      · exact .inr (.inl (if_pos hp))
      · exact .inl (if_neg hp)
    | failed f =>
      by_cases hp : p = .wireguard
      · exact .inr (.inl (if_pos hp))
      · exact .inl (if_neg hp)
    | _ => exact .inl rfl
  | ovpnStarted | xrayStarted | ikeStart =>
    simp only [Sessions.onCall, Sessions.tellAll_start, Sessions.tellAll_nil, Sessions.fail,
      Sessions.set_live, Sessions.pass_live]
    split
    · rename_i hp
      subst hp
      exact .inr (.inr ⟨rfl, List.mem_cons_self, rfl, rfl⟩)
    · exact .inl rfl
  | ovpnStop | wgStop | ikeStop | xrayStop =>
    simp only [Sessions.onCall, Sessions.tellAll_stop, Sessions.tellAll_nil, Sessions.fail,
      Sessions.set_live, Sessions.pass_live]
    split
    · exact .inr (.inl rfl)
    · exact .inl rfl
  | _ =>
    refine .inl ?_
    simp only [Sessions.onCall, XrayEvent.actions, List.map_cons, List.map_nil,
      Sessions.tellAll_router, Sessions.tellAll_bind, Sessions.tellAll_nil, Sessions.fail,
      Sessions.pass_live]

/-- A step that starts nothing leaves no more sessions live than there were. -/
theorem CallMove.fewer (h : CallMove D s i uuid protocol inp pc s' pc' es) (g : Sessions)
    (hes : ∀ p, .start p ∉ es) (p : Protocol) (hp : (g.onCall i protocol pc es).live p ≠ none) :
    g.live p ≠ none := by
  rcases h.live g p with hl | hl | ⟨-, hs, -⟩
  · rw [← hl]
    exact hp
  · exact absurd hl hp
  · exact absurd hs (hes p)

end CallMoves

/-! ## 3. The guards -/

/-- A live session of an engine makes the guard of its stop true. -/
structure Guarded (s : App) (g : Sessions) : Prop where
  openvpn : g.live .openvpn ≠ none →
    s.vpn.activeProtocol = .openvpn ∨ s.vpn.disconnectPending = true
  wireguard : g.live .wireguard ≠ none → s.wg.active ≠ none
  ikev2 : g.live .ikev2 ≠ none → s.vpn.activeProtocol = .ikev2
  xray : g.live .xray ≠ none → s.xrayUuid ≠ none

/-- A step that starts nothing and takes no guard away. -/
theorem Guarded.fewer {s r : App} {es : List Effect} {g g' : Sessions} (G : Guarded s g)
    (hlink : VpnEngine.SameLink s.vpn (r.apply es).vpn)
    (hlive : ∀ p, g'.live p ≠ none → g.live p ≠ none)
    (hwg : g'.live .wireguard ≠ none → s.wg.active ≠ none → r.wg.active ≠ none)
    (hxray : g'.live .xray ≠ none → s.xrayUuid ≠ none → r.xrayUuid ≠ none) :
    Guarded (r.apply es) g' where
  openvpn hl := by
    rw [hlink.activeProtocol, hlink.disconnectPending]
    exact G.openvpn (hlive _ hl)
  wireguard hl := hwg hl (G.wireguard (hlive _ hl))
  ikev2 hl := by
    rw [hlink.activeProtocol]
    exact G.ikev2 (hlive _ hl)
  xray hl := hxray hl (G.xray (hlive _ hl))

theorem links_of_engine {as : List Action} {p : Protocol} (h : ∀ a ∈ as, a.engine = some p) :
    ∀ a ∈ as, a.links = false := by
  intro a ha
  have he := h a ha
  cases a with
  | setProtocol | setTunnelService | setDisconnectPending => cases he
  | _ => rfl

section CallMoves

variable {D : Stores} {s s' : App} {i : Nat} {uuid : Uuid} {protocol : Protocol} {inp : Input}
  {pc pc' : Pc} {es : List Effect} {g : Sessions}

/-- Of the steps of a call only `setProtocol` moves the owner of the tunnel; none moves the binder
    or `disconnectPending`. -/
theorem CallMove.sameLink (h : CallMove D s i uuid protocol inp pc s' pc' es)
    (hpc : pc ≠ .setProtocol) : VpnEngine.SameLink s.vpn (s'.apply es).vpn := by
  have hvpn : (s'.apply es).vpn = s.vpn.performAll (accesses es) := by rw [← h.vpn_eq]; rfl
  rw [hvpn]
  refine VpnEngine.performAll_sameLink _ ?_
  cases h with
  | protocol => exact absurd rfl hpc
  | wgStep pc pc' w as hf hw =>
    simp only [accesses_append, accesses_wgEffects, accesses_map, List.nil_append]
    exact links_of_engine (connectStep_move hw).engine
  | _ => simp [XrayEvent.actions, Action.links]

theorem CallMove.disconnectPending (h : CallMove D s i uuid protocol inp pc s' pc' es) :
    (s'.apply es).vpn.disconnectPending = s.vpn.disconnectPending := by
  by_cases hpc : pc = .setProtocol
  · subst hpc
    cases h
    rfl
  · exact (h.sameLink hpc).disconnectPending

/-- Inside `WireGuardEngine.connect`: the tunnel is in `active` from its creation until it is taken
    out to be stopped or has failed. -/
theorem ConnectMove.active {w : WireGuardEngine} {pc pc' : WgPc} {as : List Action}
    (h : ConnectMove D s.wg i uuid inp.toWgInput pc w pc' as) (g : Sessions)
    (hg : g.live .wireguard ≠ none → s.wg.active ≠ none)
    (hl : ((g.tellAll i (App.wgEffects s.wg pc)).fail (.wgConnect pc)).live .wireguard ≠ none) :
    w.active ≠ none := by
  cases h with
  | create => exact Option.some_ne_none _
  | idle ha =>
    rw [App.wgEffects, if_neg (by simp [ha])] at hl
    exact hg hl
  | take t ha =>
    rw [App.wgEffects, if_pos (by simp [ha])] at hl
    exact absurd rfl hl
  | failed f => exact absurd rfl hl
  | _ => exact hg hl

/-- A step of a call in good order keeps the guards. -/
theorem CallMove.guarded (h : CallMove D s i uuid protocol inp pc s' pc' es) (G : Guarded s g)
    (hw : wellTimedCall s g protocol inp pc = true) :
    Guarded (s'.apply es) (g.onCall i protocol pc es) := by
  have hlink := h.sameLink
  have hfewer := h.fewer g
  have hstart := h.live g
  cases h with
  | protocol =>
    simp only [wellTimedCall, Bool.and_eq_true, Bool.or_eq_true, beq_iff_eq,
      Option.isNone_iff_eq_none] at hw
    obtain ⟨hov, hike⟩ := hw
    refine ⟨fun hl => ?_, G.wireguard, fun hl => ?_, G.xray⟩
    · rcases hov with (hp | hn) | hf
      · exact .inl hp
      · exact absurd hn hl
      · exact .inr hf
    · exact hike.resolve_right hl
  | wgStep pc pc' w as hf hcs =>
    have hmove := connectStep_move hcs
    have hlive : ∀ p, p ≠ .wireguard →
        (g.onCall i protocol (.wgConnect pc) (App.wgEffects s.wg pc ++ as.map .router)).live p ≠
          none → g.live p ≠ none := by
      intro p hp hl
      rcases hstart p with he | he | ⟨-, hs, -⟩
      · rw [← he]
        exact hl
      · exact absurd he hl
      · rcases List.mem_append.mp hs with hs | hs
        · rcases mem_wgEffects hs with he | he
          · cases he
          · injection he with he
            exact absurd he hp
        · obtain ⟨a, -, ha⟩ := List.mem_map.mp hs
          cases ha
    have hlink := hlink nofun
    refine ⟨fun hl => ?_, fun hl => ?_, fun hl => ?_, fun hl => ?_⟩
    · rw [hlink.activeProtocol, hlink.disconnectPending]
      exact G.openvpn (hlive _ nofun hl)
    · rw [wgStep_onCall] at hl
      exact hmove.active g G.wireguard hl
    · rw [hlink.activeProtocol]
      exact G.ikev2 (hlive _ nofun hl)
    · exact G.xray (hlive _ nofun hl)
  | ovpnStarted hs =>
    simp only [wellTimedCall, hs, Bool.not_true, Bool.false_or, beq_iff_eq] at hw
    exact ⟨fun _ => .inl hw, G.wireguard, G.ikev2, G.xray⟩
  | ikeStart =>
    simp only [wellTimedCall, beq_iff_eq] at hw
    exact ⟨G.openvpn, G.wireguard, fun _ => hw, G.xray⟩
  | xrayStarted hs =>
    simp only [wellTimedCall, hs, if_true] at hw
    exact ⟨G.openvpn, G.wireguard, G.ikev2, fun _ => Option.isSome_iff_ne_none.mp hw⟩
  | xrayThrew hs =>
    simp only [wellTimedCall, hs, Bool.false_eq_true, if_false, Option.isNone_iff_eq_none] at hw
    exact G.fewer (hlink nofun) (fun p hp => hp) (fun _ hx => hx) fun hl => absurd hw hl
  | wgStop t hp ha =>
    exact G.fewer (hlink nofun) (hfewer (by simp)) (fun hl => absurd rfl hl) fun _ hx => hx
  | xrayStop hp ha =>
    exact G.fewer (hlink nofun) (hfewer (by simp)) (fun _ hx => hx) fun hl => absurd rfl hl
  | xrayActive =>
    exact G.fewer (hlink nofun) (hfewer (by simp)) (fun _ hx => hx) fun _ _ => Option.some_ne_none _
  | _ => exact G.fewer (hlink nofun) (hfewer (by simp)) (fun _ hx => hx) fun _ hx => hx

/-- At the stop of an engine, a live session is told to stop unless that is remembered already. -/
theorem CallMove.told (h : CallMove D s i uuid protocol inp pc s' pc' es) (G : Guarded s g)
    (hw : wellTimedCall s g protocol inp pc = true) {p : Protocol} (hs : pc.stops = some p)
    (hp : p ≠ protocol) (hl : g.live p ≠ none) :
    (g.onCall i protocol pc es).live p = none ∨
      (p = .openvpn ∧ s.vpn.disconnectPending = true) := by
  cases h with
  | ovpnStop | wgStop | ikeStop | xrayStop =>
    obtain rfl := Option.some.inj hs
    exact .inl rfl
  | ovpnSkip hskip =>
    obtain rfl := Option.some.inj hs
    simp only [wellTimedCall, Bool.or_eq_true, beq_iff_eq, Option.isNone_iff_eq_none] at hw
    rcases G.openvpn hl with ha | hf
    · rcases hw with ((hq | hn) | hb) | hf
      · exact absurd hq.symm hp
      · exact absurd hn hl
      · exact absurd ⟨hp.symm, ha, hb⟩ hskip
      · exact .inr ⟨rfl, hf⟩
    · exact .inr ⟨rfl, hf⟩
  | wgIdle hq ha =>
    obtain rfl := Option.some.inj hs
    exact absurd ha (G.wireguard hl)
  | wgSkip hq =>
    obtain rfl := Option.some.inj hs
    exact absurd hq.symm hp
  | ikeSkip hskip =>
    obtain rfl := Option.some.inj hs
    exact absurd ⟨hp.symm, G.ikev2 hl⟩ hskip
  | xraySkip hskip =>
    obtain rfl := Option.some.inj hs
    exact absurd ⟨hp.symm, G.xray hl⟩ hskip
  | protocol => cases hs
  | _ => cases hs

end CallMoves

/-! ## 4. The invariant -/

structure Handed (s : App) (g : Sessions) : Prop where
  guarded : Guarded s g
  /-- a session is the only one of its call -/
  once : ∀ p k, g.live p = some k ∨ (p, k) ∈ g.passed →
    ∃ c, s.calls[k]? = some c ∧ c.pc.spent = true
  handed : ∀ p k, (p, k) ∈ g.passed → g.live p = some k →
    p = .openvpn ∧ s.vpn.disconnectPending = true

theorem handed_init : Handed {} {} where
  guarded := ⟨fun h => absurd rfl h, fun h => absurd rfl h, fun h => absurd rfl h,
    fun h => absurd rfl h⟩
  once p k h := by simp at h
  handed p k h := by simp at h

section Steps

variable {D : Stores} {s s' : App} {g g' : Sessions} {es : List Effect}

/-- A step that starts no session and passes none. -/
theorem Handed.rest (I : Handed s g) (hG : Guarded s' g') (hpassed : g'.passed = g.passed)
    (hcalls : ∀ (k : Nat) (c : Call), s.calls[k]? = some c → s'.calls[k]? = some c)
    (hlive : ∀ p, g'.live p = g.live p ∨ g'.live p = none)
    (hflag : g'.live .openvpn ≠ none → s.vpn.disconnectPending = true →
      s'.vpn.disconnectPending = true) : Handed s' g' := by
  have hold : ∀ {p k}, g'.live p = some k → g.live p = some k := by
    intro p k hk
    rcases hlive p with he | he
    · rw [← he]
      exact hk
    · rw [he] at hk
      cases hk
  refine ⟨hG, fun p k hk => ?_, fun p k hk hl => ?_⟩
  · rw [hpassed] at hk
    obtain ⟨c, hc, hs⟩ := I.once p k (hk.imp_left hold)
    exact ⟨c, hcalls k c hc, hs⟩
  · rw [hpassed] at hk
    obtain ⟨rfl, hf⟩ := I.handed p k hk (hold hl)
    exact ⟨rfl, hflag (by rw [hl]; exact Option.some_ne_none k) hf⟩

theorem Sessions.tellAll_passed (g : Sessions) (i : Nat) (es : List Effect) :
    (g.tellAll i es).passed = g.passed := by
  induction es generalizing g with
  | nil => rfl
  | cons e es ih =>
    refine (ih (g.tell i e)).trans ?_
    cases e <;> rfl

theorem Sessions.onCall_passed (g : Sessions) (i : Nat) (protocol : Protocol) (pc : Pc)
    (es : List Effect) : (g.onCall i protocol pc es).passed = (g.pass protocol pc).passed := by
  rw [← tellAll_passed (g.pass protocol pc) i es]
  unfold onCall fail
  split <;> rfl

/-- A step of a call in good order. -/
theorem handed_call {i : Nat} {inp : Input} (I : Handed s g)
    (hw : wellTimed (s, g) (.call i inp) = true) (h : s.step D (.call i inp) = some (s', es)) :
    Handed s' (Sessions.watch s (.call i inp) es g) := by
  obtain ⟨_, hc, rfl, -⟩ := step_control h
  obtain ⟨c, r, pc, hi, hmove, rfl⟩ := control_call hc
  have hwc : wellTimedCall s g c.protocol inp c.pc = true := by
    simpa only [wellTimed, hi, Option.all_some] using hw
  have hwatch : Sessions.watch s (.call i inp) es g = g.onCall i c.protocol c.pc es := by
    simp only [Sessions.watch, hi]
  rw [hwatch]
  have hG := hmove.guarded I.guarded hwc
  have hlt : i < s.calls.length := (List.getElem?_eq_some_iff.mp hi).1
  have hself : (s.calls.set i { c with pc := pc })[i]? = some { c with pc := pc } :=
    List.getElem?_set_self hlt
  -- the calls that have made their start
  have hspent : ∀ (k : Nat) (c' : Call), s.calls[k]? = some c' → c'.pc.spent = true →
      ∃ c', (s.calls.set i { c with pc := pc })[k]? = some c' ∧ c'.pc.spent = true := by
    intro k c' hk hs
    by_cases hik : i = k
    · subst hik
      obtain rfl := Option.some.inj (hi.symm.trans hk)
      exact ⟨_, hself, hmove.spent hs⟩
    · exact ⟨c', by rw [List.getElem?_set_ne hik]; exact hk, hs⟩
  -- a session that is live now was live before, or it is the one this call has just started
  have hlive : ∀ p k, (g.onCall i c.protocol c.pc es).live p = some k →
      g.live p = some k ∨ (k = i ∧ c.pc.spent = false ∧ pc.spent = true) := by
    intro p k hk
    rcases hmove.live g p with he | he | ⟨he, -, hs⟩
    · exact .inl (he ▸ hk)
    · rw [he] at hk
      cases hk
    · rw [he] at hk
      exact .inr ⟨(Option.some.inj hk).symm, hs⟩
  refine ⟨⟨hG.openvpn, hG.wireguard, hG.ikev2, hG.xray⟩, fun p k hk => ?_, fun p k hk hl => ?_⟩
  · rw [Sessions.onCall_passed] at hk
    have hold : g.live p = some k ∨ (p, k) ∈ g.passed ∨ (k = i ∧ pc.spent = true) := by
      rcases hk with hk | hk
      · exact (hlive p k hk).imp_right fun hs => .inr ⟨hs.1, hs.2.2⟩
      · rcases Sessions.mem_pass hk with hk | ⟨-, -, hk⟩
        · exact .inr (.inl hk)
        · exact .inl hk
    rcases hold with hk | hk | ⟨rfl, hs⟩
    · obtain ⟨c', hc', hs⟩ := I.once p k (.inl hk)
      exact hspent k c' hc' hs
    · obtain ⟨c', hc', hs⟩ := I.once p k (.inr hk)
      exact hspent k c' hc' hs
    · exact ⟨_, hself, hs⟩
  · have hflag : s.vpn.disconnectPending = true →
        (r.apply es).vpn.disconnectPending = true := fun hf => hmove.disconnectPending.trans hf
    rw [Sessions.onCall_passed] at hk
    rcases hlive p k hl with hold | ⟨rfl, hns, -⟩
    · rcases Sessions.mem_pass hk with hk | ⟨hstop, hp, -⟩
      · obtain ⟨hp, hf⟩ := I.handed p k hk hold
        exact ⟨hp, hflag hf⟩
      · have hne : g.live p ≠ none := by rw [hold]; exact Option.some_ne_none k
        rcases hmove.told I.guarded hwc hstop hp hne with hn | ⟨hp, hf⟩
        · rw [hn] at hl
          cases hl
        · exact ⟨hp, hflag hf⟩
    -- a session that starts now was not passed before
    · have hs : ∃ c', s.calls[k]? = some c' ∧ c'.pc.spent = true := by
        rcases Sessions.mem_pass hk with hk | ⟨-, -, hk⟩
        · exact I.once p k (.inr hk)
        · exact I.once p k (.inl hk)
      obtain ⟨c', hc', hs⟩ := hs
      obtain rfl := Option.some.inj (hi.symm.trans hc')
      rw [hns] at hs
      cases hs

/-- `disconnect`. -/
theorem handed_disconnect {now : Int} (I : Handed s g)
    (h : s.step D (.disconnect now) = some (s', es)) : Handed s' (g.tellAll 0 es) := by
  have G := I.guarded
  obtain ⟨r, hc, rfl, -⟩ := step_control h
  have htap : s.tap now = (r, es) := Option.some.inj hc
  unfold App.tap App.stopActive at htap
  cases hp : s.vpn.activeProtocol with
  | openvpn =>
    simp only [hp] at htap
    split at htap
    · obtain ⟨rfl, rfl⟩ := htap
      exact I.rest ⟨fun hl => absurd rfl hl, G.wireguard, G.ikev2, G.xray⟩ rfl
        (fun k c hk => hk) (Sessions.set_none_live g .openvpn) fun _ hf => hf
    · obtain ⟨rfl, rfl⟩ := htap
      exact I.rest ⟨fun _ => .inr rfl, G.wireguard, G.ikev2, G.xray⟩ rfl (fun k c hk => hk)
        (fun p => .inl rfl) fun _ _ => rfl
  | wireguard =>
    simp only [hp] at htap
    obtain ⟨rfl, rfl⟩ := htap
    have hlink : VpnEngine.SameLink s.vpn
        (s.vpn.performAll [.setPending none, .onState .wireguard .disconnected none now]) :=
      VpnEngine.performAll_sameLink _ (by simp [Action.links])
    cases ha : s.wg.active with
    | none =>
      rw [if_neg (by simp)]
      refine I.rest (G.fewer hlink (fun p hl => hl) (fun hl => ?_) fun _ hx => hx) rfl
        (fun k c hk => hk) (fun p => .inl rfl) fun _ hf => hlink.disconnectPending.trans hf
      exact absurd ha (G.wireguard hl)
    | some t =>
      rw [if_pos (by simp)]
      have hlive := Sessions.set_none_live g .wireguard
      refine I.rest (G.fewer hlink (fun p hl => ?_) (fun hl => absurd rfl hl) fun _ hx => hx) rfl
        (fun k c hk => hk) hlive fun _ hf => hlink.disconnectPending.trans hf
      rw [← (hlive p).resolve_right hl]
      exact hl
  | xray =>
    simp only [hp] at htap
    obtain ⟨rfl, rfl⟩ := htap
    exact I.rest ⟨G.openvpn, G.wireguard, G.ikev2, fun hl => absurd rfl hl⟩ rfl
      (fun k c hk => hk) (Sessions.set_none_live g .xray) fun _ hf => hf
  | ikev2 =>
    simp only [hp] at htap
    obtain ⟨rfl, rfl⟩ := htap
    exact I.rest ⟨G.openvpn, G.wireguard, fun hl => absurd rfl hl, G.xray⟩ rfl
      (fun k c hk => hk) (Sessions.set_none_live g .ikev2) fun _ hf => hf

/-- A report changes the sessions and accesses the router through its gate. -/
theorem Handed.report {r : App} (I : Handed s g) (as : List Action)
    (hr : r.vpn = s.vpn ∧ r.calls = s.calls) (has : ∀ a ∈ as, a.links = false)
    (hpassed : g'.passed = g.passed) (hlive : ∀ p, g'.live p = g.live p ∨ g'.live p = none)
    (hwg : g'.live .wireguard ≠ none → s.wg.active ≠ none → r.wg.active ≠ none)
    (hxray : g'.live .xray ≠ none → s.xrayUuid ≠ none → r.xrayUuid ≠ none) :
    Handed (r.apply (as.map .router)) g' := by
  have hlink : VpnEngine.SameLink s.vpn (r.apply (as.map .router)).vpn := by
    have hvpn : (r.apply (as.map .router)).vpn = s.vpn.performAll as := by
      show r.vpn.performAll (accesses (as.map .router)) = _
      rw [accesses_map, hr.1]
    rw [hvpn]
    exact VpnEngine.performAll_sameLink _ has
  have hcalls : (r.apply (as.map .router)).calls = s.calls := hr.2
  refine I.rest (I.guarded.fewer hlink (fun p hl => ?_) hwg hxray) hpassed
    (fun k c hk => by rw [hcalls]; exact hk) hlive fun _ hf => hlink.disconnectPending.trans hf
  rw [← (hlive p).resolve_right hl]
  exact hl

theorem Sessions.onStopped_live (g : Sessions) (q : Protocol) (k : Nat) :
    (g.onStopped q k).passed = g.passed ∧
      ∀ p, (g.onStopped q k).live p = g.live p ∨ (g.onStopped q k).live p = none := by
  unfold onStopped
  split
  · exact ⟨rfl, set_none_live g q⟩
  · exact ⟨rfl, fun p => .inl rfl⟩

theorem Sessions.onCallback_live (g : Sessions) (k : Nat) (a : Action) :
    (g.onCallback k a).passed = g.passed ∧
      ∀ p, (g.onCallback k a).live p = g.live p ∨ (g.onCallback k a).live p = none := by
  have hsame : g.passed = g.passed ∧ ∀ p, g.live p = g.live p ∨ g.live p = none :=
    ⟨rfl, fun p => .inl rfl⟩
  unfold onCallback
  split
  · split
    · exact g.onStopped_live .openvpn k
    · exact hsame
  · exact g.onStopped_live .ikev2 k
  · exact hsame

/-- A step in good order hands every session over. -/
theorem handed_step {D : Stores} (x : App × Sessions) (l : Label) (x' : App × Sessions)
    (I : Handed x.1 x.2) (hl : wellTimed x l = true) (h : sessionStep D x l = some x') :
    Handed x'.1 x'.2 := by
  obtain ⟨s, g⟩ := x
  obtain ⟨s', g'⟩ := x'
  obtain ⟨es, hs, hg⟩ := observed_some h
  dsimp only at I hs hg ⊢
  subst hg
  have G := I.guarded
  obtain ⟨r, hc, hr, -⟩ := step_control hs
  cases l with
  | connect uuid =>
    obtain ⟨rfl, rfl⟩ := hc
    subst hr
    refine I.rest ⟨G.openvpn, G.wireguard, G.ikev2, G.xray⟩ rfl (fun k c hk => ?_)
      (fun p => .inl rfl) fun _ hf => hf
    exact (List.getElem?_append_left (List.getElem?_eq_some_iff.mp hk).1).trans hk
  | disconnect now => exact handed_disconnect I hs
  | call i inp => exact handed_call I hl hs
  | job j inp =>
    obtain ⟨w, as, hj, rfl, rfl⟩ := control_job hc
    subst hr
    show Handed _ (g.tellAll 0 (as.map .router))
    rw [Sessions.tellAll_map]
    refine I.report as ⟨rfl, rfl⟩ (links_of_engine hj.engine) rfl (fun p => .inl rfl)
      (fun _ ha => ?_) fun _ hx => hx
    cases hj <;> exact ha
  | onDestroy now =>
    obtain ⟨rfl, rfl⟩ := hc
    subst hr
    show Handed _ (g.tellAll 0 ((s.wg.onDestroy now).2.map .router))
    rw [Sessions.tellAll_map]
    refine I.report _ ⟨rfl, rfl⟩ (links_of_engine (WireGuardEngine.deliver_engine _ _ _)) rfl
      (fun p => .inl rfl) (fun _ ha => ?_) fun _ hx => hx
    rcases onDestroy_cases s.wg now with ⟨-, hd⟩ | ⟨-, hd⟩
    · rw [hd]
      exact ha
    · rw [hd]
      exact ha
  | pollDown now =>
    obtain ⟨t, -, -, rfl, rfl⟩ := control_pollDown hc
    subst hr
    exact I.report [.onLog .wireguard "WireGuard tunnel went down" now,
        .onState .wireguard .disconnected none now] ⟨rfl, rfl⟩ (by simp [Action.links]) rfl
      (Sessions.set_none_live g .wireguard) (fun hl => absurd rfl hl) fun _ hx => hx
  | callback k a =>
    simp only [App.control] at hc
    split at hc
    · rename_i hd
      obtain ⟨rfl, rfl⟩ := hc
      subst hr
      obtain ⟨hpassed, hlive⟩ := g.onCallback_live k a
      have hlinks : ∀ a' ∈ [a], a'.links = false := by
        intro a' ha'
        obtain rfl := List.mem_singleton.mp ha'
        cases a' with
        | setProtocol | setTunnelService | setDisconnectPending => cases hd
        | _ => rfl
      exact I.report [a] ⟨rfl, rfl⟩ hlinks hpassed hlive (fun _ ha => ha) fun _ hx => hx
    · cases hc
  | xray k ev now =>
    obtain ⟨rfl, rfl⟩ := hc
    subst hr
    have hlinks : ∀ a ∈ ev.actions now, a.links = false := by
      cases ev <;> simp [XrayEvent.actions, Action.links]
    cases he : ev.ends with
    | false =>
      have hw : Sessions.watch s (.xray k ev now) ((ev.actions now).map .router) g = g := by
        simp [Sessions.watch, he]
      rw [hw]
      exact I.report _ ⟨rfl, rfl⟩ hlinks rfl (fun p => .inl rfl) (fun _ ha => ha) fun _ hx => hx
    | true =>
      -- the report is that of the session that is live, if there is one
      have hlive : (g.onStopped .xray k).live .xray = none := by
        simp only [wellTimed, he, Bool.not_true, Bool.false_or] at hl
        unfold Sessions.onStopped
        cases hx : g.live .xray with
        | none =>
          rw [if_neg (by simp)]
          exact hx
        | some j =>
          rw [hx, Option.all_some, beq_iff_eq] at hl
          rw [if_pos (by rw [hl])]
          rfl
      have hw : Sessions.watch s (.xray k ev now) ((ev.actions now).map .router) g =
          g.onStopped .xray k := by
        simp [Sessions.watch, he]
      rw [hw]
      obtain ⟨hpassed, hless⟩ := g.onStopped_live .xray k
      exact I.report _ ⟨rfl, rfl⟩ hlinks hpassed hless (fun _ ha => ha) fun hne =>
        absurd hlive hne
  | serviceConnected =>
    have hes : s.onServiceConnected = (r, es) := Option.some.inj hc
    unfold App.onServiceConnected at hes
    split at hes
    · obtain ⟨rfl, rfl⟩ := hes
      subst hr
      exact I.rest ⟨fun hl => absurd rfl hl, G.wireguard, G.ikev2, G.xray⟩ rfl (fun k c hk => hk)
        (Sessions.set_none_live g .openvpn) fun hl => absurd rfl hl
    · obtain ⟨rfl, rfl⟩ := hes
      subst hr
      exact I.rest ⟨G.openvpn, G.wireguard, G.ikev2, G.xray⟩ rfl (fun k c hk => hk)
        (fun p => .inl rfl) fun _ hf => hf
  | serviceDisconnected =>
    obtain ⟨rfl, rfl⟩ := hc
    subst hr
    exact I.rest ⟨G.openvpn, G.wireguard, G.ikev2, G.xray⟩ rfl (fun k c hk => hk)
      (fun p => .inl rfl) fun _ hf => hf
  | stopVpn k =>
    simp only [App.control] at hc
    split at hc
    · obtain ⟨rfl, rfl⟩ := hc
      subst hr
      exact I.rest ⟨G.openvpn, G.wireguard, G.ikev2, G.xray⟩ rfl (fun k c hk => hk)
        (fun p => .inl rfl) fun _ hf => hf
    · cases hc

end Steps

/-- OpenVPN comes up and its binder arrives; then a WireGuard profile is connected. -/
def bound : List Label :=
  [Label.connect "ovpn1"] ++ List.replicate 10 (Label.call 0 {}) ++
    [Label.serviceConnected, .connect "wg1"] ++ List.replicate 16 (Label.call 1 { now := 1000 })

end SwiftVpn
