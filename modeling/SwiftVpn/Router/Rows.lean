/-
  File:      SwiftVpn/Router/Rows.lean
  Subject:   ONE ROW AT A TIME: after a `connect` has made its assignments, no other row shows its
             attempt.

  A row shows something other than DISCONNECTED only through `connectedUuid` or `pendingUuid`, so
  the matter is which uuids these hold. `Owned u` says: none but `u`. Accesses that assign no uuid
  keep it (`VpnEngine.perform_shrinks`); what is left are the assigning ones.

  * `Action.stops` -- the report by which the engine that owns the tunnel is DISCONNECTED: it clears
    both uuids. WireGuard's `disconnectBlocking` makes it before it returns; of OpenVPN, IKEv2 and Xray
    it comes from outside, or too late for the gate;
  * `cleared` (the monitor of `rowsStep`) -- the state before the most recent connect associated no other
    profile, or a stop has been reported since, and no other profile has been named after that;
  * `orderly` -- a connect makes its last assignment when that is so and no connect on another profile is
    still to assign, and OpenVPN names no other profile afterwards;
  * `rows_exclusive` -- along such steps every other row is DISCONNECTED;
  * `rows_stale` -- the switch from a live OpenVPN profile to a WireGuard one, whose stop is not
    reported in time: nothing clears `connectedUuid`, and the old row shows the new attempt.
-/
import SwiftVpn.Router.App

namespace SwiftVpn

open Machine

/-! ## 1. Whose association -/

/-- The points at which a call assigns its uuid. -/
def Pc.claims : Pc → Bool
  | .setPending | .xrayConnected | .ikeConnected | .wgConnect (.done none) => true
  | _ => false

/-- The points from which a call assigns its uuid no more. -/
def Pc.settled : Pc → Bool
  | .ovpnProfile | .ovpnBind | .ovpnStart | .ovpnFailed | .wgConnect (.done (some _)) | .xrayActive
  | .xrayState | .xrayStart | .ikeRefused | .ikeUnknown | .ikeInstall | .ikeStart | .returned _ => true
  | _ => false

/-- The router associates no profile but `u`. -/
def Owned (u : Uuid) (e : VpnEngine) : Prop :=
  (e.connectedUuid = none ∨ e.connectedUuid = some u) ∧
    (e.pendingUuid = none ∨ e.pendingUuid = some u)

instance (u : Uuid) (e : VpnEngine) : Decidable (Owned u e) := inferInstanceAs (Decidable (_ ∧ _))

theorem stateFor_of_owned {u v : Uuid} {e : VpnEngine} (h : Owned u e) (hv : v ≠ u) :
    e.stateFor v = .disconnected := by
  have hne : ∀ o : Option Uuid, (o = none ∨ o = some u) → o ≠ some v := by
    rintro o (rfl | rfl) ho
    · cases ho
    · exact hv (Option.some.inj ho).symm
  unfold VpnEngine.stateFor
  rw [if_neg (hne _ h.1), if_neg (hne _ h.2)]

theorem Owned.shrinks {u : Uuid} {e e' : VpnEngine} (h : Owned u e) (hs : VpnEngine.Shrinks e e') :
    Owned u e' := by
  refine ⟨?_, ?_⟩
  · rcases hs.connected with hc | hc
    · rw [hc]
      exact h.1
    · exact Or.inl hc
  · rcases hs.pending with hp | hp
    · rw [hp]
      exact h.2
    · exact Or.inl hp

/-- An OpenVPN report of `u` itself keeps the association. -/
theorem Owned.setConnectedVPN {u : Uuid} {e : VpnEngine} (h : Owned u e) :
    Owned u (e.perform (.setConnectedVPN (some u))) := by
  unfold VpnEngine.perform VpnEngine.gated
  dsimp only
  split
  · exact ⟨Or.inr rfl, Or.inl rfl⟩
  · exact h

theorem assigns_of_engine {a : Action} {p : Protocol} (h : a.engine = some p) (hp : p ≠ .openvpn) :
    a.assigns = false := by
  cases a with
  | setConnectedVPN uuid =>
    simp only [Action.engine, Option.some.injEq] at h
    exact absurd h.symm hp
  | setPending uuid => cases h
  | setConnected uuid => cases h
  | _ => rfl

/-- The report, behind its gate, that the engine which owns the tunnel is DISCONNECTED. -/
def Action.stops (e : VpnEngine) : Action → Bool
  | .updateState _ _ level _ => e.activeProtocol = .openvpn && VpnState.ofStatus level = .disconnected
  | .onState p .disconnected _ _ => e.activeProtocol = p
  | .ikev2State .disconnected none _ => e.activeProtocol = .ikev2
  | _ => false

/-- The accesses report a stop. -/
def reportsStop : VpnEngine → List Action → Bool
  | _, [] => false
  | e, a :: as => a.stops e || reportsStop (e.perform a) as

/-- The access associates another profile than `u`, where it passes its gate. -/
def Action.namesOther (u : Uuid) (e : VpnEngine) : Action → Bool
  | .setPending (some w) | .setConnected (some w) => w ≠ u
  | .setConnectedVPN (some w) => e.activeProtocol = .openvpn && w ≠ u
  | _ => false

/-- **The report of a stop clears the association**, whichever engine makes it. -/
theorem perform_stops {e : VpnEngine} {a : Action} (h : a.stops e = true) :
    (e.perform a).connectedUuid = none ∧ (e.perform a).pendingUuid = none := by
  cases a with
  | updateState state logmessage level now =>
    simp only [Action.stops, Bool.and_eq_true, decide_eq_true_eq] at h
    simp [VpnEngine.perform, VpnEngine.gated, h.1, h.2]
  | onState p state message now =>
    cases state with
    | disconnected =>
      simp only [Action.stops, decide_eq_true_eq] at h
      simp [VpnEngine.perform, VpnEngine.gated, h]
    | _ => cases h
  | ikev2State state error now =>
    cases state with
    | disconnected =>
      cases error with
      | none =>
        simp only [Action.stops, decide_eq_true_eq] at h
        simp [VpnEngine.perform, VpnEngine.gated, VpnEngine.ikev2OnState, h]
      | some m => cases h
    | _ => cases h
  | _ => cases h

theorem performAll_stops {e : VpnEngine} {as : List Action} (h : reportsStop e as = true)
    (ha : ∀ a ∈ as, a.assigns = false) :
    (e.performAll as).connectedUuid = none ∧ (e.performAll as).pendingUuid = none := by
  induction as generalizing e with
  | nil => cases h
  | cons a as ih =>
    have hrest : ∀ b ∈ as, b.assigns = false := fun b hb => ha b (List.mem_cons_of_mem a hb)
    rw [reportsStop, Bool.or_eq_true] at h
    rw [VpnEngine.performAll_cons]
    rcases h with h | h
    · have hs := VpnEngine.performAll_shrinks (e.perform a) hrest
      obtain ⟨hc, hp⟩ := perform_stops h
      exact ⟨hs.connected.elim (·.trans hc) id, hs.pending.elim (·.trans hp) id⟩
    · exact ih h hrest

/-- A step that assigns nothing keeps the association of `u`, and makes it so by the report of a stop. -/
theorem Owned.quiet {u : Uuid} {e : VpnEngine} {as : List Action} (ha : ∀ a ∈ as, a.assigns = false)
    (h : reportsStop e as = false → Owned u e) : Owned u (e.performAll as) := by
  cases hs : reportsStop e as with
  | true =>
    obtain ⟨hc, hp⟩ := performAll_stops hs ha
    exact ⟨Or.inl hc, Or.inl hp⟩
  | false => exact (h hs).shrinks (VpnEngine.performAll_shrinks e ha)

/-! ## 2. Which steps assign -/

/-- A step of a call assigns nothing, or its own uuid at one of its claiming points. -/
theorem CallMove.assigns {D : Stores} {s s' : App} {i : Nat} {uuid : Uuid} {protocol : Protocol}
    {inp : Input} {pc pc' : Pc} {es : List Effect}
    (h : CallMove D s i uuid protocol inp pc s' pc' es) :
    (∀ a ∈ accesses es, a.assigns = false) ∨
      (pc.claims = true ∧ (accesses es = [.setPending (some uuid)] ∨
        accesses es = [.setConnected (some uuid)])) := by
  cases h with
  | pending => exact Or.inr ⟨rfl, Or.inl rfl⟩
  | wgOk | xrayConnected | ikeConnected => exact Or.inr ⟨rfl, Or.inr rfl⟩
  | wgStep pc pc' w as hf hw =>
    refine Or.inl fun a ha => ?_
    simp only [accesses_append, accesses_wgEffects, accesses_map, List.nil_append] at ha
    exact assigns_of_engine ((connectStep_move hw).engine a ha) (by simp)
  | _ => exact Or.inl (by simp [Action.assigns, XrayEvent.actions])

/-- The other steps assign nothing, an OpenVPN report of the connected profile apart. -/
theorem control_assigns {D : Stores} {s s' : App} {l : Label} {es : List Effect}
    (h : s.control D l = some (s', es)) (hl : ∀ i inp, l ≠ .call i inp) :
    (∀ a ∈ accesses es, a.assigns = false) ∨
      ∃ session w, l = .callback session (.setConnectedVPN (some w)) ∧
        accesses es = [.setConnectedVPN (some w)] := by
  have hwg : ∀ {as : List Action}, (∀ a ∈ as, a.engine = some .wireguard) →
      ∀ a ∈ as, a.assigns = false :=
    fun has a ha => assigns_of_engine (has a ha) (by simp)
  cases l with
  | connect uuid =>
    obtain ⟨rfl, rfl⟩ := h
    exact Or.inl (by simp)
  | disconnect now =>
    have hes : (s.tap now).2 = es := congrArg Prod.snd (Option.some.inj h)
    subst hes
    refine Or.inl ?_
    unfold App.tap App.stopActive WireGuardEngine.disconnectAsync
    cases s.vpn.activeProtocol with
    | wireguard => dsimp only; split <;> simp [Action.assigns]
    | openvpn => dsimp only; split <;> simp [Action.assigns]
    | xray => simp [Action.assigns]
    | ikev2 => simp [Action.assigns]
  | call i inp => exact absurd rfl (hl i inp)
  | job j inp =>
    obtain ⟨w, as, hj, -, rfl⟩ := control_job h
    rw [accesses_map]
    exact Or.inl (hwg hj.engine)
  | onDestroy now =>
    obtain ⟨rfl, rfl⟩ := h
    rw [accesses_map]
    refine Or.inl (hwg ?_)
    exact WireGuardEngine.deliver_engine _ _ _
  | pollDown now =>
    obtain ⟨t, -, -, -, rfl⟩ := control_pollDown h
    exact Or.inl (by simp [Action.assigns])
  | callback session a =>
    simp only [App.control] at h
    split at h
    · rename_i hd
      obtain ⟨rfl, rfl⟩ := h
      cases a with
      | setConnectedVPN uuid =>
        cases uuid with
        | none => exact Or.inl (by simp [Action.assigns])
        | some w => exact Or.inr ⟨session, w, rfl, rfl⟩
      | setPending uuid => cases hd
      | setConnected uuid => cases hd
      | _ => exact Or.inl (by simp [Action.assigns])
    · cases h
  | xray session ev now =>
    obtain ⟨rfl, rfl⟩ := h
    rw [accesses_map]
    cases ev <;> exact Or.inl (by simp [XrayEvent.actions, Action.assigns])
  | serviceConnected =>
    have hes : s.onServiceConnected.2 = es := congrArg Prod.snd (Option.some.inj h)
    subst hes
    unfold App.onServiceConnected
    split <;> exact Or.inl (by simp [Action.assigns])
  | serviceDisconnected =>
    obtain ⟨rfl, rfl⟩ := h
    exact Or.inl (by simp [Action.assigns])
  | stopVpn k =>
    simp only [App.control] at h
    split at h
    · obtain ⟨rfl, rfl⟩ := h
      exact Or.inl (by simp)
    · cases h

/-- What is settled stays settled. -/
theorem CallMove.settled {D : Stores} {s s' : App} {i : Nat} {uuid : Uuid} {protocol : Protocol}
    {inp : Input} {pc pc' : Pc} {es : List Effect}
    (h : CallMove D s i uuid protocol inp pc s' pc' es) (hpc : pc.settled = true) :
    pc'.settled = true ∧ pc.claims = false := by
  cases h with
  | ovpnFound | ovpnMissing | ovpnBind | ovpnStarted | ovpnThrew | ovpnFailed | wgError | xrayActive
  | xrayState | xrayStarted | xrayThrew | ikeRefused | ikeUnknown | ikeInstall | ikeStart =>
    exact ⟨rfl, rfl⟩
  | wgStep pc pc' w as hf =>
    cases pc with
    | done e => cases hf
    | _ => cases hpc
  | _ => cases hpc

/-! ## 3. The invariant -/

namespace App

/-- The step associates another profile than that of the most recent connect. -/
def namesOther (s : App) (es : List Effect) : Bool :=
  s.calls.getLast?.any fun k => (accesses es).any (Action.namesOther k.uuid s.vpn)

/-- Watches for the association of another profile than that of the most recent connect: whether the
    state before that connect had one, whether a stop has cleared it, whether it has come back. -/
def clearedAfter (s : App) (l : Label) (es : List Effect) (cleared : Bool) : Bool :=
  match l with
  | .connect uuid => decide (Owned uuid s.vpn)
  | _ => (cleared || reportsStop s.vpn (accesses es)) && !s.namesOther es

/-- The UI process under the monitor. -/
def rowsStep (D : Stores) : App × Bool → Label → Option (App × Bool) :=
  observed (App.step D) clearedAfter

/-- The most recent connect, once it has made its assignments, is on `u`. -/
def latestIs (s : App) (u : Uuid) : Bool :=
  match s.calls.getLast? with
  | none => true
  | some k => !k.pc.assigned || k.uuid == u

/-- The most recent connect makes its last assignment when the association before it is gone and no
    connect on another profile is still to assign; afterwards OpenVPN, while it owns the tunnel, names no
    other profile. -/
def orderly (x : App × Bool) : Label → Bool
  | .call i _ =>
    match x.1.calls[i]? with
    | none => true
    | some c =>
      !(c.pc == .setProtocol && i + 1 == x.1.calls.length) ||
        (x.2 && x.1.calls.all fun d => d.uuid == c.uuid || d.pc.settled)
  | .callback _ (.setConnectedVPN (some w)) =>
    !(x.1.vpn.activeProtocol == .openvpn) || x.1.latestIs w
  | _ => true

end App

theorem latestIs_iff {s : App} {u : Uuid} : s.latestIs u = true ↔
    ∀ k, s.calls.getLast? = some k → k.pc.assigned = true → k.uuid = u := by
  unfold App.latestIs
  cases hk : s.calls.getLast? with
  | none => simp
  | some k =>
    cases ha : k.pc.assigned with
    | false => simp [ha]
    | true => simp [ha]

/-- What `orderly` asks of a step of a call. -/
theorem orderly_call {x : App × Bool} {i : Nat} {inp : Input} {c : Call} (hi : x.1.calls[i]? = some c)
    (h : App.orderly x (.call i inp) = true) (hpc : c.pc = .setProtocol) (hl : i + 1 = x.1.calls.length) :
    x.2 = true ∧ ∀ d ∈ x.1.calls, d.uuid = c.uuid ∨ d.pc.settled = true := by
  simp only [App.orderly, hi, hpc, hl, beq_self_eq_true, Bool.and_self, Bool.not_true, Bool.false_or,
    Bool.and_eq_true, List.all_eq_true, Bool.or_eq_true, beq_iff_eq] at h
  exact h

/-- The monitor at any step but a new connect. -/
theorem cleared_of_after {s : App} {l : Label} {es : List Effect} {cleared : Bool}
    (hl : ∀ uuid, l ≠ .connect uuid) (h : s.clearedAfter l es cleared = true) :
    (cleared = true ∨ reportsStop s.vpn (accesses es) = true) ∧
      ∀ k, s.calls.getLast? = some k → ∀ a ∈ accesses es, a.namesOther k.uuid s.vpn = false := by
  have hafter : ((cleared || reportsStop s.vpn (accesses es)) && !s.namesOther es) = true := by
    cases l with
    | connect uuid => exact absurd rfl (hl uuid)
    | _ => exact h
  rw [Bool.and_eq_true, Bool.or_eq_true, Bool.not_eq_true'] at hafter
  refine ⟨hafter.1, fun k hk a ha => ?_⟩
  have hother := hafter.2
  unfold App.namesOther at hother
  rw [hk, Option.any_some, List.any_eq_false] at hother
  exact Bool.eq_false_iff.mpr (hother a ha)

/-- The association is that of the most recent connect once the one before is gone, and stays so from
    its last assignment on; then no connect on another profile is to assign any more. -/
structure RowInv (x : App × Bool) : Prop where
  owned : ∀ k, x.1.calls.getLast? = some k → x.2 = true ∨ k.pc.assigned = true → Owned k.uuid x.1.vpn
  settled : ∀ k, x.1.calls.getLast? = some k → k.pc.assigned = true →
    ∀ c ∈ x.1.calls, c.uuid = k.uuid ∨ c.pc.settled = true

/-- A call is past its assignments, or is about to make the last. -/
theorem CallMove.assigned {D : Stores} {s s' : App} {i : Nat} {uuid : Uuid} {protocol : Protocol}
    {inp : Input} {pc pc' : Pc} {es : List Effect}
    (h : CallMove D s i uuid protocol inp pc s' pc' es) (hpc : pc'.assigned = true) :
    pc.assigned = true ∨ pc = .setProtocol := by
  cases h with
  | protocol => exact Or.inr rfl
  | ovpnStop | ovpnSkip | wgStop | wgIdle | wgSkip | awaited | ikeStop | ikeSkip | xrayStop
  | xraySkip | reset | pending => cases hpc
  | _ => exact Or.inl rfl

/-- A step of the association's own profile keeps it. -/
theorem Owned.claimed {u : Uuid} {e : VpnEngine} (ho : Owned u e) {as : List Action}
    (h : as = [.setPending (some u)] ∨ as = [.setConnected (some u)]) : Owned u (e.performAll as) := by
  rcases h with h | h
  · rw [h]
    exact ⟨ho.1, Or.inr rfl⟩
  · rw [h]
    exact ⟨Or.inr rfl, ho.2⟩

/-- A call on another profile that assigns is seen by the monitor. -/
theorem eq_of_claims {s : App} {k : Call} {uuid : Uuid} {as : List Action}
    (h : ∀ a ∈ as, a.namesOther k.uuid s.vpn = false)
    (has : as = [.setPending (some uuid)] ∨ as = [.setConnected (some uuid)]) : uuid = k.uuid := by
  rcases has with rfl | rfl
  · simpa [Action.namesOther] using h _ (List.mem_singleton_self _)
  · simpa [Action.namesOther] using h _ (List.mem_singleton_self _)

/-- The call that moves, and the others. -/
theorem mem_calls_set {s : App} {i : Nat} {c : Call} {pc : Pc} (hi : s.calls[i]? = some c)
    {P : Call → Prop} (hall : ∀ d ∈ s.calls, P d) (hmoved : P c → P { c with pc := pc }) :
    ∀ d ∈ s.calls.set i { c with pc := pc }, P d := by
  intro d hd
  rcases List.mem_or_eq_of_mem_set hd with hd | rfl
  · exact hall d hd
  · exact hmoved (hall c (List.mem_of_getElem? hi))

theorem rowInv_call {D : Stores} {x x' : App × Bool} {i : Nat} {inp : Input} {es : List Effect}
    (I : RowInv x) (hl : App.orderly x (.call i inp) = true)
    (h : x.1.step D (.call i inp) = some (x'.1, es))
    (hx : x'.2 = x.1.clearedAfter (.call i inp) es x.2) : RowInv x' := by
  obtain ⟨r₀, hc, hx', hvpn⟩ := step_control h
  obtain ⟨c, r, pc, hi, hmove, rfl⟩ := control_call hc
  have hcalls : x'.1.calls = x.1.calls.set i { c with pc := pc } := by rw [hx']; rfl
  have hconn : ∀ uuid, Label.call i inp ≠ .connect uuid := fun _ e => by cases e
  -- what holds before the step, where the most recent connect has made its last assignment after it
  have hbefore : ∀ k, x'.1.calls.getLast? = some k → k.pc.assigned = true →
      Owned k.uuid x.1.vpn ∧ ∀ d ∈ x.1.calls, d.uuid = k.uuid ∨ d.pc.settled = true := by
    intro k hk ha
    rw [hcalls] at hk
    rcases getLast_set hi hk with ⟨hlast, rfl⟩ | ⟨hlast, hk⟩
    · have hck : x.1.calls.getLast? = some c := by
        rw [List.getLast?_eq_getElem?, ← hlast, Nat.add_sub_cancel]
        exact hi
      rcases hmove.assigned ha with hpc | hpc
      · exact ⟨I.owned c hck (.inr hpc), I.settled c hck hpc⟩
      · obtain ⟨hcleared, hall⟩ := orderly_call hi hl hpc hlast
        exact ⟨I.owned c hck (.inl hcleared), hall⟩
    · exact ⟨I.owned k hk (.inr ha), I.settled k hk ha⟩
  refine ⟨fun k hk ha => ?_, fun k hk ha => ?_⟩
  swap
  · rw [hcalls]
    refine mem_calls_set hi (hbefore k hk ha).2 fun hcu => hcu.imp_right fun hs => (hmove.settled hs).1
  rw [hvpn]
  -- the most recent connect before the step is on the same profile
  have hlatest : ∃ k₀, x.1.calls.getLast? = some k₀ ∧ k₀.uuid = k.uuid := by
    rw [hcalls] at hk
    rcases getLast_set hi hk with ⟨hlast, rfl⟩ | ⟨-, hk⟩
    · refine ⟨c, ?_, rfl⟩
      rw [List.getLast?_eq_getElem?, ← hlast, Nat.add_sub_cancel]
      exact hi
    · exact ⟨k, hk, rfl⟩
  obtain ⟨k₀, hk₀, hku⟩ := hlatest
  rcases hmove.assigns with hn | ⟨hcl, hp⟩
  · refine Owned.quiet hn fun hno => ?_
    rcases ha with hcleared | ha
    · rw [hx] at hcleared
      have hold := ((cleared_of_after hconn hcleared).1).resolve_right (by rw [hno]; nofun)
      exact hku ▸ I.owned k₀ hk₀ (.inl hold)
    · exact (hbefore k hk ha).1
  · rcases ha with hcleared | ha
    · rw [hx] at hcleared
      obtain ⟨hold, hnames⟩ := cleared_of_after hconn hcleared
      have hno : reportsStop x.1.vpn (accesses es) = false := by
        rcases hp with hp | hp <;> rw [hp] <;> rfl
      have hcu : c.uuid = k.uuid := (eq_of_claims (hnames k₀ hk₀) hp).trans hku
      refine Owned.claimed (hku ▸ I.owned k₀ hk₀ (.inl (hold.resolve_right (by rw [hno]; nofun)))) ?_
      rwa [hcu] at hp
    · obtain ⟨hown, hall⟩ := hbefore k hk ha
      have hcu : c.uuid = k.uuid := by
        rcases hall c (List.mem_of_getElem? hi) with hcu | hs
        · exact hcu
        · rw [(hmove.settled hs).2] at hcl
          cases hcl
      refine hown.claimed ?_
      rwa [hcu] at hp

/-- A step along `orderly` keeps the association of the most recent connect. -/
theorem rowInv_step {D : Stores} (x : App × Bool) (l : Label) (x' : App × Bool) (I : RowInv x)
    (hl : App.orderly x l = true) (h : App.rowsStep D x l = some x') : RowInv x' := by
  obtain ⟨es, hs, hx⟩ := observed_some h
  by_cases hcall : ∃ i inp, l = .call i inp
  · obtain ⟨i, inp, rfl⟩ := hcall
    exact rowInv_call I hl hs hx
  have hcall : ∀ i inp, l ≠ .call i inp := fun i inp e => hcall ⟨i, inp, e⟩
  obtain ⟨r, hc, hx', hvpn⟩ := step_control hs
  by_cases hconn : ∃ uuid, l = .connect uuid
  · -- the new call has assigned nothing yet
    obtain ⟨uuid, rfl⟩ := hconn
    obtain ⟨rfl, rfl⟩ := hc
    have hlast : ∀ k, x'.1.calls.getLast? = some k → k = ⟨uuid, D.protocolOf uuid, .stopOpenVpn⟩ := by
      intro k hk
      rw [hx'] at hk
      exact (Option.some.inj ((List.getLast?_concat (l := x.1.calls)).symm.trans hk)).symm
    refine ⟨fun k hk ha => ?_, fun k hk ha => ?_⟩
    · obtain rfl := hlast k hk
      rw [hvpn]
      refine of_decide_eq_true (ha.elim (fun hcleared => ?_) nofun)
      rwa [hx] at hcleared
    · obtain rfl := hlast k hk
      cases ha
  have hconn : ∀ uuid, l ≠ .connect uuid := fun uuid e => hconn ⟨uuid, e⟩
  have hcalls : x'.1.calls = x.1.calls := by
    rw [hx']
    show r.calls = x.1.calls
    exact control_calls hc hcall hconn
  refine ⟨fun k hk ha => ?_, fun k hk ha => ?_⟩
  · rw [hcalls] at hk
    rw [hvpn]
    have hold : reportsStop x.1.vpn (accesses es) = false → Owned k.uuid x.1.vpn := by
      intro hno
      refine I.owned k hk (ha.imp_left fun hcleared => ?_)
      rw [hx] at hcleared
      exact (cleared_of_after hconn hcleared).1.resolve_right (by rw [hno]; nofun)
    rcases control_assigns hc hcall with hn | ⟨session, w, rfl, hw⟩
    · exact Owned.quiet hn hold
    have hown : Owned k.uuid x.1.vpn := hold (by rw [hw]; rfl)
    by_cases hp : x.1.vpn.activeProtocol = .openvpn
    · have hkw : k.uuid = w := by
        rcases ha with hcleared | ha
        · rw [hx] at hcleared
          have hname := (cleared_of_after hconn hcleared).2 k hk
          rw [hw] at hname
          have hname := hname _ (List.mem_singleton_self _)
          simp only [Action.namesOther, hp, decide_true, Bool.true_and, decide_eq_false_iff_not,
            not_not] at hname
          exact hname.symm
        · refine latestIs_iff.mp ?_ k hk ha
          simpa [App.orderly, hp] using hl
      rw [hw, ← hkw]
      exact hown.setConnectedVPN
    · -- the report of an engine that does not own the tunnel is dropped
      rw [hw, VpnEngine.performAll_cons, VpnEngine.perform_foreign rfl hp]
      exact hown
  · rw [hcalls] at hk ⊢
    exact I.settled k hk ha

/-- **One row at a time**: along orderly steps, once the most recent connect has made its assignments
    every other row is DISCONNECTED. -/
theorem rows_exclusive (D : Stores) (ls : List Label) {x : App × Bool} {k : Call} {v : Uuid}
    (hC : Along (App.rowsStep D) (fun x l => App.orderly x l = true) ({}, false) ls)
    (h : exec (App.rowsStep D) ({}, false) ls = some x) (hk : x.1.calls.getLast? = some k)
    (ha : k.pc.assigned = true) (hv : v ≠ k.uuid) : x.1.vpn.stateFor v = .disconnected := by
  have hinit : RowInv ({}, false) := ⟨fun k hk => by simp at hk, fun k hk => by simp at hk⟩
  have I : RowInv x := exec_inv rowInv_step hinit hC h
  exact stateFor_of_owned (I.owned k hk (.inr ha)) hv

/-- From a live WireGuard profile to an OpenVPN one: `disconnectBlocking` reports the stop. -/
def cleanSwitch : List Label :=
  [Label.connect "wg1"] ++ List.replicate 18 (Label.call 0 {}) ++ [Label.connect "ovpn1"] ++
    List.replicate 2 (Label.call 1 {}) ++ List.replicate 2 (Label.job 0 {}) ++ List.replicate 7 (Label.call 1 {})

theorem rows_exclusive_cleanSwitch :
    ∃ x, exec (App.rowsStep sampleStores) ({}, false) cleanSwitch = some x ∧
      x.1.vpn.stateFor "wg1" = .disconnected := by
  refine ⟨_, rfl, ?_⟩
  exact rows_exclusive sampleStores cleanSwitch (by decide) rfl rfl rfl (by decide)

/-- From a live OpenVPN profile to a WireGuard one: nothing clears `connectedUuid`, and **the old
    row shows the failure of the new attempt**. -/
theorem rows_stale :
    ∃ s, exec (silent (App.step sampleStores)) {}
        ([Label.connect "ovpn1"] ++ List.replicate 10 (Label.call 0 {}) ++
          [Label.serviceConnected, .callback 0 (.setConnectedVPN (some "ovpn1")),
            .callback 0 (.updateState (some "CONNECTED") none (some .connected) 1),
            .connect "wg1"] ++
          List.replicate 18 (Label.call 1 { fault := some (.backend .vpnNotAuthorized) })) = some s ∧
      s.calls.getLast? = some ⟨"wg1", .wireguard, .returned false⟩ ∧
      s.vpn.stateFor "ovpn1" = .authFailed := by
  refine ⟨_, rfl, ?_, ?_⟩ <;> decide

end SwiftVpn
