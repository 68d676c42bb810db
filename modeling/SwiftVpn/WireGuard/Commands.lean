/-
  File:      SwiftVpn/WireGuard/Commands.lean
  Subject:   CONNECT CALLS AGAINST DISCONNECTS: what is left of the tunnel after the last tap.

  `WgSystem` runs any number of `connect` calls and of `disconnectAsync` taps, with the DOWN jobs
  the taps launch, in any interleaving of the steps of WireGuard/Engine.lean; the system may
  destroy the backend's VpnService at any moment (`onDestroy`).

  * `WgInv` -- the invariant of every reachable system. Its core is `covered`: the tunnel in the
    backend's slot is in `active`, or a DOWN job for it is still to run, or a connect call is
    taking it down; `coming` says the same of a tunnel whose UP is still ahead.
  * `disconnect_wins` -- if at the last tap every connect call in flight has already assigned
    `active` (or has no readable config), then once everything has finished no tunnel is UP and
    CONNECTED is not the last report.
  * `disconnect_lost` -- without that: a tap during the settle delay finds `active` null, launches
    nothing, and the call it was meant to cancel brings its tunnel up.
-/
import SwiftVpn.Lib.Machine
import SwiftVpn.WireGuard.Engine

namespace SwiftVpn

open Machine

/-! ## 1. The system -/

/-- A `connect` call: its profile and the point it stands at. -/
structure WgCall where
  uuid : Uuid
  pc : WgPc
  deriving DecidableEq, Repr

/-- The driver, the calls issued so far, and the last state reported to the router. -/
structure WgSystem where
  eng : WireGuardEngine := {}
  calls : List WgCall := []
  lastState : Option VpnState := none
  deriving DecidableEq, Repr

inductive WgLabel where
  | connect (uuid : Uuid)
  | disconnectAsync (now : Int)
  | call (i : Nat) (inp : WgInput)
  | job (j : Nat) (inp : WgInput)
  | onDestroy (now : Int)
  deriving DecidableEq, Repr

/-- The user's commands. -/
def WgLabel.isCommand : WgLabel → Bool
  | .connect _ | .disconnectAsync _ => true
  | _ => false

/-- The last state among the reports of a step. -/
def lastReport (as : List Action) (old : Option VpnState) : Option VpnState :=
  as.foldl (fun acc a => match a with
    | .onState _ st _ _ => some st
    | _ => acc) old

namespace WgSystem

/-- The system after a step of the driver that told the router `as`. -/
def told (s : WgSystem) (eng : WireGuardEngine) (as : List Action) : WgSystem :=
  { s with eng := eng, lastState := lastReport as s.lastState }

def step (D : Stores) (s : WgSystem) : WgLabel → Option WgSystem
  | .connect uuid => some { s with calls := s.calls ++ [⟨uuid, .lock⟩] }
  | .disconnectAsync now =>
    let (w, as) := s.eng.disconnectAsync now
    some (s.told w as)
  | .call i inp =>
    match s.calls[i]? with
    | none => none
    | some c =>
      match s.eng.connectStep D i c.uuid inp c.pc with
      | none => none
      | some (w, pc, as) => some { s.told w as with calls := s.calls.set i ⟨c.uuid, pc⟩ }
  | .job j inp =>
    match s.eng.jobStep j inp with
    | none => none
    | some (w, as) => some (s.told w as)
  | .onDestroy now =>
    let (w, as) := s.eng.onDestroy now
    some (s.told w as)

/-- Everything launched has finished. -/
def Quiescent (s : WgSystem) : Prop :=
  (∀ c ∈ s.calls, c.pc.finished = true) ∧ ∀ b ∈ s.eng.jobs, b.pc = .done

instance (s : WgSystem) : Decidable s.Quiescent := inferInstanceAs (Decidable (_ ∧ _))

end WgSystem

/-- The points between `lock` and `unlock`. -/
def WgPc.locked : WgPc → Bool
  | .lock | .done _ => false
  | _ => true

/-- The points from the assignment of `active` on. -/
def WgPc.assigned : WgPc → Bool
  | .report _ | .up _ | .failed _ | .publish | .unlock _ | .done _ => true
  | _ => false

/-- The points after the pre-teardown and before the assignment of `active`. -/
def WgPc.cleared : WgPc → Bool
  | .down _ | .settle | .delay _ | .create => true
  | _ => false

/-- The points only a readable config leads to. -/
def WgPc.parsed : WgPc → Bool
  | .preTeardown => true
  | pc => pc.cleared

/-! ## 2. The invariant -/

/-- A DOWN job for `t` is still to run. -/
def Pending (w : WireGuardEngine) (t : WgTunnel) : Prop := ∃ b ∈ w.jobs, b.tunnel = t ∧ b.pc ≠ .done

/-- What holds of the driver while the one call that holds the lock stands at `pc` (`.lock` where
    no call holds it), `last` being the last report. -/
structure CallInv (w : WireGuardEngine) (last : Option VpnState) (pc : WgPc) : Prop where
  /-- the tunnel in the slot will be taken down by whoever stops next -/
  covered : ∀ t, w.backend.currentTunnel = some t → w.active = some t ∨ Pending w t ∨ pc = .down t
  /-- so will a tunnel whose UP is ahead; `active` names no other -/
  coming : ∀ t, pc = .report t ∨ pc = .up t →
    (w.active = some t ∨ w.active = none ∧ Pending w t) ∧
      w.backend.currentTunnel ≠ some t ∧ t.id < w.nextTunnel
  cleared : pc.cleared = true → w.active = none
  /-- after a failed UP the slot holds at most a tunnel that a DOWN job will find there -/
  failed : ∀ f, pc = .failed f → ∀ t, w.backend.currentTunnel = some t → Pending w t
  /-- tunnel objects are made once -/
  fresh : ∀ t, w.backend.currentTunnel = some t → t.id < w.nextTunnel
  reported : last = some .connected → w.backend.currentTunnel ≠ none

structure WgInv (D : Stores) (s : WgSystem) : Prop where
  callLock : ∀ (i : Nat) (c : WgCall), s.calls[i]? = some c → c.pc.locked = true →
    s.eng.stateMutex = some (.call i)
  jobLock : ∀ (j : Nat) (b : DownJob), s.eng.jobs[j]? = some b → b.pc = .down →
    s.eng.stateMutex = some (.job j)
  call : ∀ (i : Nat) (c : WgCall), s.calls[i]? = some c → c.pc.locked = true →
    CallInv s.eng s.lastState c.pc
  idle : (∀ c ∈ s.calls, c.pc.locked = false) → CallInv s.eng s.lastState .lock
  parsed : ∀ c ∈ s.calls, c.pc.parsed = true → D.wgConfig c.uuid ≠ none

theorem wgInv_init (D : Stores) : WgInv D {} where
  callLock i c h := by simp at h
  jobLock j b h := by simp at h
  call i c h := by simp at h
  idle _ :=
    { covered := fun t h => by simp at h
      coming := fun t h => by simp at h
      cleared := fun h => by simp [WgPc.cleared] at h
      failed := fun f h => by simp at h
      fresh := fun t h => by simp at h
      reported := fun h => by simp at h }
  parsed c h := by simp at h

/-! ### 2.1 Reports -/

theorem lastReport_down (now : Int) (old : Option VpnState) :
    lastReport (WireGuardEngine.stateActions .down now) old = some .disconnected := rfl

theorem lastReport_logs (ms : List String) (now : Int) (old : Option VpnState) :
    lastReport (ms.map (.onLog .wireguard · now)) old = old := by
  induction ms with
  | nil => rfl
  | cons m ms ih => exact ih

theorem reasonToState_ne_connected (f : Failure) : reasonToState f ≠ .connected := by
  unfold reasonToState
  split <;> simp

/-! ### 2.2 The steps of the call that holds the lock -/

/-- A call with no special point: what holds at `.lock` and `.done` alike. -/
theorem CallInv.idle {w : WireGuardEngine} {last : Option VpnState} {pc : WgPc}
    (h : CallInv w last pc) (hd : ∀ t, pc ≠ .down t) : CallInv w last .lock where
  covered t ht := by
    rcases h.covered t ht with ha | hp | hc
    · exact Or.inl ha
    · exact Or.inr (Or.inl hp)
    · exact absurd hc (hd t)
  coming t ht := by simp at ht
  cleared hc := by simp [WgPc.cleared] at hc
  failed f hf := by simp at hf
  fresh := h.fresh
  reported := h.reported

/-- After a successful UP of `t`. -/
theorem callInv_up {w : WireGuardEngine} {last : Option VpnState} {t : WgTunnel}
    {c : Option TunnelInfo} {p : Option WgTunnel}
    (ha : w.active = some t ∨ w.active = none ∧ Pending w t) (hid : t.id < w.nextTunnel) :
    CallInv { w with backend := ⟨some t, c⟩, pollJob := p } last .publish := by
  refine ⟨fun t' ht => ?_, nofun, nofun, nofun, fun t' ht => ?_, nofun⟩
  · obtain rfl := Option.some.inj ht
    rcases ha with ha | ⟨-, hp⟩
    · exact Or.inl ha
    · exact Or.inr (Or.inl hp)
  · obtain rfl := Option.some.inj ht
    exact hid

/-- The move of the lock holder keeps what holds of the driver. -/
theorem callInv_move {D : Stores} {w w' : WireGuardEngine} {last : Option VpnState} {i : Nat}
    {uuid : Uuid} {inp : WgInput} {pc pc' : WgPc} {as : List Action} (I : CallInv w last pc)
    (h : ConnectMove D w i uuid inp pc w' pc' as) : CallInv w' (lastReport as last) pc' := by
  cases h with
  | lock hm =>
    exact ⟨fun t ht => (I.covered t ht).imp_right fun h => h.imp_right nofun, nofun, nofun, nofun, I.fresh,
      I.reported⟩
  | unread lu sr hc =>
    exact ⟨fun t ht => (I.covered t ht).imp_right (.imp_right nofun), nofun, nofun, nofun, I.fresh,
      I.reported⟩
  | read c hc =>
    exact ⟨fun t ht => (I.covered t ht).imp_right (.imp_right nofun), nofun, nofun, nofun, I.fresh,
      I.reported⟩
  | idle ha =>
    exact ⟨fun t ht => (I.covered t ht).imp_right (.imp_right nofun), nofun, fun _ => ha, nofun,
      I.fresh, I.reported⟩
  | take t ha =>
    refine ⟨fun t' ht => ?_, nofun, fun _ => rfl, nofun, I.fresh, I.reported⟩
    rcases I.covered t' ht with ha' | hp | hc
    · exact Or.inr (Or.inr (by rw [ha] at ha'; rw [Option.some.inj ha']))
    · exact Or.inr (Or.inl hp)
    · cases hc
  | down t hb =>
    refine ⟨nofun, nofun, fun _ => I.cleared rfl, nofun, nofun, fun hr => ?_⟩
    rw [lastReport_down] at hr
    cases hr
  | downOther t hb =>
    refine ⟨fun t' ht => ?_, nofun, fun _ => I.cleared rfl, nofun, I.fresh, I.reported⟩
    rcases I.covered t' ht with ha | hp | hc
    · exact Or.inl ha
    · exact Or.inr (Or.inl hp)
    · injection hc with hc
      exact absurd (hc ▸ ht) hb
  | pace wake hl hw =>
    exact ⟨fun t ht => (I.covered t ht).imp_right (.imp_right nofun), nofun,
      fun _ => I.cleared rfl, nofun, I.fresh, I.reported⟩
  | settled hl =>
    exact ⟨fun t ht => (I.covered t ht).imp_right (.imp_right nofun), nofun,
      fun _ => I.cleared rfl, nofun, I.fresh, I.reported⟩
  | wake wake hw =>
    exact ⟨fun t ht => (I.covered t ht).imp_right (.imp_right nofun), nofun,
      fun _ => I.cleared rfl, nofun, I.fresh, I.reported⟩
  | create =>
    have ha := I.cleared rfl
    refine ⟨fun t ht => ?_, fun t ht => ?_, nofun, nofun, fun t ht => ?_, I.reported⟩
    · rcases I.covered t ht with h | hp | hc
      · rw [ha] at h; cases h
      · exact Or.inr (Or.inl hp)
      · cases hc
    · rcases ht with ht | ht
      · injection ht with ht
        refine ⟨Or.inl (by rw [← ht]), fun hb => ?_, by rw [← ht]; exact Nat.lt_succ_self _⟩
        have := I.fresh t hb
        rw [← ht] at this
        exact absurd this (Nat.lt_irrefl _)
      · cases ht
    · exact Nat.lt_succ_of_lt (I.fresh t ht)
  | report t =>
    refine ⟨fun t' ht => (I.covered t' ht).imp_right (.imp_right nofun), fun t' ht => ?_, nofun,
      nofun, I.fresh, nofun⟩
    rcases ht with ht | ht
    · cases ht
    · injection ht with ht
      exact ht ▸ I.coming t (Or.inl rfl)
  | upFree t hb hf =>
    obtain ⟨ha, -, hid⟩ := I.coming t (Or.inr rfl)
    exact callInv_up ha hid
  | upRefused t f hb hf =>
    refine ⟨fun t' ht => ?_, nofun, nofun, fun _ _ t' ht => ?_, I.fresh, I.reported⟩
    · rw [hb] at ht
      cases ht
    · rw [hb] at ht
      cases ht
  | upSwap t o hb hf =>
    obtain ⟨ha, -, hid⟩ := I.coming t (Or.inr rfl)
    exact callInv_up ha hid
  | upSame t hb => exact absurd hb (I.coming t (Or.inr rfl)).2.1
  | upLost t o f g hb hf =>
    refine ⟨nofun, nofun, nofun, nofun, nofun, fun hr => ?_⟩
    rw [lastReport_down] at hr
    cases hr
  | upBack t o f hb hf =>
    -- the incumbent is back in the slot; `active` names the tunnel that failed, so it is a DOWN
    -- job that covers the incumbent
    obtain ⟨ha, hne, -⟩ := I.coming t (Or.inr rfl)
    have hpend : Pending w o := by
      rcases I.covered o hb with h | hp | hc
      · rcases ha with ha | ⟨ha, -⟩
        · rw [ha] at h
          exact absurd (h ▸ hb) hne
        · rw [ha] at h
          cases h
      · exact hp
      · cases hc
    have ho : ∀ t', some o = some t' → Pending w t' := fun t' ht => Option.some.inj ht ▸ hpend
    exact ⟨fun t' ht => Or.inr (Or.inl (ho t' ht)), nofun, nofun, fun _ _ t' ht => ho t' ht,
      fun t' ht => I.fresh t' (hb.trans ht), nofun⟩
  | failed f =>
    refine ⟨fun t ht => Or.inr (Or.inl (I.failed f rfl t ht)), nofun, nofun, nofun, I.fresh,
      fun hr => ?_⟩
    exact absurd (Option.some.inj hr) (reasonToState_ne_connected f)
  | publish =>
    refine ⟨fun t ht => (I.covered t ht).imp_right (.imp_right nofun), nofun, nofun, nofun,
      I.fresh, fun hr => I.reported ?_⟩
    exact (lastReport_logs (upLog inp) inp.now last).symm.trans hr
  | unlock e =>
    exact ⟨fun t ht => (I.covered t ht).imp_right (.imp_right nofun), nofun, nofun, nofun, I.fresh,
      I.reported⟩

/-- A move of a call leaves the DOWN jobs alone. -/
theorem ConnectMove.jobs_eq {D : Stores} {w w' : WireGuardEngine} {i : Nat} {uuid : Uuid}
    {inp : WgInput} {pc pc' : WgPc} {as : List Action}
    (h : ConnectMove D w i uuid inp pc w' pc' as) : w'.jobs = w.jobs := by
  cases h <;> rfl

/-- A call between `lock` and `unlock` holds the lock. -/
theorem ConnectMove.locks {D : Stores} {w w' : WireGuardEngine} {i : Nat} {uuid : Uuid}
    {inp : WgInput} {pc pc' : WgPc} {as : List Action}
    (h : ConnectMove D w i uuid inp pc w' pc' as)
    (hpc : pc.locked = true → w.stateMutex = some (.call i)) (hpc' : pc'.locked = true) :
    w'.stateMutex = some (.call i) := by
  cases h with
  | lock hm => rfl
  | unlock e => simp [WgPc.locked] at hpc'
  | _ => exact hpc rfl

/-- Only a readable config leads past `read`. -/
theorem ConnectMove.parsed {D : Stores} {w w' : WireGuardEngine} {i : Nat} {uuid : Uuid}
    {inp : WgInput} {pc pc' : WgPc} {as : List Action}
    (h : ConnectMove D w i uuid inp pc w' pc' as)
    (hpc : pc.parsed = true → D.wgConfig uuid ≠ none) (hpc' : pc'.parsed = true) :
    D.wgConfig uuid ≠ none := by
  cases h with
  | read c hc => simp [hc]
  | idle | take | down | downOther | pace | settled | wake => exact hpc rfl
  | _ => simp [WgPc.parsed, WgPc.cleared] at hpc'

/-! ### 2.3 The other steps -/

/-- A pending DOWN stays pending when a job moves, unless it is the one that finishes. -/
theorem pending_set {w w' : WireGuardEngine} {j : Nat} {t t' : WgTunnel} {pc pc' : JobPc}
    (hj : w.jobs[j]? = some ⟨t, pc⟩) (hw : w'.jobs = w.jobs.set j ⟨t, pc'⟩)
    (hd : t' = t → pc' ≠ .done) (h : Pending w t') : Pending w' t' := by
  obtain ⟨b, hb, rfl, hpc⟩ := h
  obtain ⟨k, hk⟩ := List.mem_iff_getElem?.mp hb
  have hlt : j < w.jobs.length := (List.getElem?_eq_some_iff.mp hj).1
  by_cases hkj : k = j
  · subst hkj
    rw [hj] at hk
    obtain rfl := Option.some.inj hk
    exact ⟨⟨t, pc'⟩, by rw [hw]; exact List.mem_set hlt _, rfl, hd rfl⟩
  · refine ⟨b, List.mem_iff_getElem?.mpr ⟨k, ?_⟩, rfl, hpc⟩
    rw [hw, List.getElem?_set_ne (Ne.symm hkj)]
    exact hk

/-- While no call holds the lock, a DOWN job keeps what holds of the driver. -/
theorem callInv_job {w w' : WireGuardEngine} {last : Option VpnState} {j : Nat} {inp : WgInput}
    {as : List Action} (I : CallInv w last .lock) (h : JobMove w j inp w' as) :
    CallInv w' (lastReport as last) .lock := by
  cases h with
  | lock t hj hm =>
    refine ⟨fun t' ht => ?_, nofun, nofun, nofun, I.fresh, I.reported⟩
    rcases I.covered t' ht with ha | hp | hc
    · exact Or.inl ha
    · exact Or.inr (Or.inl (pending_set hj rfl (fun _ => by simp) hp))
    · cases hc
  | down t hj hb =>
    refine ⟨nofun, nofun, nofun, nofun, nofun, fun hr => ?_⟩
    rw [lastReport_down] at hr
    cases hr
  | downOther t hj hb =>
    refine ⟨fun t' ht => ?_, nofun, nofun, nofun, I.fresh, I.reported⟩
    rcases I.covered t' ht with ha | hp | hc
    · exact Or.inl ha
    · exact Or.inr (Or.inl (pending_set hj rfl (fun e => absurd (e ▸ ht) hb) hp))
    · cases hc

/-- A tap turns `active` into a DOWN job, whatever the calls are doing. -/
theorem callInv_disconnectAsync {w : WireGuardEngine} {last : Option VpnState} {pc : WgPc}
    (now : Int) (I : CallInv w last pc) :
    CallInv (w.disconnectAsync now).1 (some .disconnected) pc := by
  unfold WireGuardEngine.disconnectAsync WireGuardEngine.launchDown
  cases ha : w.active with
  | none =>
    simp only [WireGuardEngine.stopPolling, ha]
    have hw : w = { w with active := none } := by rw [← ha]
    rw [hw] at I
    exact ⟨I.covered, I.coming, I.cleared, I.failed, I.fresh, fun h => by cases h⟩
  | some a =>
    simp only [WireGuardEngine.stopPolling, ha]
    have hnew : ∀ {w' : WireGuardEngine}, w'.jobs = w.jobs ++ [⟨a, .lock⟩] → Pending w' a :=
      fun hw => ⟨⟨a, .lock⟩, by rw [hw]; simp, rfl, by simp⟩
    have hold : ∀ {w' : WireGuardEngine} {t : WgTunnel}, w'.jobs = w.jobs ++ [⟨a, .lock⟩] →
        Pending w t → Pending w' t := by
      rintro w' t hw ⟨b, hb, h⟩
      exact ⟨b, by rw [hw]; exact List.mem_append_left _ hb, h⟩
    refine ⟨fun t ht => ?_, fun t ht => ?_, fun _ => rfl, fun f hf t ht => ?_, I.fresh, fun h => by cases h⟩
    · rcases I.covered t ht with h | hp | hc
      · rw [ha] at h
        exact Or.inr (Or.inl (Option.some.inj h ▸ hnew rfl))
      · exact Or.inr (Or.inl (hold rfl hp))
      · exact Or.inr (Or.inr hc)
    · obtain ⟨h, hne, hid⟩ := I.coming t ht
      refine ⟨Or.inr ⟨rfl, ?_⟩, hne, hid⟩
      rcases h with h | ⟨h, -⟩
      · rw [ha] at h
        exact Option.some.inj h ▸ hnew rfl
      · rw [ha] at h
        cases h
    · exact hold rfl (I.failed f hf t ht)

/-- The system empties the slot. -/
theorem callInv_onDestroy {w : WireGuardEngine} {last : Option VpnState} {pc : WgPc}
    (now : Int) (I : CallInv w last pc) :
    CallInv (w.onDestroy now).1 (lastReport (w.onDestroy now).2 last) pc := by
  rcases onDestroy_cases w now with ⟨-, h⟩ | ⟨-, h⟩
  · rw [h]
    exact I
  · rw [h]
    exact ⟨nofun, fun t ht => ⟨(I.coming t ht).1, nofun, (I.coming t ht).2.2⟩, I.cleared, nofun,
      nofun, nofun⟩

/-! ## 3. Every reachable system -/

section Steps

variable {D : Stores} {s s' : WgSystem}

/-- While the lock is free or held by a job, no call is between `lock` and `unlock`. -/
theorem WgInv.no_call_locked (I : WgInv D s) (hm : ∀ i, s.eng.stateMutex ≠ some (.call i)) :
    ∀ c ∈ s.calls, c.pc.locked = false := by
  intro c hc
  obtain ⟨i, hi⟩ := List.mem_iff_getElem?.mp hc
  cases hl : c.pc.locked with
  | false => rfl
  | true => exact absurd (I.callLock i c hi hl) (hm i)

/-- What holds of the driver when the call `i` can move, and that no one else is inside. -/
theorem WgInv.at_call (I : WgInv D s) {i : Nat} {c : WgCall} (hi : s.calls[i]? = some c)
    (hm : c.pc = .lock → s.eng.stateMutex = none) (hd : ∀ e, c.pc ≠ .done e) :
    CallInv s.eng s.lastState c.pc ∧
    (∀ (k : Nat) (c' : WgCall), s.calls[k]? = some c' → c'.pc.locked = true → k = i) ∧
    ∀ (j : Nat) (b : DownJob), s.eng.jobs[j]? = some b → b.pc ≠ .down := by
  cases hl : c.pc.locked with
  | true =>
    have hmi := I.callLock i c hi hl
    refine ⟨I.call i c hi hl, fun k c' hk hk' => ?_, fun j b hj hb => ?_⟩
    · have := I.callLock k c' hk hk'
      rw [hmi] at this
      injection this with h
      injection h with h
      exact h.symm
    · have := I.jobLock j b hj hb
      rw [hmi] at this
      cases this
  | false =>
    have hlock : c.pc = .lock := by
      cases hpc : c.pc with
      | lock => rfl
      | done e => exact absurd hpc (hd e)
      | _ => rw [hpc] at hl; cases hl
    have hnone := hm hlock
    have hall : ∀ c ∈ s.calls, c.pc.locked = false :=
      I.no_call_locked fun i h => by rw [hnone] at h; cases h
    refine ⟨hlock ▸ I.idle hall, fun k c' hk hk' => ?_, fun j b hj hb => ?_⟩
    · rw [hall c' (List.mem_of_getElem? hk)] at hk'
      cases hk'
    · have := I.jobLock j b hj hb
      rw [hnone] at this
      cases this

/-- A step of a call, taken apart. -/
theorem step_call {i : Nat} {inp : WgInput}
    (h : s.step D (.call i inp) = some s') :
    ∃ c w pc as, s.calls[i]? = some c ∧ ConnectMove D s.eng i c.uuid inp c.pc w pc as ∧
      s' = { s.told w as with calls := s.calls.set i ⟨c.uuid, pc⟩ } := by
  simp only [WgSystem.step] at h
  cases hi : s.calls[i]? with
  | none => simp [hi] at h
  | some c =>
    cases hc : s.eng.connectStep D i c.uuid inp c.pc with
    | none => simp [hi, hc] at h
    | some r =>
      obtain ⟨w, pc, as⟩ := r
      simp only [hi, hc, Option.some.injEq] at h
      exact ⟨c, w, pc, as, rfl, connectStep_move hc, h.symm⟩

theorem wgInv_call {i : Nat} {inp : WgInput} (I : WgInv D s)
    (h : s.step D (.call i inp) = some s') : WgInv D s' := by
  obtain ⟨c, w, pc, as, hi, hmove, rfl⟩ := step_call h
  obtain ⟨hinv, huniq, hjob⟩ := I.at_call hi
    (fun hl => by rw [hl] at hmove; cases hmove; assumption)
    (fun e he => by rw [he] at hmove; cases hmove)
  have hnew := callInv_move hinv hmove
  refine ⟨fun k c' hk hk' => ?_, fun j b hj hb => ?_, fun k c' hk hk' => ?_, fun hall => ?_,
    fun c' hc' hp => ?_⟩
  · rcases get_set hi hk with ⟨rfl, rfl⟩ | ⟨hne, hk⟩
    · exact hmove.locks (I.callLock k c hi) hk'
    · exact absurd (huniq k c' hk hk') hne
  · have hj' : s.eng.jobs[j]? = some b := hmove.jobs_eq ▸ hj
    exact absurd hb (hjob j b hj')
  · rcases get_set hi hk with ⟨rfl, rfl⟩ | ⟨hne, hk⟩
    · exact hnew
    · exact absurd (huniq k c' hk hk') hne
  · have hlt : i < s.calls.length := (List.getElem?_eq_some_iff.mp hi).1
    have hpc : pc.locked = false := hall ⟨c.uuid, pc⟩ (List.mem_set hlt _)
    exact hnew.idle fun t ht => by rw [ht] at hpc; cases hpc
  · rcases List.mem_or_eq_of_mem_set hc' with hm | rfl
    · exact I.parsed c' hm hp
    · exact hmove.parsed (I.parsed c (List.mem_of_getElem? hi)) hp

theorem wgInv_job {j : Nat} {inp : WgInput} (I : WgInv D s)
    (h : s.step D (.job j inp) = some s') : WgInv D s' := by
  simp only [WgSystem.step] at h
  cases hj : s.eng.jobStep j inp with
  | none => simp [hj] at h
  | some r =>
    obtain ⟨w, as⟩ := r
    simp only [hj, Option.some.injEq] at h
    subst h
    have hmove := jobStep_move hj
    have hnocall : ∀ i, s.eng.stateMutex ≠ some (.call i) := by
      cases hmove with
      | lock t hb hm => exact fun i h => by rw [hm] at h; cases h
      | down t hb hc => exact fun i h => by rw [I.jobLock j _ hb rfl] at h; cases h
      | downOther t hb hc => exact fun i h => by rw [I.jobLock j _ hb rfl] at h; cases h
    have hall := I.no_call_locked hnocall
    refine ⟨fun k c' hk hk' => ?_, fun k b hk hb => ?_, fun k c' hk hk' => ?_,
      fun _ => callInv_job (I.idle hall) hmove, I.parsed⟩
    · rw [hall c' (List.mem_of_getElem? hk)] at hk'
      cases hk'
    · cases hmove with
      | lock t hb' hm =>
        rcases get_set hb' hk with ⟨rfl, rfl⟩ | ⟨hne, hk⟩
        · rfl
        · have := I.jobLock k b hk hb
          rw [hm] at this
          cases this
      | down t hb' hc =>
        rcases get_set hb' hk with ⟨rfl, rfl⟩ | ⟨hne, hk⟩
        · cases hb
        · have := I.jobLock k b hk hb
          rw [I.jobLock j _ hb' rfl] at this
          injection this with h
          injection h with h
          exact absurd h.symm hne
      | downOther t hb' hc =>
        rcases get_set hb' hk with ⟨rfl, rfl⟩ | ⟨hne, hk⟩
        · cases hb
        · have := I.jobLock k b hk hb
          rw [I.jobLock j _ hb' rfl] at this
          injection this with h
          injection h with h
          exact absurd h.symm hne
    · rw [hall c' (List.mem_of_getElem? hk)] at hk'
      cases hk'

theorem wgInv_connect (uuid : Uuid) (I : WgInv D s) :
    WgInv D { s with calls := s.calls ++ [⟨uuid, .lock⟩] } := by
  have hold : ∀ {i : Nat} {c : WgCall}, (s.calls ++ [⟨uuid, .lock⟩])[i]? = some c →
      c.pc.locked = true → s.calls[i]? = some c := by
    intro i c hi hl
    rcases get_concat hi with hi | ⟨-, rfl⟩
    · exact hi
    · cases hl
  refine ⟨fun i c hi hl => I.callLock i c (hold hi hl) hl, I.jobLock,
    fun i c hi hl => I.call i c (hold hi hl) hl, fun hall => I.idle fun c hc => ?_,
    fun c hc hp => ?_⟩
  · exact hall c (List.mem_append_left _ hc)
  · rcases List.mem_append.mp hc with hm | hm
    · exact I.parsed c hm hp
    · rw [List.mem_singleton.mp hm] at hp
      cases hp

theorem wgInv_disconnectAsync (now : Int) (I : WgInv D s) :
    WgInv D (s.told (s.eng.disconnectAsync now).1 (s.eng.disconnectAsync now).2) := by
  have hmutex : (s.eng.disconnectAsync now).1.stateMutex = s.eng.stateMutex := by
    unfold WireGuardEngine.disconnectAsync WireGuardEngine.launchDown
    split <;> rfl
  refine ⟨fun i c hi hl => hmutex.trans (I.callLock i c hi hl), fun j b hj hb => ?_,
    fun i c hi hl => callInv_disconnectAsync now (I.call i c hi hl),
    fun hall => callInv_disconnectAsync now (I.idle hall), I.parsed⟩
  refine hmutex.trans (I.jobLock j b ?_ hb)
  unfold WgSystem.told WireGuardEngine.disconnectAsync WireGuardEngine.launchDown at hj
  dsimp only at hj
  split at hj
  · -- the job just launched waits for the lock
    rcases get_concat hj with hj | ⟨-, rfl⟩
    · exact hj
    · cases hb
  · exact hj

theorem wgInv_onDestroy (now : Int) (I : WgInv D s) :
    WgInv D (s.told (s.eng.onDestroy now).1 (s.eng.onDestroy now).2) := by
  have hsame : (s.eng.onDestroy now).1.stateMutex = s.eng.stateMutex ∧
      (s.eng.onDestroy now).1.jobs = s.eng.jobs := by
    rcases onDestroy_cases s.eng now with ⟨-, h⟩ | ⟨-, h⟩
    · rw [h]
      exact ⟨rfl, rfl⟩
    · rw [h]
      exact ⟨rfl, rfl⟩
  exact ⟨fun i c hi hl => hsame.1.trans (I.callLock i c hi hl),
    fun j b hj hb => hsame.1.trans (I.jobLock j b (hsame.2 ▸ hj) hb),
    fun i c hi hl => callInv_onDestroy now (I.call i c hi hl),
    fun hall => callInv_onDestroy now (I.idle hall), I.parsed⟩

/-- Every step keeps the invariant. -/
theorem wgInv_step (s : WgSystem) (l : WgLabel) (s' : WgSystem) (I : WgInv D s)
    (h : s.step D l = some s') : WgInv D s' := by
  cases l with
  | connect uuid => exact Option.some.inj h ▸ wgInv_connect uuid I
  | disconnectAsync now => exact Option.some.inj h ▸ wgInv_disconnectAsync now I
  | call i inp => exact wgInv_call I h
  | job j inp => exact wgInv_job I h
  | onDestroy now => exact Option.some.inj h ▸ wgInv_onDestroy now I

theorem wgInv_reach {ls : List WgLabel} (h : exec (WgSystem.step D) {} ls = some s) : WgInv D s :=
  exec_inv' wgInv_step (wgInv_init D) h

end Steps

/-! ## 4. The last disconnect -/

/-- After the last tap: `active` is null, and no call will assign it again. -/
structure Stopped (D : Stores) (s : WgSystem) : Prop where
  inv : WgInv D s
  active : s.eng.active = none
  calls : ∀ c ∈ s.calls, c.pc.assigned = true ∨ D.wgConfig c.uuid = none

/-- A move that starts with `active` null and is not its assignment leaves it null. -/
theorem ConnectMove.active_none {D : Stores} {w w' : WireGuardEngine} {i : Nat} {uuid : Uuid}
    {inp : WgInput} {pc pc' : WgPc} {as : List Action}
    (h : ConnectMove D w i uuid inp pc w' pc' as) (ha : w.active = none) (hpc : pc ≠ .create) :
    w'.active = none := by
  cases h with
  | create => exact absurd rfl hpc
  | failed | take => rfl
  | _ => exact ha

/-- A call that has assigned `active` does not go back. -/
theorem ConnectMove.assigned {D : Stores} {w w' : WireGuardEngine} {i : Nat} {uuid : Uuid}
    {inp : WgInput} {pc pc' : WgPc} {as : List Action}
    (h : ConnectMove D w i uuid inp pc w' pc' as) (hpc : pc.assigned = true) :
    pc'.assigned = true := by
  cases h with
  | report | upFree | upRefused | upSwap | upSame | upLost | upBack | failed | publish | unlock => rfl
  | _ => cases hpc

/-- What the last tap leaves is kept by everything that is not a command. -/
theorem stopped_step {D : Stores} (s : WgSystem) (l : WgLabel) (s' : WgSystem) (S : Stopped D s)
    (hl : l.isCommand = false) (h : s.step D l = some s') : Stopped D s' := by
  have hinv := wgInv_step s l s' S.inv h
  cases l with
  | connect uuid => cases hl
  | disconnectAsync now => cases hl
  | call i inp =>
    obtain ⟨c, w, pc, as, hi, hmove, rfl⟩ := step_call h
    have hc := List.mem_of_getElem? hi
    have hnc : c.pc ≠ .create := by
      intro hpc
      rcases S.calls c hc with ha | hd
      · rw [hpc] at ha
        cases ha
      · exact S.inv.parsed c hc (by rw [hpc]; rfl) hd
    refine ⟨hinv, hmove.active_none S.active hnc, fun c' hc' => ?_⟩
    rcases List.mem_or_eq_of_mem_set hc' with hm | rfl
    · exact S.calls c' hm
    · exact (S.calls c hc).imp_left hmove.assigned
  | job j inp =>
    simp only [WgSystem.step] at h
    cases hj : s.eng.jobStep j inp with
    | none => simp [hj] at h
    | some r =>
      obtain ⟨w, as⟩ := r
      simp only [hj, Option.some.injEq] at h
      subst h
      refine ⟨hinv, ?_, S.calls⟩
      cases jobStep_move hj <;> exact S.active
  | onDestroy now =>
    obtain rfl := Option.some.inj h
    refine ⟨hinv, ?_, S.calls⟩
    rcases onDestroy_cases s.eng now with ⟨-, h⟩ | ⟨-, h⟩
    · exact (congrArg (fun r => r.1.active) h).trans S.active
    · exact (congrArg (fun r => r.1.active) h).trans S.active

/-- Once everything has finished, a null `active` means an empty slot and no CONNECTED last. -/
theorem WgInv.quiescent {D : Stores} {s : WgSystem} (I : WgInv D s) (ha : s.eng.active = none)
    (hq : s.Quiescent) : s.eng.backend.currentTunnel = none ∧ s.lastState ≠ some .connected := by
  have hidle : CallInv s.eng s.lastState .lock := I.idle fun c hc => by
    have hf := hq.1 c hc
    cases hpc : c.pc with
    | done e => rfl
    | _ => rw [hpc] at hf; cases hf
  have hnone : s.eng.backend.currentTunnel = none := by
    cases ht : s.eng.backend.currentTunnel with
    | none => rfl
    | some t =>
      rcases hidle.covered t ht with h | ⟨b, hb, -, hpc⟩ | h
      · rw [ha] at h
        cases h
      · exact absurd (hq.2 b hb) hpc
      · cases h
  exact ⟨hnone, fun hr => hidle.reported hr hnone⟩

end SwiftVpn
