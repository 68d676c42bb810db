/-
  File:      SwiftVpn/WireGuard/Transitions.lean
  Subject:   ONE TRANSITION AT A TIME: `stateMutex` and the pacing of `setState(UP)`.

  For any number of connect calls, stops and restarts of the watchdog, in any interleaving of the
  steps of WireGuard/Polling.lean and with a cancellation at any suspension point:

  * `GateInv` -- the process inside the gate is the one that holds `stateMutex`, and a settle delay
    ends DOWN_SETTLE_MS after the last DOWN;
  * `Pace` -- a monitor of the clock, of the end of the last `setState(DOWN)` and of the starts of
    `setState(UP)`; `Paced` is what the driver's `lastDownAt` makes of it;
  * `transitions_paced` -- at most one process is in `setState`; whoever holds the lock is never
    blocked for longer than the settle delay and has released it after ten steps of its own,
    whatever runs in between; and no UP starts within DOWN_SETTLE_MS of the last DOWN.
-/
import SwiftVpn.WireGuard.Polling

namespace SwiftVpn

open Machine

/-! ## 1. The gate -/

/-- The points inside a `backend.setState`. -/
def WgPc.inSetState : WgPc → Bool
  | .down _ | .up _ => true
  | _ => false

/-- The points between the settle delay and the start of the UP. -/
def WgPc.ready : WgPc → Bool
  | .create | .report _ => true
  | _ => false

/-- The most steps a call makes before the one that unlocks. -/
def WgPc.rank : WgPc → Nat
  | .read => 9
  | .preTeardown => 8
  | .down _ => 7
  | .settle => 6
  | .delay _ => 5
  | .create => 4
  | .report _ => 3
  | .up _ => 2
  | .failed _ | .publish => 1
  | _ => 0

namespace PollSystem

/-- Where the call `i` stands. -/
def callPc (s : PollSystem) : Nat → WgPc := field (·.pc) .lock s.calls

/-- Where the DOWN job `j` stands. -/
def jobPc (s : PollSystem) : Nat → JobPc := field (·.pc) .lock s.eng.jobs

/-- The process is between `lock` and `unlock`. -/
def Inside (s : PollSystem) : Owner → Prop
  | .call i => (s.callPc i).locked = true
  | .job j => s.jobPc j = .down

/-- The process is in a `backend.setState`. -/
def InSetState (s : PollSystem) : Owner → Prop
  | .call i => (s.callPc i).inSetState = true
  | .job j => s.jobPc j = .down

/-- The most steps the process makes before the one that unlocks. -/
def rank (s : PollSystem) : Owner → Nat
  | .call i => (s.callPc i).rank
  | .job _ => 0

end PollSystem

/-- The next step of a process. -/
def Owner.next : Owner → WgInput → PollLabel
  | .call i, inp => .call i inp
  | .job j, inp => .job j inp

/-- The step is one of the process `o`. -/
def PollLabel.isBy (o : Owner) : PollLabel → Bool
  | .call i _ | .interrupt i => o = .call i
  | .job j _ => o = .job j
  | _ => false

structure GateInv (s : PollSystem) : Prop where
  holder : ∀ o, s.Inside o ↔ s.eng.stateMutex = some o
  /-- a settle delay is measured from the last DOWN -/
  settle : ∀ i wake, s.callPc i = .delay wake → wake = s.eng.lastDownAt + downSettleMs

theorem gateInv_init : GateInv {} where
  holder o := by cases o <;> exact ⟨nofun, nofun⟩
  settle i wake h := by cases h

theorem PollSystem.InSetState.inside {s : PollSystem} {o : Owner} (h : s.InSetState o) :
    s.Inside o := by
  cases o with
  | job j => exact h
  | call i =>
    have h : (s.callPc i).inSetState = true := h
    show (s.callPc i).locked = true
    cases hpc : s.callPc i with
    | down t | up t => rfl
    | _ => rw [hpc] at h; cases h

/-! ## 2. What a step does to the gate -/

/-- A step that touches neither the lock nor a process that uses it. -/
structure SameGate (s s' : PollSystem) : Prop where
  calls : s'.callPc = s.callPc
  jobs : s'.jobPc = s.jobPc
  mutex : s'.eng.stateMutex = s.eng.stateMutex
  lastDownAt : s'.eng.lastDownAt = s.eng.lastDownAt

theorem SameGate.inside {s s' : PollSystem} (h : SameGate s s') (o : Owner) :
    s'.Inside o ↔ s.Inside o := by
  cases o with
  | call i => simp only [PollSystem.Inside, h.calls]
  | job j => simp only [PollSystem.Inside, h.jobs]

/-- A stop launches a DOWN job, which is still at the lock. -/
theorem sameGate_stop (s : PollSystem) (b : List Nat) :
    SameGate s { s.drive s.eng.stopPolling.launchDown with blocked := b } := by
  unfold PollSystem.drive WireGuardEngine.launchDown
  split
  · exact ⟨rfl, field_concat rfl, rfl, rfl⟩
  · exact ⟨rfl, rfl, rfl, rfl⟩

theorem sameGate_onDestroy (s : PollSystem) (now : Int) :
    SameGate s (s.drive (s.eng.onDestroy now).1) := by
  rcases onDestroy_cases s.eng now with ⟨-, h⟩ | ⟨-, h⟩
  · rw [h]
    exact ⟨rfl, rfl, rfl, rfl⟩
  · rw [h]
    exact ⟨rfl, rfl, rfl, rfl⟩

/-- A poll loop stays outside; the call of a restart is still at the lock. -/
theorem LoopMove.sameGate {s s' : PollSystem} {k : Nat} {lp : PollLoop} {inp : PollInput}
    {as : List Action} (h : LoopMove s k lp inp s' as) : SameGate s s' := by
  cases h with
  | restart => exact ⟨field_concat rfl, rfl, rfl, rfl⟩
  | _ => exact ⟨rfl, rfl, rfl, rfl⟩

/-- What a step of a call does to the lock: it takes it, keeps it with fewer steps to go, or
    releases it. -/
theorem ConnectMove.gate {D : Stores} {w w' : WireGuardEngine} {i : Nat} {uuid : Uuid}
    {inp : WgInput} {pc pc' : WgPc} {as : List Action}
    (h : ConnectMove D w i uuid inp pc w' pc' as) :
    (pc.locked = false ∧ w.stateMutex = none ∧ pc'.locked = true ∧
      w'.stateMutex = some (.call i)) ∨
    (pc.locked = true ∧ pc'.locked = true ∧ w'.stateMutex = w.stateMutex ∧
      pc'.rank < pc.rank) ∨
    (pc.locked = true ∧ pc'.locked = false ∧ w'.stateMutex = none) := by
  cases h with
  | lock hm => exact .inl ⟨rfl, hm, rfl, rfl⟩
  | unlock e => exact .inr (.inr ⟨rfl, rfl, rfl⟩)
  | _ => exact .inr (.inl ⟨rfl, rfl, rfl, by simp [WgPc.rank]⟩)

/-- What a step of a DOWN job does to the lock. -/
theorem JobMove.gate {w w' : WireGuardEngine} {j : Nat} {inp : WgInput} {as : List Action}
    (h : JobMove w j inp w' as) :
    (∃ t, w.jobs[j]? = some ⟨t, .lock⟩ ∧ w.stateMutex = none ∧
      w'.jobs = w.jobs.set j ⟨t, .down⟩ ∧ w'.stateMutex = some (.job j) ∧
      w'.lastDownAt = w.lastDownAt) ∨
    (∃ t, w.jobs[j]? = some ⟨t, .down⟩ ∧ w'.jobs = w.jobs.set j ⟨t, .done⟩ ∧
      w'.stateMutex = none ∧ w'.lastDownAt = inp.now) := by
  cases h with
  | lock t hj hm => exact .inl ⟨t, hj, hm, rfl, rfl, rfl⟩
  | down t hj | downOther t hj => exact .inr ⟨t, hj, rfl, rfl, rfl⟩

/-- The gate as one step of the system leaves it: `SameGate`, or the move of one process. -/
inductive GateMove (D : Stores) (s : PollSystem) : PollLabel → PollSystem → Prop where
  | same (l : PollLabel) (s' : PollSystem) (hl : ∀ o, l.isBy o = false) (h : SameGate s s') :
      GateMove D s l s'
  | call (i : Nat) (inp : WgInput) (uuid : Uuid) (s' : PollSystem) (pc' : WgPc) (as : List Action)
      (hm : ConnectMove D s.eng i uuid inp (s.callPc i) s'.eng pc' as)
      (hc : s'.callPc = Function.update s.callPc i pc') (hj : s'.jobPc = s.jobPc) :
      GateMove D s (.call i inp) s'
  | cancelled (i : Nat) (s' : PollSystem) (hpc : s.callPc i = .lock)
      (hc : s'.callPc = Function.update s.callPc i (.done none)) (he : s'.eng = s.eng) :
      GateMove D s (.interrupt i) s'
  | unwinds (i : Nat) (wake : Int) (s' : PollSystem) (hpc : s.callPc i = .delay wake)
      (hc : s'.callPc = Function.update s.callPc i (.unlock none)) (he : s'.eng = s.eng) :
      GateMove D s (.interrupt i) s'
  | jobLock (j : Nat) (inp : WgInput) (s' : PollSystem) (hm : s.eng.stateMutex = none)
      (hc : s'.callPc = s.callPc) (hj : s'.jobPc = Function.update s.jobPc j .down)
      (hm' : s'.eng.stateMutex = some (.job j)) (hl : s'.eng.lastDownAt = s.eng.lastDownAt) :
      GateMove D s (.job j inp) s'
  | jobDown (j : Nat) (inp : WgInput) (s' : PollSystem) (hpc : s.jobPc j = .down)
      (hc : s'.callPc = s.callPc) (hj : s'.jobPc = Function.update s.jobPc j .done)
      (hm' : s'.eng.stateMutex = none) (hl : s'.eng.lastDownAt = inp.now) :
      GateMove D s (.job j inp) s'
  | jobCancelled (j : Nat) (s' : PollSystem) (hpc : s.jobPc j = .lock)
      (hc : s'.callPc = s.callPc) (hj : s'.jobPc = Function.update s.jobPc j .done)
      (hm : s'.eng.stateMutex = s.eng.stateMutex)
      (hl : s'.eng.lastDownAt = s.eng.lastDownAt) :
      GateMove D s (.interruptJob j) s'

theorem step_gateMove {D : Stores} {s s' : PollSystem} {l : PollLabel} {as : List Action}
    (h : s.step D l = some (s', as)) : GateMove D s l s' := by
  cases step_pollTurn h with
  | connect uuid => exact .same _ _ (fun _ => rfl) ⟨field_concat rfl, rfl, rfl, rfl⟩
  | disconnectAsync now => exact .same _ _ (fun _ => rfl) (sameGate_stop s s.blocked)
  | disconnectBlocking => exact .same _ _ (fun _ => rfl) (sameGate_stop s s.waiters)
  | returned n now => exact .same _ _ (fun _ => rfl) ⟨rfl, rfl, rfl, rfl⟩
  | onDestroy now => exact .same _ _ (fun _ => rfl) (sameGate_onDestroy s now)
  | loop k inp lp _ _ hk hm => exact .same _ _ (fun _ => rfl) hm.sameGate
  | interruptLoop k lp wake hk hpc => exact .same _ _ (fun _ => rfl) ⟨rfl, rfl, rfl, rfl⟩
  | call i inp c w pc' _ hi hm =>
    have hpc : s.callPc i = c.pc := field_eq hi
    refine .call i inp c.uuid _ pc' as ?_ (field_set hi) ?_
    · rw [hpc]
      exact hm
    · show field (·.pc) .lock w.jobs = s.jobPc
      rw [hm.jobs_eq]
      rfl
  | interruptLock i c hi hpc =>
    exact .cancelled i _ ((field_eq hi).trans hpc) (field_set hi) rfl
  | interruptDelay i c wake hi hpc =>
    exact .unwinds i wake _ ((field_eq hi).trans hpc) (field_set hi) rfl
  | job j inp w _ hm =>
    rcases hm.gate with ⟨t, hj, hm, hw, hm', hl⟩ | ⟨t, hj, hw, hm', hl⟩
    · exact .jobLock j inp _ hm rfl ((congrArg _ hw).trans (field_set hj)) hm' hl
    · exact .jobDown j inp _ (field_eq hj) rfl ((congrArg _ hw).trans (field_set hj)) hm' hl
  | interruptJob j t hj => exact .jobCancelled j _ (field_eq hj) rfl (field_set hj) rfl rfl

/-! ## 3. The lock is held by the process inside, and released -/

section Steps

variable {D : Stores} {s s' : PollSystem}

/-- While `o` is inside, nobody else is. -/
theorem GateInv.outside (I : GateInv s) {o : Owner} (ho : s.Inside o) (o' : Owner) (hne : o' ≠ o) :
    ¬ s.Inside o' := by
  intro ho'
  have hm := (I.holder o).mp ho
  have hm' := (I.holder o').mp ho'
  exact hne (Option.some.inj (hm'.symm.trans hm))

/-- A call that moves leaves every other process where it is. -/
theorem inside_update_call {i : Nat} {pc' : WgPc} (hc : s'.callPc = Function.update s.callPc i pc')
    (hj : s'.jobPc = s.jobPc) : ∀ o, o ≠ .call i → (s'.Inside o ↔ s.Inside o) := by
  intro o ho
  cases o with
  | job j => simp only [PollSystem.Inside, hj]
  | call k =>
    have hk : k ≠ i := fun h => ho (h ▸ rfl)
    simp only [PollSystem.Inside, hc, Function.update_of_ne hk]

/-- So does a DOWN job that moves. -/
theorem inside_update_job {j : Nat} {pc' : JobPc} (hc : s'.callPc = s.callPc)
    (hj : s'.jobPc = Function.update s.jobPc j pc') :
    ∀ o, o ≠ .job j → (s'.Inside o ↔ s.Inside o) := by
  intro o ho
  cases o with
  | call i => simp only [PollSystem.Inside, hc]
  | job k =>
    have hk : k ≠ j := fun h => ho (h ▸ rfl)
    simp only [PollSystem.Inside, hj, Function.update_of_ne hk]

/-- Where the call that moved stands. -/
theorem inside_self {i : Nat} {pc' : WgPc} (hc : s'.callPc = Function.update s.callPc i pc') :
    s'.Inside (.call i) ↔ pc'.locked = true := by
  simp only [PollSystem.Inside, hc, Function.update_self]

theorem inside_self_job {j : Nat} {pc' : JobPc} (hj : s'.jobPc = Function.update s.jobPc j pc') :
    s'.Inside (.job j) ↔ pc' = .down := by
  simp only [PollSystem.Inside, hj, Function.update_self]

/-- **The process inside holds the lock**, after every step. -/
theorem GateMove.holder {l : PollLabel} (h : GateMove D s l s') (I : GateInv s) :
    ∀ o, s'.Inside o ↔ s'.eng.stateMutex = some o := by
  cases h with
  | same _ _ hl hs =>
    intro o
    rw [hs.inside o, hs.mutex]
    exact I.holder o
  | call i inp uuid _ pc' as hm hc hj =>
    refine lock_step I.holder (.call i) (inside_update_call hc hj) ?_
    rw [inside_self hc]
    rcases hm.gate with ⟨-, hnone, hin, hm'⟩ | ⟨hin, hin', hm', -⟩ | ⟨hin, hout, hm'⟩
    · exact .inl ⟨hnone, hin, hm'⟩
    · exact .inr (.inl ⟨hin, hin', hm'⟩)
    · exact .inr (.inr (.inl ⟨hin, Bool.eq_false_iff.mp hout, hm'⟩))
  | cancelled i _ hpc hc he =>
    have hj : s'.jobPc = s.jobPc := by simp only [PollSystem.jobPc, he]
    refine lock_step I.holder (.call i) (inside_update_call hc hj) ?_
    rw [inside_self hc]
    refine .inr (.inr (.inr ⟨?_, nofun, by rw [he]⟩))
    show ¬ (s.callPc i).locked = true
    rw [hpc]
    nofun
  | unwinds i wake _ hpc hc he =>
    have hj : s'.jobPc = s.jobPc := by simp only [PollSystem.jobPc, he]
    refine lock_step I.holder (.call i) (inside_update_call hc hj) ?_
    rw [inside_self hc]
    refine .inr (.inl ⟨?_, rfl, by rw [he]⟩)
    show (s.callPc i).locked = true
    rw [hpc]
    rfl
  | jobLock j inp _ hm hc hj hm' hl =>
    refine lock_step I.holder (.job j) (inside_update_job hc hj) ?_
    rw [inside_self_job hj]
    exact .inl ⟨hm, rfl, hm'⟩
  | jobDown j inp _ hpc hc hj hm' hl =>
    refine lock_step I.holder (.job j) (inside_update_job hc hj) ?_
    rw [inside_self_job hj]
    exact .inr (.inr (.inl ⟨hpc, nofun, hm'⟩))
  | jobCancelled j _ hpc hc hj hm hl =>
    refine lock_step I.holder (.job j) (inside_update_job hc hj) ?_
    rw [inside_self_job hj]
    refine .inr (.inr (.inr ⟨?_, nofun, hm⟩))
    show ¬ s.jobPc j = .down
    rw [hpc]
    nofun

/-- What a move of a call does to the pace: it ends a `setState(DOWN)`, starts a `setState(UP)`, or
    does neither; and it comes to the start of an UP only over the settle delay. -/
theorem ConnectMove.paces {w w' : WireGuardEngine} {i : Nat} {uuid : Uuid} {inp : WgInput}
    {pc pc' : WgPc} {as : List Action} (h : ConnectMove D w i uuid inp pc w' pc' as) :
    (∃ t, pc = .down t ∧ pc' = .settle ∧ w'.lastDownAt = inp.now) ∨
    (∃ t, pc = .report t ∧ pc' = .up t ∧ w'.lastDownAt = w.lastDownAt) ∨
    ((∀ t, pc ≠ .down t) ∧ (∀ t, pc ≠ .report t) ∧ w'.lastDownAt = w.lastDownAt ∧
      (pc'.ready = true → pc = .create ∨
        (pc = .settle ∧ ¬ (w.lastDownAt > 0 ∧ inp.now - w.lastDownAt < downSettleMs)) ∨
        ∃ wake, pc = .delay wake ∧ wake ≤ inp.now)) := by
  cases h with
  | down t | downOther t => exact .inl ⟨t, rfl, rfl, rfl⟩
  | report t => exact .inr (.inl ⟨t, rfl, rfl, rfl⟩)
  | settled hl => exact .inr (.inr ⟨nofun, nofun, rfl, fun _ => .inr (.inl ⟨rfl, hl⟩)⟩)
  | wake wake hw => exact .inr (.inr ⟨nofun, nofun, rfl, fun _ => .inr (.inr ⟨wake, rfl, hw⟩)⟩)
  | create => exact .inr (.inr ⟨nofun, nofun, rfl, fun _ => .inl rfl⟩)
  | _ => exact .inr (.inr ⟨nofun, nofun, rfl, nofun⟩)

/-- The settle delay a call enters ends DOWN_SETTLE_MS after the last DOWN. -/
theorem ConnectMove.wakes {w w' : WireGuardEngine} {i : Nat} {uuid : Uuid} {inp : WgInput}
    {pc : WgPc} {wake : Int} {as : List Action}
    (h : ConnectMove D w i uuid inp pc w' (.delay wake) as) :
    wake = w'.lastDownAt + downSettleMs := by
  cases h with
  | pace _ hl hw => omega

/-- While a call is in its settle delay nobody else ends a DOWN. -/
theorem GateMove.settle {l : PollLabel} (h : GateMove D s l s') (I : GateInv s) (k : Nat)
    (wake : Int) (hk : s'.callPc k = .delay wake) :
    wake = s'.eng.lastDownAt + downSettleMs := by
  -- a call that was in its delay before is inside
  have hinside : s.callPc k = .delay wake → s.Inside (.call k) := by
    intro hpc
    show (s.callPc k).locked = true
    rw [hpc]
    rfl
  cases h with
  | same _ _ hl hs =>
    rw [hs.lastDownAt]
    exact I.settle k wake (hs.calls ▸ hk)
  | call i inp uuid _ pc' as hm hc hj =>
    rw [hc] at hk
    by_cases hki : k = i
    · rw [hki, Function.update_self] at hk
      rw [hk] at hm
      exact hm.wakes
    · rw [Function.update_of_ne hki] at hk
      rcases hm.paces with ⟨t, hpc, -, -⟩ | ⟨-, -, -, hl⟩ | ⟨-, -, hl, -⟩
      · refine absurd ?_ (I.outside (hinside hk) (.call i) fun h => hki (by cases h; rfl))
        show (s.callPc i).locked = true
        rw [hpc]
        rfl
      all_goals
        rw [hl]
        exact I.settle k wake hk
  | cancelled i _ hpc hc he | unwinds i _ _ hpc hc he =>
    rw [hc] at hk
    by_cases hki : k = i
    · rw [hki, Function.update_self] at hk
      cases hk
    · rw [Function.update_of_ne hki] at hk
      rw [he]
      exact I.settle k wake hk
  | jobLock j inp _ hm hc hj hm' hl =>
    rw [hl]
    exact I.settle k wake (hc ▸ hk)
  | jobDown j inp _ hpc hc hj hm' hl =>
    exact absurd hpc (I.outside (hinside (hc ▸ hk)) (.job j) nofun)
  | jobCancelled j _ hpc hc hj hm hl =>
    rw [hl]
    exact I.settle k wake (hc ▸ hk)

theorem GateMove.gateInv {l : PollLabel} (h : GateMove D s l s') (I : GateInv s) : GateInv s' :=
  ⟨h.holder I, h.settle I⟩

/-- A step of the holder that keeps the lock leaves it fewer steps to go; nobody else's does. -/
theorem GateMove.rank {l : PollLabel} (h : GateMove D s l s') (I : GateInv s) {o : Owner}
    (ho : s.Inside o) (ho' : s'.Inside o) :
    s'.rank o + (if l.isBy o then 1 else 0) ≤ s.rank o := by
  have hjob : ∀ j, s'.rank (.job j) = s.rank (.job j) := fun _ => rfl
  cases h with
  | same _ _ hl hs =>
    rw [hl o, if_neg (by nofun)]
    cases o with
    | call i => simp only [PollSystem.rank, hs.calls]; omega
    | job j => exact Nat.le_of_eq (hjob j)
  | call i inp uuid _ pc' as hm hc hj =>
    by_cases hoi : o = .call i
    · subst hoi
      have hin : pc'.locked = true := (inside_self hc).mp ho'
      have hlt : pc'.rank < (s.callPc i).rank := by
        rcases hm.gate with ⟨hout, -⟩ | ⟨-, -, -, hlt⟩ | ⟨-, hout, -⟩
        · exact absurd ho (Bool.eq_false_iff.mp hout)
        · exact hlt
        · rw [hout] at hin
          cases hin
      simp only [PollSystem.rank, hc, Function.update_self, PollLabel.isBy, decide_true, if_true]
      omega
    · simp only [PollLabel.isBy, decide_eq_true_eq, if_neg hoi]
      cases o with
      | job j => exact Nat.le_of_eq (hjob j)
      | call k =>
        have hk : k ≠ i := fun h => hoi (h ▸ rfl)
        simp only [PollSystem.rank, hc, Function.update_of_ne hk]
        omega
  | cancelled i _ hpc hc he | unwinds i _ _ hpc hc he =>
    by_cases hoi : o = .call i
    · subst hoi
      have hin : (s.callPc i).locked = true := ho
      simp only [PollSystem.rank, hc, Function.update_self, PollLabel.isBy, decide_true, if_true,
        WgPc.rank, hpc]
      simp_all [WgPc.locked]
    · simp only [PollLabel.isBy, decide_eq_true_eq, if_neg hoi]
      cases o with
      | job j => exact Nat.le_of_eq (hjob j)
      | call k =>
        have hk : k ≠ i := fun h => hoi (h ▸ rfl)
        simp only [PollSystem.rank, hc, Function.update_of_ne hk]
        omega
  | jobLock j inp _ hm hc hj hm' hl =>
    have hnone := (I.holder o).mp ho
    rw [hm] at hnone
    cases hnone
  | jobDown j inp _ hpc hc hj hm' hl =>
    by_cases hoj : o = .job j
    · subst hoj
      have hin := (inside_self_job hj).mp ho'
      cases hin
    · exact absurd hpc (I.outside ho (.job j) (Ne.symm hoj))
  | jobCancelled j _ hpc hc hj hm hl =>
    simp only [PollLabel.isBy, Bool.false_eq_true, if_false]
    cases o with
    | job k => exact Nat.le_of_eq (hjob k)
    | call k => simp only [PollSystem.rank, hc]; omega

end Steps

/-- Ten steps of the holder release the lock, whatever runs in between. -/
theorem GateInv.released {D : Stores} {s s' : PollSystem} (I : GateInv s) {o : Owner}
    (ho : s.eng.stateMutex = some o) {ls : List PollLabel}
    (h : exec (silent (PollSystem.step D)) s ls = some s')
    (hn : 10 ≤ ls.countP (PollLabel.isBy o)) :
    ∃ ls₁ s₁, ls₁ <+: ls ∧ exec (silent (PollSystem.step D)) s ls₁ = some s₁ ∧
      s₁.eng.stateMutex ≠ some o := by
  have hrank : s.rank o ≤ 9 := by
    cases o with
    | job j => exact Nat.zero_le 9
    | call i =>
      show (s.callPc i).rank ≤ 9
      cases s.callPc i <;> simp [WgPc.rank]
  refine exec_leaves (I := GateInv) (P := fun s => s.eng.stateMutex = some o)
    (r := fun s => s.rank o) ?_ I ho h (show s.rank o < ls.countP (PollLabel.isBy o) by omega)
  intro s l s' I ho hs
  obtain ⟨as, hs⟩ := silent_some hs
  have hmove := step_gateMove hs
  have I' := hmove.gateInv I
  exact ⟨I', fun ho' => hmove.rank I ((I.holder o).mpr ho) ((I'.holder o).mpr ho')⟩

/-- The holder can move as soon as the settle delay is over. -/
theorem GateInv.enabled {D : Stores} {s : PollSystem} (I : GateInv s) {o : Owner}
    (ho : s.eng.stateMutex = some o) {inp : WgInput}
    (hnow : s.eng.lastDownAt + downSettleMs ≤ inp.now) : (s.step D (o.next inp)).isSome := by
  have hin := (I.holder o).mpr ho
  cases o with
  | call i =>
    have hin : (s.callPc i).locked = true := hin
    cases hi : s.calls[i]? with
    | none =>
      have hpc : s.callPc i = .lock := by simp only [PollSystem.callPc, field, hi]; rfl
      rw [hpc] at hin
      cases hin
    | some c =>
      have hpc : s.callPc i = c.pc := field_eq hi
      have hstep : (s.eng.connectStep D i c.uuid inp c.pc).isSome := by
        rw [hpc] at hin
        cases hc : c.pc with
        | lock | done e => rw [hc] at hin; cases hin
        | read =>
          simp only [WireGuardEngine.connectStep]
          cases D.wgRaw c.uuid with
          | none => rfl
          | some raw => dsimp only; cases D.wgParse raw <;> rfl
        | preTeardown =>
          simp only [WireGuardEngine.connectStep]
          cases s.eng.stopPolling.active <;> rfl
        | settle =>
          simp only [WireGuardEngine.connectStep]
          split <;> rfl
        | delay wake =>
          have hw : wake ≤ inp.now := by
            rw [I.settle i wake (hpc.trans hc)]
            exact hnow
          simp only [WireGuardEngine.connectStep, if_pos hw]
          rfl
        | up t =>
          simp only [WireGuardEngine.connectStep]
          split <;> rfl
        | _ => rfl
      obtain ⟨⟨w, pc', as⟩, hr⟩ := Option.isSome_iff_exists.mp hstep
      simp only [Owner.next, PollSystem.step, hi, hr]
      rfl
  | job j =>
    have hin : s.jobPc j = .down := hin
    cases hj : s.eng.jobs[j]? with
    | none =>
      have hpc : s.jobPc j = .lock := by simp only [PollSystem.jobPc, field, hj]; rfl
      rw [hpc] at hin
      cases hin
    | some b =>
      have hpc : b.pc = .down := (field_eq hj).symm.trans hin
      simp only [Owner.next, PollSystem.step, WireGuardEngine.jobStep, hj, hpc]
      rfl

/-! ## 4. The pace -/

/-- The clock, when the last `setState(DOWN)` was completed, and for every `setState(UP)` when it was
    started and the last DOWN before it. -/
structure Pace where
  clock : Int := 0
  lastDown : Option Int := none
  ups : List (Int × Option Int) := []
  deriving DecidableEq, Repr

/-- The reading of the clock at a step. -/
def PollLabel.time : PollLabel → Option Int
  | .disconnectAsync now | .returned _ now | .onDestroy now => some now
  | .call _ inp | .job _ inp => some inp.now
  | .loop _ inp => some inp.now
  | _ => none

/-- What the monitor notes at a step. -/
def Pace.note (s : PollSystem) (l : PollLabel) (_ : List Action) (m : Pace) : Pace :=
  let m := { m with clock := l.time.getD m.clock }
  match l with
  | .call i inp =>
    match s.callPc i with
    | .down _ => { m with lastDown := some inp.now }
    | .report _ => { m with ups := m.ups ++ [(inp.now, m.lastDown)] }
    | _ => m
  | .job j inp => if s.jobPc j = .down then { m with lastDown := some inp.now } else m
  | _ => m

/-- The driver under the monitor. -/
def paceStep (D : Stores) : PollSystem × Pace → PollLabel → Option (PollSystem × Pace) :=
  observed (PollSystem.step D) Pace.note

/-- The clock is positive and does not go back. -/
def ticks (x : PollSystem × Pace) (l : PollLabel) : Bool :=
  l.time.all fun now => 0 < now && x.2.clock ≤ now

/-- What the driver knows of the pace. -/
structure Paced (x : PollSystem × Pace) : Prop where
  gate : GateInv x.1
  last : x.1.eng.lastDownAt = x.2.lastDown.getD 0
  pos : ∀ d, x.2.lastDown = some d → 0 < d
  ready : ∀ i, (x.1.callPc i).ready = true → ∀ d, x.2.lastDown = some d →
    d + downSettleMs ≤ x.2.clock
  ups : ∀ u ∈ x.2.ups, ∀ d, u.2 = some d → d + downSettleMs ≤ u.1

theorem paced_init : Paced ({}, {}) :=
  ⟨gateInv_init, rfl, nofun, nofun, nofun⟩

section Pace

variable {D : Stores} {s s' : PollSystem} {m : Pace}

/-- Time passes: a call that has come over the settle delay stays so. -/
theorem Paced.advance (I : Paced (s, m)) (G : GateInv s')
    (hl : s'.eng.lastDownAt = s.eng.lastDownAt) {clock : Int} (hclock : m.clock ≤ clock)
    (hready : ∀ k, (s'.callPc k).ready = true → (s.callPc k).ready = true ∨
      ∀ d, m.lastDown = some d → d + downSettleMs ≤ clock) :
    Paced (s', { m with clock := clock }) := by
  refine ⟨G, hl.trans I.last, I.pos, fun k hk d hd => ?_, I.ups⟩
  rcases hready k hk with hk | hk
  · exact Int.le_trans (I.ready k hk d hd) hclock
  · exact hk d hd

/-- A DOWN is completed, and no call is on its way to an UP. -/
theorem Paced.downed (I : Paced (s, m)) (G : GateInv s') {now : Int}
    (hl : s'.eng.lastDownAt = now) (hpos : 0 < now) (hready : ∀ k, (s'.callPc k).ready = false) :
    Paced (s', { m with clock := now, lastDown := some now }) := by
  refine ⟨G, hl, fun d hd => ?_, fun k hk => ?_, I.ups⟩
  · obtain rfl := Option.some.inj hd
    exact hpos
  · rw [hready k] at hk
    cases hk

/-- An UP is started by a call that has come over the settle delay. -/
theorem Paced.started (I : Paced (s, m)) (G : GateInv s')
    (hl : s'.eng.lastDownAt = s.eng.lastDownAt) {now : Int} (hclock : m.clock ≤ now) {i : Nat}
    (hi : (s.callPc i).ready = true)
    (hready : ∀ k, (s'.callPc k).ready = true → (s.callPc k).ready = true) :
    Paced (s', { m with clock := now, ups := m.ups ++ [(now, m.lastDown)] }) := by
  have I' := I.advance G hl hclock fun k hk => .inl (hready k hk)
  refine ⟨I'.gate, I'.last, I'.pos, I'.ready, fun u hu d hd => ?_⟩
  rcases List.mem_append.mp hu with hu | hu
  · exact I.ups u hu d hd
  · obtain rfl := List.mem_singleton.mp hu
    exact Int.le_trans (I.ready i hi d hd) hclock

/-- A call on its way to an UP is inside. -/
theorem inside_of_ready {i : Nat} (h : (s.callPc i).ready = true) : s.Inside (.call i) := by
  show (s.callPc i).locked = true
  cases hpc : s.callPc i with
  | create | report t => rfl
  | _ => rw [hpc] at h; cases h

/-- While `o` is inside and no call itself on its way to an UP, no call is. -/
theorem Paced.none_ready (I : Paced (s, m)) {o : Owner} (ho : s.Inside o)
    (hself : ∀ i, o = .call i → (s.callPc i).ready = false) (k : Nat) :
    (s.callPc k).ready = false := by
  cases hk : (s.callPc k).ready with
  | false => rfl
  | true =>
    by_cases hko : Owner.call k = o
    · rw [hself k hko.symm] at hk
      cases hk
    · exact absurd (inside_of_ready hk) (I.gate.outside ho _ hko)

/-- Of two call tables that differ in the call `i` only, what is ready in one. -/
theorem ready_update {i : Nat} {pc' : WgPc} (hc : s'.callPc = Function.update s.callPc i pc')
    {k : Nat} (hk : (s'.callPc k).ready = true) :
    (k = i ∧ pc'.ready = true) ∨ (s.callPc k).ready = true := by
  rw [hc] at hk
  by_cases hki : k = i
  · rw [hki, Function.update_self] at hk
    exact .inl ⟨hki, hk⟩
  · rw [Function.update_of_ne hki] at hk
    exact .inr hk

/-- A step of a call keeps the pace. -/
theorem Paced.call (I : Paced (s, m)) (G : GateInv s') {i : Nat} {inp : WgInput} {uuid : Uuid}
    {pc' : WgPc} {as told : List Action}
    (hm : ConnectMove D s.eng i uuid inp (s.callPc i) s'.eng pc' as)
    (hc : s'.callPc = Function.update s.callPc i pc') (hpos : 0 < inp.now)
    (hclock : m.clock ≤ inp.now) : Paced (s', Pace.note s (.call i inp) told m) := by
  rcases hm.paces with ⟨t, hpc, rfl, hl⟩ | ⟨t, hpc, rfl, hl⟩ | ⟨hdown, hreport, hl, hover⟩
  · have hin : s.Inside (.call i) := by
      show (s.callPc i).locked = true
      rw [hpc]
      rfl
    have hnone := I.none_ready hin fun k hk => by
      cases hk
      rw [hpc]
      rfl
    simp only [Pace.note, PollLabel.time, hpc, Option.getD_some]
    refine I.downed G hl hpos fun k => ?_
    cases hk : (s'.callPc k).ready with
    | false => rfl
    | true =>
      rcases ready_update hc hk with ⟨-, h⟩ | h
      · cases h
      · rw [hnone k] at h
        cases h
  · simp only [Pace.note, PollLabel.time, hpc, Option.getD_some]
    refine I.started G hl hclock (i := i) (by rw [hpc]; rfl) fun k hk => ?_
    exact (ready_update hc hk).resolve_left nofun
  · have hnote : Pace.note s (.call i inp) told m = { m with clock := inp.now } := by
      simp only [Pace.note, PollLabel.time, Option.getD_some]
    rw [hnote]
    have hlast : ∀ d, m.lastDown = some d → s.eng.lastDownAt = d := by
      intro d hd
      rw [I.last]
      show m.lastDown.getD 0 = d
      rw [hd]
      rfl
    refine I.advance G hl hclock fun k hk => ?_
    rcases ready_update hc hk with ⟨rfl, hr⟩ | hr
    · -- the call comes over the settle delay, or was over it
      rcases hover hr with hpc | ⟨hpc, hlate⟩ | ⟨wake, hpc, hwake⟩
      · exact .inl (by rw [hpc]; rfl)
      · refine .inr fun d hd => ?_
        have hd' := hlast d hd
        have hd0 := I.pos d hd
        omega
      · refine .inr fun d hd => ?_
        have hd' := hlast d hd
        have hw : wake = s.eng.lastDownAt + downSettleMs := I.gate.settle k wake hpc
        omega
    · exact .inl hr

end Pace

/-- Every step keeps the pace. -/
theorem paced_step {D : Stores} (x : PollSystem × Pace) (l : PollLabel) (x' : PollSystem × Pace)
    (I : Paced x) (hC : ticks x l = true) (h : paceStep D x l = some x') : Paced x' := by
  obtain ⟨s, m⟩ := x
  obtain ⟨s', m'⟩ := x'
  obtain ⟨as, hs, hm'⟩ := observed_some h
  dsimp only at hs hm'
  subst hm'
  have hmove := step_gateMove hs
  have G := hmove.gateInv I.gate
  have hclock : m.clock ≤ l.time.getD m.clock := by
    cases ht : l.time with
    | none => exact Int.le_refl _
    | some now =>
      simp only [ticks, ht, Option.all_some, Bool.and_eq_true, decide_eq_true_eq] at hC
      exact hC.2
  cases hmove with
  | same _ _ hl hg =>
    have hnote : Pace.note s l as m = { m with clock := l.time.getD m.clock } := by
      cases l with
      | call i inp => exact absurd (hl (.call i)) (by simp [PollLabel.isBy])
      | job j inp => exact absurd (hl (.job j)) (by simp [PollLabel.isBy])
      | _ => rfl
    rw [hnote]
    exact I.advance G hg.lastDownAt hclock fun k hk => .inl (hg.calls ▸ hk)
  | call i inp uuid _ pc' as' hm hc hj =>
    simp only [ticks, PollLabel.time, Option.all_some, Bool.and_eq_true, decide_eq_true_eq] at hC
    exact I.call G hm hc hC.1 hC.2
  | cancelled i _ hpc hc he | unwinds i _ _ hpc hc he =>
    refine I.advance G (by rw [he]) hclock fun k hk => .inl ?_
    exact (ready_update hc hk).resolve_left nofun
  | jobLock j inp _ hm hc hj hm' hl =>
    have hout : s.jobPc j ≠ .down := fun h => by
      have hown := (I.gate.holder (.job j)).mp h
      rw [hm] at hown
      cases hown
    have hnote : Pace.note s (.job j inp) as m = { m with clock := inp.now } := by
      simp only [Pace.note, if_neg hout]
      rfl
    rw [hnote]
    exact I.advance G hl hclock fun k hk => .inl (hc ▸ hk)
  | jobDown j inp _ hpc hc hj hm' hl =>
    have hnote : Pace.note s (.job j inp) as m =
        { m with clock := inp.now, lastDown := some inp.now } := by
      simp only [Pace.note, if_pos hpc]
      rfl
    rw [hnote]
    simp only [ticks, PollLabel.time, Option.all_some, Bool.and_eq_true, decide_eq_true_eq] at hC
    refine I.downed G hl hC.1 fun k => ?_
    rw [hc]
    exact I.none_ready (o := .job j) hpc nofun k
  | jobCancelled j _ hpc hc hj hm hl =>
    exact I.advance G hl hclock fun k hk => .inl (hc ▸ hk)

/-- Every run of the driver under the monitor is one of the driver. -/
theorem gateInv_reach {D : Stores} {ls : List PollLabel} {s : PollSystem} {m : Pace}
    (h : exec (paceStep D) ({}, {}) ls = some (s, m)) : GateInv s := by
  refine exec_inv' (I := fun x : PollSystem × Pace => GateInv x.1) ?_ gateInv_init h
  intro x l x' I hx
  obtain ⟨as, hs, -⟩ := observed_some hx
  exact (step_gateMove hs).gateInv I

/-- **One transition at a time, and paced.** In every run of connect calls, stops, restarts of the
    watchdog and cancellations: at most one process is in `backend.setState`; the holder of
    `stateMutex` can move as soon as the settle delay is over and, whatever runs in between, has
    released it after ten steps of its own; and with a clock that is positive and does not go back,
    no `setState(UP)` starts within DOWN_SETTLE_MS of the end of the last `setState(DOWN)`. -/
theorem transitions_paced (D : Stores) {ls : List PollLabel} {s : PollSystem} {m : Pace}
    (h : exec (paceStep D) ({}, {}) ls = some (s, m)) :
    (∀ o o', s.InSetState o → s.InSetState o' → o = o') ∧
    (∀ o, s.eng.stateMutex = some o →
      (∀ inp, s.eng.lastDownAt + downSettleMs ≤ inp.now → (s.step D (o.next inp)).isSome) ∧
      ∀ ls' s', exec (silent (PollSystem.step D)) s ls' = some s' →
        10 ≤ ls'.countP (PollLabel.isBy o) →
        ∃ ls₁ s₁, ls₁ <+: ls' ∧ exec (silent (PollSystem.step D)) s ls₁ = some s₁ ∧
          s₁.eng.stateMutex ≠ some o) ∧
    (Along (paceStep D) (fun x l => ticks x l = true) ({}, {}) ls →
      ∀ u ∈ m.ups, ∀ d, u.2 = some d → d + downSettleMs ≤ u.1) := by
  have G := gateInv_reach h
  refine ⟨fun o o' ho ho' => ?_, fun o ho => ⟨fun inp hnow => G.enabled ho hnow, ?_⟩, fun hC => ?_⟩
  · by_contra hne
    exact G.outside ho'.inside o hne ho.inside
  · exact fun ls' s' hrun hn => G.released ho hrun hn
  · have I : Paced (s, m) := exec_inv paced_step paced_init hC h
    exact I.ups

/-- A profile is connected to twice: the second call takes the tunnel of the first down at 2000 and
    waits for the settle delay. -/
def connectTwice : List PollLabel :=
  PollLabel.connect "wg1" :: List.replicate 9 (PollLabel.call 0 { now := 1000 }) ++
    PollLabel.connect "wg1" :: List.replicate 5 (PollLabel.call 1 { now := 2000 }) ++
    List.replicate 6 (PollLabel.call 1 { now := 2400 })

theorem transitions_paced_twice :
    ∃ s m, exec (paceStep sampleStores) ({}, {}) connectTwice = some (s, m) ∧
      m.ups = [(1000, none), (2400, some 2000)] ∧
      ∀ u ∈ m.ups, ∀ d, u.2 = some d → d + downSettleMs ≤ u.1 := by
  refine ⟨_, _, rfl, rfl, ?_⟩
  have hrun : exec (paceStep sampleStores) ({}, {}) connectTwice = some _ := rfl
  exact (transitions_paced sampleStores hrun).2.2 (by decide)

end SwiftVpn
