/-
  File:      SwiftVpn/Router/Progress.lean
  Subject:   EVERY CONNECT CALL CAN RETURN: no wait of the UI process is for good.

  A call waits in three places: for `stateMutex`, for the end of a settle delay, and in
  `disconnectBlocking` for the DOWN job that it started. The restarts of WireGuard's watchdog are calls that
  wait for the same lock.

  * `Holds` -- the lock is held by a process inside the gate, and a job that is waited for was started;
  * `moves` -- so some call or some DOWN job can always make a step, as long as one has not returned;
  * `work` -- the steps that are left to all of them: each step of one lowers it, whichever it is;
  * `connects_return` -- from every state that the process and its drivers reach, the calls return, in
    whatever order they are scheduled, if nothing new is asked for.
-/
import SwiftVpn.Router.Drivers
import SwiftVpn.WireGuard.Transitions

namespace SwiftVpn

open Machine

/-! ## 1. The steps that are left -/

/-- The steps that a DOWN job has still to make. -/
def JobPc.steps : JobPc → Nat
  | .lock => 2
  | .down => 1
  | .done => 0

/-- The steps that `WireGuardEngine.connect` has still to make. -/
def WgPc.steps : WgPc → Nat
  | .lock => 11
  | .done _ => 0
  | pc => pc.rank + 1

/-- The steps that a call has still to make, those of a DOWN job that it may start included. -/
def Pc.steps : Pc → Nat
  | .stopOpenVpn => 23
  | .stopWireGuard => 22
  | .awaitDown _ => 19
  | .stopIkev2 => 18
  | .stopXray => 17
  | .resetTraffic => 16
  | .setPending => 15
  | .setProtocol => 14
  | .wgConnecting => 13
  | .wgConnect pc => pc.steps + 1
  | .ikeProfile | .xrayConnecting => 5
  | .ovpnProfile | .xrayConnected | .ikeConnecting => 4
  | .ovpnBind | .xrayActive | .ikeConnected => 3
  | .ovpnStart | .xrayState | .ikeRefused | .ikeInstall => 2
  | .ovpnFailed | .xrayStart | .ikeUnknown | .ikeStart => 1
  | .returned _ => 0

theorem ConnectMove.steps {D : Stores} {w w' : WireGuardEngine} {i : Nat} {uuid : Uuid} {inp : WgInput}
    {pc pc' : WgPc} {as : List Action} (h : ConnectMove D w i uuid inp pc w' pc' as) : pc'.steps < pc.steps := by
  cases h <;> simp [WgPc.steps, WgPc.rank]

namespace App

/-- The steps that the DOWN jobs have still to make. -/
def jobSteps (w : WireGuardEngine) : Nat := (w.jobs.map (·.pc.steps)).sum

/-- The steps that the calls and the DOWN jobs have still to make. -/
def work (s : App) : Nat := (s.calls.map (·.pc.steps)).sum + jobSteps s.wg

theorem jobSteps_launchDown (w : WireGuardEngine) : jobSteps w.stopPolling.launchDown ≤ jobSteps w + 2 := by
  unfold WireGuardEngine.launchDown
  split
  · unfold jobSteps
    rw [List.map_append, List.sum_append]
    exact Nat.le_refl _
  · exact Nat.le_add_right _ _

end App

theorem CallMove.steps {D : Stores} {s s' : App} {i : Nat} {uuid : Uuid} {protocol : Protocol} {inp : Input}
    {pc pc' : Pc} {es : List Effect} (h : CallMove D s i uuid protocol inp pc s' pc' es) :
    pc'.steps + App.jobSteps s'.wg < pc.steps + App.jobSteps s.wg := by
  have hsame : ∀ {n : Nat}, pc'.steps < n → pc'.steps + App.jobSteps s.wg < n + App.jobSteps s.wg :=
    fun hlt => Nat.add_lt_add_right hlt _
  cases h with
  | wgStop t hp ha =>
    have hjobs := App.jobSteps_launchDown s.wg
    show 19 + App.jobSteps s.wg.stopPolling.launchDown < 22 + App.jobSteps s.wg
    omega
  | protocol =>
    refine hsame ?_
    cases protocol <;> decide
  | wgStep pc pc' w as hf hstep =>
    have hmove := connectStep_move hstep
    have hlow := hmove.steps
    show pc'.steps + 1 + App.jobSteps w < pc.steps + 1 + App.jobSteps s.wg
    unfold App.jobSteps
    rw [hmove.jobs_eq]
    omega
  | wgOk => exact hsame Nat.one_pos
  | wgError e => exact hsame Nat.one_pos
  | awaited j hj => exact hsame (by decide : 18 < 19)
  | _ => exact hsame (by decide)

/-! ## 2. The lock -/

/-- The points between `lock` and `unlock`. -/
def Pc.inside : Pc → Bool
  | .wgConnect pc => pc.locked
  | _ => false

/-- What a step of a call does to the lock: it leaves it, takes it, or releases it. -/
theorem CallMove.gate {D : Stores} {s s' : App} {i : Nat} {uuid : Uuid} {protocol : Protocol} {inp : Input}
    {pc pc' : Pc} {es : List Effect} (h : CallMove D s i uuid protocol inp pc s' pc' es) :
    (∃ new, s'.wg.jobs = s.wg.jobs ++ new) ∧
    (s'.wg.stateMutex = s.wg.stateMutex ∧ (pc.inside = true → pc'.inside = true) ∨
      s'.wg.stateMutex = some (.call i) ∧ pc'.inside = true ∨ s'.wg.stateMutex = none) ∧
    ∀ j, pc' = .awaitDown j → j < s'.wg.jobs.length := by
  have hsame : ∀ {s' : App} {pc pc' : Pc}, s'.wg = s.wg → pc.inside = false → (∀ j, pc' ≠ .awaitDown j) →
      (∃ new, s'.wg.jobs = s.wg.jobs ++ new) ∧
      (s'.wg.stateMutex = s.wg.stateMutex ∧ (pc.inside = true → pc'.inside = true) ∨
        s'.wg.stateMutex = some (.call i) ∧ pc'.inside = true ∨ s'.wg.stateMutex = none) ∧
      ∀ j, pc' = .awaitDown j → j < s'.wg.jobs.length := by
    intro s' pc pc' hwg hpc hwaits
    rw [hwg]
    exact ⟨⟨[], (List.append_nil _).symm⟩, .inl ⟨rfl, fun h => absurd (hpc.symm.trans h) Bool.false_ne_true⟩,
      fun j hj => absurd hj (hwaits j)⟩
  cases h with
  | wgStop t hp ha =>
    have hlaunched : s.wg.stopPolling.launchDown
        = { s.wg.stopPolling with active := none, jobs := s.wg.jobs ++ [⟨t, .lock⟩] } := by
      unfold WireGuardEngine.launchDown WireGuardEngine.stopPolling
      dsimp only
      rw [ha]
    dsimp only
    rw [hlaunched]
    refine ⟨⟨_, rfl⟩, .inl ⟨rfl, fun h => absurd h Bool.false_ne_true⟩, fun j hj => ?_⟩
    cases hj
    rw [List.length_append]
    exact Nat.lt_succ_self _
  | wgIdle hp ha =>
    exact ⟨⟨[], (List.append_nil _).symm⟩, .inl ⟨rfl, fun h => absurd h Bool.false_ne_true⟩, fun j hj => by cases hj⟩
  | protocol => exact hsame rfl rfl fun j => by cases protocol <;> exact fun h => by cases h
  | wgStep pc pc' w as hf hstep =>
    have hmove := connectStep_move hstep
    refine ⟨⟨[], by rw [hmove.jobs_eq, List.append_nil]⟩, ?_, fun j hj => by cases hj⟩
    rcases hmove.gate with ⟨-, -, hin, hmutex⟩ | ⟨-, hin, hmutex, -⟩ | ⟨-, -, hmutex⟩
    · exact .inr (.inl ⟨hmutex, hin⟩)
    · exact .inl ⟨hmutex, fun _ => hin⟩
    · exact .inr (.inr hmutex)
  | _ => exact hsame rfl rfl fun j h => by cases h

/-- Whoever holds the lock is inside the gate, and a DOWN job that a call waits for was started. -/
structure Holds (s : App) : Prop where
  call : ∀ i, s.wg.stateMutex = some (.call i) → ∃ c, s.calls[i]? = some c ∧ c.pc.inside = true
  job : ∀ j, s.wg.stateMutex = some (.job j) → ∃ t, s.wg.jobs[j]? = some ⟨t, .down⟩
  awaited : ∀ c ∈ s.calls, ∀ j, c.pc = .awaitDown j → j < s.wg.jobs.length

section Holds

variable {D : Stores} {s s' : App}

theorem getElem?_grown {α : Type} {l new : List α} {i : Nat} {a : α} (h : l[i]? = some a) :
    (l ++ new)[i]? = some a := by
  rw [List.getElem?_append_left (List.getElem?_eq_some_iff.1 h).1, h]

/-- A step that leaves the lock alone, and the calls and the jobs, to which it may add some. -/
theorem Holds.keep (h : Holds s) (hmutex : s'.wg.stateMutex = s.wg.stateMutex) {newCalls : List Call}
    (hcalls : s'.calls = s.calls ++ newCalls) (hnew : ∀ c ∈ newCalls, ∀ j, c.pc ≠ .awaitDown j)
    {newJobs : List DownJob} (hjobs : s'.wg.jobs = s.wg.jobs ++ newJobs) : Holds s' where
  call i hi := by
    obtain ⟨c, hc, hin⟩ := h.call i (hmutex ▸ hi)
    exact ⟨c, hcalls ▸ getElem?_grown hc, hin⟩
  job j hj := by
    obtain ⟨t, ht⟩ := h.job j (hmutex ▸ hj)
    exact ⟨t, hjobs ▸ getElem?_grown ht⟩
  awaited c hc j hj := by
    rw [hcalls] at hc
    rw [hjobs, List.length_append]
    rcases List.mem_append.mp hc with hc | hc
    · exact Nat.lt_add_right _ (h.awaited c hc j hj)
    · exact absurd hj (hnew c hc j)

/-- A step of a call. -/
theorem Holds.callMove (h : Holds s) {i : Nat} {c : Call} {r : App} {pc : Pc} {inp : Input} {es : List Effect}
    (hi : s.calls[i]? = some c) (hmove : CallMove D s i c.uuid c.protocol inp c.pc r pc es)
    (hwg : s'.wg = r.wg) (hcalls : s'.calls = s.calls.set i { c with pc := pc }) : Holds s' := by
  obtain ⟨⟨new, hjobs⟩, hgate, hawaits⟩ := hmove.gate
  have hself : s'.calls[i]? = some { c with pc := pc } := by
    rw [hcalls, List.getElem?_set_self (List.getElem?_eq_some_iff.1 hi).1]
  have hother : ∀ {k : Nat} {d : Call}, k ≠ i → s.calls[k]? = some d → s'.calls[k]? = some d := by
    intro k d hk hd
    rw [hcalls, List.getElem?_set_ne hk.symm, hd]
  refine ⟨fun k hk => ?_, fun j hj => ?_, fun d hd j hj => ?_⟩
  · rw [hwg] at hk
    rcases hgate with ⟨hsame, hin⟩ | ⟨hlocked, hin⟩ | hnone
    · obtain ⟨d, hd, hinside⟩ := h.call k (hsame ▸ hk)
      by_cases hki : k = i
      · subst hki
        obtain rfl := Option.some.inj (hi.symm.trans hd)
        exact ⟨_, hself, hin hinside⟩
      · exact ⟨d, hother hki hd, hinside⟩
    · obtain rfl := Owner.call.inj (Option.some.inj (hlocked.symm.trans hk))
      exact ⟨_, hself, hin⟩
    · cases hnone.symm.trans hk
  · rw [hwg] at hj
    rcases hgate with ⟨hsame, -⟩ | ⟨hlocked, -⟩ | hnone
    · obtain ⟨t, ht⟩ := h.job j (hsame ▸ hj)
      exact ⟨t, by rw [hwg, hjobs]; exact getElem?_grown ht⟩
    · cases hlocked.symm.trans hj
    · cases hnone.symm.trans hj
  · rw [hcalls] at hd
    rw [hwg]
    rcases List.mem_or_eq_of_mem_set hd with hm | rfl
    · rw [hjobs, List.length_append]
      exact Nat.lt_add_right _ (h.awaited d hm j hj)
    · exact hawaits j hj

/-- A step of a DOWN job. -/
theorem Holds.jobMove (h : Holds s) {j : Nat} {w : WireGuardEngine} {inp : WgInput} {as : List Action}
    (hmove : JobMove s.wg j inp w as) (hwg : s'.wg = w) (hcalls : s'.calls = s.calls) : Holds s' := by
  have hset : ∀ {t : WgTunnel} {pc pc' : JobPc}, s.wg.jobs[j]? = some ⟨t, pc⟩ →
      (s.wg.jobs.set j ⟨t, pc'⟩)[j]? = some ⟨t, pc'⟩ := fun ht =>
    List.getElem?_set_self (List.getElem?_eq_some_iff.1 ht).1
  rcases hmove.gate with ⟨t, ht, -, hjobs, hmutex, -⟩ | ⟨t, ht, hjobs, hmutex, -⟩
  · refine ⟨fun i hi => ?_, fun k hk => ?_, fun c hc k hk => ?_⟩
    · rw [hwg, hmutex] at hi
      cases hi
    · rw [hwg, hmutex] at hk
      obtain rfl := Owner.job.inj (Option.some.inj hk)
      exact ⟨t, by rw [hwg, hjobs]; exact hset ht⟩
    · rw [hwg, hjobs, List.length_set]
      exact h.awaited c (hcalls ▸ hc) k hk
  · refine ⟨fun i hi => ?_, fun k hk => ?_, fun c hc k hk => ?_⟩
    · rw [hwg, hmutex] at hi
      cases hi
    · rw [hwg, hmutex] at hk
      cases hk
    · rw [hwg, hjobs, List.length_set]
      exact h.awaited c (hcalls ▸ hc) k hk

theorem holds_start : Holds {} where
  call i hi := by cases hi
  job j hj := by cases hj
  awaited c hc := absurd hc List.not_mem_nil

/-- **The step lemma.** -/
theorem Holds.stepped (h : Holds s) {l : Label} (hstep : silent (App.step D) s l = some s') : Holds s' := by
  obtain ⟨es, hes⟩ := silent_some hstep
  obtain ⟨r, hc, rfl, -⟩ := step_control hes
  have hkeep : r.wg.stateMutex = s.wg.stateMutex → r.calls = s.calls →
      (∃ new, r.wg.jobs = s.wg.jobs ++ new) → Holds (r.apply es) := by
    rintro hmutex hcalls ⟨new, hjobs⟩
    have hsame : (r.apply es).calls = s.calls ++ [] := by
      rw [List.append_nil]
      exact hcalls
    exact h.keep hmutex hsame (fun c hc => absurd hc List.not_mem_nil) hjobs
  have hnone : ∀ {w : WireGuardEngine}, w.jobs = s.wg.jobs → ∃ new, w.jobs = s.wg.jobs ++ new :=
    fun hjobs => ⟨[], hjobs.trans (List.append_nil _).symm⟩
  cases l with
  | connect uuid =>
    obtain ⟨rfl, rfl⟩ := hc
    have hnew : ∀ c ∈ [(⟨uuid, D.protocolOf uuid, .stopOpenVpn⟩ : Call)], ∀ j, c.pc ≠ .awaitDown j := by
      intro c hc j
      obtain rfl := List.mem_singleton.mp hc
      exact fun h => by cases h
    exact h.keep rfl rfl hnew (List.append_nil _).symm
  | disconnect now =>
    have hr : (s.stopActive now).1 = r := congrArg Prod.fst (Option.some.inj hc)
    refine hkeep ?_ (control_calls hc (fun i inp e => by cases e) fun u e => by cases e) ?_ <;> subst hr <;>
      unfold App.stopActive
    · cases s.vpn.activeProtocol with
      | openvpn => dsimp only; split <;> rfl
      | wireguard =>
        unfold WireGuardEngine.disconnectAsync WireGuardEngine.launchDown
        dsimp only
        split <;> rfl
      | _ => rfl
    · cases s.vpn.activeProtocol with
      | openvpn => dsimp only; split <;> exact hnone rfl
      | wireguard =>
        unfold WireGuardEngine.disconnectAsync WireGuardEngine.launchDown
        dsimp only
        split
        · exact ⟨_, rfl⟩
        · exact hnone rfl
      | _ => exact hnone rfl
  | call i inp =>
    obtain ⟨c, r, pc, hi, hmove, rfl⟩ := control_call hc
    exact h.callMove hi hmove rfl rfl
  | job j inp =>
    obtain ⟨w, as, hmove, rfl, -⟩ := control_job hc
    exact h.jobMove hmove rfl rfl
  | onDestroy now =>
    obtain ⟨rfl, rfl⟩ := hc
    rcases onDestroy_cases s.wg now with ⟨-, hdestroyed⟩ | ⟨-, hdestroyed⟩
    · exact hkeep (by rw [hdestroyed]) rfl (hnone (by rw [hdestroyed]))
    · exact hkeep (by rw [hdestroyed]) rfl (hnone (by rw [hdestroyed]))
  | pollDown now =>
    obtain ⟨t, -, -, rfl, -⟩ := control_pollDown hc
    exact hkeep rfl rfl (hnone rfl)
  | callback session a =>
    simp only [App.control] at hc
    split at hc
    · obtain ⟨rfl, rfl⟩ := hc
      exact hkeep rfl rfl (hnone rfl)
    · cases hc
  | xray session ev now =>
    obtain ⟨rfl, rfl⟩ := hc
    exact hkeep rfl rfl (hnone rfl)
  | serviceConnected =>
    have hr : s.onServiceConnected.1 = r := congrArg Prod.fst (Option.some.inj hc)
    have hsame : s.onServiceConnected.1.wg = s.wg ∧ s.onServiceConnected.1.calls = s.calls := by
      unfold App.onServiceConnected
      split <;> exact ⟨rfl, rfl⟩
    exact hkeep (by rw [← hr, hsame.1]) (by rw [← hr, hsame.2]) (hnone (by rw [← hr, hsame.1]))
  | serviceDisconnected =>
    obtain ⟨rfl, rfl⟩ := hc
    exact hkeep rfl rfl (hnone rfl)
  | stopVpn k =>
    simp only [App.control] at hc
    split at hc
    · obtain ⟨rfl, rfl⟩ := hc
      exact hkeep rfl rfl (hnone rfl)
    · cases hc

/-! ## 3. Some step can always be made -/

/-- The steps of the calls and of the DOWN jobs. -/
def Label.works : Label → Bool
  | .call _ _ | .job _ _ => true
  | _ => false

/-- The points at which a call may have to wait. -/
def Pc.waits : Pc → Bool
  | .awaitDown _ | .wgConnect .lock | .wgConnect (.delay _) | .returned _ => true
  | _ => false

theorem step_isSome {l : Label} (h : (s.control D l).isSome = true) : (silent (App.step D) s l).isSome = true := by
  obtain ⟨r, hr⟩ := Option.isSome_iff_exists.1 h
  unfold silent App.step
  rw [hr]
  rfl

/-- A call that need not wait makes a step. -/
theorem call_moves {i : Nat} {c : Call} {inp : Input} (hi : s.calls[i]? = some c)
    (hmoves : (s.callStep D i c.uuid c.protocol inp c.pc).isSome = true) :
    (silent (App.step D) s (.call i inp)).isSome = true := by
  refine step_isSome ?_
  obtain ⟨r, hr⟩ := Option.isSome_iff_exists.1 hmoves
  unfold App.control
  dsimp only
  rw [hi]
  dsimp only
  rw [hr]
  rfl

theorem connectStep_isSome {w : WireGuardEngine} {i : Nat} {u : Uuid} {inp : WgInput} {pc : WgPc}
    (hlock : pc = .lock → w.stateMutex = none) (hdelay : ∀ wake, pc = .delay wake → wake ≤ inp.now)
    (hdone : pc.finished = false) : (w.connectStep D i u inp pc).isSome = true := by
  unfold WireGuardEngine.connectStep
  cases pc with
  | lock =>
    dsimp only
    rw [if_pos (hlock rfl)]
    rfl
  | delay wake =>
    dsimp only
    rw [if_pos (hdelay wake rfl)]
    rfl
  | done e => cases hdone
  | read =>
    dsimp only
    split
    · rfl
    · split <;> rfl
  | preTeardown =>
    dsimp only
    split <;> rfl
  | settle =>
    dsimp only
    split <;> rfl
  | up t =>
    dsimp only
    split <;> rfl
  | _ => rfl

theorem callStep_isSome {i : Nat} {u : Uuid} {p : Protocol} {inp : Input} {pc : Pc}
    (hawait : ∀ j, pc = .awaitDown j → s.wg.jobs[j]?.any (·.pc = .done) = true)
    (hlock : pc = .wgConnect .lock → s.wg.stateMutex = none)
    (hdelay : ∀ wake, pc = .wgConnect (.delay wake) → wake ≤ inp.now) (hdone : ∀ ok, pc ≠ .returned ok) :
    (s.callStep D i u p inp pc).isSome = true := by
  unfold App.callStep
  cases pc with
  | awaitDown j =>
    dsimp only
    rw [if_pos (hawait j rfl)]
    rfl
  | returned ok => exact absurd rfl (hdone ok)
  | wgConnect pc =>
    have hstep : pc.finished = false → (s.wg.connectStep D i u inp.toWgInput pc).isSome = true :=
      connectStep_isSome (fun h => hlock (congrArg _ h)) fun wake h => hdelay wake (congrArg _ h)
    cases pc with
    | done e => cases e <;> rfl
    | _ =>
      obtain ⟨⟨w, pc', as⟩, hr⟩ := Option.isSome_iff_exists.1 (hstep rfl)
      dsimp only
      rw [hr]
      rfl
  | stopWireGuard =>
    dsimp only
    split
    · split <;> rfl
    · rfl
  | stopOpenVpn | stopIkev2 | stopXray | ovpnProfile | ovpnStart | xrayStart | ikeProfile =>
    dsimp only
    split <;> rfl
  | _ => rfl

/-- A DOWN job that has the lock, or can have it, makes a step. -/
theorem job_moves {j : Nat} {t : WgTunnel} {pc : JobPc} (hj : s.wg.jobs[j]? = some ⟨t, pc⟩)
    (hlock : pc = .lock → s.wg.stateMutex = none) (hdone : pc ≠ .done) :
    (silent (App.step D) s (.job j {})).isSome = true := by
  refine step_isSome ?_
  unfold App.control WireGuardEngine.jobStep
  dsimp only
  rw [hj]
  cases pc with
  | lock =>
    dsimp only
    rw [if_pos (hlock rfl)]
    rfl
  | down => rfl
  | done => exact absurd rfl hdone

/-- A step of a DOWN job, or of a call of which `P` holds. -/
def Moves (D : Stores) (s : App) (P : Nat → Call → Prop) : Prop :=
  (∃ j, (silent (App.step D) s (.job j {})).isSome = true) ∨
    ∃ i c inp, s.calls[i]? = some c ∧ P i c ∧ (silent (App.step D) s (.call i inp)).isSome = true

/-- Whoever holds the lock can go on, at the latest when its settle delay is over. -/
theorem Holds.holder_moves (h : Holds s) {o : Owner} (ho : s.wg.stateMutex = some o) :
    Moves D s fun _ c => c.pc.inside = true := by
  cases o with
  | call i =>
    obtain ⟨c, hc, hin⟩ := h.call i ho
    obtain ⟨u, p, pc⟩ := c
    have hmoves : ∀ inp : Input, (∀ wake, pc = .wgConnect (.delay wake) → wake ≤ inp.now) →
        Moves D s fun _ c => c.pc.inside = true := by
      intro inp hdelay
      refine .inr ⟨i, _, inp, hc, hin, call_moves hc (callStep_isSome (fun j hj => ?_) (fun hj => ?_) hdelay
        fun ok hj => ?_)⟩ <;>
        · dsimp only at hin hj
          rw [hj] at hin
          cases hin
    by_cases hwake : ∃ wake, pc = .wgConnect (.delay wake)
    · obtain ⟨wake, rfl⟩ := hwake
      refine hmoves { now := wake } fun wake' he => ?_
      cases he
      exact le_refl _
    · exact hmoves {} fun wake he => absurd ⟨wake, he⟩ hwake
  | job j =>
    obtain ⟨t, ht⟩ := h.job j ho
    exact .inl ⟨j, job_moves ht (fun he => by cases he) fun he => by cases he⟩

/-- **As long as a call has not returned, it, the one that holds the lock, or a DOWN job can make a
    step.** -/
theorem Holds.moves (h : Holds s) {i : Nat} {c : Call} (hi : s.calls[i]? = some c)
    (hopen : c.finished = false) : Moves D s fun k d => k = i ∨ d.pc.inside = true := by
  have hc := List.mem_of_getElem? hi
  obtain ⟨u, p, pc⟩ := c
  cases hmutex : s.wg.stateMutex with
  | some o =>
    rcases h.holder_moves (D := D) hmutex with hjob | ⟨k, d, inp, hk, hin, hmoves⟩
    · exact .inl hjob
    · exact .inr ⟨k, d, inp, hk, .inr hin, hmoves⟩
  | none =>
    have hdone : ∀ ok, pc ≠ .returned ok := by
      rintro ok rfl
      cases hopen
    have hmoves : ∀ inp : Input, (∀ j, pc = .awaitDown j → s.wg.jobs[j]?.any (·.pc = .done) = true) →
        (∀ wake, pc = .wgConnect (.delay wake) → wake ≤ inp.now) →
        Moves D s fun k d => k = i ∨ d.pc.inside = true := fun inp hawait hdelay =>
      .inr ⟨i, _, inp, hi, .inl rfl, call_moves hi (callStep_isSome hawait (fun _ => hmutex) hdelay hdone)⟩
    by_cases hawait : ∃ j, pc = .awaitDown j
    · obtain ⟨j, rfl⟩ := hawait
      have hlt := h.awaited _ hc j rfl
      obtain ⟨job, hjob⟩ : ∃ job, s.wg.jobs[j]? = some job := ⟨_, List.getElem?_eq_getElem hlt⟩
      by_cases hended : job.pc = .done
      · refine hmoves {} (fun k hk => ?_) fun wake he => by cases he
        cases hk
        rw [hjob, Option.any_some, hended]
        rfl
      · exact .inl ⟨j, job_moves hjob (fun _ => hmutex) hended⟩
    · by_cases hwake : ∃ wake, pc = .wgConnect (.delay wake)
      · obtain ⟨wake, rfl⟩ := hwake
        refine hmoves { now := wake } (fun j hj => by cases hj) fun wake' he => ?_
        cases he
        exact le_refl _
      · exact hmoves {} (fun j hj => absurd ⟨j, hj⟩ hawait) fun wake he => absurd ⟨wake, he⟩ hwake

/-! ## 4. They return -/

theorem sum_map_set {α : Type} (f : α → Nat) {l : List α} {i : Nat} {a b : α} (hi : l[i]? = some a) :
    ((l.set i b).map f).sum + f a = (l.map f).sum + f b := by
  induction l generalizing i with
  | nil => cases hi
  | cons x l ih =>
    cases i with
    | zero =>
      obtain rfl := Option.some.inj hi
      simp only [List.set_cons_zero, List.map_cons, List.sum_cons]
      omega
    | succ i =>
      have hrest := ih hi
      simp only [List.set_cons_succ, List.map_cons, List.sum_cons]
      omega

/-- **Each step of a call or of a DOWN job leaves less to do.** -/
theorem work_stepped {l : Label} (hl : l.works = true) (hstep : silent (App.step D) s l = some s') :
    s'.work < s.work := by
  obtain ⟨es, hes⟩ := silent_some hstep
  obtain ⟨r, hc, rfl, -⟩ := step_control hes
  cases l with
  | call i inp =>
    obtain ⟨c, r, pc, hi, hmove, rfl⟩ := control_call hc
    have hlow := hmove.steps
    have hsum := sum_map_set (fun c : Call => c.pc.steps) hi (b := { c with pc := pc })
    show ((s.calls.set i { c with pc := pc }).map (·.pc.steps)).sum + App.jobSteps r.wg < s.work
    unfold App.work
    dsimp only at hsum
    omega
  | job j inp =>
    obtain ⟨w, as, hmove, rfl, -⟩ := control_job hc
    show (s.calls.map (·.pc.steps)).sum + App.jobSteps w < s.work
    unfold App.work App.jobSteps
    rcases hmove.gate with ⟨t, ht, -, hjobs, -⟩ | ⟨t, ht, hjobs, -⟩
    · have hsum := sum_map_set (fun b : DownJob => b.pc.steps) ht (b := ⟨t, .down⟩)
      have hlow : JobPc.down.steps < JobPc.lock.steps := by decide
      dsimp only at hsum
      rw [hjobs]
      omega
    · have hsum := sum_map_set (fun b : DownJob => b.pc.steps) ht (b := ⟨t, .done⟩)
      have hlow : JobPc.done.steps < JobPc.down.steps := by decide
      dsimp only at hsum
      rw [hjobs]
      omega
  | _ => cases hl

end Holds

namespace Drivers

/-- The call is over: it has returned to the router, or to the poll loop that made it. -/
def ended (s : Drivers) (i : Nat) (c : Call) : Bool :=
  match c.pc with
  | .returned _ => true
  | .wgConnect pc => decide (i ∈ s.restarts) && pc.finished
  | _ => false

end Drivers

/-- The steps of the calls and of the DOWN jobs. -/
def DriverLabel.works : DriverLabel → Bool
  | .app l => l.works
  | _ => false

section Returns

variable {D : Stores} {s s' : Drivers}

/-- A poll loop leaves the lock and the DOWN jobs alone; a restart is a call at the lock. -/
theorem LoopMove.users {p p' : PollSystem} {k : Nat} {lp : PollLoop} {inp : PollInput} {as : List Action}
    (h : LoopMove p k lp inp p' as) :
    p'.eng.stateMutex = p.eng.stateMutex ∧ p'.eng.jobs = p.eng.jobs := by
  cases h <;> exact ⟨rfl, rfl⟩

/-- The drivers leave the holder of the lock where it is. -/
theorem Holds.driven (h : Holds s.app) {l : DriverLabel} (hstep : silent (Drivers.step D) s l = some s') :
    Holds s'.app := by
  obtain ⟨as, has⟩ := silent_some hstep
  have hkeep : ∀ {r : App}, r.wg = s.app.wg → r.calls = s.app.calls → Holds r := by
    intro r hwg hcalls
    have hsame : r.calls = s.app.calls ++ [] := by rw [hcalls, List.append_nil]
    have hjobs : r.wg.jobs = s.app.wg.jobs ++ [] := by rw [hwg, List.append_nil]
    exact h.keep (by rw [hwg]) hsame (fun c hc => absurd hc List.not_mem_nil) hjobs
  cases step_driverMove has with
  | app l r es hl ho hs =>
    refine h.stepped (D := D) (l := l) ?_
    unfold silent
    rw [hs]
  | loop k inp lp p as hk hm =>
    obtain ⟨hmutex, hjobs⟩ := (loopStep_move hm).users
    refine h.keep hmutex rfl (fun c hc j => ?_) (hjobs.trans (List.append_nil _).symm)
    obtain ⟨t, -, rfl⟩ := List.mem_map.mp hc
    exact fun he => by cases he
  | interruptCall k i lp rx tx c pc pc' hk hpc hi hc hpc' =>
    have hcalls : (s.throwAt i c pc').app.calls = s.app.calls.set i { c with pc := .wgConnect pc' } := rfl
    have hin : c.pc.inside = true → (Pc.wgConnect pc').inside = true := by
      rw [hc]
      rcases hpc' with ⟨rfl, rfl⟩ | ⟨wake, rfl, rfl⟩
      · exact fun hin => by cases hin
      · exact fun _ => rfl
    refine ⟨fun m hm => ?_, h.job, fun d hd j hj => ?_⟩
    · obtain ⟨d, hd, hinside⟩ := h.call m hm
      by_cases hmi : m = i
      · subst hmi
        obtain rfl := Option.some.inj (hi.symm.trans hd)
        exact ⟨_, List.getElem?_set_self (List.getElem?_eq_some_iff.1 hi).1, hin hinside⟩
      · exact ⟨d, by rw [hcalls, List.getElem?_set_ne (Ne.symm hmi), hd], hinside⟩
    · rw [hcalls] at hd
      rcases List.mem_or_eq_of_mem_set hd with hm | rfl
      · exact h.awaited d hm j hj
      · cases hj
  | handle c cs x hc hs =>
    have happ : x.app = s.app := hs.same.1.trans (started_eq { s.toXraySession with commands := cs }).1
    exact hkeep (congrArg App.wg happ) (congrArg App.calls happ)
  | handleForceStop x hs => exact hkeep (congrArg App.wg hs.same.1) (congrArg App.calls hs.same.1)
  | service k l x _ _ hs => exact hkeep (congrArg App.wg hs.same.1) (congrArg App.calls hs.same.1)
  | _ => exact hkeep rfl rfl

/-- **Each of their steps leaves less to do.** -/
theorem driven_work {l : DriverLabel} (hl : l.works = true) (hstep : silent (Drivers.step D) s l = some s') :
    s'.app.work < s.app.work := by
  obtain ⟨as, has⟩ := silent_some hstep
  cases step_driverMove has with
  | app l r es _ _ hs =>
    refine work_stepped (D := D) hl ?_
    unfold silent
    rw [hs]
  | _ => cases hl

theorem driver_isSome {l : Label} (hl : l.works = true) (ho : s.isOver l = false)
    (h : (silent (App.step D) s.app l).isSome = true) : (silent (Drivers.step D) s (.app l)).isSome = true := by
  have hui : l.isUi = true := by
    cases l <;> first | rfl | cases hl
  unfold silent at h ⊢
  unfold Drivers.step
  dsimp only
  rw [hui, ho, Bool.not_false, Bool.and_self, if_pos rfl]
  unfold Drivers.ui
  cases hs : s.app.step D l with
  | none =>
    rw [hs] at h
    cases h
  | some r => rfl

/-- **As long as a call is not over, some call or some DOWN job can make a step.** -/
theorem Holds.driven_moves (h : Holds s.app) {i : Nat} {c : Call} (hi : s.app.calls[i]? = some c)
    (hopen : s.ended i c = false) :
    ∃ l : DriverLabel, l.works = true ∧ (silent (Drivers.step D) s l).isSome = true := by
  have hcall : c.finished = false := by
    unfold Drivers.ended at hopen
    unfold Call.finished
    split at hopen
    · cases hopen
    · rename_i hpc
      rw [hpc]
    · rename_i hret _
      split
      · rename_i ok hpc
        exact absurd hpc (hret ok)
      · rfl
  rcases h.moves (D := D) hi hcall with ⟨j, hj⟩ | ⟨k, d, inp, hk, hd, hmoves⟩
  · exact ⟨.app (.job j {}), rfl, driver_isSome rfl rfl hj⟩
  · refine ⟨.app (.call k inp), rfl, driver_isSome rfl ?_ hmoves⟩
    unfold Drivers.isOver
    dsimp only
    rw [hk, Option.any_some]
    rcases hd with rfl | hin
    · obtain rfl := Option.some.inj (hi.symm.trans hk)
      unfold Drivers.ended at hopen
      split at hopen
      · cases hopen
      · rename_i hpc
        rw [hpc]
        exact hopen
      · rename_i hwg
        split
        · rename_i pc hpc
          exact absurd hpc (hwg pc)
        · exact Bool.and_false _
    · split
      · rename_i pc hpc
        rw [hpc] at hin
        cases pc <;> first | exact Bool.and_false _ | cases hin
      · exact Bool.and_false _

/-- **No connect call waits for good**: from every state that a run of the UI process and its drivers
    reaches, the calls that are not over, those of the watchdog among them, end by steps of calls and of DOWN
    jobs alone, no more of them than `work`; whichever of these steps are made, and in whatever order, they
    are no more than that, and until the last call is over there is one to make. -/
theorem connects_return {ls : List DriverLabel} (hrun : exec (silent (Drivers.step D)) {} ls = some s) :
    (∃ more s', (∀ l ∈ more, DriverLabel.works l = true) ∧
      exec (silent (Drivers.step D)) s more = some s' ∧ more.length ≤ s.app.work ∧
      ∀ i c, s'.app.calls[i]? = some c → s'.ended i c = true) ∧
    ∀ more s', (∀ l ∈ more, DriverLabel.works l = true) →
      exec (silent (Drivers.step D)) s more = some s' →
      more.length + s'.app.work ≤ s.app.work ∧
      ∀ i c, s'.app.calls[i]? = some c → s'.ended i c = false →
        ∃ l, DriverLabel.works l = true ∧ (silent (Drivers.step D) s' l).isSome = true := by
  have hholds : Holds s.app :=
    exec_inv' (I := fun s : Drivers => Holds s.app) (fun _ _ _ h hstep => h.driven hstep) holds_start hrun
  have hstepped : ∀ (s : Drivers) l s', Holds s.app → DriverLabel.works l = true →
      silent (Drivers.step D) s l = some s' → Holds s'.app ∧ s'.app.work < s.app.work :=
    fun s l s' h hl hstep => ⟨h.driven hstep, driven_work hl hstep⟩
  have hmoves : ∀ s : Drivers, Holds s.app →
      ¬ (∀ i c, s.app.calls[i]? = some c → s.ended i c = true) →
      ∃ l, DriverLabel.works l = true ∧ (silent (Drivers.step D) s l).isSome = true := by
    intro s h hcalls
    simp only [not_forall, Bool.not_eq_true] at hcalls
    obtain ⟨i, c, hi, hopen⟩ := hcalls
    exact h.driven_moves hi hopen
  refine ⟨exec_rests hstepped hmoves hholds, fun more s' hmore hexec => ⟨?_, fun i c hi hopen => ?_⟩⟩
  · have hone : more.countP (fun _ => true) = more.length := by simp
    have hnone : more.countP (fun _ => false) = 0 := by simp
    have hpays := exec_pays (f := fun s : Drivers => s.app.work) (w := fun _ => true) (g := fun _ => false)
      (fun s l s' (_ : True) (hl : DriverLabel.works l = true) hstep => ⟨trivial, driven_work hl hstep⟩) trivial
      (along_of_forall hmore) hexec
    rw [hone, hnone] at hpays
    omega
  · have hreached : Holds s'.app :=
      exec_inv' (I := fun s : Drivers => Holds s.app) (fun _ _ _ h hstep => h.driven hstep) hholds hexec
    exact hreached.driven_moves hi hopen

/-- A turn of the poll loop in which nothing has come back and `tx` bytes are out. -/
def silentTurn (tx : Int) : List DriverLabel :=
  [.loop 0 {}, .loop 0 { stats := some (100, tx) }, .loop 0 {}, .loop 0 {}, .loop 0 {}, .loop 0 { now := 2000 }]

/-- A WireGuard session whose watchdog starts a restart, and a second profile that is connected besides. -/
def stalledSession : List DriverLabel :=
  DriverLabel.app (.connect "wg1") :: List.replicate 18 (DriverLabel.app (.call 0 {})) ++
    ((List.range 8).flatMap fun n => silentTurn n) ++ (silentTurn 8).take 3 ++ [DriverLabel.app (.connect "wg2")]

theorem connects_return_stalled :
    ∃ s, exec (silent (Drivers.step sampleStores)) {} stalledSession = some s ∧ s.restarts = [1] ∧
    ∃ more s', (∀ l ∈ more, DriverLabel.works l = true) ∧
      exec (silent (Drivers.step sampleStores)) s more = some s' ∧ more.length ≤ 35 ∧
      ∀ i c, s'.app.calls[i]? = some c → s'.ended i c = true := by
  obtain ⟨s, hrun, hrestarts, hwork⟩ :
      ∃ s, exec (silent (Drivers.step sampleStores)) {} stalledSession = some s ∧ s.restarts = [1] ∧
        s.app.work = 35 := ⟨_, rfl, rfl, rfl⟩
  exact ⟨s, hrun, hrestarts, hwork ▸ (connects_return hrun).1⟩

end Returns

end SwiftVpn
