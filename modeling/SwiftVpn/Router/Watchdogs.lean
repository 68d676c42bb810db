/-
  File:      SwiftVpn/Router/Watchdogs.lean
  Subject:   NO FALSE STALL: neither watchdog restarts a tunnel that is idle or receives anything.

  * `polledStep` -- the Xray service under a monitor that keeps the polls of every coroutine;
  * `DeadFor`, `dead_of_stall` -- `autoRestart` ends eight polls with nothing from the proxy and
    something from the apps;
  * `no_false_stall` -- the same for the poll loops of WireGuard and of Xray.

  Both loops count in `silentSeconds`, a local of the loop: the WireGuard loop counts samples against
  its baseline, the one of Xray counters that every poll resets.
-/
import SwiftVpn.WireGuard.Samples
import SwiftVpn.Xray.Stalls

namespace SwiftVpn

open Machine

/-! ## 1. The polls of the Xray service -/

/-- The polls of every coroutine, the last one first: the proxy's downlink and the uplink of the
    tun. -/
def XrayVpnService.notePolls (s : XrayVpnService) (l : XrayLabel) (m : Nat → List (Int × Int)) :
    Nat → List (Int × Int) :=
  match l with
  | .job j inp =>
    match s.pcs[j]? with
    | some (.pollBody _) => Function.update m j ((inp.down, inp.tunUp) :: m j)
    | _ => m
  | _ => m

/-- The service under the monitor. -/
def polledStep (D : Stores) : XrayVpnService × (Nat → List (Int × Int)) → XrayLabel →
    Option (XrayVpnService × (Nat → List (Int × Int))) :=
  observed (XrayVpnService.step D) fun s l _ m => s.notePolls l m

/-- Nothing came back at any of the last `n` polls, while the apps were sending. -/
def DeadFor (n : Nat) (polls : List (Int × Int)) : Prop :=
  ∀ i < n, ∃ p, polls[i]? = some p ∧ p.1 = 0 ∧ p.2 > 0

theorem deadFor_zero (polls : List (Int × Int)) : DeadFor 0 polls := nofun

theorem DeadFor.le {n n' : Nat} {polls : List (Int × Int)} (h : DeadFor n polls) (hle : n' ≤ n) :
    DeadFor n' polls := fun i hi => h i (Nat.lt_of_lt_of_le hi hle)

theorem DeadFor.cons {n : Nat} {p : Int × Int} {polls : List (Int × Int)} (h : DeadFor n polls)
    (hdown : p.1 = 0) (hup : p.2 > 0) : DeadFor (n + 1) (p :: polls) := by
  intro i hi
  cases i with
  | zero => exact ⟨p, rfl, hdown, hup⟩
  | succ i => exact h i (Nat.lt_of_succ_lt_succ hi)

/-- The silent polls a loop has behind it; `autoRestart` is called at the eighth. -/
def XrayPc.silentSeconds : XrayPc → Nat
  | .pollHead n | .pollBody n | .bytes n _ _ | .delay n => n
  | .stall _ _ => 8
  | _ => 0

/-- What every loop has counted, it has polled. -/
def Polled (x : XrayVpnService × (Nat → List (Int × Int))) : Prop :=
  ∀ j pc, x.1.pcs[j]? = some pc → DeadFor pc.silentSeconds (x.2 j)

section Polls

variable {D : Stores} {s s' : XrayVpnService}

/-- Only a poll counts up. -/
theorem XrayMove.silentSeconds {inp : XrayInput} {pc pc' : XrayPc} {es : List XrayEffect}
    (h : XrayMove D s inp pc s' pc' es) (hpc : ∀ n, pc ≠ .pollBody n) :
    pc'.silentSeconds ≤ pc.silentSeconds := by
  cases h with
  | silent n | stalled n | alive n => exact absurd rfl (hpc n)
  | pollHead n | bytes n | delay n => exact Nat.le_refl _
  | _ => exact Nat.zero_le _

/-- A coroutine that has just been launched has counted nothing. -/
theorem silentSeconds_launched {pc p : XrayPc} (h : p ∈ pc.launched s) : p.silentSeconds = 0 := by
  rcases mem_launched h with rfl | rfl | rfl <;> rfl

/-- The eighth poll is the one that stalls. -/
theorem eight_of_stall {j n : Nat} {inp : XrayInput} {es : List XrayEffect} {down up : Int}
    (h : s.step D (.job j inp) = some (s', es)) (hj : s.pcs[j]? = some (.pollBody n))
    (hs : s'.pcs[j]? = some (.stall down up)) : n + 1 = 8 := by
  rw [XrayVpnService.pcs, List.getElem?_map] at hj hs
  obtain ⟨job, hjob, hpc⟩ := Option.map_eq_some_iff.mp hj
  by_contra h8
  have hnext : ∀ pc, s'.jobs = s.jobs.modify j (fun job => { job with pc := pc }) →
      pc = .stall down up := by
    intro pc hjobs
    rw [hjobs, List.getElem?_modify_eq, hjob] at hs
    exact Option.some.inj hs
  by_cases hd : inp.down = 0 ∧ inp.tunUp > 0
  · simp only [XrayVpnService.step, hjob, hpc, XrayVpnService.jobStep, if_pos hd, if_neg h8] at h
    obtain ⟨rfl, -⟩ := Prod.mk.inj (Option.some.inj h)
    cases hnext _ rfl
  · simp only [XrayVpnService.step, hjob, hpc, XrayVpnService.jobStep, if_neg hd] at h
    obtain ⟨rfl, -⟩ := Prod.mk.inj (Option.some.inj h)
    cases hnext _ rfl

/-- What is kept of a poll. -/
theorem notePolls_poll {j n : Nat} (hj : s.pcs[j]? = some (.pollBody n)) (inp : XrayInput)
    (m : Nat → List (Int × Int)) :
    s.notePolls (.job j inp) m = Function.update m j ((inp.down, inp.tunUp) :: m j) := by
  simp only [XrayVpnService.notePolls, hj]

/-- Of any other step nothing is kept. -/
theorem notePolls_rest {j : Nat} {pc : XrayPc} (hj : s.pcs[j]? = some pc)
    (hpc : ∀ n, pc ≠ .pollBody n) (inp : XrayInput) (m : Nat → List (Int × Int)) :
    s.notePolls (.job j inp) m = m := by
  simp only [XrayVpnService.notePolls, hj]
  split
  · rename_i n hn
    exact absurd (Option.some.inj hn) (hpc n)
  · rfl

/-- A step of the coroutine `j` keeps what it has counted, and what the others have. -/
theorem polled_own {j : Nat} {inp : XrayInput} {es : List XrayEffect} {pc pc' : XrayPc}
    {r : XrayVpnService} {m : Nat → List (Int × Int)} (I : DeadFor pc.silentSeconds (m j))
    (h : s.step D (.job j inp) = some (s', es)) (hj : s.pcs[j]? = some pc)
    (hj' : s'.pcs[j]? = some pc') (hmove : XrayMove D s inp pc r pc' es) :
    DeadFor pc'.silentSeconds (s.notePolls (.job j inp) m j) ∧
      ∀ k, k ≠ j → s.notePolls (.job j inp) m k = m k := by
  by_cases hpc : ∃ n, pc = .pollBody n
  · obtain ⟨n, rfl⟩ := hpc
    rw [notePolls_poll hj, Function.update_self]
    refine ⟨?_, fun k hk => Function.update_of_ne hk _ _⟩
    cases hmove with
    | silent _ tin tout hd => exact I.cons hd.1 hd.2
    | stalled _ tin tout hd =>
      have h8 : n + 1 = 8 := eight_of_stall h hj hj'
      have hdead := I.cons (p := (inp.down, inp.tunUp)) hd.1 hd.2
      exact hdead.le (Nat.le_of_eq h8.symm)
    | alive => exact deadFor_zero _
  · have hpc : ∀ n, pc ≠ .pollBody n := fun n hn => hpc ⟨n, hn⟩
    rw [notePolls_rest hj hpc]
    exact ⟨I.le (hmove.silentSeconds hpc), fun _ _ => rfl⟩

/-- One step of the service keeps what its coroutines have counted. -/
theorem polled_step (x : XrayVpnService × (Nat → List (Int × Int))) (l : XrayLabel)
    (x' : XrayVpnService × (Nat → List (Int × Int))) (I : Polled x)
    (h : polledStep D x l = some x') : Polled x' := by
  obtain ⟨s, m⟩ := x
  obtain ⟨s', m'⟩ := x'
  obtain ⟨es, hs, hm⟩ := observed_some h
  dsimp only at hs hm
  have I : ∀ j pc, s.pcs[j]? = some pc → DeadFor pc.silentSeconds (m j) := I
  have hadded : ∀ ps : List XrayPc, (∀ p ∈ ps, p.silentSeconds = 0) → ∀ j pc,
      (s.pcs ++ ps)[j]? = some pc → DeadFor pc.silentSeconds (m j) := by
    intro ps hps j pc hj
    rw [List.getElem?_append] at hj
    split at hj
    · exact I j pc hj
    · rw [hps pc (List.mem_of_getElem? hj)]
      exact deadFor_zero _
  intro j pc hj
  show DeadFor pc.silentSeconds (m' j)
  have hj : s'.pcs[j]? = some pc := hj
  rw [hm]
  cases step_turn hs with
  | start uuid hd =>
    refine hadded [.start] (fun p hp => List.mem_singleton.mp hp ▸ rfl) j pc ?_
    simpa [XrayVpnService.pcs, XrayVpnService.bringUp] using hj
  | stop | onRevoke | forceStop =>
    rw [cleanup_pcs] at hj
    exact I j pc hj
  | released =>
    have hj : s.cleanup.pcs[j]? = some pc := hj
    rw [cleanup_pcs] at hj
    exact I j pc hj
  | idle | unheard => exact I j pc hj
  | emitStatus line k =>
    refine hadded [.emit line] (fun p hp => List.mem_singleton.mp hp ▸ rfl) j pc ?_
    simpa [XrayVpnService.pcs] using hj
  | job k inp pc₀ pc' r _ _ hk hmove hr hpcs =>
    have hlt : k < s.pcs.length := (List.getElem?_eq_some_iff.mp hk).1
    have hk' : s'.pcs[k]? = some pc' := by
      rw [hpcs]
      exact List.getElem?_set_self (by rw [List.length_append]; omega)
    obtain ⟨hown, hother⟩ := polled_own (I k pc₀ hk) hs hk hk' hmove
    by_cases hjk : j = k
    · subst hjk
      obtain rfl := Option.some.inj (hj.symm.trans hk')
      exact hown
    · rw [hother j hjk]
      rw [hpcs, List.getElem?_set_ne (Ne.symm hjk)] at hj
      exact hadded _ (fun p hp => silentSeconds_launched hp) j pc hj

/-- **A stall ends eight dead polls**: a loop that calls `autoRestart` has got nothing from the proxy at
    its last eight polls, and the apps were sending at each. -/
theorem dead_of_stall {ls : List XrayLabel} {m : Nat → List (Int × Int)}
    (h : exec (polledStep D) ({}, fun _ => []) ls = some (s, m)) {j : Nat} {down up : Int}
    (hj : s.pcs[j]? = some (.stall down up)) : DeadFor 8 (m j) := by
  have h₀ : Polled (({} : XrayVpnService), fun _ => []) := nofun
  exact exec_inv' polled_step h₀ h j _ hj

end Polls

/-! ## 2. Both watchdogs -/

/-- **No false stall**: the WireGuard loop calls `connect` only at a sample that ends eight, each with
    the receive total of the one before it and a greater transmit total; the loop of the Xray service
    calls `autoRestart` (its step at `stall`) only at a poll that ends eight with nothing from the
    proxy and something from the apps. -/
theorem no_false_stall (D : Stores) :
    (∀ (ls : List PollLabel) (s s' : PollSystem) (m : Nat → LoopLog) (l : PollLabel)
      (as : List Action), exec (loggedStep D) unlogged ls = some (s, m) →
      s.step D l = some (s', as) → s.restarts < s'.restarts →
      ∃ k inp lp rx tx rest, l = .loop k inp ∧ s.loops[k]? = some lp ∧ lp.pc = .watch rx tx ∧
        (m k).samples = (rx, tx) :: rest ∧ SilentFor 8 (m k).samples) ∧
    (∀ (ls : List XrayLabel) (s : XrayVpnService) (m : Nat → List (Int × Int)) (j : Nat)
      (down up : Int), exec (polledStep D) ({}, fun _ => []) ls = some (s, m) →
      s.pcs[j]? = some (.stall down up) → DeadFor 8 (m j)) :=
  ⟨fun _ _ _ _ _ _ h hs hr => silent_of_restart h hs hr, fun _ _ _ _ _ _ h hj => dead_of_stall h hj⟩

/-- A tunnel comes up and stalls; the next step of its loop is the restart. -/
def stallNow : List PollLabel :=
  PollLabel.connect "wg1" :: List.replicate 9 (PollLabel.call 0 { now := 1000 }) ++ (stall 0 1).dropLast

set_option maxRecDepth 4000 in
theorem no_false_stall_once :
    (∃ s s' m as, exec (loggedStep sampleStores) unlogged stallNow = some (s, m) ∧
      s.step sampleStores (.loop 0 { now := 18000, stats := some (0, 9) }) = some (s', as) ∧
      s.restarts < s'.restarts ∧ SilentFor 8 (m 0).samples) ∧
    ∃ s m, exec (polledStep sampleStores) ({}, fun _ => []) (.start (some "xray1") ::
        (comeUp 0 40 ++ (List.replicate 7 (deadPoll 1 1)).flatten ++
          List.replicate 2 (.job 1 { tunUp := 1 }))) = some (s, m) ∧
      s.pcs[1]? = some (.stall 0 0) ∧ DeadFor 8 (m 1) := by
  constructor
  · have hrun : ∃ s m, exec (loggedStep sampleStores) unlogged stallNow = some (s, m) ∧
        ∃ s' as, s.step sampleStores (.loop 0 { now := 18000, stats := some (0, 9) }) =
          some (s', as) ∧ s.restarts < s'.restarts := by
      refine ⟨_, _, rfl, _, _, rfl, ?_⟩
      decide
    obtain ⟨s, m, hs, s', as, hstep, hr⟩ := hrun
    obtain ⟨k, inp, lp, rx, tx, rest, hl, -, -, -, hsilent⟩ :=
      (no_false_stall sampleStores).1 _ s s' m _ as hs hstep hr
    cases hl
    exact ⟨s, s', m, as, hs, hstep, hr, hsilent⟩
  · have hrun : ∃ s m, exec (polledStep sampleStores) ({}, fun _ => [])
        (.start (some "xray1") :: (comeUp 0 40 ++ (List.replicate 7 (deadPoll 1 1)).flatten ++
          List.replicate 2 (.job 1 { tunUp := 1 }))) = some (s, m) ∧
        s.pcs[1]? = some (.stall 0 0) := ⟨_, _, rfl, rfl⟩
    obtain ⟨s, m, hs, hj⟩ := hrun
    exact ⟨s, m, hs, hj, (no_false_stall sampleStores).2 _ s m 1 0 0 hs hj⟩

end SwiftVpn
