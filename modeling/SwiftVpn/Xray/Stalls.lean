/-
  File:      SwiftVpn/Xray/Stalls.lean
  Subject:   THE CAP OF THE XRAY WATCHDOG: how many times the service restarts a tunnel over which
             nothing comes back.

  * `restarts` -- the coroutines of `autoRestart` that a step launches;
  * `dead` -- the proxy's downlink counter is 0 at every poll;
  * `counted` -- a poll that is no stall sample (with a dead downlink: an idle one) comes only while
    `stallRestarts` is 0, so that its reset forgets nothing;
  * `restarts_capped` -- along such polls the watchdog restarts at most three times from a START to
    the next command, and the stall after the third goes to the error;
  * `restarts_uncapped` -- one idle poll after every restart, and there is no end to them.

  `stallRestarts` is one field for all poll loops: `autoRestart` counts it up, and the loop of the
  tunnel that `autoRestart` brings up counts on from there.
-/
import SwiftVpn.Xray.Commands

namespace SwiftVpn

open Machine

/-! ## 1. Restarts and polls -/

namespace XrayVpnService

/-- The coroutines of `autoRestart` that a step launches. -/
def restarts (s : XrayVpnService) : XrayLabel → List XrayPc
  | .job j _ =>
    match s.pcs[j]? with
    | some pc => (pc.launched s).filter (· = .restart)
    | none => []
  | _ => []

/-- Nothing has come back when the loop polls. -/
def dead (s : XrayVpnService) : XrayLabel → Bool
  | .job j inp => s.pcs[j]?.all fun pc => match pc with
    | .pollBody _ => inp.down = 0
    | _ => true
  | _ => true

/-- A poll resets the count only while there is nothing to forget. -/
def counted (s : XrayVpnService) : XrayLabel → Bool
  | .job j inp => s.pcs[j]?.all fun pc => match pc with
    | .pollBody _ => inp.tunUp > 0 || s.stallRestarts = 0
    | _ => true
  | _ => true

end XrayVpnService

/-- The service under a monitor that counts the restarts. -/
def stallStep (D : Stores) : XrayVpnService × Nat → XrayLabel → Option (XrayVpnService × Nat) :=
  observed (XrayVpnService.step D) fun s l _ n => n + (s.restarts l).length

/-! ## 2. The count -/

/-- What was restarted is counted, and not more than three times. -/
def Capped (x : XrayVpnService × Nat) : Prop := x.2 ≤ x.1.stallRestarts ∧ x.2 ≤ 3

/-- A step of a coroutine: `stallRestarts` follows the restarts it launches, unless a poll that is no
    stall sample resets it. -/
theorem XrayMove.stallRestarts {D : Stores} {s s' : XrayVpnService} {inp : XrayInput}
    {pc pc' : XrayPc} {es : List XrayEffect} (h : XrayMove D s inp pc s' pc' es) :
    (s.stallRestarts + ((pc.launched s).filter (· = .restart)).length ≤ s'.stallRestarts ∧
      (((pc.launched s).filter (· = .restart)).length = 0 ∨
        (s.stallRestarts < 3 ∧ ((pc.launched s).filter (· = .restart)).length = 1))) ∨
    (∃ n, pc = .pollBody n ∧ ¬ (inp.down = 0 ∧ inp.tunUp > 0) ∧ s'.stallRestarts = 0) := by
  cases h with
  | alive n tin tout hs => exact .inr ⟨n, rfl, hs, rfl⟩
  | autoRestart down up m hr =>
    have hl : XrayPc.launched s (.stall down up) = [.restart] := if_pos hr
    rw [hl]
    exact .inl ⟨Nat.le_refl _, .inr ⟨hr, rfl⟩⟩
  | giveUp down up m hr =>
    have hl : XrayPc.launched s (.stall down up) = [] := if_neg hr
    rw [hl]
    exact .inl ⟨Nat.le_succ _, .inl rfl⟩
  | startPolling k hs =>
    have hl : XrayPc.launched s .startPolling = [.pollHead 0] := if_neg (by rw [hs]; nofun)
    rw [hl]
    exact .inl ⟨Nat.le_refl _, .inl rfl⟩
  | noPolling hs =>
    have hl : XrayPc.launched s .startPolling = [] := if_pos hs
    rw [hl]
    exact .inl ⟨Nat.le_refl _, .inl rfl⟩
  | _ => exact .inl ⟨Nat.le_refl _, .inl rfl⟩

/-- Between two commands every poll of a dead tunnel that forgets nothing keeps the count. -/
theorem capped_step {D : Stores} (x : XrayVpnService × Nat) (l : XrayLabel)
    (x' : XrayVpnService × Nat) (I : Capped x)
    (hC : (x.1.dead l = true ∧ x.1.counted l = true) ∧ l.isCommand = false)
    (h : stallStep D x l = some x') : Capped x' := by
  obtain ⟨s, n⟩ := x
  obtain ⟨s', n'⟩ := x'
  obtain ⟨es, hs, hn⟩ := observed_some h
  dsimp only at hC hs hn
  obtain ⟨⟨hdead, hcounted⟩, hcmd⟩ := hC
  obtain ⟨hle, hthree⟩ := I
  dsimp only at hle hthree
  show n' ≤ s'.stallRestarts ∧ n' ≤ 3
  rw [hn]
  cases step_turn hs with
  | start | stop | forceStop => cases hcmd
  | onRevoke | released | idle | unheard | emitStatus => exact ⟨hle, hthree⟩
  | job j inp pc pc' r _ _ hj hmove hr hpcs =>
    have hcount : s.restarts (.job j inp) = (pc.launched s).filter (· = .restart) := by
      simp only [XrayVpnService.restarts, hj]
    have hsame : s'.stallRestarts = r.stallRestarts := by rw [hr]
    rw [hcount, hsame]
    rcases hmove.stallRestarts with ⟨hle', hone⟩ | ⟨k, rfl, hidle, hzero⟩
    · omega
    · -- the reset: the downlink is dead, so the poll is idle, and there is nothing to forget
      simp only [XrayVpnService.dead, hj, Option.all_some, decide_eq_true_eq] at hdead
      simp only [XrayVpnService.counted, hj, Option.all_some, Bool.or_eq_true,
        decide_eq_true_eq] at hcounted
      have hnone : s.stallRestarts = 0 := hcounted.resolve_left fun hup => hidle ⟨hdead, hup⟩
      have hl : XrayPc.launched s (.pollBody k) = [] := rfl
      rw [hl, hzero, List.filter_nil, List.length_nil]
      omega

/-- **The cap of the watchdog**: from a START to the next command, with a dead downlink at every poll
    and no idle poll that forgets a restart, the service is restarted at most three times; and a
    stall after the third goes to the error. -/
theorem restarts_capped (D : Stores) (s₀ : XrayVpnService) (uuid : Option Uuid)
    (ls : List XrayLabel) {s : XrayVpnService} {n : Nat}
    (h : exec (stallStep D) (s₀, 0) (.start uuid :: ls) = some (s, n))
    (hlast : ∀ l ∈ ls, l.isCommand = false)
    (hdead : Along (stallStep D) (fun x l => x.1.dead l = true) (s₀, 0) (.start uuid :: ls))
    (hC : Along (stallStep D) (fun x l => x.1.counted l = true) (s₀, 0) (.start uuid :: ls)) :
    n ≤ 3 ∧ (n = 3 → ∀ j inp down up s' es, s.pcs[j]? = some (.stall down up) →
      s.step D (.job j inp) = some (s', es) → s'.pcs[j]? = some (.stallFail down up)) := by
  obtain ⟨x, hstart, hrun⟩ := exec_cons.mp h
  have hinit : Capped x := by
    obtain ⟨es, -, hn⟩ := observed_some hstart
    have hzero : x.2 = 0 := hn
    exact ⟨by omega, by omega⟩
  have hC' := along_and (along_and ((along_cons hstart).mp hdead).2 ((along_cons hstart).mp hC).2)
    (along_of_forall hlast)
  have I : Capped (s, n) := exec_inv capped_step hinit hC' hrun
  obtain ⟨hle, hthree⟩ := I
  refine ⟨hthree, fun hn j inp down up s' es hj hs => ?_⟩
  have hge : ¬ s.stallRestarts < 3 := by
    have hle : n ≤ s.stallRestarts := hle
    omega
  obtain ⟨pc, pc', r, hj', hmove, -, hpcs⟩ := step_job hs
  obtain rfl := Option.some.inj (hj.symm.trans hj')
  have hlt : j < s.pcs.length := (List.getElem?_eq_some_iff.mp hj).1
  cases hmove with
  | autoRestart _ _ m hr => exact absurd hr hge
  | giveUp _ _ m hr =>
    rw [hpcs]
    exact List.getElem?_set_self (by rw [List.length_append]; omega)

/-- Four steps: one poll of the loop `j` that sees nothing come back. -/
def deadPoll (j : Nat) (tunUp : Int) : List XrayLabel :=
  List.replicate 4 (.job j { tunUp := tunUp })

/-- Eight polls with apps sending: the loop `j` stalls, and its restart runs to the end. -/
def stallAndRestart (j : Nat) : List XrayLabel :=
  (List.replicate 7 (deadPoll j 1)).flatten ++ List.replicate 5 (XrayLabel.job j { tunUp := 1 }) ++
    List.replicate 2 (XrayLabel.job (j + 1) {}) ++ comeUp (j + 2) 40

theorem restarts_capped_once :
    ∃ s, exec (stallStep sampleStores) ({}, 0)
        (.start (some "xray1") :: (comeUp 0 40 ++ stallAndRestart 1)) = some (s, 1) ∧ 1 ≤ 3 := by
  have hrun : ∃ s, exec (stallStep sampleStores) ({}, 0)
      (.start (some "xray1") :: (comeUp 0 40 ++ stallAndRestart 1)) = some (s, 1) := ⟨_, rfl⟩
  obtain ⟨s, hs⟩ := hrun
  exact ⟨s, hs, (restarts_capped sampleStores {} (some "xray1") (comeUp 0 40 ++ stallAndRestart 1)
    hs (by decide) (by decide) (by decide)).1⟩

/-- An idle poll, then a stall: four times. -/
def idleAndStall : List XrayLabel :=
  comeUp 0 40 ++ deadPoll 1 0 ++ stallAndRestart 1 ++ deadPoll 4 0 ++ stallAndRestart 4 ++
    deadPoll 7 0 ++ stallAndRestart 7 ++ deadPoll 10 0 ++ stallAndRestart 10

set_option maxRecDepth 4000 in
/-- One idle poll after every restart resets `stallRestarts`: **four restarts of a tunnel over which
    nothing has ever come back**, and the tunnel is up again. -/
theorem restarts_uncapped :
    ∃ s, exec (stallStep sampleStores) ({}, 0) (.start (some "xray1") :: idleAndStall) =
        some (s, 4) ∧
      (∀ l ∈ idleAndStall, l.isCommand = false) ∧
      Along (stallStep sampleStores) (fun x l => x.1.dead l = true) ({}, 0)
        (.start (some "xray1") :: idleAndStall) ∧ s.isTunnelRunning = true := by
  refine ⟨_, rfl, ?_⟩
  decide

end SwiftVpn
