/-
  File:      SwiftVpn/Xray/Commands.lean
  Subject:   THE LAST STOP: the coroutines of the Xray service against STOP and force-stop.

  * `accounted` -- at the STOP no `bringUp` stands between its `startLoop` and its EV_CONNECTED,
    every core that runs is the one in `controller`, and every open descriptor is the one in `tunFd`
    or still in the hands of a `bringUp`;
  * `aborts` -- after the STOP no `startLoop` succeeds, and a `bringUp` takes a descriptor over only
    while the service holds none;
  * `last_stop_wins` -- then, once every coroutine has finished, no core runs, no descriptor is open,
    `isTunnelRunning` is false, and no EV_CONNECTED was sent after the STOP;
  * `stop_lost` -- a STOP in the middle of a `bringUp`: nothing in `bringUp` asks whether it was
    cancelled.

  The STOP's own `cleanup` empties everything that is accounted for. After it a `bringUp` in flight
  can open things again, and `Halted` says who is to clean up behind it.
-/
import SwiftVpn.Xray.Resources

namespace SwiftVpn

open Machine

/-! ## 1. The conditions -/

/-- The points between a successful `startLoop` and EV_CONNECTED. -/
def XrayPc.committed : XrayPc → Bool
  | .running _ | .info _ | .connected => true
  | _ => false

/-- The descriptor in the hands of a `bringUp`, before `detachFd`. -/
def XrayPc.pfd : XrayPc → Option Nat
  | .ensure _ pfd | .detachFd _ pfd => some pfd
  | _ => none

/-- The points from which every way that does not pass `startLoop` leads to `cleanup`. -/
def XrayPc.owes : XrayPc → Bool
  | .newCore .. | .log .. | .startLoop .. | .fail _ | .cleanup => true
  | _ => false

/-- The commands of the router. -/
def XrayLabel.isCommand : XrayLabel → Bool
  | .start _ | .stop | .forceStop => true
  | _ => false

namespace XrayVpnService

/-- What the STOP finds is within its reach. -/
def accounted (s : XrayVpnService) : Bool :=
  s.pcs.all (fun pc => !pc.committed) && s.running.all (fun core => s.controller = some core) &&
    s.openFds.all fun fd => (fd : Int) = s.tunFd || s.pcs.any fun pc => pc.pfd = some fd

/-- The steps of a `bringUp` that ends without a tunnel. -/
def aborts (s : XrayVpnService) : XrayLabel → Bool
  | .job j inp => s.pcs[j]?.all fun pc => match pc with
    | .detachFd .. => s.tunFd < 0
    | .startLoop .. => inp.failure ≠ none
    | _ => true
  | _ => true

end XrayVpnService

/-! ## 2. After the STOP -/

structure Halted (s : XrayVpnService) : Prop where
  committed : ∀ pc ∈ s.pcs, pc.committed = false
  cores : s.running = []
  flag : s.isTunnelRunning = false
  fds : ∀ fd ∈ s.openFds, (fd : Int) = s.tunFd ∨ ∃ pc ∈ s.pcs, pc.pfd = some fd
  /-- who holds a descriptor is going to clean up -/
  owed : s.tunFd ≥ 0 → ∃ pc ∈ s.pcs, pc.owes = true

/-- `cleanup` takes back whatever is within its reach. -/
theorem halted_cleanup {s : XrayVpnService} (hcom : ∀ pc ∈ s.pcs, pc.committed = false)
    (hcores : ∀ core ∈ s.running, s.controller = some core)
    (hfds : ∀ fd ∈ s.openFds, (fd : Int) = s.tunFd ∨ ∃ pc ∈ s.pcs, pc.pfd = some fd) :
    Halted s.cleanup := by
  have hpcs : s.cleanup.pcs = s.pcs := cleanup_pcs s
  refine ⟨?_, ?_, rfl, fun fd hfd => ?_, fun hneg => ?_⟩
  · rw [hpcs]
    exact hcom
  · unfold XrayVpnService.cleanup
    dsimp only
    cases hc : s.controller with
    | none =>
      refine List.eq_nil_iff_forall_not_mem.mpr fun core hcore => ?_
      have hself := hcores core hcore
      rw [hc] at hself
      cases hself
    | some c =>
      refine List.filter_eq_nil_iff.mpr fun core hcore => ?_
      have hself := hcores core hcore
      rw [hc] at hself
      simp [Option.some.inj hself]
  · rw [hpcs]
    have hfd' : fd ∈ if s.tunFd ≥ 0 then s.openFds.filter (fun (n : Nat) => (n : Int) ≠ s.tunFd)
        else s.openFds := hfd
    split at hfd'
    · rw [List.mem_filter, decide_eq_true_eq] at hfd'
      exact .inr ((hfds fd hfd'.1).resolve_left hfd'.2)
    · rcases hfds fd hfd' with he | he
      · omega
      · exact .inr he
  · have hlt := cleanup_tunFd s
    omega

theorem Halted.cleanup {s : XrayVpnService} (I : Halted s) : Halted s.cleanup :=
  halted_cleanup I.committed (fun core hc => by rw [I.cores] at hc; cases hc) I.fds

/-- A coroutine that has just been launched has started nothing. -/
theorem committed_launched {s : XrayVpnService} {pc p : XrayPc} (h : p ∈ pc.launched s) :
    p.committed = false := by
  rcases mem_launched h with rfl | rfl | rfl <;> rfl

section Steps

variable {D : Stores} {s s' : XrayVpnService} {inp : XrayInput} {pc pc' : XrayPc}
  {es : List XrayEffect}

/-- A coroutine that is not past `startLoop` does not get past it where that fails, and sends no
    EV_CONNECTED. -/
theorem XrayMove.aborted (h : XrayMove D s inp pc s' pc' es) (hpc : pc.committed = false)
    (hf : ∀ id fd core, pc = .startLoop id fd core → inp.failure ≠ none) :
    pc'.committed = false ∧ .send .connected ∉ es := by
  have hsend : ∀ {ev : XrayEvent}, ev ≠ .connected → .send .connected ∉ s.sendEvent ev := by
    intro ev hne hm
    obtain ⟨line, he, hl⟩ := sendEvent_other s hne
    rw [he] at hm
    obtain ⟨e, hm, heq⟩ := List.mem_map.mp hm
    injection heq with heq
    exact hl (heq ▸ hm)
  have hline : ∀ {line : List XrayEvent}, .connected ∉ line →
      .send .connected ∉ line.map XrayEffect.send := by
    intro line hl hm
    obtain ⟨e, hm, heq⟩ := List.mem_map.mp hm
    injection heq with heq
    exact hl (heq ▸ hm)
  have hclean : .send .connected ∉ s.cleanupEffects := by
    unfold XrayVpnService.cleanupEffects
    cases s.controller <;> by_cases hfd : s.tunFd ≥ 0 <;> simp [hfd]
  cases h with
  | running | info | connected => cases hpc
  | startLoop id fd core hn => exact absurd hn (hf id fd core rfl)
  | refused id line hl | established id fd line hl | emit line ls hl => exact ⟨rfl, hline hl⟩
  | log | fail | autoRestart | giveUp | stallFail | bytes => exact ⟨rfl, hsend nofun⟩
  | cleanup | restart | stallCleanup => exact ⟨rfl, hclean⟩
  | detachFd => exact ⟨rfl, by simp⟩
  | _ => exact ⟨rfl, by simp⟩

/-- A step that opens and closes nothing. -/
theorem Halted.same (I : Halted s) (hcom : ∀ p ∈ s'.pcs, p.committed = false)
    (hkeep : ∀ Q : XrayPc → Prop, (∃ p ∈ s.pcs, Q p) → Q pc ∨ ∃ p ∈ s'.pcs, Q p)
    (hnew : pc' ∈ s'.pcs)
    (hsame : s'.running = s.running ∧ s'.isTunnelRunning = s.isTunnelRunning ∧
      s'.tunFd = s.tunFd ∧ s'.openFds = s.openFds)
    (hpfd : pc.pfd ≠ none → pc'.pfd = pc.pfd) (howes : pc.owes = true → pc'.owes = true) :
    Halted s' := by
  obtain ⟨hr, ht, hf, ho⟩ := hsame
  refine ⟨hcom, hr.trans I.cores, ht.trans I.flag, fun fd hfd => ?_, fun hge => ?_⟩
  · rw [ho] at hfd
    rw [hf]
    rcases I.fds fd hfd with he | he
    · exact .inl he
    · rcases hkeep _ he with he | he
      · have hsome : pc.pfd ≠ none := by rw [he]; exact Option.some_ne_none fd
        exact .inr ⟨pc', hnew, (hpfd hsome).trans he⟩
      · exact .inr he
  · rw [hf] at hge
    rcases hkeep _ (I.owed hge) with he | he
    · exact ⟨pc', hnew, howes he⟩
    · exact he

/-- A step that cleans up. -/
theorem Halted.cleaned (I : Halted s) (hcom : ∀ p ∈ s'.pcs, p.committed = false)
    (hkeep : ∀ Q : XrayPc → Prop, (∃ p ∈ s.pcs, Q p) → Q pc ∨ ∃ p ∈ s'.pcs, Q p)
    (hsame : s'.running = s.cleanup.running ∧ s'.isTunnelRunning = s.cleanup.isTunnelRunning ∧
      s'.tunFd = s.cleanup.tunFd ∧ s'.openFds = s.cleanup.openFds) (hpfd : pc.pfd = none) :
    Halted s' := by
  obtain ⟨hr, ht, hf, ho⟩ := hsame
  have J := I.cleanup
  refine ⟨hcom, hr.trans J.cores, ht.trans J.flag, fun fd hfd => ?_, fun hge => ?_⟩
  · rw [ho] at hfd
    rw [hf]
    have hwhere := J.fds fd hfd
    rw [cleanup_pcs] at hwhere
    rcases hwhere with he | he
    · exact .inl he
    · rcases hkeep _ he with he | he
      · rw [hpfd] at he
        cases he
      · exact .inr he
  · have hlt := cleanup_tunFd s
    omega

/-- A step of a coroutine that ends without a tunnel. -/
theorem halted_job {j : Nat} (I : Halted s) (ha : s.aborts (.job j inp) = true)
    (h : s.step D (.job j inp) = some (s', es)) : Halted s' ∧ .send .connected ∉ es := by
  obtain ⟨pc, pc', r, hj, hmove, hr, hpcs⟩ := step_job h
  have hmem : pc ∈ s.pcs := List.mem_of_getElem? hj
  have hfail : ∀ id fd core, pc = .startLoop id fd core → inp.failure ≠ none := by
    intro id fd core hpc
    rw [hpc] at hj
    simpa only [XrayVpnService.aborts, hj, Option.all_some, decide_eq_true_eq] using ha
  obtain ⟨hcom', hsent⟩ := hmove.aborted (I.committed pc hmem) hfail
  refine ⟨?_, hsent⟩
  have hlt : j < s.pcs.length := (List.getElem?_eq_some_iff.mp hj).1
  have hnew : pc' ∈ s'.pcs := by
    rw [hpcs]
    exact List.mem_set (by rw [List.length_append]; omega) pc'
  have hkeep : ∀ Q : XrayPc → Prop, (∃ p ∈ s.pcs, Q p) → Q pc ∨ ∃ p ∈ s'.pcs, Q p := by
    intro Q hQ
    rw [hpcs]
    exact exists_append_set hj hQ
  have hcom : ∀ p ∈ s'.pcs, p.committed = false := by
    intro p hp
    rw [hpcs] at hp
    rcases mem_append_set hj hp with rfl | hp | ⟨k, -, hp⟩
    · exact hcom'
    · exact committed_launched hp
    · exact I.committed p (List.mem_of_getElem? hp)
  have hrun : s'.running = r.running := by rw [hr]
  have hflag : s'.isTunnelRunning = r.isTunnelRunning := by rw [hr]
  have hfd : s'.tunFd = r.tunFd := by rw [hr]
  have hopen : s'.openFds = r.openFds := by rw [hr]
  cases hmove with
  | established id fd line hl hfree =>
    refine ⟨hcom, hrun.trans I.cores, hflag.trans I.flag, fun n hm => ?_, fun hge => ?_⟩
    · rw [hopen] at hm
      rw [hfd]
      rcases List.mem_cons.mp hm with rfl | hm
      · exact .inr ⟨_, hnew, rfl⟩
      · exact (I.fds n hm).imp_right fun he => (hkeep _ he).resolve_left nofun
    · rw [hfd] at hge
      exact (hkeep _ (I.owed hge)).resolve_left nofun
  | unready id pfd =>
    refine ⟨hcom, hrun.trans I.cores, hflag.trans I.flag, fun n hm => ?_, fun _ => ?_⟩
    · rw [hopen, List.mem_filter, decide_eq_true_eq] at hm
      rw [hfd]
      have hother : XrayPc.pfd (.ensure id pfd) ≠ some n := fun he =>
        hm.2 (Option.some.inj he).symm
      exact (I.fds n hm.1).imp_right fun he => (hkeep _ he).resolve_left hother
    · exact ⟨_, hnew, rfl⟩
  | detachFd id pfd =>
    have hneg : s.tunFd < 0 := by
      simpa only [XrayVpnService.aborts, hj, Option.all_some, decide_eq_true_eq] using ha
    refine ⟨hcom, hrun.trans I.cores, hflag.trans I.flag, fun n hm => ?_, fun _ => ?_⟩
    · rw [hopen] at hm
      rw [hfd]
      rcases I.fds n hm with he | he
      · omega
      · exact (hkeep _ he).imp_left fun he => (congrArg Int.ofNat (Option.some.inj he)).symm
    · exact ⟨_, hnew, rfl⟩
  | cleanup | restart | stallCleanup => exact I.cleaned hcom hkeep ⟨hrun, hflag, hfd, hopen⟩ rfl
  | running | info | connected => exact absurd (I.committed _ hmem) nofun
  | startLoop id fd core hn => exact absurd hn (hfail id fd core rfl)
  | ready id pfd => exact I.same hcom hkeep hnew ⟨hrun, hflag, hfd, hopen⟩ (fun _ => rfl) nofun
  | newCore | log | loopThrew | coreThrew | fail =>
    exact I.same hcom hkeep hnew ⟨hrun, hflag, hfd, hopen⟩ (fun hp => absurd rfl hp) fun _ => rfl
  | _ => exact I.same hcom hkeep hnew ⟨hrun, hflag, hfd, hopen⟩ (fun hp => absurd rfl hp) nofun

end Steps

/-- What is not a command keeps the service halted. -/
theorem halted_step {D : Stores} (s : XrayVpnService) (l : XrayLabel) (s' : XrayVpnService)
    (es : List XrayEffect) (I : Halted s) (hl : l.isCommand = false ∧ s.aborts l = true)
    (h : s.step D l = some (s', es)) : Halted s' ∧ .send .connected ∉ es := by
  have hstop : .send .connected ∉ s.sendEvent .stopped ++ s.cleanupEffects := by
    unfold XrayVpnService.sendEvent XrayVpnService.cleanupEffects
    cases s.controller <;> by_cases hr : s.reporter = true <;>
      by_cases hfd : s.tunFd ≥ 0 <;> simp [hr, hfd]
  have hcleaned : Halted { s.cleanup with destroyed := true } := by
    have J := I.cleanup
    exact ⟨J.committed, J.cores, J.flag, J.fds, J.owed⟩
  cases step_turn h with
  | start | stop | forceStop => cases hl.1
  | job j inp => exact halted_job I hl.2 h
  | onRevoke => exact ⟨I.cleanup, hstop⟩
  | released => exact ⟨hcleaned, hstop⟩
  | idle => exact ⟨⟨I.committed, I.cores, I.flag, I.fds, I.owed⟩, nofun⟩
  | unheard line => exact ⟨I, nofun⟩
  | emitStatus line k =>
    have hpcs : ∀ p, p ∈ (s.jobs ++ [XrayJob.mk (some k) false (.emit line)]).map XrayJob.pc ↔
        p ∈ s.pcs ∨ p = .emit line := by
      intro p
      rw [List.map_append, List.mem_append, List.map_singleton, List.mem_singleton]
      rfl
    refine ⟨⟨fun p hp => ?_, I.cores, I.flag, fun fd hfd => ?_, fun hge => ?_⟩, nofun⟩
    · rcases (hpcs p).mp hp with hp | rfl
      · exact I.committed p hp
      · rfl
    · rcases I.fds fd hfd with he | ⟨p, hp, he⟩
      · exact .inl he
      · exact .inr ⟨p, (hpcs p).mpr (.inl hp), he⟩
    · obtain ⟨p, hp, he⟩ := I.owed hge
      exact ⟨p, (hpcs p).mpr (.inl hp), he⟩

/-! ## 3. The last STOP -/

/-- A STOP or force-stop that has everything within its reach. -/
theorem halted_stop {D : Stores} {s s' : XrayVpnService} {cmd : XrayLabel} {es : List XrayEffect}
    (hcmd : cmd = .stop ∨ cmd = .forceStop) (hs : s.accounted = true)
    (h : s.step D cmd = some (s', es)) : Halted s' := by
  simp only [XrayVpnService.accounted, Bool.and_eq_true, List.all_eq_true, Bool.not_eq_true',
    decide_eq_true_eq, Bool.or_eq_true, List.any_eq_true] at hs
  obtain ⟨⟨hcom, hcores⟩, hfds⟩ := hs
  have J : Halted s.cleanup := halted_cleanup hcom hcores hfds
  cases step_turn h with
  | stop | forceStop => exact J
  | _ => rcases hcmd with hc | hc <;> cases hc

/-- Where every coroutine has finished nobody is left to clean up, and nothing is open. -/
theorem Halted.finished {s : XrayVpnService} (I : Halted s) (hq : ∀ pc ∈ s.pcs, pc = .done) :
    s.openFds = [] := by
  have hneg : s.tunFd < 0 := by
    by_contra hge
    obtain ⟨pc, hpc, howes⟩ := I.owed (by omega)
    rw [hq pc hpc] at howes
    cases howes
  refine List.eq_nil_iff_forall_not_mem.mpr fun fd hfd => ?_
  rcases I.fds fd hfd with he | ⟨pc, hpc, he⟩
  · omega
  · rw [hq pc hpc] at he
    cases he

/-- **The last STOP wins** if it has everything that is open within its reach and no `bringUp` gets
    past `startLoop` after it: once every coroutine has finished no core runs, no TUN descriptor is
    open, `isTunnelRunning` is false, and no EV_CONNECTED was sent after it. -/
theorem last_stop_wins (D : Stores) (post : List XrayLabel) (cmd : XrayLabel)
    {s s₁ s' : XrayVpnService} (hcmd : cmd = .stop ∨ cmd = .forceStop)
    (hstop : silent (XrayVpnService.step D) s cmd = some s₁)
    (hpost : exec (silent (XrayVpnService.step D)) s₁ post = some s')
    (hlast : ∀ l ∈ post, l.isCommand = false) (hq : ∀ pc ∈ s'.pcs, pc = .done)
    (hs : s.accounted = true)
    (hC : Along (silent (XrayVpnService.step D)) (fun s l => s.aborts l = true) s₁ post) :
    s'.running = [] ∧ s'.openFds = [] ∧ s'.isTunnelRunning = false ∧
      .send .connected ∉ outputs (XrayVpnService.step D) (fun _ _ es => es) s₁ post := by
  obtain ⟨es, hes⟩ := silent_some hstop
  have hhalted : Halted s₁ := halted_stop hcmd hs hes
  have hC' := along_and (along_of_forall hlast) hC
  have hend : Halted s' := by
    refine exec_inv ?_ hhalted hC' hpost
    intro t l t' I hl ht
    obtain ⟨es, hes⟩ := silent_some ht
    exact (halted_step t l t' es I hl hes).1
  have hsent : ∀ e ∈ outputs (XrayVpnService.step D) (fun _ _ es => es) s₁ post,
      e ≠ .send .connected := by
    refine outputs_inv ?_ hhalted hC'
    intro t l t' es I hl ht
    obtain ⟨I', hes⟩ := halted_step t l t' es I hl ht
    exact ⟨I', fun e he heq => hes (heq ▸ he)⟩
  exact ⟨hend.cores, hend.finished hq, hend.flag, fun hm => hsent _ hm rfl⟩

/-- The descriptor is established and the runtime is ready: `bringUp` is about to `detachFd`. -/
def halfUp : List XrayLabel := .start (some "xray1") :: List.replicate 4 (.job 0 { pfd := some 40 })

/-- The rest of it where the core does not start. -/
def failedUp : List XrayLabel :=
  List.replicate 3 (XrayLabel.job 0 {}) ++ List.replicate 3 (XrayLabel.job 0 { failure := some "no outbound" })

theorem last_stop_wins_failedUp :
    ∃ s s₁ s', exec (silent (XrayVpnService.step sampleStores)) {} halfUp = some s ∧
      silent (XrayVpnService.step sampleStores) s .stop = some s₁ ∧
      exec (silent (XrayVpnService.step sampleStores)) s₁ failedUp = some s' ∧
      s'.running = [] ∧ s'.openFds = [] ∧ s'.isTunnelRunning = false ∧
      .send .connected ∉
        outputs (XrayVpnService.step sampleStores) (fun _ _ es => es) s₁ failedUp := by
  have hrun : ∃ s s₁ s', exec (silent (XrayVpnService.step sampleStores)) {} halfUp = some s ∧
      silent (XrayVpnService.step sampleStores) s .stop = some s₁ ∧
      exec (silent (XrayVpnService.step sampleStores)) s₁ failedUp = some s' ∧
      (∀ pc ∈ s'.pcs, pc = .done) ∧ s.accounted = true ∧
      Along (silent (XrayVpnService.step sampleStores)) (fun s l => s.aborts l = true) s₁
        failedUp := by
    refine ⟨_, _, _, rfl, rfl, rfl, ?_⟩
    decide
  obtain ⟨s, s₁, s', hs, hstop, hpost, hq, hacc, hC⟩ := hrun
  exact ⟨s, s₁, s', hs, hstop, hpost, last_stop_wins sampleStores failedUp .stop (.inl rfl) hstop
    hpost (by decide) hq hacc hC⟩

/-- The rest of it where the core starts, after the system has destroyed the instance. -/
def lateUp : List XrayLabel := .onDestroy :: List.replicate 8 (.job 0 {})

/-- A STOP between `ensure` and `detachFd`: its `cleanup` finds nothing to take back, and **the
    coroutine runs on to a tunnel that nobody stops**. -/
theorem stop_lost :
    ∃ s s₁ s', exec (silent (XrayVpnService.step sampleStores)) {} halfUp = some s ∧
      silent (XrayVpnService.step sampleStores) s .stop = some s₁ ∧
      exec (silent (XrayVpnService.step sampleStores)) s₁ lateUp = some s' ∧
      (∀ l ∈ lateUp, l.isCommand = false) ∧ (∀ pc ∈ s'.pcs, pc = .done) ∧
      s'.running = [0] ∧ s'.openFds = [40] ∧ s'.isTunnelRunning = true ∧
      .send .connected ∈
        outputs (XrayVpnService.step sampleStores) (fun _ _ es => es) s₁ lateUp := by
  refine ⟨_, _, _, rfl, rfl, rfl, ?_⟩
  decide

end SwiftVpn
