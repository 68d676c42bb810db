/-
  File:      SwiftVpn/Xray/Resources.lean
  Subject:   WHAT THE XRAY SERVICE HOLDS: the TUN descriptor and the core, over the events of one
             instance.

  * `ResourceLog` -- a monitor: the descriptors detached and closed, the cores started and stopped,
    in order;
  * `sequential` -- each `bringUp` runs to its end before the next event; the events are the
    commands, the system's `onRevoke` and `onDestroy`, and `autoRestart`;
  * `vacant` -- a `bringUp` comes to `detachFd` only while the service holds no descriptor;
  * `resource_discipline` -- along such steps every descriptor is closed once before the next one is
    detached and before the instance is destroyed, and the cores likewise;
  * `descriptor_leaked` -- a START on top of a live session overwrites `tunFd` and `controller`.
-/
import SwiftVpn.Xray.Service

namespace SwiftVpn

open Machine

/-! ## 1. The monitor -/

structure ResourceLog where
  detached : List Int := []
  closed : List Int := []
  started : List Nat := []
  stopped : List Nat := []
  deriving DecidableEq, Repr

namespace ResourceLog

def note (g : ResourceLog) : XrayEffect → ResourceLog
  | .detachFd fd => { g with detached := g.detached ++ [fd] }
  | .closeFd fd => { g with closed := g.closed ++ [fd] }
  | .startLoop core _ => { g with started := g.started ++ [core] }
  | .stopLoop core => { g with stopped := g.stopped ++ [core] }
  | _ => g

def noteAll (g : ResourceLog) (es : List XrayEffect) : ResourceLog := es.foldl note g

end ResourceLog

/-- The service under the monitor. -/
def resourceStep (D : Stores) :
    XrayVpnService × ResourceLog → XrayLabel → Option (XrayVpnService × ResourceLog) :=
  observed (XrayVpnService.step D) fun _ _ es g => g.noteAll es

/-- The points of an unfinished `bringUp`, and of the coroutine that makes the next one. -/
def XrayPc.building : XrayPc → Bool
  | .pollHead _ | .pollBody _ | .stall .. | .stallFail .. | .stallCleanup .. | .bytes .. | .delay _
  | .emit _ | .done => false
  | _ => true

/-- The points of `autoRestart`. -/
def XrayPc.watchdog : XrayPc → Bool
  | .stall .. | .stallFail .. | .stallCleanup .. => true
  | _ => false

namespace XrayVpnService

/-- Every `bringUp` has run to its end. -/
def settled (s : XrayVpnService) : Bool := s.pcs.all fun pc => !pc.building

/-- Each `bringUp` runs to its end before the next event of the instance. -/
def sequential (s : XrayVpnService) : XrayLabel → Bool
  | .emitStatus _ => true
  | .job j _ => s.pcs[j]?.all fun pc => !pc.watchdog || (s.settled && !s.destroyed)
  | _ => s.settled

/-- A `bringUp` takes a descriptor over only while the service holds none. -/
def vacant (s : XrayVpnService) : XrayLabel → Bool
  | .job j _ => s.pcs[j]?.all fun pc => match pc with
    | .detachFd _ _ => s.tunFd < 0
    | _ => true
  | _ => true

/-- The descriptor the service holds. -/
def held (s : XrayVpnService) : List Int := if s.tunFd ≥ 0 then [s.tunFd] else []

end XrayVpnService

/-! ## 2. What is held -/

/-- Every detached descriptor but the one in `tunFd` is closed, in order; at most one core runs, the
    one in `controller`, on a descriptor that is held; every other core started is stopped. -/
structure Held (s : XrayVpnService) (g : ResourceLog) : Prop where
  fds : g.detached = g.closed ++ s.held
  cores : s.running = [] ∨
    ∃ core, s.controller = some core ∧ s.running = [core] ∧ s.tunFd ≥ 0
  stops : ∀ core ∈ g.started, core ∈ g.stopped ∨ core ∈ s.running

/-- What a `bringUp` finds at each of its points. -/
def XrayVpnService.At (s : XrayVpnService) : XrayPc → Prop
  | .newCore _ _ => s.running = [] ∧ s.tunFd ≥ 0
  | .log _ _ core | .startLoop _ _ core =>
    s.running = [] ∧ s.tunFd ≥ 0 ∧ s.controller = some core
  | _ => True

theorem at_of_not_building {s : XrayVpnService} {pc : XrayPc} (h : pc.building = false) :
    s.At pc := by
  cases pc with
  | newCore | log | startLoop => cases h
  | _ => trivial

@[simp] theorem noteAll_sends (g : ResourceLog) (line : List XrayEvent) :
    g.noteAll (line.map .send) = g := by
  induction line with
  | nil => rfl
  | cons ev line ih => exact ih

@[simp] theorem noteAll_sendEvent (g : ResourceLog) (s : XrayVpnService) (ev : XrayEvent) :
    g.noteAll (s.sendEvent ev) = g := by
  obtain ⟨line, he, -⟩ := sendEvent_eq s ev
  rw [he, noteAll_sends]

theorem noteAll_append (g : ResourceLog) (es fs : List XrayEffect) :
    g.noteAll (es ++ fs) = (g.noteAll es).noteAll fs := List.foldl_append

/-- What `cleanup` gives back: the core in `controller` and the descriptor in `tunFd`. -/
theorem noteAll_cleanup (g : ResourceLog) (s : XrayVpnService) :
    g.noteAll s.cleanupEffects =
      { g with closed := g.closed ++ s.held, stopped := g.stopped ++ s.controller.toList } := by
  unfold XrayVpnService.cleanupEffects XrayVpnService.held
  cases s.controller <;> by_cases hfd : s.tunFd ≥ 0 <;>
    simp [hfd, ResourceLog.noteAll, ResourceLog.note]

/-- After `cleanup` nothing is held. -/
theorem Held.cleanup {s : XrayVpnService} {g : ResourceLog} (H : Held s g) :
    Held s.cleanup (g.noteAll s.cleanupEffects) ∧ s.cleanup.running = [] ∧
      s.cleanup.tunFd < 0 := by
  have hfd := cleanup_tunFd s
  have hheld : s.cleanup.held = [] := if_neg (by omega)
  have hrun : s.cleanup.running = [] := by
    unfold XrayVpnService.cleanup
    dsimp only
    rcases H.cores with hr | ⟨core, hc, hr, -⟩
    · rw [hr]
      split <;> rfl
    · simp [hc, hr]
  refine ⟨⟨?_, .inl hrun, fun core hcore => ?_⟩, hrun, hfd⟩
  · rw [noteAll_cleanup, hheld, List.append_nil]
    exact H.fds
  · rw [noteAll_cleanup] at hcore ⊢
    rcases H.stops core hcore with hs | hr
    · exact .inl (List.mem_append_left _ hs)
    · rcases H.cores with hn | ⟨c, hc, hr', -⟩
      · rw [hn] at hr
        cases hr
      · rw [hr', List.mem_singleton] at hr
        refine .inl (List.mem_append_right _ ?_)
        rw [hc, hr]
        exact List.mem_singleton_self c

section Moves

variable {D : Stores} {s s' : XrayVpnService} {inp : XrayInput} {pc pc' : XrayPc}
  {es : List XrayEffect} {g : ResourceLog}

/-- A step of a coroutine keeps what is held in order. -/
theorem XrayMove.held (h : XrayMove D s inp pc s' pc' es) (H : Held s g) (ha : s.At pc)
    (hv : ∀ id pfd, pc = .detachFd id pfd → s.tunFd < 0) :
    Held s' (g.noteAll es) ∧ s'.At pc' := by
  cases h with
  | refused | info | emit =>
    rw [noteAll_sends]
    exact ⟨H, trivial⟩
  | established id fd line hl hfd =>
    rw [noteAll_sends]
    exact ⟨⟨H.fds, H.cores, H.stops⟩, trivial⟩
  | detachFd id pfd =>
    have hneg := hv id pfd rfl
    have hnone : s.running = [] := by
      rcases H.cores with hr | ⟨core, -, -, hfd⟩
      · exact hr
      · omega
    have hpfd : (pfd : Int) ≥ 0 := Int.natCast_nonneg pfd
    refine ⟨⟨?_, .inl hnone, H.stops⟩, hnone, hpfd⟩
    show g.detached ++ [(pfd : Int)] = g.closed ++ if (pfd : Int) ≥ 0 then [(pfd : Int)] else []
    rw [H.fds, XrayVpnService.held, if_neg (by omega), if_pos hpfd, List.append_nil]
  | newCore id fd =>
    obtain ⟨hr, hfd⟩ := ha
    exact ⟨⟨H.fds, .inl hr, H.stops⟩, hr, hfd, rfl⟩
  | log id fd core m =>
    rw [noteAll_sendEvent]
    exact ⟨H, ha⟩
  | startLoop id fd core hf =>
    obtain ⟨hr, hfd, hc⟩ := ha
    refine ⟨⟨H.fds, .inr ⟨core, hc, by rw [hr], hfd⟩, fun c hc' => ?_⟩, trivial⟩
    rcases List.mem_append.mp hc' with hc' | hc'
    · rcases H.stops c hc' with hs | hr'
      · exact .inl hs
      · exact .inr (List.mem_cons_of_mem core hr')
    · rw [List.mem_singleton.mp hc']
      exact .inr List.mem_cons_self
  | cleanup | restart | stallCleanup => exact ⟨H.cleanup.1, trivial⟩
  | connected | fail m | bytes | stallFail =>
    rw [noteAll_sendEvent]
    exact ⟨H, trivial⟩
  | autoRestart | giveUp =>
    rw [noteAll_sendEvent]
    exact ⟨⟨H.fds, H.cores, H.stops⟩, trivial⟩
  | _ => exact ⟨⟨H.fds, H.cores, H.stops⟩, trivial⟩

/-- The steps of a poll loop outside `autoRestart` touch nothing that is held, and launch nothing. -/
theorem XrayMove.polls (h : XrayMove D s inp pc s' pc' es) (hb : pc.building = false)
    (hw : pc.watchdog = false) :
    s'.running = s.running ∧ s'.tunFd = s.tunFd ∧ s'.controller = s.controller ∧
      pc'.building = false ∧ pc.launched s = [] := by
  cases h with
  | pollEnd | pollHead | silent | stalled | alive | bytes | delayEnd | delay | emit =>
    exact ⟨rfl, rfl, rfl, rfl, rfl⟩
  | autoRestart | giveUp | stallFail | stallCleanup => cases hw
  | _ => cases hb

theorem XrayMove.destroyed (h : XrayMove D s inp pc s' pc' es) : s'.destroyed = s.destroyed := by
  cases h <;> rfl

end Moves

/-! ## 3. The invariant -/

structure Disciplined (s : XrayVpnService) (g : ResourceLog) : Prop where
  held : Held s g
  /-- one `bringUp` at a time -/
  alone : s.pcs.countP XrayPc.building ≤ 1
  at_pc : ∀ pc ∈ s.pcs, s.At pc
  gone : s.destroyed = true → s.settled = true ∧ s.running = [] ∧ s.tunFd < 0

theorem disciplined_init : Disciplined {} {} where
  held := ⟨rfl, .inl rfl, fun core hc => by cases hc⟩
  alone := by decide
  at_pc pc hpc := by cases hpc
  gone h := by cases h

theorem settled_iff {s : XrayVpnService} :
    s.settled = true ↔ s.pcs.countP XrayPc.building = 0 := by
  rw [List.countP_eq_zero, XrayVpnService.settled, List.all_eq_true]
  simp

/-- While one coroutine builds, no other does. -/
theorem only_building {l : List XrayPc} {j k : Nat} {p q : XrayPc}
    (hc : l.countP XrayPc.building ≤ 1) (hj : l[j]? = some p) (hp : p.building = true)
    (hk : l[k]? = some q) (hne : k ≠ j) : q.building = false := by
  by_contra hq
  have hlt : j < l.length := (List.getElem?_eq_some_iff.mp hj).1
  have hget : l[j] = p := (List.getElem?_eq_some_iff.mp hj).2
  -- with the coroutine at `j` out of the way there is still one
  have hrest : 1 ≤ (l.set j .done).countP XrayPc.building := by
    refine List.one_le_countP_iff.mpr ⟨q, ?_, by simpa using hq⟩
    refine List.mem_of_getElem? (i := k) ?_
    rw [List.getElem?_set_ne (Ne.symm hne)]
    exact hk
  rw [List.countP_set hlt, hget, if_pos hp, if_neg (by decide)] at hrest
  omega

theorem at_congr {s s' : XrayVpnService} {pc : XrayPc} (h : s.At pc)
    (hr : s'.running = s.running) (hf : s'.tunFd = s.tunFd)
    (hc : s'.controller = s.controller) : s'.At pc := by
  cases pc with
  | newCore | log | startLoop =>
    simp only [XrayVpnService.At, hr, hf, hc]
    exact h
  | _ => exact h

/-- A coroutine that goes on building launches no other that does. -/
theorem XrayMove.launches {D : Stores} {s s' : XrayVpnService} {inp : XrayInput} {pc pc' : XrayPc}
    {es : List XrayEffect} (h : XrayMove D s inp pc s' pc' es) :
    (pc.launched s).countP XrayPc.building + (if pc'.building then 1 else 0) ≤ 1 := by
  have hone : (if pc'.building then 1 else 0) ≤ 1 := by split <;> omega
  cases h with
  | startPolling k hs => simp [XrayPc.launched, XrayPc.building, hs]
  | noPolling hs => simp [XrayPc.launched, XrayPc.building, hs]
  | autoRestart down up m hr => simp [XrayPc.launched, XrayPc.building, hr]
  | giveUp down up m hr => simp [XrayPc.launched, XrayPc.building, hr]
  | relaunch => exact Nat.le_refl 1
  | _ => simpa [XrayPc.launched] using hone

/-- A coroutine that has just been launched has nothing yet. -/
theorem at_launched {s s' : XrayVpnService} {pc p : XrayPc} (h : p ∈ pc.launched s) : s'.At p := by
  rcases mem_launched h with rfl | rfl | rfl <;> trivial

theorem disciplined_job {D : Stores} {s s' : XrayVpnService} {g : ResourceLog} {j : Nat}
    {inp : XrayInput} {es : List XrayEffect} (I : Disciplined s g)
    (hseq : s.sequential (.job j inp) = true) (hv : s.vacant (.job j inp) = true)
    (h : s.step D (.job j inp) = some (s', es)) : Disciplined s' (g.noteAll es) := by
  obtain ⟨pc, pc', r, hj, hmove, hr, hpcs⟩ := step_job h
  have hmem : pc ∈ s.pcs := List.mem_of_getElem? hj
  have hlt : j < s.pcs.length := (List.getElem?_eq_some_iff.mp hj).1
  have hget : s.pcs[j] = pc := (List.getElem?_eq_some_iff.mp hj).2
  have hwd : pc.watchdog = true → s.settled = true ∧ s.destroyed = false := by
    intro hw
    simp only [XrayVpnService.sequential, hj, Option.all_some, hw, Bool.not_true, Bool.false_or,
      Bool.and_eq_true, Bool.not_eq_true'] at hseq
    exact hseq
  have hfree : ∀ id pfd, pc = .detachFd id pfd → s.tunFd < 0 := by
    intro id pfd hpc
    rw [hpc] at hj
    simpa only [XrayVpnService.vacant, hj, Option.all_some, decide_eq_true_eq] using hv
  obtain ⟨H, hat⟩ := hmove.held I.held (I.at_pc pc hmem) hfree
  have hcount : s'.pcs.countP XrayPc.building =
      s.pcs.countP XrayPc.building + (pc.launched s).countP XrayPc.building -
        (if pc.building then 1 else 0) + (if pc'.building then 1 else 0) := by
    rw [hpcs, List.countP_set (by rw [List.length_append]; omega), List.countP_append,
      List.getElem_append_left hlt, hget]
  have hlaunch := hmove.launches
  -- the coroutines other than this one
  have hothers : ∀ k p, k ≠ j → s.pcs[k]? = some p → s'.At p := by
    intro k p hk hp
    cases hb : pc.building with
    | true => exact at_of_not_building (only_building I.alone hj hb hp hk)
    | false =>
      cases hw : pc.watchdog with
      | true =>
        have hset := List.all_eq_true.mp (hwd hw).1 p (List.mem_of_getElem? hp)
        exact at_of_not_building (by simpa using hset)
      | false =>
        obtain ⟨h₁, h₂, h₃, -⟩ := hmove.polls hb hw
        refine at_congr (I.at_pc p (List.mem_of_getElem? hp)) ?_ ?_ ?_
        · rw [hr]; exact h₁
        · rw [hr]; exact h₂
        · rw [hr]; exact h₃
  refine ⟨?_, ?_, fun p hp => ?_, fun hd => ?_⟩
  · rw [hr]
    exact ⟨H.fds, H.cores, H.stops⟩
  · have halone := I.alone
    cases hb : pc.building with
    | true =>
      simp only [hb, if_true] at hcount
      omega
    | false =>
      cases hw : pc.watchdog with
      | true =>
        have hzero := settled_iff.mp (hwd hw).1
        simp only [hb, Bool.false_eq_true, if_false] at hcount
        omega
      | false =>
        obtain ⟨-, -, -, hb', hl⟩ := hmove.polls hb hw
        simp only [hb, hb', hl, List.countP_nil, Bool.false_eq_true, if_false] at hcount
        omega
  · rw [hpcs] at hp
    rcases mem_append_set hj hp with rfl | hp | ⟨k, hk, hp⟩
    · rw [hr]
      exact at_congr hat rfl rfl rfl
    · exact at_launched hp
    · exact hothers k p hk hp
  · have hd : s.destroyed = true := by
      rw [hr] at hd
      rw [← hmove.destroyed]
      exact hd
    obtain ⟨hset, hrun, hfd⟩ := I.gone hd
    have hb : pc.building = false := by
      simpa using List.all_eq_true.mp hset pc hmem
    have hw : pc.watchdog = false := by
      cases hw : pc.watchdog with
      | false => rfl
      | true =>
        have hnd := (hwd hw).2
        rw [hd] at hnd
        cases hnd
    obtain ⟨h₁, h₂, -, hb', hl⟩ := hmove.polls hb hw
    refine ⟨settled_iff.mpr ?_, ?_, ?_⟩
    · have hzero := settled_iff.mp hset
      simp only [hb, hb', hl, List.countP_nil, Bool.false_eq_true, if_false] at hcount
      omega
    · rw [hr]
      exact h₁.trans hrun
    · rw [hr]
      exact h₂ ▸ hfd

/-- A command that launches a coroutine. -/
theorem Disciplined.launch {s s' : XrayVpnService} {g : ResourceLog} (I : Disciplined s g)
    (p : XrayPc) (hpcs : s'.pcs = s.pcs ++ [p])
    (hsame : s'.running = s.running ∧ s'.tunFd = s.tunFd ∧ s'.controller = s.controller ∧
      s'.destroyed = s.destroyed) (hat : s'.At p)
    (hp : p.building = true → s.settled = true ∧ s.destroyed = false) : Disciplined s' g := by
  obtain ⟨hr, hf, hc, hd⟩ := hsame
  have hheld : s'.held = s.held := by rw [XrayVpnService.held, XrayVpnService.held, hf]
  have hcount : s'.pcs.countP XrayPc.building =
      s.pcs.countP XrayPc.building + if p.building then 1 else 0 := by
    rw [hpcs, List.countP_append, List.countP_singleton]
  refine ⟨⟨?_, ?_, ?_⟩, ?_, fun pc hpc => ?_, fun hd' => ?_⟩
  · rw [hheld]
    exact I.held.fds
  · rw [hr, hf, hc]
    exact I.held.cores
  · rw [hr]
    exact I.held.stops
  · have halone := I.alone
    cases hb : p.building with
    | true =>
      have hzero := settled_iff.mp (hp hb).1
      rw [hb, if_pos rfl] at hcount
      omega
    | false =>
      rw [hb, if_neg nofun] at hcount
      omega
  · rw [hpcs] at hpc
    rcases List.mem_append.mp hpc with hpc | hpc
    · exact at_congr (I.at_pc pc hpc) hr hf hc
    · rw [List.mem_singleton.mp hpc]
      exact hat
  · rw [hd] at hd'
    obtain ⟨hset, hrun, hfd⟩ := I.gone hd'
    have hb : p.building = false := by
      by_contra hb
      have hnd := (hp (by simpa using hb)).2
      rw [hd'] at hnd
      cases hnd
    rw [hb, if_neg nofun] at hcount
    exact ⟨settled_iff.mpr (hcount.trans (settled_iff.mp hset)), hr.trans hrun, by omega⟩

/-- A command that cleans up. -/
theorem Disciplined.cleanup {s : XrayVpnService} {g : ResourceLog} (I : Disciplined s g)
    (hset : s.settled = true) :
    Disciplined s.cleanup (g.noteAll s.cleanupEffects) ∧
      Disciplined { s.cleanup with destroyed := true } (g.noteAll s.cleanupEffects) := by
  obtain ⟨H, hrun, hfd⟩ := I.held.cleanup
  have hpcs : s.cleanup.pcs = s.pcs := cleanup_pcs s
  have hset' : s.cleanup.settled = true := by
    unfold XrayVpnService.settled
    rw [hpcs]
    exact hset
  have hat : ∀ (r : XrayVpnService), ∀ pc ∈ s.cleanup.pcs, r.At pc := by
    intro r pc hpc
    rw [hpcs] at hpc
    exact at_of_not_building (by simpa using List.all_eq_true.mp hset pc hpc)
  have halone : s.cleanup.pcs.countP XrayPc.building ≤ 1 := by
    rw [hpcs]
    exact I.alone
  exact ⟨⟨H, halone, hat _, fun _ => ⟨hset', hrun, hfd⟩⟩,
    ⟨⟨H.fds, H.cores, H.stops⟩, halone, hat _, fun _ => ⟨hset', hrun, hfd⟩⟩⟩

theorem disciplined_step {D : Stores} (x : XrayVpnService × ResourceLog) (l : XrayLabel)
    (x' : XrayVpnService × ResourceLog) (I : Disciplined x.1 x.2)
    (hl : x.1.sequential l = true ∧ x.1.vacant l = true) (h : resourceStep D x l = some x') :
    Disciplined x'.1 x'.2 := by
  obtain ⟨s, g⟩ := x
  obtain ⟨s', g'⟩ := x'
  obtain ⟨es, hs, hg⟩ := observed_some h
  dsimp only at I hl hs hg ⊢
  subst hg
  obtain ⟨hseq, hv⟩ := hl
  cases step_turn hs with
  | job j inp => exact disciplined_job I hseq hv hs
  | start uuid hd =>
    exact I.launch .start List.map_append ⟨rfl, rfl, rfl, rfl⟩ trivial fun _ => ⟨hseq, hd⟩
  | stop | onRevoke =>
    rw [noteAll_append, noteAll_sendEvent]
    exact (I.cleanup hseq).1
  | forceStop =>
    rw [noteAll_append]
    exact (I.cleanup hseq).1
  | released =>
    rw [noteAll_append, noteAll_sendEvent]
    exact (I.cleanup hseq).2
  | idle hc hfd =>
    have hrun : s.running = [] := by
      rcases I.held.cores with hr | ⟨core, hcore, -⟩
      · exact hr
      · rw [hc] at hcore
        cases hcore
    exact ⟨⟨I.held.fds, I.held.cores, I.held.stops⟩, I.alone,
      fun pc hpc => at_congr (I.at_pc pc hpc) rfl rfl rfl, fun _ => ⟨hseq, hrun, hfd⟩⟩
  | unheard line => exact I
  | emitStatus line k =>
    exact I.launch (.emit line) List.map_append ⟨rfl, rfl, rfl, rfl⟩ trivial nofun

/-- **Resource discipline**: where each `bringUp` runs to its end before the next event and takes a
    descriptor over only while none is held, the descriptors are closed one by one in the order they
    were detached, each before the next one and all before the instance is destroyed; and at most
    one core runs, every other one started being stopped. -/
theorem resource_discipline (D : Stores) (ls : List XrayLabel) {s : XrayVpnService}
    (hC : Along (resourceStep D) (fun x l => x.1.sequential l = true ∧ x.1.vacant l = true)
      ({}, {}) ls)
    (h : exec (silent (XrayVpnService.step D)) {} ls = some s) :
    ∃ log, exec (resourceStep D) ({}, {}) ls = some (s, log) ∧
      (log.detached = log.closed ∨ ∃ fd, log.detached = log.closed ++ [fd]) ∧
      s.running.length ≤ 1 ∧ (∀ core ∈ log.started, core ∈ log.stopped ∨ core ∈ s.running) ∧
      (s.destroyed = true → log.detached = log.closed ∧ s.running = []) := by
  obtain ⟨log, hlog⟩ := exec_observed (fun _ _ es g => ResourceLog.noteAll g es) {} h
  have I : Disciplined s log :=
    exec_inv (I := fun x => Disciplined x.1 x.2) disciplined_step disciplined_init hC hlog
  refine ⟨log, hlog, ?_, ?_, I.held.stops, fun hd => ?_⟩
  · rw [I.held.fds, XrayVpnService.held]
    split
    · exact .inr ⟨_, rfl⟩
    · exact .inl (List.append_nil _)
  · rcases I.held.cores with hr | ⟨core, -, hr, -⟩
    · rw [hr]
      exact Nat.zero_le 1
    · rw [hr]
      exact Nat.le_refl 1
  · obtain ⟨-, hrun, hfd⟩ := I.gone hd
    refine ⟨?_, hrun⟩
    rw [I.held.fds, XrayVpnService.held, if_neg (by omega), List.append_nil]

/-- A `bringUp` to its end, on the descriptor `fd`. -/
def comeUp (j fd : Nat) : List XrayLabel :=
  List.replicate 12 (.job j { pfd := some fd })

/-- A session, a STOP, a second session, and the system's `onDestroy`. -/
def twoSessions : List XrayLabel :=
  [XrayLabel.start (some "xray1")] ++ comeUp 0 40 ++ [XrayLabel.stop, .start (some "xray2")] ++ comeUp 2 40 ++
    [XrayLabel.onDestroy]

theorem resource_discipline_twoSessions :
    ∃ s log, exec (resourceStep sampleStores) ({}, {}) twoSessions = some (s, log) ∧
      s.destroyed = true ∧ log.detached = log.closed ∧ s.running = [] := by
  have hrun : ∃ s, exec (silent (XrayVpnService.step sampleStores)) {} twoSessions = some s ∧
      s.destroyed = true := ⟨_, rfl, rfl⟩
  obtain ⟨s, hs, hd⟩ := hrun
  obtain ⟨log, hlog, -, -, -, hover⟩ := resource_discipline sampleStores twoSessions (by decide) hs
  exact ⟨s, log, hlog, hd, hover hd⟩

/-- A START on top of a live session, each `bringUp` to its end: **two descriptors and two cores are
    live together, and the first of each outlives the instance**. -/
theorem descriptor_leaked :
    ∃ x, exec (resourceStep sampleStores) ({}, {})
        ([XrayLabel.start (some "xray1")] ++ comeUp 0 40 ++ [XrayLabel.start (some "xray2")] ++ comeUp 2 41 ++
          [XrayLabel.onDestroy]) = some x ∧
      Along (resourceStep sampleStores) (fun x l => x.1.sequential l = true) ({}, {})
        ([XrayLabel.start (some "xray1")] ++ comeUp 0 40 ++ [XrayLabel.start (some "xray2")] ++ comeUp 2 41 ++
          [XrayLabel.onDestroy]) ∧
      x.1.destroyed = true ∧ x.2.detached = [40, 41] ∧ x.2.closed = [41] ∧
      x.2.started = [0, 1] ∧ x.2.stopped = [1] ∧ x.1.running = [0] := by
  refine ⟨_, rfl, ?_⟩
  decide

end SwiftVpn
