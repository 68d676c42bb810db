/-
  File:      SwiftVpn/Xray/Tester.lean
  Subject:   TEST CORES AND THE TUNNEL'S CORE in the `:xray` process: XrayTester.kt beside
             XrayVpnService.kt.

  * `TestPc`, `testStep` -- one call of `latency`, `probe` or `downloadSpeed`, cut at the guard on the
    tunnel, what is read before the mutex, the mutex, the port, the two ends of `startLoop(cfg, 0)`,
    the fetch, `stopLoop` and the cooldown. What the store, the runtime, the port, the config, the
    native calls and the network answer is an input (`TestInput.ok`).
  * `XrayProcess` -- the service instances of the process (Xray/Service.lean), the static flag
    `isTunnelRunning` they share, and the test calls. `XrayEngine.isRunning` is never true in this
    process: its `activeUuid` is set by the router, in the UI process.
  * `clear` -- `cleanup` drops the flag first and stops the core later: a cleanup is a `clear` and,
    at any later moment, the step of the service that stops the core and closes the descriptor.
  * `entered` -- the tunnel's cores between the entry into `startLoop(config, fd)`, which comes with
    the log line before it, and the end of the `stopLoop` of a cleanup. A cleanup that comes while
    the core is still inside `startLoop` does not stop it.

  * `inTurn` -- a START comes only while the tunnel is at rest and no probe is past its check, a check
    comes only while no session is coming up or being cleaned up, and a cleanup reaches `stopLoop` only
    while no core is inside `startLoop`;
  * `Course` -- what then holds of the session: whoever has entered `startLoop` is the one core of the
    newest instance, and the flag, a cleanup or a coroutine stands for it;
  * `probes_exclusive` -- along such steps there is never a probe's core beside one of the tunnel;
  * `probe_overlaps` -- the check is made before the wait for a mutex that the tunnel never takes, so
    without that they overlap.
-/
import SwiftVpn.Lib.Machine
import SwiftVpn.Xray.Commands

namespace SwiftVpn

open Machine

/-! ## 1. A test call -/

/-- The three measurements of XrayTester on an Xray profile. -/
inductive TestKind where
  | latency
  | probe
  | downloadSpeed
  deriving DecidableEq, Repr

/-- Where a test call stands. -/
inductive TestPc where
  | check
  | prepare
  | lock
  -- `latency`
  | parse
  | measure
  -- `probe` and `downloadSpeed`
  | port
  | config
  | starting
  | fetch
  | stop
  | cooldown
  | delay (wake : Int)
  | unlock
  | done
  deriving DecidableEq, Repr

structure TestCall where
  kind : TestKind
  pc : TestPc
  deriving DecidableEq, Repr

/-- What a step of a test reads from outside: the clock, and whether what it does succeeds. -/
structure TestInput where
  now : Int := 0
  ok : Bool := true
  deriving DecidableEq, Repr

/-- `CORE_COOLDOWN_MS`. -/
def coreCooldownMs : Int := 300

/-- The points at which the core of a probe exists: from the entry into `startLoop(cfg, 0)` to the
    end of `stopLoop`. -/
def TestPc.coreRuns : TestPc → Bool
  | .starting | .fetch | .stop => true
  | _ => false

/-- The points between the check of a probe and the end of its `stopLoop`. -/
def TestCall.committed (t : TestCall) : Bool :=
  match t.kind, t.pc with
  | .latency, _ => false
  | _, .prepare | _, .lock | _, .port | _, .config => true
  | _, pc => pc.coreRuns

/-! ## 2. The process -/

structure XrayProcess where
  services : List XrayVpnService := []
  isTunnelRunning : Bool := false
  /-- the cleanups that have dropped the flag and not yet stopped the core -/
  clearing : Nat := 0
  /-- the tunnel's cores, by the instance and the number -/
  entered : List (Nat × Nat) := []
  mutex : Option Nat := none
  tests : List TestCall := []
  deriving DecidableEq, Repr

inductive ProcessLabel where
  | create
  | service (k : Nat) (l : XrayLabel)
  | clear
  | request (kind : TestKind)
  | test (i : Nat) (inp : TestInput)
  deriving DecidableEq, Repr

namespace XrayVpnService

/-- The step ends a `cleanup`. -/
def cleansUp (s : XrayVpnService) : XrayLabel → Bool
  | .stop | .forceStop | .onRevoke => true
  | .onDestroy => s.controller ≠ none || s.tunFd ≥ 0
  | .job j _ =>
    match s.pcs[j]? with
    | some .cleanup | some .restart | some (.stallCleanup ..) => true
    | _ => false
  | _ => false

/-- The core whose `startLoop` the step enters. -/
def enters (s : XrayVpnService) : XrayLabel → Option Nat
  | .job j _ =>
    match s.pcs[j]? with
    | some (.log _ _ core) => some core
    | _ => none
  | _ => none

/-- The step sets `isTunnelRunning`. -/
def raises (s : XrayVpnService) : XrayLabel → Bool
  | .job j _ =>
    match s.pcs[j]? with
    | some (.running _) => true
    | _ => false
  | _ => false

/-- The core is inside `startLoop`. -/
def isStarting (s : XrayVpnService) (core : Nat) : Bool :=
  s.pcs.any fun pc => match pc with
    | .startLoop _ _ c => c = core
    | _ => false

end XrayVpnService

namespace XrayProcess

/-- The cores entered after a step `l` of the instance `k`, which is `svc`. -/
def enteredAfter (s : XrayProcess) (k : Nat) (svc : XrayVpnService) (l : XrayLabel) :
    List (Nat × Nat) :=
  match svc.enters l with
  | some core => s.entered ++ [(k, core)]
  | none =>
    if svc.cleansUp l then
      match svc.controller with
      | some core => if svc.isStarting core then s.entered else s.entered.filter (· ≠ (k, core))
      | none => s.entered
    else s.entered

/-- The test `i` has moved. -/
def goto (s : XrayProcess) (i : Nat) (t : TestCall) : XrayProcess :=
  { s with tests := s.tests.set i t }

/-- One step of the test call `i`, which is `t`; `none` where it has to wait. -/
def testStep (s : XrayProcess) (i : Nat) (t : TestCall) (inp : TestInput) : Option XrayProcess :=
  match t.pc with
  | .check =>
    if s.isTunnelRunning then some (s.goto i { t with pc := .done })
    else some (s.goto i { t with pc := .prepare })
  -- the link and the runtime
  | .prepare => some (s.goto i { t with pc := if inp.ok then .lock else .done })
  | .lock =>
    if s.mutex = none then
      some { s.goto i { t with pc := if t.kind = .latency then .parse else .port } with
        mutex := some i }
    else none
  -- a link that does not parse leaves without the cooldown
  | .parse => some (s.goto i { t with pc := if inp.ok then .measure else .unlock })
  -- `measureOutboundDelay` builds and closes its core within the call
  | .measure => some (s.goto i { t with pc := .cooldown })
  -- so does a test without a port
  | .port => some (s.goto i { t with pc := if inp.ok then .config else .unlock })
  | .config => some (s.goto i { t with pc := if inp.ok then .starting else .cooldown })
  -- a core whose `startLoop` threw is not stopped
  | .starting => some (s.goto i { t with pc := if inp.ok then .fetch else .cooldown })
  | .fetch => some (s.goto i { t with pc := .stop })
  | .stop => some (s.goto i { t with pc := .cooldown })
  | .cooldown => some (s.goto i { t with pc := .delay (inp.now + coreCooldownMs) })
  | .delay wake => if wake ≤ inp.now then some (s.goto i { t with pc := .unlock }) else none
  | .unlock => some { s.goto i { t with pc := .done } with mutex := none }
  | .done => none

def step (D : Stores) (s : XrayProcess) : ProcessLabel → Option XrayProcess
  | .create => some { s with services := s.services ++ [{}] }
  | .service k l =>
    match s.services[k]? with
    | none => none
    | some svc =>
      if svc.cleansUp l = true ∧ s.clearing = 0 then none
      else match svc.step D l with
        | none => none
        | some (svc', _) => some { s with
            services := s.services.set k svc'
            isTunnelRunning := s.isTunnelRunning || svc.raises l
            clearing := if svc.cleansUp l then s.clearing - 1 else s.clearing
            entered := s.enteredAfter k svc l }
  -- the first statement of a `cleanup`
  | .clear => some { s with isTunnelRunning := false, clearing := s.clearing + 1 }
  | .request kind =>
    some { s with tests := s.tests ++ [⟨kind, if kind = .latency then .prepare else .check⟩] }
  | .test i inp =>
    match s.tests[i]? with
    | none => none
    | some t => s.testStep i t inp

/-- No probe is between its check and its `stopLoop`. -/
def noProbe (s : XrayProcess) : Bool := s.tests.all fun t => !t.committed

end XrayProcess

/-! ## 3. When the requests come -/

namespace XrayPc

/-- From the first step of `bringUp` to the flag; the coroutine of `autoRestart` leads there. -/
def rising : XrayPc → Bool
  | .restart | .relaunch | .start | .config _ | .establish _ | .ensure _ _ | .detachFd _ _
  | .newCore _ _ | .log _ _ _ | .startLoop _ _ _ | .running _ => true
  | _ => false

/-- From a failure to the end of its `cleanup`. -/
def falling : XrayPc → Bool
  | .fail _ | .cleanup | .stallFail _ _ | .stallCleanup _ _ => true
  | _ => false

/-- From `newCoreController` to the end of `startLoop`. -/
def loading : XrayPc → Bool
  | .log _ _ _ | .startLoop _ _ _ => true
  | _ => false

/-- Before the entry into `startLoop`, with no core of an earlier session left. -/
def opening : XrayPc → Bool
  | .relaunch | .start | .config _ | .establish _ | .ensure _ _ | .detachFd _ _ | .newCore _ _
  | .log _ _ _ => true
  | _ => false

/-- A `cleanup` comes next. -/
def cleans : XrayPc → Bool
  | .cleanup | .restart | .stallCleanup _ _ => true
  | _ => false

/-- Between the entry into `startLoop` and the flag, or on the way to a `cleanup`. -/
def holding : XrayPc → Bool
  | .startLoop _ _ _ | .running _ => true
  | pc => pc.falling

end XrayPc

namespace XrayVpnService

/-- A session is coming up. -/
def rising (s : XrayVpnService) : Bool := s.pcs.any XrayPc.rising

/-- A session that failed is being cleaned up. -/
def falling (s : XrayVpnService) : Bool := s.pcs.any XrayPc.falling

/-- A core is about to enter `startLoop`, or inside. -/
def loading (s : XrayVpnService) : Bool := s.pcs.any XrayPc.loading

/-- The step is the watchdog's. -/
def stalls (s : XrayVpnService) : XrayLabel → Bool
  | .job j _ =>
    match s.pcs[j]? with
    | some (.stall _ _) => true
    | _ => false
  | _ => false

end XrayVpnService

/-- What the system asks of the service. -/
def XrayLabel.commands : XrayLabel → Bool
  | .start _ | .stop | .forceStop | .onRevoke | .onDestroy => true
  | _ => false

namespace XrayProcess

/-- The instance `k` is the newest. -/
def newest (s : XrayProcess) (k : Nat) : Bool := k + 1 == s.services.length

/-- The flag is down, and no session comes up, has failed or is being cleaned up. -/
def atRest (s : XrayProcess) : Bool :=
  !s.isTunnelRunning && s.clearing == 0 && s.services.all fun svc => !svc.rising && !svc.falling

/-- A test that finds the flag down makes its check neither while a session comes up nor while one that
    has a core is being cleaned up. A START comes while the tunnel is at rest and no probe is between its
    check and its `stopLoop`. The commands reach the newest instance, a new one is made at rest, a
    cleanup reaches the core outside `startLoop`, and the watchdog acts while the session is up. -/
def inTurn (s : XrayProcess) : ProcessLabel → Bool
  | .test i _ => s.tests[i]?.all fun t => t.pc ≠ .check || s.isTunnelRunning ||
      s.services.all fun svc => !svc.rising &&
        (svc.controller == none || (s.clearing == 0 && !svc.falling))
  | .create => s.atRest
  | .service k (.start _) => s.newest k && s.atRest && s.noProbe
  | .service k l => s.services[k]?.all fun svc =>
      (!l.commands || s.newest k) && (!svc.cleansUp l || !svc.loading) &&
        (!svc.stalls l || (s.newest k && s.isTunnelRunning && !svc.rising))
  | _ => true

end XrayProcess

/-! ## 4. The steps -/

theorem TestCall.committed_of_coreRuns {t : TestCall} (hk : t.kind ≠ .latency)
    (h : t.pc.coreRuns = true) : t.committed = true := by
  obtain ⟨kind, pc⟩ := t
  cases kind with
  | latency => exact absurd rfl hk
  | probe | downloadSpeed =>
    cases pc with
    | starting | fetch | stop => rfl
    | _ => cases h

section Steps

variable {s s' : XrayProcess}

/-- A test call moves by itself, and only a check that passes commits it. -/
theorem testStep_committed {i : Nat} {t : TestCall} {inp : TestInput}
    (h : s.testStep i t inp = some s') :
    ∃ t' mutex, s' = { s.goto i t' with mutex := mutex } ∧
      (t'.committed = true → t.committed = true ∨ (t.pc = .check ∧ s.isTunnelRunning = false)) := by
  obtain ⟨kind, pc⟩ := t
  cases pc with
  | check =>
    simp only [XrayProcess.testStep] at h
    split at h
    · obtain rfl := Option.some.inj h
      exact ⟨_, _, rfl, by cases kind <;> nofun⟩
    · rename_i hf
      obtain rfl := Option.some.inj h
      exact ⟨_, _, rfl, fun _ => .inr ⟨rfl, Bool.eq_false_iff.mpr hf⟩⟩
  | lock =>
    simp only [XrayProcess.testStep] at h
    split at h
    · obtain rfl := Option.some.inj h
      exact ⟨_, _, rfl, fun hc => .inl (by cases kind <;> first | rfl | cases hc)⟩
    · cases h
  | delay wake =>
    simp only [XrayProcess.testStep] at h
    split at h
    · obtain rfl := Option.some.inj h
      exact ⟨_, _, rfl, by cases kind <;> nofun⟩
    · cases h
  | prepare | parse | port | config | starting =>
    simp only [XrayProcess.testStep] at h
    obtain rfl := Option.some.inj h
    refine ⟨_, _, rfl, fun hc => .inl ?_⟩
    cases kind <;> cases hok : inp.ok <;> simp_all [TestCall.committed, TestPc.coreRuns]
  | measure | fetch | stop | cooldown | unlock =>
    simp only [XrayProcess.testStep] at h
    obtain rfl := Option.some.inj h
    refine ⟨_, _, rfl, fun hc => .inl ?_⟩
    cases kind <;> simp_all [TestCall.committed, TestPc.coreRuns]
  | done => cases h

/-- A step of an instance, in the process. -/
theorem step_service {D : Stores} {k : Nat} {l : XrayLabel}
    (h : s.step D (.service k l) = some s') :
    ∃ svc svc' es, s.services[k]? = some svc ∧ svc.step D l = some (svc', es) ∧
      (svc.cleansUp l = true → s.clearing ≠ 0) ∧
      s' = { s with
        services := s.services.set k svc'
        isTunnelRunning := s.isTunnelRunning || svc.raises l
        clearing := if svc.cleansUp l then s.clearing - 1 else s.clearing
        entered := s.enteredAfter k svc l } := by
  simp only [XrayProcess.step] at h
  split at h
  · cases h
  · rename_i svc hk
    split at h
    · cases h
    · rename_i hclear
      split at h
      · cases h
      · rename_i svc' es hs
        exact ⟨svc, svc', es, hk, hs, fun hc he => hclear ⟨hc, he⟩, (Option.some.inj h).symm⟩

end Steps

/-- What a step of a coroutine does to the course of a session. -/
structure Phase (s r : XrayVpnService) (pc pc' : XrayPc) : Prop where
  rising : pc'.rising = true → pc.rising = true
  falling : pc'.falling = true → pc.rising = true ∨ pc.falling = true ∨ ∃ down up, pc = .stall down up
  opening : pc'.opening = true →
    (pc.opening = true ∧ ∀ id fd core, pc ≠ .log id fd core) ∨ pc.cleans = true
  holding : pc.holding = true → pc'.holding = true ∨ (∃ id, pc = .running id) ∨ pc.cleans = true
  enters : ∀ id fd core, pc = .log id fd core → pc'.holding = true
  core : ∀ id fd core, pc' = .log id fd core → r.controller = some core
  controller : r.controller = s.controller ∨ pc.cleans = true ∨ ∃ id fd, pc = .newCore id fd

theorem XrayMove.phase {D : Stores} {s r : XrayVpnService} {inp : XrayInput} {pc pc' : XrayPc}
    {es : List XrayEffect} (h : XrayMove D s inp pc r pc' es) : Phase s r pc pc' := by
  cases h with
  | newCore id fd =>
    exact ⟨fun _ => rfl, nofun, fun _ => .inl ⟨rfl, nofun⟩, nofun, nofun,
      fun _ _ _ he => by cases he; rfl, .inr (.inr ⟨id, fd, rfl⟩)⟩
  | cleanup | stallCleanup =>
    exact ⟨nofun, nofun, nofun, fun _ => .inr (.inr rfl), nofun, nofun, .inr (.inl rfl)⟩
  | restart => exact ⟨fun _ => rfl, nofun, fun _ => .inr rfl, nofun, nofun, nofun, .inr (.inl rfl)⟩
  | running id =>
    exact ⟨nofun, nofun, nofun, fun _ => .inr (.inl ⟨id, rfl⟩), nofun, nofun, .inl rfl⟩
  | giveUp down up =>
    exact ⟨nofun, fun _ => .inr (.inr ⟨down, up, rfl⟩), nofun, nofun, nofun, nofun, .inl rfl⟩
  | fail | stallFail =>
    exact ⟨nofun, fun _ => .inr (.inl rfl), nofun, fun _ => .inl rfl, nofun, nofun, .inl rfl⟩
  | noProfile | unreadable | refused | unready | coreThrew | loopThrew =>
    exact ⟨nofun, fun _ => .inl rfl, nofun, fun _ => .inl rfl, nofun, nofun, .inl rfl⟩
  | begun | read | established | ready | detachFd =>
    exact ⟨fun _ => rfl, nofun, fun _ => .inl ⟨rfl, nofun⟩, nofun, nofun, nofun, .inl rfl⟩
  | log | startLoop =>
    exact ⟨fun _ => rfl, nofun, nofun, fun _ => .inl rfl, fun _ _ _ _ => rfl, nofun, .inl rfl⟩
  | _ => exact ⟨nofun, nofun, nofun, nofun, nofun, nofun, .inl rfl⟩

/-- A coroutine that is launched comes up after a restart only, or when the watchdog acts. -/
theorem rising_of_mem_launched {s : XrayVpnService} {pc p : XrayPc} (h : p ∈ pc.launched s)
    (hp : p.rising = true) :
    pc = .relaunch ∨ ((∃ down up, pc = .stall down up) ∧ p.opening = false) := by
  unfold XrayPc.launched at h
  split at h
  · split at h
    · cases h
    · rw [List.mem_singleton.mp h] at hp
      cases hp
  · exact .inl rfl
  · split at h
    · rw [List.mem_singleton.mp h]
      exact .inr ⟨⟨_, _, rfl⟩, rfl⟩
    · cases h
  · cases h

theorem length_launched (s : XrayVpnService) (pc : XrayPc) : (pc.launched s).length ≤ 1 := by
  unfold XrayPc.launched
  split
  · split <;> decide
  · decide
  · split <;> decide
  · decide

theorem XrayPc.rising_of_opening {pc : XrayPc} (h : pc.opening = true) : pc.rising = true := by
  cases pc with
  | relaunch | start | config | establish | ensure | detachFd | newCore | log => rfl
  | _ => cases h

theorem XrayPc.rising_or_falling_of_cleans {pc : XrayPc} (h : pc.cleans = true) :
    pc.rising = true ∨ pc.falling = true := by
  cases pc with
  | restart => exact .inl rfl
  | cleanup | stallCleanup => exact .inr rfl
  | _ => cases h

/-! ## 5. The course of a session -/

/-- One coroutine at most brings a session up. -/
def OneRising (pcs : List XrayPc) : Prop :=
  ∃ j, ∀ (i : Nat) (p : XrayPc), pcs[i]? = some p → p.rising = true → i = j

theorem OneRising.unique {pcs : List XrayPc} (h : OneRising pcs) {i j : Nat} {p q : XrayPc}
    (hi : pcs[i]? = some p) (hp : p.rising = true) (hj : pcs[j]? = some q) (hq : q.rising = true) :
    i = j := by
  obtain ⟨k, hk⟩ := h
  exact (hk i p hi hp).trans (hk j q hj hq).symm

theorem OneRising.move {pcs new : List XrayPc} (h : OneRising pcs) {j : Nat} {pc pc' : XrayPc}
    (hj : pcs[j]? = some pc) (hpc : pc'.rising = true → pc.rising = true) (hlen : new.length ≤ 1)
    (hnew : ∀ p ∈ new, p.rising = true →
      (pc.rising = true ∧ pc'.rising = false) ∨ ∀ q ∈ pcs, q.rising = false) :
    OneRising ((pcs ++ new).set j pc') := by
  have hj' : (pcs ++ new)[j]? = some pc := by
    rw [List.getElem?_append_left (List.getElem?_eq_some_iff.mp hj).1]
    exact hj
  by_cases hn : ∃ p ∈ new, p.rising = true
  · -- the new one is the only one
    obtain ⟨p₀, hp₀, hrising⟩ := hn
    refine ⟨pcs.length, fun i p hi hp => ?_⟩
    have hold : ∀ (i : Nat) (p : XrayPc), pcs[i]? = some p → p.rising = true →
        i = j ∧ pc'.rising = false := by
      intro i p hi hp
      rcases hnew p₀ hp₀ hrising with ⟨hpc, hpc'⟩ | hnone
      · exact ⟨h.unique hi hp hj hpc, hpc'⟩
      · rw [hnone p (List.mem_of_getElem? hi)] at hp
        cases hp
    rcases get_set hj' hi with ⟨-, rfl⟩ | ⟨hne, hi⟩
    · rw [(hold j pc hj (hpc hp)).2] at hp
      cases hp
    · rw [List.getElem?_append] at hi
      split at hi
      · exact absurd (hold i p hi hp).1 hne
      · have hlt := (List.getElem?_eq_some_iff.mp hi).1
        omega
  · obtain ⟨k, hk⟩ := h
    refine ⟨k, fun i p hi hp => ?_⟩
    rcases get_set hj' hi with ⟨rfl, rfl⟩ | ⟨-, hi⟩
    · exact hk i pc hj (hpc hp)
    · rw [List.getElem?_append] at hi
      split at hi
      · exact hk i p hi hp
      · exact absurd ⟨p, List.mem_of_getElem? hi, hp⟩ hn

/-- Where the newest instance is in the course of a session: `core` is the one that has entered
    `startLoop` and is not stopped, and `up` says that the flag is up or a cleanup under way. -/
structure Course (s : XrayVpnService) (core : Option Nat) (up : Prop) : Prop where
  one : OneRising s.pcs
  opening : ∀ p ∈ s.pcs, p.opening = true → core = none
  log : ∀ id fd c, .log id fd c ∈ s.pcs → s.controller = some c
  entered : ∀ c, core = some c → s.controller = some c ∧ (up ∨ ∃ p ∈ s.pcs, p.holding = true)

/-- The core after a step. -/
def XrayVpnService.coreAfter (s : XrayVpnService) (l : XrayLabel) (core : Option Nat) : Option Nat :=
  match s.enters l with
  | some c => some c
  | none => if s.cleansUp l then none else core

section Session

variable {D : Stores} {s s' : XrayVpnService} {core : Option Nat} {up up' : Prop}

theorem not_loading {id : Uuid} {fd c : Nat} (h : s.loading = false) : .log id fd c ∉ s.pcs := fun hm => by
  have hl := List.any_eq_false.mp h _ hm
  exact hl rfl

/-- A `cleanup` outside `startLoop` leaves no core. -/
theorem Course.cleaned (C : Course s core up) (hl : s.loading = false) {r : XrayVpnService}
    (hr : r.pcs = s.pcs) : Course r none up' := by
  refine ⟨hr ▸ C.one, fun _ _ _ => rfl, fun id fd c hm => ?_, fun _ he => by cases he⟩
  rw [hr] at hm
  exact absurd hm (not_loading hl)

/-- What the label of a coroutine's step says of the point where it stands. -/
theorem labels_of_get {j : Nat} (inp : XrayInput) {pc : XrayPc} (hj : s.pcs[j]? = some pc) :
    s.cleansUp (.job j inp) = pc.cleans ∧
      (∀ c, s.enters (.job j inp) = some c ↔ ∃ id fd, pc = .log id fd c) ∧
      (s.raises (.job j inp) = true ↔ ∃ id, pc = .running id) ∧
      (s.stalls (.job j inp) = true ↔ ∃ down up, pc = .stall down up) := by
  unfold XrayVpnService.cleansUp XrayVpnService.enters XrayVpnService.raises XrayVpnService.stalls
  simp only [hj]
  cases pc <;> simp [XrayPc.cleans]

/-- No core has been entered after a step that enters none, where none had been or the step cleans up. -/
theorem coreAfter_eq_none {j : Nat} {inp : XrayInput} {pc : XrayPc} (hj : s.pcs[j]? = some pc)
    (hlog : ∀ id fd c, pc ≠ .log id fd c) (h : core = none ∨ pc.cleans = true) :
    s.coreAfter (.job j inp) core = none := by
  obtain ⟨hcleans, henters, -, -⟩ := labels_of_get inp hj
  unfold XrayVpnService.coreAfter
  cases he : s.enters (.job j inp) with
  | some c =>
    obtain ⟨id, fd, hpc⟩ := (henters c).mp he
    exact absurd hpc (hlog id fd c)
  | none =>
    dsimp only
    rw [hcleans]
    rcases h with rfl | hc
    · split <;> rfl
    · rw [hc]
      rfl

/-- The step of a coroutine, along the course. -/
theorem Course.job {j : Nat} {inp : XrayInput} {es : List XrayEffect} (C : Course s core up)
    (h : s.step D (.job j inp) = some (s', es))
    (hclean : s.cleansUp (.job j inp) = true → s.loading = false)
    (hstall : s.stalls (.job j inp) = true → s.rising = false)
    (hup : up → s.cleansUp (.job j inp) = true ∨ up') (hraise : s.raises (.job j inp) = true → up') :
    Course s' (s.coreAfter (.job j inp) core) up' := by
  obtain ⟨pc, pc', r, hj, hmove, hr, hpcs⟩ := step_job h
  obtain ⟨hcleans, henters, hraises, hstalls⟩ := labels_of_get inp hj
  have P := hmove.phase
  have hmem : pc ∈ s.pcs := List.mem_of_getElem? hj
  have hcontroller : s'.controller = r.controller := by rw [hr]
  -- nobody else comes up beside one that does
  have hother : pc.rising = true → ∀ (i : Nat) (p : XrayPc), i ≠ j → s.pcs[i]? = some p →
      p.rising = false := by
    intro hpc i p hne hi
    cases hp : p.rising with
    | false => rfl
    | true => exact absurd (C.one.unique hi hp hj hpc) hne
  have hcore : (∀ id fd c, pc ≠ .log id fd c) → core = none ∨ pc.cleans = true →
      s.coreAfter (.job j inp) core = none := coreAfter_eq_none hj
  refine ⟨?_, fun p hp ho => ?_, fun id fd c hp => ?_, fun c hc => ?_⟩
  · rw [hpcs]
    refine C.one.move hj P.rising (length_launched s pc) fun p hp hrising => ?_
    rcases rising_of_mem_launched hp hrising with rfl | ⟨⟨down, upl, rfl⟩, -⟩
    · refine .inl ⟨rfl, ?_⟩
      cases hmove
      rfl
    · have hquiet := hstall (hstalls.mpr ⟨down, upl, rfl⟩)
      exact .inr fun q hq => Bool.eq_false_iff.mpr (List.any_eq_false.mp hquiet q hq)
  · rw [hpcs] at hp
    rcases mem_append_set hj hp with rfl | hp | ⟨i, hne, hi⟩
    · rcases P.opening ho with ⟨hpo, hlog⟩ | hc
      · exact hcore hlog (.inl (C.opening pc hmem hpo))
      · refine hcore (fun id fd c he => ?_) (.inr hc)
        rw [he] at hc
        cases hc
    · rcases rising_of_mem_launched hp (XrayPc.rising_of_opening ho) with rfl | ⟨-, hno⟩
      · exact hcore nofun (.inl (C.opening .relaunch hmem rfl))
      · rw [hno] at ho
        cases ho
    · have hpr := XrayPc.rising_of_opening ho
      refine hcore (fun id fd c he => ?_) (.inl (C.opening p (List.mem_of_getElem? hi) ho))
      rw [hother (by rw [he]; rfl) i p hne hi] at hpr
      cases hpr
  · rw [hcontroller]
    rw [hpcs] at hp
    rcases mem_append_set hj hp with rfl | hp | ⟨i, hne, hi⟩
    · exact P.core id fd c rfl
    · rcases mem_launched hp with he | he | he <;> cases he
    · have hs := C.log id fd c (List.mem_of_getElem? hi)
      rcases P.controller with hk | hk | ⟨id', fd', rfl⟩
      · exact hk.trans hs
      · exact absurd (List.mem_of_getElem? hi) (not_loading (hclean (hcleans.trans hk)))
      · have hno := hother rfl i _ hne hi
        cases hno
  · rw [hcontroller]
    unfold XrayVpnService.coreAfter at hc
    have hpc' : pc' ∈ s'.pcs := by
      rw [hpcs]
      exact List.mem_of_getElem? (List.getElem?_set_self (by
        rw [List.length_append]
        have := (List.getElem?_eq_some_iff.mp hj).1
        omega))
    have hkeep : pc.cleans = false → pc.opening = false ∨ (∃ id fd c, pc = .log id fd c) →
        r.controller = s.controller := by
      intro hcl hop
      rcases P.controller with hk | hk | ⟨id, fd, rfl⟩
      · exact hk
      · rw [hk] at hcl
        cases hcl
      · rcases hop with hop | ⟨_, _, _, he⟩
        · cases hop
        · cases he
    cases he : s.enters (.job j inp) with
    | some c' =>
      rw [he] at hc
      obtain rfl := Option.some.inj hc
      obtain ⟨id, fd, rfl⟩ := (henters c').mp he
      exact ⟨(hkeep rfl (.inr ⟨id, fd, c', rfl⟩)).trans (C.log id fd c' hmem),
        .inr ⟨pc', hpc', P.enters id fd c' rfl⟩⟩
    | none =>
      rw [he] at hc
      dsimp only at hc
      rw [hcleans] at hc
      cases hcl : pc.cleans with
      | true =>
        rw [hcl] at hc
        cases hc
      | false =>
        rw [hcl, if_neg (by decide)] at hc
        obtain ⟨hs, hstands⟩ := C.entered c hc
        refine ⟨(hkeep hcl (.inl ?_)).trans hs, ?_⟩
        · cases ho : pc.opening with
          | false => rfl
          | true =>
            rw [C.opening pc hmem ho] at hc
            cases hc
        · rcases hstands with hu | hh
          · exact .inl ((hup hu).resolve_left (by rw [hcleans, hcl]; decide))
          · have hnext : pc.holding = true ∨
                ∃ p ∈ (s.pcs ++ pc.launched s).set j pc', p.holding = true := exists_append_set hj hh
            rcases hnext with hh | hh
            · rcases P.holding hh with hh | hrun | hh
              · exact .inr ⟨pc', hpc', hh⟩
              · exact .inl (hraise (hraises.mpr hrun))
              · rw [hcl] at hh
                cases hh
            · rw [hpcs]
              exact .inr hh

/-- **One step of the newest instance**: the course goes on. -/
theorem Course.step {l : XrayLabel} {es : List XrayEffect} (C : Course s core up)
    (h : s.step D l = some (s', es)) (hstart : ∀ uuid, l = .start uuid → s.rising = false ∧ core = none)
    (hclean : s.cleansUp l = true → s.loading = false) (hstall : s.stalls l = true → s.rising = false)
    (hup : up → s.cleansUp l = true ∨ up') (hraise : s.raises l = true → up') :
    Course s' (s.coreAfter l core) up' := by
  -- another coroutine that brings nothing up
  have hsame : ∀ {r : XrayVpnService} (new : List XrayPc), r.pcs = s.pcs ++ new →
      r.controller = s.controller → (up → up') → (∀ p ∈ new, p.rising = false ∧ p.holding = false) →
      Course r core up' := by
    intro r new hpcs hcontroller hup hnew
    refine ⟨?_, fun p hp ho => ?_, fun id fd c hp => ?_, fun c hc => ?_⟩
    · obtain ⟨j, hj⟩ := C.one
      refine ⟨j, fun i p hi hp => ?_⟩
      rw [hpcs, List.getElem?_append] at hi
      split at hi
      · exact hj i p hi hp
      · rw [(hnew p (List.mem_of_getElem? hi)).1] at hp
        cases hp
    · rw [hpcs] at hp
      rcases List.mem_append.mp hp with hp | hp
      · exact C.opening p hp ho
      · have hr := XrayPc.rising_of_opening ho
        rw [(hnew p hp).1] at hr
        cases hr
    · rw [hpcs] at hp
      rw [hcontroller]
      rcases List.mem_append.mp hp with hp | hp
      · exact C.log id fd c hp
      · have hr := (hnew _ hp).1
        cases hr
    · obtain ⟨hk, hs⟩ := C.entered c hc
      refine ⟨hcontroller.trans hk, hs.imp hup fun hh => ?_⟩
      obtain ⟨p, hp, hh⟩ := hh
      refine ⟨p, ?_, hh⟩
      rw [hpcs]
      exact List.mem_append_left _ hp
  have hnone : ∀ p ∈ ([] : List XrayPc), p.rising = false ∧ p.holding = false :=
    fun p hp => absurd hp List.not_mem_nil
  cases l with
  | start uuid =>
    obtain ⟨hrising, rfl⟩ := hstart uuid rfl
    simp only [XrayVpnService.step] at h
    split at h
    · cases h
    · obtain ⟨rfl, rfl⟩ := h
      have hquiet : ∀ p ∈ s.pcs, p.rising = false := fun p hp =>
        Bool.eq_false_iff.mpr (List.any_eq_false.mp hrising p hp)
      have hpcs : ({ s with uuid := uuid, reporter := s.reporter || uuid.isSome
                            totalIn := 0, totalOut := 0 } : XrayVpnService).bringUp.pcs
          = s.pcs ++ [.start] := by
        simp [XrayVpnService.bringUp, XrayVpnService.pcs]
      refine ⟨⟨s.pcs.length, fun i p hi hp => ?_⟩, fun _ _ _ => rfl, fun id fd c hp => ?_,
        fun _ hc => by cases hc⟩
      · rw [hpcs] at hi
        rcases get_concat hi with hi | ⟨rfl, -⟩
        · rw [hquiet p (List.mem_of_getElem? hi)] at hp
          cases hp
        · rfl
      · rw [hpcs] at hp
        rcases List.mem_append.mp hp with hp | hp
        · have hr := hquiet _ hp
          cases hr
        · cases List.mem_singleton.mp hp
  | stop | forceStop | onRevoke =>
    simp only [XrayVpnService.step] at h
    split at h
    · cases h
    · obtain ⟨rfl, rfl⟩ := h
      exact C.cleaned (hclean rfl) (cleanup_pcs s)
  | onDestroy =>
    simp only [XrayVpnService.step] at h
    split at h
    · cases h
    · split at h
      · rename_i hc
        obtain ⟨rfl, rfl⟩ := h
        have hcl : s.cleansUp .onDestroy = true := by
          simpa [XrayVpnService.cleansUp] using hc
        have hcore : s.coreAfter .onDestroy core = none := by
          unfold XrayVpnService.coreAfter
          exact if_pos hcl
        rw [hcore]
        exact C.cleaned (hclean hcl) (cleanup_pcs s)
      · rename_i hc
        obtain ⟨rfl, rfl⟩ := h
        have hcl : s.cleansUp .onDestroy = false := by
          simpa [XrayVpnService.cleansUp, not_or] using hc
        have hcore : s.coreAfter .onDestroy core = core := by
          unfold XrayVpnService.coreAfter
          exact if_neg (by rw [hcl]; decide)
        rw [hcore]
        exact hsame [] (List.append_nil _).symm rfl
          (fun hu => (hup hu).resolve_left (by rw [hcl]; decide)) hnone
  | emitStatus line =>
    have hu' : up → up' := fun hu => (hup hu).resolve_left Bool.false_ne_true
    simp only [XrayVpnService.step] at h
    split at h
    · split at h
      · obtain ⟨rfl, rfl⟩ := h
        exact hsame [] (List.append_nil _).symm rfl hu' hnone
      · obtain ⟨rfl, rfl⟩ := h
        refine hsame [.emit line] ?_ rfl hu' fun p hp => ?_
        · simp [XrayVpnService.pcs]
        · rw [List.mem_singleton.mp hp]
          exact ⟨rfl, rfl⟩
    · obtain ⟨rfl, rfl⟩ := h
      exact hsame [] (List.append_nil _).symm rfl hu' hnone
  | job j inp => exact C.job h hclean hstall hup hraise

end Session

/-! ## 6. The exclusion -/

/-- The course of the newest instance; in the others nothing comes up or is cleaned up any more. -/
structure Tunnel (s : XrayProcess) : Prop where
  old : ∀ (k : Nat) (svc : XrayVpnService), s.services[k]? = some svc → s.newest k = false →
    svc.rising = false ∧ svc.falling = false
  course : ∀ (k : Nat) (svc : XrayVpnService), s.services[k]? = some svc → s.newest k = true →
    ∃ core, s.entered = core.toList.map (k, ·) ∧
      Course svc core (s.isTunnelRunning = true ∨ s.clearing ≠ 0)
  first : s.services = [] → s.entered = []

section Process

variable {s s' : XrayProcess}

theorem quiet_of_atRest (h : s.atRest = true) :
    s.isTunnelRunning = false ∧ s.clearing = 0 ∧
      ∀ svc ∈ s.services, svc.rising = false ∧ svc.falling = false := by
  unfold XrayProcess.atRest at h
  simp only [Bool.and_eq_true, Bool.not_eq_true', beq_iff_eq, List.all_eq_true] at h
  exact ⟨h.1.1, h.1.2, h.2⟩

/-- **Where the flag is down and nothing is under way, no core is entered.** -/
theorem Tunnel.entered (T : Tunnel s) (hflag : s.isTunnelRunning = false)
    (h : ∀ svc ∈ s.services, svc.rising = false ∧
      (svc.controller = none ∨ (s.clearing = 0 ∧ svc.falling = false))) : s.entered = [] := by
  cases hlast : s.services.getLast? with
  | none => exact T.first (List.getLast?_eq_none_iff.mp hlast)
  | some svc =>
    have hmem := List.mem_of_getLast? hlast
    have hlen : 0 < s.services.length := List.length_pos_of_mem hmem
    have hk : s.services[s.services.length - 1]? = some svc := by
      rw [← List.getLast?_eq_getElem?]
      exact hlast
    have hnewest : s.newest (s.services.length - 1) = true := by
      unfold XrayProcess.newest
      rw [beq_iff_eq]
      omega
    obtain ⟨core, he, C⟩ := T.course _ svc hk hnewest
    cases core with
    | none => exact he
    | some c =>
      exfalso
      obtain ⟨hrising, hcalm⟩ := h svc hmem
      obtain ⟨hcontroller, hstands⟩ := C.entered c rfl
      rcases hcalm with hno | ⟨hclear, hfalling⟩
      · rw [hno] at hcontroller
        cases hcontroller
      · rcases hstands with (hf | hcl) | ⟨p, hp, hh⟩
        · rw [hflag] at hf
          cases hf
        · exact hcl hclear
        · have hr := Bool.eq_false_iff.mpr (List.any_eq_false.mp hrising p hp)
          have hf := Bool.eq_false_iff.mpr (List.any_eq_false.mp hfalling p hp)
          unfold XrayPc.holding at hh
          split at hh
          · cases hr
          · cases hr
          · rw [hf] at hh
            cases hh

theorem entered_of_atRest (T : Tunnel s) (h : s.atRest = true) : s.entered = [] := by
  obtain ⟨hflag, hclear, hquiet⟩ := quiet_of_atRest h
  exact T.entered hflag fun svc hmem => ⟨(hquiet svc hmem).1, .inr ⟨hclear, (hquiet svc hmem).2⟩⟩

/-- What is entered after a step is what the course says. -/
theorem enteredAfter_eq {k : Nat} {svc : XrayVpnService} {l : XrayLabel} {core : Option Nat}
    {up : Prop} (he : s.entered = core.toList.map (k, ·)) (C : Course svc core up)
    (hclean : svc.cleansUp l = true → svc.loading = false) :
    s.enteredAfter k svc l = (svc.coreAfter l core).toList.map (k, ·) := by
  unfold XrayProcess.enteredAfter XrayVpnService.coreAfter
  cases hent : svc.enters l with
  | some c =>
    -- the core enters where none is left
    have hopen : core = none := by
      cases l with
      | job j inp =>
        unfold XrayVpnService.enters at hent
        dsimp only at hent
        split at hent
        · rename_i hj
          exact C.opening _ (List.mem_of_getElem? hj) rfl
        · cases hent
      | _ => cases hent
    rw [he, hopen]
    rfl
  | none =>
    dsimp only
    cases hcl : svc.cleansUp l with
    | false => exact he
    | true =>
      rw [if_pos rfl, if_pos rfl]
      have hidle : ∀ c, svc.isStarting c = false := by
        intro c
        unfold XrayVpnService.isStarting
        rw [List.any_eq_false]
        intro pc hpc
        have hl := List.any_eq_false.mp (hclean hcl) pc hpc
        cases pc <;> first | exact Bool.false_ne_true | exact absurd rfl hl
      cases core with
      | none =>
        rw [he]
        split
        · split <;> rfl
        · rfl
      | some c =>
        rw [(C.entered c rfl).1, he]
        dsimp only
        rw [hidle c, if_neg Bool.false_ne_true]
        simp

/-- A step of an instance that is not the newest: nothing begins there. -/
theorem old_step {D : Stores} {svc svc' : XrayVpnService} {l : XrayLabel} {es : List XrayEffect}
    (hq : svc.rising = false ∧ svc.falling = false) (h : svc.step D l = some (svc', es))
    (hc : l.commands = false) (hs : svc.stalls l = false) :
    svc.cleansUp l = false ∧ svc.enters l = none ∧ svc.raises l = false ∧
      svc'.rising = false ∧ svc'.falling = false := by
  have hall : ∀ p ∈ svc.pcs, p.rising = false ∧ p.falling = false := fun p hp =>
    ⟨Bool.eq_false_iff.mpr (List.any_eq_false.mp hq.1 p hp),
      Bool.eq_false_iff.mpr (List.any_eq_false.mp hq.2 p hp)⟩
  have hquiet : ∀ {r : XrayVpnService}, (∀ p ∈ r.pcs, p.rising = false ∧ p.falling = false) →
      r.rising = false ∧ r.falling = false := fun hr =>
    ⟨List.any_eq_false.mpr fun p hp => Bool.eq_false_iff.mp (hr p hp).1,
      List.any_eq_false.mpr fun p hp => Bool.eq_false_iff.mp (hr p hp).2⟩
  cases l with
  | job j inp =>
    obtain ⟨pc, pc', r, hj, hmove, hr, hpcs⟩ := step_job h
    obtain ⟨hcleans, henters, hraises, hstalls⟩ := labels_of_get inp hj
    have P := hmove.phase
    obtain ⟨hpr, hpf⟩ := hall pc (List.mem_of_getElem? hj)
    have hstall : ∀ down upl, pc ≠ .stall down upl := fun down upl he => by
      rw [hstalls.mpr ⟨down, upl, he⟩] at hs
      cases hs
    refine ⟨?_, ?_, ?_, hquiet fun p hp => ?_⟩
    · rw [hcleans, Bool.eq_false_iff]
      intro hcl
      rcases XrayPc.rising_or_falling_of_cleans hcl with he | he
      · rw [he] at hpr
        cases hpr
      · rw [he] at hpf
        cases hpf
    · cases he : svc.enters (.job j inp) with
      | none => rfl
      | some c =>
        obtain ⟨id, fd, rfl⟩ := (henters c).mp he
        cases hpr
    · cases he : svc.raises (.job j inp) with
      | false => rfl
      | true =>
        obtain ⟨id, rfl⟩ := hraises.mp he
        cases hpr
    · rw [hpcs] at hp
      rcases mem_append_set hj hp with rfl | hp | ⟨i, -, hi⟩
      · refine ⟨Bool.eq_false_iff.mpr fun he => ?_, Bool.eq_false_iff.mpr fun he => ?_⟩
        · rw [P.rising he] at hpr
          cases hpr
        · rcases P.falling he with he | he | ⟨down, upl, he⟩
          · rw [he] at hpr
            cases hpr
          · rw [he] at hpf
            cases hpf
          · exact absurd he (hstall down upl)
      · refine ⟨Bool.eq_false_iff.mpr fun he => ?_, ?_⟩
        · rcases rising_of_mem_launched hp he with rfl | ⟨⟨down, upl, he⟩, -⟩
          · cases hpr
          · exact absurd he (hstall down upl)
        · rcases mem_launched hp with rfl | rfl | rfl <;> rfl
      · exact hall p (List.mem_of_getElem? hi)
  | emitStatus line =>
    refine ⟨rfl, rfl, rfl, hquiet fun p hp => ?_⟩
    simp only [XrayVpnService.step] at h
    split at h
    · split at h
      · obtain ⟨rfl, rfl⟩ := h
        exact hall p hp
      · obtain ⟨rfl, rfl⟩ := h
        simp only [XrayVpnService.pcs, List.map_append, List.mem_append] at hp
        rcases hp with hp | hp
        · exact hall p hp
        · rw [List.mem_singleton.mp hp]
          exact ⟨rfl, rfl⟩
    · obtain ⟨rfl, rfl⟩ := h
      exact hall p hp
  | _ => cases hc

/-- What `inTurn` asks of a step of an instance. -/
theorem inTurn_service {k : Nat} {svc : XrayVpnService} {l : XrayLabel}
    (hk : s.services[k]? = some svc) (h : s.inTurn (.service k l) = true) :
    (∀ uuid, l = .start uuid → s.newest k = true ∧ s.atRest = true ∧ s.noProbe = true) ∧
      (l.commands = true → s.newest k = true) ∧
      (svc.cleansUp l = true → svc.loading = false) ∧
      (svc.stalls l = true → s.newest k = true ∧ s.isTunnelRunning = true ∧ svc.rising = false) := by
  cases l with
  | start uuid =>
    simp only [XrayProcess.inTurn, Bool.and_eq_true] at h
    exact ⟨fun _ _ => ⟨h.1.1, h.1.2, h.2⟩, fun _ => h.1.1, (fun hc => by cases hc), fun hc => by cases hc⟩
  | stop | forceStop | onRevoke | onDestroy | emitStatus | job =>
    simp only [XrayProcess.inTurn, hk, Option.all_some, Bool.and_eq_true, Bool.or_eq_true,
      Bool.not_eq_true'] at h
    obtain ⟨⟨hcommand, hclean⟩, hstall⟩ := h
    refine ⟨(fun _ he => by cases he), fun hc => hcommand.resolve_left ?_, fun hc => hclean.resolve_left ?_,
      fun hc => ?_⟩
    · rw [hc]
      decide
    · rw [hc]
      decide
    · obtain ⟨⟨hn, hf⟩, hr⟩ := hstall.resolve_left (by rw [hc]; decide)
      exact ⟨hn, hf, hr⟩

/-- A step of an instance keeps the course. -/
theorem Tunnel.service {D : Stores} {k : Nat} {l : XrayLabel} (T : Tunnel s)
    (hC : s.inTurn (.service k l) = true) (h : s.step D (.service k l) = some s') : Tunnel s' := by
  obtain ⟨svc, svc', es, hk, hs, hclear, rfl⟩ := step_service h
  obtain ⟨hstart, hcommand, hclean, hstall⟩ := inTurn_service hk hC
  have hlen : (s.services.set k svc').length = s.services.length := List.length_set ..
  have hsome : s.services.set k svc' ≠ [] := by
    rw [ne_eq, List.set_eq_nil_iff]
    exact List.ne_nil_of_mem (List.mem_of_getElem? hk)
  cases hn : s.newest k with
  | true =>
    obtain ⟨core, he, C⟩ := T.course k svc hk hn
    refine ⟨fun i r hi hold => ?_, fun i r hi hnew => ?_, fun hnil => ?_⟩
    · have hbefore : s.newest i = false := by
        unfold XrayProcess.newest at hold ⊢
        rw [hlen] at hold
        exact hold
      rcases get_set hk hi with ⟨rfl, -⟩ | ⟨-, hi⟩
      · rw [hn] at hbefore
        cases hbefore
      · exact T.old i r hi hbefore
    · have hik : i = k := by
        unfold XrayProcess.newest at hn hnew
        rw [beq_iff_eq] at hn hnew
        rw [hlen] at hnew
        omega
      subst hik
      rcases get_set hk hi with ⟨-, rfl⟩ | ⟨hne, -⟩
      · refine ⟨svc.coreAfter l core, enteredAfter_eq he C hclean, C.step hs (fun uuid hl => ?_) hclean
          (fun hc => (hstall hc).2.2) (fun hu => ?_) fun hr => .inl ?_⟩
        · obtain ⟨-, hrest, -⟩ := hstart uuid hl
          refine ⟨((quiet_of_atRest hrest).2.2 svc (List.mem_of_getElem? hk)).1, ?_⟩
          rw [entered_of_atRest T hrest] at he
          cases core with
          | none => rfl
          | some c => cases he
        · cases hcl : svc.cleansUp l with
          | true => exact .inl rfl
          | false =>
            refine .inr (hu.imp (fun hf => ?_) fun hc => ?_)
            · show (s.isTunnelRunning || _) = true
              rw [hf]
              rfl
            · exact hc
        · show (_ || svc.raises l) = true
          rw [hr, Bool.or_true]
      · exact absurd rfl hne
    · exact absurd hnil hsome
  | false =>
    -- nothing begins in an older instance, and the newest one is as it was
    obtain ⟨hcl, hent, hraise, hquiet⟩ := old_step (T.old k svc hk hn) hs
      (Bool.eq_false_iff.mpr fun hc => by rw [hcommand hc] at hn; cases hn)
      (Bool.eq_false_iff.mpr fun hc => by rw [(hstall hc).1] at hn; cases hn)
    have hentered : s.enteredAfter k svc l = s.entered := by
      unfold XrayProcess.enteredAfter
      rw [hent, hcl]
      rfl
    refine ⟨fun i r hi hold => ?_, fun i r hi hnew => ?_, fun hnil => ?_⟩
    · rcases get_set hk hi with ⟨-, rfl⟩ | ⟨-, hi⟩
      · exact hquiet
      · refine T.old i r hi ?_
        unfold XrayProcess.newest at hold ⊢
        rw [hlen] at hold
        exact hold
    · have hbefore : s.newest i = true := by
        unfold XrayProcess.newest at hnew ⊢
        rw [hlen] at hnew
        exact hnew
      rcases get_set hk hi with ⟨rfl, -⟩ | ⟨-, hi⟩
      · rw [hn] at hbefore
        cases hbefore
      · obtain ⟨core, he, C⟩ := T.course i r hi hbefore
        refine ⟨core, hentered.trans he, ?_⟩
        show Course r core ((s.isTunnelRunning || svc.raises l) = true ∨
          (if svc.cleansUp l = true then s.clearing - 1 else s.clearing) ≠ 0)
        rw [hraise, Bool.or_false, hcl, if_neg (by decide)]
        exact C
    · exact absurd hnil hsome

/-- Every step in turn keeps the course of the session. -/
theorem tunnel_step {D : Stores} {l : ProcessLabel} (T : Tunnel s) (hC : s.inTurn l = true)
    (h : s.step D l = some s') : Tunnel s' := by
  cases l with
  | create =>
    have hempty := entered_of_atRest T hC
    obtain ⟨-, -, hquiet⟩ := quiet_of_atRest hC
    obtain rfl := Option.some.inj h
    refine ⟨fun k svc hk _ => ?_, fun k svc hk hn => ?_, fun hnil => ?_⟩
    · rcases get_concat hk with hk | ⟨-, rfl⟩
      · exact hquiet svc (List.mem_of_getElem? hk)
      · exact ⟨rfl, rfl⟩
    · rcases get_concat hk with hk | ⟨-, rfl⟩
      · have hlt := (List.getElem?_eq_some_iff.mp hk).1
        unfold XrayProcess.newest at hn
        rw [beq_iff_eq, List.length_append, List.length_singleton] at hn
        omega
      · refine ⟨none, hempty, ⟨0, fun i p hi _ => ?_⟩, fun _ _ _ => rfl, fun _ _ _ hp => ?_,
          fun _ hc => by cases hc⟩
        · simp [XrayVpnService.pcs] at hi
        · cases hp
    · simp at hnil
  | service k l => exact T.service hC h
  | clear =>
    obtain rfl := Option.some.inj h
    refine ⟨T.old, fun k svc hk hn => ?_, T.first⟩
    obtain ⟨core, he, C⟩ := T.course k svc hk hn
    refine ⟨core, he, C.one, C.opening, C.log, fun c hc => ⟨(C.entered c hc).1, .inl (.inr ?_)⟩⟩
    exact Nat.succ_ne_zero s.clearing
  | request kind =>
    obtain rfl := Option.some.inj h
    exact ⟨T.old, T.course, T.first⟩
  | test i inp =>
    simp only [XrayProcess.step] at h
    split at h
    · cases h
    · obtain ⟨t', mutex, rfl, -⟩ := testStep_committed h
      exact ⟨T.old, T.course, T.first⟩

/-- No probe is past its check, or the tunnel is down and nothing brings it up. -/
structure Apart (s : XrayProcess) : Prop where
  tunnel : Tunnel s
  apart : s.noProbe = true ∨ (s.isTunnelRunning = false ∧ s.entered = [] ∧
    ∀ svc ∈ s.services, svc.rising = false)

/-- Where no session comes up, a step of an instance that is no START and no watchdog's brings none up. -/
theorem calm_step {D : Stores} {svc svc' : XrayVpnService} {l : XrayLabel} {es : List XrayEffect}
    (hq : svc.rising = false) (h : svc.step D l = some (svc', es)) (hstart : ∀ uuid, l ≠ .start uuid)
    (hs : svc.stalls l = false) :
    svc'.rising = false ∧ svc.raises l = false ∧ svc.enters l = none := by
  have hall : ∀ p ∈ svc.pcs, p.rising = false := fun p hp =>
    Bool.eq_false_iff.mpr (List.any_eq_false.mp hq p hp)
  have hcalm : ∀ {r : XrayVpnService}, (∀ p ∈ r.pcs, p.rising = false) → r.rising = false := fun hr =>
    List.any_eq_false.mpr fun p hp => Bool.eq_false_iff.mp (hr p hp)
  cases l with
  | start uuid => exact absurd rfl (hstart uuid)
  | stop | forceStop | onRevoke =>
    simp only [XrayVpnService.step] at h
    split at h
    · cases h
    · obtain ⟨rfl, rfl⟩ := h
      exact ⟨hcalm fun p hp => hall p (cleanup_pcs svc ▸ hp), rfl, rfl⟩
  | onDestroy =>
    simp only [XrayVpnService.step] at h
    split at h
    · cases h
    · split at h
      · obtain ⟨rfl, rfl⟩ := h
        exact ⟨hcalm fun p hp => hall p (cleanup_pcs svc ▸ hp), rfl, rfl⟩
      · obtain ⟨rfl, rfl⟩ := h
        exact ⟨hq, rfl, rfl⟩
  | emitStatus line =>
    refine ⟨hcalm fun p hp => ?_, rfl, rfl⟩
    simp only [XrayVpnService.step] at h
    split at h
    · split at h
      · obtain ⟨rfl, rfl⟩ := h
        exact hall p hp
      · obtain ⟨rfl, rfl⟩ := h
        simp only [XrayVpnService.pcs, List.map_append, List.mem_append] at hp
        rcases hp with hp | hp
        · exact hall p hp
        · rw [List.mem_singleton.mp hp]
          rfl
    · obtain ⟨rfl, rfl⟩ := h
      exact hall p hp
  | job j inp =>
    obtain ⟨pc, pc', r, hj, hmove, hr, hpcs⟩ := step_job h
    obtain ⟨-, henters, hraises, hstalls⟩ := labels_of_get inp hj
    have P := hmove.phase
    have hpr := hall pc (List.mem_of_getElem? hj)
    refine ⟨hcalm fun p hp => ?_, ?_, ?_⟩
    · rw [hpcs] at hp
      rcases mem_append_set hj hp with rfl | hp | ⟨i, -, hi⟩
      · refine Bool.eq_false_iff.mpr fun he => ?_
        rw [P.rising he] at hpr
        cases hpr
      · refine Bool.eq_false_iff.mpr fun he => ?_
        rcases rising_of_mem_launched hp he with rfl | ⟨hstall, -⟩
        · cases hpr
        · rw [hstalls.mpr hstall] at hs
          cases hs
      · exact hall p (List.mem_of_getElem? hi)
    · refine Bool.eq_false_iff.mpr fun he => ?_
      obtain ⟨id, rfl⟩ := hraises.mp he
      cases hpr
    · cases he : svc.enters (.job j inp) with
      | none => rfl
      | some c =>
        obtain ⟨id, fd, rfl⟩ := (henters c).mp he
        cases hpr

/-- What a step of a service does to the cores entered where it enters none: none more than before. -/
theorem enteredAfter_subset {k : Nat} {svc : XrayVpnService} {l : XrayLabel}
    (h : svc.enters l = none) : ∀ x ∈ s.enteredAfter k svc l, x ∈ s.entered := by
  intro x hx
  unfold XrayProcess.enteredAfter at hx
  rw [h] at hx
  dsimp only at hx
  split at hx
  · split at hx
    · split at hx
      · exact hx
      · exact (List.mem_filter.mp hx).1
    · exact hx
  · exact hx

end Process

/-- Every step in turn keeps them apart. -/
theorem apart_step {D : Stores} (s : XrayProcess) (l : ProcessLabel) (s' : XrayProcess)
    (I : Apart s) (hC : s.inTurn l = true) (h : s.step D l = some s') : Apart s' := by
  refine ⟨tunnel_step I.tunnel hC h, ?_⟩
  cases l with
  | create =>
    obtain rfl := Option.some.inj h
    refine I.apart.imp_right fun ⟨hf, he, hall⟩ => ⟨hf, he, fun svc hmem => ?_⟩
    rcases List.mem_append.mp hmem with hmem | hmem
    · exact hall svc hmem
    · rw [List.mem_singleton.mp hmem]
      rfl
  | clear =>
    obtain rfl := Option.some.inj h
    exact I.apart.imp_right fun ⟨_, he, hall⟩ => ⟨rfl, he, hall⟩
  | request kind =>
    obtain rfl := Option.some.inj h
    refine I.apart.imp_left fun hall => ?_
    unfold XrayProcess.noProbe at hall ⊢
    rw [List.all_append, hall]
    cases kind <;> rfl
  | service k l =>
    obtain ⟨svc, svc', es, hk, hs, -, rfl⟩ := step_service h
    obtain ⟨hstart, -, -, hstall⟩ := inTurn_service hk hC
    rcases I.apart with hall | ⟨hf, he, hall⟩
    · exact .inl hall
    · by_cases hl : ∃ uuid, l = .start uuid
      · obtain ⟨uuid, rfl⟩ := hl
        exact .inl (hstart uuid rfl).2.2
      · have hmem := List.mem_of_getElem? hk
        obtain ⟨hcalm, hraise, hent⟩ := calm_step (hall svc hmem) hs (fun uuid e => hl ⟨uuid, e⟩)
          (Bool.eq_false_iff.mpr fun hc => by rw [(hstall hc).2.1] at hf; cases hf)
        refine .inr ⟨?_, ?_, fun r hr => ?_⟩
        · show (s.isTunnelRunning || svc.raises l) = false
          rw [hf, hraise]
          rfl
        · refine List.eq_nil_iff_forall_not_mem.mpr fun x hx => ?_
          have hx' := enteredAfter_subset hent x hx
          rw [he] at hx'
          cases hx'
        · rcases List.mem_or_eq_of_mem_set hr with hr | rfl
          · exact hall r hr
          · exact hcalm
  | test i inp =>
    simp only [XrayProcess.step] at h
    split at h
    · cases h
    · rename_i t hi
      obtain ⟨t', mutex, rfl, hcommit⟩ := testStep_committed h
      cases hc : t'.committed with
      | false =>
        refine I.apart.imp_left fun hall => ?_
        unfold XrayProcess.noProbe at hall ⊢
        rw [List.all_eq_true] at hall ⊢
        intro t₁ ht₁
        rcases List.mem_or_eq_of_mem_set ht₁ with ht₁ | rfl
        · exact hall t₁ ht₁
        · rw [hc]
          rfl
      | true =>
        rcases hcommit hc with hold | ⟨hcheck, hflag⟩
        · refine .inr (I.apart.resolve_left fun hall => ?_)
          have hnot := List.all_eq_true.mp hall t (List.mem_of_getElem? hi)
          rw [hold] at hnot
          cases hnot
        · -- a check that passes: nothing of the tunnel is under way
          simp only [XrayProcess.inTurn, hi, Option.all_some, hcheck, hflag, ne_eq, not_true_eq_false,
            decide_false, Bool.false_or, List.all_eq_true, Bool.and_eq_true, Bool.not_eq_true',
            Bool.or_eq_true, beq_iff_eq] at hC
          exact .inr ⟨hflag, I.tunnel.entered hflag hC, fun svc hmem => (hC svc hmem).1⟩

/-- **A probe and the tunnel never overlap** in a run whose requests come in turn: there is no state in
    which a core of the tunnel is between its entry into `startLoop` and the end of its `stopLoop` and the
    core of a probe exists as well. -/
theorem probes_exclusive (D : Stores) {ls : List ProcessLabel} {s : XrayProcess}
    (h : exec (XrayProcess.step D) {} ls = some s)
    (hC : Along (XrayProcess.step D) (fun s l => s.inTurn l = true) {} ls) :
    s.entered = [] ∨ ∀ t ∈ s.tests, t.kind ≠ .latency → t.pc.coreRuns = false := by
  have hinit : Apart {} := ⟨⟨by simp, by simp, fun _ => rfl⟩, .inl rfl⟩
  have I : Apart s := exec_inv apart_step hinit hC h
  rcases I.apart with hall | ⟨-, hempty, -⟩
  · refine .inr fun t ht hk => ?_
    cases hr : t.pc.coreRuns with
    | false => rfl
    | true =>
      have hnot := List.all_eq_true.mp hall t ht
      rw [TestCall.committed_of_coreRuns hk hr] at hnot
      cases hnot
  · exact .inl hempty

/-- A probe runs to its end, and then the tunnel comes up; it is stopped, and the next probe has its core.
    -/
def probeThenTunnel : List ProcessLabel :=
  ProcessLabel.request .probe :: List.replicate 9 (ProcessLabel.test 0 {}) ++
    [ProcessLabel.test 0 { now := 300 }, .test 0 {}] ++
    ProcessLabel.create :: .service 0 (.start (some "xray1")) :: (comeUp 0 40).map (ProcessLabel.service 0 ·) ++
    [ProcessLabel.clear, .service 0 .stop, .request .probe] ++ List.replicate 5 (ProcessLabel.test 1 {})

theorem probes_exclusive_inTurn :
    ∃ s, exec (XrayProcess.step sampleStores) {} probeThenTunnel = some s ∧
      s.tests.map TestCall.pc = [.done, .starting] ∧
      (s.entered = [] ∨ ∀ t ∈ s.tests, t.kind ≠ .latency → t.pc.coreRuns = false) := by
  have hrun : exec (XrayProcess.step sampleStores) {} probeThenTunnel = some _ := rfl
  exact ⟨_, hrun, rfl, probes_exclusive sampleStores hrun (by decide)⟩

/-- A probe passes its check and waits; the tunnel comes up; the probe goes on. -/
def probeIntoTunnel : List ProcessLabel :=
  [ProcessLabel.request .probe, .test 0 {}] ++
    ProcessLabel.create :: .service 0 (.start (some "xray1")) :: (comeUp 0 40).map (ProcessLabel.service 0 ·) ++
    List.replicate 4 (ProcessLabel.test 0 {})

/-- The check is not made again once the mutex is there: **the probe calls `startLoop(cfg, 0)` while
    the tunnel is up**. -/
theorem probe_overlaps :
    ∃ s, exec (XrayProcess.step sampleStores) {} probeIntoTunnel = some s ∧
      s.entered = [(0, 0)] ∧ s.isTunnelRunning = true ∧
      s.tests = [⟨.probe, .starting⟩] := by
  refine ⟨_, rfl, ?_⟩
  decide

end SwiftVpn
