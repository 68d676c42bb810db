/-
  File:      SwiftVpn/WireGuard/Polling.lean
  Subject:   THE WHOLE WIREGUARD DRIVER: connect calls, DOWN jobs, poll loops and their watchdog.

  `PollSystem` runs any number of `connect` calls, of `disconnectAsync` and `disconnectBlocking`
  calls with their DOWN jobs, and of poll loops, in any interleaving of their steps.

  * `PollLoop`, `loopStep` -- the coroutine of `startPolling`, cut at its condition, the sample, the
    watchdog, the restart, the report of the bytes, the state check, its assignment of `active` and
    the delay. A restart of the watchdog is a `connect` call like any other (`WgTask.issuer`), and
    the loop stands at `restarting` until it has returned.
  * `rebind` -- `pollJob` before and after a step of the driver says which loop `stopPolling` has
    cancelled and which one `startPolling` has launched. An UP callback always comes after a
    `stopPolling` of its own call, so a loop that has ended by itself is never found in `pollJob`.
  * `interrupt`, `interruptJob`, `interruptLoop` -- a cancelled coroutine throws at a suspension
    point: at `lock` without the lock, at a `delay` through the `finally`. Who cancelled a call or
    a job is not recorded: its owner may do so at any time.
  * `PollTurn` -- what one step can do (`step_pollTurn`); `LoopMove` -- the same for a poll loop.
-/
import SwiftVpn.WireGuard.Commands

namespace SwiftVpn

open Machine

/-! ## 1. Calls and loops -/

/-- A `connect` call: its profile, where it stands, the poll loop that made it (`none` for a call of
    the user), and whether it ends with a CancellationException. -/
structure WgTask where
  uuid : Uuid
  pc : WgPc
  issuer : Option Nat := none
  thrown : Bool := false
  deriving DecidableEq, Repr

/-- Where a poll loop stands. -/
inductive PollPc where
  | head
  | sample
  | watch (rx tx : Int)
  | restarting (call : Nat) (rx tx : Int)
  | bytes (rx tx : Int)
  | check
  | wentDown
  | delay (wake : Int)
  | done
  deriving DecidableEq, Repr

/-- The coroutine of `startPolling` and its locals. -/
structure PollLoop where
  tunnel : WgTunnel
  baseRx : Int := -1
  baseTx : Int := -1
  silentSeconds : Nat := 0
  pc : PollPc := .head
  cancelled : Bool := false
  deriving DecidableEq, Repr

/-- What a step of a poll loop reads from outside: the clock and the sample of `getStatistics`
    (`none` where it threw). -/
structure PollInput where
  now : Int := 0
  stats : Option (Int × Int) := none
  deriving DecidableEq, Repr

/-- `POLL_INTERVAL_MS`. -/
def pollIntervalMs : Int := 2000

/-- The driver, the calls issued so far, the loops launched so far, and the DOWN jobs a caller of
    `disconnectBlocking` waits for. -/
structure PollSystem where
  eng : WireGuardEngine := {}
  calls : List WgTask := []
  loops : List PollLoop := []
  blocked : List Nat := []
  deriving DecidableEq, Repr

inductive PollLabel where
  | connect (uuid : Uuid)
  | disconnectAsync (now : Int)
  | disconnectBlocking
  | returned (n : Nat) (now : Int)
  | call (i : Nat) (inp : WgInput)
  | interrupt (i : Nat)
  | job (j : Nat) (inp : WgInput)
  | interruptJob (j : Nat)
  | loop (k : Nat) (inp : PollInput)
  | interruptLoop (k : Nat)
  | onDestroy (now : Int)
  deriving DecidableEq, Repr

/-- The user's commands. -/
def PollLabel.isCommand : PollLabel → Bool
  | .connect _ | .disconnectAsync _ | .disconnectBlocking => true
  | _ => false

/-- The loops after `pollJob` went from `old` to `new`. -/
def rebind (loops : List PollLoop) (old new : Option WgTunnel) : List PollLoop :=
  if old = new then loops
  else loops.map (fun lp => { lp with cancelled := true }) ++ new.toList.map fun t => { tunnel := t }

/-! ## 2. The steps -/

namespace PollSystem

/-- The system after a step of the driver. -/
def drive (s : PollSystem) (w : WireGuardEngine) : PollSystem :=
  { s with eng := w, loops := rebind s.loops s.eng.pollJob w.pollJob }

/-- The loop `k` has moved. -/
def goto (s : PollSystem) (k : Nat) (lp : PollLoop) : PollSystem :=
  { s with loops := s.loops.set k lp }

/-- The sixteenth second without a reply: a restart, or the end of them. -/
def stalled (s : PollSystem) (k : Nat) (lp : PollLoop) (rx tx : Int) (now : Int) :
    PollSystem × List Action :=
  match s.eng.lastUuid with
  | some id =>
    if s.eng.stallRestarts < 3 then
      ({ s.goto k { lp with silentSeconds := 0, pc := .restarting s.calls.length rx tx } with
          eng := { s.eng with stallRestarts := s.eng.stallRestarts + 1 }
          calls := s.calls ++ [{ uuid := id, pc := .lock, issuer := some k }] },
        [.onLog .wireguard ("WireGuard: sending but no reply for 16s — restarting tunnel automatically ("
          ++ toString (s.eng.stallRestarts + 1) ++ "/3)") now])
    else
      (s.goto k { lp with silentSeconds := 0, pc := .bytes rx tx },
        [.onLog .wireguard "WireGuard: tunnel kept stalling after 3 restarts — please reconnect" now])
  | none =>
    (s.goto k { lp with silentSeconds := 0, pc := .bytes rx tx },
      [.onLog .wireguard (if s.eng.stallRestarts ≥ 3 then
          "WireGuard: tunnel kept stalling after 3 restarts — please reconnect"
        else "WireGuard: no reply for 16s — tunnel stalled") now])

/-- The `onBytes` of a sample: the first one establishes the baseline. -/
def bytesAction (lp : PollLoop) (rx tx : Int) : Action :=
  if lp.baseRx < 0 then .onBytes .wireguard rx tx 0 0
  else .onBytes .wireguard rx tx (max (rx - lp.baseRx) 0) (max (tx - lp.baseTx) 0)

/-- One step of the poll loop `k`, which is `lp`. -/
def loopStep (s : PollSystem) (k : Nat) (lp : PollLoop) (inp : PollInput) :
    Option (PollSystem × List Action) :=
  match lp.pc with
  | .head =>
    if lp.cancelled = false ∧ s.eng.active = some lp.tunnel then
      some (s.goto k { lp with pc := .sample }, [])
    else some (s.goto k { lp with pc := .done }, [])
  | .sample =>
    match inp.stats with
    | none => some (s.goto k { lp with pc := .check }, [])
    | some (rx, tx) => some (s.goto k { lp with pc := .watch rx tx }, [])
  | .watch rx tx =>
    if lp.baseRx ≥ 0 ∧ rx = lp.baseRx ∧ tx > lp.baseTx then
      if lp.silentSeconds + 1 = 8 then some (s.stalled k lp rx tx inp.now)
      else
        some (s.goto k { lp with silentSeconds := lp.silentSeconds + 1, pc := .bytes rx tx }, [])
    else
      some ({ s.goto k { lp with silentSeconds := 0, pc := .bytes rx tx } with
        eng := { s.eng with stallRestarts := 0 } }, [])
  | .restarting i rx tx =>
    match s.calls[i]? with
    | none => none
    | some c =>
      match c.pc with
      | .done err =>
        -- the exception of a cancelled call ends the loop too
        if c.thrown then some (s.goto k { lp with pc := .done }, [])
        else some (s.goto k { lp with pc := .bytes rx tx }, err.toList.map fun e =>
          .onLog .wireguard ("WireGuard auto-restart failed: " ++ e) inp.now)
      | _ => none
  | .bytes rx tx =>
    some (s.goto k { lp with baseRx := rx, baseTx := tx, pc := .check }, [bytesAction lp rx tx])
  | .check =>
    if s.eng.backend.getState lp.tunnel = .up then
      some (s.goto k { lp with pc := .delay (inp.now + pollIntervalMs) }, [])
    else some (s.goto k { lp with pc := .wentDown }, [])
  | .wentDown =>
    some ({ s.goto k { lp with pc := .done } with eng := { s.eng with active := none } },
      [.onLog .wireguard "WireGuard tunnel went down" inp.now,
        .onState .wireguard .disconnected none inp.now])
  | .delay wake => if wake ≤ inp.now then some (s.goto k { lp with pc := .head }, []) else none
  | .done => none

/-- The call `c` after it was cancelled at a suspension point. -/
def interrupted (c : WgTask) : Option WgTask :=
  match c.pc with
  | .lock => some { c with pc := .done none, thrown := true }
  | .delay _ => some { c with pc := .unlock none, thrown := true }
  | _ => none

/-- The callers of `disconnectBlocking`: one that has launched a DOWN waits for it. -/
def waiters (s : PollSystem) : List Nat :=
  if s.eng.active = none then s.blocked else s.blocked ++ [s.eng.jobs.length]

def step (D : Stores) (s : PollSystem) : PollLabel → Option (PollSystem × List Action)
  | .connect uuid => some ({ s with calls := s.calls ++ [{ uuid := uuid, pc := .lock }] }, [])
  | .disconnectAsync now =>
    let (w, as) := s.eng.disconnectAsync now
    some (s.drive w, as)
  | .disconnectBlocking =>
    some ({ s.drive s.eng.stopPolling.launchDown with blocked := s.waiters }, [])
  -- the end of `disconnectBlocking`
  | .returned n now =>
    match s.blocked[n]? with
    | none => none
    | some j =>
      if s.eng.jobs[j]?.all (·.pc = .done) then
        some ({ s with blocked := s.blocked.eraseIdx n },
          [.onState .wireguard .disconnected none now])
      else none
  | .call i inp =>
    match s.calls[i]? with
    | none => none
    | some c =>
      match s.eng.connectStep D i c.uuid inp c.pc with
      | none => none
      | some (w, pc, as) =>
        some ({ s.drive w with calls := s.calls.set i { c with pc := pc } }, as)
  | .interrupt i =>
    match s.calls[i]? with
    | none => none
    | some c =>
      match interrupted c with
      | none => none
      | some c' => some ({ s with calls := s.calls.set i c' }, [])
  | .job j inp =>
    match s.eng.jobStep j inp with
    | none => none
    | some (w, as) => some (s.drive w, as)
  | .interruptJob j =>
    match s.eng.jobs[j]? with
    | none => none
    | some b =>
      if b.pc = .lock then
        -- the exception also ends the `disconnectBlocking` that waits
        some ({ s with eng := { s.eng with jobs := s.eng.jobs.set j ⟨b.tunnel, .done⟩ }
                       blocked := s.blocked.filter (· ≠ j) }, [])
      else none
  | .loop k inp =>
    match s.loops[k]? with
    | none => none
    | some lp => s.loopStep k lp inp
  | .interruptLoop k =>
    match s.loops[k]? with
    | none => none
    | some lp =>
      match lp.cancelled, lp.pc with
      | true, .delay _ => some (s.goto k { lp with pc := .done }, [])
      | _, _ => none
  | .onDestroy now =>
    let (w, as) := s.eng.onDestroy now
    some (s.drive w, as)

end PollSystem

/-! ## 3. Every step of a poll loop -/

/-- What one step of the poll loop `k`, which is `lp`, does. -/
inductive LoopMove (s : PollSystem) (k : Nat) (lp : PollLoop) (inp : PollInput) :
    PollSystem → List Action → Prop where
  | enter (hpc : lp.pc = .head) (hc : lp.cancelled = false)
      (ha : s.eng.active = some lp.tunnel) :
      LoopMove s k lp inp (s.goto k { lp with pc := .sample }) []
  | leave (hpc : lp.pc = .head) :
      LoopMove s k lp inp (s.goto k { lp with pc := .done }) []
  | noSample (hpc : lp.pc = .sample) :
      LoopMove s k lp inp (s.goto k { lp with pc := .check }) []
  | sample (rx tx : Int) (hpc : lp.pc = .sample) :
      LoopMove s k lp inp (s.goto k { lp with pc := .watch rx tx }) []
  | silent (rx tx : Int) (hpc : lp.pc = .watch rx tx) :
      LoopMove s k lp inp
        (s.goto k { lp with silentSeconds := lp.silentSeconds + 1, pc := .bytes rx tx }) []
  | alive (rx tx : Int) (hpc : lp.pc = .watch rx tx) :
      LoopMove s k lp inp
        { s.goto k { lp with silentSeconds := 0, pc := .bytes rx tx } with
          eng := { s.eng with stallRestarts := 0 } } []
  | restart (rx tx : Int) (id : Uuid) (as : List Action) (hpc : lp.pc = .watch rx tx)
      (hs : lp.baseRx ≥ 0 ∧ rx = lp.baseRx ∧ tx > lp.baseTx) (h8 : lp.silentSeconds + 1 = 8)
      (hid : s.eng.lastUuid = some id) (hr : s.eng.stallRestarts < 3) :
      LoopMove s k lp inp
        { s.goto k { lp with silentSeconds := 0, pc := .restarting s.calls.length rx tx } with
          eng := { s.eng with stallRestarts := s.eng.stallRestarts + 1 }
          calls := s.calls ++ [{ uuid := id, pc := .lock, issuer := some k }] } as
  | giveUp (rx tx : Int) (as : List Action) (hpc : lp.pc = .watch rx tx) :
      LoopMove s k lp inp (s.goto k { lp with silentSeconds := 0, pc := .bytes rx tx }) as
  | unwound (i : Nat) (rx tx : Int) (c : WgTask) (err : Option String)
      (hpc : lp.pc = .restarting i rx tx) (hi : s.calls[i]? = some c) (hd : c.pc = .done err)
      (ht : c.thrown = true) :
      LoopMove s k lp inp (s.goto k { lp with pc := .done }) []
  | restarted (i : Nat) (rx tx : Int) (c : WgTask) (err : Option String) (as : List Action)
      (hpc : lp.pc = .restarting i rx tx) (hi : s.calls[i]? = some c) (hd : c.pc = .done err)
      (ht : c.thrown = false) :
      LoopMove s k lp inp (s.goto k { lp with pc := .bytes rx tx }) as
  | bytes (rx tx : Int) (as : List Action) (hpc : lp.pc = .bytes rx tx) :
      LoopMove s k lp inp (s.goto k { lp with baseRx := rx, baseTx := tx, pc := .check }) as
  | up (hpc : lp.pc = .check) (hb : s.eng.backend.getState lp.tunnel = .up) :
      LoopMove s k lp inp (s.goto k { lp with pc := .delay (inp.now + pollIntervalMs) }) []
  | down (hpc : lp.pc = .check) (hb : s.eng.backend.getState lp.tunnel ≠ .up) :
      LoopMove s k lp inp (s.goto k { lp with pc := .wentDown }) []
  | wentDown (as : List Action) (hpc : lp.pc = .wentDown) :
      LoopMove s k lp inp
        { s.goto k { lp with pc := .done } with eng := { s.eng with active := none } } as
  | wake (wake : Int) (hpc : lp.pc = .delay wake) :
      LoopMove s k lp inp (s.goto k { lp with pc := .head }) []

/-- The watchdog's sixteenth second, as a move. -/
theorem loopMove_stalled {s s' : PollSystem} {k : Nat} {lp : PollLoop} {inp : PollInput}
    {rx tx : Int} {as : List Action} (hpc : lp.pc = .watch rx tx)
    (hs : lp.baseRx ≥ 0 ∧ rx = lp.baseRx ∧ tx > lp.baseTx) (h8 : lp.silentSeconds + 1 = 8)
    (h : s.stalled k lp rx tx inp.now = (s', as)) : LoopMove s k lp inp s' as := by
  unfold PollSystem.stalled at h
  split at h
  · rename_i id hid
    split at h
    · rename_i hr
      simp only [Prod.mk.injEq] at h
      obtain ⟨rfl, -⟩ := h
      exact .restart rx tx id as hpc hs h8 hid hr
    · simp only [Prod.mk.injEq] at h
      obtain ⟨rfl, -⟩ := h
      exact .giveUp rx tx as hpc
  · simp only [Prod.mk.injEq] at h
    obtain ⟨rfl, -⟩ := h
    exact .giveUp rx tx as hpc

/-- Every step of a poll loop is one of the moves. -/
theorem loopStep_move {s s' : PollSystem} {k : Nat} {lp : PollLoop} {inp : PollInput}
    {as : List Action} (h : s.loopStep k lp inp = some (s', as)) : LoopMove s k lp inp s' as := by
  unfold PollSystem.loopStep at h
  cases hpc : lp.pc with
  | head =>
    simp only [hpc] at h
    split at h
    · rename_i hc
      simp only [Option.some.injEq, Prod.mk.injEq] at h
      obtain ⟨rfl, rfl⟩ := h
      exact .enter hpc hc.1 hc.2
    · simp only [Option.some.injEq, Prod.mk.injEq] at h
      obtain ⟨rfl, rfl⟩ := h
      exact .leave hpc
  | sample =>
    simp only [hpc] at h
    split at h
    · simp only [Option.some.injEq, Prod.mk.injEq] at h
      obtain ⟨rfl, rfl⟩ := h
      exact .noSample hpc
    · simp only [Option.some.injEq, Prod.mk.injEq] at h
      obtain ⟨rfl, rfl⟩ := h
      exact .sample _ _ hpc
  | watch rx tx =>
    simp only [hpc] at h
    split at h
    · rename_i hs
      split at h
      · rename_i h8
        exact loopMove_stalled hpc hs h8 (Option.some.inj h)
      · simp only [Option.some.injEq, Prod.mk.injEq] at h
        obtain ⟨rfl, rfl⟩ := h
        exact .silent rx tx hpc
    · simp only [Option.some.injEq, Prod.mk.injEq] at h
      obtain ⟨rfl, rfl⟩ := h
      exact .alive rx tx hpc
  | restarting i rx tx =>
    simp only [hpc] at h
    cases hi : s.calls[i]? with
    | none => simp [hi] at h
    | some c =>
      cases hd : c.pc with
      | done err =>
        simp only [hi, hd] at h
        split at h
        · rename_i ht
          simp only [Option.some.injEq, Prod.mk.injEq] at h
          obtain ⟨rfl, rfl⟩ := h
          exact .unwound i rx tx c err hpc hi hd ht
        · rename_i ht
          simp only [Option.some.injEq, Prod.mk.injEq] at h
          obtain ⟨rfl, -⟩ := h
          exact .restarted i rx tx c err as hpc hi hd (Bool.eq_false_iff.mpr ht)
      | _ => simp [hi, hd] at h
  | bytes rx tx =>
    simp only [hpc, Option.some.injEq, Prod.mk.injEq] at h
    obtain ⟨rfl, -⟩ := h
    exact .bytes rx tx as hpc
  | check =>
    simp only [hpc] at h
    split at h
    · rename_i hb
      simp only [Option.some.injEq, Prod.mk.injEq] at h
      obtain ⟨rfl, rfl⟩ := h
      exact .up hpc hb
    · rename_i hb
      simp only [Option.some.injEq, Prod.mk.injEq] at h
      obtain ⟨rfl, rfl⟩ := h
      exact .down hpc hb
  | wentDown =>
    simp only [hpc, Option.some.injEq, Prod.mk.injEq] at h
    obtain ⟨rfl, -⟩ := h
    exact .wentDown as hpc
  | delay wake =>
    simp only [hpc] at h
    split at h
    · simp only [Option.some.injEq, Prod.mk.injEq] at h
      obtain ⟨rfl, rfl⟩ := h
      exact .wake wake hpc
    · cases h
  | done => simp [hpc] at h

/-! ## 4. Every step of the system -/

/-- What one step of the system does. -/
inductive PollTurn (D : Stores) (s : PollSystem) : PollLabel → PollSystem → List Action → Prop where
  | connect (uuid : Uuid) :
      PollTurn D s (.connect uuid) { s with calls := s.calls ++ [{ uuid := uuid, pc := .lock }] } []
  | disconnectAsync (now : Int) (as : List Action) :
      PollTurn D s (.disconnectAsync now) (s.drive s.eng.stopPolling.launchDown) as
  | disconnectBlocking :
      PollTurn D s .disconnectBlocking
        { s.drive s.eng.stopPolling.launchDown with blocked := s.waiters } []
  | returned (n : Nat) (now : Int) (as : List Action) :
      PollTurn D s (.returned n now) { s with blocked := s.blocked.eraseIdx n } as
  | call (i : Nat) (inp : WgInput) (c : WgTask) (w : WireGuardEngine) (pc : WgPc)
      (as : List Action) (hi : s.calls[i]? = some c)
      (hm : ConnectMove D s.eng i c.uuid inp c.pc w pc as) :
      PollTurn D s (.call i inp)
        { s.drive w with calls := s.calls.set i { c with pc := pc } } as
  | interruptLock (i : Nat) (c : WgTask) (hi : s.calls[i]? = some c) (hpc : c.pc = .lock) :
      PollTurn D s (.interrupt i)
        { s with calls := s.calls.set i { c with pc := .done none, thrown := true } } []
  | interruptDelay (i : Nat) (c : WgTask) (wake : Int) (hi : s.calls[i]? = some c)
      (hpc : c.pc = .delay wake) :
      PollTurn D s (.interrupt i)
        { s with calls := s.calls.set i { c with pc := .unlock none, thrown := true } } []
  | job (j : Nat) (inp : WgInput) (w : WireGuardEngine) (as : List Action)
      (hm : JobMove s.eng j inp w as) : PollTurn D s (.job j inp) (s.drive w) as
  | interruptJob (j : Nat) (t : WgTunnel) (hj : s.eng.jobs[j]? = some ⟨t, .lock⟩) :
      PollTurn D s (.interruptJob j)
        { s with eng := { s.eng with jobs := s.eng.jobs.set j ⟨t, .done⟩ }
                 blocked := s.blocked.filter (· ≠ j) } []
  | loop (k : Nat) (inp : PollInput) (lp : PollLoop) (s' : PollSystem) (as : List Action)
      (hk : s.loops[k]? = some lp) (hm : LoopMove s k lp inp s' as) :
      PollTurn D s (.loop k inp) s' as
  | interruptLoop (k : Nat) (lp : PollLoop) (wake : Int) (hk : s.loops[k]? = some lp)
      (hpc : lp.pc = .delay wake) :
      PollTurn D s (.interruptLoop k) (s.goto k { lp with pc := .done }) []
  | onDestroy (now : Int) (as : List Action) :
      PollTurn D s (.onDestroy now) (s.drive (s.eng.onDestroy now).1) as

theorem step_pollTurn {D : Stores} {s s' : PollSystem} {l : PollLabel} {as : List Action}
    (h : s.step D l = some (s', as)) : PollTurn D s l s' as := by
  cases l with
  | connect uuid =>
    simp only [PollSystem.step, Option.some.injEq, Prod.mk.injEq] at h
    obtain ⟨rfl, rfl⟩ := h
    exact .connect uuid
  | disconnectAsync now =>
    simp only [PollSystem.step, WireGuardEngine.disconnectAsync, Option.some.injEq,
      Prod.mk.injEq] at h
    obtain ⟨rfl, -⟩ := h
    exact .disconnectAsync now as
  | disconnectBlocking =>
    simp only [PollSystem.step, Option.some.injEq, Prod.mk.injEq] at h
    obtain ⟨rfl, rfl⟩ := h
    exact .disconnectBlocking
  | returned n now =>
    simp only [PollSystem.step] at h
    split at h
    · cases h
    · split at h
      · simp only [Option.some.injEq, Prod.mk.injEq] at h
        obtain ⟨rfl, -⟩ := h
        exact .returned n now as
      · cases h
  | call i inp =>
    simp only [PollSystem.step] at h
    cases hi : s.calls[i]? with
    | none => simp [hi] at h
    | some c =>
      simp only [hi] at h
      cases hs : s.eng.connectStep D i c.uuid inp c.pc with
      | none => simp [hs] at h
      | some r =>
        obtain ⟨w, pc, as'⟩ := r
        simp only [hs, Option.some.injEq, Prod.mk.injEq] at h
        obtain ⟨rfl, rfl⟩ := h
        exact .call i inp c w pc as' hi (connectStep_move hs)
  | interrupt i =>
    simp only [PollSystem.step] at h
    cases hi : s.calls[i]? with
    | none => simp [hi] at h
    | some c =>
      cases hpc : c.pc with
      | lock =>
        simp only [hi, PollSystem.interrupted, hpc, Option.some.injEq, Prod.mk.injEq] at h
        obtain ⟨rfl, rfl⟩ := h
        exact .interruptLock i c hi hpc
      | delay wake =>
        simp only [hi, PollSystem.interrupted, hpc, Option.some.injEq, Prod.mk.injEq] at h
        obtain ⟨rfl, rfl⟩ := h
        exact .interruptDelay i c wake hi hpc
      | _ => simp [hi, PollSystem.interrupted, hpc] at h
  | job j inp =>
    simp only [PollSystem.step] at h
    cases hs : s.eng.jobStep j inp with
    | none => simp [hs] at h
    | some r =>
      obtain ⟨w, as'⟩ := r
      simp only [hs, Option.some.injEq, Prod.mk.injEq] at h
      obtain ⟨rfl, rfl⟩ := h
      exact .job j inp w as' (jobStep_move hs)
  | interruptJob j =>
    simp only [PollSystem.step] at h
    cases hj : s.eng.jobs[j]? with
    | none => simp [hj] at h
    | some b =>
      obtain ⟨t, pc⟩ := b
      simp only [hj] at h
      split at h
      · rename_i hpc
        simp only [Option.some.injEq, Prod.mk.injEq] at h
        obtain ⟨rfl, rfl⟩ := h
        obtain rfl : pc = .lock := hpc
        exact .interruptJob j t hj
      · cases h
  | loop k inp =>
    simp only [PollSystem.step] at h
    cases hk : s.loops[k]? with
    | none => simp [hk] at h
    | some lp =>
      simp only [hk] at h
      exact .loop k inp lp s' as hk (loopStep_move h)
  | interruptLoop k =>
    simp only [PollSystem.step] at h
    cases hk : s.loops[k]? with
    | none => simp [hk] at h
    | some lp =>
      simp only [hk] at h
      split at h
      · rename_i wake hc hpc
        simp only [Option.some.injEq, Prod.mk.injEq] at h
        obtain ⟨rfl, rfl⟩ := h
        exact .interruptLoop k lp _ hk hpc
      · cases h
  | onDestroy now =>
    simp only [PollSystem.step, Option.some.injEq, Prod.mk.injEq] at h
    obtain ⟨rfl, -⟩ := h
    exact .onDestroy now as

end SwiftVpn
