/-
  File:      SwiftVpn/WireGuard/Samples.lean
  Subject:   THE SAMPLES OF A POLL LOOP: what the watchdog and the meter of startPolling make of them.

  * `LoopLog`, `loggedStep` -- the driver under a monitor that keeps the samples of every loop, those
    whose bytes were reported, and the reported differences;
  * `LoopTurn` -- what a step of a poll loop does to the loop itself;
  * `Kept`, `log_inv` -- what every such step preserves holds of every loop of every run;
  * `Counted`, `silent_of_restart` -- a restart ends eight samples without a reply;
  * `diffsFrom`, `Accounted` -- what is reported are the differences between the samples;
  * `Reading`, `Steady`, `metered_iff` -- where some samples are the empty `Statistics`, the
    differences sum up to what the tunnel carried exactly where no empty reading comes between a
    positive total and a later one;
  * `counted_twice` -- a total that is counted twice.
-/
import Mathlib.Algebra.Order.Ring.Int
import Mathlib.Data.List.ReduceOption
import SwiftVpn.WireGuard.Stalls

namespace SwiftVpn

open Machine

/-! ## 1. The monitor -/

/-- What a monitor keeps of one loop: its samples that are not null, the last one first; those whose
    bytes were reported, and the reported differences, in order. -/
structure LoopLog where
  samples : List (Int × Int) := []
  reported : List (Int × Int) := []
  diffs : List (Int × Int) := []

/-- The differences in an access. -/
def Action.diffs : Action → Option (Int × Int)
  | .onBytes _ _ _ diffIn diffOut => some (diffIn, diffOut)
  | _ => none

/-- What is kept of a step of the loop `lp`. -/
def LoopLog.note (lp : PollLoop) (inp : PollInput) (as : List Action) (g : LoopLog) : LoopLog :=
  match lp.pc with
  | .sample => { g with samples := inp.stats.toList ++ g.samples }
  | .bytes rx tx =>
    { g with reported := g.reported ++ [(rx, tx)], diffs := g.diffs ++ as.filterMap Action.diffs }
  | _ => g

/-- What is kept of a step of the driver. -/
def noteLoops (s : PollSystem) (l : PollLabel) (as : List Action) (m : Nat → LoopLog) : Nat → LoopLog :=
  match l with
  | .loop k inp =>
    match s.loops[k]? with
    | some lp => Function.update m k ((m k).note lp inp as)
    | none => m
  | _ => m

/-- The driver under the monitor. -/
def loggedStep (D : Stores) :
    PollSystem × (Nat → LoopLog) → PollLabel → Option (PollSystem × (Nat → LoopLog)) :=
  observed (PollSystem.step D) noteLoops

/-- Before the first step. -/
def unlogged : PollSystem × (Nat → LoopLog) := ({}, fun _ => {})

/-! ## 2. What a loop does to itself -/

/-- The apps send, and nothing has come back since the last sample. -/
def PollLoop.unanswered (lp : PollLoop) (rx tx : Int) : Prop :=
  lp.baseRx ≥ 0 ∧ rx = lp.baseRx ∧ tx > lp.baseTx

/-- The points outside the watchdog and the report. -/
def PollPc.resting : PollPc → Bool
  | .watch .. | .restarting .. | .bytes .. => false
  | _ => true

/-- One step of a poll loop, as far as its own locals go. -/
inductive LoopTurn (lp : PollLoop) (inp : PollInput) : List Action → PollLoop → Prop where
  | rest (pc : PollPc) (as : List Action) (hpc : lp.pc.resting = true) (hrun : lp.pc ≠ .done)
      (hpc' : pc.resting = true) (hs : lp.pc = .sample → inp.stats = none) :
      LoopTurn lp inp as { lp with pc := pc }
  | sample (rx tx : Int) (hpc : lp.pc = .sample) (hs : inp.stats = some (rx, tx)) :
      LoopTurn lp inp [] { lp with pc := .watch rx tx }
  | silent (rx tx : Int) (hpc : lp.pc = .watch rx tx) (hu : lp.unanswered rx tx) :
      LoopTurn lp inp [] { lp with silentSeconds := lp.silentSeconds + 1, pc := .bytes rx tx }
  | alive (rx tx : Int) (as : List Action) (hpc : lp.pc = .watch rx tx) :
      LoopTurn lp inp as { lp with silentSeconds := 0, pc := .bytes rx tx }
  | restart (i : Nat) (rx tx : Int) (as : List Action) (hpc : lp.pc = .watch rx tx) :
      LoopTurn lp inp as { lp with silentSeconds := 0, pc := .restarting i rx tx }
  | restarted (i : Nat) (rx tx : Int) (as : List Action) (hpc : lp.pc = .restarting i rx tx) :
      LoopTurn lp inp as { lp with pc := .bytes rx tx }
  | unwound (i : Nat) (rx tx : Int) (hpc : lp.pc = .restarting i rx tx) :
      LoopTurn lp inp [] { lp with pc := .done }
  | bytes (rx tx : Int) (hpc : lp.pc = .bytes rx tx) :
      LoopTurn lp inp [PollSystem.bytesAction lp rx tx] { lp with baseRx := rx, baseTx := tx, pc := .check }

section Turns

variable {D : Stores} {s s' : PollSystem}

/-- The watchdog, as a turn of the loop. -/
theorem loopTurn_watch {k : Nat} {lp : PollLoop} {inp : PollInput} {rx tx : Int} {as : List Action}
    (hpc : lp.pc = .watch rx tx) (h : s.loopStep k lp inp = some (s', as)) :
    ∃ lp', s'.loops = s.loops.set k lp' ∧ LoopTurn lp inp as lp' := by
  simp only [PollSystem.loopStep, hpc] at h
  split at h
  · rename_i hu
    split at h
    · unfold PollSystem.stalled at h
      split at h
      · split at h
        · obtain ⟨rfl, rfl⟩ := Prod.mk.inj (Option.some.inj h)
          exact ⟨_, rfl, .restart s.calls.length rx tx _ hpc⟩
        · obtain ⟨rfl, rfl⟩ := Prod.mk.inj (Option.some.inj h)
          exact ⟨_, rfl, .alive rx tx _ hpc⟩
      · obtain ⟨rfl, rfl⟩ := Prod.mk.inj (Option.some.inj h)
        exact ⟨_, rfl, .alive rx tx _ hpc⟩
    · obtain ⟨rfl, rfl⟩ := Prod.mk.inj (Option.some.inj h)
      exact ⟨_, rfl, .silent rx tx hpc hu⟩
  · obtain ⟨rfl, rfl⟩ := Prod.mk.inj (Option.some.inj h)
    exact ⟨_, rfl, .alive rx tx _ hpc⟩

/-- Every step of a poll loop is one of the turns. -/
theorem loopStep_turn {k : Nat} {lp : PollLoop} {inp : PollInput} {as : List Action}
    (h : s.loopStep k lp inp = some (s', as)) :
    ∃ lp', s'.loops = s.loops.set k lp' ∧ LoopTurn lp inp as lp' := by
  have hrest : ∀ pc : PollPc, lp.pc.resting = true ∧ lp.pc ≠ .done → pc.resting = true →
      (lp.pc = .sample → inp.stats = none) → s'.loops = s.loops.set k { lp with pc := pc } →
      ∃ lp', s'.loops = s.loops.set k lp' ∧ LoopTurn lp inp as lp' := fun pc hpc hpc' hs hl =>
    ⟨_, hl, .rest pc as hpc.1 hpc.2 hpc' hs⟩
  cases hpc : lp.pc with
  | watch rx tx => exact loopTurn_watch hpc h
  | head =>
    simp only [PollSystem.loopStep, hpc] at h
    split at h
    · obtain ⟨rfl, rfl⟩ := Prod.mk.inj (Option.some.inj h)
      exact hrest .sample (by rw [hpc]; exact ⟨rfl, nofun⟩) rfl (by rw [hpc]; exact nofun) rfl
    · obtain ⟨rfl, rfl⟩ := Prod.mk.inj (Option.some.inj h)
      exact hrest .done (by rw [hpc]; exact ⟨rfl, nofun⟩) rfl (by rw [hpc]; exact nofun) rfl
  | sample =>
    simp only [PollSystem.loopStep, hpc] at h
    split at h
    · rename_i hs
      obtain ⟨rfl, rfl⟩ := Prod.mk.inj (Option.some.inj h)
      exact hrest .check (by rw [hpc]; exact ⟨rfl, nofun⟩) rfl (fun _ => hs) rfl
    · rename_i rx tx hs
      obtain ⟨rfl, rfl⟩ := Prod.mk.inj (Option.some.inj h)
      exact ⟨_, rfl, .sample rx tx hpc hs⟩
  | restarting i rx tx =>
    simp only [PollSystem.loopStep, hpc] at h
    split at h
    · cases h
    · split at h
      · split at h
        · obtain ⟨rfl, rfl⟩ := Prod.mk.inj (Option.some.inj h)
          exact ⟨_, rfl, .unwound i rx tx hpc⟩
        · obtain ⟨rfl, rfl⟩ := Prod.mk.inj (Option.some.inj h)
          exact ⟨_, rfl, .restarted i rx tx _ hpc⟩
      · cases h
  | bytes rx tx =>
    simp only [PollSystem.loopStep, hpc] at h
    obtain ⟨rfl, rfl⟩ := Prod.mk.inj (Option.some.inj h)
    exact ⟨_, rfl, .bytes rx tx hpc⟩
  | check =>
    simp only [PollSystem.loopStep, hpc] at h
    split at h
    · obtain ⟨rfl, rfl⟩ := Prod.mk.inj (Option.some.inj h)
      exact hrest (.delay _) (by rw [hpc]; exact ⟨rfl, nofun⟩) rfl (by rw [hpc]; exact nofun) rfl
    · obtain ⟨rfl, rfl⟩ := Prod.mk.inj (Option.some.inj h)
      exact hrest .wentDown (by rw [hpc]; exact ⟨rfl, nofun⟩) rfl (by rw [hpc]; exact nofun) rfl
  | wentDown =>
    simp only [PollSystem.loopStep, hpc] at h
    obtain ⟨rfl, rfl⟩ := Prod.mk.inj (Option.some.inj h)
    exact hrest .done (by rw [hpc]; exact ⟨rfl, nofun⟩) rfl (by rw [hpc]; exact nofun) rfl
  | delay wake =>
    simp only [PollSystem.loopStep, hpc] at h
    split at h
    · obtain ⟨rfl, rfl⟩ := Prod.mk.inj (Option.some.inj h)
      exact hrest .head (by rw [hpc]; exact ⟨rfl, nofun⟩) rfl (by rw [hpc]; exact nofun) rfl
    · cases h
  | done =>
    simp only [PollSystem.loopStep, hpc] at h
    cases h

/-! ## 3. Every loop of every run -/

/-- A loop after a step of the driver: it was there, or it has just been launched. -/
theorem get_rebind {loops : List PollLoop} {old new : Option WgTunnel} {k : Nat} {lp' : PollLoop}
    (h : (rebind loops old new)[k]? = some lp') :
    (∃ lp b, loops[k]? = some lp ∧ lp' = { lp with cancelled := b }) ∨
      (loops.length ≤ k ∧ ∃ t, lp' = { tunnel := t }) := by
  unfold rebind at h
  split at h
  · exact .inl ⟨lp', lp'.cancelled, h, rfl⟩
  · rw [List.getElem?_append] at h
    split at h
    · rw [List.getElem?_map] at h
      obtain ⟨lp, hlp, rfl⟩ := Option.map_eq_some_iff.mp h
      exact .inl ⟨lp, true, hlp, rfl⟩
    · rename_i hlen
      rw [List.length_map] at hlen
      obtain ⟨t, -, rfl⟩ := List.mem_map.mp (List.mem_of_getElem? h)
      exact .inr ⟨Nat.le_of_not_lt hlen, t, rfl⟩

theorem length_le_rebind (loops : List PollLoop) (old new : Option WgTunnel) :
    loops.length ≤ (rebind loops old new).length := by
  unfold rebind
  split
  · exact Nat.le_refl _
  · rw [List.length_append, List.length_map]
    exact Nat.le_add_right _ _

/-- What every step of a poll loop keeps, under whatever is kept of it. -/
structure Kept (P : PollLoop → LoopLog → Prop) : Prop where
  launched : ∀ t, P { tunnel := t } {}
  cancelled : ∀ lp g b, P lp g → P { lp with cancelled := b } g
  interrupted : ∀ lp g, P lp g → P { lp with pc := .done } g
  turn : ∀ lp lp' inp as g, P lp g → LoopTurn lp inp as lp' → P lp' (g.note lp inp as)

/-- Every loop that is there is as `P` says, and of the others nothing is kept. -/
def Logged (P : PollLoop → LoopLog → Prop) (loops : List PollLoop) (m : Nat → LoopLog) : Prop :=
  (∀ k lp, loops[k]? = some lp → P lp (m k)) ∧ ∀ k, loops.length ≤ k → m k = {}

section Kept

variable {P : PollLoop → LoopLog → Prop} {loops : List PollLoop} {m : Nat → LoopLog}

theorem Logged.rebind (hP : Kept P) (I : Logged P loops m) (old new : Option WgTunnel) :
    Logged P (rebind loops old new) m := by
  refine ⟨fun k lp' h => ?_, fun k hk => I.2 k (Nat.le_trans (length_le_rebind loops old new) hk)⟩
  rcases get_rebind h with ⟨lp, b, hlp, rfl⟩ | ⟨hk, t, rfl⟩
  · exact hP.cancelled lp (m k) b (I.1 k lp hlp)
  · rw [I.2 k hk]
    exact hP.launched t

/-- One loop moves, and what is kept of it with it. -/
theorem Logged.set (I : Logged P loops m) {k : Nat} {lp lp' : PollLoop} {g : LoopLog}
    (hk : loops[k]? = some lp) (h : P lp' g) :
    Logged P (loops.set k lp') (Function.update m k g) := by
  refine ⟨fun j lp₀ hj => ?_, fun j hj => ?_⟩
  · rcases get_set hk hj with ⟨rfl, rfl⟩ | ⟨hne, hj⟩
    · rw [Function.update_self]
      exact h
    · rw [Function.update_of_ne hne]
      exact I.1 j lp₀ hj
  · rw [List.length_set] at hj
    have hlt : k < loops.length := (List.getElem?_eq_some_iff.mp hk).1
    rw [Function.update_of_ne (by omega)]
    exact I.2 j hj

end Kept

/-- One step of the driver keeps it. -/
theorem logged_step {P : PollLoop → LoopLog → Prop} (hP : Kept P) (x : PollSystem × (Nat → LoopLog))
    (l : PollLabel) (x' : PollSystem × (Nat → LoopLog)) (I : Logged P x.1.loops x.2)
    (h : loggedStep D x l = some x') : Logged P x'.1.loops x'.2 := by
  obtain ⟨s, m⟩ := x
  obtain ⟨s', m'⟩ := x'
  obtain ⟨as, hs, hm⟩ := observed_some h
  dsimp only at I hs hm
  show Logged P s'.loops m'
  rw [hm]
  cases step_pollTurn hs with
  | connect | returned | interruptLock | interruptDelay | interruptJob => exact I
  | disconnectAsync | disconnectBlocking | call | job | onDestroy => exact I.rebind hP _ _
  | interruptLoop k lp wake hk =>
    have hdone := I.set hk (hP.interrupted lp (m k) (I.1 k lp hk))
    rw [Function.update_eq_self] at hdone
    exact hdone
  | loop k inp lp _ _ hk =>
    simp only [PollSystem.step, hk] at hs
    obtain ⟨lp', hloops, hturn⟩ := loopStep_turn hs
    rw [hloops]
    simp only [noteLoops, hk]
    exact I.set hk (hP.turn lp lp' inp as (m k) (I.1 k lp hk) hturn)

/-- **What every step of a poll loop keeps holds of every loop of every run.** -/
theorem log_inv {P : PollLoop → LoopLog → Prop} (hP : Kept P) {ls : List PollLabel}
    {m : Nat → LoopLog} (h : exec (loggedStep D) unlogged ls = some (s, m)) {k : Nat} {lp : PollLoop}
    (hk : s.loops[k]? = some lp) : P lp (m k) := by
  have h₀ : Logged P unlogged.1.loops unlogged.2 := ⟨nofun, fun _ _ => rfl⟩
  have I : Logged P s.loops m := exec_inv' (logged_step hP) h₀ h
  exact I.1 k lp hk

/-! ## 4. No false stall -/

/-- Each of the last `n` samples has the receive total of the one before it and a greater transmit
    total; the last one is the first of the list. -/
def SilentFor (n : Nat) (samples : List (Int × Int)) : Prop :=
  ∀ i < n, ∃ a b, samples[i]? = some a ∧ samples[i + 1]? = some b ∧ a.1 = b.1 ∧ b.2 < a.2

theorem silentFor_zero (samples : List (Int × Int)) : SilentFor 0 samples := nofun

theorem SilentFor.cons {n : Nat} {a b : Int × Int} {rest : List (Int × Int)}
    (h : SilentFor n (b :: rest)) (hrx : a.1 = b.1) (htx : b.2 < a.2) :
    SilentFor (n + 1) (a :: b :: rest) := by
  intro i hi
  cases i with
  | zero => exact ⟨a, b, rfl, rfl, hrx, htx⟩
  | succ i => exact h i (Nat.lt_of_succ_lt_succ hi)

/-- A baseline is the last sample. -/
def PollLoop.Based (lp : PollLoop) (samples : List (Int × Int)) : Prop :=
  lp.baseRx ≥ 0 → ∃ rest, samples = (lp.baseRx, lp.baseTx) :: rest

/-- What `silentSeconds` counts. -/
def Counted (lp : PollLoop) (g : LoopLog) : Prop :=
  match lp.pc with
  | .watch rx tx =>
    ∃ rest, g.samples = (rx, tx) :: rest ∧ lp.Based rest ∧ SilentFor lp.silentSeconds rest
  | .bytes rx tx =>
    (∃ rest, g.samples = (rx, tx) :: rest) ∧ SilentFor lp.silentSeconds g.samples
  | .restarting _ rx tx => (∃ rest, g.samples = (rx, tx) :: rest) ∧ lp.silentSeconds = 0
  | _ => lp.Based g.samples ∧ SilentFor lp.silentSeconds g.samples

theorem counted_resting {lp : PollLoop} {g : LoopLog} (h : lp.pc.resting = true) :
    Counted lp g ↔ lp.Based g.samples ∧ SilentFor lp.silentSeconds g.samples := by
  unfold Counted
  cases hpc : lp.pc with
  | watch | restarting | bytes =>
    rw [hpc] at h
    cases h
  | _ => rfl

/-- At the watchdog the sample it looks at is the last one. -/
theorem counted_watch {lp : PollLoop} {g : LoopLog} {rx tx : Int} (hpc : lp.pc = .watch rx tx)
    (h : lp.pc = .done ∨ Counted lp g) :
    ∃ rest, g.samples = (rx, tx) :: rest ∧ lp.Based rest ∧ SilentFor lp.silentSeconds rest := by
  rcases h with h | h
  · rw [hpc] at h
    cases h
  · simp only [Counted, hpc] at h
    exact h

theorem note_watch {lp : PollLoop} {rx tx : Int} (hpc : lp.pc = .watch rx tx) {inp : PollInput}
    {as : List Action} {g : LoopLog} : g.note lp inp as = g := by
  simp only [LoopLog.note, hpc]

/-- A sample that is null is not kept. -/
theorem note_resting {lp : PollLoop} {inp : PollInput} {as : List Action} {g : LoopLog}
    (hpc : lp.pc.resting = true) (hs : lp.pc = .sample → inp.stats = none) :
    g.note lp inp as = g := by
  cases hp : lp.pc with
  | bytes =>
    rw [hp] at hpc
    cases hpc
  | sample => simp only [LoopLog.note, hp, hs hp, Option.toList_none, List.nil_append]
  | _ => simp only [LoopLog.note, hp]

/-- A sample without a reply ends one more of them. -/
theorem PollLoop.Based.silent {lp : PollLoop} {rx tx : Int} {rest : List (Int × Int)}
    (hb : lp.Based rest) (h : SilentFor lp.silentSeconds rest) (hu : lp.unanswered rx tx) :
    SilentFor (lp.silentSeconds + 1) ((rx, tx) :: rest) := by
  obtain ⟨hbase, hrx, htx⟩ := hu
  obtain ⟨rest', rfl⟩ := hb hbase
  exact h.cons hrx htx

/-- Every step of a loop keeps the count. -/
theorem counted_kept : Kept fun lp g => lp.pc = .done ∨ Counted lp g where
  launched t := .inr ⟨fun h => absurd h (by simp), silentFor_zero _⟩
  cancelled lp g b h := h
  interrupted lp g _ := .inl rfl
  turn lp lp' inp as g h hturn := by
    cases hturn with
    | rest pc as hpc hrun hpc' hs =>
      have hkeep : g.note lp inp as = g := note_resting hpc hs
      rw [hkeep]
      exact .inr ((counted_resting hpc').mpr ((counted_resting hpc).mp (h.resolve_left hrun)))
    | sample rx tx hpc hs =>
      have hcount := (counted_resting (by rw [hpc]; rfl)).mp (h.resolve_left (by rw [hpc]; nofun))
      refine .inr ⟨g.samples, ?_, hcount⟩
      simp only [LoopLog.note, hpc, hs, Option.toList_some, List.singleton_append]
    | silent rx tx hpc hu =>
      obtain ⟨rest, hs, hbase, hcount⟩ := counted_watch hpc h
      rw [note_watch hpc]
      refine .inr ⟨⟨rest, hs⟩, ?_⟩
      rw [hs]
      exact hbase.silent hcount hu
    | alive rx tx as hpc =>
      obtain ⟨rest, hs, -, -⟩ := counted_watch hpc h
      rw [note_watch hpc]
      exact .inr ⟨⟨rest, hs⟩, silentFor_zero _⟩
    | restart i rx tx as hpc =>
      obtain ⟨rest, hs, -, -⟩ := counted_watch hpc h
      rw [note_watch hpc]
      exact .inr ⟨⟨rest, hs⟩, rfl⟩
    | restarted i rx tx as hpc =>
      rcases h with h | h
      · rw [hpc] at h
        cases h
      · simp only [Counted, hpc] at h
        refine .inr ⟨?_, ?_⟩
        · simp only [LoopLog.note, hpc]
          exact h.1
        · simp only [LoopLog.note, hpc, h.2]
          exact silentFor_zero _
    | unwound i rx tx hpc => exact .inl rfl
    | bytes rx tx hpc =>
      rcases h with h | h
      · rw [hpc] at h
        cases h
      · simp only [Counted, hpc] at h
        obtain ⟨⟨rest, hs⟩, hcount⟩ := h
        simp only [LoopLog.note, hpc]
        exact .inr ⟨fun _ => ⟨rest, hs⟩, hcount⟩

/-- Where a poll loop restarts, its watchdog looks at the eighth sample without a reply. -/
theorem silent_of_restartsAt {lp : PollLoop} {g : LoopLog} (h : Counted lp g)
    (hr : s.restartsAt lp = true) :
    ∃ rx tx rest, lp.pc = .watch rx tx ∧ g.samples = (rx, tx) :: rest ∧ SilentFor 8 g.samples := by
  unfold PollSystem.restartsAt at hr
  split at hr
  · rename_i rx tx hpc
    simp only [decide_eq_true_eq] at hr
    obtain ⟨hbase, hrx, htx, h8, -⟩ := hr
    obtain ⟨rest, hs, hb, hcount⟩ := counted_watch hpc (.inr h)
    have hsilent := hb.silent hcount ⟨hbase, hrx, htx⟩
    rw [h8] at hsilent
    exact ⟨rx, tx, rest, hpc, hs, hs ▸ hsilent⟩
  · cases hr

/-- Only a poll loop at its watchdog makes a `connect` call of its own. -/
theorem restarts_step {l : PollLabel} {as : List Action} (h : s.step D l = some (s', as)) :
    s'.restarts = s.restarts ∨
      ∃ k inp lp, l = .loop k inp ∧ s.loops[k]? = some lp ∧ s.restartsAt lp = true := by
  cases step_pollTurn h with
  | connect uuid =>
    refine .inl ?_
    simp only [PollSystem.restarts, List.countP_append]
    rfl
  | call i inp c w pc _ hi hm => exact .inl (countP_set_eq hi rfl)
  | interruptLock i c hi hpc | interruptDelay i c wake hi hpc => exact .inl (countP_set_eq hi rfl)
  | loop k inp lp _ _ hk hm =>
    rcases hm.calls with hcalls | ⟨hr, -⟩
    · refine .inl ?_
      simp only [PollSystem.restarts, hcalls]
    · exact .inr ⟨k, inp, lp, rfl, hk, hr⟩
  | _ => exact .inl rfl

/-- **A restart ends eight samples without a reply**: where a step makes a `connect` call that is not
    the user's, it is the step of a poll loop that looks at its last sample, and the last eight
    samples of that loop are silent. -/
theorem silent_of_restart {ls : List PollLabel} {m : Nat → LoopLog}
    (h : exec (loggedStep D) unlogged ls = some (s, m)) {l : PollLabel} {as : List Action}
    (hs : s.step D l = some (s', as)) (hr : s.restarts < s'.restarts) :
    ∃ k inp lp rx tx rest, l = .loop k inp ∧ s.loops[k]? = some lp ∧ lp.pc = .watch rx tx ∧
      (m k).samples = (rx, tx) :: rest ∧ SilentFor 8 (m k).samples := by
  rcases restarts_step hs with hsame | ⟨k, inp, lp, rfl, hk, hr⟩
  · exact absurd hr (by omega)
  · have hrun : lp.pc ≠ .done := by
      intro hdone
      simp only [PollSystem.restartsAt, hdone, Bool.false_eq_true] at hr
    have hcount := (log_inv counted_kept h hk).resolve_left hrun
    obtain ⟨rx, tx, rest, hpc, hsamples, hsilent⟩ := silent_of_restartsAt hcount hr
    exact ⟨k, inp, lp, rx, tx, rest, rfl, hk, hpc, hsamples, hsilent⟩

end Turns

/-! ## 5. What is reported -/

/-- The differences of one sample from the baseline; a negative one is none yet. -/
def diffFrom (base x : Int × Int) : Int × Int :=
  if base.1 < 0 then (0, 0) else (max (x.1 - base.1) 0, max (x.2 - base.2) 0)

/-- The differences of the samples, each from the one before it. -/
def diffsFrom (base : Int × Int) : List (Int × Int) → List (Int × Int)
  | [] => []
  | x :: xs => diffFrom base x :: diffsFrom x xs

theorem diffsFrom_concat (base : Int × Int) (xs : List (Int × Int)) (x : Int × Int) :
    diffsFrom base (xs ++ [x]) = diffsFrom base xs ++ [diffFrom (xs.getLastD base) x] := by
  induction xs generalizing base with
  | nil => rfl
  | cons y xs ih =>
    show diffFrom base y :: diffsFrom y (xs ++ [x]) = _
    rw [ih]
    cases xs <;> rfl

/-- The samples are those reported, and at most one more. -/
def InOrder (lp : PollLoop) (g : LoopLog) : Prop :=
  match lp.pc with
  | .watch rx tx | .restarting _ rx tx | .bytes rx tx => g.samples = (rx, tx) :: g.reported.reverse
  | .done => g.samples = g.reported.reverse ∨ ∃ x, g.samples = x :: g.reported.reverse
  | _ => g.samples = g.reported.reverse

/-- What a loop has reported, and what it measures the next sample against. -/
structure Accounted (lp : PollLoop) (g : LoopLog) : Prop where
  base : (lp.baseRx, lp.baseTx) = g.reported.getLastD (-1, -1)
  diffs : g.diffs = diffsFrom (-1, -1) g.reported
  order : InOrder lp g

theorem bytesAction_diffs (lp : PollLoop) (rx tx : Int) :
    [PollSystem.bytesAction lp rx tx].filterMap Action.diffs =
      [diffFrom (lp.baseRx, lp.baseTx) (rx, tx)] := by
  unfold PollSystem.bytesAction diffFrom
  split <;> rfl

theorem InOrder.le {lp : PollLoop} {g : LoopLog} (h : InOrder lp g) :
    g.samples = g.reported.reverse ∨ ∃ x, g.samples = x :: g.reported.reverse := by
  unfold InOrder at h
  split at h
  · exact .inr ⟨_, h⟩
  · exact .inr ⟨_, h⟩
  · exact .inr ⟨_, h⟩
  · exact h
  · exact .inl h

theorem inOrder_resting {lp : PollLoop} {g : LoopLog} (hpc : lp.pc.resting = true)
    (h : g.samples = g.reported.reverse) : InOrder lp g := by
  unfold InOrder
  cases hp : lp.pc with
  | watch | restarting | bytes =>
    rw [hp] at hpc
    cases hpc
  | done => exact .inl h
  | _ => exact h

theorem InOrder.resting {lp : PollLoop} {g : LoopLog} (h : InOrder lp g)
    (hpc : lp.pc.resting = true) (hrun : lp.pc ≠ .done) : g.samples = g.reported.reverse := by
  unfold InOrder at h
  cases hp : lp.pc with
  | watch | restarting | bytes =>
    rw [hp] at hpc
    cases hpc
  | done => exact absurd hp hrun
  | _ =>
    rw [hp] at h
    exact h

/-- Only the report of the bytes moves the baseline. -/
theorem reported_kept : Kept Accounted where
  launched t := ⟨rfl, rfl, rfl⟩
  cancelled lp g b h := ⟨h.base, h.diffs, h.order⟩
  interrupted lp g h := ⟨h.base, h.diffs, h.order.le⟩
  turn lp lp' inp as g h hturn := by
    obtain ⟨hbase, hdiffs, horder⟩ := h
    cases hturn with
    | rest pc as hpc hrun hpc' hs =>
      rw [note_resting hpc hs]
      exact ⟨hbase, hdiffs, inOrder_resting hpc' (horder.resting hpc hrun)⟩
    | sample rx tx hpc hs =>
      have hsamples := horder.resting (by rw [hpc]; rfl) (by rw [hpc]; nofun)
      simp only [LoopLog.note, hpc, hs]
      refine ⟨hbase, hdiffs, ?_⟩
      show (rx, tx) :: g.samples = _
      rw [hsamples]
    | silent rx tx hpc | alive rx tx as hpc | restart i rx tx as hpc =>
      rw [note_watch hpc]
      simp only [InOrder, hpc] at horder
      exact ⟨hbase, hdiffs, horder⟩
    | restarted i rx tx as hpc =>
      simp only [InOrder, hpc] at horder
      simp only [LoopLog.note, hpc]
      exact ⟨hbase, hdiffs, horder⟩
    | unwound i rx tx hpc =>
      simp only [InOrder, hpc] at horder
      simp only [LoopLog.note, hpc]
      exact ⟨hbase, hdiffs, .inr ⟨_, horder⟩⟩
    | bytes rx tx hpc =>
      simp only [InOrder, hpc] at horder
      simp only [LoopLog.note, hpc, bytesAction_diffs, hbase]
      refine ⟨?_, ?_, ?_⟩
      · rw [List.getLastD_concat]
      · rw [diffsFrom_concat, hdiffs]
      · show g.samples = (g.reported ++ [(rx, tx)]).reverse
        rw [List.reverse_append, horder]
        rfl

/-! ## 6. What is counted -/

/-- A sample: the totals of the tunnel, or the empty `Statistics`. -/
inductive Reading where
  | totals (rx tx : Nat)
  | empty
  deriving DecidableEq, Repr

def Reading.sample : Reading → Int × Int
  | .totals rx tx => (rx, tx)
  | .empty => (0, 0)

def Reading.rx : Reading → Option Nat
  | .totals rx _ => some rx
  | .empty => none

def Reading.tx : Reading → Option Nat
  | .totals _ tx => some tx
  | .empty => none

/-- What one counter has gone up by between its first total and its last. -/
def carried (ys : List (Option Nat)) : Int :=
  match ys.reduceOption with
  | [] => 0
  | y :: rest => rest.getLastD y - y

/-- What is counted from the baseline `b` on. -/
def counted (b : Nat) : List (Option Nat) → Int
  | [] => 0
  | y :: ys => max ((y.getD 0 : Int) - b) 0 + counted (y.getD 0) ys

/-- What is counted of one counter: its first reading is the baseline. -/
def metered : List (Option Nat) → Int
  | [] => 0
  | y :: ys => counted (y.getD 0) ys

/-- An empty reading with a total after it has only zeroes before it, and the first total is zero. -/
def Steady (ys : List (Option Nat)) : Prop :=
  ∀ pre post, ys = pre ++ none :: post → post.reduceOption ≠ [] →
    ys.reduceOption.head? = some 0 ∧ ∀ y ∈ pre.reduceOption, y = 0

/-- From a total to a greater one nothing changes. -/
theorem steady_some {b y : Nat} {ys : List (Option Nat)} (hb : b ≤ y) :
    Steady (some b :: some y :: ys) ↔ Steady (some y :: ys) := by
  constructor
  · intro h pre post he hpost
    obtain ⟨-, hzero⟩ := h (some b :: pre) post (by rw [he]; rfl) hpost
    have hpre : ∀ z ∈ pre.reduceOption, z = 0 := fun z hz => hzero z (List.mem_cons_of_mem b hz)
    cases pre with
    | nil => cases he
    | cons z pre =>
      obtain rfl := (List.cons.inj he).1
      have hy : y = 0 := hpre y List.mem_cons_self
      exact ⟨congrArg some hy, hpre⟩
  · intro h pre post he hpost
    cases pre with
    | nil => cases he
    | cons z pre =>
      obtain rfl := (List.cons.inj he).1
      obtain ⟨hhead, hzero⟩ := h pre post (List.cons.inj he).2 hpost
      have hy : y = 0 := Option.some.inj hhead
      have hb : b = 0 := by omega
      refine ⟨congrArg some hb, fun z hz => ?_⟩
      rcases List.mem_cons.mp hz with rfl | hz
      · exact hb
      · exact hzero z hz

/-- An empty reading: nothing comes after it, or the first total is zero and so are all those before
    the next empty reading. -/
theorem steady_none {ys : List (Option Nat)} (hys : ys.reduceOption ≠ []) :
    Steady (none :: ys) ↔ ys.reduceOption.head? = some 0 ∧ Steady (some 0 :: ys) := by
  constructor
  · intro h
    have hhead : ys.reduceOption.head? = some 0 := (h [] ys rfl hys).1
    refine ⟨hhead, fun pre post he hpost => ⟨rfl, fun y hy => ?_⟩⟩
    cases pre with
    | nil => cases he
    | cons z pre =>
      obtain rfl := (List.cons.inj he).1
      have htail := (List.cons.inj he).2
      obtain ⟨-, hzero⟩ := h (none :: pre) post (congrArg (none :: ·) htail) hpost
      rcases List.mem_cons.mp hy with rfl | hy
      · rfl
      · exact hzero y hy
  · intro h pre post he hpost
    refine ⟨h.1, fun y hy => ?_⟩
    cases pre with
    | nil => cases hy
    | cons z pre =>
      obtain rfl := (List.cons.inj he).1
      have htail := (List.cons.inj he).2
      obtain ⟨-, hzero⟩ := h.2 (some 0 :: pre) post (congrArg (some 0 :: ·) htail) hpost
      exact hzero y (List.mem_cons_of_mem 0 hy)

/-- After a total `b` an empty reading does no harm where `b` is zero. -/
theorem steady_some_none {b : Nat} {ys : List (Option Nat)} (hys : ys.reduceOption ≠ []) :
    Steady (some b :: none :: ys) ↔ b = 0 ∧ Steady (some 0 :: ys) := by
  constructor
  · intro h
    obtain ⟨hhead, -⟩ := h [some b] ys rfl hys
    have hb : b = 0 := Option.some.inj hhead
    subst hb
    refine ⟨rfl, fun pre post he hpost => ⟨rfl, ?_⟩⟩
    cases pre with
    | nil => cases he
    | cons z pre =>
      obtain rfl := (List.cons.inj he).1
      have htail := (List.cons.inj he).2
      have hsplit : some 0 :: none :: ys = (some 0 :: none :: pre) ++ none :: post := by
        rw [htail]
        rfl
      exact (h _ post hsplit hpost).2
  · intro h pre post he hpost
    obtain ⟨rfl, h⟩ := h
    refine ⟨rfl, fun y hy => ?_⟩
    cases pre with
    | nil => cases he
    | cons z pre =>
      obtain rfl := (List.cons.inj he).1
      cases pre with
      | nil => exact List.mem_singleton.mp hy
      | cons z pre =>
        have htail := (List.cons.inj he).2
        obtain rfl := (List.cons.inj htail).1
        have hsplit : some 0 :: ys = (some 0 :: pre) ++ none :: post :=
          congrArg (some 0 :: ·) (List.cons.inj htail).2
        exact (h _ post hsplit hpost).2 y hy

/-- Without a total after the first reading nothing is counted too much. -/
theorem steady_of_none {y : Option Nat} {ys : List (Option Nat)} (hys : ys.reduceOption = []) :
    Steady (y :: ys) := by
  intro pre post he hpost
  refine absurd ?_ hpost
  have hall : (y :: ys).tail.reduceOption = (pre ++ none :: post).tail.reduceOption := by rw [he]
  cases pre with
  | nil => exact hall.symm.trans hys
  | cons z pre =>
    have happ : pre.reduceOption ++ post.reduceOption = [] := by
      rw [← List.reduceOption_cons_of_none post, ← List.reduceOption_append]
      exact hall.symm.trans hys
    exact (List.append_eq_nil_iff.mp happ).2

/-- At least the way from the baseline to the last total is counted. -/
theorem counted_ge (b : Nat) (ys : List (Option Nat)) :
    (ys.reduceOption.getLastD b : Int) - b ≤ counted b ys := by
  induction ys generalizing b with
  | nil => simp [counted, List.reduceOption_nil]
  | cons y ys ih =>
    cases y with
    | some y =>
      have hrest := ih y
      simp only [List.reduceOption_cons_of_some, List.getLastD_cons, counted, Option.getD_some]
      omega
    | none =>
      have hrest := ih 0
      simp only [List.reduceOption_cons_of_none, counted, Option.getD_none]
      cases hys : ys.reduceOption with
      | nil =>
        simp only [hys, List.getLastD_nil] at hrest ⊢
        omega
      | cons z zs =>
        simp only [hys, List.getLastD_cons] at hrest ⊢
        omega

/-- From the baseline on: not more is counted exactly where the readings are steady. -/
theorem counted_le_iff {b : Nat} {ys : List (Option Nat)}
    (hmono : (b :: ys.reduceOption).Pairwise (· ≤ ·)) :
    counted b ys ≤ ys.reduceOption.getLastD b - b ↔ Steady (some b :: ys) := by
  induction ys generalizing b with
  | nil => exact iff_of_true (by simp [counted, List.reduceOption_nil]) (steady_of_none rfl)
  | cons y ys ih =>
    cases y with
    | some y =>
      rw [List.reduceOption_cons_of_some] at hmono ⊢
      obtain ⟨hb, hmono⟩ := List.pairwise_cons.mp hmono
      have hle : b ≤ y := hb y List.mem_cons_self
      rw [steady_some hle, ← ih hmono]
      simp only [List.getLastD_cons, counted, Option.getD_some]
      omega
    | none =>
      rw [List.reduceOption_cons_of_none] at hmono ⊢
      obtain ⟨hb, hmono⟩ := List.pairwise_cons.mp hmono
      have hrest := ih (List.pairwise_cons.mpr ⟨fun _ _ => Nat.zero_le _, hmono⟩)
      have hge := counted_ge 0 ys
      simp only [counted, Option.getD_none]
      cases hys : ys.reduceOption with
      | nil =>
        refine iff_of_true ?_ (steady_of_none ((List.reduceOption_cons_of_none ys).trans hys))
        have hnone : counted 0 ys ≤ ys.reduceOption.getLastD 0 - 0 := hrest.mpr (steady_of_none hys)
        simp only [hys, List.getLastD_nil] at hnone ⊢
        omega
      | cons z zs =>
        rw [steady_some_none (by rw [hys]; nofun), ← hrest]
        simp only [hys, List.getLastD_cons] at hge ⊢
        omega

/-- **One counter**: not more is counted than it has gone up by exactly where its readings are
    steady. -/
theorem metered_le_iff {ys : List (Option Nat)} (hmono : ys.reduceOption.Pairwise (· ≤ ·)) :
    metered ys ≤ carried ys ↔ Steady ys := by
  cases ys with
  | nil =>
    refine iff_of_true (Int.le_refl _) fun pre post he => ?_
    cases pre <;> cases he
  | cons y ys =>
    cases y with
    | some y =>
      rw [List.reduceOption_cons_of_some] at hmono
      have hlast : carried (some y :: ys) = ys.reduceOption.getLastD y - y := by
        simp only [carried, List.reduceOption_cons_of_some]
      rw [hlast]
      exact counted_le_iff hmono
    | none =>
      rw [List.reduceOption_cons_of_none] at hmono
      have hiff : counted 0 ys ≤ ys.reduceOption.getLastD 0 - 0 ↔ Steady (some 0 :: ys) :=
        counted_le_iff (List.pairwise_cons.mpr ⟨fun _ _ => Nat.zero_le _, hmono⟩)
      have hge := counted_ge 0 ys
      simp only [metered, carried, Option.getD_none, List.reduceOption_cons_of_none]
      cases hys : ys.reduceOption with
      | nil =>
        refine iff_of_true ?_ (steady_of_none hys)
        have hnone := hiff.mpr (steady_of_none hys)
        simp only [hys, List.getLastD_nil] at hnone
        show counted 0 ys ≤ 0
        omega
      | cons z zs =>
        rw [steady_none (by rw [hys]; nofun), ← hiff]
        simp only [hys, List.getLastD_cons, List.head?_cons, Option.some.injEq] at hge ⊢
        omega

theorem Reading.sample_eq (r : Reading) : r.sample = ((r.rx.getD 0 : Int), (r.tx.getD 0 : Int)) := by
  cases r <;> rfl

/-- The sums of the differences are what is counted of each counter. -/
theorem sum_diffsFrom (r : Reading) (xs : List Reading) :
    ((diffsFrom r.sample (xs.map Reading.sample)).map Prod.fst).sum =
        counted (r.rx.getD 0) (xs.map Reading.rx) ∧
      ((diffsFrom r.sample (xs.map Reading.sample)).map Prod.snd).sum =
        counted (r.tx.getD 0) (xs.map Reading.tx) := by
  induction xs generalizing r with
  | nil => exact ⟨rfl, rfl⟩
  | cons x xs ih =>
    have hbase : ¬ r.sample.1 < 0 := by
      rw [r.sample_eq]
      exact Int.not_lt.mpr (Int.natCast_nonneg _)
    simp only [List.map_cons, diffsFrom, diffFrom, if_neg hbase, List.sum_cons, counted, ih x]
    simp only [x.sample_eq, r.sample_eq, and_self]

theorem sum_reported (xs : List Reading) :
    ((diffsFrom (-1, -1) (xs.map Reading.sample)).map Prod.fst).sum = metered (xs.map Reading.rx) ∧
      ((diffsFrom (-1, -1) (xs.map Reading.sample)).map Prod.snd).sum =
        metered (xs.map Reading.tx) := by
  cases xs with
  | nil => exact ⟨rfl, rfl⟩
  | cons x xs =>
    obtain ⟨hrx, htx⟩ := sum_diffsFrom x xs
    constructor
    · show 0 + _ = _
      rw [Int.zero_add]
      exact hrx
    · show 0 + _ = _
      rw [Int.zero_add]
      exact htx

/-- **What a loop reports**: the samples in order, the last one perhaps not yet; and where each is the
    tunnel's totals, which never go down, or empty, the reported differences sum up to at most what
    the tunnel carried from the first totals to the last **exactly where no empty reading comes
    between a positive total and a later one, and none before a first total that is positive.** -/
theorem metered_iff {D : Stores} {ls : List PollLabel} {s : PollSystem} {m : Nat → LoopLog}
    (h : exec (loggedStep D) unlogged ls = some (s, m)) {k : Nat} {lp : PollLoop}
    (hk : s.loops[k]? = some lp) (xs : List Reading)
    (hxs : (m k).reported = xs.map Reading.sample)
    (hrx : (xs.map Reading.rx).reduceOption.Pairwise (· ≤ ·))
    (htx : (xs.map Reading.tx).reduceOption.Pairwise (· ≤ ·)) :
    ((m k).samples = (m k).reported.reverse ∨ ∃ x, (m k).samples = x :: (m k).reported.reverse) ∧
      ((((m k).diffs.map Prod.fst).sum ≤ carried (xs.map Reading.rx) ∧
          ((m k).diffs.map Prod.snd).sum ≤ carried (xs.map Reading.tx)) ↔
        Steady (xs.map Reading.rx) ∧ Steady (xs.map Reading.tx)) := by
  have I := log_inv reported_kept h hk
  obtain ⟨hsumRx, hsumTx⟩ := sum_reported xs
  refine ⟨I.order.le, ?_⟩
  rw [I.diffs, hxs, hsumRx, hsumTx]
  exact and_congr (metered_le_iff hrx) (metered_le_iff htx)

/-- The poll of a loop that has slept: one sample, reported, and the sleep after it. -/
def fullPoll (k : Nat) (now : Int) (stats : Int × Int) : List PollLabel :=
  List.replicate 6 (.loop k { now := now, stats := some stats })

/-- A tunnel comes up and is sampled three times. -/
def threeSamples (a b c : Int × Int) : List PollLabel :=
  PollLabel.connect "wg1" :: List.replicate 9 (PollLabel.call 0 { now := 1000 }) ++
    List.replicate 5 (PollLabel.loop 0 { now := 2000, stats := some a }) ++ fullPoll 0 4000 b ++ fullPoll 0 6000 c

theorem metered_iff_steady :
    ∃ s m lp, exec (loggedStep sampleStores) unlogged (threeSamples (100, 10) (120, 15) (150, 20)) =
        some (s, m) ∧ s.loops[0]? = some lp ∧
      ((m 0).diffs.map Prod.fst).sum ≤ carried [some 100, some 120, some 150] ∧
      ((m 0).diffs.map Prod.snd).sum ≤ carried [some 10, some 15, some 20] := by
  have hrun : ∃ s m lp, exec (loggedStep sampleStores) unlogged
      (threeSamples (100, 10) (120, 15) (150, 20)) = some (s, m) ∧ s.loops[0]? = some lp ∧
      (m 0).reported = [(100, 10), (120, 15), (150, 20)] := ⟨_, _, _, rfl, rfl, rfl⟩
  obtain ⟨s, m, lp, hs, hlp, hrep⟩ := hrun
  have hsteady : ∀ ys : List Nat, Steady (ys.map some) := by
    intro ys pre post he
    have hmem : none ∈ ys.map some := by
      rw [he]
      exact List.mem_append_right _ List.mem_cons_self
    obtain ⟨y, -, hy⟩ := List.mem_map.mp hmem
    cases hy
  have hiff := (metered_iff hs hlp [.totals 100 10, .totals 120 15, .totals 150 20] hrep
    (by decide) (by decide)).2
  exact ⟨s, m, lp, hs, hlp, hiff.mpr ⟨hsteady [100, 120, 150], hsteady [10, 15, 20]⟩⟩

/-- **A total that is counted twice**: after 100 bytes the native config cannot be read for one
    sample, and then there are 150; of the 50 bytes in between, 150 are reported. -/
theorem counted_twice :
    ∃ s m lp, exec (loggedStep sampleStores) unlogged (threeSamples (100, 10) (0, 0) (150, 20)) =
        some (s, m) ∧ s.loops[0]? = some lp ∧
      (m 0).reported = [.totals 100 10, .empty, .totals 150 20].map Reading.sample ∧
      carried [some 100, none, some 150] = 50 ∧ ((m 0).diffs.map Prod.fst).sum = 150 := by
  refine ⟨_, _, _, rfl, rfl, rfl, rfl, rfl⟩

end SwiftVpn
