/-
  File:      SwiftVpn/Xray/TestCores.lean
  Subject:   TEST CORES ONE AT A TIME: `mutex.withLock` and `CORE_COOLDOWN_MS` of XrayTester.kt over
             the runs of Xray/Tester.lean.

  * `CoreEvent`, `TestCall.coreEvent` -- what a step of a test does to its core: the native call that
    builds one is entered, or the core is gone again. `measureOutboundDelay` counts as a core from
    its entry to its return, a probe's core from the entry into `startLoop(cfg, 0)` until that threw
    or `stopLoop` is through.
  * `CoreWatch` -- the cores that exist, when the last one went, and the clock;
  * `Clocked` -- the clock of a run does not go back;
  * `CoresInv` -- the holder of the mutex is the only call that can have a core, and what is left of
    the cooldown is what its place says;
  * `testCores_apart` -- at every point of every run there is one core at most, none when the mutex is
    released, and a core is built 300 ms after the last one went or later.
-/
import SwiftVpn.Xray.Tester

namespace SwiftVpn

open Machine

/-! ## 1. What is watched -/

/-- What a step does to the core of a test. -/
inductive CoreEvent where
  | opened
  | closed
  deriving DecidableEq, Repr

/-- The core of a test call, at its next step. -/
def TestCall.coreEvent (t : TestCall) (inp : TestInput) : Option CoreEvent :=
  match t.pc with
  -- the entry into `measureOutboundDelay`, and its return
  | .parse => if inp.ok then some .opened else none
  | .measure => some .closed
  -- the entry into `startLoop(cfg, 0)`; a core whose `startLoop` threw is not running
  | .config => if inp.ok then some .opened else none
  | .starting => if inp.ok then none else some .closed
  | .stop => some .closed
  | _ => none

/-- The cores of the tests that exist, when the last one went, and the clock. -/
structure CoreWatch where
  cores : List Nat := []
  ended : Option Int := none
  clock : Option Int := none
  deriving DecidableEq, Repr

/-- A test is at its next step: what the watch sees of it. -/
def CoreWatch.test (w : CoreWatch) (i : Nat) (now : Int) : Option CoreEvent → CoreWatch
  | some .opened => { w with cores := w.cores ++ [i], clock := some now }
  | some .closed => { cores := w.cores.filter (· ≠ i), ended := some now, clock := some now }
  | none => { w with clock := some now }

@[simp] theorem CoreWatch.test_clock (w : CoreWatch) (i : Nat) (now : Int) (e : Option CoreEvent) :
    (w.test i now e).clock = some now := by
  rcases e with _ | _ | _ <;> rfl

/-- What the step `l` of a test does to a core. -/
def XrayProcess.coreEvent (s : XrayProcess) : ProcessLabel → Option CoreEvent
  | .test i inp => s.tests[i]?.bind fun t => t.coreEvent inp
  | _ => none

/-- The watch over the process. -/
def watchCores (s : XrayProcess) (l : ProcessLabel) (w : CoreWatch) : CoreWatch :=
  match l with
  | .test i inp => w.test i inp.now (s.coreEvent l)
  | _ => w

namespace XrayProcess

/-- The process with the watch. -/
def watched (D : Stores) (x : XrayProcess × CoreWatch) (l : ProcessLabel) :
    Option (XrayProcess × CoreWatch) :=
  match x.1.step D l with
  | some s' => some (s', watchCores x.1 l x.2)
  | none => none

end XrayProcess

/-- The clock at a step of a test. -/
def ProcessLabel.now : ProcessLabel → Option Int
  | .test _ inp => some inp.now
  | _ => none

/-- The clock does not go back. -/
def Clocked (ls : List ProcessLabel) : Prop := (ls.filterMap ProcessLabel.now).Pairwise (· ≤ ·)

/-- The clock at the step `l` is not behind what the watch has seen. -/
def OnTime (x : XrayProcess × CoreWatch) (l : ProcessLabel) : Prop :=
  ∀ now ∈ l.now, ∀ c ∈ x.2.clock, c ≤ now

/-! ## 2. The moves of a test -/

/-- The points inside the mutex. -/
def TestPc.locked : TestPc → Bool
  | .check | .prepare | .lock | .done => false
  | _ => true

/-- The points at which a call has a core. -/
def TestPc.hasCore : TestPc → Bool
  | .measure | .starting | .fetch | .stop => true
  | _ => false

/-- What is left of the cooldown when the holder of the mutex is at `pc`: a core that went at `ended`
    has been gone for 300 ms, unless the holder still has to wait for that. -/
def Rested (pc : TestPc) (ended clock : Int) : Prop :=
  match pc with
  | .cooldown => ended ≤ clock
  | .delay wake => ended + coreCooldownMs ≤ wake
  | _ => ended + coreCooldownMs ≤ clock

/-- The cooldown is not undone by the clock. -/
theorem Rested.mono {pc : TestPc} {ended c c' : Int} (h : Rested pc ended c) (hc : c ≤ c') :
    Rested pc ended c' := by
  cases pc with
  | delay wake => exact h
  | _ => exact Int.le_trans h hc

/-- What a test does at one step: it moves outside the mutex, takes it, moves inside, or releases it;
    `e` is what that does to its core. -/
inductive TestMove (i : Nat) (inp : TestInput) (m m' : Option Nat) (pc pc' : TestPc) :
    Option CoreEvent → Prop where
  | outside (h : pc.locked = false) (h' : pc'.locked = false) (hm : m' = m) :
      TestMove i inp m m' pc pc' none
  | enter (h : pc.locked = false) (h' : pc'.locked = true) (hc : pc'.hasCore = false)
      (hm : m = none) (hm' : m' = some i)
      (hr : ∀ {ended c : Int}, Rested .done ended c → c ≤ inp.now → Rested pc' ended inp.now) :
      TestMove i inp m m' pc pc' none
  | goOn (h : pc.locked = true) (h' : pc'.locked = true) (hm : m' = m) (hc : pc'.hasCore = pc.hasCore)
      (hr : ∀ {ended c : Int}, Rested pc ended c → c ≤ inp.now → Rested pc' ended inp.now) :
      TestMove i inp m m' pc pc' none
  | opened (h : pc.locked = true) (h' : pc'.locked = true) (hm : m' = m) (hc : pc.hasCore = false)
      (hc' : pc'.hasCore = true)
      (hr : ∀ {ended c : Int}, Rested pc ended c → c ≤ inp.now →
        ended + coreCooldownMs ≤ inp.now ∧ Rested pc' ended inp.now) :
      TestMove i inp m m' pc pc' (some .opened)
  | closed (h : pc.locked = true) (hm : m' = m) (hpc : pc' = .cooldown) :
      TestMove i inp m m' pc pc' (some .closed)
  | leave (hpc : pc = .unlock) (hpc' : pc' = .done) (hm : m' = none) :
      TestMove i inp m m' pc pc' none

/-- A step of a test is one of these moves. -/
theorem testStep_move {s s' : XrayProcess} {i : Nat} {t : TestCall} {inp : TestInput}
    (h : s.testStep i t inp = some s') :
    ∃ pc', s'.tests = s.tests.set i { t with pc := pc' } ∧
      TestMove i inp s.mutex s'.mutex t.pc pc' (t.coreEvent inp) := by
  obtain ⟨kind, pc⟩ := t
  cases pc with
  | check =>
    simp only [XrayProcess.testStep] at h
    split at h
    all_goals
      obtain rfl := Option.some.inj h
      exact ⟨_, rfl, .outside rfl rfl rfl⟩
  | prepare =>
    obtain rfl := Option.some.inj h
    exact ⟨_, rfl, .outside rfl (by cases inp.ok <;> rfl) rfl⟩
  | lock =>
    simp only [XrayProcess.testStep] at h
    split at h
    · rename_i hm
      obtain rfl := Option.some.inj h
      refine ⟨_, rfl, .enter rfl ?_ ?_ hm rfl ?_⟩
      · cases kind <;> rfl
      · cases kind <;> rfl
      · intro ended c hr hc
        cases kind <;> exact Int.le_trans hr hc
    · cases h
  | parse =>
    obtain rfl := Option.some.inj h
    refine ⟨_, rfl, ?_⟩
    simp only [TestCall.coreEvent]
    cases inp.ok with
    | true => exact .opened rfl rfl rfl rfl rfl fun hr hc => ⟨Int.le_trans hr hc, Int.le_trans hr hc⟩
    | false => exact .goOn rfl rfl rfl rfl fun hr hc => Int.le_trans hr hc
  | config =>
    obtain rfl := Option.some.inj h
    refine ⟨_, rfl, ?_⟩
    simp only [TestCall.coreEvent]
    cases inp.ok with
    | true => exact .opened rfl rfl rfl rfl rfl fun hr hc => ⟨Int.le_trans hr hc, Int.le_trans hr hc⟩
    | false =>
      refine .goOn rfl rfl rfl rfl fun {ended c} hr hc => ?_
      have hgone : ended + coreCooldownMs ≤ c := hr
      show ended ≤ inp.now
      unfold coreCooldownMs at hgone
      omega
  | starting =>
    obtain rfl := Option.some.inj h
    refine ⟨_, rfl, ?_⟩
    simp only [TestCall.coreEvent]
    cases inp.ok with
    | true => exact .goOn rfl rfl rfl rfl fun hr hc => Int.le_trans hr hc
    | false => exact .closed rfl rfl rfl
  | measure | stop =>
    obtain rfl := Option.some.inj h
    exact ⟨_, rfl, .closed rfl rfl rfl⟩
  | port =>
    obtain rfl := Option.some.inj h
    refine ⟨_, rfl, ?_⟩
    cases inp.ok with
    | true | false => exact .goOn rfl rfl rfl rfl fun hr hc => Int.le_trans hr hc
  | fetch =>
    obtain rfl := Option.some.inj h
    exact ⟨_, rfl, .goOn rfl rfl rfl rfl fun hr hc => Int.le_trans hr hc⟩
  | cooldown =>
    obtain rfl := Option.some.inj h
    refine ⟨_, rfl, .goOn rfl rfl rfl rfl fun {ended c} hr hc => ?_⟩
    exact Int.add_le_add_right (Int.le_trans hr hc) coreCooldownMs
  | delay wake =>
    simp only [XrayProcess.testStep] at h
    split at h
    · rename_i hwake
      obtain rfl := Option.some.inj h
      exact ⟨_, rfl, .goOn rfl rfl rfl rfl fun hr _ => Int.le_trans hr hwake⟩
    · cases h
  | unlock =>
    obtain rfl := Option.some.inj h
    exact ⟨_, rfl, .leave rfl rfl rfl⟩
  | done => cases h

/-! ## 3. The invariant -/

namespace XrayProcess

/-- Where the test call `i` stands. -/
def testPc (s : XrayProcess) : Nat → TestPc := field TestCall.pc .done s.tests

/-- Where the holder of the mutex stands. -/
def holderPc (s : XrayProcess) : TestPc :=
  match s.mutex with
  | some i => s.testPc i
  | none => .done

end XrayProcess

/-- The holder of the mutex is the only call inside, a core is that of a call that has one, and the
    cooldown of the last core is over or still to be waited for by the holder. -/
structure CoresInv (x : XrayProcess × CoreWatch) : Prop where
  holder : ∀ i, (x.1.testPc i).locked = true ↔ x.1.mutex = some i
  cores : ∀ i, i ∈ x.2.cores ↔ (x.1.testPc i).hasCore = true
  nodup : x.2.cores.Nodup
  rested : ∀ t ∈ x.2.ended, ∃ c ∈ x.2.clock, Rested x.1.holderPc t c

theorem TestPc.locked_of_hasCore {pc : TestPc} (h : pc.hasCore = true) : pc.locked = true := by
  cases pc with
  | measure | starting | fetch | stop => rfl
  | _ => cases h

theorem TestPc.hasCore_of_outside {pc : TestPc} (h : pc.locked = false) : pc.hasCore = false := by
  cases hc : pc.hasCore with
  | false => rfl
  | true =>
    rw [TestPc.locked_of_hasCore hc] at h
    cases h

section Invariant

variable {s s' : XrayProcess} {w : CoreWatch} {D : Stores}

theorem holderPc_of_mutex {i : Nat} (hm : s.mutex = some i) : s.holderPc = s.testPc i := by
  unfold XrayProcess.holderPc
  rw [hm]

theorem holderPc_of_free (hm : s.mutex = none) : s.holderPc = .done := by
  unfold XrayProcess.holderPc
  rw [hm]

/-- The calls stand where they stood, or were and are outside the mutex. -/
def CallsKept (s s' : XrayProcess) : Prop :=
  ∀ i, s'.testPc i = s.testPc i ∨ ((s.testPc i).locked = false ∧ (s'.testPc i).locked = false)

/-- With the calls and the mutex as they were, nothing changes. -/
theorem CoresInv.same (I : CoresInv (s, w)) (hpc : CallsKept s s') (hm : s'.mutex = s.mutex) :
    CoresInv (s', w) where
  holder i := by
    show (s'.testPc i).locked = true ↔ s'.mutex = some i
    rw [hm]
    refine Iff.trans ?_ (I.holder i)
    rcases hpc i with heq | ⟨hl, hl'⟩
    · rw [heq]
    · rw [hl', show (s, w).1.testPc i = s.testPc i from rfl, hl]
  cores i := by
    show i ∈ w.cores ↔ (s'.testPc i).hasCore = true
    refine (I.cores i).trans ?_
    rcases hpc i with heq | ⟨hl, hl'⟩
    · rw [heq]
    · rw [TestPc.hasCore_of_outside hl', show (s, w).1.testPc i = s.testPc i from rfl,
        TestPc.hasCore_of_outside hl]
  nodup := I.nodup
  rested t ht := by
    have hholder : s'.holderPc = s.holderPc := by
      cases hs : s.mutex with
      | none => rw [holderPc_of_free hs, holderPc_of_free (hm.trans hs)]
      | some j =>
        rw [holderPc_of_mutex hs, holderPc_of_mutex (hm.trans hs)]
        refine (hpc j).resolve_right fun hl => ?_
        have hlocked : (s.testPc j).locked = true := (I.holder j).mpr hs
        rw [hl.1] at hlocked
        cases hlocked
    rw [show (s', w).1.holderPc = s.holderPc from hholder]
    exact I.rested t ht

/-- A call has a core only as the holder of the mutex. -/
theorem CoresInv.mutex_of_hasCore (I : CoresInv (s, w)) {i : Nat}
    (h : (s.testPc i).hasCore = true) : s.mutex = some i :=
  (I.holder i).mp (TestPc.locked_of_hasCore h)

/-- While the holder of the mutex has no core, there is none. -/
theorem CoresInv.no_core (I : CoresInv (s, w)) {i : Nat} (hm : s.mutex = some i)
    (h : (s.testPc i).hasCore = false) : w.cores = [] := by
  refine List.eq_nil_iff_forall_not_mem.mpr fun j hj => ?_
  have hcore := (I.cores j).mp hj
  have hij : i = j := Option.some.inj (hm.symm.trans (I.mutex_of_hasCore hcore))
  subst hij
  rw [show (s, w).1.testPc i = s.testPc i from rfl, h] at hcore
  cases hcore

/-- **There is one core at most.** -/
theorem CoresInv.length_le (I : CoresInv (s, w)) : w.cores.length ≤ 1 := by
  cases hc : w.cores with
  | nil => exact Nat.zero_le 1
  | cons i rest =>
    have hi : s.mutex = some i := I.mutex_of_hasCore ((I.cores i).mp (hc ▸ List.mem_cons_self))
    have hrest : rest = [] := by
      refine List.eq_nil_iff_forall_not_mem.mpr fun j hj => ?_
      have hmem : j ∈ w.cores := hc ▸ List.mem_cons_of_mem i hj
      have hij : i = j := Option.some.inj (hi.symm.trans (I.mutex_of_hasCore ((I.cores j).mp hmem)))
      have hnodup : (i :: rest).Nodup := hc ▸ I.nodup
      exact (List.nodup_cons.mp hnodup).1 (hij ▸ hj)
    rw [hrest]
    exact Nat.le_refl 1

/-- The calls beside the one that moves stand where they stood. -/
theorem testPc_set {i : Nat} {t : TestCall} {pc' : TestPc} (hi : s.tests[i]? = some t)
    (h : s'.tests = s.tests.set i { t with pc := pc' }) :
    s'.testPc = Function.update s.testPc i pc' := by
  unfold XrayProcess.testPc
  rw [h, field_set hi]

section Move

variable {i : Nat} {inp : TestInput} {pc' : TestPc} {e : Option CoreEvent}

/-- What a move does to the mutex. -/
theorem TestMove.lock {m m' : Option Nat} {pc : TestPc} (h : TestMove i inp m m' pc pc' e) :
    (m = none ∧ pc'.locked = true ∧ m' = some i) ∨
      (pc.locked = true ∧ pc'.locked = true ∧ m' = m) ∨
      (pc.locked = true ∧ ¬ pc'.locked = true ∧ m' = none) ∨
      (¬ pc.locked = true ∧ ¬ pc'.locked = true ∧ m' = m) := by
  cases h with
  | outside h h' hm => exact .inr (.inr (.inr ⟨by rw [h]; nofun, by rw [h']; nofun, hm⟩))
  | enter h h' hc hm hm' hr => exact .inl ⟨hm, h', hm'⟩
  | goOn h h' hm hc hr => exact .inr (.inl ⟨h, h', hm⟩)
  | opened h h' hm hc hc' hr => exact .inr (.inl ⟨h, h', hm⟩)
  | closed h hm hpc => exact .inr (.inl ⟨h, by rw [hpc]; rfl, hm⟩)
  | leave hpc hpc' hm =>
    subst hpc hpc'
    exact .inr (.inr (.inl ⟨rfl, nofun, hm⟩))

/-- What a move does to the core. -/
theorem TestMove.core {m m' : Option Nat} {pc : TestPc} (h : TestMove i inp m m' pc pc' e) :
    (e = none ∧ pc'.hasCore = pc.hasCore) ∨
      (e = some .opened ∧ pc.hasCore = false ∧ pc'.hasCore = true) ∨
      (e = some .closed ∧ pc'.hasCore = false) := by
  cases h with
  | outside h h' hm => exact .inl ⟨rfl, (TestPc.hasCore_of_outside h').trans (TestPc.hasCore_of_outside h).symm⟩
  | enter h h' hc hm hm' hr => exact .inl ⟨rfl, hc.trans (TestPc.hasCore_of_outside h).symm⟩
  | goOn h h' hm hc hr => exact .inl ⟨rfl, hc⟩
  | opened h h' hm hc hc' hr => exact .inr (.inl ⟨rfl, hc, hc'⟩)
  | closed h hm hpc => exact .inr (.inr ⟨rfl, by rw [hpc]; rfl⟩)
  | leave hpc hpc' hm =>
    subst hpc hpc'
    exact .inl ⟨rfl, rfl⟩

/-- The watch's cores after a move are those of the calls that have one. -/
theorem CoresInv.cores_test (I : CoresInv (s, w)) (now : Int)
    (hother : ∀ j, j ≠ i → s'.testPc j = s.testPc j)
    (hcore : (e = none ∧ (s'.testPc i).hasCore = (s.testPc i).hasCore) ∨
      (e = some .opened ∧ (s.testPc i).hasCore = false ∧ (s'.testPc i).hasCore = true) ∨
      (e = some .closed ∧ (s'.testPc i).hasCore = false)) :
    (w.test i now e).cores.Nodup ∧
      ∀ j, j ∈ (w.test i now e).cores ↔ (s'.testPc j).hasCore = true := by
  rcases hcore with ⟨rfl, hsame⟩ | ⟨rfl, hno, hyes⟩ | ⟨rfl, hno⟩
  · refine ⟨I.nodup, fun j => ?_⟩
    by_cases hj : j = i
    · rw [hj, hsame]
      exact I.cores i
    · rw [hother j hj]
      exact I.cores j
  · have hnot : i ∉ w.cores := fun hi => by
      have hcore := (I.cores i).mp hi
      rw [show (s, w).1.testPc i = s.testPc i from rfl, hno] at hcore
      cases hcore
    refine ⟨List.nodup_append.mpr ⟨I.nodup, by simp, ?_⟩, fun j => ?_⟩
    · intro a ha b hb hab
      rw [List.mem_singleton.mp hb] at hab
      exact hnot (hab ▸ ha)
    · by_cases hj : j = i
      · rw [hj, hyes]
        exact ⟨fun _ => rfl, fun _ => List.mem_append_right _ (List.mem_singleton_self i)⟩
      · rw [hother j hj]
        refine Iff.trans ?_ (I.cores j)
        simp only [CoreWatch.test, List.mem_append, List.mem_singleton, hj, or_false]
  · refine ⟨I.nodup.filter _, fun j => ?_⟩
    by_cases hj : j = i
    · rw [hj, hno]
      simp [CoreWatch.test]
    · rw [hother j hj]
      refine Iff.trans ?_ (I.cores j)
      simp [CoreWatch.test, hj]

/-- What is left of the cooldown after a move. -/
theorem CoresInv.rested_test (I : CoresInv (s, w)) {t : TestCall} (hself : s.testPc i = t.pc)
    (hpc' : s'.testPc i = pc') (hother : ∀ j, j ≠ i → s'.testPc j = s.testPc j)
    (hmove : TestMove i inp s.mutex s'.mutex t.pc pc' e) (hclock : ∀ c ∈ w.clock, c ≤ inp.now) :
    ∀ ended ∈ (w.test i inp.now e).ended, Rested s'.holderPc ended inp.now := by
  have hholder : t.pc.locked = true → s.mutex = some i := fun h =>
    (I.holder i).mp (show (s.testPc i).locked = true by rw [hself]; exact h)
  cases hmove with
  | outside h h' hm =>
    intro ended he
    obtain ⟨c, hc, hr⟩ := I.rested ended he
    have hsame : s'.holderPc = s.holderPc := by
      cases hs : s.mutex with
      | none => rw [holderPc_of_free hs, holderPc_of_free (hm.trans hs)]
      | some j =>
        have hj : j ≠ i := fun hji => by
          have hl : (s.testPc i).locked = true := (I.holder i).mpr (hji ▸ hs)
          rw [hself, h] at hl
          cases hl
        rw [holderPc_of_mutex hs, holderPc_of_mutex (hm.trans hs), hother j hj]
    rw [hsame]
    exact hr.mono (hclock c hc)
  | enter h h' hc' hm hm' hr =>
    intro ended he
    obtain ⟨c, hc, hrest⟩ := I.rested ended he
    rw [show (s, w).1.holderPc = .done from holderPc_of_free hm] at hrest
    rw [holderPc_of_mutex hm', hpc']
    exact hr hrest (hclock c hc)
  | goOn h h' hm hc' hr =>
    intro ended he
    obtain ⟨c, hc, hrest⟩ := I.rested ended he
    rw [show (s, w).1.holderPc = t.pc from (holderPc_of_mutex (hholder h)).trans hself] at hrest
    rw [holderPc_of_mutex (hm.trans (hholder h)), hpc']
    exact hr hrest (hclock c hc)
  | opened h h' hm hc' hcore hr =>
    intro ended he
    obtain ⟨c, hc, hrest⟩ := I.rested ended he
    rw [show (s, w).1.holderPc = t.pc from (holderPc_of_mutex (hholder h)).trans hself] at hrest
    rw [holderPc_of_mutex (hm.trans (hholder h)), hpc']
    exact (hr hrest (hclock c hc)).2
  | closed h hm hpc =>
    intro ended he
    obtain rfl := Option.some.inj he
    rw [holderPc_of_mutex (hm.trans (hholder h)), hpc', hpc]
    exact Int.le_refl inp.now
  | leave hpc hdone hm =>
    intro ended he
    obtain ⟨c, hc, hrest⟩ := I.rested ended he
    have hlocked : t.pc.locked = true := by rw [hpc]; rfl
    rw [show (s, w).1.holderPc = .unlock from
      (holderPc_of_mutex (hholder hlocked)).trans (hself.trans hpc)] at hrest
    rw [holderPc_of_free hm]
    exact Int.le_trans hrest (hclock c hc)

/-- **A move of a test keeps the invariant.** -/
theorem CoresInv.test (I : CoresInv (s, w)) {t : TestCall} (hi : s.tests[i]? = some t)
    (htests : s'.tests = s.tests.set i { t with pc := pc' })
    (hmove : TestMove i inp s.mutex s'.mutex t.pc pc' e) (hclock : ∀ c ∈ w.clock, c ≤ inp.now) :
    CoresInv (s', w.test i inp.now e) := by
  have hself : s.testPc i = t.pc := field_eq hi
  have hset := testPc_set hi htests
  have hpc' : s'.testPc i = pc' := by rw [hset, Function.update_self]
  have hother : ∀ j, j ≠ i → s'.testPc j = s.testPc j := fun j hj => by
    rw [hset, Function.update_of_ne hj]
  have hlock := hmove.lock
  have hcore := hmove.core
  rw [← hself, ← hpc'] at hlock hcore
  obtain ⟨hnodup, hcores⟩ := I.cores_test inp.now hother hcore
  refine ⟨?_, hcores, hnodup, fun ended he => ⟨inp.now, ?_, ?_⟩⟩
  · exact lock_step I.holder i (fun j hj => by rw [show (s', w.test i inp.now e).1 = s' from rfl,
      hother j hj]) hlock
  · rw [CoreWatch.test_clock]
    rfl
  · exact I.rested_test hself hpc' hother hmove hclock ended he

end Move

/-- A new call stands outside. -/
theorem callsKept_request (kind : TestKind) :
    CallsKept s { s with
      tests := s.tests ++ [⟨kind, if kind = .latency then .prepare else .check⟩] } := by
  intro i
  unfold XrayProcess.testPc field
  dsimp only
  cases hi : s.tests[i]? with
  | some t =>
    rw [List.getElem?_append_left (List.getElem?_eq_some_iff.mp hi).1, hi]
    exact .inl rfl
  | none =>
    refine .inr ⟨rfl, ?_⟩
    cases hnew : (s.tests ++ [⟨kind, if kind = .latency then .prepare else .check⟩])[i]? with
    | none => rfl
    | some t =>
      rcases get_concat hnew with hold | ⟨-, rfl⟩
      · rw [hi] at hold
        cases hold
      · cases kind <;> rfl

/-- A service has no hand in the tests. -/
theorem service_tests {k : Nat} {l : XrayLabel} (h : s.step D (.service k l) = some s') :
    s'.tests = s.tests ∧ s'.mutex = s.mutex := by
  simp only [XrayProcess.step] at h
  split at h
  · cases h
  · split at h
    · cases h
    · split at h
      · cases h
      · obtain rfl := Option.some.inj h
        exact ⟨rfl, rfl⟩

/-- **Every step on time keeps the invariant.** -/
theorem coresInv_step (x : XrayProcess × CoreWatch) (l : ProcessLabel) (x' : XrayProcess × CoreWatch)
    (I : CoresInv x) (hC : OnTime x l) (h : XrayProcess.watched D x l = some x') : CoresInv x' := by
  obtain ⟨s, w⟩ := x
  unfold XrayProcess.watched at h
  cases hs : s.step D l with
  | none => simp only [hs, reduceCtorEq] at h
  | some s' =>
    simp only [hs, Option.some.injEq] at h
    subst h
    cases l with
    | create | clear =>
      obtain rfl := Option.some.inj hs
      exact I.same (fun _ => .inl rfl) rfl
    | request kind =>
      obtain rfl := Option.some.inj hs
      exact I.same (callsKept_request kind) rfl
    | service k l =>
      obtain ⟨htests, hm⟩ := service_tests hs
      refine I.same (fun i => .inl ?_) hm
      unfold XrayProcess.testPc
      rw [htests]
    | test i inp =>
      cases hi : s.tests[i]? with
      | none => simp only [XrayProcess.step, hi, reduceCtorEq] at hs
      | some t =>
        simp only [XrayProcess.step, hi] at hs
        obtain ⟨pc', htests, hmove⟩ := testStep_move hs
        have hevent : s.coreEvent (.test i inp) = t.coreEvent inp := by
          simp only [XrayProcess.coreEvent, hi, Option.bind_some]
        show CoresInv (s', w.test i inp.now (s.coreEvent (.test i inp)))
        rw [hevent]
        exact I.test hi htests hmove (hC inp.now rfl)

end Invariant

/-! ## 4. The runs -/

section Runs

variable {D : Stores}

/-- Every run of the process is watched to its end. -/
theorem exec_watched {s s' : XrayProcess} {ls : List ProcessLabel} (w : CoreWatch)
    (h : exec (XrayProcess.step D) s ls = some s') :
    ∃ w', exec (XrayProcess.watched D) (s, w) ls = some (s', w') := by
  induction ls generalizing s w with
  | nil =>
    obtain rfl := Option.some.inj h
    exact ⟨w, rfl⟩
  | cons l ls ih =>
    obtain ⟨t, ht, hrun⟩ := exec_cons.mp h
    obtain ⟨w', hw'⟩ := ih (watchCores s l w) hrun
    refine ⟨w', exec_cons.mpr ⟨(t, watchCores s l w), ?_, hw'⟩⟩
    simp only [XrayProcess.watched, ht]

/-- The watch reads the clock of the last step of a test. -/
theorem watched_clock {x x' : XrayProcess × CoreWatch} {l : ProcessLabel}
    (h : XrayProcess.watched D x l = some x') :
    ∀ c ∈ x'.2.clock, c ∈ x.2.clock ∨ c ∈ l.now := by
  unfold XrayProcess.watched at h
  split at h
  · obtain rfl := Option.some.inj h
    intro c hc
    cases l with
    | test i inp =>
      have hc' : c ∈ (x.2.test i inp.now (x.1.coreEvent (.test i inp))).clock := hc
      rw [CoreWatch.test_clock] at hc'
      exact .inr hc'
    | create | service | clear | request => exact .inl hc
  · cases h

/-- A clock that does not go back is never behind what the watch has seen. -/
theorem along_onTime {x y : XrayProcess × CoreWatch} {ls : List ProcessLabel} {l : ProcessLabel}
    (hclock : Clocked (ls ++ [l])) (hx : ∀ k ∈ ls ++ [l], OnTime x k)
    (h : exec (XrayProcess.watched D) x ls = some y) :
    Along (XrayProcess.watched D) OnTime x ls ∧ OnTime y l := by
  induction ls generalizing x with
  | nil =>
    obtain rfl := Option.some.inj h
    exact ⟨along_nil x, hx l (List.mem_singleton_self l)⟩
  | cons k ls ih =>
    obtain ⟨x', hx', hrun⟩ := exec_cons.mp h
    have hlater : Clocked (ls ++ [l]) ∧ ∀ m ∈ ls ++ [l], ∀ c ∈ k.now, ∀ now ∈ m.now, c ≤ now := by
      unfold Clocked at hclock ⊢
      rw [List.cons_append, List.filterMap_cons] at hclock
      cases hk : k.now with
      | none =>
        rw [hk] at hclock
        exact ⟨hclock, fun _ _ _ hc => by cases hc⟩
      | some n =>
        rw [hk] at hclock
        obtain ⟨hfirst, hrest⟩ := List.pairwise_cons.mp hclock
        refine ⟨hrest, fun m hm c hc now hnow => ?_⟩
        obtain rfl := Option.some.inj hc
        exact hfirst now (List.mem_filterMap.mpr ⟨m, hm, hnow⟩)
    have hnext : ∀ m ∈ ls ++ [l], OnTime x' m := by
      intro m hm now hnow c hc
      rcases watched_clock hx' c hc with hold | hk
      · exact hx m (List.mem_cons_of_mem k hm) now hnow c hold
      · exact hlater.2 m hm c hk now hnow
    obtain ⟨hrest, hlast⟩ := ih hlater.1 hnext hrun
    exact ⟨(along_cons hx').mpr ⟨hx k List.mem_cons_self, hrest⟩, hlast⟩

theorem coresInv_init : CoresInv ({}, {}) where
  holder i := ⟨nofun, nofun⟩
  cores i := ⟨nofun, nofun⟩
  nodup := List.nodup_nil
  rested t ht := by cases ht

/-- What the mutex is released by. -/
theorem TestMove.pc_of_release {i : Nat} {inp : TestInput} {m m' : Option Nat} {pc pc' : TestPc}
    {e : Option CoreEvent} (h : TestMove i inp m m' pc pc' e) (hm : m ≠ none) (hm' : m' = none) :
    pc = .unlock := by
  cases h with
  | outside _ _ heq | goOn _ _ heq | opened _ _ heq | closed _ heq =>
    exact absurd (heq.symm.trans hm') hm
  | enter _ _ _ hfree => exact absurd hfree hm
  | leave hpc => exact hpc

/-- The step of a call, taken apart. -/
theorem step_test {s s' : XrayProcess} {l : ProcessLabel} (h : s.step D l = some s')
    (htest : (s.mutex ≠ none ∧ s'.mutex = none) ∨ s.coreEvent l = some .opened) :
    ∃ i t inp pc', l = .test i inp ∧ s.tests[i]? = some t ∧
      TestMove i inp s.mutex s'.mutex t.pc pc' (s.coreEvent l) := by
  cases l with
  | create | clear | request =>
    obtain rfl := Option.some.inj h
    rcases htest with ⟨hm, hm'⟩ | he
    · exact absurd hm' hm
    · cases he
  | service k l =>
    rcases htest with ⟨hm, hm'⟩ | he
    · exact absurd ((service_tests h).2 ▸ hm') hm
    · cases he
  | test i inp =>
    cases hi : s.tests[i]? with
    | none => simp only [XrayProcess.step, hi, reduceCtorEq] at h
    | some t =>
      simp only [XrayProcess.step, hi] at h
      obtain ⟨pc', -, hmove⟩ := testStep_move h
      refine ⟨i, t, inp, pc', rfl, hi, ?_⟩
      simpa only [XrayProcess.coreEvent, hi, Option.bind_some] using hmove

end Runs

/-- **Test cores never overlap.** At every point of every run there is one core at most; when the
    mutex is released there is none; and one is built only while there is none, 300 ms after the
    last one went or later. -/
theorem testCores_apart (D : Stores) {ls : List ProcessLabel} {l : ProcessLabel}
    {s s' : XrayProcess} (h : exec (XrayProcess.step D) {} ls = some s) (hl : s.step D l = some s')
    (hclock : Clocked (ls ++ [l])) :
    ∃ w, exec (XrayProcess.watched D) ({}, {}) ls = some (s, w) ∧ w.cores.length ≤ 1 ∧
      (s.mutex ≠ none → s'.mutex = none → w.cores = []) ∧
      (s.coreEvent l = some .opened →
        w.cores = [] ∧ ∀ ended ∈ w.ended, ∀ now ∈ l.now, ended + coreCooldownMs ≤ now) := by
  obtain ⟨w, hw⟩ := exec_watched {} h
  obtain ⟨hC, hlast⟩ := along_onTime hclock (fun _ _ _ _ c hc => by cases hc) hw
  have I : CoresInv (s, w) := exec_inv coresInv_step coresInv_init hC hw
  refine ⟨w, hw, I.length_le, fun hm hm' => ?_, fun hopened => ?_⟩
  · obtain ⟨i, t, inp, pc', rfl, hi, hmove⟩ := step_test hl (.inl ⟨hm, hm'⟩)
    have hpc : s.testPc i = .unlock := (field_eq hi).trans (hmove.pc_of_release hm hm')
    exact I.no_core ((I.holder i).mp (by rw [show (s, w).1.testPc i = .unlock from hpc]; rfl))
      (by rw [hpc]; rfl)
  · obtain ⟨i, t, inp, pc', rfl, hi, hmove⟩ := step_test hl (.inr hopened)
    rw [hopened] at hmove
    have hself : s.testPc i = t.pc := field_eq hi
    cases hmove with
    | opened hlocked _ _ hno _ hr =>
      have hm : s.mutex = some i :=
        (I.holder i).mp (show (s.testPc i).locked = true by rw [hself]; exact hlocked)
      refine ⟨I.no_core hm (by rw [hself]; exact hno), fun ended he now hnow => ?_⟩
      obtain rfl := Option.some.inj hnow
      obtain ⟨c, hc, hrest⟩ := I.rested ended he
      rw [show (s, w).1.holderPc = t.pc from (holderPc_of_mutex hm).trans hself] at hrest
      exact (hr hrest (hlast inp.now rfl c hc)).1

/-- A latency test up to the release of the mutex, beside a probe that waits for it. -/
def latencyThenProbe : List ProcessLabel :=
  [ProcessLabel.request .latency, .request .probe, .test 1 {}, .test 1 {}] ++
    List.replicate 5 (ProcessLabel.test 0 {}) ++
    [ProcessLabel.test 0 { now := 300 }, .test 0 { now := 300 }, .test 1 { now := 300 }, .test 1 { now := 300 }]

theorem testCores_apart_inTurn :
    ∃ s, exec (XrayProcess.step sampleStores) {} latencyThenProbe = some s ∧
      s.tests = [⟨.latency, .done⟩, ⟨.probe, .config⟩] ∧
      ∃ w, exec (XrayProcess.watched sampleStores) ({}, {}) latencyThenProbe = some (s, w) ∧
        w.cores.length ≤ 1 ∧ (s.coreEvent (.test 1 { now := 300 }) = some .opened → w.cores = [] ∧
          ∀ ended ∈ w.ended, ∀ now ∈ (ProcessLabel.test 1 { now := 300 }).now,
            ended + coreCooldownMs ≤ now) := by
  have hrun : exec (XrayProcess.step sampleStores) {} latencyThenProbe = some _ := rfl
  obtain ⟨w, hw, hone, -, hopened⟩ :=
    testCores_apart sampleStores (l := .test 1 { now := 300 }) hrun rfl (by unfold Clocked; decide)
  exact ⟨_, hrun, rfl, w, hw, hone, hopened⟩

end SwiftVpn
