/-
  File:      SwiftVpn/WireGuard/Stalls.lean
  Subject:   THE CAP OF THE WIREGUARD WATCHDOG: how many times a tunnel over which nothing comes back
             is restarted.

  * `restarts` -- the connect calls the poll loops have made;
  * `frozen` -- the receive counter never advances; `succeeds` -- a restart is neither cancelled nor
    does it fail;
  * `alone` -- a loop starts a restart only while its tunnel is in `active`, no connect call is
    running and no other loop is between its own restart and its state check;
  * `stalls_capped` -- along such steps there are at most three restarts from a connect of the user
    to the next command (in fact one: the state check of the loop that made it finds its tunnel
    replaced and clears `active`);
  * `stalls_uncapped` -- without that there is no end to them: `connect` resets `stallRestarts`, and
    so does the first sample of the loop it starts, so that the cap of three is never reached.
-/
import SwiftVpn.WireGuard.Polling

namespace SwiftVpn

open Machine

/-! ## 1. Restarts -/

/-- The points between a restart of the watchdog and the end of the state check. -/
def PollPc.closing : PollPc → Bool
  | .bytes .. | .check | .wentDown => true
  | _ => false

def PollPc.isRestarting : PollPc → Bool
  | .restarting .. => true
  | _ => false

namespace PollSystem

/-- The connect calls the poll loops have made. -/
def restarts (s : PollSystem) : Nat := s.calls.countP (·.issuer.isSome)

/-- Every connect call has returned. -/
def allReturned (s : PollSystem) : Bool := s.calls.all (·.pc.finished)

/-- The step is the sixteenth second without a reply, and the watchdog restarts the tunnel. -/
def restartsAt (s : PollSystem) (lp : PollLoop) : Bool :=
  match lp.pc with
  | .watch rx tx => lp.baseRx ≥ 0 ∧ rx = lp.baseRx ∧ tx > lp.baseTx ∧ lp.silentSeconds + 1 = 8 ∧
      s.eng.lastUuid ≠ none ∧ s.eng.stallRestarts < 3
  | _ => false

/-- A restart is started only while the loop's tunnel is in `active`, no connect call is running and
    no other loop is between its restart and its state check. -/
def alone (s : PollSystem) : PollLabel → Bool
  | .loop k _ => s.loops[k]?.all fun lp => !s.restartsAt lp ||
      (s.eng.active = some lp.tunnel && s.allReturned &&
        (s.loops.eraseIdx k).all fun lp' => !lp'.pc.isRestarting && !lp'.pc.closing)
  | _ => true

/-- The receive counter has not advanced since the last sample. -/
def frozen (s : PollSystem) : PollLabel → Bool
  | .loop k inp => s.loops[k]?.all fun lp => inp.stats.all fun st => lp.baseRx < 0 || st.1 ≤ lp.baseRx
  | _ => true

/-- A restart is not cancelled, its config is readable and its UP succeeds. -/
def succeeds (D : Stores) (s : PollSystem) : PollLabel → Bool
  | .call i inp => s.calls[i]?.all fun c =>
      c.issuer = none || (inp.fault = none && (D.wgConfig c.uuid).isSome)
  | .interrupt i => s.calls[i]?.all (·.issuer = none)
  | _ => true

end PollSystem

/-! ## 2. One restart and its end -/

/-- The points after the UP. -/
def WgPc.upped : WgPc → Bool
  | .failed _ | .publish | .unlock _ | .done _ => true
  | _ => false

/-- The restart of the loop bound to `t` is the call `i`, which is `c`: it is the only one running,
    and after its UP the backend has another tunnel. -/
structure Calling (s : PollSystem) (t : WgTunnel) (i : Nat) (c : WgTask) : Prop where
  call : s.calls[i]? = some c
  thrown : c.thrown = false
  issuer : c.issuer ≠ none
  others : ∀ j c', s.calls[j]? = some c' → j ≠ i → c'.pc.finished = true
  made : t.id < s.eng.nextTunnel
  coming : ∀ t', c.pc = .report t' ∨ c.pc = .up t' → t' ≠ t
  gone : c.pc.upped = true → s.eng.backend.currentTunnel ≠ some t

/-- What has become of the one restart: its call is running, its loop is on the way to the state
    check, or the check has cleared `active`. -/
inductive Chained (s : PollSystem) : Prop where
  | calling (k i : Nat) (rx tx : Int) (lp : PollLoop) (c : WgTask) (hk : s.loops[k]? = some lp)
      (hpc : lp.pc = .restarting i rx tx) (h : Calling s lp.tunnel i c)
  | closing (k : Nat) (lp : PollLoop) (hk : s.loops[k]? = some lp) (hpc : lp.pc.closing = true)
      (hret : ∀ c ∈ s.calls, c.pc.finished = true)
      (hgone : s.eng.backend.currentTunnel ≠ some lp.tunnel)
  | ended (hret : ∀ c ∈ s.calls, c.pc.finished = true) (ha : s.eng.active = none)

/-- The tunnel in `active` has been made. -/
def ActiveMade (s : PollSystem) : Prop := ∀ t, s.eng.active = some t → t.id < s.eng.nextTunnel

/-- At most one restart since there were `n`. -/
def Chain (n : Nat) (s : PollSystem) : Prop := s.restarts = n ∨ s.restarts = n + 1 ∧ Chained s

/-- A step of the driver keeps every loop, its `cancelled` flag apart. -/
theorem rebind_get {loops : List PollLoop} (old new : Option WgTunnel) {k : Nat} {lp : PollLoop}
    (h : loops[k]? = some lp) :
    ∃ b, (rebind loops old new)[k]? = some { lp with cancelled := b } := by
  unfold rebind
  split
  · exact ⟨lp.cancelled, h⟩
  · have hlt : k < loops.length := (List.getElem?_eq_some_iff.mp h).1
    refine ⟨true, ?_⟩
    rw [List.getElem?_append_left (by rw [List.length_map]; exact hlt), List.getElem?_map, h]
    rfl

section Steps

variable {D : Stores} {s s' : PollSystem}

/-- A call that has returned makes no step. -/
theorem ConnectMove.running {w w' : WireGuardEngine} {i : Nat} {uuid : Uuid} {inp : WgInput}
    {pc pc' : WgPc} {as : List Action} (h : ConnectMove D w i uuid inp pc w' pc' as) :
    pc.finished = false := by
  cases h <;> rfl

/-- A step of the restart itself, as long as it succeeds. -/
theorem Calling.move {t : WgTunnel} {i : Nat} {c : WgTask} {w : WireGuardEngine} {pc : WgPc}
    {inp : WgInput} {as : List Action} (h : Calling s t i c)
    (hm : ConnectMove D s.eng i c.uuid inp c.pc w pc as) (hf : inp.fault = none)
    (hc : (D.wgConfig c.uuid).isSome) :
    t.id < w.nextTunnel ∧ (∀ t', pc = .report t' ∨ pc = .up t' → t' ≠ t) ∧
      (pc.upped = true → w.backend.currentTunnel ≠ some t) := by
  have hup : GoBackend.upFault (D.wgConfig c.uuid) inp.fault = none := by
    obtain ⟨info, hi⟩ := Option.isSome_iff_exists.mp hc
    simp only [GoBackend.upFault, hi, hf, reduceCtorEq, if_false]
  obtain ⟨-, -, -, -, hmade, hcoming, hgone⟩ := h
  generalize c.pc = pc₀ at hm hcoming hgone
  cases hm with
  | create =>
    refine ⟨Nat.lt_succ_of_lt hmade, fun t' ht' he => ?_, fun h => by cases h⟩
    rcases ht' with ht' | ht'
    · cases ht'
      rw [← he] at hmade
      exact absurd hmade (Nat.lt_irrefl _)
    · cases ht'
  | report t₁ =>
    refine ⟨hmade, fun t' ht' => ?_, fun h => by cases h⟩
    rcases ht' with ht' | ht'
    · cases ht'
    · cases ht'
      exact hcoming t₁ (.inl rfl)
  | upFree t₁ | upSwap t₁ =>
    refine ⟨hmade, fun t' ht' => (by rcases ht' with ht' | ht' <;> cases ht'), fun _ he => ?_⟩
    exact hcoming t₁ (.inr rfl) (Option.some.inj he)
  | upSame t₁ hb =>
    refine ⟨hmade, fun t' ht' => (by rcases ht' with ht' | ht' <;> cases ht'), fun _ he => ?_⟩
    rw [hb] at he
    exact hcoming t₁ (.inr rfl) (Option.some.inj he)
  | upRefused _ _ _ hf' | upLost _ _ _ _ _ hf' | upBack _ _ _ _ hf' =>
    rw [hup] at hf'
    cases hf'
  | unread lu sr hn =>
    rw [hn] at hc
    cases hc
  | failed | publish | unlock =>
    exact ⟨hmade, fun t' ht' => (by rcases ht' with ht' | ht' <;> cases ht'), fun _ => hgone rfl⟩
  | _ => exact ⟨hmade, fun t' ht' => (by rcases ht' with ht' | ht' <;> cases ht'), fun h => by cases h⟩

/-- What a step that makes no call does: the calls stay, no tunnel comes into the slot or into
    `active`, and a loop between its restart and its state check stays where it is. -/
structure Quiet (s s' : PollSystem) : Prop where
  calls : s'.calls = s.calls
  slot : ∀ t, s'.eng.backend.currentTunnel = some t → s.eng.backend.currentTunnel = some t
  active : ∀ t, s'.eng.active = some t → s.eng.active = some t
  nextTunnel : s'.eng.nextTunnel = s.eng.nextTunnel
  loops : ∀ (k : Nat) (lp : PollLoop), s.loops[k]? = some lp →
    lp.pc.isRestarting = true ∨ lp.pc.closing = true →
    ∃ lp' : PollLoop, s'.loops[k]? = some lp' ∧ lp'.tunnel = lp.tunnel ∧ lp'.pc = lp.pc

theorem Quiet.chained (h : Quiet s s') (C : Chained s) : Chained s' := by
  cases C with
  | calling k i rx tx lp c hk hpc C =>
    obtain ⟨lp', hk', ht, hpc'⟩ := h.loops k lp hk (.inl (by rw [hpc]; rfl))
    refine .calling k i rx tx lp' c hk' (hpc'.trans hpc) ⟨?_, C.thrown, C.issuer, ?_, ?_, ?_, ?_⟩
    · rw [h.calls]
      exact C.call
    · rw [h.calls]
      exact C.others
    · rw [ht, h.nextTunnel]
      exact C.made
    · rw [ht]
      exact C.coming
    · rw [ht]
      exact fun hup hs => C.gone hup (h.slot _ hs)
  | closing k lp hk hpc hret hgone =>
    obtain ⟨lp', hk', ht, hpc'⟩ := h.loops k lp hk (.inr hpc)
    refine .closing k lp' hk' (hpc' ▸ hpc) (h.calls ▸ hret) ?_
    rw [ht]
    exact fun hs => hgone (h.slot _ hs)
  | ended hret ha =>
    refine .ended (h.calls ▸ hret) ?_
    cases ha' : s'.eng.active with
    | none => rfl
    | some t =>
      have hs := h.active t ha'
      rw [ha] at hs
      cases hs

theorem Quiet.chain (h : Quiet s s') {n : Nat} (C : Chain n s) : Chain n s' := by
  have hr : s'.restarts = s.restarts := by simp only [PollSystem.restarts, h.calls]
  unfold Chain
  rw [hr]
  exact C.imp_right (.imp_right h.chained)

theorem Quiet.activeMade (h : Quiet s s') (A : ActiveMade s) : ActiveMade s' := by
  intro t ht
  rw [h.nextTunnel]
  exact A t (h.active t ht)

/-- A step that only moves what the chain does not see. -/
theorem quiet_of_eq (hc : s'.calls = s.calls) (hl : s'.loops = s.loops)
    (hb : s'.eng.backend = s.eng.backend) (ha : s'.eng.active = s.eng.active)
    (hn : s'.eng.nextTunnel = s.eng.nextTunnel) : Quiet s s' :=
  ⟨hc, fun _ ht => hb ▸ ht, fun _ ht => ha ▸ ht, hn, fun _ lp hk _ => ⟨lp, hl ▸ hk, rfl, rfl⟩⟩

/-- A loop that was cancelled in its delay. -/
theorem quiet_interruptLoop {k : Nat} {lp : PollLoop} {wake : Int} (hk : s.loops[k]? = some lp)
    (hpc : lp.pc = .delay wake) : Quiet s (s.goto k { lp with pc := .done }) := by
  refine ⟨rfl, fun _ h => h, fun _ h => h, rfl, fun k₀ lp₀ hk₀ hopen => ⟨lp₀, ?_, rfl, rfl⟩⟩
  by_cases hkk : k₀ = k
  · subst hkk
    obtain rfl := Option.some.inj (hk₀.symm.trans hk)
    rw [hpc] at hopen
    rcases hopen with hopen | hopen <;> cases hopen
  · exact (List.getElem?_set_ne (Ne.symm hkk)).trans hk₀

/-- A step of the driver that brings nothing up is quiet. -/
theorem quiet_drive {w : WireGuardEngine} (b : List Nat)
    (hs : ∀ t, w.backend.currentTunnel = some t → s.eng.backend.currentTunnel = some t)
    (ha : w.active = s.eng.active) (hn : w.nextTunnel = s.eng.nextTunnel) :
    Quiet s { s.drive w with blocked := b } := by
  refine ⟨rfl, hs, fun t ht => ha ▸ ht, hn, fun k lp hk _ => ?_⟩
  obtain ⟨c, hc⟩ := rebind_get s.eng.pollJob w.pollJob hk
  exact ⟨_, hc, rfl, rfl⟩

theorem JobMove.quiet {w : WireGuardEngine} {j : Nat} {inp : WgInput} {as : List Action}
    (h : JobMove s.eng j inp w as) : Quiet s (s.drive w) := by
  cases h with
  | lock t hj hm => exact quiet_drive s.blocked (fun _ h => h) rfl rfl
  | down t hj hb => exact quiet_drive s.blocked nofun rfl rfl
  | downOther t hj hb => exact quiet_drive s.blocked (fun _ h => h) rfl rfl

theorem quiet_onDestroy (now : Int) : Quiet s (s.drive (s.eng.onDestroy now).1) := by
  rcases onDestroy_cases s.eng now with ⟨-, h⟩ | ⟨-, h⟩
  · rw [h]
    exact quiet_drive s.blocked (fun _ h => h) rfl rfl
  · rw [h]
    exact quiet_drive s.blocked nofun rfl rfl

/-- What every step of a poll loop leaves alone. -/
theorem LoopMove.frame {k : Nat} {lp : PollLoop} {inp : PollInput} {as : List Action}
    (h : LoopMove s k lp inp s' as) :
    (∃ lp', s'.loops = s.loops.set k lp') ∧ s'.eng.backend = s.eng.backend ∧
      s'.eng.nextTunnel = s.eng.nextTunnel ∧
      ∀ t, s'.eng.active = some t → s.eng.active = some t := by
  cases h with
  | wentDown => exact ⟨⟨_, rfl⟩, rfl, rfl, nofun⟩
  | _ => exact ⟨⟨_, rfl⟩, rfl, rfl, fun _ h => h⟩

/-- A poll loop makes no call, or it restarts. -/
theorem LoopMove.calls {k : Nat} {lp : PollLoop} {inp : PollInput} {as : List Action}
    (h : LoopMove s k lp inp s' as) :
    s'.calls = s.calls ∨
    (s.restartsAt lp = true ∧ ∃ lp' id rx tx, s'.loops = s.loops.set k lp' ∧
      lp'.tunnel = lp.tunnel ∧ lp'.pc = .restarting s.calls.length rx tx ∧
      s'.calls = s.calls ++ [{ uuid := id, pc := .lock, issuer := some k }]) := by
  cases h with
  | restart rx tx id as hpc hs h8 hid hr =>
    refine .inr ⟨?_, _, id, rx, tx, rfl, rfl, rfl, rfl⟩
    simp only [PollSystem.restartsAt, hpc, decide_eq_true_eq]
    exact ⟨hs.1, hs.2.1, hs.2.2, h8, by rw [hid]; nofun, hr⟩
  | _ => exact .inl rfl

/-- The loop of the restart goes on to its state check, which finds its tunnel replaced. -/
theorem LoopMove.own {k : Nat} {lp : PollLoop} {inp : PollInput} {as : List Action}
    (h : LoopMove s k lp inp s' as) (hk : s.loops[k]? = some lp)
    (hret : ∀ c ∈ s.calls, c.pc.finished = true)
    (hgone : s.eng.backend.currentTunnel ≠ some lp.tunnel)
    (hpc : lp.pc.isRestarting = true ∨ lp.pc.closing = true)
    (hthrown : ∀ i rx tx c, lp.pc = .restarting i rx tx → s.calls[i]? = some c →
      c.thrown = false) : Chained s' := by
  have hlt : k < s.loops.length := (List.getElem?_eq_some_iff.mp hk).1
  have hset : ∀ lp' : PollLoop, (s.loops.set k lp')[k]? = some lp' := fun lp' =>
    List.getElem?_set_self hlt
  cases h with
  | restarted i rx tx c err as hp hi hd ht => exact .closing k _ (hset _) rfl hret hgone
  | bytes rx tx as hp => exact .closing k _ (hset _) rfl hret hgone
  | down hp hb => exact .closing k _ (hset _) rfl hret hgone
  | wentDown as hp => exact .ended hret rfl
  | unwound i rx tx c err hp hi hd ht =>
    rw [hthrown i rx tx c hp hi] at ht
    cases ht
  | up hp hb =>
    unfold GoBackend.getState at hb
    rw [if_neg hgone] at hb
    cases hb
  | enter hp | leave hp | noSample hp | sample _ _ hp | silent _ _ hp | alive _ _ hp
  | restart _ _ _ _ hp | giveUp _ _ _ hp | wake _ hp =>
    rw [hp] at hpc
    rcases hpc with hpc | hpc <;> cases hpc

/-- A loop that waits for its restart moves when the call has returned. -/
theorem LoopMove.returned {k : Nat} {lp : PollLoop} {inp : PollInput} {as : List Action}
    (h : LoopMove s k lp inp s' as) {i : Nat} {rx tx : Int} (hpc : lp.pc = .restarting i rx tx) :
    ∃ c err, s.calls[i]? = some c ∧ c.pc = .done err := by
  cases h with
  | unwound j rx' tx' c err hp hi hd | restarted j rx' tx' c err as hp hi hd =>
    rw [hp] at hpc
    cases hpc
    exact ⟨c, err, hi, hd⟩
  | enter hp | leave hp | noSample hp | sample _ _ hp | silent _ _ hp | alive _ _ hp
  | restart _ _ _ _ hp | giveUp _ _ _ hp | bytes _ _ _ hp | up hp | down hp | wentDown _ hp
  | wake _ hp =>
    rw [hp] at hpc
    cases hpc

/-- Once its call has returned, all have. -/
theorem Calling.allReturned {t : WgTunnel} {i : Nat} {c : WgTask} (h : Calling s t i c)
    (hd : c.pc.finished = true) : ∀ c ∈ s.calls, c.pc.finished = true := by
  intro c' hc'
  obtain ⟨j, hj⟩ := List.getElem?_of_mem hc'
  by_cases hji : j = i
  · subst hji
    rw [h.call] at hj
    exact Option.some.inj hj ▸ hd
  · exact h.others j c' hj hji

/-- A step of a poll loop that is no restart keeps the chain. -/
theorem LoopMove.chained {k : Nat} {lp : PollLoop} {inp : PollInput} {as : List Action}
    (h : LoopMove s k lp inp s' as) (hk : s.loops[k]? = some lp) (hcalls : s'.calls = s.calls)
    (C : Chained s) : Chained s' := by
  obtain ⟨⟨lp₁, hloops⟩, hback, hnext, hact⟩ := h.frame
  have hother : ∀ (k₀ : Nat) (lp₀ : PollLoop), s.loops[k₀]? = some lp₀ → k₀ ≠ k →
      s'.loops[k₀]? = some lp₀ := by
    intro k₀ lp₀ hk₀ hne
    rw [hloops, List.getElem?_set_ne (Ne.symm hne)]
    exact hk₀
  cases C with
  | calling k₀ i rx tx lp₀ c hk₀ hpc C =>
    by_cases hkk : k₀ = k
    · subst hkk
      obtain rfl := Option.some.inj (hk₀.symm.trans hk)
      obtain ⟨c', err, hi, hd⟩ := h.returned hpc
      obtain rfl := Option.some.inj (C.call.symm.trans hi)
      have hgone := C.gone (by rw [hd]; rfl)
      refine h.own hk (C.allReturned (by rw [hd]; rfl)) hgone (.inl (by rw [hpc]; rfl)) ?_
      intro j rx' tx' c' hp hj
      rw [hpc] at hp
      cases hp
      rw [C.call] at hj
      exact Option.some.inj hj ▸ C.thrown
    · refine .calling k₀ i rx tx lp₀ c (hother k₀ lp₀ hk₀ hkk) hpc
        ⟨?_, C.thrown, C.issuer, ?_, ?_, C.coming, ?_⟩
      · rw [hcalls]
        exact C.call
      · rw [hcalls]
        exact C.others
      · rw [hnext]
        exact C.made
      · rw [hback]
        exact C.gone
  | closing k₀ lp₀ hk₀ hpc hret hgone =>
    by_cases hkk : k₀ = k
    · subst hkk
      obtain rfl := Option.some.inj (hk₀.symm.trans hk)
      refine h.own hk hret hgone (.inr hpc) ?_
      intro j rx' tx' c' hp
      rw [hp] at hpc
      cases hpc
    · refine .closing k₀ lp₀ (hother k₀ lp₀ hk₀ hkk) hpc (hcalls ▸ hret) ?_
      rw [hback]
      exact hgone
  | ended hret ha =>
    refine .ended (hcalls ▸ hret) ?_
    cases ha' : s'.eng.active with
    | none => rfl
    | some t =>
      have hs := hact t ha'
      rw [ha] at hs
      cases hs

/-- While a chain is open, no loop is alone in starting a restart. -/
theorem Chained.not_alone (C : Chained s) {k : Nat} {lp : PollLoop} {inp : PollInput}
    (hk : s.loops[k]? = some lp) (hr : s.restartsAt lp = true)
    (ha : s.alone (.loop k inp) = true) : False := by
  simp only [PollSystem.alone, hk, Option.all_some, hr, Bool.not_true, Bool.false_or,
    Bool.and_eq_true, decide_eq_true_eq, List.all_eq_true, Bool.not_eq_true'] at ha
  obtain ⟨⟨hact, -⟩, hothers⟩ := ha
  -- the loop that starts a restart is at its watchdog
  have hpc : lp.pc.isRestarting = false ∧ lp.pc.closing = false := by
    unfold PollSystem.restartsAt at hr
    cases hp : lp.pc with
    | watch rx tx => exact ⟨rfl, rfl⟩
    | _ => rw [hp] at hr; cases hr
  have hnone : ∀ (k₀ : Nat) (lp₀ : PollLoop), s.loops[k₀]? = some lp₀ →
      lp₀.pc.isRestarting = false ∧ lp₀.pc.closing = false := by
    intro k₀ lp₀ hk₀
    by_cases hkk : k₀ = k
    · subst hkk
      obtain rfl := Option.some.inj (hk₀.symm.trans hk)
      exact hpc
    · exact hothers lp₀ (List.mem_eraseIdx_iff_getElem?.mpr ⟨k₀, hkk, hk₀⟩)
  cases C with
  | calling k₀ i rx tx lp₀ c hk₀ hp C =>
    have hopen := (hnone k₀ lp₀ hk₀).1
    rw [hp] at hopen
    cases hopen
  | closing k₀ lp₀ hk₀ hp hret hgone =>
    rw [(hnone k₀ lp₀ hk₀).2] at hp
    cases hp
  | ended hret hclear =>
    rw [hclear] at hact
    cases hact

/-- A step of a poll loop keeps the chain; a loop that is alone starts one. -/
theorem chain_loop {n k : Nat} {lp : PollLoop} {inp : PollInput} {as : List Action}
    (C : Chain n s) (A : ActiveMade s) (hk : s.loops[k]? = some lp)
    (h : LoopMove s k lp inp s' as) (ha : s.alone (.loop k inp) = true) : Chain n s' := by
  obtain ⟨-, hback, hnext, hact⟩ := h.frame
  unfold Chain
  rcases h.calls with hcalls | ⟨hr, lp', id, rx, tx, hloops, ht, hpc', hcalls⟩
  · have hn : s'.restarts = s.restarts := by simp only [PollSystem.restarts, hcalls]
    rw [hn]
    exact C.imp_right (.imp_right (h.chained hk hcalls))
  · have hn : s'.restarts = s.restarts + 1 := by
      simp only [PollSystem.restarts, hcalls, List.countP_append]
      rfl
    rcases C with hnow | ⟨-, C⟩
    · rw [hn, hnow]
      simp only [PollSystem.alone, hk, Option.all_some, hr, Bool.not_true, Bool.false_or,
        Bool.and_eq_true, decide_eq_true_eq, PollSystem.allReturned, List.all_eq_true] at ha
      have hlt : k < s.loops.length := (List.getElem?_eq_some_iff.mp hk).1
      let call : WgTask := { uuid := id, pc := .lock, issuer := some k }
      refine .inr ⟨rfl, .calling k s.calls.length rx tx lp' call ?_ hpc'
        ⟨?_, rfl, nofun, fun j c hj hne => ?_, ?_, nofun, nofun⟩⟩
      · rw [hloops]
        exact List.getElem?_set_self hlt
      · rw [hcalls]
        exact List.getElem?_concat_length
      · rw [hcalls] at hj
        rcases get_concat hj with hj | ⟨hj, -⟩
        · exact ha.1.2 c (List.mem_of_getElem? hj)
        · exact absurd hj hne
      · rw [ht, hnext]
        exact A _ ha.1.1
    · exact (C.not_alone hk hr ha).elim

/-- What only a running call can do, it does as the call of the restart. -/
theorem Chained.running {i : Nat} {c : WgTask} (C : Chained s) (hi : s.calls[i]? = some c)
    (hrun : c.pc.finished = false) :
    ∃ (k : Nat) (rx tx : Int) (lp : PollLoop), s.loops[k]? = some lp ∧
      lp.pc = .restarting i rx tx ∧ Calling s lp.tunnel i c := by
  cases C with
  | closing k lp hk hp hret hgone | ended hret ha =>
    rw [hret c (List.mem_of_getElem? hi)] at hrun
    cases hrun
  | calling k i₀ rx tx lp c₀ hk hp C =>
    by_cases hii : i = i₀
    · subst hii
      obtain rfl := Option.some.inj (C.call.symm.trans hi)
      exact ⟨k, rx, tx, lp, hk, hp, C⟩
    · rw [C.others i c hi hii] at hrun
      cases hrun

/-- A step of a connect call keeps the chain. -/
theorem chain_call {n i : Nat} {inp : WgInput} {c : WgTask} {w : WireGuardEngine} {pc : WgPc}
    {as : List Action} (C : Chain n s) (hi : s.calls[i]? = some c)
    (hm : ConnectMove D s.eng i c.uuid inp c.pc w pc as)
    (hs : s.succeeds D (.call i inp) = true) :
    Chain n { s.drive w with calls := s.calls.set i { c with pc := pc } } := by
  have hlt : i < s.calls.length := (List.getElem?_eq_some_iff.mp hi).1
  have hn : PollSystem.restarts { s.drive w with calls := s.calls.set i { c with pc := pc } } =
      s.restarts := countP_set_eq hi rfl
  unfold Chain
  rw [hn]
  refine C.imp_right (.imp_right fun C => ?_)
  obtain ⟨k, rx, tx, lp, hk, hp, C⟩ := C.running hi hm.running
  simp only [PollSystem.succeeds, hi, Option.all_some, Bool.or_eq_true, Bool.and_eq_true,
    decide_eq_true_eq] at hs
  obtain ⟨hf, hconf⟩ := hs.resolve_left C.issuer
  obtain ⟨hmade, hcoming, hgone⟩ := C.move hm hf hconf
  obtain ⟨b, hb⟩ := rebind_get s.eng.pollJob w.pollJob hk
  refine .calling k i rx tx _ { c with pc := pc } hb hp
    ⟨List.getElem?_set_self hlt, C.thrown, C.issuer, ?_, hmade, hcoming, hgone⟩
  intro j c' hj hne
  have hj : (s.calls.set i { c with pc := pc })[j]? = some c' := hj
  rw [List.getElem?_set_ne (Ne.symm hne)] at hj
  exact C.others j c' hj hne

/-- A call that is cancelled is none of a restart. -/
theorem chain_interrupt {n i : Nat} {c c' : WgTask} (C : Chain n s)
    (hi : s.calls[i]? = some c) (hrun : c.pc.finished = false) (hiss : c.issuer = none)
    (hiss' : c'.issuer = none) : Chain n { s with calls := s.calls.set i c' } := by
  have hn : PollSystem.restarts { s with calls := s.calls.set i c' } = s.restarts :=
    countP_set_eq hi (by rw [hiss, hiss'])
  unfold Chain
  rw [hn]
  refine C.imp_right (.imp_right fun C => ?_)
  obtain ⟨k, rx, tx, lp, hk, hp, C⟩ := C.running hi hrun
  exact absurd hiss C.issuer

/-- Only `create` brings a tunnel into `active`, and it makes it. -/
theorem activeMade_step (s : PollSystem) (l : PollLabel) (s' : PollSystem) (A : ActiveMade s)
    (h : silent (PollSystem.step D) s l = some s') : ActiveMade s' := by
  obtain ⟨as, hs⟩ := silent_some h
  cases step_pollTurn hs with
  | connect | returned | interruptLock | interruptDelay | interruptJob | interruptLoop => exact A
  | disconnectAsync | disconnectBlocking =>
    intro t ht
    have hnone := WireGuardEngine.launchDown_active s.eng.stopPolling
    rw [show s.eng.stopPolling.launchDown.active = some t from ht] at hnone
    cases hnone
  | call i inp c w pc _ hi hm =>
    show ∀ t, w.active = some t → t.id < w.nextTunnel
    generalize c.pc = pc₀ at hm
    cases hm with
    | create =>
      intro t ht
      obtain rfl := Option.some.inj ht
      exact Nat.lt_succ_self _
    | take | failed => exact nofun
    | _ => exact A
  | job j inp w _ hm => exact hm.quiet.activeMade A
  | loop k inp lp _ _ hk hm =>
    obtain ⟨-, -, hnext, hact⟩ := hm.frame
    intro t ht
    rw [hnext]
    exact A t (hact t ht)
  | onDestroy now => exact (quiet_onDestroy now).activeMade A

/-- Every step between two commands keeps the chain. -/
theorem chain_step {n : Nat} (s : PollSystem) (l : PollLabel) (s' : PollSystem)
    (I : ActiveMade s ∧ Chain n s)
    (hC : (s.succeeds D l = true ∧ s.alone l = true) ∧ l.isCommand = false)
    (h : silent (PollSystem.step D) s l = some s') : ActiveMade s' ∧ Chain n s' := by
  refine ⟨activeMade_step s l s' I.1 h, ?_⟩
  obtain ⟨as, hs⟩ := silent_some h
  obtain ⟨⟨hsucc, halone⟩, hcmd⟩ := hC
  cases step_pollTurn hs with
  | connect | disconnectAsync | disconnectBlocking => cases hcmd
  | returned | interruptJob =>
    refine Quiet.chain (s := s) ?_ I.2
    exact quiet_of_eq rfl rfl rfl rfl rfl
  | call i inp c w pc _ hi hm => exact chain_call I.2 hi hm hsucc
  | interruptLock i c hi hpc | interruptDelay i c _ hi hpc =>
    simp only [PollSystem.succeeds, hi, Option.all_some, decide_eq_true_eq] at hsucc
    exact chain_interrupt I.2 hi (by rw [hpc]; rfl) hsucc hsucc
  | job j inp w _ hm => exact hm.quiet.chain I.2
  | loop k inp lp _ _ hk hm => exact chain_loop I.2 I.1 hk hm halone
  | interruptLoop k lp wake hk hpc => exact (quiet_interruptLoop hk hpc).chain I.2
  | onDestroy now => exact (quiet_onDestroy now).chain I.2

end Steps

/-! ## 3. The cap -/

/-- **The cap of the watchdog**: from a connect of the user to the next command, with restarts that
    succeed and loops that are alone when they start one, there are at most three restarts. -/
theorem stalls_capped (D : Stores) {ls₀ ls : List PollLabel} {s₀ s : PollSystem} (uuid : Uuid)
    (h₀ : exec (silent (PollSystem.step D)) {} ls₀ = some s₀)
    (h : exec (silent (PollSystem.step D)) s₀ (.connect uuid :: ls) = some s)
    (hlast : ∀ l ∈ ls, l.isCommand = false)
    (hsucc : Along (silent (PollSystem.step D)) (fun s l => s.succeeds D l = true) s₀
      (.connect uuid :: ls))
    (hC : Along (silent (PollSystem.step D)) (fun s l => s.alone l = true) s₀
      (.connect uuid :: ls)) :
    s.restarts ≤ s₀.restarts + 3 := by
  have A : ActiveMade s₀ := exec_inv' activeMade_step (fun t ht => by cases ht) h₀
  obtain ⟨s₁, hstart, hrun⟩ := exec_cons.mp h
  have hn : Chain s₀.restarts s₁ := by
    obtain ⟨as, hs⟩ := silent_some hstart
    obtain rfl := (Prod.mk.inj (Option.some.inj hs)).1
    refine .inl ?_
    simp [PollSystem.restarts]
  have hC' := along_and (along_and ((along_cons hstart).mp hsucc).2 ((along_cons hstart).mp hC).2)
    (along_of_forall hlast)
  have I := exec_inv chain_step ⟨activeMade_step s₀ _ s₁ A hstart, hn⟩ hC' hrun
  rcases I.2 with h | ⟨h, -⟩ <;> omega

/-- Steps of the loop `k` at the `n`-th poll: nothing has come back, apps keep sending. -/
def pollSteps (k m n : Nat) : List PollLabel :=
  List.replicate m (.loop k { now := 2000 * n, stats := some (0, n) })

/-- Nine polls of the loop `k` from the `n`-th on: the last one starts a restart. -/
def stall (k n : Nat) : List PollLabel :=
  pollSteps k 5 n ++ (List.range 7).flatMap (fun j => pollSteps k 6 (n + 1 + j)) ++
    pollSteps k 4 (n + 8)

/-- The connect call `i` of a restart at the `n`-th poll runs to its end. -/
def reconnect (i n : Nat) : List PollLabel :=
  List.replicate 5 (PollLabel.call i { now := 2000 * n }) ++
    List.replicate 6 (PollLabel.call i { now := 2000 * n + 400 })

/-- A tunnel comes up, stalls and is restarted; then the loop makes its state check. -/
def stallOnce : List PollLabel :=
  List.replicate 9 (.call 0 { now := 1000 }) ++ stall 0 1 ++ reconnect 1 9 ++ pollSteps 0 4 10

set_option maxRecDepth 4000 in
theorem stalls_capped_once :
    ∃ s, exec (silent (PollSystem.step sampleStores)) {} (.connect "wg1" :: stallOnce) = some s ∧
      s.restarts = 1 ∧ s.restarts ≤ ({} : PollSystem).restarts + 3 := by
  have hrun : ∃ s, exec (silent (PollSystem.step sampleStores)) {} (.connect "wg1" :: stallOnce) =
      some s ∧ s.restarts = 1 := ⟨_, rfl, rfl⟩
  obtain ⟨s, hs, hn⟩ := hrun
  have h₀ : exec (silent (PollSystem.step sampleStores)) {} [] = some {} := rfl
  exact ⟨s, hs, hn, stalls_capped sampleStores "wg1" h₀ hs (by decide) (by decide) (by decide)⟩

/-- Four stalls in a row: each loop stands after its restart while the next one polls. -/
def stallOnAndOn : List PollLabel :=
  List.replicate 9 (.call 0 { now := 1000 }) ++ stall 0 1 ++ reconnect 1 9 ++
    stall 1 10 ++ reconnect 2 18 ++ stall 2 19 ++ reconnect 3 27 ++ stall 3 28 ++ reconnect 4 36

set_option maxRecDepth 8000 in
/-- Every restart resets `stallRestarts`, so the cap is not reached: **four restarts of a tunnel over
    which nothing has ever come back**, and the watchdog is ready for the next one. -/
theorem stalls_uncapped :
    ∃ s, exec (silent (PollSystem.step sampleStores)) {} (.connect "wg1" :: stallOnAndOn) =
        some s ∧
      (∀ l ∈ stallOnAndOn, l.isCommand = false) ∧
      Along (silent (PollSystem.step sampleStores)) (fun s l => s.frozen l = true) {}
        (.connect "wg1" :: stallOnAndOn) ∧
      Along (silent (PollSystem.step sampleStores)) (fun s l => s.succeeds sampleStores l = true) {}
        (.connect "wg1" :: stallOnAndOn) ∧
      s.restarts = 4 ∧ s.eng.stallRestarts = 0 := by
  refine ⟨_, rfl, ?_⟩
  decide

end SwiftVpn
