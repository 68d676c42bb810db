/-
  File:      SwiftVpn/WireGuard/Restarts.lean
  Subject:   THE END OF A RESTART: what becomes of a tunnel that the watchdog restarts.

  `connect` is called inside the poll loop, and its own teardown (`stopPolling`) cancels that loop's
  job: from there on the call is cancelled too.

  * `delayThrows` -- a cancelled call does not come out of a `delay`;
  * `settlesEarly` -- the settle check finds less than 400 ms since the last DOWN, so that it delays;
  * `Doomed` -- where a call of a poll loop can stand: never behind its delay;
  * `restart_never_works` -- without a command of the user no restart brings a tunnel up again;
  * `restart_leaves_down` -- one restart: its call throws, the tunnel is down and nothing polls.
-/
import SwiftVpn.WireGuard.Stalls

namespace SwiftVpn

open Machine

/-! ## 1. Cancelled calls -/

namespace PollSystem

/-- The poll loop that made the call has been cancelled, and the call with it. -/
def callCancelled (s : PollSystem) (c : WgTask) : Bool :=
  c.issuer.any fun k => s.loops[k]?.any (·.cancelled)

/-- `delay` in a cancelled coroutine throws: a cancelled call that stands at its delay makes no step of
    its own, it is interrupted. -/
def delayThrows (s : PollSystem) : PollLabel → Bool
  | .call i _ => s.calls[i]?.all fun c =>
      match c.pc with
      | .delay _ => !s.callCancelled c
      | _ => true
  | _ => true

/-- The settle check comes less than `DOWN_SETTLE_MS` after `lastDownAt` was recorded. -/
def settlesEarly (s : PollSystem) : PollLabel → Bool
  | .call i inp => s.calls[i]?.all fun c =>
      c.pc ≠ .settle || (s.eng.lastDownAt > 0 && inp.now - s.eng.lastDownAt < downSettleMs)
  | _ => true

/-- Every poll loop has been cancelled. -/
def AllCancelled (s : PollSystem) : Prop := ∀ lp ∈ s.loops, lp.cancelled = true

/-- Only the loop in `pollJob` has not been cancelled. -/
def LoopsBound (s : PollSystem) : Prop := s.eng.pollJob = none → s.AllCancelled

/-- What a restart is for: the tunnel in `active` is up, and a loop that was launched since polls it. -/
def RestartWorked (s₀ s : PollSystem) : Prop :=
  ∃ (t : WgTunnel) (k : Nat) (lp : PollLoop), s.eng.active = some t ∧
    s.eng.backend.getState t = .up ∧ s₀.loops.length ≤ k ∧ s.loops[k]? = some lp ∧ lp.tunnel = t ∧
    lp.cancelled = false ∧ lp.pc ≠ .done

/-- A call made since `s₀` that never comes behind its delay. -/
def Doomed (D : Stores) (s : PollSystem) (c : WgTask) : Prop :=
  match c.pc with
  | .lock | .read | .preTeardown => True
  | .down _ | .settle | .delay _ => s.AllCancelled
  | .unlock _ | .done _ => c.thrown = true ∨ D.wgConfig c.uuid = none
  | _ => False

/-- Since `s₀` nobody but poll loops has called `connect`, no such call has come behind its delay, and no
    loop has been launched. -/
structure Hopeless (D : Stores) (s₀ s : PollSystem) : Prop where
  bound : s.LoopsBound
  loops : s.loops.length = s₀.loops.length
  calls : s₀.calls.length ≤ s.calls.length
  before : ∀ i c, i < s₀.calls.length → s.calls[i]? = some c → c.pc.finished = true
  since : ∀ i c, s₀.calls.length ≤ i → s.calls[i]? = some c → s.Doomed D c
  issued : ∀ i c, s₀.calls.length ≤ i → s.calls[i]? = some c →
    ∃ k < s.loops.length, c.issuer = some k

end PollSystem

/-! ## 2. Loops and `pollJob` -/

section Loops

variable {D : Stores} {s s' : PollSystem}

theorem rebind_none (loops : List PollLoop) {old : Option WgTunnel}
    (h : old = none → ∀ lp ∈ loops, lp.cancelled = true) :
    ∀ lp ∈ rebind loops old none, lp.cancelled = true := by
  unfold rebind
  split
  · rename_i ho
    exact h ho
  · intro lp hlp
    rw [Option.toList_none, List.map_nil, List.append_nil] at hlp
    obtain ⟨lp', -, rfl⟩ := List.mem_map.1 hlp
    rfl

theorem length_rebind_none (loops : List PollLoop) (old : Option WgTunnel) :
    (rebind loops old none).length = loops.length := by
  unfold rebind
  split
  · rfl
  · simp

/-- A step of a loop keeps every loop's flag and `pollJob`. -/
theorem LoopMove.flags {k : Nat} {lp : PollLoop} {inp : PollInput} {as : List Action}
    (h : LoopMove s k lp inp s' as) :
    s'.eng.pollJob = s.eng.pollJob ∧ ∃ lp', s'.loops = s.loops.set k lp' ∧ lp'.cancelled = lp.cancelled := by
  cases h <;> exact ⟨rfl, _, rfl, rfl⟩

theorem allCancelled_set {loops : List PollLoop} {k : Nat} {lp lp' : PollLoop} (hk : loops[k]? = some lp)
    (hc : lp'.cancelled = lp.cancelled) (h : ∀ lp ∈ loops, lp.cancelled = true) :
    ∀ x ∈ loops.set k lp', x.cancelled = true := by
  intro x hx
  rcases List.mem_or_eq_of_mem_set hx with hx | rfl
  · exact h x hx
  · rw [hc]
    exact h lp (List.mem_of_getElem? hk)

/-- **Only the loop in `pollJob` is not cancelled**, in every state. -/
theorem loopsBound_step (s : PollSystem) (l : PollLabel) (s' : PollSystem) (I : s.LoopsBound)
    (h : silent (PollSystem.step D) s l = some s') : s'.LoopsBound := by
  obtain ⟨as, hs⟩ := silent_some h
  have hdrive : ∀ w : WireGuardEngine, (s.drive w).LoopsBound := by
    intro w hw
    show ∀ lp ∈ rebind s.loops s.eng.pollJob w.pollJob, lp.cancelled = true
    rw [show w.pollJob = none from hw]
    exact rebind_none s.loops I
  cases step_pollTurn hs with
  | connect | returned | interruptLock | interruptDelay | interruptJob => exact I
  | disconnectAsync | disconnectBlocking | call | job | onDestroy => exact hdrive _
  | loop k inp lp _ _ hk hm =>
    obtain ⟨hp, lp', hl, hc⟩ := hm.flags
    intro hnone
    unfold PollSystem.AllCancelled
    rw [hl]
    exact allCancelled_set hk hc (I (hp ▸ hnone))
  | interruptLoop k lp wake hk hpc =>
    intro hnone
    exact allCancelled_set hk rfl (I hnone)

end Loops

/-! ## 3. No restart comes to its UP -/

section Runs

variable {D : Stores} {s₀ s s' : PollSystem}

/-- The call's own state says whether it is doomed, once the loops are cancelled. -/
theorem PollSystem.Doomed.of_cancelled {c : WgTask} (h : s.Doomed D c)
    (hc : s.AllCancelled → s'.AllCancelled) : s'.Doomed D c := by
  unfold PollSystem.Doomed at h ⊢
  cases hpc : c.pc <;> rw [hpc] at h <;> first | exact h | exact hc h

/-- A cancelled call at its delay is not stepped. -/
theorem delay_stays {i k : Nat} {c : WgTask} {inp : WgInput} {wake : Int} (hall : s.AllCancelled)
    (hi : s.calls[i]? = some c) (hpc : c.pc = .delay wake) (hk : k < s.loops.length)
    (hiss : c.issuer = some k) (hd : s.delayThrows (.call i inp) = true) : False := by
  have hlp : s.loops[k]? = some s.loops[k] := List.getElem?_eq_getElem hk
  have hcancelled : s.callCancelled c = true := by
    unfold PollSystem.callCancelled
    rw [hiss, Option.any_some, hlp, Option.any_some]
    exact hall _ (List.getElem_mem hk)
  simp only [PollSystem.delayThrows, hi, Option.all_some, hpc, hcancelled] at hd
  cases hd

/-- A step of the driver that launches no loop. -/
theorem drive_cancelled {w : WireGuardEngine} (hw : w.pollJob = s.eng.pollJob ∨ w.pollJob = none)
    (h : s.AllCancelled) : (s.drive w).AllCancelled := by
  show ∀ lp ∈ rebind s.loops s.eng.pollJob w.pollJob, lp.cancelled = true
  rcases hw with hw | hw
  · unfold rebind
    rw [hw, if_pos rfl]
    exact h
  · rw [hw]
    exact rebind_none s.loops fun _ => h

@[inherit_doc drive_cancelled]
theorem length_drive {w : WireGuardEngine} (hw : w.pollJob = s.eng.pollJob ∨ w.pollJob = none) :
    (s.drive w).loops.length = s.loops.length := by
  show (rebind s.loops s.eng.pollJob w.pollJob).length = s.loops.length
  rcases hw with hw | hw
  · unfold rebind
    rw [hw, if_pos rfl]
  · rw [hw]
    exact length_rebind_none _ _

/-- **One step of a doomed call**: it stays doomed, and no loop is launched. -/
theorem PollSystem.Doomed.move {i k : Nat} {c : WgTask} {inp : WgInput} {w : WireGuardEngine} {pc : WgPc}
    {as : List Action} (h : s.Doomed D c) (hb : s.LoopsBound) (hi : s.calls[i]? = some c)
    (hk : k < s.loops.length) (hiss : c.issuer = some k)
    (hm : ConnectMove D s.eng i c.uuid inp c.pc w pc as)
    (hd : s.delayThrows (.call i inp) = true) (he : s.settlesEarly (.call i inp) = true) :
    (w.pollJob = s.eng.pollJob ∨ w.pollJob = none) ∧ (s.drive w).Doomed D { c with pc := pc } := by
  have hcall : c.pc = .settle → s.eng.lastDownAt > 0 ∧ inp.now - s.eng.lastDownAt < downSettleMs := by
    intro hpc
    simpa [PollSystem.settlesEarly, hi, hpc] using he
  have hdelay : ∀ wake, c.pc = .delay wake → s.AllCancelled → False := fun wake hpc hall =>
    delay_stays hall hi hpc hk hiss hd
  unfold PollSystem.Doomed at h
  generalize c.pc = pc₀ at h hm hcall hdelay
  cases hm with
  | lock => exact ⟨.inl rfl, trivial⟩
  | unread lu sr hc => exact ⟨.inl rfl, .inr hc⟩
  | read => exact ⟨.inl rfl, trivial⟩
  -- the teardown cancels the job that the call runs in
  | idle | take =>
    refine ⟨.inr rfl, ?_⟩
    exact rebind_none s.loops hb
  | down => exact ⟨.inr rfl, drive_cancelled (.inr rfl) h⟩
  | downOther => exact ⟨.inl rfl, drive_cancelled (.inl rfl) h⟩
  | pace => exact ⟨.inl rfl, drive_cancelled (.inl rfl) h⟩
  | settled hl => exact absurd (hcall rfl) hl
  | wake wake => exact (hdelay wake rfl h).elim
  | unlock => exact ⟨.inl rfl, h⟩
  | create | report | upFree | upRefused | upSwap | upSame | upLost | upBack | failed | publish =>
    exact h.elim

/-- A step after which every call is one of before, or a doomed one of a loop. -/
theorem PollSystem.Hopeless.next (I : PollSystem.Hopeless D s₀ s) (hb : s'.LoopsBound)
    (hl : s'.loops.length = s.loops.length) (hall : s.AllCancelled → s'.AllCancelled)
    (hn : s.calls.length ≤ s'.calls.length)
    (hc : ∀ i c, s'.calls[i]? = some c → s.calls[i]? = some c ∨
      s₀.calls.length ≤ i ∧ s'.Doomed D c ∧ ∃ k < s.loops.length, c.issuer = some k) :
    PollSystem.Hopeless D s₀ s' := by
  refine ⟨hb, hl.trans I.loops, Nat.le_trans I.calls hn, fun i c hi hcall => ?_, fun i c hi hcall => ?_,
    fun i c hi hcall => ?_⟩
  · rcases hc i c hcall with hold | ⟨hle, -, -⟩
    · exact I.before i c hi hold
    · exact absurd hi (Nat.not_lt.2 hle)
  · rcases hc i c hcall with hold | ⟨-, hdoomed, -⟩
    · exact (I.since i c hi hold).of_cancelled hall
    · exact hdoomed
  · rw [hl]
    rcases hc i c hcall with hold | ⟨-, -, hiss⟩
    · exact I.issued i c hi hold
    · exact hiss

/-- Nobody but a call that is running moves; it is one of a loop. -/
theorem PollSystem.Hopeless.running (I : PollSystem.Hopeless D s₀ s) {i : Nat} {c : WgTask}
    (hi : s.calls[i]? = some c) (hrun : c.pc.finished = false) : s₀.calls.length ≤ i := by
  by_contra hlt
  rw [I.before i c (Nat.not_le.1 hlt) hi] at hrun
  cases hrun

theorem calls_set {i : Nat} {c c' : WgTask} (hi : s.calls[i]? = some c) {j : Nat} {x : WgTask}
    (hj : (s.calls.set i c')[j]? = some x) : s.calls[j]? = some x ∨ j = i ∧ x = c' := by
  by_cases hji : j = i
  · subst hji
    rw [List.getElem?_set_self (List.getElem?_eq_some_iff.1 hi).1] at hj
    exact .inr ⟨rfl, (Option.some.inj hj).symm⟩
  · rw [List.getElem?_set_ne (Ne.symm hji)] at hj
    exact .inl hj

/-- **Every step that is no command** leaves it hopeless. -/
theorem hopeless_step (s : PollSystem) (l : PollLabel) (s' : PollSystem) (I : PollSystem.Hopeless D s₀ s)
    (hC : (s.delayThrows l = true ∧ s.settlesEarly l = true) ∧ l.isCommand = false)
    (h : silent (PollSystem.step D) s l = some s') : PollSystem.Hopeless D s₀ s' := by
  have hb := loopsBound_step s l s' I.bound h
  obtain ⟨as, hs⟩ := silent_some h
  obtain ⟨⟨hd, he⟩, hcmd⟩ := hC
  have hquiet : ∀ w : WireGuardEngine, w.pollJob = s.eng.pollJob ∨ w.pollJob = none →
      (s.drive w).LoopsBound → PollSystem.Hopeless D s₀ (s.drive w) := fun w hw hb =>
    I.next hb (length_drive hw) (drive_cancelled hw) (Nat.le_refl _) fun _ _ hj => .inl hj
  cases step_pollTurn hs with
  | connect | disconnectAsync | disconnectBlocking => cases hcmd
  | returned | interruptJob => exact I.next hb rfl id (Nat.le_refl _) fun _ _ hj => .inl hj
  | call i inp c w pc _ hi hm =>
    have hn := I.running hi hm.running
    obtain ⟨k, hk, hiss⟩ := I.issued i c hn hi
    obtain ⟨hw, hdoomed⟩ := (I.since i c hn hi).move I.bound hi hk hiss hm hd he
    refine I.next hb (length_drive hw) (drive_cancelled hw) (Nat.le_of_eq List.length_set.symm) fun j x hj => ?_
    rcases calls_set hi hj with hj | ⟨rfl, rfl⟩
    · exact .inl hj
    · exact .inr ⟨hn, hdoomed, k, hk, hiss⟩
  | interruptLock i c hi hpc | interruptDelay i c _ hi hpc =>
    have hn := I.running hi (by rw [hpc]; rfl)
    refine I.next hb rfl id (Nat.le_of_eq List.length_set.symm) fun j x hj => ?_
    rcases calls_set hi hj with hj | ⟨rfl, rfl⟩
    · exact .inl hj
    · exact .inr ⟨hn, .inl rfl, I.issued _ c hn hi⟩
  | job j inp w _ hm =>
    refine hquiet w ?_ hb
    cases hm with
    | lock | downOther => exact .inl rfl
    | down => exact .inr rfl
  | loop k inp lp _ _ hk hm =>
    obtain ⟨-, lp', hl, hc⟩ := hm.flags
    have hlen : s'.loops.length = s.loops.length := by rw [hl, List.length_set]
    have hall : s.AllCancelled → s'.AllCancelled := by
      intro hall
      unfold PollSystem.AllCancelled
      rw [hl]
      exact allCancelled_set hk hc hall
    rcases hm.calls with hcalls | ⟨-, -, id, -, -, -, -, -, hcalls⟩
    · refine I.next hb hlen hall (hcalls ▸ Nat.le_refl _) fun j x hj => ?_
      rw [hcalls] at hj
      exact .inl hj
    · refine I.next hb hlen hall (by rw [hcalls]; simp) fun j x hj => ?_
      rw [hcalls] at hj
      rcases get_concat hj with hj | ⟨rfl, rfl⟩
      · exact .inl hj
      · exact .inr ⟨I.calls, trivial, k, (List.getElem?_eq_some_iff.1 hk).1, rfl⟩
  | interruptLoop k lp wake hk hpc =>
    exact I.next hb (by simp [PollSystem.goto]) (allCancelled_set hk rfl) (Nat.le_refl _)
      fun _ _ hj => .inl hj
  | onDestroy now =>
    rcases onDestroy_cases s.eng now with ⟨-, ho⟩ | ⟨-, ho⟩
    · rw [ho] at hb ⊢
      exact hquiet _ (.inl rfl) hb
    · rw [ho] at hb ⊢
      exact hquiet _ (.inr rfl) hb

/-- A call keeps its profile and its maker. -/
theorem call_kept {l : PollLabel} {i : Nat} {c : WgTask} (hi : s.calls[i]? = some c)
    (h : silent (PollSystem.step D) s l = some s') :
    ∃ c', s'.calls[i]? = some c' ∧ c'.uuid = c.uuid ∧ c'.issuer = c.issuer := by
  obtain ⟨as, hs⟩ := silent_some h
  have hset : ∀ {j : Nat} {d d' : WgTask}, s.calls[j]? = some d → d'.uuid = d.uuid → d'.issuer = d.issuer →
      ∃ c', (s.calls.set j d')[i]? = some c' ∧ c'.uuid = c.uuid ∧ c'.issuer = c.issuer := by
    intro j d d' hj hu hiss
    by_cases hij : i = j
    · subst hij
      rw [hi] at hj
      cases hj
      exact ⟨d', List.getElem?_set_self (List.getElem?_eq_some_iff.1 hi).1, hu, hiss⟩
    · exact ⟨c, (List.getElem?_set_ne (Ne.symm hij)).trans hi, rfl, rfl⟩
  have hlt := (List.getElem?_eq_some_iff.1 hi).1
  cases step_pollTurn hs with
  | connect => exact ⟨c, (List.getElem?_append_left hlt).trans hi, rfl, rfl⟩
  | returned | disconnectAsync | disconnectBlocking | job | interruptJob | interruptLoop | onDestroy =>
    exact ⟨c, hi, rfl, rfl⟩
  | call j inp d w pc _ hj hm => exact hset hj rfl rfl
  | interruptLock j d hj hpc | interruptDelay j d _ hj hpc => exact hset hj rfl rfl
  | loop k inp lp _ _ hk hm =>
    rcases hm.calls with hcalls | ⟨-, -, id, -, -, -, -, -, hcalls⟩
    · exact ⟨c, hcalls ▸ hi, rfl, rfl⟩
    · refine ⟨c, ?_, rfl, rfl⟩
      rw [hcalls, List.getElem?_append_left hlt]
      exact hi

/-- The sixteenth second without a reply makes a call. -/
theorem restart_calls {k : Nat} {lp : PollLoop} {inp : PollInput} (hk : s.loops[k]? = some lp)
    (hstall : s.restartsAt lp = true) (h : silent (PollSystem.step D) s (.loop k inp) = some s') :
    ∃ c, s'.calls[s.calls.length]? = some c ∧ c.issuer = some k ∧ s.eng.lastUuid = some c.uuid := by
  obtain ⟨as, hs⟩ := silent_some h
  simp only [PollSystem.step, hk, PollSystem.loopStep] at hs
  unfold PollSystem.restartsAt at hstall
  cases hpc : lp.pc with
  | watch rx tx =>
    simp only [hpc, decide_eq_true_eq] at hs hstall
    obtain ⟨hrx, heq, htx, h8, hid, hr⟩ := hstall
    obtain ⟨id, hid⟩ := Option.ne_none_iff_exists'.1 hid
    rw [if_pos ⟨hrx, heq, htx⟩, if_pos h8, PollSystem.stalled, hid] at hs
    simp only [if_pos hr, Option.some.injEq, Prod.mk.injEq] at hs
    obtain ⟨rfl, -⟩ := hs
    exact ⟨{ uuid := id, pc := .lock, issuer := some k }, List.getElem?_concat_length, rfl, hid⟩
  | _ =>
    rw [hpc] at hstall
    cases hstall

end Runs

/-! ## 4. Every restart -/

/-- **No restart works**: from a stall of a loop, with no command under way or to come, with settle
    checks that delay and delays that a cancelled call does not come out of, no new loop ever polls a
    tunnel that is up; and the call of the restart ends by throwing, unless its config is gone. -/
theorem restart_never_works (D : Stores) {ls₀ ls : List PollLabel} {s₀ s : PollSystem} {k : Nat}
    {lp : PollLoop} {inp : PollInput} (h₀ : exec (silent (PollSystem.step D)) {} ls₀ = some s₀)
    (hk : s₀.loops[k]? = some lp) (hstall : s₀.restartsAt lp = true) (hidle : s₀.allReturned = true)
    (h : exec (silent (PollSystem.step D)) s₀ (.loop k inp :: ls) = some s)
    (hcmd : ∀ l ∈ ls, l.isCommand = false)
    (hdelay : Along (silent (PollSystem.step D)) (fun s l => s.delayThrows l = true) s₀ (.loop k inp :: ls))
    (hearly : Along (silent (PollSystem.step D)) (fun s l => s.settlesEarly l = true) s₀
      (.loop k inp :: ls)) :
    ¬ s₀.RestartWorked s ∧ ∃ c, s.calls[s₀.calls.length]? = some c ∧ c.issuer = some k ∧
      s₀.eng.lastUuid = some c.uuid ∧
      (c.pc.finished = true → c.thrown = true ∨ D.wgConfig c.uuid = none) := by
  have hbound : s₀.LoopsBound := exec_inv' loopsBound_step (fun _ _ hlp => absurd hlp List.not_mem_nil) h₀
  have hnone : ∀ {i : Nat} {c : WgTask}, s₀.calls.length ≤ i → s₀.calls[i]? = some c → False := by
    intro i c hi hc
    exact absurd (List.getElem?_eq_some_iff.1 hc).1 (Nat.not_lt.2 hi)
  have I₀ : PollSystem.Hopeless D s₀ s₀ := by
    refine ⟨hbound, rfl, Nat.le_refl _, fun i c _ hc => ?_, fun i c hi hc => (hnone hi hc).elim,
      fun i c hi hc => (hnone hi hc).elim⟩
    exact List.all_eq_true.1 hidle c (List.mem_of_getElem? hc)
  have hcmd' : ∀ l ∈ PollLabel.loop k inp :: ls, l.isCommand = false :=
    List.forall_mem_cons.2 ⟨rfl, hcmd⟩
  have I := exec_inv hopeless_step I₀ (along_and (along_and hdelay hearly) (along_of_forall hcmd')) h
  constructor
  · rintro ⟨t, j, lp', -, -, hj, hlp', -⟩
    have hlt := (List.getElem?_eq_some_iff.1 hlp').1
    rw [I.loops] at hlt
    exact absurd hlt (Nat.not_lt.2 hj)
  · obtain ⟨s₁, hstart, hrun⟩ := exec_cons.1 h
    obtain ⟨c₁, hc₁, hiss₁, hid₁⟩ := restart_calls hk hstall hstart
    have hstep : ∀ (s : PollSystem) (l : PollLabel) (s' : PollSystem),
        (∃ c, s.calls[s₀.calls.length]? = some c ∧ c.uuid = c₁.uuid ∧ c.issuer = c₁.issuer) →
        silent (PollSystem.step D) s l = some s' →
        ∃ c, s'.calls[s₀.calls.length]? = some c ∧ c.uuid = c₁.uuid ∧ c.issuer = c₁.issuer := by
      rintro s l s' ⟨c, hc, hu, hiss⟩ hs
      obtain ⟨c', hc', hu', hiss'⟩ := call_kept hc hs
      exact ⟨c', hc', hu'.trans hu, hiss'.trans hiss⟩
    have hkept := exec_inv' hstep ⟨c₁, hc₁, rfl, rfl⟩ hrun
    obtain ⟨c, hc, hu, hiss⟩ := hkept
    refine ⟨c, hc, hiss.trans hiss₁, by rw [hid₁, hu], fun hfin => ?_⟩
    have hdoomed := I.since _ c (Nat.le_refl _) hc
    unfold PollSystem.Doomed at hdoomed
    cases hpc : c.pc with
    | done e =>
      rw [hpc] at hdoomed
      exact hdoomed
    | _ =>
      rw [hpc] at hfin
      cases hfin

/-- A tunnel comes up and sends without a reply, until the sample before the restart. -/
def untilStall : List PollLabel :=
  PollLabel.connect "wg1" :: List.replicate 9 (PollLabel.call 0 { now := 1000 }) ++ (stall 0 1).dropLast

/-- The call of the restart: DOWN, the settle check in the same millisecond, its delay throws, and the
    exception ends the loop. -/
def thrownOut : List PollLabel :=
  List.replicate 5 (PollLabel.call 1 { now := 18000 }) ++
    [PollLabel.interrupt 1, .call 1 { now := 18000 }, .loop 0 { now := 18000 }]

/-- The ninth sample. -/
def lastSample : PollLabel := .loop 0 { now := 18000, stats := some (0, 9) }

/-- The tunnel of these runs. -/
def sampleTunnel : WgTunnel := ⟨0, "wg1"⟩

/-- The tunnel is up, the loop at the ninth sample. -/
def beforeRestart : PollSystem where
  eng :=
    { backend := ⟨some sampleTunnel, some { localIPv4 := some "10.0.0.2/32" }⟩
      pollJob := some sampleTunnel
      active := some sampleTunnel
      lastUuid := some "wg1"
      nextTunnel := 1 }
  calls := [{ uuid := "wg1", pc := .done none }]
  loops := [{ tunnel := sampleTunnel, baseRx := 0, baseTx := 8, silentSeconds := 7, pc := .watch 0 9 }]

/-- The tunnel is down, nothing is active, the call has thrown and its loop has ended. -/
def afterRestart : PollSystem where
  eng := { lastDownAt := 18000, lastUuid := some "wg1", nextTunnel := 1 }
  calls := [{ uuid := "wg1", pc := .done none },
    { uuid := "wg1", pc := .done none, issuer := some 0, thrown := true }]
  loops := [{ tunnel := sampleTunnel, baseRx := 0, baseTx := 8, pc := .done, cancelled := true }]

set_option maxRecDepth 8000 in
theorem exec_untilStall :
    exec (silent (PollSystem.step sampleStores)) {} untilStall = some beforeRestart := by decide +kernel

theorem exec_thrownOut :
    exec (silent (PollSystem.step sampleStores)) beforeRestart (lastSample :: thrownOut)
      = some afterRestart := by decide +kernel

theorem delays_thrownOut :
    Along (silent (PollSystem.step sampleStores)) (fun s l => s.delayThrows l = true) beforeRestart
      (lastSample :: thrownOut) := by decide +kernel

theorem settles_thrownOut :
    Along (silent (PollSystem.step sampleStores)) (fun s l => s.settlesEarly l = true) beforeRestart
      (lastSample :: thrownOut) := by decide +kernel

theorem restart_never_works_once : ¬ beforeRestart.RestartWorked afterRestart := by
  have hk : beforeRestart.loops[0]? =
      some { tunnel := sampleTunnel, baseRx := 0, baseTx := 8, silentSeconds := 7, pc := .watch 0 9 } := rfl
  exact (restart_never_works sampleStores exec_untilStall hk (by decide) (by decide) exec_thrownOut
    (by decide) delays_thrownOut settles_thrownOut).1

/-- **The restart leaves the tunnel down**: its config is valid and no call of the backend would fail,
    but the call throws at its delay, and its loop ends with it. -/
theorem restart_leaves_down :
    exec (silent (PollSystem.step sampleStores)) {} untilStall = some beforeRestart ∧
      (∃ lp, beforeRestart.loops[0]? = some lp ∧ beforeRestart.restartsAt lp = true) ∧
      beforeRestart.eng.stallRestarts < 3 ∧ (sampleStores.wgConfig "wg1").isSome = true ∧
      exec (silent (PollSystem.step sampleStores)) beforeRestart (lastSample :: thrownOut)
        = some afterRestart ∧
      (∀ l ∈ thrownOut, l.isCommand = false) ∧
      Along (silent (PollSystem.step sampleStores)) (fun s l => s.settlesEarly l = true) beforeRestart
        (lastSample :: thrownOut) ∧
      afterRestart.eng.backend.getState sampleTunnel = .down ∧ afterRestart.eng.active = none ∧
      ¬ ∃ lp ∈ afterRestart.loops, lp.pc ≠ .done :=
  ⟨exec_untilStall, ⟨_, rfl, by decide⟩, by decide, by decide, exec_thrownOut, by decide,
    settles_thrownOut, by decide, rfl, by decide⟩

end SwiftVpn
