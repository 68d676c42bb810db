/-
  File:      SwiftVpn/Router/XrayQuiet.lean
  Subject:   WHEN THE XRAY SERVICE IS QUIET: its coroutines, and the messages on their way.

  * `rests_step` -- a service whose coroutines rest sends no figures, and nothing but a START wakes one;
  * `stoppable_cleanup` -- `cleanup` brings one to rest whose other coroutines ask at their next point;
  * `Ended` -- **behind a report that the session has ended there are no figures**, and while one is on its
    way every instance rests; `Served.ended` -- so after each orderly step.

  The messages keep their order (one Handler), and a scope is cancelled before EV_STOPPED is sent or after
  it in the same callback. What is left is a coroutine between its check and its `sendEvent`.
-/
import SwiftVpn.Router.Quiet

namespace SwiftVpn

open Machine

/-! ## 1. One instance -/

section Service

variable {D : Stores} {s s' : XrayVpnService} {es : List XrayEffect}

theorem rests_iff : s.rests = true ↔ ∀ job ∈ s.jobs, job.rests = true := List.all_eq_true

theorem sent_append (es fs : List XrayEffect) :
    XraySession.sent (es ++ fs) = XraySession.sent es ++ XraySession.sent fs := List.filterMap_append

/-- `sendEvent` sends its event or nothing. -/
theorem mem_sendEvent {ev e : XrayEvent} (h : e ∈ XraySession.sent (s.sendEvent ev)) : e = ev := by
  unfold XrayVpnService.sendEvent at h
  split at h
  · exact List.mem_singleton.mp h
  · cases h

@[simp] theorem sent_cleanupEffects (s : XrayVpnService) : XraySession.sent s.cleanupEffects = [] := by
  unfold XrayVpnService.cleanupEffects
  rw [sent_append]
  cases s.controller with
  | none =>
    dsimp only
    split <;> rfl
  | some core =>
    dsimp only
    split <;> rfl

/-- Cancelling wakes no coroutine. -/
theorem rests_cancel {job : XrayJob} (h : job.rests = true) :
    ({ job with cancelled := true } : XrayJob).rests = true := by
  unfold XrayJob.rests at h ⊢
  rcases (Bool.or_eq_true _ _).mp h with hover | hasks
  · exact (Bool.or_eq_true _ _).mpr (.inl hover)
  · exact (Bool.or_eq_true _ _).mpr (.inr (by simpa using ((Bool.and_eq_true _ _).mp hasks).1))

/-- A coroutine after `cleanup`. -/
theorem mem_cancelJobs {job : XrayJob} (h : job ∈ s.cancelJobs) :
    ∃ (j : Nat) (old : XrayJob), s.jobs[j]? = some old ∧ (job = old ∨ job = { old with cancelled := true }) ∧
      (s.cancels j old = true → job = { old with cancelled := true }) := by
  obtain ⟨j, hj⟩ := List.getElem?_of_mem h
  unfold XrayVpnService.cancelJobs at hj
  rw [List.getElem?_mapIdx] at hj
  obtain ⟨old, hold, rfl⟩ := Option.map_eq_some_iff.mp hj
  refine ⟨j, old, hold, ?_, fun hcancels => ?_⟩
  · split
    · exact .inr rfl
    · exact .inl rfl
  · refine if_pos ?_
    unfold XrayVpnService.cancels at hcancels
    simpa using hcancels

theorem cleanup_rests (h : s.rests = true) : s.cleanup.rests = true := by
  refine rests_iff.2 fun job hjob => ?_
  obtain ⟨j, old, hold, heq, -⟩ := mem_cancelJobs hjob
  have hrest := rests_iff.1 h old (List.mem_of_getElem? hold)
  rcases heq with rfl | rfl
  · exact hrest
  · exact rests_cancel hrest

/-- **`cleanup` brings the coroutines to rest that it reaches before their next check.** -/
theorem stoppable_cleanup (h : s.stoppable = true) : s.cleanup.rests = true := by
  refine rests_iff.2 fun job hjob => ?_
  obtain ⟨j, old, hold, heq, hcancelled⟩ := mem_cancelJobs hjob
  have hone := List.all_eq_true.1 h (old, j) (List.mk_mem_zipIdx_iff_getElem?.2 hold)
  simp only [Bool.or_eq_true, Bool.and_eq_true] at hone
  rcases hone with hrest | ⟨hasks, hcancels⟩
  · rcases heq with rfl | rfl
    · exact hrest
    · exact rests_cancel hrest
  · rw [hcancelled hcancels]
    unfold XrayJob.rests
    rw [hasks]
    exact Bool.or_true _

/-- The coroutine `j` goes on to a point at which it rests. -/
theorem rests_modify {jobs : List XrayJob} {j : Nat} {pc : XrayPc} (h : ∀ job ∈ jobs, job.rests = true)
    (hpc : pc.over = true) :
    ∀ job ∈ jobs.modify j (fun job => { job with pc := pc }), job.rests = true := by
  intro job hjob
  obtain ⟨k, hk⟩ := List.getElem?_of_mem hjob
  rw [List.getElem?_modify] at hk
  obtain ⟨old, hold, rfl⟩ := Option.map_eq_some_iff.mp hk
  split
  · unfold XrayJob.rests
    rw [hpc]
    rfl
  · exact h old (List.mem_of_getElem? hold)

/-- A coroutine that rests goes on to a point at which it rests, and sends no figures. -/
theorem rests_jobStep {inp : XrayInput} {job : XrayJob} {pc' : XrayPc} (h : s.rests = true)
    (hjob : job.rests = true) (hs : s.jobStep D inp job.cancelled job.pc = some (s', pc', es)) :
    s'.rests = true ∧ pc'.over = true ∧ ∀ ev ∈ XraySession.sent es, ev.figure = false := by
  obtain ⟨scope, cancelled, pc⟩ := job
  have hnone : ∀ ev ∈ XraySession.sent [], ev.figure = false := fun ev hev => absurd hev List.not_mem_nil
  -- at a point where it asks, it has been cancelled
  have hcancelled : pc.over = false → cancelled = true := by
    intro hover
    unfold XrayJob.rests at hjob
    dsimp only at hjob
    rw [hover, Bool.false_or, Bool.and_eq_true] at hjob
    exact hjob.2
  have hasks : pc.over = false → pc.asks = true := by
    intro hover
    unfold XrayJob.rests at hjob
    dsimp only at hjob
    rw [hover, Bool.false_or, Bool.and_eq_true] at hjob
    exact hjob.1
  dsimp only at hs
  cases pc with
  | start | pollHead n | delay n =>
    rw [hcancelled rfl] at hs
    obtain ⟨rfl, rfl, rfl⟩ := hs
    exact ⟨h, rfl, hnone⟩
  | emit line =>
    simp only [XrayVpnService.jobStep] at hs
    obtain ⟨rfl, rfl, rfl⟩ := hs
    refine ⟨h, rfl, fun ev hev => ?_⟩
    split at hev
    · cases hev
    · rw [mem_sendEvent hev]
      rfl
  | fail m =>
    obtain ⟨rfl, rfl, rfl⟩ := hs
    refine ⟨h, rfl, fun ev hev => ?_⟩
    rw [mem_sendEvent hev]
    rfl
  | cleanup =>
    obtain ⟨rfl, rfl, rfl⟩ := hs
    refine ⟨cleanup_rests h, rfl, ?_⟩
    rw [sent_cleanupEffects]
    exact hnone
  | done => cases hs
  | _ => cases hasks rfl

/-- **A service at rest sends no figures, and only a START wakes it.** -/
theorem rests_step {l : XrayLabel} (h : s.rests = true) (hl : ∀ uuid, l ≠ .start uuid)
    (hs : s.step D l = some (s', es)) :
    s'.rests = true ∧ ∀ ev ∈ XraySession.sent es, ev.figure = false := by
  have hcleaned := cleanup_rests h
  have hstopped : ∀ ev ∈ XraySession.sent (s.sendEvent .stopped ++ s.cleanupEffects), ev.figure = false := by
    intro ev hev
    rw [sent_append, sent_cleanupEffects, List.append_nil] at hev
    rw [mem_sendEvent hev]
    rfl
  cases l with
  | start uuid => exact absurd rfl (hl uuid)
  | stop | onRevoke =>
    simp only [XrayVpnService.step] at hs
    split at hs
    · cases hs
    · obtain ⟨rfl, rfl⟩ := hs
      exact ⟨hcleaned, hstopped⟩
  | forceStop =>
    simp only [XrayVpnService.step] at hs
    split at hs
    · cases hs
    · obtain ⟨rfl, rfl⟩ := hs
      refine ⟨hcleaned, fun ev hev => ?_⟩
      rw [sent_append, sent_cleanupEffects] at hev
      cases hev
  | onDestroy =>
    simp only [XrayVpnService.step] at hs
    split at hs
    · cases hs
    · split at hs
      · obtain ⟨rfl, rfl⟩ := hs
        exact ⟨hcleaned, hstopped⟩
      · obtain ⟨rfl, rfl⟩ := hs
        exact ⟨h, fun ev hev => absurd hev List.not_mem_nil⟩
  | emitStatus line =>
    have hsame : ∀ ev ∈ XraySession.sent [], ev.figure = false := fun ev hev => absurd hev List.not_mem_nil
    simp only [XrayVpnService.step] at hs
    split at hs
    · split at hs
      · obtain ⟨rfl, rfl⟩ := hs
        exact ⟨h, hsame⟩
      · obtain ⟨rfl, rfl⟩ := hs
        refine ⟨rests_iff.2 fun job hjob => ?_, hsame⟩
        rcases List.mem_append.mp hjob with hjob | hjob
        · exact rests_iff.1 h job hjob
        · obtain rfl := List.mem_singleton.mp hjob
          rfl
    · obtain ⟨rfl, rfl⟩ := hs
      exact ⟨h, hsame⟩
  | job j inp =>
    simp only [XrayVpnService.step] at hs
    split at hs
    · cases hs
    · rename_i job hj
      split at hs
      · cases hs
      · rename_i r pc' es' hstep
        obtain ⟨rfl, rfl⟩ := hs
        obtain ⟨hrest, hover, hsent⟩ := rests_jobStep h (rests_iff.1 h job (List.mem_of_getElem? hj)) hstep
        exact ⟨rests_iff.2 (rests_modify (rests_iff.1 hrest) hover), hsent⟩

/-- A coroutine reports the end of a session only where it gives up. -/
theorem ends_jobStep {inp : XrayInput} {cancelled : Bool} {pc pc' : XrayPc} {ev : XrayEvent}
    (hs : s.jobStep D inp cancelled pc = some (s', pc', es)) (hev : ev ∈ XraySession.sent es)
    (hends : ev.ends = true) : pc.failing = true := by
  have hother : ∀ {e : XrayEvent}, e.ends = false → ev ∈ XraySession.sent (s.sendEvent e) → False := by
    intro e he hmem
    rw [mem_sendEvent hmem, he] at hends
    cases hends
  cases pc with
  | fail | stallFail => rfl
  | start =>
    simp only [XrayVpnService.jobStep] at hs
    split at hs
    · obtain ⟨-, -, rfl⟩ := hs
      cases hev
    · split at hs <;>
        · obtain ⟨-, -, rfl⟩ := hs
          cases hev
  | config | ensure | newCore | startLoop | startPolling | pollHead | delay =>
    simp only [XrayVpnService.jobStep] at hs
    repeat' split at hs
    all_goals
      obtain ⟨-, -, rfl⟩ := hs
      simp [XraySession.sent] at hev
  | establish id =>
    simp only [XrayVpnService.jobStep] at hs
    split at hs
    · obtain ⟨-, -, rfl⟩ := hs
      split at hev
      · exact (hother rfl hev).elim
      · cases hev
    · split at hs
      · cases hs
      · obtain ⟨-, -, rfl⟩ := hs
        split at hev
        · exact (hother rfl hev).elim
        · cases hev
  | info id =>
    simp only [XrayVpnService.jobStep] at hs
    obtain ⟨-, -, rfl⟩ := hs
    split at hev
    · exact (hother rfl hev).elim
    · cases hev
  | pollBody n =>
    simp only [XrayVpnService.jobStep] at hs
    repeat' split at hs
    all_goals
      obtain ⟨-, -, rfl⟩ := hs
      cases hev
  | stall down up =>
    simp only [XrayVpnService.jobStep] at hs
    split at hs <;>
      · obtain ⟨-, -, rfl⟩ := hs
        exact (hother (e := .log _) rfl hev).elim
  | log | connected | bytes =>
    simp only [XrayVpnService.jobStep] at hs
    obtain ⟨-, -, rfl⟩ := hs
    exact (hother rfl hev).elim
  | emit line =>
    simp only [XrayVpnService.jobStep] at hs
    obtain ⟨-, -, rfl⟩ := hs
    split at hev
    · cases hev
    · exact (hother rfl hev).elim
  | cleanup | restart | stallCleanup =>
    simp only [XrayVpnService.jobStep] at hs
    obtain ⟨-, -, rfl⟩ := hs
    rw [sent_cleanupEffects] at hev
    cases hev
  | detachFd | running | relaunch =>
    obtain ⟨-, -, rfl⟩ := hs
    simp [XraySession.sent] at hev
  | done => cases hs

end Service

/-! ## 2. The instances and their messages -/

/-- While the end of a session is on its way every instance rests, and behind it come no figures. -/
structure Ended (x : XraySession) : Prop where
  rests : ∀ ev ∈ x.messages, ev.ends = true → x.rests = true
  behind : x.messages.Pairwise fun a b => a.ends = true → b.figure = false

theorem ended_init : Ended {} := ⟨fun _ hev => absurd hev List.not_mem_nil, .nil⟩

section Session

variable {D : Stores} {x x' : XraySession} {k : Nat} {l : XrayLabel}

theorem session_rests_iff : x.rests = true ↔ ∀ svc ∈ x.services, svc.rests = true := List.all_eq_true

/-- The instance `k` is brought to rest, and the others rest. -/
theorem rests_set {svc : XrayVpnService} {ms : List XrayEvent} (h : x.stoppable k = true)
    (hsvc : svc.rests = true) :
    ({ x with services := x.services.set k svc, messages := ms } : XraySession).rests = true := by
  refine session_rests_iff.2 fun t ht => ?_
  obtain ⟨j, hj⟩ := List.getElem?_of_mem ht
  by_cases hjk : j = k
  · subst hjk
    have hlt : j < (x.services.set j svc).length := (List.getElem?_eq_some_iff.1 hj).1
    rw [List.length_set] at hlt
    obtain rfl := Option.some.inj ((List.getElem?_set_self hlt).symm.trans hj)
    exact hsvc
  · have hold : x.services[j]? = some t := by
      rw [← hj]
      exact (List.getElem?_set_ne (Ne.symm hjk)).symm
    have hone := List.all_eq_true.1 h (t, j) (List.mk_mem_zipIdx_iff_getElem?.2 hold)
    rw [if_neg hjk] at hone
    exact hone

/-- Instances at rest stay so, and send no figures. -/
theorem Served.rests (h : Served D x k l x') (hl : ∀ uuid, l ≠ .start uuid) (hx : x.rests = true) :
    x'.rests = true ∧ ∃ ms, x'.messages = x.messages ++ ms ∧ ∀ ev ∈ ms, ev.figure = false := by
  cases h with
  | mk svc svc' es hk hs =>
    obtain ⟨hrest, hsent⟩ := rests_step (session_rests_iff.1 hx svc (List.mem_of_getElem? hk)) hl hs
    refine ⟨session_rests_iff.2 fun t ht => ?_, _, rfl, hsent⟩
    rcases List.mem_or_eq_of_mem_set ht with ht | rfl
    · exact session_rests_iff.1 hx t ht
    · exact hrest

/-- A step that reports the end of a session leaves every instance at rest, and no figures come with it. -/
theorem ends_served {svc svc' : XrayVpnService} {es : List XrayEffect} {ev : XrayEvent}
    (hk : x.services[k]? = some svc) (hs : svc.step D l = some (svc', es))
    (hstop : l = .stop ∨ l = .onRevoke → x.stoppable k = true)
    (hdestroy : l = .onDestroy → x.stoppable k = true ∨
      (x.services[k]?.any fun svc => svc.controller = none && decide (svc.tunFd < 0)) = true)
    (hjob : ∀ j inp, l = .job j inp → x.rests = true ∨
      (x.services[k]?.any fun svc => svc.jobs[j]?.any (·.pc.failing)) = false)
    (hev : ev ∈ XraySession.sent es) (hterminal : ev.ends = true) :
    ({ x with services := x.services.set k svc', messages := x.messages ++ XraySession.sent es } :
      XraySession).rests = true ∧ ∀ e ∈ XraySession.sent es, e.figure = false := by
  have hrests := (Served.mk svc svc' es hk hs).rests
  have hstopped : ∀ e ∈ XraySession.sent (svc.sendEvent .stopped ++ svc.cleanupEffects),
      e.figure = false := by
    intro e he
    rw [sent_append, sent_cleanupEffects, List.append_nil] at he
    rw [mem_sendEvent he]
    rfl
  have hcleaned : x.stoppable k = true → svc.cleanup.rests = true := by
    intro hx
    have hone := List.all_eq_true.1 hx (svc, k) (List.mk_mem_zipIdx_iff_getElem?.2 hk)
    rw [if_pos rfl] at hone
    exact stoppable_cleanup hone
  cases l with
  | start uuid =>
    simp only [XrayVpnService.step] at hs
    split at hs
    · cases hs
    · obtain ⟨rfl, rfl⟩ := hs
      cases hev
  | stop =>
    simp only [XrayVpnService.step] at hs
    split at hs
    · cases hs
    · obtain ⟨rfl, rfl⟩ := hs
      exact ⟨rests_set (hstop (.inl rfl)) (hcleaned (hstop (.inl rfl))), hstopped⟩
  | onRevoke =>
    simp only [XrayVpnService.step] at hs
    split at hs
    · cases hs
    · obtain ⟨rfl, rfl⟩ := hs
      exact ⟨rests_set (hstop (.inr rfl)) (hcleaned (hstop (.inr rfl))), hstopped⟩
  | forceStop =>
    simp only [XrayVpnService.step] at hs
    split at hs
    · cases hs
    · obtain ⟨rfl, rfl⟩ := hs
      rw [sent_append, sent_cleanupEffects] at hev
      cases hev
  | onDestroy =>
    simp only [XrayVpnService.step] at hs
    split at hs
    · cases hs
    · split at hs
      · rename_i hlive
        obtain ⟨rfl, rfl⟩ := hs
        have hx : x.stoppable k = true := by
          refine (hdestroy rfl).resolve_right fun hvacant => ?_
          rw [hk, Option.any_some, Bool.and_eq_true, decide_eq_true_eq, decide_eq_true_eq] at hvacant
          rcases hlive with hcore | hfd
          · exact hcore hvacant.1
          · exact absurd hvacant.2 (not_lt.mpr hfd)
        exact ⟨rests_set hx (hcleaned hx), hstopped⟩
      · obtain ⟨rfl, rfl⟩ := hs
        cases hev
  | emitStatus line =>
    simp only [XrayVpnService.step] at hs
    split at hs
    · split at hs <;>
        · obtain ⟨rfl, rfl⟩ := hs
          cases hev
    · obtain ⟨rfl, rfl⟩ := hs
      cases hev
  | job j inp =>
    rcases hjob j inp rfl with hx | hfailing
    · obtain ⟨hrest, ms, hms, hfigure⟩ := hrests (fun uuid he => by cases he) hx
      rw [List.append_cancel_left hms]
      exact ⟨List.append_cancel_left hms ▸ hrest, hfigure⟩
    · simp only [XrayVpnService.step] at hs
      split at hs
      · cases hs
      · rename_i job hj
        split at hs
        · cases hs
        · rename_i r pc' es' hstep
          obtain ⟨rfl, rfl⟩ := hs
          rw [hk, Option.any_some, hj, Option.any_some, ends_jobStep hstep hev hterminal] at hfailing
          cases hfailing

/-- **After the end of a session come no figures**, where it comes while the coroutines that are stopped ask
    at their next point, and a new session begins when the end of the one before has arrived. -/
theorem Served.ended (E : Ended x) (h : Served D x k l x')
    (hstart : ∀ uuid, l = .start uuid → ∀ ev ∈ x.messages, ev.ends = false)
    (hstop : l = .stop ∨ l = .onRevoke → x.stoppable k = true)
    (hdestroy : l = .onDestroy → x.stoppable k = true ∨
      (x.services[k]?.any fun svc => svc.controller = none && decide (svc.tunFd < 0)) = true)
    (hjob : ∀ j inp, l = .job j inp → x.rests = true ∨
      (x.services[k]?.any fun svc => svc.jobs[j]?.any (·.pc.failing)) = false) : Ended x' := by
  have hrests := h.rests
  cases h with
  | mk svc svc' es hk hs =>
    have hends : ∀ ev ∈ XraySession.sent es, ev.ends = true →
        ({ x with services := x.services.set k svc', messages := x.messages ++ XraySession.sent es } :
          XraySession).rests = true ∧ ∀ e ∈ XraySession.sent es, e.figure = false :=
      fun ev hev hterminal => ends_served hk hs hstop hdestroy hjob hev hterminal
    by_cases hl : ∃ uuid, l = .start uuid
    · obtain ⟨uuid, rfl⟩ := hl
      have hnone := hstart uuid rfl
      have hsent : XraySession.sent es = [] := by
        simp only [XrayVpnService.step] at hs
        split at hs
        · cases hs
        · obtain ⟨rfl, rfl⟩ := hs
          rfl
      rw [hsent, List.append_nil]
      refine ⟨fun ev hev hterminal => ?_, E.behind⟩
      rw [hnone ev hev] at hterminal
      cases hterminal
    · have hold := hrests fun uuid he => hl ⟨uuid, he⟩
      have hnew : ∀ a ∈ x.messages, a.ends = true → ∀ e ∈ XraySession.sent es, e.figure = false := by
        intro a ha hterminal
        obtain ⟨-, ms, hms, hfigure⟩ := hold (E.rests a ha hterminal)
        rw [List.append_cancel_left hms]
        exact hfigure
      refine ⟨fun ev hev hterminal => ?_, List.pairwise_append.2 ⟨E.behind, ?_, ?_⟩⟩
      · rcases List.mem_append.mp hev with hev | hev
        · exact (hold (E.rests ev hev hterminal)).1
        · exact (hends ev hev hterminal).1
      · exact List.pairwise_of_forall_mem_list fun a ha b hb hterminal => (hends a ha hterminal).2 b hb
      · exact fun a ha b hb hterminal => hnew a ha hterminal b hb

/-- A message arrives. -/
theorem Ended.tail {ev : XrayEvent} {evs : List XrayEvent} (E : Ended x) (hm : x.messages = ev :: evs) :
    Ended { x with messages := evs } ∧
      (ev.ends = true → x.rests = true ∧ ∀ e ∈ evs, e.figure = false) := by
  obtain ⟨hhead, htail⟩ := List.pairwise_cons.1 (hm ▸ E.behind)
  refine ⟨⟨fun e he hterminal => E.rests e (hm ▸ List.mem_cons_of_mem ev he) hterminal, htail⟩, fun hends => ?_⟩
  exact ⟨E.rests ev (hm ▸ List.mem_cons_self) hends, fun e he => hhead e he hends⟩

/-- A new instance rests. -/
theorem started_rests : x.started.rests = x.rests := by
  unfold XraySession.started
  split
  · split
    · unfold XraySession.rests
      dsimp only
      rw [List.all_append]
      exact Bool.and_true _
    · rfl
  · rename_i hnone
    rw [List.getLast?_eq_none_iff] at hnone
    unfold XraySession.rests
    rw [hnone]
    rfl

theorem Ended.started (E : Ended x) : Ended x.started := by
  refine ⟨fun ev hev hterminal => ?_, ?_⟩
  · rw [(started_eq x).2.2] at hev
    rw [started_rests]
    exact E.rests ev hev hterminal
  · rw [(started_eq x).2.2]
    exact E.behind

end Session

end SwiftVpn
