/-
  File:      SwiftVpn/Router/WgQuiet.lean
  Subject:   WHEN WIREGUARD IS QUIET: what its calls, its DOWN jobs and its poll loops do to that.

  * `WgKept` -- a step that launches no poll loop, moves none, and gives none its tunnel back: a quiet
    driver stays quiet, and the stop of one that is not busy makes it quiet;
  * `Wired` -- a tunnel is made once, so no call brings up one that is up, and none that a loop has;
  * `WgOutcome` -- **each step keeps a quiet driver quiet, brings an active state, or stops**, for the calls
    (`ConnectMove.outcome`) and the poll loops (`loop_outcome`).

  A loop passes its check only while `active` is its own tunnel, and the stops clear `active` or cancel it.
  Between the check and the report nothing stops it, which is why the stops must not come there.
-/
import SwiftVpn.Router.Quiet
import SwiftVpn.WireGuard.Restarts

namespace SwiftVpn

open Machine

/-! ## 1. Hands and loops -/

/-- The tunnel that a call is about to bring up. -/
def Pc.inHand : Pc → Option WgTunnel
  | .wgConnect (.report t) | .wgConnect (.up t) => some t
  | _ => none

namespace Drivers

/-- The tunnels in the hands of the calls. -/
def hands (s : Drivers) : Nat → Option WgTunnel := field (·.pc.inHand) none s.app.calls

end Drivers

section WireGuard

variable {D : Stores} {s s' : Drivers}

theorem busy_wireguard_iff : s.busy .wireguard = false ↔
    (∀ lp ∈ s.loops, s.sending lp = false) ∧ ∀ c ∈ s.app.calls, c.pc ≠ .wgConnect .publish := by
  simp [Drivers.busy]

theorem quiet_wireguard_iff : s.quiet .wireguard = true ↔
    s.busy .wireguard = false ∧ ∀ lp ∈ s.loops, lp.pc = .done ∨ s.passes lp = false := by
  simp [Drivers.quiet]

/-- A step that launches no poll loop, moves none, and gives none its tunnel back. -/
structure WgKept (s s' : Drivers) : Prop where
  loops : ∀ lp' ∈ s'.loops, ∃ lp ∈ s.loops, lp'.pc = lp.pc ∧ lp'.tunnel = lp.tunnel ∧
    (lp.cancelled = true → lp'.cancelled = true)
  awaits : ∀ lp ∈ s.loops, ∀ i rx tx, lp.pc = .restarting i rx tx → s.awaits i = true →
    s'.awaits i = true
  calls : (∀ c ∈ s.app.calls, c.pc ≠ .wgConnect .publish) →
    ∀ c ∈ s'.app.calls, c.pc ≠ .wgConnect .publish
  active : ∀ lp ∈ s.loops, s'.app.wg.active = some lp.tunnel → s.app.wg.active = some lp.tunnel

theorem WgKept.notBusy (h : WgKept s s') (hs : s.busy .wireguard = false) :
    s'.busy .wireguard = false := by
  obtain ⟨hsending, hcalls⟩ := busy_wireguard_iff.1 hs
  refine busy_wireguard_iff.2 ⟨fun lp' hlp' => ?_, h.calls hcalls⟩
  obtain ⟨lp, hlp, hpc, -, -⟩ := h.loops lp' hlp'
  have hold := hsending lp hlp
  unfold Drivers.sending at hold ⊢
  rw [hpc]
  cases hat : lp.pc with
  | restarting i rx tx =>
    rw [hat] at hold
    dsimp only at hold ⊢
    rw [Bool.not_eq_false'] at hold ⊢
    exact h.awaits lp hlp i rx tx hat hold
  | sample | watch rx tx | bytes rx tx =>
    rw [hat] at hold
    cases hold
  | _ => rfl

/-- **A quiet driver stays quiet.** -/
theorem WgKept.quiet (h : WgKept s s') (hs : s.quiet .wireguard = true) : s'.quiet .wireguard = true := by
  obtain ⟨hbusy, hpasses⟩ := quiet_wireguard_iff.1 hs
  refine quiet_wireguard_iff.2 ⟨h.notBusy hbusy, fun lp' hlp' => ?_⟩
  obtain ⟨lp, hlp, hpc, htunnel, hcancelled⟩ := h.loops lp' hlp'
  rw [hpc]
  refine (hpasses lp hlp).imp id fun hold => ?_
  unfold Drivers.passes at hold ⊢
  rw [htunnel]
  simp only [Bool.and_eq_false_iff, Bool.not_eq_false', decide_eq_false_iff_not] at hold ⊢
  exact hold.imp hcancelled fun hne he => hne (h.active lp hlp he)

/-- **The stop of one that is not busy makes it quiet**: each loop is cancelled or has lost its tunnel. -/
theorem WgKept.stopped (h : WgKept s s') (hs : s.busy .wireguard = false)
    (hstopped : ∀ lp ∈ s'.loops, lp.cancelled = true ∨ s'.app.wg.active = none) :
    s'.quiet .wireguard = true := by
  refine quiet_wireguard_iff.2 ⟨h.notBusy hs, fun lp hlp => .inr ?_⟩
  unfold Drivers.passes
  rcases hstopped lp hlp with hcancelled | hnone
  · rw [hcancelled]
    rfl
  · rw [hnone]
    simp

/-- A step that is none of the driver's. -/
theorem WgKept.same (hcalls : s'.app.calls = s.app.calls) (hwg : s'.app.wg = s.app.wg)
    (hloops : s'.loops = s.loops) (hthrown : s'.thrown = s.thrown) : WgKept s s' where
  loops lp hlp := ⟨lp, hloops ▸ hlp, rfl, rfl, id⟩
  awaits lp _ i _ _ _ := by
    unfold Drivers.awaits
    rw [hcalls, hthrown]
    exact id
  calls := by
    rw [hcalls]
    exact id
  active lp _ := by
    rw [hwg]
    exact id

/-- A call that joins. -/
theorem WgKept.concat {c : Call} (hcalls : s'.app.calls = s.app.calls ++ [c]) (hc : c.pc.comingUp = false)
    (hpublish : c.pc ≠ .wgConnect .publish) (hwg : s'.app.wg = s.app.wg) (hloops : s'.loops = s.loops)
    (hthrown : s'.thrown = s.thrown) : WgKept s s' where
  loops lp hlp := ⟨lp, hloops ▸ hlp, rfl, rfl, id⟩
  awaits lp _ i _ _ _ := by
    have hsame : field (·.pc.comingUp) false s'.app.calls = field (·.pc.comingUp) false s.app.calls := by
      rw [hcalls]
      exact field_concat hc
    unfold Drivers.awaits
    rw [hthrown, hsame]
    exact id
  calls hold d hd := by
    rw [hcalls] at hd
    rcases List.mem_append.mp hd with hd | hd
    · exact hold d hd
    · rw [List.mem_singleton.mp hd]
      exact hpublish
  active lp _ := by
    rw [hwg]
    exact id

/-- The loops after a step that launches none. -/
theorem rebind_kept {loops : List PollLoop} {old new : Option WgTunnel} (hnew : new = old ∨ new = none) :
    ∀ lp' ∈ rebind loops old new, ∃ lp ∈ loops, lp'.pc = lp.pc ∧ lp'.tunnel = lp.tunnel ∧
      (lp.cancelled = true → lp'.cancelled = true) := by
  intro lp' hlp'
  unfold rebind at hlp'
  split at hlp'
  · exact ⟨lp', hlp', rfl, rfl, id⟩
  · rename_i hne
    rcases hnew with rfl | rfl
    · exact absurd rfl hne
    · rw [Option.toList_none, List.map_nil, List.append_nil] at hlp'
      obtain ⟨lp, hlp, rfl⟩ := List.mem_map.mp hlp'
      exact ⟨lp, hlp, rfl, rfl, fun _ => rfl⟩

theorem mem_rebind {loops : List PollLoop} {old new : Option WgTunnel} {lp : PollLoop}
    (h : lp ∈ rebind loops old new) : (∃ lp₀ ∈ loops, lp.tunnel = lp₀.tunnel) ∨ new = some lp.tunnel := by
  unfold rebind at h
  split at h
  · exact .inl ⟨lp, h, rfl⟩
  · rcases List.mem_append.mp h with h | h
    · obtain ⟨lp₀, hlp₀, rfl⟩ := List.mem_map.mp h
      exact .inl ⟨lp₀, hlp₀, rfl⟩
    · obtain ⟨t, ht, rfl⟩ := List.mem_map.mp h
      exact .inr (Option.mem_toList.mp ht)

/-- A tunnel is made once: each one that is known has been made, the one a call has in hand is in no other
    hand and not yet in the slot, and no loop runs that no `pollJob` names. -/
structure Wired (s : Drivers) : Prop where
  polled : s.app.wg.pollJob = none → ∀ lp ∈ s.loops, lp.cancelled = true
  loops : ∀ lp ∈ s.loops, lp.tunnel.id < s.app.wg.nextTunnel
  active : ∀ t, s.app.wg.active = some t → t.id < s.app.wg.nextTunnel
  pollJob : ∀ t, s.app.wg.pollJob = some t → t.id < s.app.wg.nextTunnel
  slot : ∀ t, s.app.wg.backend.currentTunnel = some t → t.id < s.app.wg.nextTunnel
  hands : ∀ i t, s.hands i = some t →
    t.id < s.app.wg.nextTunnel ∧ s.app.wg.backend.currentTunnel ≠ some t
  apart : ∀ i j t, s.hands i = some t → s.hands j = some t → i = j

theorem wired_init : Wired {} where
  polled _ lp hlp := absurd hlp List.not_mem_nil
  loops lp hlp := absurd hlp List.not_mem_nil
  active t ht := by cases ht
  pollJob t ht := by cases ht
  slot t ht := by cases ht
  hands i t ht := by cases ht
  apart i j t ht := by cases ht

/-- A step that makes no tunnel and launches no loop. -/
theorem Wired.kept (W : Wired s) (hnext : s'.app.wg.nextTunnel = s.app.wg.nextTunnel)
    (hloops : s'.loops = rebind s.loops s.app.wg.pollJob s'.app.wg.pollJob)
    (hpoll : s'.app.wg.pollJob = s.app.wg.pollJob ∨ s'.app.wg.pollJob = none)
    (hactive : s'.app.wg.active = s.app.wg.active ∨ s'.app.wg.active = none)
    (hslot : s'.app.wg.backend.currentTunnel = s.app.wg.backend.currentTunnel ∨
      s'.app.wg.backend.currentTunnel = none)
    (hhands : ∀ i t, s'.hands i = some t → s.hands i = some t) : Wired s' where
  polled hnone := by
    rw [hloops]
    rcases hpoll with hsame | hn
    · rw [hsame, rebind_self]
      exact W.polled (hsame ▸ hnone)
    · rw [hn]
      exact rebind_none s.loops W.polled
  loops lp hlp := by
    rw [hloops] at hlp
    obtain ⟨lp₀, hlp₀, -, ht, -⟩ := rebind_kept hpoll lp hlp
    rw [ht, hnext]
    exact W.loops lp₀ hlp₀
  active t ht := by
    rw [hnext]
    rcases hactive with hsame | hn
    · exact W.active t (hsame ▸ ht)
    · cases hn.symm.trans ht
  pollJob t ht := by
    rw [hnext]
    rcases hpoll with hsame | hn
    · exact W.pollJob t (hsame ▸ ht)
    · cases hn.symm.trans ht
  slot t ht := by
    rw [hnext]
    rcases hslot with hsame | hn
    · exact W.slot t (hsame ▸ ht)
    · cases hn.symm.trans ht
  hands i t ht := by
    obtain ⟨hlt, hne⟩ := W.hands i t (hhands i t ht)
    refine ⟨hnext ▸ hlt, ?_⟩
    rcases hslot with hsame | hn
    · rw [hsame]
      exact hne
    · rw [hn]
      exact fun h => by cases h
  apart i j t hi hj := W.apart i j t (hhands i t hi) (hhands j t hj)

/-- A call goes on, and launches no loop. -/
theorem WgKept.call {i : Nat} {c : Call} {pc' : Pc} (hi : s.app.calls[i]? = some c)
    (hcalls : s'.app.calls = s.app.calls.set i { c with pc := pc' })
    (hcoming : c.pc.comingUp = true → pc'.comingUp = true ∨ ∀ lp ∈ s.loops, Drivers.waitsFor i lp = false)
    (hpublish : pc' ≠ .wgConnect .publish)
    (hloops : s'.loops = rebind s.loops s.app.wg.pollJob s'.app.wg.pollJob)
    (hpoll : s'.app.wg.pollJob = s.app.wg.pollJob ∨ s'.app.wg.pollJob = none)
    (hthrown : s'.thrown = s.thrown)
    (hactive : ∀ lp ∈ s.loops, s'.app.wg.active = some lp.tunnel → s.app.wg.active = some lp.tunnel) :
    WgKept s s' where
  loops := hloops ▸ rebind_kept hpoll
  awaits lp hlp k rx tx hpc hawaits := by
    have hfield : field (·.pc.comingUp) false s'.app.calls =
        Function.update (field (·.pc.comingUp) false s.app.calls) i pc'.comingUp := by
      rw [hcalls]
      exact field_set hi
    unfold Drivers.awaits at hawaits ⊢
    rw [hthrown, hfield]
    simp only [Bool.or_eq_true] at hawaits ⊢
    refine hawaits.imp id fun hold => ?_
    by_cases hk : k = i
    · subst hk
      rw [Function.update_self]
      rw [field_eq hi] at hold
      refine (hcoming hold).resolve_right fun hnone => ?_
      have hwaits := hnone lp hlp
      unfold Drivers.waitsFor at hwaits
      rw [hpc] at hwaits
      simp at hwaits
    · rw [Function.update_of_ne hk]
      exact hold
  calls hold := by
    rw [hcalls]
    intro d hd
    rcases List.mem_or_eq_of_mem_set hd with hm | rfl
    · exact hold d hm
    · exact hpublish
  active := hactive

/-! ## 2. The calls -/

/-- What a step means for a router that WireGuard owns: it brings no state and leaves a quiet driver quiet,
    it comes from a driver that was not, it brings an active state, or it is a stop. -/
inductive WgOutcome (s s' : Drivers) (as : List Action) : Prop where
  | kept (hshown : ∀ a ∈ as, a.shown .wireguard = none) (hfigure : ∀ a ∈ as, a.figure = false)
      (h : s.quiet .wireguard = true → s'.quiet .wireguard = true)
  | loud (hshown : ∀ a ∈ as, a.shown .wireguard = none) (h : s.quiet .wireguard = false)
  | up (st : VpnState) (hst : lastShown .wireguard as = some st) (hfigure : ∀ a ∈ as, a.figure = false)
      (h : st.isActive = true)
  | stopped (hfigure : ∀ a ∈ as, a.figure = false) (h : s'.quiet .wireguard = true)

/-- The process after the call `i` went from `pc` to `pc'` inside the driver. -/
structure CallStep (s s' : Drivers) (i : Nat) (c : Call) (pc pc' : WgPc) : Prop where
  call : s.app.calls[i]? = some c
  pc : c.pc = .wgConnect pc
  calls : s'.app.calls = s.app.calls.set i { c with pc := .wgConnect pc' }
  loops : s'.loops = rebind s.loops s.app.wg.pollJob s'.app.wg.pollJob
  thrown : s'.thrown = s.thrown

section Call

variable {i : Nat} {c : Call} {pc pc' : WgPc} {inp : WgInput}

theorem CallStep.hands (h : CallStep s s' i c pc pc') :
    s'.hands = Function.update s.hands i (Pc.wgConnect pc').inHand := by
  unfold Drivers.hands
  rw [h.calls]
  exact field_set h.call

theorem CallStep.hand (h : CallStep s s' i c pc pc') : s.hands i = (Pc.wgConnect pc).inHand := by
  rw [← h.pc]
  exact field_eq h.call

/-- A call that takes no tunnel in hand. -/
theorem CallStep.hands_kept (h : CallStep s s' i c pc pc')
    (hin : (Pc.wgConnect pc').inHand = none ∨ (Pc.wgConnect pc').inHand = (Pc.wgConnect pc).inHand) :
    ∀ k t, s'.hands k = some t → s.hands k = some t := by
  intro k t ht
  rw [h.hands] at ht
  by_cases hk : k = i
  · subst hk
    rw [Function.update_self] at ht
    rcases hin with hnone | hsame
    · cases hnone.symm.trans ht
    · rw [h.hand, ← hsame]
      exact ht
  · rwa [Function.update_of_ne hk] at ht

/-- A call that brings its tunnel up, or the one before it up again. -/
theorem Wired.raised (W : Wired s) (h : CallStep s s' i c pc pc') {t : WgTunnel}
    (ht : (Pc.wgConnect pc).inHand = some t) (ht' : (Pc.wgConnect pc').inHand = none)
    (hnext : s'.app.wg.nextTunnel = s.app.wg.nextTunnel) (hactive : s'.app.wg.active = s.app.wg.active)
    (hpoll : s'.app.wg.pollJob = s.app.wg.pollJob ∨ s'.app.wg.pollJob = s.app.wg.active)
    (hslot : s'.app.wg.backend.currentTunnel = s.app.wg.backend.currentTunnel ∨
      s'.app.wg.backend.currentTunnel = some t) : Wired s' := by
  have hkept := h.hands_kept (.inl ht')
  have hjob : ∀ u, s'.app.wg.pollJob = some u → u.id < s.app.wg.nextTunnel := by
    intro u hu
    rcases hpoll with hsame | hsame
    · exact W.pollJob u (hsame ▸ hu)
    · exact W.active u (hsame ▸ hu)
  refine ⟨fun hnone => ?_, fun lp hlp => ?_, fun u hu => ?_, fun u hu => ?_, fun u hu => ?_, fun k u hu => ?_,
    fun k j u hk hj => W.apart k j u (hkept k u hk) (hkept j u hj)⟩
  · rw [h.loops, hnone]
    exact rebind_none s.loops W.polled
  · rw [hnext]
    rw [h.loops] at hlp
    rcases mem_rebind hlp with ⟨lp₀, hlp₀, hsame⟩ | hnew
    · rw [hsame]
      exact W.loops lp₀ hlp₀
    · exact hjob _ hnew
  · rw [hnext]
    exact W.active u (hactive ▸ hu)
  · rw [hnext]
    exact hjob u hu
  · rw [hnext]
    rcases hslot with hsame | hsame
    · exact W.slot u (hsame ▸ hu)
    · exact (W.hands i u (h.hand.trans (ht.trans (hsame.symm.trans hu)))).1
  · have hold := hkept k u hu
    obtain ⟨hlt, hne⟩ := W.hands k u hold
    refine ⟨hnext ▸ hlt, ?_⟩
    rcases hslot with hsame | hsame
    · rw [hsame]
      exact hne
    · rw [hsame]
      intro he
      -- the tunnel in the slot was in no other hand
      have hki : k = i := W.apart k i u hold (h.hand.trans (ht.trans he))
      rw [hki, h.hands, Function.update_self, ht'] at hu
      cases hu

/-- A call that makes its tunnel. -/
theorem Wired.created (W : Wired s)
    (h : CallStep s s' i c .create (.report ⟨s.app.wg.nextTunnel, c.uuid⟩))
    (hwg : s'.app.wg = { s.app.wg with active := some ⟨s.app.wg.nextTunnel, c.uuid⟩
                                       nextTunnel := s.app.wg.nextTunnel + 1 }) : Wired s' := by
  have hnext : s'.app.wg.nextTunnel = s.app.wg.nextTunnel + 1 := by rw [hwg]
  have hpoll : s'.app.wg.pollJob = s.app.wg.pollJob := by rw [hwg]
  have hslot : s'.app.wg.backend = s.app.wg.backend := by rw [hwg]
  have hloops : s'.loops = s.loops := by rw [h.loops, hpoll, rebind_self]
  have hhands : ∀ {k : Nat} {t : WgTunnel}, s'.hands k = some t →
      k ≠ i ∧ s.hands k = some t ∨ k = i ∧ t = ⟨s.app.wg.nextTunnel, c.uuid⟩ := by
    intro k t ht
    rw [h.hands] at ht
    by_cases hk : k = i
    · subst hk
      rw [Function.update_self] at ht
      exact .inr ⟨rfl, (Option.some.inj ht).symm⟩
    · rw [Function.update_of_ne hk] at ht
      exact .inl ⟨hk, ht⟩
  -- the new tunnel is none of those before
  have hnew : ∀ {t : WgTunnel}, t.id < s.app.wg.nextTunnel → t ≠ ⟨s.app.wg.nextTunnel, c.uuid⟩ := by
    rintro t hlt rfl
    exact absurd hlt (Nat.lt_irrefl _)
  refine ⟨fun hnone => ?_, fun lp hlp => ?_, fun t ht => ?_, fun t ht => ?_, fun t ht => ?_, fun k t ht => ?_,
    fun k j t hk hj => ?_⟩
  · rw [hloops]
    exact W.polled (hpoll ▸ hnone)
  · rw [hnext]
    exact Nat.lt_succ_of_lt (W.loops lp (hloops ▸ hlp))
  · rw [hwg] at ht
    obtain rfl := Option.some.inj ht
    rw [hnext]
    exact Nat.lt_succ_self _
  · rw [hnext]
    exact Nat.lt_succ_of_lt (W.pollJob t (hpoll ▸ ht))
  · rw [hslot] at ht
    rw [hnext]
    exact Nat.lt_succ_of_lt (W.slot t ht)
  · rw [hnext, hslot]
    rcases hhands ht with ⟨-, hold⟩ | ⟨-, rfl⟩
    · exact ⟨Nat.lt_succ_of_lt (W.hands k t hold).1, (W.hands k t hold).2⟩
    · exact ⟨Nat.lt_succ_self _, fun he => hnew (W.slot _ he) rfl⟩
  · rcases hhands hk with ⟨-, hk⟩ | ⟨rfl, rfl⟩
    · rcases hhands hj with ⟨-, hj⟩ | ⟨-, rfl⟩
      · exact W.apart k j t hk hj
      · exact absurd rfl (hnew (W.hands k _ hk).1)
    · rcases hhands hj with ⟨-, hj⟩ | ⟨rfl, -⟩
      · exact absurd rfl (hnew (W.hands j _ hj).1)
      · rfl

/-- **Each step of a call keeps the tunnels apart.** -/
theorem ConnectMove.wired {w : WireGuardEngine} {as : List Action} (W : Wired s)
    (hmove : ConnectMove D s.app.wg i c.uuid inp pc w pc' as) (h : CallStep s s' i c pc pc')
    (hwg : s'.app.wg = w) : Wired s' := by
  have hloops := h.loops
  cases hmove with
  | lock | unread | read | pace | settled | wake | publish | unlock | downOther | upRefused =>
    exact W.kept (by rw [hwg]) hloops (.inl (by rw [hwg])) (.inl (by rw [hwg])) (.inl (by rw [hwg]))
      (h.hands_kept (.inl rfl))
  | report t =>
    exact W.kept (by rw [hwg]) hloops (.inl (by rw [hwg])) (.inl (by rw [hwg])) (.inl (by rw [hwg]))
      (h.hands_kept (.inr rfl))
  | idle ha =>
    exact W.kept (by rw [hwg]; rfl) hloops (.inr (by rw [hwg]; rfl)) (.inl (by rw [hwg]; rfl))
      (.inl (by rw [hwg]; rfl)) (h.hands_kept (.inl rfl))
  | take t ha =>
    exact W.kept (by rw [hwg]; rfl) hloops (.inr (by rw [hwg]; rfl)) (.inr (by rw [hwg]))
      (.inl (by rw [hwg]; rfl)) (h.hands_kept (.inl rfl))
  | failed f =>
    exact W.kept (by rw [hwg]) hloops (.inl (by rw [hwg])) (.inr (by rw [hwg])) (.inl (by rw [hwg]))
      (h.hands_kept (.inl rfl))
  | down t hb | upLost t o f g hb hf =>
    exact W.kept (by rw [hwg]) hloops (.inr (by rw [hwg])) (.inl (by rw [hwg])) (.inr (by rw [hwg]))
      (h.hands_kept (.inl rfl))
  | upFree t hb hf =>
    refine W.raised h rfl rfl (by rw [hwg]) (by rw [hwg]) ?_ (.inr (by rw [hwg]))
    rw [hwg]
    cases s.app.wg.pollJob with
    | none => exact .inr rfl
    | some u => exact .inl rfl
  | upSwap t o hb hf =>
    exact W.raised h rfl rfl (by rw [hwg]) (by rw [hwg]) (.inr (by rw [hwg])) (.inr (by rw [hwg]))
  | upBack t o f hb hf =>
    exact W.raised h rfl rfl (by rw [hwg]) (by rw [hwg]) (.inr (by rw [hwg])) (.inl (by rw [hwg, hb]))
  | upSame t hb =>
    exact W.raised h rfl rfl (by rw [hwg]) (by rw [hwg]) (.inl (by rw [hwg])) (.inl (by rw [hwg]))
  | create => exact W.created h hwg

/-- The points of a call at which it may end a session. -/
def WgPc.ends : WgPc → Bool
  | .down _ | .up _ | .failed _ => true
  | _ => false

/-- A step of a call that launches no loop. -/
theorem ConnectMove.kept {w : WireGuardEngine} {as : List Action} (W : Wired s)
    (hmove : ConnectMove D s.app.wg i c.uuid inp pc w pc' as) (h : CallStep s s' i c pc pc')
    (hwg : s'.app.wg = w) (hpoll : w.pollJob = s.app.wg.pollJob ∨ w.pollJob = none)
    (hpublish : pc' ≠ .publish)
    (hfailed : ∀ f, pc = .failed f → ∀ lp ∈ s.loops, Drivers.waitsFor i lp = false) : WgKept s s' := by
  refine .call h.call h.calls (fun hcoming => ?_) (fun he => hpublish (Pc.wgConnect.inj he)) h.loops
    (hwg ▸ hpoll) h.thrown fun lp hlp hactive => ?_
  · rw [h.pc] at hcoming
    cases hmove with
    | failed f => exact .inr (hfailed f rfl)
    | upFree | upSwap | upSame => exact absurd rfl hpublish
    | lock | unread | read | idle | take | publish | unlock => cases hcoming
    | _ => exact .inl rfl
  · rw [hwg] at hactive
    cases hmove with
    | create =>
      -- no loop has the tunnel that is being made
      have hlt := W.loops lp hlp
      rw [← Option.some.inj hactive] at hlt
      exact absurd hlt (Nat.lt_irrefl _)
    | take | failed => cases hactive
    | _ => exact hactive

theorem cancelled_of_pollJob (W : Wired s) (h : CallStep s s' i c pc pc') (hnone : s'.app.wg.pollJob = none) :
    ∀ lp ∈ s'.loops, lp.cancelled = true ∨ s'.app.wg.active = none := by
  rw [h.loops, hnone]
  exact fun lp hlp => .inl (rebind_none s.loops W.polled lp hlp)

/-- **Each step of a call keeps a quiet driver quiet, brings an active state, or stops.** -/
theorem ConnectMove.outcome {w : WireGuardEngine} {as : List Action} (W : Wired s)
    (hmove : ConnectMove D s.app.wg i c.uuid inp pc w pc' as) (h : CallStep s s' i c pc pc')
    (hwg : s'.app.wg = w) (hends : pc.ends = true → s.busy .wireguard = false)
    (hfailed : ∀ f, pc = .failed f → ∀ lp ∈ s.loops, Drivers.waitsFor i lp = false) :
    WgOutcome s s' as := by
  have hkept := hmove.kept W h hwg
  cases hmove with
  | lock | unread | read | idle | take | downOther | pace | settled | wake | create | unlock | upRefused =>
    refine .kept (fun a ha => absurd ha List.not_mem_nil) (fun a ha => absurd ha List.not_mem_nil) ?_
    first
      | exact (hkept (.inl rfl) (fun he => by cases he) hfailed).quiet
      | exact (hkept (.inr rfl) (fun he => by cases he) hfailed).quiet
  | down t hb | upLost t o f g hb hf =>
    have hk := hkept (.inr rfl) (fun he => by cases he) hfailed
    exact .stopped (by simp [WireGuardEngine.stateActions, Action.figure])
      (hk.stopped (hends rfl) (cancelled_of_pollJob W h (by rw [hwg])))
  | report t => exact .up .connecting rfl (by simp [Action.figure]) rfl
  | upFree t hb hf => exact .up .connected rfl (by simp [WireGuardEngine.stateActions, Action.figure]) rfl
  | upSwap t o hb hf => exact .up .connected rfl (by simp [WireGuardEngine.stateActions, Action.figure]) rfl
  | upBack t o f hb hf =>
    exact .up .connected rfl (by simp [WireGuardEngine.stateActions, Action.figure]) rfl
  | upSame t hb => exact absurd hb (W.hands i t h.hand).2
  | failed f =>
    have hk := hkept (.inl rfl) (fun he => by cases he) hfailed
    exact .stopped (by simp [Action.figure]) (hk.stopped (hends rfl) fun lp hlp => .inr (by rw [hwg]))
  | publish =>
    refine .loud (fun a ha => ?_) ?_
    · rcases List.mem_cons.mp ha with rfl | ha
      · rfl
      · obtain ⟨m, -, rfl⟩ := List.mem_map.mp ha
        rfl
    · refine Bool.eq_false_iff.mpr fun hquiet => ?_
      exact (busy_wireguard_iff.1 (quiet_wireguard_iff.1 hquiet).1).2 c (List.mem_of_getElem? h.call) h.pc

end Call

/-! ## 3. The other steps of the driver -/

/-- A step in which `stopPolling` is called, or nothing is. -/
structure Stopping (s s' : Drivers) : Prop where
  calls : s'.app.calls = s.app.calls
  thrown : s'.thrown = s.thrown
  loops : s'.loops = rebind s.loops s.app.wg.pollJob s'.app.wg.pollJob
  nextTunnel : s'.app.wg.nextTunnel = s.app.wg.nextTunnel
  pollJob : s'.app.wg.pollJob = s.app.wg.pollJob ∨ s'.app.wg.pollJob = none
  active : s'.app.wg.active = s.app.wg.active ∨ s'.app.wg.active = none
  slot : s'.app.wg.backend.currentTunnel = s.app.wg.backend.currentTunnel ∨
    s'.app.wg.backend.currentTunnel = none

theorem Stopping.wired (W : Wired s) (h : Stopping s s') : Wired s' := by
  refine W.kept h.nextTunnel h.loops h.pollJob h.active h.slot fun k t ht => ?_
  unfold Drivers.hands at ht ⊢
  rwa [h.calls] at ht

theorem Stopping.kept (h : Stopping s s') : WgKept s s' where
  loops := h.loops ▸ rebind_kept h.pollJob
  awaits lp _ k _ _ _ := by
    unfold Drivers.awaits
    rw [h.calls, h.thrown]
    exact id
  calls := by
    rw [h.calls]
    exact id
  active lp _ he := by
    rcases h.active with hsame | hnone
    · exact hsame ▸ he
    · cases hnone.symm.trans he

/-- `stopPolling` of a driver that is not busy. -/
theorem Stopping.quiet (W : Wired s) (h : Stopping s s') (hs : s.busy .wireguard = false)
    (hnone : s'.app.wg.pollJob = none) : s'.quiet .wireguard = true := by
  refine h.kept.stopped hs ?_
  rw [h.loops, hnone]
  exact fun lp hlp => .inl (rebind_none s.loops W.polled lp hlp)

/-! ## 4. The poll loops -/

/-- What a poll loop tells the router: lines and figures, but for the end of one that has lost its tunnel. -/
theorem loopStep_told {q q' : PollSystem} {k : Nat} {lp : PollLoop} {inp : PollInput} {as : List Action}
    (h : q.loopStep k lp inp = some (q', as)) :
    (∀ a ∈ as, a.engine = some .wireguard) ∧
    (lp.pc = .wentDown → ∀ a ∈ as, a.figure = false) ∧
    (lp.pc ≠ .wentDown → ∀ a ∈ as, a.shown .wireguard = none) := by
  have hlines : ∀ (ms : List String) (now : Int), as = ms.map (.onLog .wireguard · now) →
      (∀ a ∈ as, a.engine = some .wireguard) ∧ (lp.pc = .wentDown → ∀ a ∈ as, a.figure = false) ∧
        (lp.pc ≠ .wentDown → ∀ a ∈ as, a.shown .wireguard = none) := by
    rintro ms now rfl
    simp [Action.engine, Action.figure, Action.shown]
  unfold PollSystem.loopStep at h
  cases hpc : lp.pc with
  | head | check =>
    simp only [hpc] at h
    split at h <;>
      · obtain ⟨rfl, rfl⟩ := h
        exact hpc ▸ hlines [] 0 rfl
  | sample =>
    simp only [hpc] at h
    split at h <;>
      · obtain ⟨rfl, rfl⟩ := h
        exact hpc ▸ hlines [] 0 rfl
  | watch rx tx =>
    simp only [hpc] at h
    rw [← hpc]
    split at h
    · split at h
      · unfold PollSystem.stalled at h
        split at h
        · split at h <;>
            · obtain ⟨rfl, rfl⟩ := h
              exact hlines [_] _ rfl
        · obtain ⟨rfl, rfl⟩ := h
          exact hlines [_] _ rfl
      · obtain ⟨rfl, rfl⟩ := h
        exact hlines [] 0 rfl
    · obtain ⟨rfl, rfl⟩ := h
      exact hlines [] 0 rfl
  | restarting i rx tx =>
    simp only [hpc] at h
    rw [← hpc]
    split at h
    · cases h
    · split at h
      · split at h
        · obtain ⟨rfl, rfl⟩ := h
          exact hlines [] 0 rfl
        · rename_i err _ _
          obtain ⟨rfl, rfl⟩ := h
          refine hlines (err.toList.map ("WireGuard auto-restart failed: " ++ ·)) inp.now ?_
          rw [List.map_map]
          rfl
      · cases h
  | bytes rx tx =>
    simp only [hpc] at h
    obtain ⟨rfl, rfl⟩ := h
    have hbytes : ∃ inB outB dIn dOut,
        PollSystem.bytesAction lp rx tx = .onBytes .wireguard inB outB dIn dOut := by
      unfold PollSystem.bytesAction
      split
      · exact ⟨_, _, _, _, rfl⟩
      · exact ⟨_, _, _, _, rfl⟩
    obtain ⟨inB, outB, dIn, dOut, hb⟩ := hbytes
    rw [hb]
    simp [Action.engine, Action.shown]
  | wentDown =>
    simp only [hpc] at h
    obtain ⟨rfl, rfl⟩ := h
    simp [Action.engine, Action.figure]
  | delay wake =>
    simp only [hpc] at h
    rw [← hpc]
    split at h
    · obtain ⟨rfl, rfl⟩ := h
      exact hlines [] 0 rfl
    · cases h
  | done =>
    simp only [hpc] at h
    cases h

/-- What a step of a poll loop moves. -/
theorem LoopMove.moved {q q' : PollSystem} {k : Nat} {lp : PollLoop} {inp : PollInput} {as : List Action}
    (h : LoopMove q k lp inp q' as) :
    (∃ lp', q'.loops = q.loops.set k lp' ∧ lp'.tunnel = lp.tunnel ∧ lp'.cancelled = lp.cancelled) ∧
    (q'.calls = q.calls ∨ ∃ t, q'.calls = q.calls ++ [t] ∧ t.pc = .lock) ∧
    (q'.eng.active = q.eng.active ∨ q'.eng.active = none) := by
  cases h with
  | restart rx tx id as hpc hs h8 hid hr => exact ⟨⟨_, rfl, rfl, rfl⟩, .inr ⟨_, rfl, rfl⟩, .inl rfl⟩
  | wentDown => exact ⟨⟨_, rfl, rfl, rfl⟩, .inl rfl, .inr rfl⟩
  | _ => exact ⟨⟨_, rfl, rfl, rfl⟩, .inl rfl, .inl rfl⟩

/-- The calls after a step of a poll loop. -/
theorem looped_calls {p : PollSystem} {as : List Action} :
    (p.calls = s.polls.calls → (s.looped p as).app.calls = s.app.calls) ∧
    ∀ t, p.calls = s.polls.calls ++ [t] →
      (s.looped p as).app.calls = s.app.calls ++ [⟨t.uuid, .wireguard, .wgConnect t.pc⟩] := by
  have hlength : s.polls.calls.length = s.app.calls.length := List.length_mapIdx
  refine ⟨fun h => ?_, fun t h => ?_⟩ <;> unfold Drivers.looped <;> dsimp only <;> rw [h, ← hlength]
  · rw [List.drop_length, List.map_nil, List.append_nil]
  · rw [List.drop_left, List.map_singleton]

section Loop

variable {k : Nat} {lp lp' : PollLoop} {inp : PollInput} {p : PollSystem} {as : List Action}

/-- A loop that moves keeps the tunnels apart. -/
theorem Wired.goto (W : Wired s) (hk : s.loops[k]? = some lp) (hloops : s'.loops = s.loops.set k lp')
    (htunnel : lp'.tunnel = lp.tunnel) (hcancelled : lp'.cancelled = lp.cancelled)
    (hnext : s'.app.wg.nextTunnel = s.app.wg.nextTunnel) (hpoll : s'.app.wg.pollJob = s.app.wg.pollJob)
    (hactive : s'.app.wg.active = s.app.wg.active ∨ s'.app.wg.active = none)
    (hslot : s'.app.wg.backend = s.app.wg.backend) (hhands : s'.hands = s.hands) : Wired s' where
  polled hnone := by
    rw [hloops]
    exact allCancelled_set hk hcancelled (W.polled (hpoll ▸ hnone))
  loops x hx := by
    rw [hloops] at hx
    rw [hnext]
    rcases List.mem_or_eq_of_mem_set hx with hx | rfl
    · exact W.loops x hx
    · rw [htunnel]
      exact W.loops lp (List.mem_of_getElem? hk)
  active t ht := by
    rw [hnext]
    rcases hactive with hsame | hnone
    · exact W.active t (hsame ▸ ht)
    · cases hnone.symm.trans ht
  pollJob t ht := hnext ▸ W.pollJob t (hpoll ▸ ht)
  slot t ht := hnext ▸ W.slot t (hslot ▸ ht)
  hands i t ht := by
    rw [hnext, hslot]
    exact W.hands i t (hhands ▸ ht)
  apart i j t hi hj := W.apart i j t (hhands ▸ hi) (hhands ▸ hj)

theorem LoopMove.wired (W : Wired s) (hk : s.loops[k]? = some lp) (h : LoopMove s.polls k lp inp p as) :
    Wired (s.looped p as) := by
  obtain ⟨⟨lp', hloops, htunnel, hcancelled⟩, hcalls, hactive⟩ := h.moved
  obtain ⟨-, hback, hnext, -⟩ := h.frame
  have hhands : (s.looped p as).hands = s.hands := by
    unfold Drivers.hands
    rcases hcalls with hsame | ⟨t, hadded, hlock⟩
    · rw [looped_calls.1 hsame]
    · rw [looped_calls.2 t hadded, hlock]
      exact field_concat rfl
  exact W.goto hk hloops htunnel hcancelled hnext h.flags.1 hactive hback hhands

/-- A driver that is not busy stays so, where a loop goes to no point between the check and the report. -/
theorem notBusy_goto (hloops : s'.loops = s.loops.set k lp') (hcalls : s'.app.calls = s.app.calls)
    (hthrown : s'.thrown = s.thrown) (hsending : s.sending lp' = false) (hs : s.busy .wireguard = false) :
    s'.busy .wireguard = false := by
  obtain ⟨hold, hpublish⟩ := busy_wireguard_iff.1 hs
  refine busy_wireguard_iff.2 ⟨fun x hx => ?_, hcalls ▸ hpublish⟩
  have hsame : s'.sending x = s.sending x := by
    unfold Drivers.sending Drivers.awaits
    rw [hcalls, hthrown]
  rw [hsame]
  rw [hloops] at hx
  rcases List.mem_or_eq_of_mem_set hx with hx | rfl
  · exact hold x hx
  · exact hsending

theorem quiet_goto (hk : s.loops[k]? = some lp) (hpc : lp.pc ≠ .done ∨ lp'.pc = .done)
    (hloops : s'.loops = s.loops.set k lp') (htunnel : lp'.tunnel = lp.tunnel)
    (hcancelled : lp'.cancelled = lp.cancelled) (hcalls : s'.app.calls = s.app.calls)
    (hthrown : s'.thrown = s.thrown)
    (hactive : s'.app.wg.active = s.app.wg.active) (hsending : s.sending lp' = false)
    (hs : s.quiet .wireguard = true) : s'.quiet .wireguard = true := by
  obtain ⟨hbusy, hpasses⟩ := quiet_wireguard_iff.1 hs
  refine quiet_wireguard_iff.2 ⟨notBusy_goto hloops hcalls hthrown hsending hbusy, fun x hx => ?_⟩
  have hsame : ∀ y, s'.passes y = s.passes y := by
    intro y
    unfold Drivers.passes
    rw [hactive]
  rw [hsame]
  rw [hloops] at hx
  rcases List.mem_or_eq_of_mem_set hx with hx | rfl
  · exact hpasses x hx
  · refine hpc.symm.imp id fun hopen => ?_
    have hold := (hpasses lp (List.mem_of_getElem? hk)).resolve_left hopen
    unfold Drivers.passes at hold ⊢
    rw [htunnel, hcancelled]
    exact hold

/-- A loop that waits for a call which has returned goes on to its report, unless the call threw. -/
theorem sending_restarting {i : Nat} {rx tx : Int} {t : WgTask} {err : Option String}
    (hpc : lp.pc = .restarting i rx tx) (hi : s.polls.calls[i]? = some t) (hd : t.pc = .done err)
    (ht : t.thrown = false) : s.sending lp = true := by
  have hmap : (s.app.calls.mapIdx s.task)[i]? = some t := hi
  rw [List.getElem?_mapIdx] at hmap
  obtain ⟨c, hc, rfl⟩ := Option.map_eq_some_iff.mp hmap
  have hcoming : c.pc.comingUp = false := by
    unfold Drivers.task at hd
    dsimp only at hd
    cases hcpc : c.pc with
    | wgConnect pc =>
      rw [hcpc] at hd
      dsimp only at hd
      rw [hd]
      rfl
    | _ => rfl
  unfold Drivers.sending Drivers.awaits
  rw [hpc]
  dsimp only
  rw [field_eq hc, hcoming, Bool.or_false]
  exact congrArg Bool.not ht

/-- **Each step of a poll loop keeps a quiet driver quiet, or is a stop.** -/
theorem loop_outcome (hk : s.loops[k]? = some lp) (hstep : s.polls.loopStep k lp inp = some (p, as))
    (hdown : lp.pc = .wentDown → s.busy .wireguard = false) : WgOutcome s (s.looped p as) as := by
  obtain ⟨-, hfigure, hshown⟩ := loopStep_told hstep
  have hmem := List.mem_of_getElem? hk
  have hloud : s.sending lp = true → lp.pc ≠ .wentDown → WgOutcome s (s.looped p as) as := by
    refine fun hsending hpc => .loud (hshown hpc) (Bool.eq_false_iff.mpr fun hquiet => ?_)
    have hnot := (busy_wireguard_iff.1 (quiet_wireguard_iff.1 hquiet).1).1 lp hmem
    cases hsending.symm.trans hnot
  have hpoint : (lp.pc = .sample ∨ (∃ rx tx, lp.pc = .watch rx tx) ∨ ∃ rx tx, lp.pc = .bytes rx tx) →
      WgOutcome s (s.looped p as) as := by
    intro hpc
    refine hloud ?_ fun he => ?_
    · unfold Drivers.sending
      rcases hpc with hpc | ⟨rx, tx, hpc⟩ | ⟨rx, tx, hpc⟩ <;> rw [hpc]
    · rcases hpc with hpc | ⟨rx, tx, hpc⟩ | ⟨rx, tx, hpc⟩ <;> cases he.symm.trans hpc
  have hmove := loopStep_move hstep
  cases hmove with
  | enter hpc hc ha =>
    refine .loud (hshown (by rw [hpc]; simp)) (Bool.eq_false_iff.mpr fun hquiet => ?_)
    rcases (quiet_wireguard_iff.1 hquiet).2 lp hmem with hdone | hpasses
    · cases hpc.symm.trans hdone
    · have hactive : s.app.wg.active = some lp.tunnel := ha
      unfold Drivers.passes at hpasses
      rw [hc, decide_eq_true hactive] at hpasses
      cases hpasses
  | noSample hpc | sample rx tx hpc => exact hpoint (.inl hpc)
  | silent rx tx hpc | alive rx tx hpc | restart rx tx _ _ hpc | giveUp rx tx _ hpc =>
    exact hpoint (.inr (.inl ⟨rx, tx, hpc⟩))
  | bytes rx tx _ hpc => exact hpoint (.inr (.inr ⟨rx, tx, hpc⟩))
  | restarted i rx tx t err _ hpc hi hd ht =>
    exact hloud (sending_restarting hpc hi hd ht) fun he => by cases hpc.symm.trans he
  | unwound i rx tx t err hpc hi hd ht =>
    exact .kept (fun a ha => absurd ha List.not_mem_nil) (fun a ha => absurd ha List.not_mem_nil)
      (quiet_goto hk (.inl (by rw [hpc]; simp)) rfl rfl rfl (looped_calls.1 rfl) rfl rfl rfl)
  | leave hpc | up hpc | down hpc | wake w hpc =>
    exact .kept (fun a ha => absurd ha List.not_mem_nil) (fun a ha => absurd ha List.not_mem_nil)
      (quiet_goto hk (.inl (by rw [hpc]; simp)) rfl rfl rfl (looped_calls.1 rfl) rfl rfl rfl)
  | wentDown as hpc =>
    refine .stopped (hfigure hpc) (quiet_wireguard_iff.2 ⟨?_, fun x _ => .inr (Bool.and_false _)⟩)
    refine notBusy_goto rfl (looped_calls.1 rfl) rfl ?_ (hdown hpc)
    rfl

end Loop

/-- A call that throws: the loop that waits for it ends with it. -/
theorem kept_throwAt {i : Nat} {c : Call} {pc pc' : WgPc} (hi : s.app.calls[i]? = some c)
    (hpc' : pc = .lock ∧ pc' = .done none ∨ ∃ wake, pc = .delay wake ∧ pc' = .unlock none) :
    WgKept s (s.throwAt i c pc') where
  loops lp hlp := ⟨lp, hlp, rfl, rfl, id⟩
  awaits lp _ k _ _ _ hawaits := by
    have hfield : field (·.pc.comingUp) false (s.throwAt i c pc').app.calls =
        Function.update (field (·.pc.comingUp) false s.app.calls) i (Pc.wgConnect pc').comingUp := field_set hi
    have hthrown : (s.throwAt i c pc').thrown = i :: s.thrown := rfl
    unfold Drivers.awaits at hawaits ⊢
    rw [hfield, hthrown]
    by_cases hk : k = i
    · subst hk
      simp
    · rw [Function.update_of_ne hk]
      simpa [hk] using hawaits
  calls hold d hd := by
    rcases List.mem_or_eq_of_mem_set hd with hm | rfl
    · exact hold d hm
    · rcases hpc' with ⟨-, rfl⟩ | ⟨-, -, rfl⟩ <;> simp
  active _ _ he := he

theorem Wired.throwAt (W : Wired s) {i : Nat} {c : Call} {pc pc' : WgPc} (hi : s.app.calls[i]? = some c)
    (hpc' : pc = .lock ∧ pc' = .done none ∨ ∃ wake, pc = .delay wake ∧ pc' = .unlock none) :
    Wired (s.throwAt i c pc') := by
  refine W.kept rfl (rebind_self _ _).symm (.inl rfl) (.inl rfl) (.inl rfl) fun k t ht => ?_
  have hhands : (s.throwAt i c pc').hands = Function.update s.hands i (Pc.wgConnect pc').inHand := field_set hi
  rw [hhands] at ht
  by_cases hk : k = i
  · subst hk
    rw [Function.update_self] at ht
    rcases hpc' with ⟨-, rfl⟩ | ⟨-, -, rfl⟩ <;> cases ht
  · rwa [Function.update_of_ne hk] at ht

end WireGuard

end SwiftVpn
