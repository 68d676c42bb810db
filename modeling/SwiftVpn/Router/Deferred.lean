/-
  File:      SwiftVpn/Router/Deferred.lean
  Subject:   THE DEFERRED STOP OF OPENVPN: `disconnectPending` between a tap, the bind it asks for
             and the binder's arrival.

  * `StopLog` -- a monitor of the UI process. It numbers the commands in the order they are issued
    and remembers on behalf of which disconnect each stop thread acts, which connect started the
    OpenVPN session, the stops `onServiceConnected` launches (`launched`, with the latest connect of
    an OpenVPN profile at that moment) and the `stopVPN` calls they make (`stopped`, with the
    session they stop);
  * `uncontested` -- an OpenVPN profile is connected only while no deferred stop is pending;
  * `deferred_stops` -- along such steps a deferred stop never acts on a connect issued after its
    disconnect, and each deferred disconnect makes at most one `stopVPN` call;
  * `deferred_stop_late` -- without it, the stop of before ends the session of after.
-/
import SwiftVpn.Router.App

namespace SwiftVpn

open Machine

/-! ## 1. The monitor -/

structure StopLog where
  clock : Nat := 0
  /-- when each connect call was issued -/
  issued : List Nat := []
  /-- when the latest connect of an OpenVPN profile was issued -/
  latest : Option Nat := none
  /-- the disconnect `disconnectPending` stands for -/
  flagged : Option Nat := none
  /-- the deferred disconnect each stop thread acts for -/
  threads : List (Option Nat) := []
  /-- when the connect that started the OpenVPN session was issued -/
  session : Option Nat := none
  launched : List (Nat × Option Nat) := []
  stopped : List (Nat × Option Nat) := []
  deriving DecidableEq, Repr

namespace StopLog

/-- `disconnect`: a tap with no binder is the one the flag stands for from now on. -/
def onDisconnect (g : StopLog) (s : App) : StopLog :=
  if s.vpn.activeProtocol = .openvpn then
    if s.vpn.tunnelService then { g with clock := g.clock + 1, threads := g.threads ++ [none] }
    else { g with clock := g.clock + 1, flagged := some g.clock }
  else { g with clock := g.clock + 1 }

/-- `onServiceConnected`: the flag becomes a stop thread. -/
def onServiceConnected (g : StopLog) (s : App) : StopLog :=
  if s.vpn.disconnectPending then
    { g with threads := g.threads ++ [g.flagged], flagged := none
             launched := g.launched ++ (g.flagged.map fun d => (d, g.latest)).toList }
  else g

/-- A stop thread makes its call: the session is stopped. -/
def onStopVpn (g : StopLog) (k : Nat) : StopLog :=
  { g with session := none
           stopped := g.stopped ++ (g.threads[k]?.join.map fun d => (d, g.session)).toList }

/-- A step of a connect call. -/
def onCall (g : StopLog) (i : Nat) (es : List Effect) : StopLog :=
  if .stop .openvpn ∈ es then { g with threads := g.threads ++ [none] }
  else if .start .openvpn ∈ es then { g with session := g.issued[i]? }
  else g

def watch (D : Stores) (s : App) (l : Label) (es : List Effect) (g : StopLog) : StopLog :=
  match l with
  | .connect uuid =>
    { g with clock := g.clock + 1, issued := g.issued ++ [g.clock]
             latest := if D.protocolOf uuid = .openvpn then some g.clock else g.latest }
  | .disconnect _ => g.onDisconnect s
  | .call i _ => g.onCall i es
  | .serviceConnected => g.onServiceConnected s
  | .stopVpn k => g.onStopVpn k
  | _ => g

end StopLog

/-- The UI process under the monitor. -/
def stopStep (D : Stores) : App × StopLog → Label → Option (App × StopLog) :=
  observed (App.step D) (StopLog.watch D)

/-- An OpenVPN profile is connected only while no deferred stop is pending: the flag is down, and
    every stop thread it has become has made its call. -/
def uncontested (D : Stores) (x : App × StopLog) : Label → Bool
  | .connect uuid =>
    D.protocolOf uuid != .openvpn || (!x.1.vpn.disconnectPending &&
      (x.1.stops.zip x.2.threads).all fun t => t.1 || t.2 == none)
  | _ => true

/-- The labels the monitor does not look at. -/
def Label.fromDriver : Label → Bool
  | .job .. | .onDestroy _ | .pollDown _ | .callback .. | .xray .. | .serviceDisconnected => true
  | _ => false

/-! ## 2. What moves the flag and the threads -/

/-- Only its own assignment moves `disconnectPending`. -/
theorem performAll_disconnectPending (e : VpnEngine) {as : List Action}
    (h : ∀ a ∈ as, ∀ b, a ≠ .setDisconnectPending b) :
    (e.performAll as).disconnectPending = e.disconnectPending := by
  refine VpnEngine.performAll_inv (I := fun e' => e'.disconnectPending = e.disconnectPending)
    (fun a ha e' he => ?_) rfl
  refine Eq.trans ?_ he
  cases hl : a.links with
  | false => exact (VpnEngine.perform_sameLink e' hl).disconnectPending
  | true =>
    cases a with
    | setProtocol p => rfl
    | setTunnelService b => rfl
    | setDisconnectPending b => exact absurd rfl (h _ ha b)
    | _ => cases hl

theorem not_flag_of_engine {as : List Action} {p : Protocol} (h : ∀ a ∈ as, a.engine = some p) :
    ∀ a ∈ as, ∀ b, a ≠ .setDisconnectPending b := by
  rintro a ha b rfl
  cases h _ ha

/-- A step of a call: it does not touch the flag, and adds a stop thread exactly where it says
    so. -/
theorem CallMove.stops {D : Stores} {s s' : App} {i : Nat} {uuid : Uuid} {protocol : Protocol}
    {inp : Input} {pc pc' : Pc} {es : List Effect}
    (h : CallMove D s i uuid protocol inp pc s' pc' es) :
    (∀ a ∈ accesses es, ∀ b, a ≠ .setDisconnectPending b) ∧
    (if .stop .openvpn ∈ es then s'.stops = s.stops ++ [false] else s'.stops = s.stops) ∧
    (.start .openvpn ∈ es → pc.home = some .openvpn) := by
  cases h with
  | wgStep pc pc' w as hf hw =>
    have hwg : ∀ {f : Effect}, f = .stop .openvpn ∨ f = .start .openvpn →
        f ∉ App.wgEffects s.wg pc ++ as.map .router := by
      intro f hf hm
      rcases List.mem_append.mp hm with hm | hm
      · rcases mem_wgEffects hm with rfl | rfl <;> simp at hf
      · obtain ⟨a, -, rfl⟩ := List.mem_map.mp hm
        simp at hf
    refine ⟨?_, ?_, fun hm => absurd hm (hwg (Or.inr rfl))⟩
    · simp only [accesses_append, accesses_wgEffects, accesses_map, List.nil_append]
      exact not_flag_of_engine (connectStep_move hw).engine
    · rw [if_neg (hwg (Or.inl rfl))]
  | ovpnStop hp ha hb => exact ⟨by simp, by simp, by simp⟩
  | ovpnStarted hs => exact ⟨by simp, by simp, fun _ => rfl⟩
  | _ => exact ⟨by simp [XrayEvent.actions], by simp [XrayEvent.actions],
      by simp [XrayEvent.actions]⟩

/-! ## 3. The invariant -/

structure StopInv (s : App) (g : StopLog) : Prop where
  home : AtHome s
  issuedLen : g.issued.length = s.calls.length
  issuedLt : ∀ t ∈ g.issued, t < g.clock
  latestLt : ∀ m, g.latest = some m → m < g.clock
  /-- `latest` is no earlier than any connect of an OpenVPN profile -/
  latestMax : ∀ (i : Nat) (c : Call) (t : Nat), s.calls[i]? = some c → c.protocol = .openvpn →
    g.issued[i]? = some t → ∃ m, g.latest = some m ∧ t ≤ m
  sessionMax : ∀ t, g.session = some t → ∃ m, g.latest = some m ∧ t ≤ m
  flag : s.vpn.disconnectPending = g.flagged.isSome
  /-- no OpenVPN profile was connected since the disconnect the flag stands for -/
  flagged : ∀ d, g.flagged = some d → d < g.clock ∧ ∀ m, g.latest = some m → m < d
  threadsLen : g.threads.length = s.stops.length
  /-- nor since the disconnect of a stop thread that is still to run -/
  waiting : ∀ (k d : Nat), g.threads[k]? = some (some d) → d < g.clock ∧
    (s.stops[k]? = some false → ∀ m, g.latest = some m → m < d)
  threadInj : ∀ (k k' d : Nat), g.threads[k]? = some (some d) → g.threads[k']? = some (some d) →
    k = k'
  threadFlag : ∀ (k d : Nat), g.threads[k]? = some (some d) → g.flagged ≠ some d
  launched : ∀ d k, (d, some k) ∈ g.launched → k < d
  stopped : ∀ d c, (d, some c) ∈ g.stopped → c < d
  ran : ∀ p ∈ g.stopped, ∃ k : Nat, s.stops[k]? = some true ∧ g.threads[k]? = some (some p.1)
  once : (g.stopped.map Prod.fst).Nodup

theorem stopInv_init : StopInv {} {} where
  home c hc := by simp at hc
  issuedLen := rfl
  issuedLt t ht := by simp at ht
  latestLt m hm := by simp at hm
  latestMax i c t hi := by simp at hi
  sessionMax t ht := by simp at ht
  flag := rfl
  flagged d hd := by simp at hd
  threadsLen := rfl
  waiting k d hk := by simp at hk
  threadInj k k' d hk := by simp at hk
  threadFlag k d hk := by simp at hk
  launched d k hk := by simp at hk
  stopped d c hc := by simp at hc
  ran p hp := by simp at hp
  once := by simp

section StopSteps

variable {s s' : App} {g : StopLog}

/-- A step that moves neither the calls' protocols nor the flag nor the threads. -/
theorem StopInv.same (I : StopInv s g) (hhome : AtHome s')
    (hlen : s'.calls.length = s.calls.length)
    (hprot : ∀ (i : Nat) (c' : Call), s'.calls[i]? = some c' →
      ∃ c, s.calls[i]? = some c ∧ c.protocol = c'.protocol)
    (hflag : s'.vpn.disconnectPending = s.vpn.disconnectPending) (hstops : s'.stops = s.stops) :
    StopInv s' g where
  home := hhome
  issuedLen := I.issuedLen.trans hlen.symm
  issuedLt := I.issuedLt
  latestLt := I.latestLt
  latestMax i c' t hi hc := by
    obtain ⟨c, hi', hp⟩ := hprot i c' hi
    exact I.latestMax i c t hi' (hp.trans hc)
  sessionMax := I.sessionMax
  flag := hflag.trans I.flag
  flagged := I.flagged
  threadsLen := by rw [hstops]; exact I.threadsLen
  waiting := by rw [hstops]; exact I.waiting
  threadInj := I.threadInj
  threadFlag := I.threadFlag
  launched := I.launched
  stopped := I.stopped
  ran := by rw [hstops]; exact I.ran
  once := I.once

/-- A stop thread that acts for no deferred disconnect. -/
theorem StopInv.ownThread (I : StopInv s g) (hs : s' = { s with stops := s.stops ++ [false] }) :
    StopInv s' { g with threads := g.threads ++ [none] } := by
  subst hs
  have hold : ∀ {k d : Nat}, (g.threads ++ [none])[k]? = some (some d) →
      g.threads[k]? = some (some d) := by
    intro k d hk
    rcases get_concat hk with hk | ⟨-, hk⟩
    · exact hk
    · cases hk
  exact
    { I with
      threadsLen := by simp [I.threadsLen]
      waiting := fun k d hk => by
        refine ⟨(I.waiting k d (hold hk)).1, fun hf m hm => ?_⟩
        have hlt : k < s.stops.length :=
          I.threadsLen ▸ (List.getElem?_eq_some_iff.mp (hold hk)).1
        rw [List.getElem?_append_left hlt] at hf
        exact (I.waiting k d (hold hk)).2 hf m hm
      threadInj := fun k k' d hk hk' => I.threadInj k k' d (hold hk) (hold hk')
      threadFlag := fun k d hk => I.threadFlag k d (hold hk)
      ran := fun p hp => by
        obtain ⟨k, hk, ht⟩ := I.ran p hp
        refine ⟨k, ?_, ?_⟩
        · rw [List.getElem?_append_left (List.getElem?_eq_some_iff.mp hk).1]
          exact hk
        · rw [List.getElem?_append_left (List.getElem?_eq_some_iff.mp ht).1]
          exact ht }

/-- A new connect: of an OpenVPN profile only while nothing deferred is pending. -/
theorem StopInv.connect {D : Stores} (I : StopInv s g) (uuid : Uuid)
    (hu : uncontested D (s, g) (.connect uuid) = true)
    (hs : s' = { s with calls := s.calls ++ [⟨uuid, D.protocolOf uuid, .stopOpenVpn⟩] })
    (hhome : AtHome s') :
    StopInv s' { g with clock := g.clock + 1, issued := g.issued ++ [g.clock]
                        latest := if D.protocolOf uuid = .openvpn then some g.clock
                          else g.latest } := by
  subst hs
  have hclock : ∀ m, (if D.protocolOf uuid = .openvpn then some g.clock else g.latest) = some m →
      m < g.clock + 1 := by
    intro m hm
    split at hm
    · obtain rfl := Option.some.inj hm
      exact Nat.lt_succ_self _
    · exact Nat.lt_succ_of_lt (I.latestLt m hm)
  have hge : ∀ m t, g.latest = some m → t ≤ m → ∃ m',
      (if D.protocolOf uuid = .openvpn then some g.clock else g.latest) = some m' ∧ t ≤ m' := by
    intro m t hm ht
    split
    · exact ⟨g.clock, rfl, Nat.le_of_lt (Nat.lt_of_le_of_lt ht (I.latestLt m hm))⟩
    · exact ⟨m, hm, ht⟩
  refine
    { I with
      home := hhome
      issuedLen := by simp [I.issuedLen]
      issuedLt := fun t ht => ?_
      latestLt := hclock
      latestMax := fun i c t hi hp ht => ?_
      sessionMax := fun t ht => ?_
      flagged := fun d hd => ?_
      waiting := fun k d hk => ?_ }
  · rcases List.mem_append.mp ht with ht | ht
    · exact Nat.lt_succ_of_lt (I.issuedLt t ht)
    · rw [List.mem_singleton.mp ht]
      exact Nat.lt_succ_self _
  · rcases get_concat hi with hi | ⟨rfl, rfl⟩
    · have hlt : i < g.issued.length := I.issuedLen ▸ (List.getElem?_eq_some_iff.mp hi).1
      rw [List.getElem?_append_left hlt] at ht
      obtain ⟨m, hm, htm⟩ := I.latestMax i c t hi hp ht
      exact hge m t hm htm
    · rw [if_pos hp]
      have htc : t = g.clock := by
        rcases get_concat ht with ht | ⟨-, rfl⟩
        · have hlt := (List.getElem?_eq_some_iff.mp ht).1
          rw [I.issuedLen] at hlt
          exact absurd hlt (Nat.lt_irrefl _)
        · rfl
      exact ⟨g.clock, rfl, Nat.le_of_eq htc⟩
  · obtain ⟨m, hm, htm⟩ := I.sessionMax t ht
    exact hge m t hm htm
  · refine ⟨Nat.lt_succ_of_lt (I.flagged d hd).1, fun m hm => ?_⟩
    split at hm
    · rename_i hp
      -- the flag is down
      have hdown : s.vpn.disconnectPending = false := by
        simp only [uncontested, hp, bne_self_eq_false, Bool.false_or, Bool.and_eq_true,
          Bool.not_eq_true'] at hu
        exact hu.1
      rw [I.flag, hd] at hdown
      cases hdown
    · exact (I.flagged d hd).2 m hm
  · refine ⟨Nat.lt_succ_of_lt (I.waiting k d hk).1, fun hf m hm => ?_⟩
    split at hm
    · rename_i hp
      -- every thread of the flag has run
      simp only [uncontested, hp, bne_self_eq_false, Bool.false_or, Bool.and_eq_true] at hu
      have hall := List.all_eq_true.mp hu.2 (false, some d)
        (List.mem_of_getElem? (List.getElem?_zip_eq_some.mpr ⟨hf, hk⟩))
      cases hall
    · exact (I.waiting k d hk).2 hf m hm

/-- A command passes. -/
theorem StopInv.tick (I : StopInv s g) : StopInv s { g with clock := g.clock + 1 } :=
  { I with
    issuedLt := fun t ht => Nat.lt_succ_of_lt (I.issuedLt t ht)
    latestLt := fun m hm => Nat.lt_succ_of_lt (I.latestLt m hm)
    flagged := fun d hd => ⟨Nat.lt_succ_of_lt (I.flagged d hd).1, (I.flagged d hd).2⟩
    waiting := fun k d hk => ⟨Nat.lt_succ_of_lt (I.waiting k d hk).1, (I.waiting k d hk).2⟩ }

/-- A disconnect with no binder: the flag stands for it. -/
theorem StopInv.defer (I : StopInv s g) (hcalls : s'.calls = s.calls) (hstops : s'.stops = s.stops)
    (hflag : s'.vpn.disconnectPending = true) :
    StopInv s' { g with clock := g.clock + 1, flagged := some g.clock } where
  home := fun c hc => I.home c (hcalls ▸ hc)
  issuedLen := by rw [hcalls]; exact I.issuedLen
  issuedLt t ht := Nat.lt_succ_of_lt (I.issuedLt t ht)
  latestLt m hm := Nat.lt_succ_of_lt (I.latestLt m hm)
  latestMax := by rw [hcalls]; exact I.latestMax
  sessionMax := I.sessionMax
  flag := hflag
  flagged d hd := by
    obtain rfl := Option.some.inj hd
    exact ⟨Nat.lt_succ_self _, I.latestLt⟩
  threadsLen := by rw [hstops]; exact I.threadsLen
  waiting k d hk := by
    rw [hstops]
    exact ⟨Nat.lt_succ_of_lt (I.waiting k d hk).1, (I.waiting k d hk).2⟩
  threadInj := I.threadInj
  threadFlag k d hk hd := by
    obtain rfl := Option.some.inj hd
    exact Nat.lt_irrefl _ (I.waiting k _ hk).1
  launched := I.launched
  stopped := I.stopped
  ran := by rw [hstops]; exact I.ran
  once := I.once

/-- The binder arrives while the flag is up. -/
theorem StopInv.launch (I : StopInv s g) (hcalls : s'.calls = s.calls)
    (hstops : s'.stops = s.stops ++ [false]) (hflag : s'.vpn.disconnectPending = false) :
    StopInv s' { g with threads := g.threads ++ [g.flagged], flagged := none
                        launched := g.launched ++
                          (g.flagged.map fun d => (d, g.latest)).toList } where
  home := fun c hc => I.home c (hcalls ▸ hc)
  issuedLen := by rw [hcalls]; exact I.issuedLen
  issuedLt := I.issuedLt
  latestLt := I.latestLt
  latestMax := by rw [hcalls]; exact I.latestMax
  sessionMax := I.sessionMax
  flag := hflag
  flagged d hd := by cases hd
  threadsLen := by simp [hstops, I.threadsLen]
  waiting k d hk := by
    rcases get_concat hk with hk | ⟨-, hk⟩
    · refine ⟨(I.waiting k d hk).1, fun hf => (I.waiting k d hk).2 ?_⟩
      have hlt : k < s.stops.length := I.threadsLen ▸ (List.getElem?_eq_some_iff.mp hk).1
      rw [hstops, List.getElem?_append_left hlt] at hf
      exact hf
    · exact ⟨(I.flagged d hk.symm).1, fun _ => (I.flagged d hk.symm).2⟩
  threadInj k k' d hk hk' := by
    rcases get_concat hk with hk | ⟨hl, hk⟩
    · rcases get_concat hk' with hk' | ⟨-, hk'⟩
      · exact I.threadInj k k' d hk hk'
      · exact absurd hk'.symm (I.threadFlag k d hk)
    · rcases get_concat hk' with hk' | ⟨hl', -⟩
      · exact absurd hk.symm (I.threadFlag k' d hk')
      · exact hl.trans hl'.symm
  threadFlag k d hk := nofun
  launched d k hm := by
    rcases List.mem_append.mp hm with hm | hm
    · exact I.launched d k hm
    · obtain ⟨d', hd', he⟩ := Option.map_eq_some_iff.mp (Option.mem_toList.mp hm)
      injection he with h₁ h₂
      subst h₁
      exact (I.flagged d' hd').2 k h₂
  stopped := I.stopped
  ran p hp := by
    obtain ⟨k, hk, ht⟩ := I.ran p hp
    refine ⟨k, ?_, ?_⟩
    · rw [hstops, List.getElem?_append_left (List.getElem?_eq_some_iff.mp hk).1]
      exact hk
    · show (g.threads ++ [g.flagged])[k]? = _
      rw [List.getElem?_append_left (List.getElem?_eq_some_iff.mp ht).1]
      exact ht
  once := I.once

/-- A stop thread makes its call. -/
theorem StopInv.stopVpn (I : StopInv s g) {k : Nat} (hk : s.stops[k]? = some false)
    (hs : s' = { s with stops := s.stops.set k true }) : StopInv s' (g.onStopVpn k) := by
  subst hs
  have hlt : k < s.stops.length := (List.getElem?_eq_some_iff.mp hk).1
  -- what the call adds to the log
  have hnew : ∀ p ∈ (g.threads[k]?.join.map fun d => (d, g.session)).toList,
      g.threads[k]? = some (some p.1) ∧ p.2 = g.session := by
    intro p hp
    obtain ⟨d, hd, rfl⟩ := Option.map_eq_some_iff.mp (Option.mem_toList.mp hp)
    exact ⟨Option.join_eq_some_iff.mp hd, rfl⟩
  have hran : ∀ p ∈ g.stopped, g.threads[k]? ≠ some (some p.1) := by
    intro p hp hkp
    obtain ⟨k', hk', ht⟩ := I.ran p hp
    obtain rfl := I.threadInj k k' p.1 hkp ht
    rw [hk] at hk'
    cases hk'
  refine
    { I with
      sessionMax := fun t ht => by cases ht
      threadsLen := by
        show g.threads.length = (s.stops.set k true).length
        rw [List.length_set]
        exact I.threadsLen
      waiting := fun j d hj => ⟨(I.waiting j d hj).1, fun hf => (I.waiting j d hj).2 ?_⟩
      stopped := fun d c hc => ?_
      ran := fun p hp => ?_
      once := ?_ }
  · rcases get_set hk hf with ⟨-, hf⟩ | ⟨-, hf⟩
    · cases hf
    · exact hf
  · rcases List.mem_append.mp hc with hc | hc
    · exact I.stopped d c hc
    · obtain ⟨ht, hsess⟩ := hnew _ hc
      obtain ⟨m, hm, hle⟩ := I.sessionMax c hsess.symm
      exact Nat.lt_of_le_of_lt hle ((I.waiting k d ht).2 hk m hm)
  · rcases List.mem_append.mp hp with hp | hp
    · obtain ⟨j, hj, ht⟩ := I.ran p hp
      refine ⟨j, ?_, ht⟩
      by_cases hjk : k = j
      · subst hjk
        exact List.getElem?_set_self hlt
      · show (s.stops.set k true)[j]? = some true
        rw [List.getElem?_set_ne hjk]
        exact hj
    · exact ⟨k, List.getElem?_set_self hlt, (hnew p hp).1⟩
  · show ((g.stopped ++ _).map Prod.fst).Nodup
    rw [List.map_append]
    refine List.nodup_append.mpr ⟨I.once, ?_, ?_⟩
    · cases g.threads[k]?.join <;> simp
    · rintro d hd d' hd' rfl
      obtain ⟨p, hp, rfl⟩ := List.mem_map.mp hd
      obtain ⟨p', hp', he⟩ := List.mem_map.mp hd'
      exact hran p hp (he ▸ (hnew p' hp').1)

end StopSteps

/-! ## 4. Runs -/

theorem stopInv_call {D : Stores} {s s' : App} {g : StopLog} {i : Nat} {inp : Input}
    {es : List Effect} (I : StopInv s g) (h : s.step D (.call i inp) = some (s', es)) :
    StopInv s' (g.onCall i es) := by
  have hhome : AtHome s' := atHome_step I.home h
  obtain ⟨_, hc, rfl, hvpn⟩ := step_control h
  obtain ⟨c, r, pc, hi, hmove, rfl⟩ := control_call hc
  obtain ⟨hacc, hstops, hstart⟩ := hmove.stops
  have hflag : (r.vpn.performAll (accesses es)).disconnectPending = s.vpn.disconnectPending := by
    rw [performAll_disconnectPending _ hacc, hmove.vpn_eq]
  have hprot : ∀ (j : Nat) (c' : Call), (s.calls.set i { c with pc := pc })[j]? = some c' →
      ∃ c, s.calls[j]? = some c ∧ c.protocol = c'.protocol := by
    intro j c' hj
    rcases get_set hi hj with ⟨rfl, rfl⟩ | ⟨-, hj⟩
    · exact ⟨c, hi, rfl⟩
    · exact ⟨c', hj, rfl⟩
  unfold StopLog.onCall
  split
  · rename_i hm
    rw [if_pos hm] at hstops
    have J : StopInv { r with vpn := r.vpn.performAll (accesses es)
                              calls := s.calls.set i { c with pc := pc }, stops := s.stops } g :=
      I.same hhome List.length_set hprot hflag rfl
    refine J.ownThread ?_
    rw [← hstops]
    rfl
  · rename_i hm
    rw [if_neg hm] at hstops
    have J := I.same hhome (by exact List.length_set) hprot hflag hstops
    split
    · rename_i hs
      refine { J with sessionMax := fun t ht => ?_ }
      exact I.latestMax i c t hi (I.home c (List.mem_of_getElem? hi) .openvpn (hstart hs)) ht
    · exact J

/-- A step of the drivers, or the loss of the binder. -/
theorem control_flag {D : Stores} {s r : App} {l : Label} {es : List Effect}
    (h : s.control D l = some (r, es)) (hl : l.fromDriver = true) :
    (∀ a ∈ accesses es, ∀ b, a ≠ .setDisconnectPending b) ∧ r.stops = s.stops := by
  cases l with
  | connect | disconnect | call | serviceConnected | stopVpn => cases hl
  | job j inp =>
    obtain ⟨w, as, hj, rfl, rfl⟩ := control_job h
    rw [accesses_map]
    exact ⟨not_flag_of_engine hj.engine, rfl⟩
  | onDestroy now =>
    obtain ⟨rfl, rfl⟩ := h
    rw [accesses_map]
    exact ⟨not_flag_of_engine (WireGuardEngine.deliver_engine _ _ _), rfl⟩
  | pollDown now =>
    obtain ⟨t, -, -, rfl, rfl⟩ := control_pollDown h
    exact ⟨by simp, rfl⟩
  | callback k a =>
    simp only [App.control] at h
    split at h
    · rename_i hd
      obtain ⟨rfl, rfl⟩ := h
      refine ⟨fun a' ha' b hb => ?_, rfl⟩
      obtain rfl := List.mem_singleton.mp ha'
      subst hb
      cases hd
    · cases h
  | xray k ev now =>
    obtain ⟨rfl, rfl⟩ := h
    rw [accesses_map]
    cases ev <;> exact ⟨by simp [XrayEvent.actions], rfl⟩
  | serviceDisconnected =>
    obtain ⟨rfl, rfl⟩ := h
    exact ⟨by simp, rfl⟩

theorem stopInv_disconnect {D : Stores} {s s' : App} {g : StopLog} {now : Int} {es : List Effect}
    (I : StopInv s g) (h : s.step D (.disconnect now) = some (s', es)) :
    StopInv s' (g.onDisconnect s) := by
  obtain ⟨r, hc, rfl, hvpn⟩ := step_control h
  have hcalls : r.calls = s.calls := by
    refine control_calls hc (fun i inp e => ?_) (fun uuid e => ?_)
    · cases e
    · cases e
  have hhome : AtHome (r.apply es) := atHome_step I.home h
  have hprot : ∀ (j : Nat) (c' : Call), r.calls[j]? = some c' →
      ∃ c, s.calls[j]? = some c ∧ c.protocol = c'.protocol := by
    intro j c' hj
    exact ⟨c', hcalls ▸ hj, rfl⟩
  have htap : s.tap now = (r, es) := Option.some.inj hc
  unfold App.tap App.stopActive at htap
  unfold StopLog.onDisconnect
  cases hp : s.vpn.activeProtocol with
  | openvpn =>
    rw [if_pos rfl]
    simp only [hp] at htap
    split
    · rename_i hb
      rw [if_pos hb] at htap
      obtain ⟨rfl, rfl⟩ := htap
      have J : StopInv { s with vpn := s.vpn.performAll [.setPending none] } g :=
        I.same hhome rfl hprot rfl rfl
      exact (J.ownThread rfl).tick
    · rename_i hb
      rw [if_neg hb] at htap
      obtain ⟨rfl, rfl⟩ := htap
      exact I.defer rfl rfl rfl
  | wireguard =>
    rw [if_neg (by simp)]
    simp only [hp] at htap
    obtain ⟨rfl, rfl⟩ := htap
    refine (I.same hhome rfl hprot ?_ rfl).tick
    rw [hvpn]
    refine performAll_disconnectPending _ ?_
    unfold WireGuardEngine.disconnectAsync
    split <;> simp
  | xray =>
    rw [if_neg (by simp)]
    simp only [hp] at htap
    obtain ⟨rfl, rfl⟩ := htap
    exact (I.same hhome rfl hprot rfl rfl).tick
  | ikev2 =>
    rw [if_neg (by simp)]
    simp only [hp] at htap
    obtain ⟨rfl, rfl⟩ := htap
    exact (I.same hhome rfl hprot rfl rfl).tick

theorem stopInv_step {D : Stores} (x : App × StopLog) (l : Label) (x' : App × StopLog)
    (I : StopInv x.1 x.2) (hl : uncontested D x l = true) (h : stopStep D x l = some x') :
    StopInv x'.1 x'.2 := by
  obtain ⟨s, g⟩ := x
  obtain ⟨s', g'⟩ := x'
  obtain ⟨es, hs, hg⟩ := observed_some h
  dsimp only at I hs hg ⊢
  subst hg
  have hhome : AtHome s' := atHome_step I.home hs
  obtain ⟨r, hc, hr, hvpn⟩ := step_control hs
  have hother : l.fromDriver = true → StopInv s' g := by
    intro hl
    obtain ⟨hacc, hstops⟩ := control_flag hc hl
    have hcalls : s'.calls = s.calls := by
      rw [hr]
      show r.calls = s.calls
      refine control_calls hc (fun i inp e => ?_) (fun uuid e => ?_)
      · rw [e] at hl
        cases hl
      · rw [e] at hl
        cases hl
    refine I.same hhome (by rw [hcalls]) (fun j c' hj => ⟨c', hcalls ▸ hj, rfl⟩) ?_ ?_
    · rw [hvpn, performAll_disconnectPending _ hacc]
    · rw [hr]
      exact hstops
  cases l with
  | connect uuid =>
    obtain ⟨rfl, rfl⟩ := hc
    exact I.connect uuid hl hr hhome
  | disconnect now => exact stopInv_disconnect I hs
  | call i inp => exact stopInv_call I hs
  | job | onDestroy | pollDown | callback | xray | serviceDisconnected => exact hother rfl
  | serviceConnected =>
    have hes : s.onServiceConnected = (r, es) := Option.some.inj hc
    unfold App.onServiceConnected at hes
    unfold StopLog.watch StopLog.onServiceConnected
    dsimp only
    split
    · rename_i hf
      rw [if_pos hf] at hes
      obtain ⟨rfl, rfl⟩ := hes
      subst hr
      exact I.launch rfl rfl rfl
    · rename_i hf
      rw [if_neg hf] at hes
      obtain ⟨rfl, rfl⟩ := hes
      subst hr
      exact I.same hhome rfl (fun j c' hj => ⟨c', hj, rfl⟩) rfl rfl
  | stopVpn k =>
    simp only [App.control] at hc
    split at hc
    · rename_i hk
      obtain ⟨rfl, rfl⟩ := hc
      exact I.stopVpn hk hr
    · cases hc

/-- **The deferred stop**: where OpenVPN profiles are connected only while no deferred stop is
    pending, a stop that `onServiceConnected` launches acts for a disconnect after which no OpenVPN
    profile was connected, its `stopVPN` never stops the session of a later connect, and each
    deferred disconnect makes at most one `stopVPN` call. -/
theorem deferred_stops (D : Stores) (ls : List Label) {s : App}
    (hC : Along (stopStep D) (fun x l => uncontested D x l = true) ({}, {}) ls)
    (h : exec (silent (App.step D)) {} ls = some s) :
    ∃ log, exec (stopStep D) ({}, {}) ls = some (s, log) ∧
      (∀ d k, (d, some k) ∈ log.launched → k < d) ∧
      (∀ d c, (d, some c) ∈ log.stopped → c < d) ∧ (log.stopped.map Prod.fst).Nodup := by
  obtain ⟨log, hlog⟩ := exec_observed (StopLog.watch D) {} h
  have hinv : StopInv s log :=
    exec_inv (I := fun x => StopInv x.1 x.2) stopInv_step stopInv_init hC hlog
  exact ⟨log, hlog, hinv.launched, hinv.stopped, hinv.once⟩

/-- A tap before the binder, the binder's arrival, the stop; then a connect. -/
def stopThenConnect : List Label :=
  [Label.connect "ovpn1"] ++ List.replicate 10 (Label.call 0 {}) ++
    [Label.disconnect 1, .serviceConnected, .stopVpn 0, .connect "ovpn2"] ++
    List.replicate 10 (Label.call 1 {})

theorem deferred_stops_before_connect :
    ∃ s log, exec (silent (App.step sampleStores)) {} stopThenConnect = some s ∧
      exec (stopStep sampleStores) ({}, {}) stopThenConnect = some (s, log) ∧
      ∀ d c, (d, some c) ∈ log.stopped → c < d := by
  have hrun : ∃ s, exec (silent (App.step sampleStores)) {} stopThenConnect = some s := ⟨_, rfl⟩
  obtain ⟨s, hs⟩ := hrun
  obtain ⟨log, hlog, -, hstop, -⟩ := deferred_stops sampleStores stopThenConnect (by decide) hs
  exact ⟨s, log, hs, hlog, hstop⟩

/-- A tap before the binder, then a connect, then the binder's arrival: **the deferred stop ends
    the session of the later connect**. -/
theorem deferred_stop_late :
    ∃ x, exec (stopStep sampleStores) ({}, {})
        ([Label.disconnect 0, .connect "ovpn1"] ++ List.replicate 10 (Label.call 0 {}) ++
          [Label.serviceConnected, .stopVpn 0]) = some x ∧
      x.2.launched = [(0, some 1)] ∧ x.2.stopped = [(0, some 1)] := by
  refine ⟨_, rfl, ?_, ?_⟩ <;> decide

end SwiftVpn
