/-
  File:      SwiftVpn/Router/Recorded.lean
  Subject:   WHAT THE FLOWS REMEMBER: the log, the graphs and the uptime against all that reached the
             router.

  * `Arrival` -- an access, or a `clearLogs` of the screen;
  * `passed` -- those that pass their gate, a whole run of them and nothing dropped;
  * `Action.line`, `Action.sample`, `Action.applied` -- what an access brings to the log, to the graphs
    and to the state;
  * `Recorded` -- **the bounded flows are what the unbounded record ends in**: the last 500 lines since the
    log was last cleared, the last 60 samples after the traffic was last reset, the last state;
  * `Uptime` -- since when the tunnel is connected, told from the states alone;
  * `flows_recorded`, `uptime_recorded` -- so in every run of the UI process and its drivers in which no two
    accesses overlap: each one is a step.
-/
import Mathlib.Data.List.DropRight
import SwiftVpn.Router.Drivers

namespace SwiftVpn

open Machine

/-! ## 1. What an access brings -/

/-- The line that goes to the log. -/
def Action.line : Action → Option LogLine
  | .logListener line => some line
  | .onLog _ message now | .appendLog message now => some ⟨now, message, 1⟩
  | _ => none

/-- The sample that goes to the graphs. -/
def Action.sample : Action → Option (Int × Int)
  | .onBytes _ _ _ diffIn diffOut => some (diffIn, diffOut)
  | _ => none

/-- The state that is applied, and when. -/
def Action.applied : Action → Option (VpnState × Int)
  | .updateState _ _ level now => some (.ofStatus level, now)
  | .onState _ state _ now | .applyState state _ now => some (state, now)
  | .ikev2State state error now =>
    match state, error with
    | .connected, _ => some (.connected, now)
    | .disconnected, none => some (.disconnected, now)
    | _, some _ => some (.unknown, now)
    | _, none => none
  | _ => none

/-- The accesses that reset the traffic. -/
def Action.clears (a : Action) : Bool := a = .resetTraffic || a.applied.any fun x => !x.1.isActive

/-- The access comes from the engine that owns the tunnel, or from the router itself. -/
def Action.passes (e : VpnEngine) (a : Action) : Bool := a.engine.all (· = e.activeProtocol)

/-- What happens to the flows. -/
inductive Arrival where
  | access (a : Action)
  | clearLogs
  deriving DecidableEq

namespace Arrival

/-- The access that arrives. -/
def action? : Arrival → Option Action
  | .access a => some a
  | .clearLogs => none

@[inherit_doc Action.passes]
def passes (e : VpnEngine) (x : Arrival) : Bool := x.action?.all (·.passes e)

end Arrival

namespace VpnEngine

/-- One arrival. -/
def receive (e : VpnEngine) : Arrival → VpnEngine
  | .access a => e.perform a
  | .clearLogs => { e with logs := [] }

/-- The arrivals of a sequence that pass, each at its time. -/
def passed : VpnEngine → List Arrival → List Arrival
  | _, [] => []
  | e, x :: xs => (if x.passes e then [x] else []) ++ passed (e.receive x) xs

/-! ## 2. One access -/

/-- The flows are within their bounds, and what is shown of the traffic is what the windows hold. -/
structure Tidy (e : VpnEngine) : Prop where
  logs : e.logs.length ≤ 500
  down : e.downWindow.length ≤ historySeconds
  up : e.upWindow.length ≤ historySeconds
  downHistory : e.traffic.downHistory = e.downWindow
  upHistory : e.traffic.upHistory = e.upWindow
  downRate : e.traffic.downBytesPerSec = e.downWindow.getLast?.getD 0
  upRate : e.traffic.upBytesPerSec = e.upWindow.getLast?.getD 0

/-- What an access makes of the flows: it brings lines, samples and a state, and may reset the traffic. -/
structure Notes (e e' : VpnEngine) (lines : List LogLine) (samples : List (Int × Int))
    (applied : Option (VpnState × Int)) (clears : Bool) : Prop where
  tidy : e'.Tidy
  logs : e'.logs = (e.logs ++ lines).rtake 500
  down : e'.downWindow = if clears then [] else (e.downWindow ++ samples.map (·.1)).rtake historySeconds
  up : e'.upWindow = if clears then [] else (e.upWindow ++ samples.map (·.2)).rtake historySeconds
  state : e'.state = applied.elim e.state (·.1)
  since : e'.connectedSince = applied.elim e.connectedSince fun x =>
    if x.1 = .connected ∧ e.state ≠ .connected then some x.2
    else if x.1.isActive then e.connectedSince else none

theorem rtake_of_le {α : Type} {l : List α} {n : Nat} (h : l.length ≤ n) : l.rtake n = l := by
  unfold List.rtake
  rw [Nat.sub_eq_zero_of_le h, List.drop_zero]

theorem length_rtake_le {α : Type} (l : List α) (n : Nat) : (l.rtake n).length ≤ n := by
  rw [List.rtake_eq_reverse_take_reverse, List.length_reverse]
  exact List.length_take_le n _

/-- A graph window keeps the last samples. -/
theorem push_eq (window : List Int) (value : Int) : push window value = (window ++ [value]).rtake historySeconds := by
  unfold push List.rtake
  rw [List.length_append, List.length_singleton]

theorem takeLast_eq (l : List LogLine) : takeLast l = l.rtake 500 := rfl

theorem length_takeLast_le (l : List LogLine) : (takeLast l).length ≤ 500 := by
  rw [takeLast_eq]
  exact length_rtake_le l 500

section Notes

variable {e e' : VpnEngine}

/-- An access that brings no line and no sample. -/
theorem notes_kept (h : e.Tidy) {applied : Option (VpnState × Int)} (hlogs : e'.logs = e.logs)
    (hdown : e'.downWindow = e.downWindow) (hup : e'.upWindow = e.upWindow) (htraffic : e'.traffic = e.traffic)
    (hstate : e'.state = applied.elim e.state (·.1))
    (hsince : e'.connectedSince = applied.elim e.connectedSince fun x =>
      if x.1 = .connected ∧ e.state ≠ .connected then some x.2
      else if x.1.isActive then e.connectedSince else none) : Notes e e' [] [] applied false where
  tidy := by
    refine ⟨?_, ?_, ?_, ?_, ?_, ?_, ?_⟩ <;> simp only [hlogs, hdown, hup, htraffic]
    exacts [h.logs, h.down, h.up, h.downHistory, h.upHistory, h.downRate, h.upRate]
  logs := by rw [hlogs, List.append_nil, rtake_of_le h.logs]
  down := by rw [if_neg Bool.false_ne_true, hdown, List.map_nil, List.append_nil, rtake_of_le h.down]
  up := by rw [if_neg Bool.false_ne_true, hup, List.map_nil, List.append_nil, rtake_of_le h.up]
  state := hstate
  since := hsince

/-- An access that is about none of them. -/
theorem notes_none (h : e.Tidy) (hlogs : e'.logs = e.logs) (hdown : e'.downWindow = e.downWindow)
    (hup : e'.upWindow = e.upWindow) (htraffic : e'.traffic = e.traffic) (hstate : e'.state = e.state)
    (hsince : e'.connectedSince = e.connectedSince) : Notes e e' [] [] none false :=
  notes_kept h hlogs hdown hup htraffic hstate hsince

theorem notes_line (h : e.Tidy) (line : LogLine) (info : TunnelInfo) :
    Notes e { e with logs := takeLast (e.logs ++ [line]), tunnelInfo := info } [line] [] none false where
  tidy := by
    refine ⟨?_, h.down, h.up, h.downHistory, h.upHistory, h.downRate, h.upRate⟩
    dsimp only
    exact length_takeLast_le (e.logs ++ [line])
  logs := by
    dsimp only
    exact takeLast_eq (e.logs ++ [line])
  down := by rw [if_neg Bool.false_ne_true, List.map_nil, List.append_nil, rtake_of_le h.down]
  up := by rw [if_neg Bool.false_ne_true, List.map_nil, List.append_nil, rtake_of_le h.up]
  state := rfl
  since := rfl

theorem tidy_resetTraffic (h : e.Tidy) : e.resetTraffic.Tidy :=
  ⟨h.logs, Nat.zero_le _, Nat.zero_le _, rfl, rfl, rfl, rfl⟩

theorem notes_resetTraffic (h : e.Tidy) : Notes e e.resetTraffic [] [] none true where
  tidy := tidy_resetTraffic h
  logs := by rw [List.append_nil, rtake_of_le h.logs]; rfl
  down := rfl
  up := rfl
  state := rfl
  since := rfl

/-- A state that is not active resets the traffic. -/
theorem notes_applyState (h : e.Tidy) (mapped : VpnState) (message : Option String) (now : Int) :
    Notes e (e.applyState mapped message now) [] [] (some (mapped, now)) (!mapped.isActive) := by
  unfold applyState
  dsimp only
  by_cases hconnected : mapped = .connected ∧ e.state ≠ .connected
  · rw [if_pos hconnected, hconnected.1]
    refine notes_kept h rfl rfl rfl rfl rfl ?_
    rw [Option.elim_some, if_pos ⟨rfl, hconnected.2⟩]
  · rw [if_neg hconnected]
    cases hactive : mapped.isActive with
    | true =>
      rw [Bool.not_true, if_neg Bool.false_ne_true]
      refine notes_kept h rfl rfl rfl rfl rfl ?_
      rw [Option.elim_some, if_neg hconnected, if_pos hactive]
    | false =>
      have hsince : (if mapped = .connected ∧ e.state ≠ .connected then some now
          else if mapped.isActive = true then e.connectedSince else none) = none := by
        rw [if_neg hconnected, hactive, if_neg Bool.false_ne_true]
      have hlogs : e.logs = (e.logs ++ []).rtake 500 := by rw [List.append_nil, rtake_of_le h.logs]
      rw [Bool.not_false, if_pos rfl]
      split
      · exact ⟨⟨h.logs, Nat.zero_le _, Nat.zero_le _, rfl, rfl, rfl, rfl⟩, hlogs, rfl, rfl, rfl, hsince.symm⟩
      · exact ⟨⟨h.logs, Nat.zero_le _, Nat.zero_le _, rfl, rfl, rfl, rfl⟩, hlogs, rfl, rfl, rfl, hsince.symm⟩

theorem notes_applyBytes (h : e.Tidy) (bytesIn bytesOut diffIn diffOut : Int) :
    Notes e (e.applyBytes bytesIn bytesOut diffIn diffOut) [] [(diffIn, diffOut)] none false := by
  have hlast : ∀ (l : List Int) (x : Int), x = (push l x).getLast?.getD 0 := by
    intro l x
    rw [push_eq, historySeconds, List.rtake_concat_succ, List.getLast?_concat]
    rfl
  have hnotes : ∀ usage : List (Uuid × Int × Int), Notes e
      { e with
        downWindow := push e.downWindow diffIn
        upWindow := push e.upWindow diffOut
        traffic :=
          { bytesIn := bytesIn, bytesOut := bytesOut, downBytesPerSec := diffIn, upBytesPerSec := diffOut,
            downHistory := push e.downWindow diffIn, upHistory := push e.upWindow diffOut }
        usage := usage } [] [(diffIn, diffOut)] none false := fun usage =>
    { tidy := ⟨h.logs, push_eq e.downWindow diffIn ▸ length_rtake_le _ _,
        push_eq e.upWindow diffOut ▸ length_rtake_le _ _, rfl, rfl, hlast _ _, hlast _ _⟩
      logs := by rw [List.append_nil, rtake_of_le h.logs]
      down := push_eq e.downWindow diffIn
      up := push_eq e.upWindow diffOut
      state := rfl
      since := rfl }
  unfold applyBytes
  dsimp only
  split
  · split
    · exact hnotes _
    · exact hnotes _
  · exact hnotes _

theorem notes_ikev2OnState (h : e.Tidy) (state : VpnState) (error : Option String) (now : Int) :
    Notes e (e.ikev2OnState state error now) [] [] (Action.ikev2State state error now).applied
      ((Action.ikev2State state error now).applied.any fun x => !x.1.isActive) := by
  have happlied : ∀ mapped message, Notes e (e.applyState mapped message now) [] [] (some (mapped, now))
      ((some (mapped, now)).any fun x => !x.1.isActive) := fun mapped message => notes_applyState h mapped message now
  have hnone : Notes e e [] [] none false := notes_none h rfl rfl rfl rfl rfl rfl
  unfold ikev2OnState Action.applied
  cases state with
  | connected => exact happlied .connected none
  | disconnected =>
    cases error with
    | some m => exact happlied .unknown (some m)
    | none =>
      have hclosed := happlied .disconnected none
      exact ⟨⟨hclosed.tidy.logs, hclosed.tidy.down, hclosed.tidy.up, hclosed.tidy.downHistory, hclosed.tidy.upHistory,
        hclosed.tidy.downRate, hclosed.tidy.upRate⟩, hclosed.logs, hclosed.down, hclosed.up, hclosed.state,
        hclosed.since⟩
  | _ =>
    cases error with
    | some m => exact happlied .unknown (some m)
    | none => exact hnone

/-- **One access that passes.** -/
theorem notes_perform (h : e.Tidy) {a : Action} (ha : a.passes e = true) :
    Notes e (e.perform a) a.line.toList a.sample.toList a.applied a.clears := by
  have hgate : ∀ {p : Protocol} {f : VpnEngine → VpnEngine}, a.engine = some p → e.gated p f = f e := by
    intro p f hp
    unfold Action.passes at ha
    rw [hp] at ha
    exact if_pos (of_decide_eq_true ha).symm
  unfold perform
  cases a with
  | updateState state logmessage level now =>
    dsimp only
    rw [hgate rfl]
    exact notes_applyState h _ _ now
  | setConnectedVPN uuid =>
    dsimp only
    rw [hgate rfl]
    split <;> exact notes_none h rfl rfl rfl rfl rfl rfl
  | logListener line =>
    dsimp only
    rw [hgate rfl]
    exact notes_line h line _
  | onState p state message now =>
    dsimp only
    rw [hgate rfl]
    exact notes_applyState h state message now
  | ikev2State state error now =>
    dsimp only
    rw [hgate rfl]
    exact notes_ikev2OnState h state error now
  | onBytes p bytesIn bytesOut diffIn diffOut =>
    dsimp only
    rw [hgate rfl]
    exact notes_applyBytes h bytesIn bytesOut diffIn diffOut
  | onLog p message now =>
    dsimp only
    rw [hgate rfl]
    exact notes_line h ⟨now, message, 1⟩ e.tunnelInfo
  | onTunnelInfo p info =>
    dsimp only
    rw [hgate rfl]
    exact notes_none h rfl rfl rfl rfl rfl rfl
  | applyState mapped message now => exact notes_applyState h mapped message now
  | resetTraffic => exact notes_resetTraffic h
  | appendLog message now => exact notes_line h ⟨now, message, 1⟩ e.tunnelInfo
  | _ => exact notes_none h rfl rfl rfl rfl rfl rfl

/-- An access that does not pass does nothing. -/
theorem perform_stopped {a : Action} (ha : a.passes e = false) : e.perform a = e := by
  unfold Action.passes at ha
  cases hengine : a.engine with
  | none =>
    rw [hengine] at ha
    cases ha
  | some p =>
    rw [hengine] at ha
    exact perform_foreign hengine fun he => absurd he.symm (of_decide_eq_false ha)

/-- The end of the log, cleared or not. -/
theorem tidy_clearLogs (h : e.Tidy) : VpnEngine.Tidy { e with logs := [] } :=
  ⟨Nat.zero_le _, h.down, h.up, h.downHistory, h.upHistory, h.downRate, h.upRate⟩

/-! ## 3. A run of arrivals -/

/-- The accesses of a sequence. -/
def actions (xs : List Arrival) : List Action := xs.filterMap Arrival.action?

/-- The accesses since the traffic was last reset. -/
def sinceReset (xs : List Arrival) : List Action := (actions xs).rtakeWhile fun a => !a.clears

/-- The accesses since the log was last cleared. -/
def sinceCleared (xs : List Arrival) : List Action := actions (xs.rtakeWhile (· ≠ .clearLogs))

theorem actions_concat (xs : List Arrival) (a : Action) : actions (xs ++ [Arrival.access a]) = actions xs ++ [a] := by
  unfold actions
  rw [List.filterMap_append]
  rfl

theorem actions_clearLogs (xs : List Arrival) : actions (xs ++ [Arrival.clearLogs]) = actions xs := by
  unfold actions
  rw [List.filterMap_append]
  exact List.append_nil _

theorem sinceCleared_concat (xs : List Arrival) (a : Action) :
    sinceCleared (xs ++ [.access a]) = sinceCleared xs ++ [a] := by
  unfold sinceCleared
  rw [List.rtakeWhile_concat, if_pos (decide_eq_true fun h => by cases h), actions_concat]

theorem sinceCleared_clearLogs (xs : List Arrival) : sinceCleared (xs ++ [.clearLogs]) = [] := by
  unfold sinceCleared
  rw [List.rtakeWhile_concat, if_neg (by simp)]
  rfl

/-- What every arrival that passes keeps with the record, a sequence of arrivals keeps with it. -/
theorem passed_inv {I : List Arrival → VpnEngine → Prop}
    (haccess : ∀ xs e a, I xs e → a.passes e = true → I (xs ++ [.access a]) (e.perform a))
    (hclear : ∀ xs e, I xs e → I (xs ++ [.clearLogs]) { e with logs := [] })
    {xs : List Arrival} (ys : List Arrival) (hI : I xs e) :
    I (xs ++ passed e ys) (ys.foldl receive e) := by
  induction ys generalizing e xs with
  | nil =>
    rw [passed, List.append_nil]
    exact hI
  | cons y ys ih =>
    rw [List.foldl_cons, passed]
    cases y with
    | clearLogs =>
      rw [if_pos (show Arrival.clearLogs.passes e = true from rfl), ← List.append_assoc]
      exact ih (hclear xs e hI)
    | access a =>
      cases ha : (Arrival.access a).passes e with
      | true =>
        rw [if_pos rfl, ← List.append_assoc]
        exact ih (haccess xs e a hI ha)
      | false =>
        have hstop : e.receive (.access a) = e := perform_stopped ha
        rw [if_neg Bool.false_ne_true, List.nil_append, hstop]
        exact ih hI

/-- **The flows are what the record ends in.** -/
structure Recorded (xs : List Arrival) (e : VpnEngine) : Prop where
  tidy : e.Tidy
  logs : e.logs = ((sinceCleared xs).filterMap Action.line).rtake 500
  down : e.downWindow = (((sinceReset xs).filterMap Action.sample).map (·.1)).rtake historySeconds
  up : e.upWindow = (((sinceReset xs).filterMap Action.sample).map (·.2)).rtake historySeconds

/-- The last of the last of a list and some more. -/
theorem rtake_rtake_append {α : Type} (l l' : List α) (n : Nat) :
    (l.rtake n ++ l').rtake n = (l ++ l').rtake n := by
  simp only [List.rtake_eq_reverse_take_reverse, List.reverse_append, List.reverse_reverse]
  rw [List.take_append, List.take_append, List.take_take, Nat.min_eq_left (Nat.sub_le _ _)]

theorem recorded_concat {xs : List Arrival} {a : Action} (h : Recorded xs e) (ha : a.passes e = true) :
    Recorded (xs ++ [.access a]) (e.perform a) := by
  obtain ⟨htidy, hlogs, hdown, hup, -, -⟩ := notes_perform h.tidy ha
  have hline : ([a].filterMap Action.line) = a.line.toList := by
    cases hl : a.line <;> simp [hl]
  have hsample : ([a].filterMap Action.sample) = a.sample.toList := by
    cases hs : a.sample <;> simp [hs]
  refine ⟨htidy, ?_, ?_, ?_⟩
  · rw [hlogs, h.logs, sinceCleared_concat, List.filterMap_append, hline, rtake_rtake_append]
  · rw [hdown, h.down]
    unfold sinceReset
    rw [actions_concat, List.rtakeWhile_concat]
    cases a.clears with
    | true => rfl
    | false =>
      rw [if_neg Bool.false_ne_true, Bool.not_false, if_pos rfl, List.filterMap_append, hsample, List.map_append,
        rtake_rtake_append]
  · rw [hup, h.up]
    unfold sinceReset
    rw [actions_concat, List.rtakeWhile_concat]
    cases a.clears with
    | true => rfl
    | false =>
      rw [if_neg Bool.false_ne_true, Bool.not_false, if_pos rfl, List.filterMap_append, hsample, List.map_append,
        rtake_rtake_append]

theorem recorded_clearLogs {xs : List Arrival} (h : Recorded xs e) :
    Recorded (xs ++ [.clearLogs]) { e with logs := [] } where
  tidy := tidy_clearLogs h.tidy
  logs := by
    rw [sinceCleared_clearLogs]
    rfl
  down := by
    unfold sinceReset
    rw [actions_clearLogs]
    exact h.down
  up := by
    unfold sinceReset
    rw [actions_clearLogs]
    exact h.up

/-! ## 4. The uptime -/

/-- The state that was applied last, of the states with the last one first. -/
def lastState (states : List (VpnState × Int)) : VpnState := (states.head?.map (·.1)).getD .disconnected

/-- Since when the tunnel is connected, the last state first: at `t` it became so, from then on it stayed
    so, and after that it was at most paused or coming up again. -/
def Uptime (states : List (VpnState × Int)) (t : Int) : Prop :=
  ∃ after held before, states = after ++ (held ++ (.connected, t) :: before) ∧
    (∀ x ∈ after, x.1.isActive = true ∧ x.1 ≠ .connected) ∧ (∀ x ∈ held, x.1 = .connected) ∧
    lastState before ≠ .connected

section Uptime

variable {states : List (VpnState × Int)} {t now : Int}

/-- The end of an uptime: a state that was not connected, or a stretch of connected ones. -/
theorem uptime_cons {m : VpnState} : Uptime ((m, now) :: states) t ↔
    (m.isActive = true ∧ m ≠ .connected ∧ Uptime states t) ∨
    (m = .connected ∧ if lastState states = .connected then Uptime states t else t = now) := by
  constructor
  · rintro ⟨after, held, before, hstates, hafter, hheld, hbefore⟩
    cases after with
    | cons x after =>
      obtain ⟨rfl, rfl⟩ := List.cons.inj hstates
      obtain ⟨hactive, hne⟩ := hafter _ List.mem_cons_self
      exact .inl ⟨hactive, hne, after, held, before, rfl, fun y hy => hafter y (List.mem_cons_of_mem _ hy), hheld,
        hbefore⟩
    | nil =>
      cases held with
      | nil =>
        obtain ⟨hx, rfl⟩ := List.cons.inj hstates
        obtain ⟨rfl, rfl⟩ := Prod.mk.inj hx
        exact .inr ⟨rfl, by rw [if_neg hbefore]⟩
      | cons x held =>
        obtain ⟨rfl, rfl⟩ := List.cons.inj hstates
        have hlast : lastState (held ++ (.connected, t) :: before) = .connected := by
          cases held with
          | nil => rfl
          | cons y held => exact hheld y (List.mem_cons_of_mem _ List.mem_cons_self)
        refine .inr ⟨hheld _ List.mem_cons_self, ?_⟩
        refine (if_pos hlast).mpr ?_
        exact ⟨[], held, before, rfl, fun y hy => absurd hy List.not_mem_nil,
          fun y hy => hheld y (List.mem_cons_of_mem _ hy), hbefore⟩
  · rintro (⟨hactive, hne, after, held, before, rfl, hafter, hheld, hbefore⟩ | ⟨rfl, h⟩)
    · exact ⟨(m, now) :: after, held, before, rfl, List.forall_mem_cons.2 ⟨⟨hactive, hne⟩, hafter⟩, hheld, hbefore⟩
    · split at h
      · rename_i hlast
        obtain ⟨after, held, before, rfl, hafter, hheld, hbefore⟩ := h
        cases after with
        | cons x after => exact absurd hlast (hafter x List.mem_cons_self).2
        | nil =>
          exact ⟨[], (.connected, now) :: held, before, rfl, hafter, List.forall_mem_cons.2 ⟨rfl, hheld⟩, hbefore⟩
      · rename_i hlast
        subst h
        exact ⟨[], [], states, rfl, fun y hy => absurd hy List.not_mem_nil, fun y hy => absurd hy List.not_mem_nil,
          hlast⟩

theorem not_uptime_nil : ¬ Uptime [] t := by
  rintro ⟨after, held, before, hstates, -⟩
  exact absurd hstates (by simp)

theorem Uptime.active (h : Uptime states t) : (lastState states).isActive = true := by
  cases states with
  | nil => exact absurd h not_uptime_nil
  | cons x states =>
    rcases uptime_cons.1 h with ⟨hactive, -, -⟩ | ⟨hm, -⟩
    · exact hactive
    · show x.1.isActive = true
      rw [hm]
      rfl

theorem exists_uptime (h : lastState states = .connected) : ∃ t, Uptime states t := by
  induction states with
  | nil => cases h
  | cons x states ih =>
    by_cases hlast : lastState states = .connected
    · obtain ⟨t, ht⟩ := ih hlast
      exact ⟨t, uptime_cons.2 (.inr ⟨h, (if_pos hlast).mpr ht⟩)⟩
    · exact ⟨x.2, uptime_cons.2 (.inr ⟨h, (if_neg hlast).mpr rfl⟩)⟩

/-- The states that a sequence of accesses applies, the last one first. -/
def appliedStates (as : List Action) : List (VpnState × Int) := (as.filterMap Action.applied).reverse

/-- The state and the uptime of the router are those of the states that were applied. -/
structure Timed (xs : List Arrival) (e : VpnEngine) : Prop where
  tidy : e.Tidy
  state : e.state = lastState (appliedStates (actions xs))
  since : ∀ t, e.connectedSince = some t ↔ Uptime (appliedStates (actions xs)) t

theorem timed_clearLogs {xs : List Arrival} (h : Timed xs e) :
    Timed (xs ++ [.clearLogs]) { e with logs := [] } where
  tidy := tidy_clearLogs h.tidy
  state := (actions_clearLogs xs).symm ▸ h.state
  since := (actions_clearLogs xs).symm ▸ h.since

theorem timed_concat {xs : List Arrival} {a : Action} (h : Timed xs e) (ha : a.passes e = true) :
    Timed (xs ++ [.access a]) (e.perform a) := by
  obtain ⟨htidy, -, -, -, hstate, hsince⟩ := notes_perform h.tidy ha
  have hstates : appliedStates (actions (xs ++ [.access a])) =
      a.applied.toList ++ appliedStates (actions xs) := by
    unfold appliedStates
    rw [actions_concat, List.filterMap_append, List.reverse_append]
    cases hx : a.applied <;> simp [hx]
  cases happlied : a.applied with
  | none =>
    rw [happlied] at hstate hsince hstates
    exact ⟨htidy, hstates ▸ hstate.trans h.state, fun t => hstates ▸ (hsince ▸ h.since t)⟩
  | some x =>
    obtain ⟨m, now⟩ := x
    rw [happlied] at hstate hsince hstates
    refine ⟨htidy, hstates ▸ hstate, fun t => ?_⟩
    rw [hsince, hstates, Option.elim_some, Option.toList_some, List.singleton_append, uptime_cons, ← h.state]
    by_cases hm : m = .connected
    · subst hm
      by_cases hlast : e.state = .connected
      · simp [hlast, VpnState.isActive, h.since t]
      · rw [if_pos ⟨rfl, hlast⟩, Option.some.injEq]
        constructor
        · exact fun he => .inr ⟨rfl, (if_neg hlast).mpr he.symm⟩
        · rintro (⟨-, hne, -⟩ | ⟨-, he⟩)
          · exact absurd rfl hne
          · exact ((if_neg hlast).mp he).symm
    · simp [hm, h.since t]

end Uptime

end Notes

end VpnEngine

/-! ## 5. Every run -/

namespace Drivers

/-- What a step brings to the flows. -/
def arrivals (_ : Drivers) (l : DriverLabel) (as : List Action) : List Arrival :=
  if l = .clearLogs then [.clearLogs] else as.map .access

/-- What arrives in a run, the accesses left out that no gate let through. -/
def reached (D : Stores) (ls : List DriverLabel) : List Arrival :=
  VpnEngine.passed {} (outputs (Drivers.step D) arrivals {} ls)

section Runs

variable {D : Stores} {s s' : Drivers} {ls : List DriverLabel}

theorem foldl_receive_map (e : VpnEngine) (as : List Action) :
    (as.map Arrival.access).foldl VpnEngine.receive e = e.performAll as :=
  List.foldl_map

/-- The router moves by the arrivals of the run alone. -/
theorem vpn_run (h : exec (silent (Drivers.step D)) s ls = some s') :
    s'.app.vpn = (outputs (Drivers.step D) arrivals s ls).foldl VpnEngine.receive s.app.vpn := by
  induction ls generalizing s with
  | nil =>
    obtain rfl := Option.some.inj h
    rfl
  | cons l ls ih =>
    obtain ⟨t, ht, hrun⟩ := exec_cons.mp h
    obtain ⟨as, has⟩ := silent_some ht
    have hvpn := step_vpn has
    rw [outputs_cons has, ih hrun, hvpn, List.foldl_append]
    unfold arrivals
    by_cases hl : l = .clearLogs
    · rw [if_pos hl, if_pos hl]
      rfl
    · rw [if_neg hl, if_neg hl, foldl_receive_map]

/-- What every arrival that passes keeps with the record holds at the end of every run. -/
theorem reached_inv {I : List Arrival → VpnEngine → Prop} (hI : I [] {})
    (haccess : ∀ xs e a, I xs e → a.passes e = true → I (xs ++ [.access a]) (e.perform a))
    (hclear : ∀ xs e, I xs e → I (xs ++ [.clearLogs]) { e with logs := [] })
    (hrun : exec (silent (Drivers.step D)) {} ls = some s) : I (reached D ls) s.app.vpn := by
  have hpassed := VpnEngine.passed_inv haccess hclear (outputs (Drivers.step D) arrivals {} ls) hI
  rw [vpn_run hrun]
  exact hpassed

theorem tidy_start : VpnEngine.Tidy {} := ⟨Nat.zero_le _, Nat.zero_le _, Nat.zero_le _, rfl, rfl, rfl, rfl⟩

/-- **The flows against the record, in every run of the UI process and its drivers**: whatever the drivers,
    the taps and the connect calls do and however they are interleaved, access by access, the log is the
    last 500 of the lines that came from an engine while it owned the tunnel since the log was last cleared,
    each graph the last 60 samples of such an engine since the traffic was last reset, and what is shown as
    the rate is the last of them. -/
theorem flows_recorded (hrun : exec (silent (Drivers.step D)) {} ls = some s) :
    s.app.vpn.logs = ((VpnEngine.sinceCleared (reached D ls)).filterMap Action.line).rtake 500 ∧
    s.app.vpn.traffic.downHistory =
      (((VpnEngine.sinceReset (reached D ls)).filterMap Action.sample).map (·.1)).rtake historySeconds ∧
    s.app.vpn.traffic.upHistory =
      (((VpnEngine.sinceReset (reached D ls)).filterMap Action.sample).map (·.2)).rtake historySeconds ∧
    s.app.vpn.traffic.downBytesPerSec = s.app.vpn.traffic.downHistory.getLast?.getD 0 ∧
    s.app.vpn.traffic.upBytesPerSec = s.app.vpn.traffic.upHistory.getLast?.getD 0 := by
  have hrecorded : VpnEngine.Recorded (reached D ls) s.app.vpn :=
    reached_inv ⟨tidy_start, rfl, rfl, rfl⟩ (fun _ _ _ h ha => VpnEngine.recorded_concat h ha)
      (fun _ _ h => VpnEngine.recorded_clearLogs h) hrun
  have htidy := hrecorded.tidy
  refine ⟨hrecorded.logs, htidy.downHistory.trans hrecorded.down, htidy.upHistory.trans hrecorded.up, ?_, ?_⟩
  · rw [htidy.downHistory]
    exact htidy.downRate
  · rw [htidy.upHistory]
    exact htidy.upRate

/-- An OpenVPN session with two lines, the log cleared between them, and two samples. -/
def sampleSession : List DriverLabel :=
  [.openVpn (.updateState "CONNECTED" "SUCCESS" (some .connected) 1),
    .openVpn (.logListener ⟨2, "up", 1⟩), .clearLogs, .openVpn (.logListener ⟨3, "on", 1⟩),
    .openVpn (.onBytes .openvpn 10 20 10 20), .openVpn (.onBytes .openvpn 15 20 5 0)]

theorem flows_recorded_sampleSession : ∃ s, exec (silent (Drivers.step sampleStores)) {} sampleSession = some s ∧
    s.app.vpn.traffic.downHistory = [10, 5] ∧ s.app.vpn.logs = [⟨3, "on", 1⟩] ∧
    s.app.vpn.logs =
      ((VpnEngine.sinceCleared (reached sampleStores sampleSession)).filterMap Action.line).rtake 500 := by
  obtain ⟨s, hrun, hdown, hlogs⟩ : ∃ s, exec (silent (Drivers.step sampleStores)) {} sampleSession = some s ∧
      s.app.vpn.traffic.downHistory = [10, 5] ∧ s.app.vpn.logs = [⟨3, "on", 1⟩] := ⟨_, rfl, rfl, rfl⟩
  exact ⟨s, hrun, hdown, hlogs, (flows_recorded hrun).1⟩

/-- **The uptime against the states, in every run of the UI process and its drivers**, access by access: the
    state that is shown is the one that was applied last, and the uptime counts from the moment at which the
    tunnel became connected, as long as no state since was one that is not active, nor connected after a
    pause. -/
theorem uptime_recorded (hrun : exec (silent (Drivers.step D)) {} ls = some s) :
    s.app.vpn.state = VpnEngine.lastState (VpnEngine.appliedStates (VpnEngine.actions (reached D ls))) ∧
    (∀ t, s.app.vpn.connectedSince = some t ↔
      VpnEngine.Uptime (VpnEngine.appliedStates (VpnEngine.actions (reached D ls))) t) ∧
    (s.app.vpn.state = .connected → s.app.vpn.connectedSince.isSome = true) ∧
    (s.app.vpn.connectedSince.isSome = true → s.app.vpn.state.isActive = true) := by
  have htimed : VpnEngine.Timed (reached D ls) s.app.vpn := by
    refine reached_inv ⟨tidy_start, rfl, fun t => ?_⟩ (fun _ _ _ h ha => VpnEngine.timed_concat h ha)
      (fun _ _ h => VpnEngine.timed_clearLogs h) hrun
    exact ⟨fun h => (by cases h), fun h => absurd h VpnEngine.not_uptime_nil⟩
  refine ⟨htimed.state, htimed.since, fun hconnected => ?_, fun hsince => ?_⟩
  · obtain ⟨t, ht⟩ := VpnEngine.exists_uptime (htimed.state.symm.trans hconnected)
    rw [(htimed.since t).2 ht]
    rfl
  · obtain ⟨t, ht⟩ := Option.isSome_iff_exists.1 hsince
    rw [htimed.state]
    exact ((htimed.since t).1 ht).active

theorem uptime_recorded_sampleSession :
    ∃ s, exec (silent (Drivers.step sampleStores)) {} sampleSession = some s ∧
    VpnEngine.Uptime (VpnEngine.appliedStates (VpnEngine.actions (reached sampleStores sampleSession))) 1 := by
  obtain ⟨s, hrun, hsince⟩ : ∃ s, exec (silent (Drivers.step sampleStores)) {} sampleSession = some s ∧
      s.app.vpn.connectedSince = some 1 := ⟨_, rfl, rfl⟩
  exact ⟨s, hrun, ((uptime_recorded hrun).2.1 1).1 hsince⟩

end Runs

end Drivers

end SwiftVpn
