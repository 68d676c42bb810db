/-
  File:      SwiftVpn/Xray/Session.lean
  Subject:   WHICH PROFILE THE XRAY TUNNEL BELONGS TO: the UI process and the service, with the
             commands and the EV_* messages on their way between them.

  * `XraySession` -- the UI process (`App`), the START and STOP intents not handled yet, the
    instances of the service and the messages not delivered yet, both in order;
  * `ended` (the monitor of `identityStep`) -- an EV_STOPPED or EV_ERROR has landed since the most
    recent connect assigned `connectedUuid`;
  * `punctual` -- EV_CONNECTED is delivered only while that is not so, and a connect call that has
    been overtaken by a later one assigns no uuid over the later one's;
  * `session_identity` -- along such steps, whenever nothing is in flight and the state is CONNECTED,
    both uuids are those of the most recent connect;
  * `session_lost` -- the EV_STOPPED of the session before lands inside the next connect.

  The messages carry no session, and `reportStopped` and `reportError` clear the uuids whatever
  session they come from. The service is free to send what it does (Xray/Service.lean).
-/
import SwiftVpn.Xray.Resources

namespace SwiftVpn

open Machine

/-! ## 1. The two processes -/

/-- The intents of `XrayVpnService.start` and `XrayVpnService.stop`. -/
inductive XrayCommand where
  | start (uuid : Uuid)
  | stop
  deriving DecidableEq, Repr

/-- The UI process and the service. `services` are the instances of the service, the newest last;
    `commands` and `messages` have the oldest first. -/
structure XraySession where
  app : App := {}
  commands : List XrayCommand := []
  services : List XrayVpnService := []
  messages : List XrayEvent := []
  deriving DecidableEq, Repr

inductive SessionLabel where
  | connect (uuid : Uuid)
  | disconnect (now : Int)
  | call (i : Nat) (inp : Input)
  | handle
  | service (k : Nat) (l : XrayLabel)
  | deliver (now : Int)
  deriving DecidableEq, Repr

namespace XraySession

/-- The intents a step of the UI process sends; `uuid` is the profile of the call that steps. -/
def intents (uuid : Uuid) (es : List Effect) : List XrayCommand :=
  es.filterMap fun e => match e with
    | .start .xray => some (.start uuid)
    | .stop .xray => some .stop
    | _ => none

/-- The messages among the effects of the service. -/
def sent (es : List XrayEffect) : List XrayEvent :=
  es.filterMap fun e => match e with
    | .send ev => some ev
    | _ => none

/-- An intent, as the service reads it. -/
def command : XrayCommand → XrayLabel
  | .start uuid => .start (some uuid)
  | .stop => .stop

/-- A step of the UI process, with its effects. -/
def ui (D : Stores) (s : XraySession) (uuid : Uuid) (l : Label) :
    Option (XraySession × List Effect) :=
  match s.app.step D l with
  | none => none
  | some (app, es) => some ({ s with app := app, commands := s.commands ++ intents uuid es }, es)

/-- A step of the instance `k`. -/
def serve (D : Stores) (s : XraySession) (k : Nat) (l : XrayLabel) :
    Option (XraySession × List Effect) :=
  match s.services[k]? with
  | none => none
  | some svc =>
    match svc.step D l with
    | none => none
    | some (svc', es) =>
      some ({ s with services := s.services.set k svc', messages := s.messages ++ sent es }, [])

/-- The instance that receives the next intent: the newest, or a new one where that is
    destroyed. -/
def started (s : XraySession) : XraySession :=
  match s.services.getLast? with
  | some svc => if svc.destroyed then { s with services := s.services ++ [{}] } else s
  | none => { s with services := [{}] }

/-- One step. The connects are those of Xray profiles, and the service hears no command but the
    intents. -/
def step (D : Stores) (s : XraySession) : SessionLabel → Option (XraySession × List Effect)
  | .connect uuid => if D.protocolOf uuid = .xray then s.ui D uuid (.connect uuid) else none
  | .disconnect now => s.ui D "" (.disconnect now)
  | .call i inp =>
    match s.app.calls[i]? with
    | none => none
    | some c => s.ui D c.uuid (.call i inp)
  | .handle =>
    match s.commands with
    | [] => none
    | c :: cs =>
      let s := { s with commands := cs }.started
      s.serve D (s.services.length - 1) (command c)
  | .service k l =>
    match l with
    | .start _ | .stop | .forceStop => none
    | _ => s.serve D k l
  | .deliver now =>
    match s.messages with
    | [] => none
    | ev :: evs => { s with messages := evs }.ui D "" (.xray 0 ev now)

/-- No command and no message is in flight. -/
def Quiet (s : XraySession) : Prop :=
  s.app.calls.all Call.finished = true ∧ s.commands = [] ∧ s.messages = []

end XraySession

/-! ## 2. The monitor -/

/-- The call has assigned `connectedUuid`. -/
def Pc.named : Pc → Bool
  | .xrayActive | .xrayState | .xrayStart | .returned _ => true
  | _ => false

/-- The call has assigned `activeUuid`. -/
def Pc.activated : Pc → Bool
  | .xrayState | .xrayStart | .returned _ => true
  | _ => false

/-- What the monitor makes of a step of a call that stands at `pc`; `newest` is true where it is the
    most recent connect. -/
def landedAt (pc : Pc) (newest : Bool) (inp : Input) (ended : Bool) : Bool :=
  match pc with
  | .xrayConnected => ended && !newest
  | .xrayStart => ended || !inp.started
  | _ => ended

/-- Watches for an EV_STOPPED or EV_ERROR since the most recent connect assigned `connectedUuid`; a
    start that throws reports an error as well. -/
def landed (s : XraySession) (l : SessionLabel) (ended : Bool) : Bool :=
  match l with
  | .deliver _ => ended || s.messages.head?.any XrayEvent.ends
  | .call i inp =>
    match s.app.calls[i]? with
    | some c => landedAt c.pc (i + 1 == s.app.calls.length) inp ended
    | none => ended
  | _ => ended

/-- The two processes under the monitor. -/
def identityStep (D : Stores) : XraySession × Bool → SessionLabel → Option (XraySession × Bool) :=
  observed (XraySession.step D) fun s l _ ended => landed s l ended

/-- EV_CONNECTED comes before the end of its session is reported, and an overtaken call does not
    assign its uuid over that of the most recent connect. -/
def punctual (x : XraySession × Bool) : SessionLabel → Bool
  | .deliver _ =>
    x.1.messages.head? != some .connected || !x.2 ||
      x.1.app.calls.getLast?.all fun k => !k.pc.named
  | .call i _ =>
    x.1.app.calls[i]?.all fun c => x.1.app.calls.getLast?.all fun k =>
      i + 1 == x.1.app.calls.length || c.uuid == k.uuid || match c.pc with
        | .xrayConnected => !k.pc.named
        | .xrayActive => !k.pc.activated
        | _ => true
  | _ => true

/-! ## 3. What a step does to the two uuids -/

/-- A step is one of the UI process, or leaves that alone. -/
theorem session_cases {D : Stores} {s s' : XraySession} {l : SessionLabel} {es : List Effect}
    (h : s.step D l = some (s', es)) :
    s'.app = s.app ∧ (∀ now, l ≠ .deliver now) ∧ (∀ i inp, l ≠ .call i inp) ∨
    (∃ uuid, l = .connect uuid ∧ D.protocolOf uuid = .xray ∧
      s.app.step D (.connect uuid) = some (s'.app, es)) ∨
    (∃ now, l = .disconnect now ∧ s.app.step D (.disconnect now) = some (s'.app, es)) ∨
    (∃ i inp, l = .call i inp ∧ s.app.step D (.call i inp) = some (s'.app, es)) ∨
    (∃ now ev, l = .deliver now ∧ s.messages.head? = some ev ∧
      s.app.step D (.xray 0 ev now) = some (s'.app, es)) := by
  have hui : ∀ {r : XraySession} {uuid : Uuid} {k : Label}, r.ui D uuid k = some (s', es) →
      r.app.step D k = some (s'.app, es) := by
    intro r uuid k hr
    unfold XraySession.ui at hr
    cases hs : r.app.step D k with
    | none => rw [hs] at hr; cases hr
    | some q =>
      rw [hs] at hr
      obtain ⟨rfl, rfl⟩ := hr
      rfl
  have hserve : ∀ {r : XraySession} {k : Nat} {c : XrayLabel}, r.serve D k c = some (s', es) →
      s'.app = r.app := by
    intro r k c hr
    unfold XraySession.serve at hr
    split at hr
    · cases hr
    · split at hr
      · cases hr
      · obtain ⟨rfl, rfl⟩ := hr
        rfl
  cases l with
  | connect uuid =>
    simp only [XraySession.step] at h
    split at h
    · rename_i hp
      exact .inr (.inl ⟨uuid, rfl, hp, hui h⟩)
    · cases h
  | disconnect now => exact .inr (.inr (.inl ⟨now, rfl, hui h⟩))
  | call i inp =>
    simp only [XraySession.step] at h
    split at h
    · cases h
    · exact .inr (.inr (.inr (.inl ⟨i, inp, rfl, hui h⟩)))
  | handle =>
    simp only [XraySession.step] at h
    split at h
    · cases h
    · rename_i c cs hc
      refine .inl ⟨(hserve h).trans ?_, fun _ hl => ?_, fun _ _ hl => ?_⟩
      rotate_left
      · cases hl
      · cases hl
      unfold XraySession.started
      dsimp only
      split
      · split <;> rfl
      · rfl
  | service k l =>
    refine .inl ⟨?_, fun _ hl => ?_, fun _ _ hl => ?_⟩
    rotate_left
    · cases hl
    · cases hl
    simp only [XraySession.step] at h
    split at h
    · cases h
    · cases h
    · cases h
    · exact hserve h
  | deliver now =>
    simp only [XraySession.step] at h
    split at h
    · cases h
    · rename_i ev evs hm
      have hstep := hui h
      exact .inr (.inr (.inr (.inr ⟨now, ev, rfl, by rw [hm]; rfl, hstep⟩)))

/-- What a report of Xray does, behind its gate. -/
theorem perform_xrayState (e : VpnEngine) (st : VpnState) (message : Option String) (now : Int) :
    (e.perform (.onState .xray st message now)).state =
        (if e.activeProtocol = .xray then st else e.state) ∧
      (e.perform (.onState .xray st message now)).connectedUuid =
        (if e.activeProtocol = .xray ∧ st = .disconnected then none else e.connectedUuid) := by
  by_cases ha : e.activeProtocol = .xray
  · simp [VpnEngine.perform, VpnEngine.gated, ha]
  · simp [VpnEngine.perform, VpnEngine.gated, ha]

/-- What the router makes of a message of the service. -/
structure Reported (e e' : VpnEngine) (ev : XrayEvent) : Prop where
  activeProtocol : e'.activeProtocol = e.activeProtocol
  state : e'.state = .connected →
    (ev = .connected ∧ e.activeProtocol = .xray) ∨ e.state = .connected
  ends : ev.ends = true → e.activeProtocol = .xray → e'.state ≠ .connected
  connectedUuid : ev.ends = false → e'.connectedUuid = e.connectedUuid

theorem xrayEvent_reported (e : VpnEngine) (ev : XrayEvent) (now : Int) :
    Reported e (e.performAll (ev.actions now)) ev := by
  have hlinks : ∀ a ∈ ev.actions now, a.links = false := by
    cases ev <;> simp [XrayEvent.actions, Action.links]
  have hap := (VpnEngine.performAll_sameLink e hlinks).activeProtocol
  -- a message that is no state report
  have hquiet : ∀ f : VpnEngine → VpnEngine, ev.ends = false →
      e.performAll (ev.actions now) = e.gated .xray f →
      (f e).state = e.state → (f e).connectedUuid = e.connectedUuid →
      Reported e (e.performAll (ev.actions now)) ev := by
    intro f hend heq hst hco
    refine ⟨hap, fun hs => .inr ?_, fun he => ?_, fun _ => ?_⟩
    · rw [heq, VpnEngine.gated] at hs
      split at hs
      · rw [hst] at hs
        exact hs
      · exact hs
    · rw [hend] at he
      cases he
    · rw [heq, VpnEngine.gated]
      split
      · exact hco
      · rfl
  -- a report that the session has ended
  have hend : ∀ (e₁ : VpnEngine) (m : Option String), ev.ends = true →
      e.performAll (ev.actions now) = e₁.perform (.onState .xray .disconnected m now) →
      e₁.activeProtocol = e.activeProtocol → e₁.state = e.state →
      Reported e (e.performAll (ev.actions now)) ev := by
    intro e₁ m he heq hap₁ hst₁
    have hst := (perform_xrayState e₁ .disconnected m now).1
    rw [hap₁, hst₁] at hst
    refine ⟨hap, fun hs => .inr ?_, fun _ ha hs => ?_, fun hf => ?_⟩
    · rw [heq, hst] at hs
      split at hs
      · cases hs
      · exact hs
    · rw [heq, hst, if_pos ha] at hs
      cases hs
    · rw [he] at hf
      cases hf
  cases ev with
  | connected =>
    have heq : e.performAll (XrayEvent.connected.actions now) =
        e.perform (.onState .xray .connected none now) := rfl
    obtain ⟨hst, hco⟩ := perform_xrayState e .connected none now
    refine ⟨hap, fun hs => ?_, (fun hc => by cases hc), fun _ => ?_⟩
    · by_cases ha : e.activeProtocol = .xray
      · exact .inl ⟨rfl, ha⟩
      · rw [heq, hst, if_neg ha] at hs
        exact .inr hs
    · rw [heq, hco, if_neg fun hc => by cases hc.2]
  | error m =>
    refine hend (e.perform (.onLog .xray ("Xray failed: " ++ m) now)) (some m) rfl rfl ?_ ?_
    · exact (VpnEngine.perform_sameLink e rfl).activeProtocol
    · simp only [VpnEngine.perform, VpnEngine.gated]
      split
      · exact VpnEngine.appendLog_state e now _
      · rfl
  | stopped => exact hend e none rfl rfl rfl rfl
  | bytes inB outB dIn dOut =>
    refine hquiet (·.applyBytes inB outB dIn dOut) rfl rfl ?_ ?_
    · unfold VpnEngine.applyBytes
      dsimp only
      split
      · split <;> rfl
      · rfl
    · unfold VpnEngine.applyBytes
      dsimp only
      split
      · split <;> rfl
      · rfl
  | log m =>
    exact hquiet (·.appendLog m now) rfl rfl (VpnEngine.appendLog_state e now m)
      (VpnEngine.appendLog_connectedUuid e now m)
  | tunnelInfo info => exact hquiet (fun e => { e with tunnelInfo := info }) rfl rfl rfl rfl

/-- What a step of a call on an Xray profile does to the router's state, to `activeProtocol` and to
    the two uuids. -/
inductive UuidMove (uuid : Uuid) (inp : Input) (s r : App) : Pc → Pc → Prop where
  | keep (pc pc' : Pc) (hname : pc'.named = pc.named) (hact : pc'.activated = pc.activated)
      (hasg : pc'.assigned = pc.assigned)
      (hstart : pc = .xrayStart → inp.started = true) (hpc : pc ≠ .xrayConnected)
      (hstate : r.vpn.state = .connected → s.vpn.state = .connected)
      (hap : r.vpn.activeProtocol = s.vpn.activeProtocol)
      (hconn : r.vpn.connectedUuid = s.vpn.connectedUuid) (hx : r.xrayUuid = s.xrayUuid) :
      UuidMove uuid inp s r pc pc'
  | protocol (hstate : r.vpn.state = s.vpn.state) (hap : r.vpn.activeProtocol = .xray)
      (hconn : r.vpn.connectedUuid = s.vpn.connectedUuid) (hx : r.xrayUuid = s.xrayUuid) :
      UuidMove uuid inp s r .setProtocol .xrayConnecting
  | name (hstate : r.vpn.state = s.vpn.state) (hap : r.vpn.activeProtocol = s.vpn.activeProtocol)
      (hconn : r.vpn.connectedUuid = some uuid) (hx : r.xrayUuid = s.xrayUuid) :
      UuidMove uuid inp s r .xrayConnected .xrayActive
  | activate (hstate : r.vpn.state = s.vpn.state)
      (hap : r.vpn.activeProtocol = s.vpn.activeProtocol)
      (hconn : r.vpn.connectedUuid = s.vpn.connectedUuid) (hx : r.xrayUuid = some uuid) :
      UuidMove uuid inp s r .xrayActive .xrayState
  | threw (hs : inp.started = false) (hap : r.vpn.activeProtocol = s.vpn.activeProtocol)
      (hstate : s.vpn.activeProtocol = .xray → r.vpn.state ≠ .connected)
      (hshown : r.vpn.state = .connected → s.vpn.state = .connected) :
      UuidMove uuid inp s r .xrayStart (.returned true)

theorem xrayCall_move {D : Stores} {s s' : App} {i : Nat} {uuid : Uuid} {inp : Input} {pc pc' : Pc}
    {es : List Effect} (h : CallMove D s i uuid .xray inp pc s' pc' es)
    (hhome : ∀ q, pc.home = some q → .xray = q)
    (hap : s.vpn.activeProtocol = .openvpn ∨ s.vpn.activeProtocol = .xray) :
    UuidMove uuid inp s (s'.apply es) pc pc' := by
  have hforeign : ∀ now, s.vpn.performAll [.onState .wireguard .disconnected none now] = s.vpn := by
    intro now
    refine VpnEngine.performAll_foreign (p := .wireguard) (by simp [Action.engine]) ?_
    rcases hap with ha | ha <;> rw [ha] <;> decide
  cases h with
  | ovpnStop | ovpnSkip | wgStop | wgIdle | ikeStop | ikeSkip | reset | pending =>
    exact .keep _ _ rfl rfl rfl (fun h => by cases h) (fun h => by cases h) (fun h => h) rfl rfl rfl
  | wgSkip hp => cases hp
  | xrayStop hp => exact absurd rfl hp
  | awaited j hj =>
    have hr : (s.apply [.router (.onState .wireguard .disconnected none inp.now)]).vpn = s.vpn :=
      hforeign inp.now
    refine .keep _ _ rfl rfl rfl (fun h => by cases h) (fun h => by cases h) ?_ ?_ ?_ rfl
    · rw [hr]
      exact fun h => h
    · rw [hr]
    · rw [hr]
  | xraySkip => exact .keep _ _ rfl rfl rfl (fun h => by cases h) (fun h => by cases h) (fun h => h) rfl rfl rfl
  | protocol => exact .protocol rfl rfl rfl rfl
  | xrayConnecting =>
    have hr : (s.apply [.router (.applyState .connecting none inp.now)]).vpn =
        s.vpn.applyState .connecting none inp.now := rfl
    refine .keep _ _ rfl rfl rfl (fun h => by cases h) (fun h => by cases h) (fun h => ?_) ?_ ?_ rfl
    · rw [hr, VpnEngine.applyState_state] at h
      cases h
    · rw [hr, VpnEngine.applyState_activeProtocol]
    · rw [hr, VpnEngine.applyState_connectedUuid]
      rfl
  | xrayConnected => exact .name rfl rfl rfl rfl
  | xrayActive => exact .activate rfl rfl rfl rfl
  | xrayState =>
    have hr : (s.apply [.router (.onState .xray .connecting none inp.now)]).vpn =
        s.vpn.perform (.onState .xray .connecting none inp.now) := rfl
    obtain ⟨hstate, hconn⟩ := perform_xrayState s.vpn .connecting none inp.now
    refine .keep _ _ rfl rfl rfl (fun h => by cases h) (fun h => by cases h) (fun h => ?_) ?_ ?_ rfl
    · rw [hr, hstate] at h
      split at h
      · cases h
      · exact h
    · rw [hr]
      exact (VpnEngine.perform_sameLink s.vpn rfl).activeProtocol
    · rw [hr, hconn, if_neg (fun hc => by cases hc.2)]
  | xrayStarted hs => exact .keep _ _ rfl rfl rfl (fun _ => hs) (fun h => by cases h) (fun h => h) rfl rfl rfl
  | xrayThrew hs =>
    obtain ⟨hprot, hstate, hend, -⟩ := xrayEvent_reported s.vpn
      (.error "The VPN service could not be started") inp.now
    refine .threw hs hprot (fun ha => hend rfl ha) fun h => ?_
    exact (hstate h).resolve_left fun hc => by cases hc.1
  | _ => cases hhome _ rfl

/-! ## 4. The invariant -/

/-- The uuids of the call `k` stand from their assignment to the end of the session, and CONNECTED is
    not shown after that. -/
structure Stands (s : App) (ended : Bool) (k : Call) : Prop where
  named : k.pc.named = true → ended = false → s.vpn.connectedUuid = some k.uuid
  active : k.pc.activated = true → ended = false → s.xrayUuid = some k.uuid
  fresh : k.pc.named = true → s.vpn.state = .connected → ended = false

structure Identified (s : App) (ended : Bool) : Prop where
  calls : ∀ c ∈ s.calls, c.protocol = .xray
  home : AtHome s
  owner : ∀ c ∈ s.calls, c.pc.assigned = true → s.vpn.activeProtocol = .xray
  other : s.vpn.activeProtocol = .openvpn ∨ s.vpn.activeProtocol = .xray
  begun : s.vpn.activeProtocol = .xray → s.calls ≠ []
  shown : s.vpn.state = .connected → s.vpn.activeProtocol = .xray
  stands : ∀ k, s.calls.getLast? = some k → Stands s ended k

theorem identified_init : Identified {} false where
  calls c hc := by cases hc
  home c hc := by cases hc
  owner c hc := by cases hc
  other := .inl rfl
  begun h := by cases h
  shown h := by cases h
  stands k hk := by cases hk

theorem assigned_of_named {pc : Pc} (h : pc.named = true) : pc.assigned = true := by
  cases pc with
  | xrayActive | xrayState | xrayStart | returned => rfl
  | _ => cases h

theorem named_of_activated {pc : Pc} (h : pc.activated = true) : pc.named = true := by
  cases pc with
  | xrayState | xrayStart | returned => rfl
  | _ => cases h

/-- A call that has assigned nothing yet stands. -/
theorem stands_of_unnamed {s : App} {ended : Bool} {k : Call} (h : k.pc.named = false) :
    Stands s ended k := by
  have hn : k.pc.named ≠ true := by rw [h]; nofun
  exact ⟨fun hk => absurd hk hn, fun hk => absurd (named_of_activated hk) hn,
    fun hk => absurd hk hn⟩

/-- A step that leaves the calls, the state and the uuids alone. -/
theorem Identified.same {s s' : App} {ended : Bool} (I : Identified s ended)
    (hcalls : s'.calls = s.calls) (hap : s'.vpn.activeProtocol = s.vpn.activeProtocol)
    (hstate : s'.vpn.state = s.vpn.state) (hconn : s'.vpn.connectedUuid = s.vpn.connectedUuid)
    (hx : s'.xrayUuid = s.xrayUuid) : Identified s' ended where
  calls := by rw [hcalls]; exact I.calls
  home := by rw [AtHome, hcalls]; exact I.home
  owner := by rw [hcalls, hap]; exact I.owner
  other := by rw [hap]; exact I.other
  begun := by rw [hap, hcalls]; exact I.begun
  shown := by rw [hap, hstate]; exact I.shown
  stands k hk := by
    have S := I.stands k (hcalls ▸ hk)
    exact ⟨by rw [hconn]; exact S.named, by rw [hx]; exact S.active, by rw [hstate]; exact S.fresh⟩

theorem identified_connect {D : Stores} {s s' : App} {ended : Bool} {uuid : Uuid}
    {es : List Effect} (I : Identified s ended) (hp : D.protocolOf uuid = .xray)
    (h : s.step D (.connect uuid) = some (s', es)) : Identified s' ended := by
  have hhome := atHome_step I.home h
  obtain ⟨r, hc, rfl, -⟩ := step_control h
  obtain ⟨rfl, rfl⟩ := hc
  refine ⟨fun c hc => ?_, hhome, fun c hc ha => ?_, I.other,
    fun _ => List.append_ne_nil_of_right_ne_nil s.calls (List.cons_ne_nil _ _), I.shown,
    fun k hk => ?_⟩
  · rcases List.mem_append.mp hc with hc | hc
    · exact I.calls c hc
    · rw [List.mem_singleton.mp hc]
      exact hp
  · rcases List.mem_append.mp hc with hc | hc
    · exact I.owner c hc ha
    · rw [List.mem_singleton.mp hc] at ha
      cases ha
  · have hk : (s.calls ++ [Call.mk uuid (D.protocolOf uuid) .stopOpenVpn]).getLast? = some k := hk
    rw [List.getLast?_concat] at hk
    obtain rfl := Option.some.inj hk
    exact stands_of_unnamed rfl

theorem identified_disconnect {D : Stores} {s s' : App} {ended : Bool} {now : Int}
    {es : List Effect} (I : Identified s ended) (h : s.step D (.disconnect now) = some (s', es)) :
    Identified s' ended := by
  obtain ⟨r, hc, rfl, -⟩ := step_control h
  have htap : s.tap now = (r, es) := Option.some.inj hc
  unfold App.tap App.stopActive at htap
  rcases I.other with hp | hp
  · simp only [hp] at htap
    split at htap
    · obtain ⟨rfl, rfl⟩ := htap
      exact I.same rfl rfl rfl rfl rfl
    · obtain ⟨rfl, rfl⟩ := htap
      exact I.same rfl rfl rfl rfl rfl
  · simp only [hp] at htap
    obtain ⟨rfl, rfl⟩ := htap
    exact I.same rfl rfl rfl rfl rfl

/-- A message is delivered. -/
theorem identified_deliver {D : Stores} {s s' : App} {ended : Bool} {ev : XrayEvent} {now : Int}
    {es : List Effect} (I : Identified s ended)
    (hp : ev = .connected → ended = true → ∀ k, s.calls.getLast? = some k → k.pc.named = false)
    (h : s.step D (.xray 0 ev now) = some (s', es)) : Identified s' (ended || ev.ends) := by
  obtain ⟨r, hc, rfl, hvpn⟩ := step_control h
  obtain ⟨rfl, rfl⟩ := hc
  rw [accesses_map] at hvpn
  have R := xrayEvent_reported s.vpn ev now
  rw [← hvpn] at R
  refine ⟨I.calls, I.home, fun c hc ha => R.activeProtocol.trans (I.owner c hc ha), ?_, ?_,
    fun hs => ?_, fun k hk => ?_⟩
  · rw [R.activeProtocol]
    exact I.other
  · rw [R.activeProtocol]
    exact I.begun
  · rw [R.activeProtocol]
    rcases R.state hs with ⟨-, ha⟩ | hs
    · exact ha
    · exact I.shown hs
  · have S := I.stands k hk
    refine ⟨fun hn he => ?_, fun hn he => ?_, fun hn hs => ?_⟩
    · rw [Bool.or_eq_false_iff] at he
      rw [R.connectedUuid he.2]
      exact S.named hn he.1
    · rw [Bool.or_eq_false_iff] at he
      show (if ev.ends = true then none else s.xrayUuid) = some k.uuid
      rw [if_neg (by rw [he.2]; nofun)]
      exact S.active hn he.1
    · cases hend : ev.ends with
      | true =>
        have hap := I.owner k (List.mem_of_getLast? hk) (assigned_of_named hn)
        exact absurd hs (R.ends hend hap)
      | false =>
        rw [Bool.or_false]
        rcases R.state hs with ⟨rfl, -⟩ | hs
        · by_contra hne
          have hn' := hp rfl (by simpa using hne) k hk
          rw [hn] at hn'
          cases hn'
        · exact S.fresh hn hs

/-! ## 5. A step of a call -/

section Calls

variable {s r : App} {uuid : Uuid} {inp : Input} {pc pc' : Pc} {ended newest : Bool}

theorem UuidMove.landed_keep (hstart : pc = .xrayStart → inp.started = true)
    (hpc : pc ≠ .xrayConnected) : landedAt pc newest inp ended = ended := by
  cases pc with
  | xrayConnected => exact absurd rfl hpc
  | xrayStart => simp [landedAt, hstart rfl]
  | _ => rfl

/-- The router and the protocol after a step of a call. -/
theorem UuidMove.owner (h : UuidMove uuid inp s r pc pc') :
    (r.vpn.state = .connected → s.vpn.state = .connected) ∧
      (r.vpn.activeProtocol = .xray ∨
        (r.vpn.activeProtocol = s.vpn.activeProtocol ∧ pc'.assigned = pc.assigned)) := by
  cases h with
  | keep _ _ _ _ hasg _ _ hstate hap => exact ⟨hstate, .inr ⟨hap, hasg⟩⟩
  | protocol hstate hap => exact ⟨fun hs => hstate ▸ hs, .inl hap⟩
  | name hstate hap => exact ⟨fun hs => hstate ▸ hs, .inr ⟨hap, rfl⟩⟩
  | activate hstate hap => exact ⟨fun hs => hstate ▸ hs, .inr ⟨hap, rfl⟩⟩
  | threw _ hap _ hshown => exact ⟨hshown, .inr ⟨hap, rfl⟩⟩

/-- The most recent connect steps. -/
theorem UuidMove.stands_self (protocol : Protocol) (h : UuidMove uuid inp s r pc pc')
    (S : Stands s ended ⟨uuid, protocol, pc⟩)
    (ha : pc.assigned = true → s.vpn.activeProtocol = .xray) :
    Stands r (landedAt pc true inp ended) ⟨uuid, protocol, pc'⟩ := by
  cases h with
  | keep _ _ hname hact _ hstart hpc hstate _ hconn hx =>
    rw [UuidMove.landed_keep hstart hpc]
    refine ⟨fun hn he => ?_, fun hn he => ?_, fun hn hs => ?_⟩
    · exact hconn.trans (S.named (hname ▸ hn) he)
    · exact hx.trans (S.active (hact ▸ hn) he)
    · exact S.fresh (hname ▸ hn) (hstate hs)
  | protocol => exact stands_of_unnamed rfl
  | name _ _ hconn => exact ⟨fun _ _ => hconn, nofun, fun _ _ => Bool.and_false ended⟩
  | activate hstate _ hconn hx =>
    refine ⟨fun _ he => hconn.trans (S.named rfl he), fun _ _ => hx, fun _ hs => ?_⟩
    exact S.fresh rfl (hstate ▸ hs)
  | threw hs _ hstate =>
    have hend : landedAt .xrayStart true inp ended = true := by simp [landedAt, hs]
    rw [hend]
    exact ⟨fun _ => nofun, fun _ => nofun, fun _ hs => absurd hs (hstate (ha rfl))⟩

/-- A call steps that has been overtaken by `k`. -/
theorem UuidMove.stands_other {k : Call} (h : UuidMove uuid inp s r pc pc') (S : Stands s ended k)
    (ha : pc.assigned = true → s.vpn.activeProtocol = .xray)
    (hname : pc = .xrayConnected → uuid ≠ k.uuid → k.pc.named = false)
    (hact : pc = .xrayActive → uuid ≠ k.uuid → k.pc.activated = false) :
    Stands r (landedAt pc false inp ended) k := by
  cases h with
  | keep _ _ _ _ _ hstart hpc hstate _ hconn hx =>
    rw [UuidMove.landed_keep hstart hpc]
    refine ⟨fun hn he => ?_, fun hn he => ?_, fun hn hs => ?_⟩
    · exact hconn.trans (S.named hn he)
    · exact hx.trans (S.active hn he)
    · exact S.fresh hn (hstate hs)
  | protocol hstate _ hconn hx =>
    refine ⟨fun hn he => hconn.trans (S.named hn he), fun hn he => hx.trans (S.active hn he),
      fun hn hs => S.fresh hn (hstate ▸ hs)⟩
  | name hstate _ hconn hx =>
    have hend : landedAt .xrayConnected false inp ended = ended := Bool.and_true ended
    rw [hend]
    refine ⟨fun hn _ => ?_, fun hn he => hx.trans (S.active hn he),
      fun hn hs => S.fresh hn (hstate ▸ hs)⟩
    by_cases hu : uuid = k.uuid
    · exact hconn.trans (congrArg some hu)
    · rw [hname rfl hu] at hn
      cases hn
  | activate hstate _ hconn hx =>
    refine ⟨fun hn he => hconn.trans (S.named hn he), fun hn _ => ?_,
      fun hn hs => S.fresh hn (hstate ▸ hs)⟩
    by_cases hu : uuid = k.uuid
    · exact hx.trans (congrArg some hu)
    · rw [hact rfl hu] at hn
      cases hn
  | threw hs _ hstate =>
    have hend : landedAt .xrayStart false inp ended = true := by simp [landedAt, hs]
    rw [hend]
    exact ⟨fun _ => nofun, fun _ => nofun, fun _ hs => absurd hs (hstate (ha rfl))⟩

end Calls

theorem identified_call {D : Stores} {s s' : App} {ended : Bool} {i : Nat} {inp : Input}
    {es : List Effect} {c : Call} (I : Identified s ended) (hi : s.calls[i]? = some c)
    (hp : ∀ k, s.calls.getLast? = some k → i + 1 ≠ s.calls.length → c.uuid ≠ k.uuid →
      (c.pc = .xrayConnected → k.pc.named = false) ∧ (c.pc = .xrayActive → k.pc.activated = false))
    (h : s.step D (.call i inp) = some (s', es)) :
    Identified s' (landedAt c.pc (i + 1 == s.calls.length) inp ended) := by
  have hhome := atHome_step I.home h
  obtain ⟨_, hc, rfl, -⟩ := step_control h
  obtain ⟨c', r, pc, hi', hmove, rfl⟩ := control_call hc
  obtain rfl := Option.some.inj (hi'.symm.trans hi)
  have hmem : c' ∈ s.calls := List.mem_of_getElem? hi
  have hprot := I.calls c' hmem
  rw [hprot] at hmove
  have hu := xrayCall_move hmove (fun q hq => by rw [← hprot]; exact I.home c' hmem q hq) I.other
  obtain ⟨hshown, hap⟩ := hu.owner
  have hvpn : ({ r with calls := s.calls.set i { c' with pc := pc } } : App).apply es =
      { r.apply es with calls := s.calls.set i { c' with pc := pc } } := rfl
  rw [hvpn] at hhome ⊢
  have hbegun : s.calls.set i { c' with pc := pc } ≠ [] := by
    rw [ne_eq, List.set_eq_nil_iff]
    exact List.ne_nil_of_mem hmem
  refine ⟨fun d hd => ?_, hhome, fun d hd ha => ?_, ?_, fun _ => hbegun, fun hs => ?_,
    fun k hk => ?_⟩
  · rcases List.mem_or_eq_of_mem_set hd with hd | rfl
    · exact I.calls d hd
    · exact hprot
  · rcases hap with hap | ⟨hap, hasg⟩
    · exact hap
    · refine hap.trans ?_
      rcases List.mem_or_eq_of_mem_set hd with hd | rfl
      · exact I.owner d hd ha
      · exact I.owner c' hmem (hasg ▸ ha)
  · rcases hap with hap | ⟨hap, -⟩
    · exact .inr hap
    · show (r.apply es).vpn.activeProtocol = .openvpn ∨ (r.apply es).vpn.activeProtocol = .xray
      rw [hap]
      exact I.other
  · rcases hap with hap | ⟨hap, -⟩
    · exact hap
    · exact hap.trans (I.shown (hshown hs))
  · rcases getLast_set hi hk with ⟨hl, rfl⟩ | ⟨hl, hk⟩
    · have hlast : s.calls.getLast? = some c' := by
        rw [List.getLast?_eq_getElem?, ← hl]
        exact hi
      have S := hu.stands_self c'.protocol (I.stands c' hlast) (I.owner c' hmem)
      rw [beq_iff_eq.mpr hl]
      exact ⟨S.named, S.active, S.fresh⟩
    · have S := hu.stands_other (I.stands k hk) (I.owner c' hmem)
        (fun hpc hne => (hp k hk hl hne).1 hpc) fun hpc hne => (hp k hk hl hne).2 hpc
      rw [beq_eq_false_iff_ne.mpr hl]
      exact ⟨S.named, S.active, S.fresh⟩

/-! ## 6. Session identity -/

/-- Every punctual step keeps the invariant. -/
theorem identified_step {D : Stores} (x : XraySession × Bool) (l : SessionLabel)
    (x' : XraySession × Bool) (I : Identified x.1.app x.2) (hC : punctual x l = true)
    (h : identityStep D x l = some x') : Identified x'.1.app x'.2 := by
  obtain ⟨es, hs, hended⟩ := observed_some h
  rw [hended]
  rcases session_cases hs with ⟨happ, hl, hl'⟩ | ⟨uuid, rfl, hp, happ⟩ | ⟨now, rfl, happ⟩ |
    ⟨i, inp, rfl, happ⟩ | ⟨now, ev, rfl, hev, happ⟩
  · have hkeep : landed x.1 l x.2 = x.2 := by
      cases l with
      | deliver now => exact absurd rfl (hl now)
      | call i inp => exact absurd rfl (hl' i inp)
      | _ => rfl
    rw [happ, hkeep]
    exact I
  · exact identified_connect I hp happ
  · exact identified_disconnect I happ
  · obtain ⟨_, hc, -⟩ := step_control happ
    obtain ⟨c, -, -, hi, -⟩ := control_call hc
    have hlanded : landed x.1 (.call i inp) x.2 =
        landedAt c.pc (i + 1 == x.1.app.calls.length) inp x.2 := by
      simp only [landed, hi]
    rw [hlanded]
    refine identified_call I hi (fun k hk hlast hne => ?_) happ
    simp only [punctual, hi, hk, Option.all_some, beq_eq_false_iff_ne.mpr hlast,
      beq_eq_false_iff_ne.mpr hne, Bool.false_or] at hC
    constructor
    · intro hpc
      simpa [hpc] using hC
    · intro hpc
      simpa [hpc] using hC
  · have hlanded : landed x.1 (.deliver now) x.2 = (x.2 || ev.ends) := by
      simp only [landed, hev, Option.any_some]
    rw [hlanded]
    refine identified_deliver I (fun hconn hend k hk => ?_) happ
    simpa [punctual, hev, hconn, hend, hk] using hC

/-- **Session identity**: along punctual steps, whenever no command and no message is in flight and
    the router shows CONNECTED, both uuids are those of the most recent connect. -/
theorem session_identity (D : Stores) (ls : List SessionLabel) {s : XraySession}
    (hC : Along (identityStep D) (fun x l => punctual x l = true) ({}, false) ls)
    (h : exec (silent (XraySession.step D)) {} ls = some s) (hq : s.Quiet)
    (hs : s.app.vpn.state = .connected) :
    ∃ k, s.app.calls.getLast? = some k ∧ s.app.vpn.connectedUuid = some k.uuid ∧
      s.app.xrayUuid = some k.uuid := by
  obtain ⟨ended, hend⟩ := exec_observed (fun s l _ ended => landed s l ended) false h
  have I : Identified s.app ended :=
    exec_inv (I := fun x => Identified x.1.app x.2) identified_step identified_init hC hend
  obtain ⟨k, hk⟩ : ∃ k, s.app.calls.getLast? = some k :=
    ⟨_, List.getLast?_eq_some_getLast (I.begun (I.shown hs))⟩
  have hfin : k.finished = true := List.all_eq_true.mp hq.1 k (List.mem_of_getLast? hk)
  have hact : k.pc.activated = true := by
    unfold Call.finished at hfin
    split at hfin
    · rename_i hpc
      rw [hpc]
      rfl
    · cases hfin
  have hname := named_of_activated hact
  have S := I.stands k hk
  have hfresh := S.fresh hname hs
  exact ⟨k, hk, S.named hname hfresh, S.active hact hfresh⟩

/-- The connect call `i`, to its end. -/
def connectXray (i : Nat) (uuid : Uuid) : List SessionLabel :=
  .connect uuid :: List.replicate 12 (.call i {})

/-- The first session comes up and is reported; then the tap on disconnect, and its STOP. -/
def upAndStopped : List SessionLabel :=
  connectXray 0 "xray1" ++ [SessionLabel.handle] ++ (comeUp 0 40).map (SessionLabel.service 0) ++
    List.replicate 3 (SessionLabel.deliver 0) ++ [SessionLabel.disconnect 1, .handle]

/-- The second START is handled, and the second session comes up and is reported. -/
def upAgain : List SessionLabel :=
  [SessionLabel.handle] ++ (comeUp 2 41).map (SessionLabel.service 0) ++ List.replicate 3 (SessionLabel.deliver 2)

theorem session_identity_upAgain :
    ∃ s, exec (silent (XraySession.step sampleStores)) {}
        (upAndStopped ++ [.deliver 1] ++ connectXray 1 "xray2" ++ upAgain) = some s ∧
      s.app.vpn.state = .connected ∧ ∃ k, s.app.calls.getLast? = some k ∧ k.uuid = "xray2" ∧
        s.app.vpn.connectedUuid = some k.uuid ∧ s.app.xrayUuid = some k.uuid := by
  have hrun : ∃ s, exec (silent (XraySession.step sampleStores)) {}
        (upAndStopped ++ [.deliver 1] ++ connectXray 1 "xray2" ++ upAgain) = some s ∧
      s.Quiet ∧ s.app.vpn.state = .connected ∧
      s.app.calls.getLast?.all (·.uuid = "xray2") = true := by
    refine ⟨_, rfl, ⟨rfl, rfl, rfl⟩, ?_⟩
    decide
  obtain ⟨s, hs, hq, hst, hu⟩ := hrun
  obtain ⟨k, hk, huuids⟩ := session_identity sampleStores _ (by decide) hs hq hst
  rw [hk, Option.all_some, decide_eq_true_eq] at hu
  exact ⟨s, hs, hst, k, hk, hu, huuids⟩

/-- The EV_STOPPED of the first session is delivered when the connect of the second has returned and
    its START is still to be handled: **the tunnel comes up and belongs to no profile**. -/
theorem session_lost :
    ∃ s, exec (silent (XraySession.step sampleStores)) {}
        (upAndStopped ++ connectXray 1 "xray2" ++ [.deliver 1] ++ upAgain) = some s ∧
      s.Quiet ∧ s.app.vpn.state = .connected ∧
      s.app.calls.getLast?.map Call.uuid = some "xray2" ∧ s.app.vpn.connectedUuid = none ∧
      s.app.xrayUuid = none := by
  refine ⟨_, rfl, ⟨rfl, rfl, rfl⟩, ?_⟩
  decide

end SwiftVpn
