/-
  File:      SwiftVpn/Xray/Service.lean
  Subject:   THE XRAY SERVICE (XrayVpnService.kt), one instance of it: its fields, its coroutines
             and what it holds of the kernel and of the native core.

  * `XrayVpnService` -- the fields; `jobs` are the coroutines it has launched, `openFds` the TUN
    descriptors that are open, `running` the cores whose loop runs;
  * `jobStep` -- one step of a coroutine: `bringUp` (cut at every access to a field and at every
    native call), the poll loop with its stall watchdog, and the coroutine of `autoRestart`;
  * `XrayVpnService.step` -- the commands on the main thread, each one step with the `cleanup` it
    makes, and the steps of the coroutines;
  * `XrayMove` -- what one step of a coroutine does, `XrayTurn` -- what one step of the service does;
    `xrayStep_move` and `step_turn` -- that they do nothing else.

  Cancelling a coroutine takes effect where it asks: before its first step, at `isActive` and in
  `delay`. What the system and the native core answer is an input. The notification, its uptime
  (`connectedAt`), the breadcrumbs and `DiagnosticLog` are left out; of a config only whether there
  is one is kept.
-/
import SwiftVpn.Router.App

namespace SwiftVpn

/-! ## 1. The state -/

/-- Where a coroutine of the service stands. -/
inductive XrayPc where
  -- `bringUp`
  | start
  | config (id : Uuid)
  | establish (id : Uuid)
  | ensure (id : Uuid) (pfd : Nat)
  | detachFd (id : Uuid) (pfd : Nat)
  | newCore (id : Uuid) (fd : Nat)
  | log (id : Uuid) (fd core : Nat)
  | startLoop (id : Uuid) (fd core : Nat)
  | running (id : Uuid)
  | info (id : Uuid)
  | connected
  | startPolling
  -- `fail`
  | fail (message : String)
  | cleanup
  -- the coroutine of `autoRestart`
  | restart
  | relaunch
  -- the poll loop
  | pollHead (silentSeconds : Nat)
  | pollBody (silentSeconds : Nat)
  | stall (down up : Int)
  | stallFail (down up : Int)
  | stallCleanup (down up : Int)
  | bytes (silentSeconds : Nat) (down up : Int)
  | delay (silentSeconds : Nat)
  -- the coroutine of `onEmitStatus`
  | emit (line : String)
  | done
  deriving DecidableEq, Repr

/-- A coroutine; `scope` is the scope it was launched in, `none` for the detached one of
    `autoRestart`. -/
structure XrayJob where
  scope : Option Nat
  cancelled : Bool := false
  pc : XrayPc
  deriving DecidableEq, Repr

/-- The service. `reporter` is true where the messenger is not null; a scope and a core are named by
    the number under which they were made, `pollJob` is an index into `jobs`. -/
structure XrayVpnService where
  reporter : Bool := false
  controller : Option Nat := none
  tunFd : Int := -1
  scope : Option Nat := none
  pollJob : Option Nat := none
  uuid : Option Uuid := none
  totalIn : Int := 0
  totalOut : Int := 0
  stallRestarts : Nat := 0
  isTunnelRunning : Bool := false
  destroyed : Bool := false
  jobs : List XrayJob := []
  openFds : List Nat := []
  running : List Nat := []
  nextCore : Nat := 0
  nextScope : Nat := 0
  deriving DecidableEq, Repr

/-- What a step of a coroutine reads from outside: the descriptor `establish` answers (`none` for
    null), the message of a failed exclusion, whether `XrayRuntime.ensure` succeeds, what a native
    call throws, the core's version and its counters. -/
structure XrayInput where
  pfd : Option Nat := none
  notExcluded : Option String := none
  ensured : Bool := true
  failure : Option String := none
  version : String := "?"
  down : Int := 0
  up : Int := 0
  tunUp : Int := 0
  deriving DecidableEq, Repr

/-- What a step does outside the fields. -/
inductive XrayEffect where
  | send (ev : XrayEvent)
  | detachFd (fd : Int)
  | closeFd (fd : Int)
  | startLoop (core : Nat) (fd : Int)
  | stopLoop (core : Nat)
  | forceStopped
  deriving DecidableEq, Repr

inductive XrayLabel where
  | start (uuid : Option Uuid)
  | stop
  | forceStop
  | onRevoke
  | onDestroy
  | emitStatus (line : String)
  | job (j : Nat) (inp : XrayInput)
  deriving DecidableEq, Repr

namespace XrayVpnService

/-! ## 2. The steps -/

/-- `sendEvent`. -/
def sendEvent (s : XrayVpnService) (ev : XrayEvent) : List XrayEffect :=
  if s.reporter then [.send ev] else []

/-- The coroutines after `pollJob?.cancel()` and `scope?.cancel()`. -/
def cancelJobs (s : XrayVpnService) : List XrayJob :=
  s.jobs.mapIdx fun j job =>
    if s.pollJob = some j ∨ (s.scope ≠ none ∧ job.scope = s.scope) then
      { job with cancelled := true }
    else job

/-- `cleanup`. -/
def cleanup (s : XrayVpnService) : XrayVpnService :=
  { s with isTunnelRunning := false
           jobs := s.cancelJobs, pollJob := none, scope := none
           running := match s.controller with
             | some core => s.running.filter (· ≠ core)
             | none => s.running
           controller := none
           openFds := if s.tunFd ≥ 0 then s.openFds.filter fun fd => (fd : Int) ≠ s.tunFd
             else s.openFds
           tunFd := if s.tunFd ≥ 0 then -1 else s.tunFd }

/-- What `cleanup` stops and closes, in this order. -/
def cleanupEffects (s : XrayVpnService) : List XrayEffect :=
  (match s.controller with
    | some core => [.stopLoop core]
    | none => []) ++
  if s.tunFd ≥ 0 then [.closeFd s.tunFd] else []

/-- `bringUp`: its coroutine is launched in a scope of its own. -/
def bringUp (s : XrayVpnService) : XrayVpnService :=
  { s with scope := some s.nextScope, nextScope := s.nextScope + 1
           jobs := s.jobs ++ [⟨some s.nextScope, false, .start⟩] }

/-- `publishTunnelInfo`. -/
def tunnelInfo (remote summary : String) : TunnelInfo :=
  { remoteServer := some remote, proxy := some summary
    dnsServers := ["1.1.1.1", "2606:4700:4700::1111"], routes := ["0.0.0.0/0", "::/0"]
    mtu := some 1500 }

/-- One step of a coroutine; `cancelled` is that of its job. -/
def jobStep (D : Stores) (s : XrayVpnService) (inp : XrayInput) (cancelled : Bool) :
    XrayPc → Option (XrayVpnService × XrayPc × List XrayEffect)
  | .start =>
    if cancelled then some (s, .done, [])
    else match s.uuid with
      | none => some (s, .fail "No profile specified", [])
      | some id => some (s, .config id, [])
  | .config id =>
    if D.xrayConfig id = none then some (s, .fail "This Xray profile could not be read", [])
    else some (s, .establish id, [])
  | .establish id =>
    let line := match inp.notExcluded with
      | some m => s.sendEvent (.log ("could not exclude own package: " ++ m))
      | none => []
    match inp.pfd with
    | none => some (s, .fail "Android refused to create the tunnel interface", line)
    | some fd =>
      -- the kernel hands out a number that is not in use
      if fd ∈ s.openFds then none
      else some ({ s with openFds := fd :: s.openFds }, .ensure id fd, line)
  | .ensure id pfd =>
    if inp.ensured then some (s, .detachFd id pfd, [])
    else some ({ s with openFds := s.openFds.filter (· ≠ pfd) },
      .fail "Xray runtime could not be initialised", [])
  | .detachFd id pfd => some ({ s with tunFd := pfd }, .newCore id pfd, [.detachFd pfd])
  | .newCore id fd =>
    match inp.failure with
    | some m => some (s, .fail m, [])
    | none => some ({ s with controller := some s.nextCore, nextCore := s.nextCore + 1 },
        .log id fd s.nextCore, [])
  | .log id fd core =>
    some (s, .startLoop id fd core, s.sendEvent (.log ("Starting Xray: " ++ inp.version)))
  | .startLoop id fd core =>
    match inp.failure with
    | some m => some (s, .fail m, [])
    | none => some ({ s with running := core :: s.running }, .running id, [.startLoop core fd])
  | .running id => some ({ s with isTunnelRunning := true }, .info id, [])
  | .info id =>
    some (s, .connected, match D.xrayDescribe id with
      | some (remote, summary) => s.sendEvent (.tunnelInfo (tunnelInfo remote summary))
      | none => [])
  | .connected => some (s, .startPolling, s.sendEvent .connected)
  | .startPolling =>
    match s.scope with
    | none => some ({ s with pollJob := none }, .done, [])
    | some k =>
      some ({ s with pollJob := some s.jobs.length
                     jobs := s.jobs ++ [⟨some k, false, .pollHead 0⟩] }, .done, [])
  | .fail m => some (s, .cleanup, s.sendEvent (.error m))
  | .cleanup => some (s.cleanup, .done, s.cleanupEffects)
  | .restart => some (s.cleanup, .relaunch, s.cleanupEffects)
  | .relaunch => some (s.bringUp, .done, [])
  | .pollHead n =>
    if cancelled then some (s, .done, [])
    else if s.controller = none then some (s, .done, [])
    else some (s, .pollBody n, [])
  | .pollBody n =>
    let s := { s with totalIn := s.totalIn + inp.down, totalOut := s.totalOut + inp.up }
    if inp.down = 0 ∧ inp.tunUp > 0 then
      if n + 1 = 8 then some (s, .stall inp.down inp.up, [])
      else some (s, .bytes (n + 1) inp.down inp.up, [])
    else some ({ s with stallRestarts := 0 }, .bytes 0 inp.down inp.up, [])
  -- `autoRestart`
  | .stall down up =>
    let s := { s with stallRestarts := s.stallRestarts + 1 }
    if s.stallRestarts > 3 then
      some (s, .stallFail down up,
        s.sendEvent (.log "Tunnel kept stalling after 3 restarts — disconnecting"))
    else
      some ({ s with jobs := s.jobs ++ [⟨none, false, .restart⟩] }, .bytes 0 down up,
        s.sendEvent (.log ("No return traffic — restarting tunnel automatically (" ++
          toString s.stallRestarts ++ "/3)")))
  | .stallFail down up =>
    some (s, .stallCleanup down up,
      s.sendEvent (.error "The connection kept stalling; please reconnect"))
  | .stallCleanup down up => some (s.cleanup, .bytes 0 down up, s.cleanupEffects)
  | .bytes n down up => some (s, .delay n, s.sendEvent (.bytes s.totalIn s.totalOut down up))
  | .delay n => if cancelled then some (s, .done, []) else some (s, .pollHead n, [])
  | .emit line => some (s, .done, if cancelled then [] else s.sendEvent (.log line))
  | .done => none

/-- `shutdown`. -/
def shutdown (s : XrayVpnService) : XrayVpnService × List XrayEffect :=
  (s.cleanup, s.sendEvent .stopped ++ s.cleanupEffects)

/-- One step of the service. A START of the router carries a uuid and its messenger, one of the
    system neither. -/
def step (D : Stores) (s : XrayVpnService) : XrayLabel → Option (XrayVpnService × List XrayEffect)
  | .start uuid =>
    if s.destroyed then none
    else some ({ s with uuid := uuid, reporter := s.reporter || uuid.isSome
                        totalIn := 0, totalOut := 0 }.bringUp, [])
  | .stop => if s.destroyed then none else some s.shutdown
  | .forceStop =>
    if s.destroyed then none else some (s.cleanup, s.cleanupEffects ++ [.forceStopped])
  | .onRevoke => if s.destroyed then none else some s.shutdown
  | .onDestroy =>
    if s.destroyed then none
    else if s.controller ≠ none ∨ s.tunFd ≥ 0 then
      some ({ s.cleanup with destroyed := true }, s.sendEvent .stopped ++ s.cleanupEffects)
    else some ({ s with destroyed := true }, [])
  | .emitStatus line =>
    match s.scope with
    | some k =>
      if isBlank line then some (s, [])
      else some ({ s with jobs := s.jobs ++ [⟨some k, false, .emit line⟩] }, [])
    | none => some (s, [])
  | .job j inp =>
    match s.jobs[j]? with
    | none => none
    | some job =>
      match s.jobStep D inp job.cancelled job.pc with
      | none => none
      | some (s', pc, es) =>
        some ({ s' with jobs := s'.jobs.modify j fun job => { job with pc := pc } }, es)

end XrayVpnService

/-! ## 3. Every step of a coroutine -/

/-- What one step of a coroutine does: the service after it, the point it then stands at, and the
    effects. -/
inductive XrayMove (D : Stores) (s : XrayVpnService) (inp : XrayInput) :
    XrayPc → XrayVpnService → XrayPc → List XrayEffect → Prop where
  | skipped : XrayMove D s inp .start s .done []
  | noProfile (hu : s.uuid = none) :
      XrayMove D s inp .start s (.fail "No profile specified") []
  | begun (id : Uuid) (hu : s.uuid = some id) : XrayMove D s inp .start s (.config id) []
  | unreadable (id : Uuid) (hc : D.xrayConfig id = none) :
      XrayMove D s inp (.config id) s (.fail "This Xray profile could not be read") []
  | read (id : Uuid) (hc : D.xrayConfig id ≠ none) :
      XrayMove D s inp (.config id) s (.establish id) []
  | refused (id : Uuid) (line : List XrayEvent) (hl : .connected ∉ line) :
      XrayMove D s inp (.establish id) s (.fail "Android refused to create the tunnel interface")
        (line.map .send)
  | established (id : Uuid) (fd : Nat) (line : List XrayEvent) (hl : .connected ∉ line)
      (hfd : fd ∉ s.openFds) :
      XrayMove D s inp (.establish id) { s with openFds := fd :: s.openFds }
        (.ensure id fd) (line.map .send)
  | unready (id : Uuid) (pfd : Nat) :
      XrayMove D s inp (.ensure id pfd) { s with openFds := s.openFds.filter (· ≠ pfd) }
        (.fail "Xray runtime could not be initialised") []
  | ready (id : Uuid) (pfd : Nat) : XrayMove D s inp (.ensure id pfd) s (.detachFd id pfd) []
  | detachFd (id : Uuid) (pfd : Nat) :
      XrayMove D s inp (.detachFd id pfd) { s with tunFd := pfd } (.newCore id pfd)
        [.detachFd pfd]
  | coreThrew (id : Uuid) (fd : Nat) (m : String) :
      XrayMove D s inp (.newCore id fd) s (.fail m) []
  | newCore (id : Uuid) (fd : Nat) :
      XrayMove D s inp (.newCore id fd)
        { s with controller := some s.nextCore, nextCore := s.nextCore + 1 }
        (.log id fd s.nextCore) []
  | log (id : Uuid) (fd core : Nat) (m : String) :
      XrayMove D s inp (.log id fd core) s (.startLoop id fd core) (s.sendEvent (.log m))
  | loopThrew (id : Uuid) (fd core : Nat) (m : String) (hf : inp.failure = some m) :
      XrayMove D s inp (.startLoop id fd core) s (.fail m) []
  | startLoop (id : Uuid) (fd core : Nat) (hf : inp.failure = none) :
      XrayMove D s inp (.startLoop id fd core) { s with running := core :: s.running } (.running id)
        [.startLoop core fd]
  | running (id : Uuid) :
      XrayMove D s inp (.running id) { s with isTunnelRunning := true } (.info id) []
  | info (id : Uuid) (line : List XrayEvent) (hl : .connected ∉ line) :
      XrayMove D s inp (.info id) s .connected (line.map .send)
  | connected : XrayMove D s inp .connected s .startPolling (s.sendEvent .connected)
  | noPolling (hs : s.scope = none) :
      XrayMove D s inp .startPolling { s with pollJob := none } .done []
  | startPolling (k : Nat) (hs : s.scope = some k) :
      XrayMove D s inp .startPolling
        { s with pollJob := some s.jobs.length, jobs := s.jobs ++ [⟨some k, false, .pollHead 0⟩] }
        .done []
  | fail (m : String) : XrayMove D s inp (.fail m) s .cleanup (s.sendEvent (.error m))
  | cleanup : XrayMove D s inp .cleanup s.cleanup .done s.cleanupEffects
  | restart : XrayMove D s inp .restart s.cleanup .relaunch s.cleanupEffects
  | relaunch : XrayMove D s inp .relaunch s.bringUp .done []
  | pollEnd (n : Nat) : XrayMove D s inp (.pollHead n) s .done []
  | pollHead (n : Nat) : XrayMove D s inp (.pollHead n) s (.pollBody n) []
  | silent (n : Nat) (tin tout : Int) (hs : inp.down = 0 ∧ inp.tunUp > 0) :
      XrayMove D s inp (.pollBody n) { s with totalIn := tin, totalOut := tout }
        (.bytes (n + 1) inp.down inp.up) []
  | stalled (n : Nat) (tin tout : Int) (hs : inp.down = 0 ∧ inp.tunUp > 0) :
      XrayMove D s inp (.pollBody n) { s with totalIn := tin, totalOut := tout }
        (.stall inp.down inp.up) []
  | alive (n : Nat) (tin tout : Int) (hs : ¬ (inp.down = 0 ∧ inp.tunUp > 0)) :
      XrayMove D s inp (.pollBody n)
        { s with totalIn := tin, totalOut := tout, stallRestarts := 0 }
        (.bytes 0 inp.down inp.up) []
  | autoRestart (down up : Int) (m : String) (hr : s.stallRestarts < 3) :
      XrayMove D s inp (.stall down up)
        { s with stallRestarts := s.stallRestarts + 1
                 jobs := s.jobs ++ [⟨none, false, .restart⟩] }
        (.bytes 0 down up) (s.sendEvent (.log m))
  | giveUp (down up : Int) (m : String) (hr : ¬ s.stallRestarts < 3) :
      XrayMove D s inp (.stall down up) { s with stallRestarts := s.stallRestarts + 1 }
        (.stallFail down up) (s.sendEvent (.log m))
  | stallFail (down up : Int) (m : String) :
      XrayMove D s inp (.stallFail down up) s (.stallCleanup down up) (s.sendEvent (.error m))
  | stallCleanup (down up : Int) :
      XrayMove D s inp (.stallCleanup down up) s.cleanup (.bytes 0 down up) s.cleanupEffects
  | bytes (n : Nat) (down up : Int) :
      XrayMove D s inp (.bytes n down up) s (.delay n)
        (s.sendEvent (.bytes s.totalIn s.totalOut down up))
  | delayEnd (n : Nat) : XrayMove D s inp (.delay n) s .done []
  | delay (n : Nat) : XrayMove D s inp (.delay n) s (.pollHead n) []
  | emit (line : String) (ls : List XrayEvent) (hl : .connected ∉ ls) :
      XrayMove D s inp (.emit line) s .done (ls.map .send)

/-- An event is sent or, without a reporter, dropped. -/
theorem sendEvent_eq (s : XrayVpnService) (ev : XrayEvent) :
    ∃ line : List XrayEvent, s.sendEvent ev = line.map .send ∧ ∀ e ∈ line, e = ev := by
  unfold XrayVpnService.sendEvent
  split
  · exact ⟨[ev], rfl, fun e he => List.mem_singleton.mp he⟩
  · exact ⟨[], rfl, fun e he => by cases he⟩

theorem sendEvent_other (s : XrayVpnService) {ev : XrayEvent} (h : ev ≠ .connected) :
    ∃ line : List XrayEvent, s.sendEvent ev = line.map .send ∧ .connected ∉ line := by
  obtain ⟨line, he, hl⟩ := sendEvent_eq s ev
  exact ⟨line, he, fun hc => h (hl _ hc).symm⟩

/-- Every step of a coroutine is one of the moves. -/
theorem xrayStep_move {D : Stores} {s s' : XrayVpnService} {inp : XrayInput} {cancelled : Bool}
    {pc pc' : XrayPc} {es : List XrayEffect}
    (h : s.jobStep D inp cancelled pc = some (s', pc', es)) : XrayMove D s inp pc s' pc' es := by
  cases pc with
  | start =>
    simp only [XrayVpnService.jobStep] at h
    split at h
    · obtain ⟨rfl, rfl, rfl⟩ := h
      exact .skipped
    · split at h
      · rename_i hu
        obtain ⟨rfl, rfl, rfl⟩ := h
        exact .noProfile hu
      · rename_i id hu
        obtain ⟨rfl, rfl, rfl⟩ := h
        exact .begun id hu
  | config id =>
    simp only [XrayVpnService.jobStep] at h
    split at h
    · rename_i hc
      obtain ⟨rfl, rfl, rfl⟩ := h
      exact .unreadable id hc
    · rename_i hc
      obtain ⟨rfl, rfl, rfl⟩ := h
      exact .read id hc
  | establish id =>
    have hline : ∃ line : List XrayEvent, (match inp.notExcluded with
        | some m => s.sendEvent (.log ("could not exclude own package: " ++ m))
        | none => []) = line.map .send ∧ .connected ∉ line := by
      split
      · exact sendEvent_other s nofun
      · exact ⟨[], rfl, nofun⟩
    obtain ⟨line, hl, hn⟩ := hline
    simp only [XrayVpnService.jobStep, hl] at h
    split at h
    · obtain ⟨rfl, rfl, rfl⟩ := h
      exact .refused id line hn
    · rename_i fd hfd
      split at h
      · cases h
      · rename_i hfree
        obtain ⟨rfl, rfl, rfl⟩ := h
        exact .established id fd line hn hfree
  | ensure id pfd =>
    simp only [XrayVpnService.jobStep] at h
    split at h
    · obtain ⟨rfl, rfl, rfl⟩ := h
      exact .ready id pfd
    · obtain ⟨rfl, rfl, rfl⟩ := h
      exact .unready id pfd
  | detachFd id pfd =>
    obtain ⟨rfl, rfl, rfl⟩ := h
    exact .detachFd id pfd
  | newCore id fd =>
    simp only [XrayVpnService.jobStep] at h
    split at h
    · rename_i m hf
      obtain ⟨rfl, rfl, rfl⟩ := h
      exact .coreThrew id fd m
    · obtain ⟨rfl, rfl, rfl⟩ := h
      exact .newCore id fd
  | log id fd core =>
    obtain ⟨rfl, rfl, rfl⟩ := h
    exact .log id fd core _
  | startLoop id fd core =>
    simp only [XrayVpnService.jobStep] at h
    split at h
    · rename_i m hf
      obtain ⟨rfl, rfl, rfl⟩ := h
      exact .loopThrew id fd core m hf
    · rename_i hf
      obtain ⟨rfl, rfl, rfl⟩ := h
      exact .startLoop id fd core hf
  | running id =>
    obtain ⟨rfl, rfl, rfl⟩ := h
    exact .running id
  | info id =>
    have hline : ∃ line : List XrayEvent, (match D.xrayDescribe id with
        | some (remote, summary) =>
          s.sendEvent (.tunnelInfo (XrayVpnService.tunnelInfo remote summary))
        | none => []) = line.map .send ∧ .connected ∉ line := by
      split
      · exact sendEvent_other s nofun
      · exact ⟨[], rfl, nofun⟩
    obtain ⟨line, hl, hn⟩ := hline
    simp only [XrayVpnService.jobStep, hl] at h
    obtain ⟨rfl, rfl, rfl⟩ := h
    exact .info id line hn
  | connected =>
    obtain ⟨rfl, rfl, rfl⟩ := h
    exact .connected
  | startPolling =>
    simp only [XrayVpnService.jobStep] at h
    split at h
    · rename_i hs
      obtain ⟨rfl, rfl, rfl⟩ := h
      exact .noPolling hs
    · rename_i k hs
      obtain ⟨rfl, rfl, rfl⟩ := h
      exact .startPolling k hs
  | fail m =>
    obtain ⟨rfl, rfl, rfl⟩ := h
    exact .fail m
  | cleanup =>
    obtain ⟨rfl, rfl, rfl⟩ := h
    exact .cleanup
  | restart =>
    obtain ⟨rfl, rfl, rfl⟩ := h
    exact .restart
  | relaunch =>
    obtain ⟨rfl, rfl, rfl⟩ := h
    exact .relaunch
  | pollHead n =>
    simp only [XrayVpnService.jobStep] at h
    split at h
    · obtain ⟨rfl, rfl, rfl⟩ := h
      exact .pollEnd n
    · split at h
      · obtain ⟨rfl, rfl, rfl⟩ := h
        exact .pollEnd n
      · obtain ⟨rfl, rfl, rfl⟩ := h
        exact .pollHead n
  | pollBody n =>
    simp only [XrayVpnService.jobStep] at h
    split at h
    · rename_i hs
      split at h
      · obtain ⟨rfl, rfl, rfl⟩ := h
        exact .stalled n _ _ hs
      · obtain ⟨rfl, rfl, rfl⟩ := h
        exact .silent n _ _ hs
    · rename_i hs
      obtain ⟨rfl, rfl, rfl⟩ := h
      exact .alive n _ _ hs
  | stall down up =>
    simp only [XrayVpnService.jobStep] at h
    split at h
    · rename_i hr
      obtain ⟨rfl, rfl, rfl⟩ := h
      exact .giveUp down up _ (by omega)
    · rename_i hr
      obtain ⟨rfl, rfl, rfl⟩ := h
      exact .autoRestart down up _ (by omega)
  | stallFail down up =>
    obtain ⟨rfl, rfl, rfl⟩ := h
    exact .stallFail down up _
  | stallCleanup down up =>
    obtain ⟨rfl, rfl, rfl⟩ := h
    exact .stallCleanup down up
  | bytes n down up =>
    obtain ⟨rfl, rfl, rfl⟩ := h
    exact .bytes n down up
  | delay n =>
    simp only [XrayVpnService.jobStep] at h
    split at h
    · obtain ⟨rfl, rfl, rfl⟩ := h
      exact .delayEnd n
    · obtain ⟨rfl, rfl, rfl⟩ := h
      exact .delay n
  | emit line =>
    have hline : ∃ ls : List XrayEvent, (if cancelled then [] else s.sendEvent (.log line)) =
        ls.map .send ∧ .connected ∉ ls := by
      split
      · exact ⟨[], rfl, nofun⟩
      · exact sendEvent_other s nofun
    obtain ⟨ls, hl, hn⟩ := hline
    simp only [XrayVpnService.jobStep, hl] at h
    obtain ⟨rfl, rfl, rfl⟩ := h
    exact .emit line ls hn
  | done => cases h

/-! ## 4. The coroutines after a step -/

/-- The points the coroutines stand at. -/
def XrayVpnService.pcs (s : XrayVpnService) : List XrayPc := s.jobs.map XrayJob.pc

/-- Cancelling moves no coroutine. -/
@[simp] theorem cleanup_pcs (s : XrayVpnService) : s.cleanup.pcs = s.pcs := by
  show s.cancelJobs.map XrayJob.pc = s.jobs.map XrayJob.pc
  refine List.ext_getElem? fun k => ?_
  rw [List.getElem?_map, List.getElem?_map, XrayVpnService.cancelJobs, List.getElem?_mapIdx]
  cases s.jobs[k]? with
  | none => rfl
  | some job =>
    simp only [Option.map_some]
    split <;> rfl

theorem cleanup_tunFd (s : XrayVpnService) : s.cleanup.tunFd < 0 := by
  show (if s.tunFd ≥ 0 then -1 else s.tunFd) < 0
  split <;> omega

/-- The coroutines a step launches. -/
def XrayPc.launched (s : XrayVpnService) : XrayPc → List XrayPc
  | .startPolling => if s.scope = none then [] else [.pollHead 0]
  | .relaunch => [.start]
  | .stall _ _ => if s.stallRestarts < 3 then [.restart] else []
  | _ => []

theorem mem_launched {s : XrayVpnService} {pc p : XrayPc} (h : p ∈ pc.launched s) :
    p = .pollHead 0 ∨ p = .start ∨ p = .restart := by
  unfold XrayPc.launched at h
  split at h
  · split at h
    · cases h
    · exact .inl (List.mem_singleton.mp h)
  · exact .inr (.inl (List.mem_singleton.mp h))
  · split at h
    · exact .inr (.inr (List.mem_singleton.mp h))
    · cases h
  · cases h

theorem XrayMove.pcs {D : Stores} {s s' : XrayVpnService} {inp : XrayInput} {pc pc' : XrayPc}
    {es : List XrayEffect} (h : XrayMove D s inp pc s' pc' es) :
    s'.pcs = s.pcs ++ pc.launched s := by
  cases h with
  | startPolling k hs => simp [XrayVpnService.pcs, XrayPc.launched, hs]
  | noPolling hs => simp [XrayVpnService.pcs, XrayPc.launched, hs]
  | relaunch => simp [XrayVpnService.pcs, XrayVpnService.bringUp, XrayPc.launched]
  | autoRestart down up m hr => simp [XrayVpnService.pcs, XrayPc.launched, hr]
  | giveUp down up m hr => simp [XrayVpnService.pcs, XrayPc.launched, hr]
  | cleanup | restart | stallCleanup => simp [XrayPc.launched]
  | _ => exact (List.append_nil _).symm

/-- A step of a coroutine, taken apart. -/
theorem step_job {D : Stores} {s s' : XrayVpnService} {j : Nat} {inp : XrayInput}
    {es : List XrayEffect} (h : s.step D (.job j inp) = some (s', es)) :
    ∃ pc pc' r, s.pcs[j]? = some pc ∧ XrayMove D s inp pc r pc' es ∧
      s' = { r with jobs := s'.jobs } ∧ s'.pcs = (s.pcs ++ pc.launched s).set j pc' := by
  simp only [XrayVpnService.step] at h
  cases hj : s.jobs[j]? with
  | none => simp [hj] at h
  | some job =>
    cases hs : s.jobStep D inp job.cancelled job.pc with
    | none => simp [hj, hs] at h
    | some r =>
      obtain ⟨r, pc', fs⟩ := r
      simp only [hj, hs, Option.some.injEq, Prod.mk.injEq] at h
      obtain ⟨rfl, rfl⟩ := h
      have hmove := xrayStep_move hs
      refine ⟨job.pc, pc', r, by simp [XrayVpnService.pcs, hj], hmove, rfl, ?_⟩
      rw [← hmove.pcs]
      show (r.jobs.modify j _).map XrayJob.pc = (r.jobs.map XrayJob.pc).set j pc'
      refine List.ext_getElem? fun k => ?_
      rw [List.getElem?_map, List.getElem?_modify, List.getElem?_set, List.getElem?_map,
        List.length_map]
      by_cases hjk : j = k
      · subst hjk
        by_cases hlt : j < r.jobs.length
        · simp [hlt]
        · simp [hlt]
      · rw [if_neg hjk]
        cases r.jobs[k]? with
        | none => rfl
        | some job => simp [hjk]

/-! ## 5. Every step of the service -/

/-- What one step of the service does, with its effects. -/
inductive XrayTurn (D : Stores) (s : XrayVpnService) :
    XrayLabel → XrayVpnService → List XrayEffect → Prop where
  | start (uuid : Option Uuid) (hd : s.destroyed = false) :
      XrayTurn D s (.start uuid)
        { s with uuid := uuid, reporter := s.reporter || uuid.isSome
                 totalIn := 0, totalOut := 0 }.bringUp []
  | stop : XrayTurn D s .stop s.cleanup (s.sendEvent .stopped ++ s.cleanupEffects)
  | onRevoke : XrayTurn D s .onRevoke s.cleanup (s.sendEvent .stopped ++ s.cleanupEffects)
  | forceStop : XrayTurn D s .forceStop s.cleanup (s.cleanupEffects ++ [.forceStopped])
  | released :
      XrayTurn D s .onDestroy { s.cleanup with destroyed := true }
        (s.sendEvent .stopped ++ s.cleanupEffects)
  | idle (hc : s.controller = none) (hfd : s.tunFd < 0) :
      XrayTurn D s .onDestroy { s with destroyed := true } []
  | unheard (line : String) : XrayTurn D s (.emitStatus line) s []
  | emitStatus (line : String) (k : Nat) :
      XrayTurn D s (.emitStatus line) { s with jobs := s.jobs ++ [⟨some k, false, .emit line⟩] } []
  | job (j : Nat) (inp : XrayInput) (pc pc' : XrayPc) (r s' : XrayVpnService)
      (es : List XrayEffect) (hj : s.pcs[j]? = some pc) (hmove : XrayMove D s inp pc r pc' es)
      (hr : s' = { r with jobs := s'.jobs })
      (hpcs : s'.pcs = (s.pcs ++ pc.launched s).set j pc') :
      XrayTurn D s (.job j inp) s' es

/-- The service does nothing else. -/
theorem step_turn {D : Stores} {s s' : XrayVpnService} {l : XrayLabel} {es : List XrayEffect}
    (h : s.step D l = some (s', es)) : XrayTurn D s l s' es := by
  cases l with
  | start uuid =>
    simp only [XrayVpnService.step] at h
    split at h
    · cases h
    · rename_i hd
      obtain ⟨rfl, rfl⟩ := h
      exact .start uuid (by simpa using hd)
  | stop =>
    simp only [XrayVpnService.step] at h
    split at h
    · cases h
    · obtain ⟨rfl, rfl⟩ := h
      exact .stop
  | forceStop =>
    simp only [XrayVpnService.step] at h
    split at h
    · cases h
    · obtain ⟨rfl, rfl⟩ := h
      exact .forceStop
  | onRevoke =>
    simp only [XrayVpnService.step] at h
    split at h
    · cases h
    · obtain ⟨rfl, rfl⟩ := h
      exact .onRevoke
  | onDestroy =>
    simp only [XrayVpnService.step] at h
    split at h
    · cases h
    · split at h
      · obtain ⟨rfl, rfl⟩ := h
        exact .released
      · rename_i hn
        obtain ⟨rfl, rfl⟩ := h
        simp only [ne_eq, not_or, not_not] at hn
        exact .idle hn.1 (Int.not_le.mp hn.2)
  | emitStatus line =>
    simp only [XrayVpnService.step] at h
    split at h
    · split at h
      · obtain ⟨rfl, rfl⟩ := h
        exact .unheard line
      · obtain ⟨rfl, rfl⟩ := h
        exact .emitStatus line _
    · obtain ⟨rfl, rfl⟩ := h
      exact .unheard line
  | job j inp =>
    obtain ⟨pc, pc', r, hj, hmove, hr, hpcs⟩ := step_job h
    exact .job j inp pc pc' r s' es hj hmove hr hpcs

end SwiftVpn
