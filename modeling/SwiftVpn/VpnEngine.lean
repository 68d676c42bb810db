/-
  File:      SwiftVpn/VpnEngine.lean
  Subject:   THE ROUTER'S STATE (VpnEngine.kt): the flows the UI observes and every way in which
             they are written.

  * `VpnEngine` -- the object's fields; `stateFor` -- the state a profile row shows;
  * `applyState`, `applyBytes`, `resetTraffic`, `push`, `appendLog` -- the shared bookkeeping;
  * `Action`, `perform` -- one access to the object. The first group are the callbacks of the
    four drivers, wired in `init` and in `connectIkev2`, each behind its gate on
    `activeProtocol`; the second group are the plain assignments `connect` and `disconnect` make.

  Every machine of this development moves the router by `perform` only, so what an access can do
  to the row association is said once, here: `Shrinks` (an access that assigns no uuid keeps the
  association or clears it) and `perform_foreign` (a callback of an engine that does not own the
  tunnel does nothing).

  The wall clock is an input (`now`). `DiagnosticLog`, `Log` and the notification services write
  nothing the router reads and are left out.
-/
import SwiftVpn.Models

namespace SwiftVpn

/-! ## 1. The object -/

/-- How many samples the graphs hold (`HISTORY_SECONDS`). -/
def historySeconds : Nat := 60

/-- `VpnEngine`. `tunnelService` is true where the binder is not null; `usage` records the calls
    of `UsageHistoryStore.add`, the newest first. -/
structure VpnEngine where
  state : VpnState := .disconnected
  stateMessage : Option String := none
  connectedUuid : Option Uuid := none
  pendingUuid : Option Uuid := none
  traffic : TrafficStats := {}
  logs : List LogLine := []
  tunnelInfo : TunnelInfo := {}
  connectedSince : Option Int := none
  activeProtocol : Protocol := .openvpn
  downWindow : List Int := []
  upWindow : List Int := []
  tunnelService : Bool := false
  disconnectPending : Bool := false
  usage : List (Uuid × Int × Int) := []
  deriving DecidableEq, Repr

namespace VpnEngine

/-- The state one profile row shows. `connectedUuid` is asked first. -/
def stateFor (e : VpnEngine) (uuid : Uuid) : VpnState :=
  if e.connectedUuid = some uuid then e.state
  else if e.pendingUuid = some uuid then
    if e.state.isActive then e.state else .connecting
  else .disconnected

/-! ## 2. The shared bookkeeping -/

/-- Appends a sample to a graph window and drops the oldest above its size. -/
def push (window : List Int) (value : Int) : List Int :=
  (window ++ [value]).drop (window.length + 1 - historySeconds)

def resetTraffic (e : VpnEngine) : VpnEngine :=
  { e with downWindow := [], upWindow := [], traffic := {}, tunnelInfo := {} }

/-- Applies a state transition from any driver. -/
def applyState (e : VpnEngine) (mapped : VpnState) (message : Option String) (now : Int) :
    VpnEngine :=
  let previous := e.state
  let e := { e with state := mapped, stateMessage := message }
  if mapped = .connected ∧ previous ≠ .connected then { e with connectedSince := some now }
  else if !mapped.isActive then
    let e := { e with connectedSince := none }.resetTraffic
    -- only a clean stop clears the profile association
    if mapped = .disconnected then { e with pendingUuid := none, connectedUuid := none } else e
  else e

/-- Feeds the graphs and the usage history. -/
def applyBytes (e : VpnEngine) (bytesIn bytesOut diffIn diffOut : Int) : VpnEngine :=
  let e := { e with downWindow := push e.downWindow diffIn, upWindow := push e.upWindow diffOut }
  let e := { e with traffic :=
    { bytesIn := bytesIn, bytesOut := bytesOut, downBytesPerSec := diffIn, upBytesPerSec := diffOut,
      downHistory := e.downWindow, upHistory := e.upWindow } }
  match e.connectedUuid with
  | some uuid =>
    if diffIn > 0 ∨ diffOut > 0 then { e with usage := (uuid, diffIn, diffOut) :: e.usage } else e
  | none => e

/-- The last 500 lines. -/
def takeLast (l : List LogLine) : List LogLine := l.drop (l.length - 500)

/-- Appends a line from a driver other than OpenVPN. -/
def appendLog (e : VpnEngine) (message : String) (now : Int) : VpnEngine :=
  { e with logs := takeLast (e.logs ++ [⟨now, message, 1⟩]) }

/-- `updateState`'s choice of the message: the log message unless it is blank. -/
def stateText (state logmessage : Option String) : Option String :=
  match logmessage with
  | some m => if isBlank m then state else some m
  | none => state

/-- The callback `connectIkev2` installs on `Ikev2Engine.onState`, behind its gate. -/
def ikev2OnState (e : VpnEngine) (state : VpnState) (error : Option String) (now : Int) :
    VpnEngine :=
  match state, error with
  | .connected, _ => e.applyState .connected none now
  | .disconnected, some m => e.applyState .unknown (some m) now
  | .disconnected, none => { e.applyState .disconnected none now with connectedUuid := none }
  | _, some m => e.applyState .unknown (some m) now
  | _, none => e

section Fields

variable (e : VpnEngine) (mapped : VpnState) (message : Option String) (now : Int)

/-- What `applyState` makes of the association: only DISCONNECTED clears it. -/
theorem applyState_eq :
    ((e.applyState mapped message now).state = mapped ∧
      (e.applyState mapped message now).activeProtocol = e.activeProtocol) ∧
    (e.applyState mapped message now).connectedUuid =
      (if mapped = .disconnected then none else e.connectedUuid) ∧
    (e.applyState mapped message now).pendingUuid =
      (if mapped = .disconnected then none else e.pendingUuid) := by
  unfold applyState
  cases mapped <;> dsimp only [VpnState.isActive] <;> split <;> simp_all [resetTraffic]

@[simp] theorem applyState_state : (e.applyState mapped message now).state = mapped :=
  (applyState_eq e mapped message now).1.1

@[simp] theorem applyState_activeProtocol :
    (e.applyState mapped message now).activeProtocol = e.activeProtocol :=
  (applyState_eq e mapped message now).1.2

@[simp] theorem applyState_connectedUuid :
    (e.applyState mapped message now).connectedUuid =
      if mapped = .disconnected then none else e.connectedUuid :=
  (applyState_eq e mapped message now).2.1

@[simp] theorem applyState_pendingUuid :
    (e.applyState mapped message now).pendingUuid =
      if mapped = .disconnected then none else e.pendingUuid :=
  (applyState_eq e mapped message now).2.2

@[simp] theorem appendLog_state (m : String) : (e.appendLog m now).state = e.state := by
  simp only [appendLog]

@[simp] theorem appendLog_activeProtocol (m : String) :
    (e.appendLog m now).activeProtocol = e.activeProtocol := by
  simp only [appendLog]

@[simp] theorem appendLog_connectedUuid (m : String) :
    (e.appendLog m now).connectedUuid = e.connectedUuid := by
  simp only [appendLog]

@[simp] theorem appendLog_pendingUuid (m : String) :
    (e.appendLog m now).pendingUuid = e.pendingUuid := by
  simp only [appendLog]

end Fields

/-! ## 3. Accesses -/

end VpnEngine

/-- One access to the router. -/
inductive Action where
  /-- `VpnStatus.StateListener.updateState` -/
  | updateState (state logmessage : Option String) (level : Option ConnectionStatus) (now : Int)
  /-- `VpnStatus.StateListener.setConnectedVPN` -/
  | setConnectedVPN (uuid : Option Uuid)
  /-- `VpnStatus.LogListener` -/
  | logListener (line : LogLine)
  /-- `onState` of WireGuard and Xray -/
  | onState (p : Protocol) (state : VpnState) (message : Option String) (now : Int)
  /-- `Ikev2Engine.onState` -/
  | ikev2State (state : VpnState) (error : Option String) (now : Int)
  /-- `onBytes` of the drivers and OpenVPN's `ByteCountListener` -/
  | onBytes (p : Protocol) (bytesIn bytesOut diffIn diffOut : Int)
  /-- `onLog` of WireGuard and Xray -/
  | onLog (p : Protocol) (message : String) (now : Int)
  /-- `onTunnelInfo` of WireGuard and Xray -/
  | onTunnelInfo (p : Protocol) (info : TunnelInfo)
  -- the assignments of `connect`, `disconnect` and `tunnelConnection`, behind no gate
  | applyState (mapped : VpnState) (message : Option String) (now : Int)
  | resetTraffic
  | setPending (uuid : Option Uuid)
  | setConnected (uuid : Option Uuid)
  | setProtocol (p : Protocol)
  | setTunnelService (bound : Bool)
  | setDisconnectPending (pending : Bool)
  | appendLog (message : String) (now : Int)
  deriving DecidableEq, Repr

/-- The engine a callback belongs to; `none` for the router's own assignments. -/
def Action.engine : Action → Option Protocol
  | .updateState .. | .setConnectedVPN _ | .logListener _ => some .openvpn
  | .onState p .. | .onBytes p .. | .onLog p .. | .onTunnelInfo p _ => some p
  | .ikev2State .. => some .ikev2
  | _ => none

/-- The accesses that assign a uuid. -/
def Action.assigns : Action → Bool
  | .setConnectedVPN (some _) | .setPending (some _) | .setConnected (some _) => true
  | _ => false

/-- The accesses to the owner of the tunnel, to the binder and to `disconnectPending`. -/
def Action.links : Action → Bool
  | .setProtocol _ | .setTunnelService _ | .setDisconnectPending _ => true
  | _ => false

namespace VpnEngine

/-- A gate: `f` runs while `p` owns the tunnel. -/
def gated (e : VpnEngine) (p : Protocol) (f : VpnEngine → VpnEngine) : VpnEngine :=
  if e.activeProtocol = p then f e else e

/-- What an access does. -/
def perform (e : VpnEngine) : Action → VpnEngine
  | .updateState state logmessage level now =>
    e.gated .openvpn (·.applyState (.ofStatus level) (stateText state logmessage) now)
  | .setConnectedVPN uuid =>
    e.gated .openvpn fun e =>
      let e := { e with connectedUuid := uuid }
      if uuid ≠ none then { e with pendingUuid := none } else e
  | .logListener line =>
    e.gated .openvpn fun e =>
      { e with logs := takeLast (e.logs ++ [line])
               tunnelInfo := harvestTunnelInfo e.tunnelInfo line.message }
  | .onState p state message now => e.gated p (·.applyState state message now)
  | .ikev2State state error now => e.gated .ikev2 (·.ikev2OnState state error now)
  | .onBytes p inB outB dIn dOut => e.gated p (·.applyBytes inB outB dIn dOut)
  | .onLog p message now => e.gated p (·.appendLog message now)
  | .onTunnelInfo p info => e.gated p fun e => { e with tunnelInfo := info }
  | .applyState mapped message now => e.applyState mapped message now
  | .resetTraffic => e.resetTraffic
  | .setPending uuid => { e with pendingUuid := uuid }
  | .setConnected uuid => { e with connectedUuid := uuid }
  | .setProtocol p => { e with activeProtocol := p }
  | .setTunnelService bound => { e with tunnelService := bound }
  | .setDisconnectPending pending => { e with disconnectPending := pending }
  | .appendLog message now => e.appendLog message now

/-- A sequence of accesses. -/
def performAll (e : VpnEngine) (as : List Action) : VpnEngine := as.foldl perform e

@[simp] theorem performAll_nil (e : VpnEngine) : e.performAll [] = e := rfl

@[simp] theorem performAll_cons (e : VpnEngine) (a : Action) (as : List Action) :
    e.performAll (a :: as) = (e.perform a).performAll as := rfl

/-- What one access preserves, a sequence of them preserves. -/
theorem performAll_inv {I : VpnEngine → Prop} {as : List Action}
    (h : ∀ a ∈ as, ∀ e, I e → I (e.perform a)) : ∀ {e : VpnEngine}, I e → I (e.performAll as) := by
  induction as with
  | nil => exact fun hI => hI
  | cons a as ih =>
    intro e hI
    exact ih (fun b hb => h b (List.mem_cons_of_mem a hb)) (h a List.mem_cons_self e hI)

/-! ## 4. What an access can do to the row association -/

/-- The association of `e'` is that of `e`, parts of it cleared. -/
structure Shrinks (e e' : VpnEngine) : Prop where
  connected : e'.connectedUuid = e.connectedUuid ∨ e'.connectedUuid = none
  pending : e'.pendingUuid = e.pendingUuid ∨ e'.pendingUuid = none

theorem Shrinks.refl (e : VpnEngine) : Shrinks e e := ⟨.inl rfl, .inl rfl⟩

theorem Shrinks.trans {e₁ e₂ e₃ : VpnEngine} (h : Shrinks e₁ e₂) (h' : Shrinks e₂ e₃) :
    Shrinks e₁ e₃ where
  connected := by
    rcases h'.connected with hc | hc
    · rw [hc]; exact h.connected
    · exact .inr hc
  pending := by
    rcases h'.pending with hp | hp
    · rw [hp]; exact h.pending
    · exact .inr hp

theorem shrinks_of_eq {e e' : VpnEngine} (hc : e'.connectedUuid = e.connectedUuid)
    (hp : e'.pendingUuid = e.pendingUuid) : Shrinks e e' := ⟨.inl hc, .inl hp⟩

theorem shrinks_gated {e : VpnEngine} {p : Protocol} {f : VpnEngine → VpnEngine}
    (h : Shrinks e (f e)) : Shrinks e (e.gated p f) := by
  unfold VpnEngine.gated
  split
  · exact h
  · exact .refl e

theorem applyState_shrinks (e : VpnEngine) (mapped : VpnState) (message : Option String)
    (now : Int) : Shrinks e (e.applyState mapped message now) := by
  unfold applyState
  dsimp only
  split
  · exact shrinks_of_eq rfl rfl
  · split
    · split
      · exact ⟨.inr rfl, .inr rfl⟩
      · exact shrinks_of_eq rfl rfl
    · exact shrinks_of_eq rfl rfl

theorem ikev2OnState_shrinks (e : VpnEngine) (state : VpnState) (error : Option String)
    (now : Int) : Shrinks e (e.ikev2OnState state error now) := by
  unfold ikev2OnState
  split
  · exact applyState_shrinks ..
  · exact applyState_shrinks ..
  · exact ⟨.inr rfl, (applyState_shrinks e .disconnected none now).pending⟩
  · exact applyState_shrinks ..
  · exact .refl e

theorem applyBytes_shrinks (e : VpnEngine) (inB outB dIn dOut : Int) :
    Shrinks e (e.applyBytes inB outB dIn dOut) := by
  unfold applyBytes
  dsimp only
  split
  · split
    · exact shrinks_of_eq rfl rfl
    · exact shrinks_of_eq rfl rfl
  · exact shrinks_of_eq rfl rfl

theorem appendLog_shrinks (e : VpnEngine) (message : String) (now : Int) :
    Shrinks e (e.appendLog message now) := by
  unfold appendLog
  exact shrinks_of_eq rfl rfl

/-- An access that assigns no uuid keeps the association or clears it. -/
theorem perform_shrinks (e : VpnEngine) {a : Action} (ha : a.assigns = false) :
    Shrinks e (e.perform a) := by
  cases a with
  | updateState state logmessage level now =>
    apply shrinks_gated
    apply applyState_shrinks
  | setConnectedVPN uuid =>
    cases uuid with
    | none =>
      apply shrinks_gated
      exact ⟨.inr rfl, .inl rfl⟩
    | some u => simp [Action.assigns] at ha
  | logListener line =>
    apply shrinks_gated
    exact shrinks_of_eq rfl rfl
  | onState p state message now =>
    apply shrinks_gated
    apply applyState_shrinks
  | ikev2State state error now =>
    apply shrinks_gated
    apply ikev2OnState_shrinks
  | onBytes p inB outB dIn dOut =>
    apply shrinks_gated
    apply applyBytes_shrinks
  | onLog p message now =>
    apply shrinks_gated
    apply appendLog_shrinks
  | onTunnelInfo p info =>
    apply shrinks_gated
    exact shrinks_of_eq rfl rfl
  | applyState mapped message now => apply applyState_shrinks
  | resetTraffic => exact shrinks_of_eq rfl rfl
  | setPending uuid =>
    cases uuid with
    | none => exact ⟨.inl rfl, .inr rfl⟩
    | some u => simp [Action.assigns] at ha
  | setConnected uuid =>
    cases uuid with
    | none => exact ⟨.inr rfl, .inl rfl⟩
    | some u => simp [Action.assigns] at ha
  | setProtocol p => exact shrinks_of_eq rfl rfl
  | setTunnelService bound => exact shrinks_of_eq rfl rfl
  | setDisconnectPending pending => exact shrinks_of_eq rfl rfl
  | appendLog message now => apply appendLog_shrinks

theorem performAll_shrinks (e : VpnEngine) {as : List Action} (h : ∀ a ∈ as, a.assigns = false) :
    Shrinks e (e.performAll as) :=
  performAll_inv (fun a ha _ hI => hI.trans (perform_shrinks _ (h a ha))) (.refl e)

/-- A callback of an engine that does not own the tunnel does nothing. -/
theorem perform_foreign {e : VpnEngine} {a : Action} {p : Protocol} (ha : a.engine = some p)
    (hp : e.activeProtocol ≠ p) : e.perform a = e := by
  cases a <;> simp only [Action.engine, Option.some.injEq, reduceCtorEq] at ha <;> subst ha <;>
    simp only [perform, gated, if_neg hp]

/-- So does a sequence of callbacks of such an engine. -/
theorem performAll_foreign {e : VpnEngine} {as : List Action} {p : Protocol}
    (ha : ∀ a ∈ as, a.engine = some p) (hp : e.activeProtocol ≠ p) : e.performAll as = e :=
  performAll_inv (I := fun e' => e' = e)
    (fun a hm _ he => by rw [he]; exact perform_foreign (ha a hm) hp) rfl

/-! ## 5. What an access leaves alone -/

/-- The fields no callback and no state change writes. -/
structure SameLink (e e' : VpnEngine) : Prop where
  activeProtocol : e'.activeProtocol = e.activeProtocol
  tunnelService : e'.tunnelService = e.tunnelService
  disconnectPending : e'.disconnectPending = e.disconnectPending

theorem SameLink.refl (e : VpnEngine) : SameLink e e := ⟨rfl, rfl, rfl⟩

theorem sameLink_gated {e : VpnEngine} {p : Protocol} {f : VpnEngine → VpnEngine}
    (h : SameLink e (f e)) : SameLink e (e.gated p f) := by
  unfold VpnEngine.gated
  split
  · exact h
  · exact .refl e

theorem applyState_sameLink (e : VpnEngine) (mapped : VpnState) (message : Option String)
    (now : Int) : SameLink e (e.applyState mapped message now) := by
  unfold applyState
  dsimp only
  split
  · exact ⟨rfl, rfl, rfl⟩
  · split
    · split <;> exact ⟨rfl, rfl, rfl⟩
    · exact ⟨rfl, rfl, rfl⟩

theorem ikev2OnState_sameLink (e : VpnEngine) (state : VpnState) (error : Option String)
    (now : Int) : SameLink e (e.ikev2OnState state error now) := by
  unfold ikev2OnState
  have h := applyState_sameLink e
  split
  · exact h ..
  · exact h ..
  · exact ⟨(h ..).activeProtocol, (h ..).tunnelService, (h ..).disconnectPending⟩
  · exact h ..
  · exact .refl e

theorem applyBytes_sameLink (e : VpnEngine) (inB outB dIn dOut : Int) :
    SameLink e (e.applyBytes inB outB dIn dOut) := by
  unfold applyBytes
  dsimp only
  split
  · split <;> exact ⟨rfl, rfl, rfl⟩
  · exact ⟨rfl, rfl, rfl⟩

theorem appendLog_sameLink (e : VpnEngine) (message : String) (now : Int) :
    SameLink e (e.appendLog message now) := by
  unfold appendLog
  exact ⟨rfl, rfl, rfl⟩

/-- Only its own assignments move the owner of the tunnel, the binder and `disconnectPending`. -/
theorem perform_sameLink (e : VpnEngine) {a : Action} (ha : a.links = false) :
    SameLink e (e.perform a) := by
  cases a with
  | updateState state logmessage level now =>
    apply sameLink_gated
    apply applyState_sameLink
  | setConnectedVPN uuid =>
    apply sameLink_gated
    cases uuid <;> exact ⟨rfl, rfl, rfl⟩
  | logListener line =>
    apply sameLink_gated
    exact ⟨rfl, rfl, rfl⟩
  | onState p state message now =>
    apply sameLink_gated
    apply applyState_sameLink
  | ikev2State state error now =>
    apply sameLink_gated
    apply ikev2OnState_sameLink
  | onBytes p inB outB dIn dOut =>
    apply sameLink_gated
    apply applyBytes_sameLink
  | onLog p message now =>
    apply sameLink_gated
    apply appendLog_sameLink
  | onTunnelInfo p info =>
    apply sameLink_gated
    exact ⟨rfl, rfl, rfl⟩
  | applyState mapped message now => apply applyState_sameLink
  | setProtocol | setTunnelService | setDisconnectPending => cases ha
  | resetTraffic | setPending | setConnected => exact ⟨rfl, rfl, rfl⟩
  | appendLog message now => apply appendLog_sameLink

theorem performAll_sameLink (e : VpnEngine) {as : List Action}
    (h : ∀ a ∈ as, a.links = false) : SameLink e (e.performAll as) :=
  performAll_inv (I := SameLink e)
    (fun a ha e' hI => by
      have h' := perform_sameLink e' (h a ha)
      exact ⟨h'.activeProtocol.trans hI.activeProtocol, h'.tunnelService.trans hI.tunnelService,
        h'.disconnectPending.trans hI.disconnectPending⟩) (.refl e)

end VpnEngine

end SwiftVpn
