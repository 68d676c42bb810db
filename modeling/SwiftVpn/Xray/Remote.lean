/-
  File:      SwiftVpn/Xray/Remote.lean
  Subject:   REQUESTS AND REPLIES: XrayRemote.roundTrip against XrayTestService.

  Any number of callers in the UI process send latency, probe and speed requests to the test service
  in the `:xray` process, one round trip at a time (`requestMutex`). The parties:

  * `RoundTrip`, `TripPc` -- one call of `roundTrip`, cut at the lock, the binding, the assignment of
    `pending`, the send, the wait, the reset of `pending`, the read of `reply.data` and the unlock;
    its own deferred, and what the service has answered to it (`answer`);
  * the service: an accepted request is answered at most once, at any later moment (`answer`), and
    the answer arrives at any moment after that, in any order (`arrive`);
  * the main looper: the handler completes whatever deferred is `pending` with the message
    (`handle`), and after the callback the looper recycles the message (`recycle`): its data is
    dropped and the object may serve for a later message.

  The measurement (`Measurement`), the outcome of the binding and of the send are inputs; a reply that
  gets lost is one that never arrives. The `what` of a reply is read by nobody and left out.

  * `MutexHeld` -- the mutex: whoever has sent a request and waits is its holder, so one at most;
  * `inTime` -- a reply that comes after its request has stopped waiting finds no other request waiting,
    and no message is recycled between the end of a wait and the read behind it;
  * `replies_matched` -- along such steps every round trip returns null or what the service answered
    to it;
  * `replies_crossed` -- otherwise not: a reply recycled before it is read comes back as an empty
    Bundle, and a late reply of one request completes the next one.
-/
import SwiftVpn.Lib.Machine
import SwiftVpn.Models

namespace SwiftVpn

open Machine

/-! ## 1. Requests, replies and messages -/

/-- `REQ_LATENCY`, `REQ_PROBE`, `REQ_SPEED`. -/
inductive TestRequest where
  | latency
  | probe
  | speed
  deriving DecidableEq, Repr

/-- What a measurement comes to. -/
structure Measurement where
  ms : Option Int := none
  countryCode : Option String := none
  egressIp : Option String := none
  error : Option String := none
  bytesPerSec : Option Int := none
  deriving DecidableEq, Repr

/-- The Bundle of a reply, by its keys `K_MS`, `K_COUNTRY`, `K_IP`, `K_ERROR`, `K_BYTES_PER_SEC`. -/
structure Bundle where
  ms : Option Int := none
  country : Option String := none
  ip : Option String := none
  error : Option String := none
  bytesPerSec : Option Int := none
  deriving DecidableEq, Repr

/-- The Bundle `XrayTestService.handle` replies with. -/
def replyBundle : TestRequest → Measurement → Bundle
  | .latency, o => { ms := some (o.ms.getD (-1)) }
  | .probe, o =>
    { ms := some (o.ms.getD (-1)), country := o.countryCode, ip := o.egressIp, error := o.error }
  | .speed, o => { bytesPerSec := some (o.bytesPerSec.getD (-1)) }

/-- Where a round trip stands. A message is named by its object. -/
inductive TripPc where
  | lock
  | bind
  | create
  | send
  | await
  | clear (reply : Option Nat)
  | read (reply : Option Nat)
  | unlock (result : Option Bundle)
  | throwing
  | done (result : Option Bundle)
  | thrown
  deriving DecidableEq, Repr

/-- A `CompletableDeferred<Message>`. -/
inductive Deferred where
  | active
  | completed (message : Nat)
  | failed
  deriving DecidableEq, Repr

/-- One call of `roundTrip`. -/
structure RoundTrip where
  what : TestRequest
  uuid : Uuid
  pc : TripPc := .lock
  deferred : Deferred := .active
  accepted : Bool := false
  answer : Option Bundle := none
  deriving DecidableEq, Repr

/-- A Message object of the UI process: the request it replies to, its data, and whether the looper
    has recycled it. -/
structure ReplyMessage where
  origin : Nat
  data : Option Bundle
  recycled : Bool := false
  deriving DecidableEq, Repr

/-- The UI process' end and what is on its way to it. -/
structure XrayRemote where
  requestMutex : Option Nat := none
  pending : Option Nat := none
  trips : List RoundTrip := []
  /-- the replies sent and not yet arrived, by their requests -/
  flight : List Nat := []
  messages : List ReplyMessage := []
  /-- the main looper's queue, and the message whose callback it has run -/
  queue : List Nat := []
  current : Option Nat := none
  deriving DecidableEq, Repr

/-- What a step of a round trip reads from outside: whether the service is bound, and whether the
    send succeeds. -/
structure TripInput where
  bound : Bool := true
  sent : Bool := true
  deriving DecidableEq, Repr

inductive RemoteLabel where
  | request (what : TestRequest) (uuid : Uuid)
  | trip (i : Nat) (inp : TripInput)
  | timeout (i : Nat)
  | cancel (i : Nat)
  | answer (i : Nat) (outcome : Measurement)
  | arrive (n : Nat) (slot : Option Nat)
  | handle
  | recycle
  | onServiceDisconnected
  deriving DecidableEq, Repr

namespace XrayRemote

/-- The round trip `i` has moved. -/
def goto (s : XrayRemote) (i : Nat) (t : RoundTrip) : XrayRemote :=
  { s with trips := s.trips.set i t }

/-- `Message.getData`: a message without data gets an empty Bundle. -/
def getData (s : XrayRemote) (m : Nat) : Bundle :=
  ((s.messages[m]?).bind (·.data)).getD {}

/-- One step of the round trip `i`, which is `t`; `none` where it has to wait. -/
def tripStep (s : XrayRemote) (i : Nat) (t : RoundTrip) (inp : TripInput) : Option XrayRemote :=
  match t.pc with
  | .lock =>
    if s.requestMutex = none then
      some { s.goto i { t with pc := .bind } with requestMutex := some i }
    else none
  -- `ensureTestBound`
  | .bind =>
    if inp.bound then some (s.goto i { t with pc := .create })
    else some (s.goto i { t with pc := .unlock none })
  | .create =>
    some { s.goto i { t with pc := .send, deferred := .active } with pending := some i }
  | .send =>
    if inp.sent then some (s.goto i { t with pc := .await, accepted := true })
    else some { s.goto i { t with pc := .unlock none } with pending := none }
  | .await =>
    match t.deferred with
    | .active => none
    | .completed m => some (s.goto i { t with pc := .clear (some m) })
    | .failed => some (s.goto i { t with pc := .throwing })
  | .clear reply => some { s.goto i { t with pc := .read reply } with pending := none }
  | .read reply => some (s.goto i { t with pc := .unlock (reply.map s.getData) })
  | .unlock result => some { s.goto i { t with pc := .done result } with requestMutex := none }
  -- the exception leaves `pending` as it is
  | .throwing => some { s.goto i { t with pc := .thrown } with requestMutex := none }
  | .done _ | .thrown => none

/-- The deferred of the request that is `pending` becomes `d`, unless it is completed already. -/
def complete (s : XrayRemote) (d : Deferred) : XrayRemote :=
  match s.pending with
  | none => s
  | some i =>
    match s.trips[i]? with
    | none => s
    | some t => if t.deferred = .active then s.goto i { t with deferred := d } else s

/-- What the service has answered to the request `i`. -/
def answerOf (s : XrayRemote) : Nat → Option Bundle := field RoundTrip.answer none s.trips

/-- The reply of `i` arrives: in a new Message object or in a recycled one. -/
def receive (s : XrayRemote) (i : Nat) (data : Option Bundle) : Option Nat → Option XrayRemote
  | none => some { s with
      messages := s.messages ++ [⟨i, data, false⟩], queue := s.queue ++ [s.messages.length] }
  | some m =>
    match s.messages[m]? with
    | none => none
    | some msg =>
      if msg.recycled then
        some { s with messages := s.messages.set m ⟨i, data, false⟩, queue := s.queue ++ [m] }
      else none

def step (s : XrayRemote) : RemoteLabel → Option XrayRemote
  | .request what uuid => some { s with trips := s.trips ++ [{ what := what, uuid := uuid }] }
  | .trip i inp =>
    match s.trips[i]? with
    | none => none
    | some t => s.tripStep i t inp
  | .timeout i =>
    match s.trips[i]? with
    | none => none
    | some t => if t.pc = .await then some (s.goto i { t with pc := .clear none }) else none
  | .cancel i =>
    match s.trips[i]? with
    | none => none
    | some t =>
      match t.pc with
      | .lock => some (s.goto i { t with pc := .thrown })
      | .bind | .await => some (s.goto i { t with pc := .throwing })
      | _ => none
  | .answer i outcome =>
    match s.trips[i]? with
    | none => none
    | some t =>
      if t.accepted = true ∧ t.answer = none then
        some { s.goto i { t with answer := some (replyBundle t.what outcome) } with
          flight := s.flight ++ [i] }
      else none
  | .arrive n slot =>
    match s.flight[n]? with
    | none => none
    | some i =>
      { s with flight := s.flight.eraseIdx n }.receive i (s.answerOf i) slot
  | .handle =>
    match s.current, s.queue with
    | none, m :: q => some ({ s with current := some m, queue := q }.complete (.completed m))
    | _, _ => none
  | .recycle =>
    match s.current with
    | none => none
    | some m =>
      match s.messages[m]? with
      | none => none
      | some msg => some { s with
          messages := s.messages.set m ⟨msg.origin, none, true⟩, current := none }
  | .onServiceDisconnected => some (s.complete .failed)

end XrayRemote

/-! ## 2. Every step of a round trip -/

/-- The round trip is inside `requestMutex.withLock`. -/
def TripPc.holds : TripPc → Bool
  | .lock | .done _ | .thrown => false
  | _ => true

/-- What a step of the round trip `i` from `pc` to `pc'` does to the mutex, which `holder` holds. -/
inductive MutexMove (holder : Option Nat) (i : Nat) (pc pc' : TripPc) : Option Nat → Prop where
  | take (hfree : holder = none) (h' : pc'.holds = true) : MutexMove holder i pc pc' (some i)
  | keep (h : pc'.holds = pc.holds) : MutexMove holder i pc pc' holder
  | release (h : pc.holds = true) (h' : pc'.holds = false) : MutexMove holder i pc pc' none

/-- What one step of a round trip can do to it: where it stands, and its deferred. -/
inductive TripMove (s : XrayRemote) (t : RoundTrip) : RoundTrip → Prop where
  | lock (hpc : t.pc = .lock) : TripMove s t { t with pc := .bind }
  | bound (hpc : t.pc = .bind) : TripMove s t { t with pc := .create }
  | unbound (hpc : t.pc = .bind) : TripMove s t { t with pc := .unlock none }
  | create (hpc : t.pc = .create) : TripMove s t { t with pc := .send, deferred := .active }
  | sent (hpc : t.pc = .send) : TripMove s t { t with pc := .await, accepted := true }
  | notSent (hpc : t.pc = .send) : TripMove s t { t with pc := .unlock none }
  | reply (m : Nat) (hpc : t.pc = .await) (hd : t.deferred = .completed m) :
      TripMove s t { t with pc := .clear (some m) }
  | timeout (hpc : t.pc = .await) : TripMove s t { t with pc := .clear none }
  | throws : TripMove s t { t with pc := .throwing }
  | clear (reply : Option Nat) (hpc : t.pc = .clear reply) :
      TripMove s t { t with pc := .read reply }
  | read (reply : Option Nat) (hpc : t.pc = .read reply) :
      TripMove s t { t with pc := .unlock (reply.map s.getData) }
  | unlock (result : Option Bundle) (hpc : t.pc = .unlock result) :
      TripMove s t { t with pc := .done result }
  | thrown : TripMove s t { t with pc := .thrown }

/-- Every step of a round trip is one of the moves; of the rest only the mutex and `pending` change. -/
theorem tripStep_move {s s' : XrayRemote} {i : Nat} {t : RoundTrip} {inp : TripInput}
    (h : s.tripStep i t inp = some s') :
    ∃ t' mutex pending, TripMove s t t' ∧ MutexMove s.requestMutex i t.pc t'.pc mutex ∧
      s' = { s.goto i t' with requestMutex := mutex, pending := pending } := by
  unfold XrayRemote.tripStep at h
  cases hpc : t.pc with
  | lock =>
    simp only [hpc] at h
    split at h
    · rename_i hfree
      obtain rfl := Option.some.inj h
      exact ⟨_, _, _, .lock hpc, .take hfree rfl, rfl⟩
    · cases h
  | bind =>
    simp only [hpc] at h
    split at h
    · obtain rfl := Option.some.inj h
      exact ⟨_, _, _, .bound hpc, .keep rfl, rfl⟩
    · obtain rfl := Option.some.inj h
      exact ⟨_, _, _, .unbound hpc, .keep rfl, rfl⟩
  | create =>
    simp only [hpc] at h
    obtain rfl := Option.some.inj h
    exact ⟨_, _, _, .create hpc, .keep rfl, rfl⟩
  | send =>
    simp only [hpc] at h
    split at h
    · obtain rfl := Option.some.inj h
      exact ⟨_, _, _, .sent hpc, .keep rfl, rfl⟩
    · obtain rfl := Option.some.inj h
      exact ⟨_, _, _, .notSent hpc, .keep rfl, rfl⟩
  | await =>
    simp only [hpc] at h
    split at h
    · cases h
    · rename_i m hd
      obtain rfl := Option.some.inj h
      exact ⟨_, _, _, .reply m hpc hd, .keep rfl, rfl⟩
    · obtain rfl := Option.some.inj h
      exact ⟨_, _, _, .throws, .keep rfl, rfl⟩
  | clear reply =>
    simp only [hpc] at h
    obtain rfl := Option.some.inj h
    exact ⟨_, _, _, .clear reply hpc, .keep rfl, rfl⟩
  | read reply =>
    simp only [hpc] at h
    obtain rfl := Option.some.inj h
    exact ⟨_, _, _, .read reply hpc, .keep rfl, rfl⟩
  | unlock result =>
    simp only [hpc] at h
    obtain rfl := Option.some.inj h
    exact ⟨_, _, _, .unlock result hpc, .release rfl rfl, rfl⟩
  | throwing =>
    simp only [hpc] at h
    obtain rfl := Option.some.inj h
    exact ⟨_, _, _, .thrown, .release rfl rfl, rfl⟩
  | done _ | thrown => simp [hpc] at h

/-- The round trip is to read the message `m`. -/
def RoundTrip.waitsFor (t : RoundTrip) (m : Nat) : Bool :=
  ((t.pc = .send ∨ t.pc = .await) ∧ t.deferred = .completed m) ∨ t.pc = .clear (some m) ∨
    t.pc = .read (some m)

/-- Of its own a round trip waits for no other message than before. -/
theorem TripMove.waitsFor {s : XrayRemote} {t t' : RoundTrip} (h : TripMove s t t') {m : Nat}
    (hm : t'.waitsFor m = true) : t.waitsFor m = true := by
  cases h with
  | sent hpc => simpa [RoundTrip.waitsFor, hpc] using hm
  | reply k hpc hd =>
    simp only [RoundTrip.waitsFor, hpc, hd] at hm ⊢
    simpa using hm
  | clear reply hpc => simpa [RoundTrip.waitsFor, hpc] using hm
  | _ => simp [RoundTrip.waitsFor] at hm

/-- Its result is what it reads in the message it waited for. -/
theorem TripMove.result {s : XrayRemote} {t t' : RoundTrip} (h : TripMove s t t') {b : Bundle}
    (hb : t'.pc = .unlock (some b) ∨ t'.pc = .done (some b)) :
    (t.pc = .unlock (some b) ∨ t.pc = .done (some b)) ∨
      ∃ m, t.waitsFor m = true ∧ b = s.getData m := by
  cases h with
  | read reply hpc =>
    cases reply with
    | none => simp at hb
    | some m =>
      have hread : s.getData m = b := by simpa using hb
      exact .inr ⟨m, by simp [RoundTrip.waitsFor, hpc], hread.symm⟩
  | unlock result hpc =>
    left
    simpa [hpc] using hb
  | _ => simp at hb

theorem TripMove.answer {s : XrayRemote} {t t' : RoundTrip} (h : TripMove s t t') :
    t'.answer = t.answer := by
  cases h <;> rfl

/-! ## 3. The mutex -/

/-- The round trip `i` is inside the lock. -/
def XrayRemote.inside (s : XrayRemote) : Nat → Bool := field (·.pc.holds) false s.trips

/-- The round trip inside the lock is the one that holds it. -/
def MutexHeld (s : XrayRemote) : Prop := ∀ i, s.inside i = true ↔ s.requestMutex = some i

/-- So there is one at most. -/
theorem MutexHeld.unique {s : XrayRemote} (H : MutexHeld s) {i j : Nat} {t t' : RoundTrip}
    (hi : s.trips[i]? = some t) (ht : t.pc.holds = true) (hj : s.trips[j]? = some t')
    (ht' : t'.pc.holds = true) : i = j := by
  have hin : s.requestMutex = some i := (H i).mp ((field_eq hi).trans ht)
  have hjn : s.requestMutex = some j := (H j).mp ((field_eq hj).trans ht')
  exact Option.some.inj (hin.symm.trans hjn)

theorem MutexHeld.move {s : XrayRemote} (H : MutexHeld s) {i : Nat} {t u : RoundTrip} {mutex : Option Nat}
    (hi : s.trips[i]? = some t) (h : MutexMove s.requestMutex i t.pc u.pc mutex)
    (pending : Option Nat) :
    MutexHeld { s.goto i u with requestMutex := mutex, pending := pending } := by
  have hold : s.inside i = t.pc.holds := field_eq hi
  have hset : field (·.pc.holds) false (s.trips.set i u) = Function.update s.inside i u.pc.holds :=
    field_set hi
  show ∀ k, field (·.pc.holds) false (s.trips.set i u) k = true ↔ mutex = some k
  rw [hset]
  refine lock_step H i (fun k hk => by rw [Function.update_of_ne hk]) ?_
  rw [Function.update_self, hold]
  cases h with
  | take hfree h' => exact .inl ⟨hfree, h', rfl⟩
  | keep h =>
    rw [h]
    by_cases hp : t.pc.holds = true
    · exact .inr (.inl ⟨hp, hp, rfl⟩)
    · exact .inr (.inr (.inr ⟨hp, hp, rfl⟩))
  | release h h' => exact .inr (.inr (.inl ⟨h, by rw [h']; nofun, rfl⟩))

theorem MutexHeld.completed {s : XrayRemote} (H : MutexHeld s) (d : Deferred) : MutexHeld (s.complete d) := by
  unfold XrayRemote.complete
  split
  · exact H
  · split
    · exact H
    · rename_i i hp t hi
      split
      · exact H.move (u := { t with deferred := d }) hi (.keep rfl) s.pending
      · exact H

theorem mutexHeld_init : MutexHeld {} := fun i => by simp [XrayRemote.inside, field]

/-- Every step keeps it, whatever the replies do. -/
theorem mutexHeld_step (s : XrayRemote) (l : RemoteLabel) (s' : XrayRemote) (H : MutexHeld s)
    (h : s.step l = some s') : MutexHeld s' := by
  cases l with
  | request what uuid =>
    obtain rfl := Option.some.inj h
    have hnew : field (·.pc.holds) false (s.trips ++ [{ what := what, uuid := uuid }]) = s.inside :=
      field_concat rfl
    intro k
    show field (·.pc.holds) false (s.trips ++ [_]) k = true ↔ _
    rw [hnew]
    exact H k
  | trip i inp =>
    simp only [XrayRemote.step] at h
    split at h
    · cases h
    · rename_i t hi
      obtain ⟨t', mutex, pending, -, hmutex, rfl⟩ := tripStep_move h
      exact H.move hi hmutex pending
  | timeout i =>
    simp only [XrayRemote.step] at h
    split at h
    · cases h
    · rename_i t hi
      split at h
      · rename_i hpc
        obtain rfl := Option.some.inj h
        exact H.move (u := { t with pc := .clear none }) hi (.keep (by rw [hpc]; rfl)) s.pending
      · cases h
  | cancel i =>
    simp only [XrayRemote.step] at h
    split at h
    · cases h
    · rename_i t hi
      split at h
      · rename_i hpc
        obtain rfl := Option.some.inj h
        exact H.move (u := { t with pc := .thrown }) hi (.keep (by rw [hpc]; rfl)) s.pending
      · rename_i hpc
        obtain rfl := Option.some.inj h
        exact H.move (u := { t with pc := .throwing }) hi (.keep (by rw [hpc]; rfl)) s.pending
      · rename_i hpc
        obtain rfl := Option.some.inj h
        exact H.move (u := { t with pc := .throwing }) hi (.keep (by rw [hpc]; rfl)) s.pending
      · cases h
  | answer i outcome =>
    simp only [XrayRemote.step] at h
    split at h
    · cases h
    · rename_i t hi
      split at h
      · obtain rfl := Option.some.inj h
        exact H.move (u := { t with answer := some (replyBundle t.what outcome) }) hi (.keep rfl)
          s.pending
      · cases h
  | arrive n slot =>
    simp only [XrayRemote.step] at h
    split at h
    · cases h
    · cases slot with
      | none =>
        obtain rfl := Option.some.inj h
        exact H
      | some m =>
        simp only [XrayRemote.receive] at h
        split at h
        · cases h
        · split at h
          · obtain rfl := Option.some.inj h
            exact H
          · cases h
  | handle =>
    simp only [XrayRemote.step] at h
    split at h
    · rename_i m q hcur hq
      obtain rfl := Option.some.inj h
      exact MutexHeld.completed (s := { s with current := some m, queue := q }) H _
    · cases h
  | recycle =>
    simp only [XrayRemote.step] at h
    split at h
    · cases h
    · split at h
      · cases h
      · obtain rfl := Option.some.inj h
        exact H
  | onServiceDisconnected =>
    obtain rfl := Option.some.inj h
    exact H.completed .failed

/-! ## 4. The invariant -/

/-- The request is on its way and nothing has completed it. -/
def RoundTrip.waiting (t : RoundTrip) : Bool :=
  (t.pc = .send ∨ t.pc = .await) ∧ t.deferred = .active

/-- A reply has completed the round trip, which has still to read it. -/
def RoundTrip.unread (t : RoundTrip) : Bool :=
  match t.pc, t.deferred with
  | .send, .completed _ | .await, .completed _ | .clear (some _), _ | .read (some _), _ => true
  | _, _ => false

namespace XrayRemote

/-- The request that the message answers waits no more: it has timed out, or its caller is gone. -/
def late (s : XrayRemote) (m : Nat) : Bool :=
  match (s.messages[m]?).bind fun msg => s.trips[msg.origin]? with
  | none => true
  | some t => t.pc ≠ .await

/-- A late reply finds no request waiting, and a message is recycled only while no round trip is between
    the end of its wait and its read. -/
def inTime (s : XrayRemote) : RemoteLabel → Bool
  | .handle =>
    match s.queue.head? with
    | none => true
    | some m => !s.late m || s.trips.all fun t => !t.waiting
  | .recycle => s.trips.all fun t => !t.unread
  | _ => true

end XrayRemote

theorem waitsFor_unread {t : RoundTrip} {m : Nat} (h : t.waitsFor m = true) : t.unread = true := by
  simp only [RoundTrip.waitsFor, decide_eq_true_eq] at h
  unfold RoundTrip.unread
  rcases h with ⟨hpc | hpc, hd⟩ | hpc | hpc
  · rw [hpc, hd]
  · rw [hpc, hd]
  · rw [hpc]
  · rw [hpc]

/-- **A reply handled in time completes its own request**: both are inside the lock. -/
theorem origin_of_inTime {s : XrayRemote} (H : MutexHeld s) {m i : Nat} {t : RoundTrip}
    (hm : s.queue.head? = some m) (hC : s.inTime .handle = true) (hi : s.trips[i]? = some t)
    (ht : t.waiting = true) : s.messages[m]?.all (·.origin = i) = true := by
  simp only [XrayRemote.inTime, hm, Bool.or_eq_true, Bool.not_eq_true', List.all_eq_true] at hC
  have hlate : s.late m = false := hC.resolve_right fun hall => by
    have hnot := hall t (List.mem_of_getElem? hi)
    rw [ht] at hnot
    cases hnot
  have hholds : t.pc.holds = true := by
    simp only [RoundTrip.waiting, decide_eq_true_eq] at ht
    rcases ht.1 with hpc | hpc <;> rw [hpc] <;> rfl
  unfold XrayRemote.late at hlate
  cases hmsg : s.messages[m]? with
  | none => rfl
  | some msg =>
    rw [hmsg, Option.bind_some] at hlate
    cases horigin : s.trips[msg.origin]? with
    | none => rw [horigin] at hlate; cases hlate
    | some t' =>
      rw [horigin] at hlate
      have hpc : t'.pc = .await := by simpa using hlate
      simpa using H.unique horigin (by rw [hpc]; rfl) hi hholds

structure Matched (s : XrayRemote) : Prop where
  flight : ∀ i ∈ s.flight, s.answerOf i ≠ none
  /-- a message that is queued or being handled holds the answer to its request -/
  live : ∀ m, m ∈ s.queue ∨ s.current = some m →
    ∃ i b, s.messages[m]? = some ⟨i, some b, false⟩ ∧ s.answerOf i = some b
  nodup : s.queue.Nodup
  off : ∀ m, s.current = some m → m ∉ s.queue
  /-- a round trip waits for the message being handled, which is its own -/
  waits : ∀ (i : Nat) (t : RoundTrip) (m : Nat), s.trips[i]? = some t → t.waitsFor m = true →
    s.current = some m ∧ s.messages[m]?.all (·.origin = i) = true
  result : ∀ (i : Nat) (t : RoundTrip) (b : Bundle), s.trips[i]? = some t →
    t.pc = .unlock (some b) ∨ t.pc = .done (some b) → t.answer = some b

theorem matched_init : Matched {} :=
  ⟨nofun, by simp, List.nodup_nil, nofun, by simp, by simp⟩

section Steps

variable {s s' : XrayRemote}

/-- What a round trip that waits is going to read is the answer to it. -/
theorem Matched.getData (I : Matched s) {i m : Nat} {t : RoundTrip} (hi : s.trips[i]? = some t)
    (hm : t.waitsFor m = true) : t.answer = some (s.getData m) := by
  obtain ⟨hcur, horigin⟩ := I.waits i t m hi hm
  obtain ⟨j, b, hmsg, hans⟩ := I.live m (.inr hcur)
  simp only [hmsg, Option.all_some, decide_eq_true_eq] at horigin
  subst horigin
  have ht : s.answerOf j = t.answer := field_eq hi
  rw [ht] at hans
  simp only [XrayRemote.getData, hmsg, Option.bind_some, Option.getD_some]
  exact hans

/-- The round trips change, and the answers given do not. -/
theorem Matched.of_trips (I : Matched s) {trips : List RoundTrip}
    (hans : field RoundTrip.answer none trips = s.answerOf)
    (hwaits : ∀ (i : Nat) (t : RoundTrip) (m : Nat), trips[i]? = some t → t.waitsFor m = true →
      s.current = some m ∧ s.messages[m]?.all (·.origin = i) = true)
    (hresult : ∀ (i : Nat) (t : RoundTrip) (b : Bundle), trips[i]? = some t →
      t.pc = .unlock (some b) ∨ t.pc = .done (some b) → t.answer = some b)
    (mutex pending : Option Nat) :
    Matched { s with trips := trips, requestMutex := mutex, pending := pending } := by
  refine ⟨fun k hk => ?_, fun m hm => ?_, I.nodup, I.off, hwaits, hresult⟩
  · show field RoundTrip.answer none trips k ≠ none
    rw [hans]
    exact I.flight k hk
  · obtain ⟨j, b, hmsg, hj⟩ := I.live m hm
    refine ⟨j, b, hmsg, ?_⟩
    show field RoundTrip.answer none trips j = some b
    rw [hans]
    exact hj

/-- Replacing a round trip by one with the same answer. -/
theorem field_answer_set {trips : List RoundTrip} {i : Nat} {t t' : RoundTrip}
    (hi : trips[i]? = some t) (ha : t'.answer = t.answer) :
    field RoundTrip.answer none (trips.set i t') = field RoundTrip.answer none trips := by
  have hold : field RoundTrip.answer none trips i = t.answer := field_eq hi
  rw [field_set hi, ha, ← hold]
  exact Function.update_eq_self i _

/-- A step of a round trip keeps the invariant. -/
theorem Matched.move (I : Matched s) {i : Nat} {t t' : RoundTrip} (hi : s.trips[i]? = some t)
    (h : TripMove s t t') (mutex pending : Option Nat) :
    Matched { s.goto i t' with requestMutex := mutex, pending := pending } := by
  refine I.of_trips (field_answer_set hi h.answer) (fun k t₁ m hk hm => ?_)
    (fun k t₁ b hk hb => ?_) mutex pending
  · rcases get_set hi hk with ⟨rfl, rfl⟩ | ⟨-, hk⟩
    · exact I.waits k t m hi (h.waitsFor hm)
    · exact I.waits k t₁ m hk hm
  · rcases get_set hi hk with ⟨rfl, rfl⟩ | ⟨-, hk⟩
    · rw [h.answer]
      rcases h.result hb with hb | ⟨m, hm, rfl⟩
      · exact I.result k t b hi hb
      · exact I.getData hi hm
    · exact I.result k t₁ b hk hb

theorem Matched.request (I : Matched s) (what : TestRequest) (uuid : Uuid) :
    Matched { s with trips := s.trips ++ [{ what := what, uuid := uuid }] } := by
  refine I.of_trips (field_concat rfl) (fun k t m hk hm => ?_) (fun k t b hk hb => ?_) _ _
  · rcases get_concat hk with hk | ⟨-, rfl⟩
    · exact I.waits k t m hk hm
    · simp [RoundTrip.waitsFor] at hm
  · rcases get_concat hk with hk | ⟨-, rfl⟩
    · exact I.result k t b hk hb
    · simp at hb

/-- The service answers a request it has not answered yet. -/
theorem Matched.answered (I : Matched s) {i : Nat} {t : RoundTrip} (hi : s.trips[i]? = some t)
    (hnone : t.answer = none) (b : Bundle) :
    Matched { s.goto i { t with answer := some b } with flight := s.flight ++ [i] } := by
  have hans : field RoundTrip.answer none (s.trips.set i { t with answer := some b }) =
      Function.update s.answerOf i (some b) := field_set hi
  have hold : s.answerOf i = none := (field_eq hi).trans hnone
  -- whoever had an answer keeps it
  have hkeep : ∀ (k : Nat) (c : Bundle), s.answerOf k = some c →
      field RoundTrip.answer none (s.trips.set i { t with answer := some b }) k = some c := by
    intro k c hk
    rw [hans, Function.update_of_ne (fun he => by rw [he, hold] at hk; cases hk)]
    exact hk
  refine ⟨fun k hk => ?_, fun m hm => ?_, I.nodup, I.off, fun k t₁ m hk hm => ?_,
    fun k t₁ c hk hc => ?_⟩
  · show field RoundTrip.answer none (s.trips.set i { t with answer := some b }) k ≠ none
    rcases List.mem_append.mp hk with hk | hk
    · obtain ⟨c, hc⟩ := Option.ne_none_iff_exists'.mp (I.flight k hk)
      rw [hkeep k c hc]
      nofun
    · obtain rfl := List.mem_singleton.mp hk
      rw [hans, Function.update_self]
      nofun
  · obtain ⟨j, c, hmsg, hj⟩ := I.live m hm
    exact ⟨j, c, hmsg, hkeep j c hj⟩
  · rcases get_set hi hk with ⟨rfl, rfl⟩ | ⟨-, hk⟩
    · exact I.waits k t m hi hm
    · exact I.waits k t₁ m hk hm
  · rcases get_set hi hk with ⟨rfl, rfl⟩ | ⟨-, hk⟩
    · have hc' := I.result k t c hi hc
      rw [hnone] at hc'
      cases hc'
    · exact I.result k t₁ c hk hc

/-- A reply arrives in a message object that nobody uses. -/
theorem Matched.received (I : Matched s) {i : Nat} {b : Bundle} (hb : s.answerOf i = some b)
    {m : Nat} {messages : List ReplyMessage} (hm : messages[m]? = some ⟨i, some b, false⟩)
    (hsame : ∀ k, k ≠ m → ∀ msg, s.messages[k]? = some msg → messages[k]? = some msg)
    (hfree : m ∉ s.queue ∧ s.current ≠ some m) {flight : List Nat}
    (hflight : ∀ k ∈ flight, k ∈ s.flight) :
    Matched { s with flight := flight, messages := messages, queue := s.queue ++ [m] } := by
  refine ⟨fun k hk => I.flight k (hflight k hk), fun k hk => ?_, ?_, fun k hk => ?_,
    fun k t n hk hn => ?_, I.result⟩
  · by_cases hkm : k = m
    · subst hkm
      exact ⟨i, b, hm, hb⟩
    · have hk' : k ∈ s.queue ∨ s.current = some k := by
        rcases hk with hk | hk
        · rcases List.mem_append.mp hk with hk | hk
          · exact .inl hk
          · exact absurd (List.mem_singleton.mp hk) hkm
        · exact .inr hk
      obtain ⟨j, c, hmsg, hj⟩ := I.live k hk'
      exact ⟨j, c, hsame k hkm _ hmsg, hj⟩
  · refine List.nodup_append.mpr ⟨I.nodup, by simp, fun a ha c hc he => ?_⟩
    rw [List.mem_singleton.mp hc] at he
    exact hfree.1 (he ▸ ha)
  · intro hmem
    rcases List.mem_append.mp hmem with hmem | hmem
    · exact I.off k hk hmem
    · rw [List.mem_singleton.mp hmem] at hk
      exact hfree.2 hk
  · obtain ⟨hcur, horigin⟩ := I.waits k t n hk hn
    refine ⟨hcur, ?_⟩
    obtain ⟨j, c, hmsg, -⟩ := I.live n (.inr hcur)
    have hnm : n ≠ m := fun he => hfree.2 (he ▸ hcur)
    show messages[n]?.all _ = true
    rw [hsame n hnm _ hmsg, ← hmsg]
    exact horigin

/-- A message in use has not been recycled. -/
theorem Matched.in_use (I : Matched s) {m : Nat} {msg : ReplyMessage}
    (hm : s.messages[m]? = some msg) (hr : msg.recycled = true) :
    m ∉ s.queue ∧ s.current ≠ some m := by
  have hnot : ¬ (m ∈ s.queue ∨ s.current = some m) := by
    intro h
    obtain ⟨i, b, hlive, -⟩ := I.live m h
    rw [hm] at hlive
    obtain rfl := Option.some.inj hlive
    cases hr
  exact ⟨fun h => hnot (.inl h), fun h => hnot (.inr h)⟩

/-- Completing a deferred that is active: only the request that is `pending` waits for more. -/
theorem Matched.completed (I : Matched s) (d : Deferred)
    (hown : ∀ m, d = .completed m → ∀ i t, s.pending = some i → s.trips[i]? = some t →
      t.waiting = true → s.current = some m ∧ s.messages[m]?.all (·.origin = i) = true) :
    Matched (s.complete d) := by
  unfold XrayRemote.complete
  split
  · exact I
  · rename_i i hp
    split
    · exact I
    · rename_i t hi
      split
      · rename_i hact
        have hans : field RoundTrip.answer none (s.trips.set i { t with deferred := d }) =
            s.answerOf := field_answer_set hi rfl
        refine I.of_trips hans (fun k t₁ m hk hm => ?_) (fun k t₁ b hk hb => ?_) _ _
        · rcases get_set hi hk with ⟨rfl, rfl⟩ | ⟨-, hk⟩
          · simp only [RoundTrip.waitsFor, decide_eq_true_eq] at hm
            rcases hm with ⟨hpc, hd⟩ | hold
            · exact hown m hd k t hp hi (by simpa [RoundTrip.waiting, hact] using hpc)
            · exact I.waits k t m hi (by simpa [RoundTrip.waitsFor] using .inr hold)
          · exact I.waits k t₁ m hk hm
        · rcases get_set hi hk with ⟨rfl, rfl⟩ | ⟨-, hk⟩
          · exact I.result k t b hi hb
          · exact I.result k t₁ b hk hb
      · exact I

/-- The looper recycles a message that nobody is to read. -/
theorem Matched.recycled (I : Matched s) {m : Nat} (hcur : s.current = some m)
    (hfree : ∀ t ∈ s.trips, t.waitsFor m = false) (msg : ReplyMessage) :
    Matched { s with messages := s.messages.set m msg, current := none } := by
  refine ⟨I.flight, fun k hk => ?_, I.nodup, nofun, fun k t n hk hn => ?_, I.result⟩
  · have hk : k ∈ s.queue := hk.resolve_right nofun
    have hkm : m ≠ k := fun he => I.off m hcur (he ▸ hk)
    obtain ⟨j, b, hmsg, hj⟩ := I.live k (.inl hk)
    exact ⟨j, b, (List.getElem?_set_ne hkm).trans hmsg, hj⟩
  · have hn' := (I.waits k t n hk hn).1
    obtain rfl := Option.some.inj (hcur.symm.trans hn')
    rw [hfree t (List.mem_of_getElem? hk)] at hn
    cases hn

/-- The looper takes the next message and runs its callback. -/
theorem Matched.handled (I : Matched s) (H : MutexHeld s) {m : Nat} {q : List Nat}
    (hcur : s.current = none) (hq : s.queue = m :: q) (hC : s.inTime .handle = true) :
    Matched ({ s with current := some m, queue := q }.complete (.completed m)) := by
  have hnodup := I.nodup
  rw [hq] at hnodup
  have I' : Matched { s with current := some m, queue := q } := by
    refine ⟨I.flight, fun k hk => ?_, hnodup.of_cons, fun k hk => ?_, fun k t n hk hn => ?_,
      I.result⟩
    · refine I.live k (.inl ?_)
      rw [hq]
      rcases hk with hk | hk
      · exact List.mem_cons_of_mem m hk
      · rw [← Option.some.inj hk]
        exact List.mem_cons_self
    · rw [← Option.some.inj hk]
      exact (List.nodup_cons.mp hnodup).1
    · have hnone := (I.waits k t n hk hn).1
      rw [hcur] at hnone
      cases hnone
  refine I'.completed _ fun n hn i t hp hi hwaiting => ?_
  cases hn
  exact ⟨rfl, origin_of_inTime H (by rw [hq]; rfl) hC hi hwaiting⟩

/-- A reply arrives in a message object: a new one, or one that was recycled. -/
theorem Matched.arrived {n : Nat} {slot : Option Nat} (I : Matched s) (h : s.step (.arrive n slot) = some s') :
    Matched s' := by
  simp only [XrayRemote.step] at h
  split at h
  · cases h
  · rename_i i hn
    obtain ⟨b, hb⟩ := Option.ne_none_iff_exists'.mp (I.flight i (List.mem_of_getElem? hn))
    have hflight : ∀ k ∈ s.flight.eraseIdx n, k ∈ s.flight := fun k hk =>
      List.mem_of_mem_eraseIdx hk
    rw [hb] at h
    cases slot with
    | none =>
      obtain rfl := Option.some.inj h
      refine I.received hb List.getElem?_concat_length (fun k hk msg hmsg => ?_) ⟨?_, ?_⟩ hflight
      · rw [List.getElem?_append_left (List.getElem?_eq_some_iff.mp hmsg).1]
        exact hmsg
      · intro hmem
        obtain ⟨j, c, hlive, -⟩ := I.live _ (.inl hmem)
        simp at hlive
      · intro hcur
        obtain ⟨j, c, hlive, -⟩ := I.live _ (.inr hcur)
        simp at hlive
    | some m =>
      simp only [XrayRemote.receive] at h
      split at h
      · cases h
      · rename_i msg hm
        split at h
        · rename_i hr
          obtain rfl := Option.some.inj h
          have hlt : m < s.messages.length := (List.getElem?_eq_some_iff.mp hm).1
          refine I.received hb (List.getElem?_set_self hlt) (fun k hk msg' hmsg => ?_)
            (I.in_use hm hr) hflight
          exact (List.getElem?_set_ne (Ne.symm hk)).trans hmsg
        · cases h

end Steps

/-- Every step along `inTime` keeps the invariant. -/
theorem matched_step {s : XrayRemote} {l : RemoteLabel} {s' : XrayRemote} (I : Matched s) (H : MutexHeld s)
    (hC : s.inTime l = true) (h : s.step l = some s') : Matched s' := by
  cases l with
  | request what uuid =>
    obtain rfl := Option.some.inj h
    exact I.request what uuid
  | trip i inp =>
    simp only [XrayRemote.step] at h
    split at h
    · cases h
    · rename_i t hi
      obtain ⟨t', mutex, pending, hmove, -, rfl⟩ := tripStep_move h
      exact I.move hi hmove mutex pending
  | timeout i =>
    simp only [XrayRemote.step] at h
    split at h
    · cases h
    · rename_i t hi
      split at h
      · rename_i hpc
        obtain rfl := Option.some.inj h
        exact I.move hi (.timeout hpc) _ _
      · cases h
  | cancel i =>
    simp only [XrayRemote.step] at h
    split at h
    · cases h
    · rename_i t hi
      split at h
      · obtain rfl := Option.some.inj h
        exact I.move hi .thrown _ _
      · obtain rfl := Option.some.inj h
        exact I.move hi .throws _ _
      · obtain rfl := Option.some.inj h
        exact I.move hi .throws _ _
      · cases h
  | answer i outcome =>
    simp only [XrayRemote.step] at h
    split at h
    · cases h
    · rename_i t hi
      split at h
      · rename_i hacc
        obtain rfl := Option.some.inj h
        exact I.answered hi hacc.2 _
      · cases h
  | arrive n slot => exact I.arrived h
  | handle =>
    simp only [XrayRemote.step] at h
    split at h
    · rename_i m q hcur hq
      obtain rfl := Option.some.inj h
      exact I.handled H hcur hq hC
    · cases h
  | recycle =>
    simp only [XrayRemote.step] at h
    split at h
    · cases h
    · rename_i m hcur
      split at h
      · cases h
      · obtain rfl := Option.some.inj h
        simp only [XrayRemote.inTime, List.all_eq_true, Bool.not_eq_true'] at hC
        refine I.recycled hcur (fun t ht => Bool.eq_false_iff.mpr fun hw => ?_) _
        have hread := hC t ht
        rw [waitsFor_unread hw] at hread
        cases hread
  | onServiceDisconnected =>
    obtain rfl := Option.some.inj h
    exact I.completed _ nofun

/-- **Replies are matched**: in every run in which no late reply finds a request waiting and no message
    is recycled before it is read, a round trip returns null or exactly the Bundle that the service has
    sent in reply to it. -/
theorem replies_matched {ls : List RemoteLabel} {s : XrayRemote}
    (h : exec XrayRemote.step {} ls = some s)
    (hC : Along XrayRemote.step (fun s l => s.inTime l = true) {} ls) (i : Nat) (t : RoundTrip)
    (result : Option Bundle) (hi : s.trips[i]? = some t) (hdone : t.pc = .done result) :
    result = none ∨ result = t.answer := by
  have hstep : ∀ (s : XrayRemote) (l : RemoteLabel) (s' : XrayRemote), Matched s ∧ MutexHeld s →
      s.inTime l = true → s.step l = some s' → Matched s' ∧ MutexHeld s' :=
    fun s l s' I hl hs => ⟨matched_step I.1 I.2 hl hs, mutexHeld_step s l s' I.2 hs⟩
  have I := (exec_inv hstep ⟨matched_init, mutexHeld_init⟩ hC h).1
  cases result with
  | none => exact .inl rfl
  | some b => exact .inr (I.result i t b hi (.inr hdone)).symm

/-- A latency request that is bound, sent, answered with 42 ms and completed. -/
def latencyAnswered : List RemoteLabel :=
  RemoteLabel.request .latency "xray1" :: List.replicate 4 (RemoteLabel.trip 0 {}) ++
    [RemoteLabel.answer 0 { ms := some 42 }, .arrive 0 none, .handle]

theorem replies_matched_latency :
    ∃ s t, exec XrayRemote.step {}
        (latencyAnswered ++ List.replicate 4 (RemoteLabel.trip 0 {}) ++ [RemoteLabel.recycle]) = some s ∧
      s.trips[0]? = some t ∧ t.pc = .done (some { ms := some 42 }) ∧ some { ms := some 42 } = t.answer := by
  have hrun : exec XrayRemote.step {}
      (latencyAnswered ++ List.replicate 4 (RemoteLabel.trip 0 {}) ++ [RemoteLabel.recycle]) = some _ := rfl
  have hmatch := replies_matched hrun (by decide) 0 _ _ rfl rfl
  exact ⟨_, _, rfl, rfl, rfl, hmatch.resolve_left nofun⟩

/-- A latency request times out; its reply comes while a speed request waits. -/
def lateReply : List RemoteLabel :=
  [RemoteLabel.request .latency "xray1", .request .speed "xray2"] ++
    List.replicate 4 (RemoteLabel.trip 0 {}) ++ [RemoteLabel.timeout 0] ++
    List.replicate 3 (RemoteLabel.trip 0 {}) ++ List.replicate 4 (RemoteLabel.trip 1 {}) ++
    [RemoteLabel.answer 0 { ms := some 42 }, .arrive 0 none, .handle] ++ List.replicate 4 (RemoteLabel.trip 1 {})

/-- Two ways to lose a reply. The looper recycles the message before the round trip has read it:
    **the round trip returns an empty Bundle where the service answered 42 ms**. And a reply that
    comes after the timeout completes the request that waits then: **a speed request that the
    service has not answered returns the Bundle of the latency request**. -/
theorem replies_crossed :
    (∃ s t, exec XrayRemote.step {}
        (latencyAnswered ++ [RemoteLabel.recycle] ++ List.replicate 4 (RemoteLabel.trip 0 {})) = some s ∧
      s.trips[0]? = some t ∧ t.answer = some { ms := some 42 } ∧ t.pc = .done (some {})) ∧
    (∃ s t, exec XrayRemote.step {} lateReply = some s ∧ s.trips[1]? = some t ∧
      t.what = .speed ∧ t.answer = none ∧ t.pc = .done (some { ms := some 42 })) :=
  ⟨⟨_, _, rfl, rfl, rfl, rfl⟩, ⟨_, _, rfl, rfl, rfl, rfl, rfl⟩⟩

end SwiftVpn
