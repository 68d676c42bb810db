/-
  File:      SwiftVpn/Probe/OpenVpn.lean
  Subject:   THE OPENVPN PROBE: openvpn OF DelayProbe.kt, BESIDE THE PACKETS OF THE BUNDLED OpenVPN.

  * `Crypto` -- the platform's HMAC and AES in counter mode, with the lengths of what they give;
  * `openvpn` -- the datagrams it sends, up to the first that is answered, and the time it returns;
  * `ControlPacket` -- a client's first packet as `tls_wrap_control` and tls_crypt.h lay it out;
  * `openvpn_not_laid_out` -- no datagram of any mode has that layout: the acknowledgements and the packet id
    of the message are missing, and in the encrypted mode the packet does not start in the clear.
-/
import SwiftVpn.Probe.Ovpn
import SwiftVpn.Probe.Ikev2

namespace SwiftVpn.DelayProbe

/-! ## 1. The probe -/

/-- `Mac` and `Cipher` of the platform: an algorithm may be unknown. -/
structure Crypto where
  size : String → Nat
  hmac : String → List UInt8 → List UInt8 → Option (List UInt8)
  aesCtr : List UInt8 → List UInt8 → List UInt8 → List UInt8
  size_sha256 : size "HmacSHA256" = 32
  length_hmac : ∀ {algorithm key msg tag}, hmac algorithm key msg = some tag → tag.length = size algorithm
  length_aesCtr : ∀ key iv data, (aesCtr key iv data).length = data.length

/-- What a try draws and gets. -/
structure Try where
  iv : List UInt8
  reply : Option Int

def directionsToTry (configured : Int) : List Nat := if configured = 1 then [1, 0] else [0, 1]

/-- The half of a key for a direction: the cipher's part, then the part of the HMAC. -/
def cipherKeyOf (key : List UInt8) (dir : Nat) : List UInt8 := (key.drop (dir * 128)).take 32

def hmacKeyOf (key : List UInt8) (dir : Nat) : List UInt8 := (key.drop (dir * 128 + 64)).take 64

/-- `P_CONTROL_HARD_RESET_CLIENT_V2` and the session. -/
def core (session : List UInt8) : List UInt8 := [(7 : UInt8) <<< 3] ++ session

section Datagrams

variable (crypto : Crypto) (session : List UInt8) (time : UInt64)

/-- `pid`. -/
def pid : List UInt8 := u32 1

/-- tls-crypt: nothing if the platform throws. -/
def cryptDatagram (key iv : List UInt8) (dir : Nat) : Option (List UInt8) :=
  let plain := core session ++ pid ++ u32 time
  let ct := crypto.aesCtr (cipherKeyOf key dir) iv plain
  let head := pid ++ u32 time ++ iv ++ ct
  (crypto.hmac "HmacSHA256" (hmacKeyOf key dir) head).map fun tag => tag ++ head

/-- tls-auth. -/
def authDatagram (digest : String) (key : List UInt8) (dir : Nat) : Option (List UInt8) :=
  (crypto.hmac digest (hmacKeyOf key dir) (pid ++ u32 time ++ core session)).map fun tag =>
    core session ++ tag ++ pid ++ u32 time

def plainDatagram : List UInt8 := core session ++ pid ++ u32 time

/-- The loop over directions: it ends with the first reply, or with an exception. -/
def sendAll (datagram : Nat → Option (List UInt8)) (tries : Nat → Try) : List Nat → List (List UInt8) × Option Int
  | [] => ([], none)
  | dir :: dirs =>
    match datagram dir with
    | none => ([], none)
    | some d =>
      match (tries dir).reply with
      | some ms => ([d], some ms)
      | none =>
        let rest := sendAll datagram tries dirs
        (d :: rest.1, rest.2)

/-- `openvpn`, with the datagrams it sends. -/
def openvpn (ovpnText : String) (tries : Nat → Try) (tcpLatency : Option Int) : List (List UInt8) × Option Int :=
  match parseOvpn ovpnText with
  | none => ([], none)
  | some t =>
    if t.tcp then ([], tcpLatency)
    else
      match t.tlsCryptKey, t.tlsAuthKey with
      | some key, _ =>
        sendAll (fun dir => cryptDatagram crypto session time key (tries dir).iv dir) tries
          (directionsToTry t.keyDirection)
      | none, some key =>
        sendAll (authDatagram crypto session time t.authDigest key) tries (directionsToTry t.keyDirection)
      | none, none => ([plainDatagram session time], (tries 0).reply)

end Datagrams

/-! ## 2. The packets of OpenVPN -/

/-- The body of a client's hard reset: no packet is acknowledged, and this one is the first. -/
def hardReset : List UInt8 := 0 :: u32 0

/-- A client's first packet, in the mode that the keys of the configuration select. -/
inductive ControlPacket (crypto : Crypto) (t : OvpnProbeTarget) (session : List UInt8) : List UInt8 → Prop
  | plain (hcrypt : t.tlsCryptKey = none) (hauth : t.tlsAuthKey = none) :
      ControlPacket crypto t session ([0x38] ++ session ++ hardReset)
  | auth {key tag packetId time : List UInt8} (hcrypt : t.tlsCryptKey = none) (hauth : t.tlsAuthKey = some key)
      (htag : tag.length = crypto.size t.authDigest) (hid : packetId.length = 4) (htime : time.length = 4) :
      ControlPacket crypto t session ([0x38] ++ session ++ tag ++ packetId ++ time ++ hardReset)
  | crypt {key cipherKey tag packetId time : List UInt8} (hcrypt : t.tlsCryptKey = some key)
      (htag : tag.length = 32) (hid : packetId.length = 4) (htime : time.length = 4) :
      ControlPacket crypto t session
        ([0x38] ++ session ++ packetId ++ time ++ tag ++ crypto.aesCtr cipherKey (tag.take 16) hardReset)

/-- The length of that packet. -/
def packetLength (crypto : Crypto) (t : OvpnProbeTarget) : Nat :=
  match t.tlsCryptKey, t.tlsAuthKey with
  | some _, _ => 54
  | none, some _ => 22 + crypto.size t.authDigest
  | none, none => 14

@[simp] theorem length_u32 (v : UInt64) : (u32 v).length = 4 := rfl

@[simp] theorem length_pid : pid.length = 4 := rfl

@[simp] theorem length_hardReset : hardReset.length = 5 := rfl

theorem ControlPacket.length {crypto : Crypto} {t : OvpnProbeTarget} {session d : List UInt8}
    (hsession : session.length = 8) (h : ControlPacket crypto t session d) : d.length = packetLength crypto t := by
  cases h with
  | plain hcrypt hauth =>
    simp only [packetLength, hcrypt, hauth, List.length_append, List.length_singleton, hsession, length_hardReset]
  | auth hcrypt hauth htag hid htime =>
    simp only [packetLength, hcrypt, hauth, List.length_append, List.length_singleton, hsession, htag, hid, htime,
      length_hardReset]
    omega
  | crypt hcrypt htag hid htime =>
    simp only [packetLength, hcrypt, List.length_append, List.length_singleton, hsession, htag, hid, htime,
      crypto.length_aesCtr, length_hardReset]

/-! ## 3. What is sent -/

theorem length_core (session : List UInt8) : (core session).length = session.length + 1 := by
  rw [core, List.length_append, List.length_singleton, Nat.add_comm]

/-- Each datagram is that of some direction. -/
theorem mem_sendAll {datagram : Nat → Option (List UInt8)} {tries : Nat → Try} {dirs : List Nat} {d : List UInt8}
    (h : d ∈ (sendAll datagram tries dirs).1) : ∃ dir, datagram dir = some d := by
  induction dirs with
  | nil => cases h
  | cons dir dirs ih =>
    rw [sendAll] at h
    cases hd : datagram dir with
    | none =>
      rw [hd] at h
      cases h
    | some d' =>
      rw [hd] at h
      dsimp only at h
      cases hr : (tries dir).reply with
      | some ms =>
        rw [hr] at h
        exact ⟨dir, List.mem_singleton.1 h ▸ hd⟩
      | none =>
        rw [hr] at h
        rcases List.mem_cons.1 h with rfl | h
        · exact ⟨dir, hd⟩
        · exact ih h

/-- The length of what the probe sends. -/
def sentLength (crypto : Crypto) (t : OvpnProbeTarget) : Nat :=
  match t.tlsCryptKey, t.tlsAuthKey with
  | some _, _ => 73
  | none, some _ => 17 + crypto.size t.authDigest
  | none, none => 17

theorem length_of_mem_openvpn {crypto : Crypto} {ovpnText : String} {t : OvpnProbeTarget}
    (hparse : parseOvpn ovpnText = some t) (hudp : t.tcp = false) {session : List UInt8}
    (hsession : session.length = 8) {time : UInt64} {tries : Nat → Try} (hiv : ∀ dir, (tries dir).iv.length = 16)
    {tcpLatency : Option Int} {d : List UInt8}
    (h : d ∈ (openvpn crypto session time ovpnText tries tcpLatency).1) : d.length = sentLength crypto t := by
  have hcore : (core session).length = 9 := by rw [length_core, hsession]
  unfold openvpn at h
  rw [hparse] at h
  simp only [hudp, Bool.false_eq_true, if_false] at h
  unfold sentLength
  cases hcrypt : t.tlsCryptKey with
  | some key =>
    rw [hcrypt] at h
    obtain ⟨dir, hd⟩ := mem_sendAll h
    obtain ⟨tag, htag, rfl⟩ := Option.map_eq_some_iff.1 hd
    simp only [List.length_append, crypto.length_hmac htag, crypto.size_sha256, length_pid, length_u32, hiv,
      crypto.length_aesCtr, hcore]
  | none =>
    cases hauth : t.tlsAuthKey with
    | some key =>
      rw [hcrypt, hauth] at h
      obtain ⟨dir, hd⟩ := mem_sendAll h
      obtain ⟨tag, htag, rfl⟩ := Option.map_eq_some_iff.1 hd
      simp only [List.length_append, crypto.length_hmac htag, length_pid, length_u32, hcore]
      omega
    | none =>
      rw [hcrypt, hauth] at h
      rw [List.mem_singleton.1 h, plainDatagram]
      simp only [List.length_append, length_pid, length_u32, hcore]

/-- In no mode is the packet as long as what is sent. -/
theorem sentLength_ne (crypto : Crypto) (t : OvpnProbeTarget) : sentLength crypto t ≠ packetLength crypto t := by
  unfold sentLength packetLength
  cases t.tlsCryptKey with
  | some key =>
    dsimp only
    decide
  | none =>
    cases t.tlsAuthKey with
    | some key =>
      dsimp only
      omega
    | none =>
      dsimp only
      decide

theorem not_controlPacket {crypto : Crypto} {ovpnText : String} {t : OvpnProbeTarget}
    (hparse : parseOvpn ovpnText = some t) (hudp : t.tcp = false) {session : List UInt8}
    (hsession : session.length = 8) {time : UInt64} {tries : Nat → Try} (hiv : ∀ dir, (tries dir).iv.length = 16)
    {tcpLatency : Option Int} {d : List UInt8}
    (h : d ∈ (openvpn crypto session time ovpnText tries tcpLatency).1) : ¬ControlPacket crypto t session d :=
  fun hp => sentLength_ne crypto t ((length_of_mem_openvpn hparse hudp hsession hiv h).symm.trans (hp.length hsession))

/-- The probe sends something, and each datagram is a packet of OpenVPN. -/
def FollowsLayout (crypto : Crypto) (t : OvpnProbeTarget) (session : List UInt8) (sent : List (List UInt8)) : Prop :=
  sent ≠ [] ∧ ∀ d ∈ sent, ControlPacket crypto t session d

/-- **No datagram has the layout of OpenVPN**, whatever the mode, the session and the time are. -/
theorem openvpn_not_laid_out {crypto : Crypto} {ovpnText : String} {t : OvpnProbeTarget}
    (hparse : parseOvpn ovpnText = some t) (hudp : t.tcp = false) {session : List UInt8}
    (hsession : session.length = 8) (time : UInt64) {tries : Nat → Try} (hiv : ∀ dir, (tries dir).iv.length = 16)
    (tcpLatency : Option Int) :
    (∀ d ∈ (openvpn crypto session time ovpnText tries tcpLatency).1, ¬ControlPacket crypto t session d) ∧
      ¬FollowsLayout crypto t session (openvpn crypto session time ovpnText tries tcpLatency).1 := by
  refine ⟨fun d hd => not_controlPacket hparse hudp hsession hiv hd, fun hall => ?_⟩
  obtain ⟨d, hd⟩ := List.exists_mem_of_ne_nil _ hall.1
  exact not_controlPacket hparse hudp hsession hiv hd (hall.2 d hd)

/-- A platform that knows no algorithm. The mode without keys asks for none. -/
def bare : Crypto where
  size algorithm := if algorithm = "HmacSHA256" then 32 else 20
  hmac _ _ _ := none
  aesCtr _ _ data := data
  size_sha256 := if_pos rfl
  length_hmac h := by cases h
  length_aesCtr _ _ _ := rfl

/-- A configuration without keys. -/
def remoteOnly : OvpnProbeTarget :=
  { host := "a", port := 1194, tcp := false, authDigest := "HmacSHA1", tlsAuthKey := none, keyDirection := -1,
    tlsCryptKey := none }

theorem parseOvpn_remoteOnly : parseOvpn "remote a" = some remoteOnly := by decide +kernel

theorem openvpn_remoteOnly :
    (openvpn bare (List.replicate 8 0) 1700000000 "remote a" (fun _ => ⟨List.replicate 16 0, none⟩) none).1
      = [[0x38, 0, 0, 0, 0, 0, 0, 0, 0, 0, 0, 0, 1, 0x65, 0x53, 0xf1, 0]] := by
  unfold openvpn
  rw [parseOvpn_remoteOnly]
  decide +kernel

theorem openvpn_not_laid_out_remoteOnly :
    (∀ d ∈ (openvpn bare (List.replicate 8 0) 1700000000 "remote a" (fun _ => ⟨List.replicate 16 0, none⟩) none).1,
        ¬ControlPacket bare remoteOnly (List.replicate 8 0) d) ∧
      ¬FollowsLayout bare remoteOnly (List.replicate 8 0)
        (openvpn bare (List.replicate 8 0) 1700000000 "remote a" (fun _ => ⟨List.replicate 16 0, none⟩) none).1 :=
  openvpn_not_laid_out parseOvpn_remoteOnly rfl List.length_replicate 1700000000
    (fun _ => List.length_replicate) none

/-- Seventeen bytes instead of fourteen: where the acknowledgements and the id of the message belong, there is
    the packet id 1 and the time. -/
theorem openvpn_remoteOnly_body :
    (openvpn bare (List.replicate 8 0) 1700000000 "remote a" (fun _ => ⟨List.replicate 16 0, none⟩) none).1
        = [[0x38, 0, 0, 0, 0, 0, 0, 0, 0, 0, 0, 0, 1, 0x65, 0x53, 0xf1, 0]] ∧
      ¬ControlPacket bare remoteOnly (List.replicate 8 0)
        [0x38, 0, 0, 0, 0, 0, 0, 0, 0, 0, 0, 0, 1, 0x65, 0x53, 0xf1, 0] := by
  refine ⟨openvpn_remoteOnly, fun h => ?_⟩
  exact absurd (h.length List.length_replicate) (by decide)

end SwiftVpn.DelayProbe
