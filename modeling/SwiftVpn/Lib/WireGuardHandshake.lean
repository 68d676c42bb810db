/-
  File:      SwiftVpn/Lib/WireGuardHandshake.lean
  Subject:   THE FIRST MESSAGE OF A WIREGUARD HANDSHAKE, AS A RESPONDER READS IT.

  * `hmac`, `kdf1`, `kdf2` -- HMAC with BLAKE2s, and the keys that are derived with it;
  * `consume` -- what a responder does with the message: its layout, `mac1`, and the chain of hashes and
    keys that leads to the initiator's static key and timestamp.

  The agreement of keys and the opening of a sealed field are parameters.
-/
import SwiftVpn.Lib.Blake2s

namespace WireGuardHandshake

open Bytes

/-- `Hash`. -/
def blake (input : List UInt8) : List UInt8 := Rfc7693.hash [] input 32

/-- `Mac`: a keyed hash of sixteen bytes. -/
def mac (key input : List UInt8) : List UInt8 := Rfc7693.hash key input 16

/-- `Hmac`: a key longer than a block is hashed first. -/
def hmac (key input : List UInt8) : List UInt8 :=
  let key := if 64 < key.length then blake key else key
  let key := (key ++ List.replicate 64 0).take 64
  blake (key.map (· ^^^ 0x5c) ++ blake (key.map (· ^^^ 0x36) ++ input))

/-- `Kdf1`. -/
def kdf1 (key input : List UInt8) : List UInt8 := hmac (hmac key input) [1]

/-- `Kdf2`. -/
def kdf2 (key input : List UInt8) : List UInt8 × List UInt8 :=
  let t0 := hmac key input
  let t1 := hmac t0 [1]
  (t1, hmac t0 (t1 ++ [2]))

def construction : List UInt8 := "Noise_IKpsk2_25519_ChaChaPoly_BLAKE2s".toUTF8.toList

def identifier : List UInt8 := "WireGuard v1 zx2c4 Jason@zx2c4.com".toUTF8.toList

def labelMac1 : List UInt8 := "mac1----".toUTF8.toList

/-- What a responder learns. -/
structure Initiation where
  static : List UInt8
  timestamp : List UInt8
  deriving DecidableEq, Repr

/-- Agreement of keys: of a private key and a public one. -/
abbrev Agreement := List UInt8 → List UInt8 → List UInt8

/-- Opening of a sealed field: key, nonce, what is sealed, associated data. -/
abbrev Opening := List UInt8 → List UInt8 → List UInt8 → List UInt8 → Option (List UInt8)

/-- The first `mac` of a message. -/
def mac1Verifies (publicKey msg : List UInt8) : Bool :=
  mac (blake (labelMac1 ++ publicKey)) (msg.take 116) = (msg.drop 116).take 16

/-- A responder and its key pair. -/
def consume (dh : Agreement) (openSealed : Opening) (privateKey publicKey msg : List UInt8) : Option Initiation := do
  if msg.length ≠ 148 ∨ msg.take 4 ≠ [1, 0, 0, 0] then none
  if !mac1Verifies publicKey msg then none
  let ephemeral := (msg.drop 8).take 32
  let sealedStatic := (msg.drop 40).take 48
  let sealedTimestamp := (msg.drop 88).take 28
  let c := blake construction
  let h := blake (blake (c ++ identifier) ++ publicKey)
  let c := kdf1 c ephemeral
  let h := blake (h ++ ephemeral)
  let (c, k) := kdf2 c (dh privateKey ephemeral)
  let static ← openSealed k (List.replicate 12 0) sealedStatic h
  let h := blake (h ++ sealedStatic)
  let (_, k) := kdf2 c (dh privateKey static)
  let timestamp ← openSealed k (List.replicate 12 0) sealedTimestamp h
  return ⟨static, timestamp⟩

/-- A label of TAI64N: seconds and nanoseconds, the most significant byte first. -/
def taiLabel (seconds nanoseconds : Nat) : List UInt8 :=
  (leBytes 8 (2 ^ 62 + 10 + seconds)).reverse ++ (leBytes 4 nanoseconds).reverse

/-! ## The layout of the message -/

/-- The fields of a message: type, sender, ephemeral, static, timestamp and the two authenticators. -/
structure Layout (type sender ephemeral static timestamp mac1 mac2 : List UInt8) : Prop where
  type : type.length = 4
  sender : sender.length = 4
  ephemeral : ephemeral.length = 32
  static : static.length = 48
  timestamp : timestamp.length = 28
  mac1 : mac1.length = 16
  mac2 : mac2.length = 16

namespace Layout

variable {type sender ephemeral static timestamp mac1 mac2 : List UInt8}
  (h : Layout type sender ephemeral static timestamp mac1 mac2)

include h

theorem take_type (rest : List UInt8) : (type ++ rest).take 4 = type := List.take_left' h.type

theorem length_eq :
    (type ++ sender ++ ephemeral ++ static ++ timestamp ++ mac1 ++ mac2).length = 148 := by
  simp only [List.length_append, h.type, h.sender, h.ephemeral, h.static, h.timestamp, h.mac1, h.mac2]

theorem ephemeral_eq (rest : List UInt8) :
    ((type ++ sender ++ ephemeral ++ rest).drop 8).take 32 = ephemeral := by
  have hlen : (type ++ sender).length = 8 := by rw [List.length_append, h.type, h.sender]
  rw [List.append_assoc (type ++ sender), List.drop_left' hlen, List.take_left' h.ephemeral]

theorem static_eq (rest : List UInt8) :
    ((type ++ sender ++ ephemeral ++ static ++ rest).drop 40).take 48 = static := by
  have hlen : (type ++ sender ++ ephemeral).length = 40 := by
    simp only [List.length_append, h.type, h.sender, h.ephemeral]
  rw [List.append_assoc (type ++ sender ++ ephemeral), List.drop_left' hlen, List.take_left' h.static]

theorem timestamp_eq (rest : List UInt8) :
    ((type ++ sender ++ ephemeral ++ static ++ timestamp ++ rest).drop 88).take 28 = timestamp := by
  have hlen : (type ++ sender ++ ephemeral ++ static).length = 88 := by
    simp only [List.length_append, h.type, h.sender, h.ephemeral, h.static]
  rw [List.append_assoc (type ++ sender ++ ephemeral ++ static), List.drop_left' hlen,
    List.take_left' h.timestamp]

theorem length_authenticated : (type ++ sender ++ ephemeral ++ static ++ timestamp).length = 116 := by
  simp only [List.length_append, h.type, h.sender, h.ephemeral, h.static, h.timestamp]

theorem authenticated_eq (rest : List UInt8) :
    (type ++ sender ++ ephemeral ++ static ++ timestamp ++ rest).take 116
      = type ++ sender ++ ephemeral ++ static ++ timestamp := List.take_left' h.length_authenticated

theorem mac1_eq (rest : List UInt8) :
    ((type ++ sender ++ ephemeral ++ static ++ timestamp ++ mac1 ++ rest).drop 116).take 16 = mac1 := by
  rw [List.append_assoc _ mac1, List.drop_left' h.length_authenticated, List.take_left' h.mac1]

end Layout

/-- The hash of what both sides know once the ephemeral key is sent. -/
def transcript (publicKey ephemeral : List UInt8) : List UInt8 :=
  blake (blake (blake (blake construction ++ identifier) ++ publicKey) ++ ephemeral)

/-- The keys from the first agreement. -/
def firstKeys (ephemeral secret : List UInt8) : List UInt8 × List UInt8 :=
  kdf2 (kdf1 (blake construction) ephemeral) secret

/-- **A message with all its fields is taken**, if they open. -/
theorem consume_of_layout {dh : Agreement} {openSealed : Opening}
    {privateKey publicKey sender ephemeral sealedStatic sealedTimestamp mac1 mac2 static timestamp : List UInt8}
    (h : Layout [1, 0, 0, 0] sender ephemeral sealedStatic sealedTimestamp mac1 mac2)
    (hmac : mac1Verifies publicKey
      ([1, 0, 0, 0] ++ sender ++ ephemeral ++ sealedStatic ++ sealedTimestamp ++ mac1 ++ mac2) = true)
    (hstatic : openSealed (firstKeys ephemeral (dh privateKey ephemeral)).2 (List.replicate 12 0) sealedStatic
      (transcript publicKey ephemeral) = some static)
    (htimestamp : openSealed
      (kdf2 (firstKeys ephemeral (dh privateKey ephemeral)).1 (dh privateKey static)).2 (List.replicate 12 0)
      sealedTimestamp (blake (transcript publicKey ephemeral ++ sealedStatic)) = some timestamp) :
    consume dh openSealed privateKey publicKey
      ([1, 0, 0, 0] ++ sender ++ ephemeral ++ sealedStatic ++ sealedTimestamp ++ mac1 ++ mac2)
      = some ⟨static, timestamp⟩ := by
  have hlength := h.length_eq
  have htype := h.take_type (sender ++ ephemeral ++ sealedStatic ++ sealedTimestamp ++ mac1 ++ mac2)
  have he := h.ephemeral_eq (sealedStatic ++ sealedTimestamp ++ mac1 ++ mac2)
  have hs := h.static_eq (sealedTimestamp ++ mac1 ++ mac2)
  have ht := h.timestamp_eq (mac1 ++ mac2)
  simp only [← List.append_assoc] at htype he hs ht
  unfold consume
  rw [if_neg (by rw [hlength, htype]; simp), hmac, he, hs, ht]
  unfold firstKeys transcript at hstatic htimestamp
  simp only [Bool.not_true, Bool.false_eq_true, if_false, hstatic, htimestamp, Option.bind_eq_bind,
    Option.bind_some]
  rfl

/-! ## Lengths -/

theorem length_wordsOf (h : Vector UInt32 8) : (h.toList.flatMap wordBytes).length = 32 := by
  have hlen : ∀ ws : List UInt32, (ws.flatMap wordBytes).length = 4 * ws.length := by
    intro ws
    induction ws with
    | nil => rfl
    | cons w ws ih =>
      rw [List.flatMap_cons, List.length_append, length_wordBytes, ih, List.length_cons]
      omega
  rw [hlen, Vector.length_toList]

theorem length_blake (input : List UInt8) : (blake input).length = 32 := by
  rw [blake, Rfc7693.hash, List.length_take, length_wordsOf]
  rfl

theorem length_mac (key input : List UInt8) : (mac key input).length = 16 := by
  rw [mac, Rfc7693.hash, List.length_take, length_wordsOf]
  rfl

theorem length_hmac (key input : List UInt8) : (hmac key input).length = 32 := length_blake _

end WireGuardHandshake
