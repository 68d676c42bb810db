/-
  File:      SwiftVpn/Probe/WireGuard.lean
  Subject:   THE WIREGUARD PROBE: wireguard OF DelayProbe.kt, AND A RESPONDER THAT READS IT.

  * `hmacBlake2s`, `kdf`, `tai64n` -- the helpers; the first two are those of the protocol (`hmacBlake2s_eq`,
    `kdf_one`, `kdf_two`), the last is the label of TAI64N (`tai64n_eq`);
  * `wireguard` -- the message, from the keys and the clock;
  * `wireguard_accepted` -- a responder that can open what `chacha20poly1305Encrypt` sealed takes it, and
    learns the static key and the time.
-/
import SwiftVpn.Lib.WireGuardHandshake
import SwiftVpn.Probe.Blake2s

namespace SwiftVpn.DelayProbe

open Bytes WireGuardHandshake

/-! ## 1. The message -/

def CONSTRUCTION : List UInt8 := "Noise_IKpsk2_25519_ChaChaPoly_BLAKE2s".toUTF8.toList

def IDENTIFIER : List UInt8 := "WireGuard v1 zx2c4 Jason@zx2c4.com".toUTF8.toList

def LABEL_MAC1 : List UInt8 := "mac1----".toUTF8.toList

/-- `tai64n`; the clock is read twice. -/
def tai64n (now now' : UInt64) : List UInt8 :=
  let secs := now / 1000 + 0x400000000000000a
  let nanos := now' % 1000 * 1000000
  (List.range 8).map (fun i => (secs >>> UInt64.ofNat (56 - 8 * i)).toUInt8) ++
    (List.range 4).map fun i => (nanos >>> UInt64.ofNat (24 - 8 * i)).toUInt8

def hmacBlake2s (key msg : List UInt8) : List UInt8 :=
  let k := if key.length ≤ 64 then key else blake2s key none 32
  let k := Blake2s.copyOf64 k
  let ipad := (List.range 64).map fun i => k.getD i 0 ^^^ 0x36
  let opad := (List.range 64).map fun i => k.getD i 0 ^^^ 0x5c
  blake2s (opad ++ blake2s (ipad ++ msg) none 32) none 32

def kdf (n : Nat) (ck input : List UInt8) : List (List UInt8) :=
  let t0 := hmacBlake2s ck input
  let out := (List.replicate n []).set 0 (hmacBlake2s t0 [1])
  (List.range' 1 (n - 1)).foldl
    (fun out i => out.set i (hmacBlake2s t0 (out.getD (i - 1) [] ++ [UInt8.ofNat (i + 1)]))) out

/-- The base point of the curve. -/
def base : List UInt8 := (List.replicate 32 0).set 0 9

/-- `KeyPair`: the public key is derived from the private one. -/
structure KeyPair (eval : Agreement) where
  privateKey : List UInt8
  publicKey : List UInt8
  publicKey_eq : publicKey = eval privateKey base

/-- `wireguard`, up to the datagram: `eval` is `Curve25519.eval`, `ephPriv` and `sender` are random. -/
def wireguard (eval : Agreement) (keyPair : KeyPair eval) (responderPub ephPriv sender : List UInt8)
    (now now' : UInt64) : List UInt8 :=
  let ephPub := eval ephPriv base
  let es := eval ephPriv responderPub
  let ss := eval keyPair.privateKey responderPub
  let ck := blake2s CONSTRUCTION none 32
  let h := blake2s (ck ++ IDENTIFIER) none 32
  let h := blake2s (h ++ responderPub) none 32
  let ck := (kdf 1 ck ephPub).getD 0 []
  let h := blake2s (h ++ ephPub) none 32
  let t := kdf 2 ck es
  let ck := t.getD 0 []
  let encStatic := chacha20poly1305Encrypt (t.getD 1 []) (List.replicate 12 0) keyPair.publicKey h
  let h := blake2s (h ++ encStatic) none 32
  let t := kdf 2 ck ss
  let encTs := chacha20poly1305Encrypt (t.getD 1 []) (List.replicate 12 0) (tai64n now now') h
  let noMac := [1, 0, 0, 0] ++ sender ++ ephPub ++ encStatic ++ encTs
  let mac1 := blake2s noMac (some (blake2s (LABEL_MAC1 ++ responderPub) none 32)) 16
  noMac ++ mac1 ++ List.replicate 16 0

/-! ## 2. The helpers -/

theorem blake2s_hash (data : List UInt8) : blake2s data none 32 = blake data := blake2s_eq data none le_rfl

theorem blake2s_mac (data key : List UInt8) : blake2s data (some key) 16 = mac key data :=
  blake2s_eq data (some key) (by decide)

theorem length_copyOf64 (k : List UInt8) : (Blake2s.copyOf64 k).length = 64 := by
  rw [Blake2s.copyOf64, List.length_take, List.length_append, List.length_replicate]
  omega

/-- HMAC is that of the protocol. -/
theorem hmacBlake2s_eq (key msg : List UInt8) : hmacBlake2s key msg = hmac key msg := by
  have hpad : ∀ (k : List UInt8) (x : UInt8), k.length = 64 →
      (List.range 64).map (fun i => k.getD i 0 ^^^ x) = k.map (· ^^^ x) := by
    intro k x hk
    rw [← hk]
    conv_rhs => rw [← map_getD_range k, List.map_map]
    rfl
  unfold hmacBlake2s hmac
  dsimp only
  have hkey : (if key.length ≤ 64 then key else blake2s key none 32)
      = if 64 < key.length then blake key else key := by
    rw [blake2s_hash]
    split <;> split <;> first | rfl | omega
  rw [hkey, hpad _ _ (length_copyOf64 _), hpad _ _ (length_copyOf64 _), blake2s_hash, blake2s_hash]
  rfl

theorem kdf_one (ck input : List UInt8) : (kdf 1 ck input).getD 0 [] = kdf1 ck input := by
  unfold kdf kdf1
  rw [← hmacBlake2s_eq, ← hmacBlake2s_eq]
  rfl

theorem kdf_two_first (ck input : List UInt8) : (kdf 2 ck input).getD 0 [] = (kdf2 ck input).1 := by
  unfold kdf kdf2
  simp only [← hmacBlake2s_eq]
  rfl

theorem kdf_two_second (ck input : List UInt8) : (kdf 2 ck input).getD 1 [] = (kdf2 ck input).2 := by
  unfold kdf kdf2
  simp only [← hmacBlake2s_eq]
  rfl

theorem length_tai64n (now now' : UInt64) : (tai64n now now').length = 12 := by
  simp [tai64n]

/-- Bytes of a `Long`, the most significant first. -/
theorem shifts_eq (v : UInt64) {n : Nat} (hn : n ≤ 8) :
    (List.range n).map (fun i => (v >>> UInt64.ofNat (8 * (n - 1) - 8 * i)).toUInt8) = (leBytes n v.toNat).reverse := by
  apply List.ext_getElem
  · rw [List.length_map, List.length_range, List.length_reverse, length_leBytes]
  · intro i hi hi'
    rw [List.length_map, List.length_range] at hi
    have hpow : (256 : Nat) ^ (n - 1 - i) = 2 ^ (8 * (n - 1) - 8 * i) := by
      have hexp : 8 * (n - 1) - 8 * i = 8 * (n - 1 - i) := by omega
      rw [hexp, pow_mul]
      rfl
    rw [List.getElem_map, List.getElem_range, List.getElem_reverse, getElem_leBytes, length_leBytes, hpow]
    apply UInt8.toNat_inj.1
    rw [UInt64.toNat_toUInt8, UInt64.toNat_shiftRight, UInt64.toNat_ofNat', UInt8.toNat_ofNat',
      Nat.shiftRight_eq_div_pow, Nat.mod_eq_of_lt (by omega : 8 * (n - 1) - 8 * i < 2 ^ 64),
      Nat.mod_eq_of_lt (by omega : 8 * (n - 1) - 8 * i < 64)]

/-- **The clock as a label of TAI64N.** -/
theorem tai64n_eq (now now' : UInt64) :
    tai64n now now' = taiLabel (now.toNat / 1000) (now'.toNat % 1000 * 1000000) := by
  have hnow := now.toNat_lt
  have hsecs : (now / 1000 + 0x400000000000000a).toNat = 2 ^ 62 + 10 + now.toNat / 1000 := by
    rw [UInt64.toNat_add, UInt64.toNat_div]
    show (now.toNat / 1000 + 0x400000000000000a) % 2 ^ 64 = _
    omega
  have hnanos : (now' % 1000 * 1000000).toNat = now'.toNat % 1000 * 1000000 := by
    rw [UInt64.toNat_mul, UInt64.toNat_mod]
    show now'.toNat % 1000 * 1000000 % 2 ^ 64 = _
    omega
  unfold tai64n taiLabel
  rw [← hsecs, ← hnanos]
  have height := shifts_eq (now / 1000 + 0x400000000000000a) (n := 8) (by decide)
  have hfour := shifts_eq (now' % 1000 * 1000000) (n := 4) (by decide)
  rw [← height, ← hfour]

theorem length_encrypt {key nonce : List UInt8} (hkey : key.length = 32) (hnonce : nonce.length = 12)
    (pt aad : List UInt8) : (chacha20poly1305Encrypt key nonce pt aad).length = pt.length + 16 := by
  rw [chacha20poly1305Encrypt_eq hkey hnonce, List.length_append, Rfc8439.ciphertext,
    Rfc8439.length_encrypt, List.length_reverse, Rfc8439.tag, Rfc8439.length_mac]

theorem length_kdf2 (ck input : List UInt8) : (kdf2 ck input).2.length = 32 := length_hmac _ _

theorem length_firstKeys (ephemeral secret : List UInt8) : (firstKeys ephemeral secret).2.length = 32 :=
  length_kdf2 _ _

/-! ## 3. The responder -/

/-- Two private keys agree on one secret. -/
def Agrees (eval : Agreement) (a b : List UInt8) : Prop := eval a (eval b base) = eval b (eval a base)

/-- It opens what `chacha20poly1305Encrypt` sealed. -/
def Opens (openSealed : Opening) : Prop :=
  ∀ key nonce pt aad : List UInt8, key.length = 32 → nonce.length = 12 →
    openSealed key nonce (chacha20poly1305Encrypt key nonce pt aad) aad = some pt

/-- **A responder accepts the message**, and learns who sent it and when. -/
theorem wireguard_accepted {eval : Agreement} {openSealed : Opening} (heval : ∀ k u, (eval k u).length = 32)
    (hopens : Opens openSealed) (keyPair responder : KeyPair eval) {ephPriv sender : List UInt8}
    (hsender : sender.length = 4) (heph : Agrees eval ephPriv responder.privateKey)
    (hstatic : Agrees eval keyPair.privateKey responder.privateKey) (now now' : UInt64) :
    (wireguard eval keyPair responder.publicKey ephPriv sender now now').length = 148 ∧
      mac1Verifies responder.publicKey (wireguard eval keyPair responder.publicKey ephPriv sender now now') = true ∧
      consume eval openSealed responder.privateKey responder.publicKey
        (wireguard eval keyPair responder.publicKey ephPriv sender now now')
        = some ⟨keyPair.publicKey, taiLabel (now.toNat / 1000) (now'.toNat % 1000 * 1000000)⟩ := by
  have hes : eval ephPriv responder.publicKey = eval responder.privateKey (eval ephPriv base) := by
    rw [responder.publicKey_eq, heph]
  have hss : eval keyPair.privateKey responder.publicKey = eval responder.privateKey keyPair.publicKey := by
    rw [responder.publicKey_eq, hstatic, keyPair.publicKey_eq]
  have hpublic : keyPair.publicKey.length = 32 := by rw [keyPair.publicKey_eq, heval]
  have hzeros : (List.replicate 12 (0 : UInt8)).length = 12 := List.length_replicate
  obtain ⟨e, he⟩ : ∃ e, e = eval ephPriv base := ⟨_, rfl⟩
  obtain ⟨sealedStatic, hsealed⟩ : ∃ x, x = chacha20poly1305Encrypt
      (firstKeys e (eval responder.privateKey e)).2 (List.replicate 12 0) keyPair.publicKey
      (transcript responder.publicKey e) := ⟨_, rfl⟩
  obtain ⟨sealedTimestamp, hsealed'⟩ : ∃ x, x = chacha20poly1305Encrypt
      (kdf2 (firstKeys e (eval responder.privateKey e)).1 (eval responder.privateKey keyPair.publicKey)).2
      (List.replicate 12 0) (tai64n now now') (blake (transcript responder.publicKey e ++ sealedStatic)) :=
    ⟨_, rfl⟩
  have hmessage : wireguard eval keyPair responder.publicKey ephPriv sender now now'
      = [1, 0, 0, 0] ++ sender ++ e ++ sealedStatic ++ sealedTimestamp
        ++ mac (blake (labelMac1 ++ responder.publicKey))
          ([1, 0, 0, 0] ++ sender ++ e ++ sealedStatic ++ sealedTimestamp)
        ++ List.replicate 16 0 := by
    unfold wireguard
    simp only [blake2s_hash, blake2s_mac, kdf_one, kdf_two_first, kdf_two_second, hes, hss, ← he]
    rw [hsealed', hsealed]
    rfl
  have hlayout : Layout [1, 0, 0, 0] sender e sealedStatic sealedTimestamp
      (mac (blake (labelMac1 ++ responder.publicKey))
        ([1, 0, 0, 0] ++ sender ++ e ++ sealedStatic ++ sealedTimestamp)) (List.replicate 16 0) :=
    { type := rfl
      sender := hsender
      ephemeral := by rw [he, heval]
      static := by rw [hsealed, length_encrypt (length_firstKeys _ _) hzeros, hpublic]
      timestamp := by rw [hsealed', length_encrypt (length_kdf2 _ _) hzeros, length_tai64n]
      mac1 := length_mac _ _
      mac2 := List.length_replicate }
  have hmac : mac1Verifies responder.publicKey (wireguard eval keyPair responder.publicKey ephPriv sender now now')
      = true := by
    have hauthenticated := hlayout.authenticated_eq (mac (blake (labelMac1 ++ responder.publicKey))
      ([1, 0, 0, 0] ++ sender ++ e ++ sealedStatic ++ sealedTimestamp) ++ List.replicate 16 0)
    rw [← List.append_assoc] at hauthenticated
    unfold mac1Verifies
    rw [hmessage, decide_eq_true_eq, hauthenticated, hlayout.mac1_eq]
  refine ⟨?_, hmac, ?_⟩
  · rw [hmessage]
    exact hlayout.length_eq
  · rw [hmessage] at hmac ⊢
    refine consume_of_layout hlayout hmac ?_ ?_
    · rw [hsealed]
      exact hopens _ _ _ _ (length_firstKeys _ _) hzeros
    · rw [hsealed', tai64n_eq]
      exact hopens _ _ _ _ (length_kdf2 _ _) hzeros

/-! ## 4. The curve -/

namespace Curve25519

/-- `2^255 - 19`. -/
def prime : Nat := 2 ^ 255 - 19

/-- The registers of the ladder. -/
structure Ladder where
  x2 : Nat
  z2 : Nat
  x3 : Nat
  z3 : Nat

def sub (x y : Nat) : Nat := (x + (prime - y)) % prime

/-- One step of `evalCurve`. -/
def step (x1 : Nat) (s : Ladder) : Ladder :=
  let a := s.x2 + s.z2
  let aa := a * a % prime
  let b := sub s.x2 s.z2
  let bb := b * b % prime
  let e := sub aa bb
  let da := sub s.x3 s.z3 * a % prime
  let cb := (s.x3 + s.z3) * b % prime
  ⟨aa * bb % prime, e * (aa + 121665 * e) % prime, (da + cb) * (da + cb) % prime,
    x1 * (sub da cb * sub da cb % prime) % prime⟩

def cswap (s : Ladder) : Ladder := ⟨s.x3, s.z3, s.x2, s.z2⟩

/-- `evalCurve` over the `n` lowest bits of `k`, the highest first. -/
def evalCurve (x1 k : Nat) : Nat → Ladder
  | 0 => ⟨1, 0, x1, 1⟩
  | n + 1 =>
    let s := evalCurve x1 (k / 2) n
    if k % 2 = 1 then cswap (step x1 (cswap s)) else step x1 s

/-- A power, over the `n` lowest bits of the exponent. -/
def pow (x : Nat) : Nat → Nat → Nat
  | 0, _ => 1
  | n + 1, k =>
    let y := pow x n (k / 2)
    if k % 2 = 1 then y * y % prime * x % prime else y * y % prime

def recip (x : Nat) : Nat := pow x 255 (prime - 2)

/-- The lowest three bits of the private key are clear, and bit 254 is set. -/
def clamp (privateKey : List UInt8) : Nat := le privateKey % 2 ^ 254 / 8 * 8 + 2 ^ 254

/-- `Curve25519.eval`, with a number for the limbs. -/
def eval (privateKey publicKey : List UInt8) : List UInt8 :=
  let s := evalCurve (le publicKey % prime) (clamp privateKey) 255
  leBytes 32 (s.x2 * recip s.z2 % prime)

theorem length_eval (privateKey publicKey : List UInt8) : (eval privateKey publicKey).length = 32 :=
  length_leBytes _ _

end Curve25519

/-- Opens what `chacha20poly1305Encrypt` sealed: decrypts, and seals once more to compare. -/
def openSealed (key nonce ct aad : List UInt8) : Option (List UInt8) :=
  let pt := Rfc8439.encrypt key 1 nonce (ct.take (ct.length - 16))
  if chacha20poly1305Encrypt key nonce pt aad = ct then some pt else none

theorem opens_openSealed : Opens openSealed := by
  intro key nonce pt aad hkey hnonce
  have hlength := length_encrypt hkey hnonce pt aad
  have hpt : Rfc8439.encrypt key 1 nonce ((chacha20poly1305Encrypt key nonce pt aad).take pt.length) = pt := by
    have hct : (Rfc8439.ciphertext key nonce pt).length = pt.length := Rfc8439.length_encrypt _ _ _ _
    rw [chacha20poly1305Encrypt_eq hkey hnonce, List.take_left' hct, Rfc8439.ciphertext,
      Rfc8439.encrypt_involutive]
  unfold openSealed
  rw [hlength, Nat.add_sub_cancel, hpt]
  simp

/-- The responder of the example, and who calls it. -/
def home : KeyPair Curve25519.eval := ⟨List.replicate 32 1, _, rfl⟩

def phone : KeyPair Curve25519.eval := ⟨List.replicate 32 2, _, rfl⟩

theorem wireguard_accepted_home :
    Opens openSealed ∧ Agrees Curve25519.eval (List.replicate 32 3) home.privateKey ∧
      (wireguard Curve25519.eval phone home.publicKey (List.replicate 32 3) [7, 0, 0, 0] 1700000000123
        1700000000124).length = 148 ∧
      mac1Verifies home.publicKey (wireguard Curve25519.eval phone home.publicKey (List.replicate 32 3)
        [7, 0, 0, 0] 1700000000123 1700000000124) = true ∧
      consume Curve25519.eval openSealed home.privateKey home.publicKey
        (wireguard Curve25519.eval phone home.publicKey (List.replicate 32 3) [7, 0, 0, 0] 1700000000123
          1700000000124) = some ⟨phone.publicKey, taiLabel 1700000000 124000000⟩ :=
  have heph : Agrees Curve25519.eval (List.replicate 32 3) home.privateKey := by
    unfold Agrees
    decide +kernel
  ⟨opens_openSealed, heph,
    wireguard_accepted Curve25519.length_eval opens_openSealed phone home rfl heph
      (by unfold Agrees; decide +kernel) 1700000000123 1700000000124⟩

end SwiftVpn.DelayProbe
