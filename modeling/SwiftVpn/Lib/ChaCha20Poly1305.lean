/-
  File:      SwiftVpn/Lib/ChaCha20Poly1305.lean
  Subject:   RFC 8439: CHACHA20, POLY1305 AND THE AEAD MADE OF THEM.

  * `quarterRound`, `innerBlock`, `block`, `encrypt` -- the cipher, sections 2.1 to 2.4;
  * `clamp`, `accumulate`, `mac` -- the authenticator, section 2.5, on numbers;
  * `macData`, `aead` -- section 2.8: the ciphertext, and the tag behind it;
  * `getElem?_encrypt` -- a byte of the ciphertext;
  * `encrypt_involutive` -- the key stream is its own inverse, so `encrypt` also decrypts.

  A word is a `UInt32`, a number of the authenticator a `Nat`. Bytes are cut and joined with `Lib/Bytes`.
-/
import SwiftVpn.Lib.Bytes

namespace Rfc8439

open Bytes

/-! ## ChaCha20 -/

/-- An n-bit left rotation. -/
def rotateLeft (x : UInt32) (n : Nat) : UInt32 := ⟨x.toBitVec.rotateLeft n⟩

/-- Section 2.1. -/
def quarterRound (a b c d : UInt32) : UInt32 × UInt32 × UInt32 × UInt32 :=
  let a := a + b
  let d := rotateLeft (d ^^^ a) 16
  let c := c + d
  let b := rotateLeft (b ^^^ c) 12
  let a := a + b
  let d := rotateLeft (d ^^^ a) 8
  let c := c + d
  let b := rotateLeft (b ^^^ c) 7
  (a, b, c, d)

/-- The words of the state. -/
abbrev State := Vector UInt32 16

/-- Section 2.2: a quarter round on four words of the state. -/
def onState (s : State) (x y z w : Fin 16) : State :=
  let (a, b, c, d) := quarterRound (s.get x) (s.get y) (s.get z) (s.get w)
  store (store (store (store s x a) y b) z c) w d

/-- Four column rounds and four diagonal rounds. -/
def innerBlock (s : State) : State :=
  let s := onState s 0 4 8 12
  let s := onState s 1 5 9 13
  let s := onState s 2 6 10 14
  let s := onState s 3 7 11 15
  let s := onState s 0 5 10 15
  let s := onState s 1 6 11 12
  let s := onState s 2 7 8 13
  onState s 3 4 9 14

/-- Section 2.3: constants, key, counter and nonce. -/
def initial (key : List UInt8) (counter : UInt32) (nonce : List UInt8) : State :=
  #v[0x61707865, 0x3320646e, 0x79622d32, 0x6b206574, word key 0, word key 4, word key 8, word key 12,
    word key 16, word key 20, word key 24, word key 28, counter, word nonce 0, word nonce 4, word nonce 8]

/-- A block of the key stream. -/
def block (key : List UInt8) (counter : UInt32) (nonce : List UInt8) : List UInt8 :=
  let state := initial key counter nonce
  (List.finRange 16).flatMap fun i => wordBytes ((innerBlock^[10] state).get i + state.get i)

/-- Section 2.4: every block of the plaintext is added to one of the key stream. -/
def encrypt (key : List UInt8) (counter : UInt32) (nonce plaintext : List UInt8) : List UInt8 :=
  (List.range ((plaintext.length + 63) / 64)).flatMap fun j =>
    List.zipWith (· ^^^ ·) ((plaintext.drop (64 * j)).take 64) (block key (counter + UInt32.ofNat j) nonce)

theorem length_block (key : List UInt8) (counter : UInt32) (nonce : List UInt8) :
    (block key counter nonce).length = 64 := by
  unfold block
  rw [List.length_flatMap]
  simp [List.length_finRange]

section Blocks

variable {α : Type} (f : α → α → α) {k : Nat} {g : Nat → List α}

theorem length_flatMap_range (hg : ∀ j, (g j).length = k) (m : Nat) :
    ((List.range m).flatMap g).length = k * m := by
  induction m with
  | zero => rfl
  | succ m ih =>
    rw [List.range_succ, List.flatMap_append, List.length_append, ih, List.flatMap_singleton, hg, Nat.mul_succ]

/-- One element of blocks that stand one after the other. -/
theorem getElem?_flatMap_range (hg : ∀ j, (g j).length = k) {m i : Nat} (hi : i < k * m) :
    ((List.range m).flatMap g)[i]? = (g (i / k))[i % k]? := by
  induction m with
  | zero => exact absurd hi (by rw [Nat.mul_zero]; exact Nat.not_lt_zero i)
  | succ m ih =>
    have hlen := length_flatMap_range hg m
    rw [List.range_succ, List.flatMap_append, List.flatMap_singleton]
    rcases Nat.lt_or_ge i (k * m) with hlt | hge
    · rw [List.getElem?_append_left (by rw [hlen]; exact hlt), ih hlt]
    · have hdiv : i / k = m := Nat.div_eq_of_lt_le (by rwa [Nat.mul_comm]) (by rwa [Nat.mul_comm])
      have hmod : i - k * m = i % k := by rw [Nat.mod_def, hdiv]
      rw [List.getElem?_append_right (by rw [hlen]; exact hge), hlen, hmod, hdiv]

theorem zipWith_append_right {xs ys : List α} (h : xs.length ≤ ys.length) (zs : List α) :
    List.zipWith f xs (ys ++ zs) = List.zipWith f xs ys := by
  have htake : (List.zipWith f xs (ys ++ zs)).take xs.length = List.zipWith f xs (ys ++ zs) :=
    List.take_of_length_le (by rw [List.length_zipWith]; omega)
  have htake' : (List.zipWith f xs ys).take xs.length = List.zipWith f xs ys :=
    List.take_of_length_le (by rw [List.length_zipWith]; omega)
  rw [← htake, ← htake', List.take_zipWith, List.take_zipWith, List.take_append_of_le_length h]

/-- Blocks of a list, each zipped with one of as many. -/
theorem flatMap_zipWith_blocks (hg : ∀ j, (g j).length = k) (xs : List α) (m : Nat) :
    ((List.range m).flatMap fun j => List.zipWith f ((xs.drop (k * j)).take k) (g j))
      = List.zipWith f (xs.take (k * m)) ((List.range m).flatMap g) := by
  induction m with
  | zero => rw [Nat.mul_zero, List.take_zero]; rfl
  | succ m ih =>
    have hlen := length_flatMap_range hg m
    have hstep : k * (m + 1) = k * m + k := Nat.mul_succ k m
    rw [List.range_succ, List.flatMap_append, List.flatMap_append, ih, List.flatMap_singleton,
      List.flatMap_singleton, hstep, List.take_add]
    rcases Nat.le_total (k * m) xs.length with hle | hge
    · have hfull : (xs.take (k * m)).length = ((List.range m).flatMap g).length := by
        rw [List.length_take, hlen, Nat.min_eq_left hle]
      rw [List.zipWith_append hfull]
    · rw [List.drop_eq_nil_of_le hge, List.take_nil, List.zipWith_nil_left, List.append_nil, List.append_nil,
        zipWith_append_right f (by rw [List.length_take]; omega)]

end Blocks

/-- The key stream for a text. -/
def keyStream (key : List UInt8) (counter : UInt32) (nonce : List UInt8) (length : Nat) : List UInt8 :=
  (List.range ((length + 63) / 64)).flatMap fun j => block key (counter + UInt32.ofNat j) nonce

/-- **The cipher adds the key stream.** -/
theorem encrypt_eq (key : List UInt8) (counter : UInt32) (nonce plaintext : List UInt8) :
    encrypt key counter nonce plaintext
      = List.zipWith (· ^^^ ·) plaintext (keyStream key counter nonce plaintext.length) := by
  have hall : plaintext.take (64 * ((plaintext.length + 63) / 64)) = plaintext :=
    List.take_of_length_le (by omega)
  have hblocks := flatMap_zipWith_blocks (· ^^^ ·)
    (fun j => length_block key (counter + UInt32.ofNat j) nonce) plaintext ((plaintext.length + 63) / 64)
  rw [hall] at hblocks
  exact hblocks

theorem length_keyStream (key : List UInt8) (counter : UInt32) (nonce : List UInt8) (n : Nat) :
    (keyStream key counter nonce n).length = 64 * ((n + 63) / 64) :=
  length_flatMap_range (fun j => length_block key (counter + UInt32.ofNat j) nonce) _

@[simp] theorem length_encrypt (key : List UInt8) (counter : UInt32) (nonce plaintext : List UInt8) :
    (encrypt key counter nonce plaintext).length = plaintext.length := by
  rw [encrypt_eq, List.length_zipWith, length_keyStream]
  omega

/-- **One byte of the result**: the byte of the text, and one of the block for its place. -/
theorem getElem?_encrypt (key : List UInt8) (counter : UInt32) (nonce plaintext : List UInt8) {i : Nat}
    (hi : i < plaintext.length) :
    (encrypt key counter nonce plaintext)[i]?
      = some (plaintext[i] ^^^
          (block key (counter + UInt32.ofNat (i / 64)) nonce).getD (i % 64) 0) := by
  have hstream : (keyStream key counter nonce plaintext.length)[i]?
      = (block key (counter + UInt32.ofNat (i / 64)) nonce)[i % 64]? :=
    getElem?_flatMap_range
      (fun j => length_block key (counter + UInt32.ofNat j) nonce) (by omega)
  have hlt : i % 64 < (block key (counter + UInt32.ofNat (i / 64)) nonce).length := by
    rw [length_block]
    exact Nat.mod_lt i (by decide)
  rw [encrypt_eq, List.getElem?_zipWith, hstream, List.getElem?_eq_getElem hi,
    List.getElem?_eq_getElem hlt, List.getD_eq_getElem?_getD, List.getElem?_eq_getElem hlt]
  rfl

theorem zipWith_xor_twice (xs ks : List UInt8) (h : xs.length ≤ ks.length) :
    List.zipWith (· ^^^ ·) (List.zipWith (· ^^^ ·) xs ks) ks = xs := by
  apply List.ext_getElem
  · rw [List.length_zipWith, List.length_zipWith]
    omega
  · intro i hi hi'
    rw [List.getElem_zipWith, List.getElem_zipWith, UInt8.xor_assoc, UInt8.xor_self, UInt8.xor_zero]

/-- **The cipher is its own inverse.** -/
theorem encrypt_involutive (key : List UInt8) (counter : UInt32) (nonce plaintext : List UInt8) :
    encrypt key counter nonce (encrypt key counter nonce plaintext) = plaintext := by
  rw [encrypt_eq key counter nonce (encrypt key counter nonce plaintext), length_encrypt, encrypt_eq,
    zipWith_xor_twice _ _ (by rw [length_keyStream]; omega)]

/-! ## Poly1305 -/

/-- Section 2.5: bits of `r` that are cleared. -/
def clamp (r : Nat) : Nat := r &&& 0x0ffffffc0ffffffc0ffffffc0fffffff

/-- The prime 2^130 - 5. -/
def prime : Nat := 2 ^ 130 - 5

/-- Every block of the message, with one bit more behind it. -/
def accumulate (r : Nat) (msg : List UInt8) : Nat :=
  (List.range ((msg.length + 15) / 16)).foldl
    (fun acc i => r * (acc + le ((msg.drop (16 * i)).take 16 ++ [1])) % prime) 0

/-- The number whose last sixteen bytes are the tag. -/
def macNumber (msg key : List UInt8) : Nat :=
  accumulate (clamp (le (key.take 16))) msg + le ((key.drop 16).take 16)

/-- The tag. -/
def mac (msg key : List UInt8) : List UInt8 := leBytes 16 (macNumber msg key)

@[simp] theorem length_mac (msg key : List UInt8) : (mac msg key).length = 16 := length_leBytes 16 _

/-! ## AEAD -/

/-- Zeros up to a multiple of sixteen bytes. -/
def pad16 (xs : List UInt8) : List UInt8 := List.replicate ((16 - xs.length % 16) % 16) 0

/-- Section 2.6: the key of the authenticator. -/
def macKey (key nonce : List UInt8) : List UInt8 := (block key 0 nonce).take 32

def ciphertext (key nonce plaintext : List UInt8) : List UInt8 := encrypt key 1 nonce plaintext

/-- What the tag authenticates. -/
def macData (aad ciphertext : List UInt8) : List UInt8 :=
  aad ++ pad16 aad ++ ciphertext ++ pad16 ciphertext ++ leBytes 8 aad.length ++ leBytes 8 ciphertext.length

/-- The tag of a plaintext and its associated data. -/
def tag (key nonce plaintext aad : List UInt8) : List UInt8 :=
  mac (macData aad (ciphertext key nonce plaintext)) (macKey key nonce)

/-- `AEAD_CHACHA20_POLY1305`. -/
def aead (key nonce plaintext aad : List UInt8) : List UInt8 :=
  ciphertext key nonce plaintext ++ tag key nonce plaintext aad

end Rfc8439
