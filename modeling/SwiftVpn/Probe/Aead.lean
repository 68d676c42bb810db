/-
  File:      SwiftVpn/Probe/Aead.lean
  Subject:   THE AEAD OF THE PROBES: chacha20poly1305Encrypt OF DelayProbe.kt, AGAINST RFC 8439.

  * `quarterRound`, `chachaBlock`, `chacha20Xor`, `poly1305`, `chacha20poly1305Encrypt` -- the code, an
    `Int` as the `UInt32` of the same bits and a `BigInteger` as an `Int`;
  * `chachaBlock_eq`, `chacha20Xor_eq` -- the cipher is that of the RFC; `chacha20Xor_stream` -- byte by
    byte, with the buffers that the loop uses again (`xorLoop`);
  * `poly1305_eq` -- so is the number of the authenticator, but its bytes are written the other way round;
  * `chacha20poly1305Encrypt_iff` -- so the result is that of the RFC exactly where the tag is the same
    from both ends.
-/
import Mathlib.Data.List.GetD
import Mathlib.Data.List.OfFn
import SwiftVpn.Lib.ChaCha20Poly1305

namespace SwiftVpn.DelayProbe

open Bytes

/-! ## 1. ChaCha20 -/

def rotl (x n : UInt32) : UInt32 := (x <<< n) ||| (x >>> (32 - n))

/-- `quarterRound`, on the words `a`, `b`, `c` and `d` of an array. -/
def quarterRound (s : Vector UInt32 16) (a b c d : Fin 16) : Vector UInt32 16 :=
  let s := store s a (s.get a + s.get b)
  let s := store s d (rotl (s.get d ^^^ s.get a) 16)
  let s := store s c (s.get c + s.get d)
  let s := store s b (rotl (s.get b ^^^ s.get c) 12)
  let s := store s a (s.get a + s.get b)
  let s := store s d (rotl (s.get d ^^^ s.get a) 8)
  let s := store s c (s.get c + s.get d)
  store s b (rotl (s.get b ^^^ s.get c) 7)

def leInt (b : List UInt8) (off : Nat) : UInt32 :=
  (b.getD off 0).toUInt32 ||| ((b.getD (off + 1) 0).toUInt32 <<< 8) |||
    ((b.getD (off + 2) 0).toUInt32 <<< 16) ||| ((b.getD (off + 3) 0).toUInt32 <<< 24)

def chachaState (key : List UInt8) (counter : UInt32) (nonce : List UInt8) : Vector UInt32 16 :=
  #v[(0x61707865 : UInt32), 0x3320646e, 0x79622d32, 0x6b206574] ++ Vector.ofFn (fun i : Fin 8 => leInt key (i * 4)) ++
    #v[counter] ++ Vector.ofFn (fun i : Fin 3 => leInt nonce (i * 4))

/-- What `chachaBlock` repeats. -/
def doubleRound (w : Vector UInt32 16) : Vector UInt32 16 :=
  let w := quarterRound w 0 4 8 12
  let w := quarterRound w 1 5 9 13
  let w := quarterRound w 2 6 10 14
  let w := quarterRound w 3 7 11 15
  let w := quarterRound w 0 5 10 15
  let w := quarterRound w 1 6 11 12
  let w := quarterRound w 2 7 8 13
  quarterRound w 3 4 9 14

def chachaBlock (state : Vector UInt32 16) (out : List UInt8) (off : Nat) : List UInt8 :=
  let w := doubleRound^[10] state
  (List.finRange 16).foldl (fun out (i : Fin 16) =>
    let x := w.get i + state.get i
    write out (off + i * 4) [x.toUInt8, (x >>> 8).toUInt8, (x >>> 16).toUInt8, (x >>> 24).toUInt8]) out

def chacha20Xor (key : List UInt8) (counter : UInt32) (nonce data : List UInt8) : List UInt8 :=
  let s := chachaState key counter nonce
  (offsets 64 data.length).foldl (fun out (i : Nat) =>
    let block := chachaBlock (store s 12 (counter + UInt32.ofNat (i / 64))) (List.replicate 64 0) 0
    let n := min 64 (data.length - i)
    write out i ((List.range n).map fun j => data.getD (i + j) 0 ^^^ block.getD j 0))
    (List.replicate data.length 0)

/-- What the loop of `chacha20Xor` keeps from one turn to the next. -/
structure XorLoop where
  s : Vector UInt32 16
  block : List UInt8
  out : List UInt8

/-- One turn of the loop, in the state and the block of the turn before. -/
def xorTurn (counter : UInt32) (data : List UInt8) (l : XorLoop) (i : Nat) : XorLoop :=
  let s := store l.s 12 (counter + UInt32.ofNat (i / 64))
  let block := chachaBlock s l.block 0
  let n := min 64 (data.length - i)
  ⟨s, block, write l.out i ((List.range n).map fun j => data.getD (i + j) 0 ^^^ block.getD j 0)⟩

/-- The loop of `chacha20Xor` with the buffers that it uses again; no array is so long that its last
    offset has not 32 bits. -/
def xorLoop (key : List UInt8) (counter : UInt32) (nonce data : List UInt8) : XorLoop :=
  (offsets 64 data.length).foldl (xorTurn counter data)
    ⟨chachaState key counter nonce, List.replicate 64 0, List.replicate data.length 0⟩

/-! ## 2. Poly1305 -/

/-- `BigInteger(bytes)`: two's complement, the most significant byte first. -/
def bigInteger (be : List UInt8) : Int :=
  if be.head?.any (128 ≤ ·) then le be.reverse - (256 ^ be.length : Nat) else le be.reverse

/-- `BigInteger.bitLength`. -/
def bitLength (n : Int) : Nat :=
  let m := if 0 ≤ n then n.toNat else (-n - 1).toNat
  if m = 0 then 0 else m.log2 + 1

/-- `BigInteger.toByteArray`: as few bytes as two's complement needs. -/
def toByteArray (n : Int) : List UInt8 :=
  let length := bitLength n / 8 + 1
  (leBytes length (n % (256 ^ length : Nat)).toNat).reverse

def leBig (bytes : List UInt8) : Int :=
  let be := List.replicate (bytes.length + 1) 0
  bigInteger ((List.range bytes.length).foldl
    (fun out i => out.set (be.length - 2 - i + 1) (bytes.getD i 0)) be)

/-- What `poly1305` does to the bytes of `r`, one after the other. -/
def clearBits (rb : List UInt8) : List UInt8 :=
  [(3, 15), (7, 15), (11, 15), (15, 15), (4, 252), (8, 252), (12, 252)].foldl
    (fun rb (i, mask) => rb.set i (rb.getD i 0 &&& mask)) rb

def poly1305 (msg key : List UInt8) : List UInt8 :=
  let p : Int := 2 ^ 130 - 5
  let rb := clearBits (key.take 16)
  let r := leBig rb
  let s := leBig ((key.drop 16).take 16)
  let acc := (offsets 16 msg.length).foldl (fun acc (i : Nat) =>
    let n := min 16 (msg.length - i)
    let block := write (List.replicate (n + 1) 0) 0 ((msg.drop i).take n)
    (acc + leBig (block.set n 1)) * r % p) 0
  let tag := toByteArray ((acc + s) % 2 ^ 128)
  (List.range tag.length).foldl (fun out (j : Nat) =>
    let idx : Int := 15 - j
    if 0 ≤ idx then out.set idx.toNat (tag.getD (tag.length - 1 - j) 0) else out) (List.replicate 16 0)

/-! ## 3. AEAD -/

def pad16 (len : Nat) : List UInt8 := if len % 16 = 0 then [] else List.replicate (16 - len % 16) 0

def le64 (v : UInt64) : List UInt8 := (List.range 8).map fun i => (v >>> UInt64.ofNat (8 * i)).toUInt8

def chacha20poly1305Encrypt (key nonce pt aad : List UInt8) : List UInt8 :=
  let block0 := chachaBlock (chachaState key 0 nonce) (List.replicate 64 0) 0
  let polyKey := block0.take 32
  let ct := chacha20Xor key 1 nonce pt
  let macData := aad ++ pad16 aad.length ++ ct ++ pad16 ct.length ++ le64 (UInt64.ofNat aad.length) ++
    le64 (UInt64.ofNat ct.length)
  ct ++ poly1305 macData polyKey

/-! ## 4. The cipher -/

theorem rotl_sixteen (x : UInt32) : rotl x 16 = Rfc8439.rotateLeft x 16 := rfl

theorem rotl_twelve (x : UInt32) : rotl x 12 = Rfc8439.rotateLeft x 12 := rfl

theorem rotl_eight (x : UInt32) : rotl x 8 = Rfc8439.rotateLeft x 8 := rfl

theorem rotl_seven (x : UInt32) : rotl x 7 = Rfc8439.rotateLeft x 7 := rfl

section Words

variable (s : Vector UInt32 16) (a b c d : Fin 16)

/-- Four words of an array, written. -/
def put (x y z w : UInt32) : Vector UInt32 16 := store (store (store (store s a x) b y) c z) d w

/-- Half a line of a quarter round. -/
def addRotate (n : UInt32) : Vector UInt32 16 :=
  let s := store s a (s.get a + s.get b)
  store s d (rotl (s.get d ^^^ s.get a) n)

theorem quarterRound_eq_addRotate : quarterRound s a b c d
    = addRotate (addRotate (addRotate (addRotate s a b d 16) c d b 12) a b d 8) c d b 7 := rfl

variable {a b c d}

/-- The four words are different ones. -/
structure Distinct (a b c d : Fin 16) : Prop where
  ab : a.val ≠ b.val
  ac : a.val ≠ c.val
  ad : a.val ≠ d.val
  bc : b.val ≠ c.val
  bd : b.val ≠ d.val
  cd : c.val ≠ d.val

instance : Decidable (Distinct a b c d) :=
  decidable_of_iff (_ ∧ _ ∧ _ ∧ _ ∧ _ ∧ _) ⟨fun ⟨h1, h2, h3, h4, h5, h6⟩ => ⟨h1, h2, h3, h4, h5, h6⟩,
    fun h => ⟨h.ab, h.ac, h.ad, h.bc, h.bd, h.cd⟩⟩

theorem put_self : put s a b c d (s.get a) (s.get b) (s.get c) (s.get d) = s := by
  unfold put
  rw [store_get, store_get, store_get, store_get]

section Put

variable {s} (h : Distinct a b c d) (x y z w : UInt32)

include h

theorem put_a : (put s a b c d x y z w).get a = x := by
  unfold put
  rw [get_store_of_ne _ h.ad.symm, get_store_of_ne _ h.ac.symm, get_store_of_ne _ h.ab.symm, get_store_self]

theorem put_b : (put s a b c d x y z w).get b = y := by
  unfold put
  rw [get_store_of_ne _ h.bd.symm, get_store_of_ne _ h.bc.symm, get_store_self]

theorem put_c : (put s a b c d x y z w).get c = z := by
  unfold put
  rw [get_store_of_ne _ h.cd.symm, get_store_self]

omit h in
theorem put_d : (put s a b c d x y z w).get d = w := get_store_self _ d w

theorem put_store_a (v : UInt32) : store (put s a b c d x y z w) a v = put s a b c d v y z w := by
  unfold put
  rw [store_comm _ h.ad.symm, store_comm _ h.ac.symm, store_comm _ h.ab.symm, store_store]

theorem put_store_b (v : UInt32) : store (put s a b c d x y z w) b v = put s a b c d x v z w := by
  unfold put
  rw [store_comm _ h.bd.symm, store_comm _ h.bc.symm, store_store]

theorem put_store_c (v : UInt32) : store (put s a b c d x y z w) c v = put s a b c d x y v w := by
  unfold put
  rw [store_comm _ h.cd.symm, store_store]

omit h in
theorem put_store_d (v : UInt32) : store (put s a b c d x y z w) d v = put s a b c d x y z v :=
  store_store _ d w v

theorem addRotate_put_abd (n : UInt32) : addRotate (put s a b c d x y z w) a b d n
    = put s a b c d (x + y) y z (rotl (w ^^^ (x + y)) n) := by
  unfold addRotate
  dsimp only
  rw [put_a h, put_b h, put_store_a h, put_a h, put_d, put_store_d]

theorem addRotate_put_cdb (n : UInt32) : addRotate (put s a b c d x y z w) c d b n
    = put s a b c d x (rotl (y ^^^ (z + w)) n) (z + w) w := by
  unfold addRotate
  dsimp only
  rw [put_c h, put_d, put_store_c h, put_b h, put_c h, put_store_b h]

end Put

/-- **A quarter round on four different words.** -/
theorem quarterRound_eq (h : Distinct a b c d) : quarterRound s a b c d = Rfc8439.onState s a b c d := by
  have hput : ∀ x y z w, quarterRound (put s a b c d x y z w) a b c d
      = put s a b c d (Rfc8439.quarterRound x y z w).1 (Rfc8439.quarterRound x y z w).2.1
        (Rfc8439.quarterRound x y z w).2.2.1 (Rfc8439.quarterRound x y z w).2.2.2 := by
    intro x y z w
    rw [quarterRound_eq_addRotate, addRotate_put_abd h, addRotate_put_cdb h, addRotate_put_abd h,
      addRotate_put_cdb h, rotl_sixteen, rotl_twelve, rotl_eight, rotl_seven]
    rfl
  calc quarterRound s a b c d
    _ = quarterRound (put s a b c d (s.get a) (s.get b) (s.get c) (s.get d)) a b c d := by rw [put_self]
    _ = Rfc8439.onState s a b c d := hput (s.get a) (s.get b) (s.get c) (s.get d)

end Words

theorem doubleRound_eq (w : Vector UInt32 16) : doubleRound w = Rfc8439.innerBlock w := by
  unfold doubleRound Rfc8439.innerBlock
  dsimp only
  rw [quarterRound_eq _ (by decide), quarterRound_eq _ (by decide), quarterRound_eq _ (by decide),
    quarterRound_eq _ (by decide), quarterRound_eq _ (by decide), quarterRound_eq _ (by decide),
    quarterRound_eq _ (by decide), quarterRound_eq _ (by decide)]

theorem leInt_eq {b : List UInt8} {off : Nat} (h : off + 4 ≤ b.length) : leInt b off = word b off := by
  have hget : ∀ i, i < b.length → ∃ x, b.getD i 0 = x ∧ b.drop i = x :: b.drop (i + 1) := fun i hi =>
    ⟨b[i], (List.getElem_eq_getD 0).symm, List.drop_eq_getElem_cons hi⟩
  obtain ⟨x, hx, hx'⟩ := hget off (by omega)
  obtain ⟨y, hy, hy'⟩ := hget (off + 1) (by omega)
  obtain ⟨z, hz, hz'⟩ := hget (off + 2) (by omega)
  obtain ⟨w, hw, hw'⟩ := hget (off + 3) (by omega)
  have htake : (b.drop off).take 4 = [x, y, z, w] := by
    rw [hx', hy', hz', hw']
    rfl
  rw [word, htake, word_eq, leInt, hx, hy, hz, hw]

/-- The words of the state, wherever they come from. -/
theorem words_eq (k : Fin 8 → UInt32) (counter : UInt32) (n : Fin 3 → UInt32) :
    #v[(0x61707865 : UInt32), 0x3320646e, 0x79622d32, 0x6b206574] ++ Vector.ofFn k ++ #v[counter] ++ Vector.ofFn n
      = #v[0x61707865, 0x3320646e, 0x79622d32, 0x6b206574, k 0, k 1, k 2, k 3, k 4, k 5, k 6, k 7, counter,
        n 0, n 1, n 2] := by
  apply Vector.toList_inj.1
  rw [Vector.toList_append, Vector.toList_append, Vector.toList_append, Vector.toList_ofFn,
    Vector.toList_ofFn]
  simp [List.ofFn_succ]

theorem chachaState_eq {key nonce : List UInt8} (hkey : key.length = 32) (hnonce : nonce.length = 12)
    (counter : UInt32) : chachaState key counter nonce = Rfc8439.initial key counter nonce := by
  have hk : ∀ i : Fin 8, leInt key (i * 4) = word key (i * 4) := fun i => leInt_eq (by omega)
  have hn : ∀ i : Fin 3, leInt nonce (i * 4) = word nonce (i * 4) := fun i => leInt_eq (by omega)
  unfold chachaState
  rw [funext hk, funext hn, words_eq]
  rfl

/-- **A block that is written into a buffer.** -/
theorem chachaBlock_eq (key : List UInt8) (counter : UInt32) (nonce : List UInt8) {out : List UInt8}
    (h : out.length = 64) :
    chachaBlock (Rfc8439.initial key counter nonce) out 0 = Rfc8439.block key counter nonce := by
  unfold chachaBlock Rfc8439.block
  dsimp only
  rw [funext doubleRound_eq]
  have hfill := foldl_write_finRange (by decide) (f := fun i : Fin 16 => wordBytes
    ((Rfc8439.innerBlock^[10] (Rfc8439.initial key counter nonce)).get i +
      (Rfc8439.initial key counter nonce).get i))
    (fun i => length_wordBytes _) h
  rw [← hfill]
  simp only [wordBytes_eq, Nat.zero_add, Nat.mul_comm 4]

/-- The counter is all that the blocks differ in. -/
theorem initial_store (key : List UInt8) (counter counter' : UInt32) (nonce : List UInt8) :
    store (Rfc8439.initial key counter nonce) 12 counter' = Rfc8439.initial key counter' nonce := rfl

/-- **The cipher is that of the RFC.** -/
theorem chacha20Xor_eq {key nonce : List UInt8} (hkey : key.length = 32) (hnonce : nonce.length = 12)
    (counter : UInt32) (data : List UInt8) :
    chacha20Xor key counter nonce data = Rfc8439.encrypt key counter nonce data := by
  have hblock : ∀ i, i < data.length → ((List.range (min 64 (data.length - i))).map fun j =>
      data.getD (i + j) 0 ^^^ (Rfc8439.block key (counter + UInt32.ofNat (i / 64)) nonce).getD j 0)
      = List.zipWith (· ^^^ ·) ((data.drop i).take 64)
        (Rfc8439.block key (counter + UInt32.ofNat (i / 64)) nonce) := by
    intro i hi
    have hlen := Rfc8439.length_block key (counter + UInt32.ofNat (i / 64)) nonce
    apply List.ext_getElem
    · simp [hlen]
    · intro j hj hj'
      rw [List.length_map, List.length_range] at hj
      rw [List.getElem_map, List.getElem_range, List.getElem_zipWith, List.getElem_take, List.getElem_drop,
        List.getD_eq_getElem _ _ (by omega), List.getD_eq_getElem _ _ (by omega)]
  have hlen : (List.replicate data.length (0 : UInt8)).length = data.length := List.length_replicate
  have hzeros : (List.replicate 64 (0 : UInt8)).length = 64 := List.length_replicate
  have hfill := foldl_write_offsets (k := 64) (by decide) (List.replicate data.length (0 : UInt8))
    (f := fun i => (List.range (min 64 (data.length - i))).map fun j =>
      data.getD (i + j) 0 ^^^ (Rfc8439.block key (counter + UInt32.ofNat (i / 64)) nonce).getD j 0)
    (by intro i hi; rw [List.length_map, List.length_range, hlen])
  rw [hlen] at hfill
  unfold chacha20Xor Rfc8439.encrypt
  simp only [chachaState_eq hkey hnonce, initial_store, chachaBlock_eq _ _ _ hzeros]
  rw [hfill, offsets, List.flatMap_map]
  refine List.flatMap_congr fun j hj => ?_
  have hlt : 64 * j < data.length := mem_offsets (by decide) (List.mem_map.2 ⟨j, hj, rfl⟩)
  rw [hblock _ hlt, Nat.mul_div_cancel_left j (by decide)]

/-- Every turn fills the block, so nothing is left in it of the turn before; of the state only the counter
    changes. -/
theorem out_foldl_xorTurn (key : List UInt8) (counter : UInt32) (nonce data : List UInt8) (is : List Nat)
    {l : XorLoop} (hs : ∃ c, l.s = Rfc8439.initial key c nonce) (hblock : l.block.length = 64) :
    (is.foldl (xorTurn counter data) l).out = is.foldl (fun out i => write out i
      ((List.range (min 64 (data.length - i))).map fun j => data.getD (i + j) 0 ^^^
        (Rfc8439.block key (counter + UInt32.ofNat (i / 64)) nonce).getD j 0)) l.out := by
  induction is generalizing l with
  | nil => rfl
  | cons i is ih =>
    obtain ⟨c, hc⟩ := hs
    have hstate : (xorTurn counter data l i).s
        = Rfc8439.initial key (counter + UInt32.ofNat (i / 64)) nonce := by
      unfold xorTurn
      rw [hc, initial_store]
    have hfilled : (xorTurn counter data l i).block
        = Rfc8439.block key (counter + UInt32.ofNat (i / 64)) nonce := by
      unfold xorTurn
      dsimp only
      rw [hc, initial_store, chachaBlock_eq _ _ _ hblock]
    have hout : (xorTurn counter data l i).out = write l.out i
        ((List.range (min 64 (data.length - i))).map fun j => data.getD (i + j) 0 ^^^
          (Rfc8439.block key (counter + UInt32.ofNat (i / 64)) nonce).getD j 0) := by
      rw [← hfilled]
      rfl
    rw [List.foldl_cons, List.foldl_cons, ih ⟨_, hstate⟩ (by rw [hfilled, Rfc8439.length_block]), hout]

/-- **The buffers may be used again.** -/
theorem out_xorLoop {key nonce : List UInt8} (hkey : key.length = 32) (hnonce : nonce.length = 12)
    (counter : UInt32) (data : List UInt8) :
    (xorLoop key counter nonce data).out = chacha20Xor key counter nonce data := by
  have hzeros : (List.replicate 64 (0 : UInt8)).length = 64 := List.length_replicate
  have hout := out_foldl_xorTurn key counter nonce data (offsets 64 data.length)
    (l := ⟨chachaState key counter nonce, List.replicate 64 0, List.replicate data.length 0⟩)
    ⟨counter, chachaState_eq hkey hnonce counter⟩ hzeros
  unfold xorLoop chacha20Xor
  rw [hout]
  simp only [chachaState_eq hkey hnonce, initial_store, chachaBlock_eq _ _ _ hzeros]

/-- **The stream cipher of the RFC, byte by byte, and its own inverse.** -/
theorem chacha20Xor_stream {key nonce : List UInt8} (hkey : key.length = 32) (hnonce : nonce.length = 12)
    (counter : UInt32) (data : List UInt8) :
    (xorLoop key counter nonce data).out.length = data.length ∧
    (∀ i (hi : i < data.length), (xorLoop key counter nonce data).out[i]?
      = some (data[i] ^^^
          (Rfc8439.block key (counter + UInt32.ofNat (i / 64)) nonce).getD (i % 64) 0)) ∧
    (xorLoop key counter nonce (xorLoop key counter nonce data).out).out = data := by
  have hloop : ∀ text, (xorLoop key counter nonce text).out = Rfc8439.encrypt key counter nonce text :=
    fun text => (out_xorLoop hkey hnonce counter text).trans (chacha20Xor_eq hkey hnonce counter text)
  refine ⟨?_, fun i hi => ?_, ?_⟩
  · rw [hloop, Rfc8439.length_encrypt]
  · rw [hloop, Rfc8439.getElem?_encrypt key counter nonce data hi]
  · rw [hloop, hloop, Rfc8439.encrypt_involutive]

theorem chacha20Xor_stream_zeros :
    ∃ key nonce data : List UInt8, key.length = 32 ∧ nonce.length = 12 ∧ data.length = 70 ∧
      (xorLoop key 0xFFFFFFFF nonce (xorLoop key 0xFFFFFFFF nonce data).out).out = data := by
  have hkey : (List.replicate 32 (0 : UInt8)).length = 32 := List.length_replicate
  have hnonce : (List.replicate 12 (0 : UInt8)).length = 12 := List.length_replicate
  exact ⟨_, _, List.replicate 70 1, hkey, hnonce, List.length_replicate,
    (chacha20Xor_stream hkey hnonce 0xFFFFFFFF (List.replicate 70 1)).2.2⟩

/-! ## 5. The authenticator -/

theorem bigInteger_of_zero (bs : List UInt8) : bigInteger (0 :: bs.reverse) = le bs := by
  have hpow : le (bs ++ [0]) = le bs := by
    rw [le_append]
    simp
  unfold bigInteger
  rw [List.reverse_cons, List.reverse_reverse, hpow, List.head?_cons, Option.any_some, if_neg (by decide)]

theorem map_getD_range (bytes : List UInt8) :
    (List.range bytes.length).map (fun i => bytes.getD i 0) = bytes := by
  apply List.ext_getElem
  · rw [List.length_map, List.length_range]
  · intro i hi hi'
    rw [List.getElem_map, List.getElem_range, List.getD_eq_getElem _ _ hi']

theorem leBig_eq (bytes : List UInt8) : leBig bytes = le bytes := by
  have hback := foldl_set_back (fun i => bytes.getD i 0)
    (fun i => (List.replicate (bytes.length + 1) (0 : UInt8)).length - 2 - i + 1)
    (List.replicate (bytes.length + 1) 0) bytes.length
    (by rw [List.length_replicate]; omega) (by intro i hi; rw [List.length_replicate]; omega)
  have hone : bytes.length + 1 - bytes.length = 1 := by omega
  rw [map_getD_range, List.length_replicate, hone] at hback
  unfold leBig
  dsimp only
  rw [List.length_replicate, hback]
  exact bigInteger_of_zero bytes

/-- The bits that `poly1305` keeps of `r`. -/
def kept : List UInt8 := [255, 255, 255, 15, 252, 255, 255, 15, 252, 255, 255, 15, 252, 255, 255, 15]

theorem le_kept : le kept = 0x0ffffffc0ffffffc0ffffffc0fffffff := by decide

theorem and_all (x : UInt8) : x &&& 255 = x := UInt8.and_neg_one

theorem clearBits_eq {rb : List UInt8} (h : rb.length = 16) : clearBits rb = List.zipWith (· &&& ·) rb kept := by
  match rb, h with
  | [b0, b1, b2, b3, b4, b5, b6, b7, b8, b9, b10, b11, b12, b13, b14, b15], _ =>
    simp only [kept, List.zipWith_cons_cons, List.zipWith_nil_left, and_all]
    rfl

/-- **The key is clamped as in the RFC.** -/
theorem leBig_clearBits {rb : List UInt8} (h : rb.length = 16) :
    leBig (clearBits rb) = Rfc8439.clamp (le rb) := by
  rw [clearBits_eq h, leBig_eq, le_zipWith_and rb kept h, le_kept]
  rfl

theorem bitLength_le {v n : Nat} (h : v < 2 ^ n) : bitLength v ≤ n := by
  unfold bitLength
  dsimp only
  rw [if_pos (Int.natCast_nonneg v), Int.toNat_natCast]
  split
  · exact Nat.zero_le n
  · rename_i hv
    exact (Nat.log2_lt hv).2 h

theorem lt_two_pow_bitLength (v : Nat) : v < 2 ^ bitLength v := by
  unfold bitLength
  dsimp only
  rw [if_pos (Int.natCast_nonneg v), Int.toNat_natCast]
  split
  · rename_i hv
    rw [hv]
    decide
  · exact Nat.lt_log2_self

/-- A number that is not negative, in as many bytes as it needs. -/
theorem toByteArray_natCast (v : Nat) :
    toByteArray v = (leBytes (bitLength v / 8 + 1) v).reverse ∧ v < 256 ^ (bitLength v / 8 + 1) := by
  have hlt : v < 256 ^ (bitLength v / 8 + 1) := by
    have hpow : (256 : Nat) ^ (bitLength v / 8 + 1) = 2 ^ (8 * (bitLength v / 8 + 1)) := by
      rw [pow_mul]
      rfl
    rw [hpow]
    exact (lt_two_pow_bitLength v).trans_le (Nat.pow_le_pow_right (by decide) (by omega))
  refine ⟨?_, hlt⟩
  unfold toByteArray
  dsimp only
  rw [← Int.natCast_emod, Int.toNat_natCast, Nat.mod_eq_of_lt hlt]

theorem getD_reverse_leBytes {n m : Nat} (h : m ≤ n) (v : Nat) :
    (List.range m).map (fun j => (leBytes n v).reverse.getD (n - 1 - j) 0) = leBytes m v := by
  apply List.ext_getElem
  · rw [List.length_map, List.length_range, length_leBytes]
  · intro j hj hj'
    rw [length_leBytes] at hj'
    have hplace : n - 1 - (n - 1 - j) = j := by omega
    rw [List.getElem_map, List.getElem_range, getElem_leBytes,
      List.getD_eq_getElem _ _ (by rw [List.length_reverse, length_leBytes]; omega), List.getElem_reverse,
      getElem_leBytes, length_leBytes, hplace]

/-- One byte of the tag. -/
def writeBack (bytes out : List UInt8) (j : Nat) : List UInt8 :=
  let idx : Int := 15 - j
  if 0 ≤ idx then out.set idx.toNat (bytes.getD (bytes.length - 1 - j) 0) else out

/-- **The sixteen bytes of a number, the most significant first.** -/
theorem foldl_writeBack {v : Nat} (hv : v < 2 ^ 128) :
    (List.range (toByteArray v).length).foldl (writeBack (toByteArray v)) (List.replicate 16 0)
      = (leBytes 16 v).reverse := by
  obtain ⟨hbytes, hlt⟩ := toByteArray_natCast v
  have hshort : bitLength v / 8 + 1 ≤ 17 := by
    have := bitLength_le hv
    omega
  rw [hbytes, List.length_reverse, length_leBytes]
  generalize bitLength v / 8 + 1 = n at hlt hshort
  have hfill : ∀ m ≤ n, m ≤ 16 →
      (List.range m).foldl (writeBack (leBytes n v).reverse) (List.replicate 16 0)
        = List.replicate (16 - m) 0 ++ (leBytes m v).reverse := by
    intro m hm hm16
    have hback := foldl_set_back (fun j => (leBytes n v).reverse.getD (n - 1 - j) 0) (fun j => 15 - j)
      (List.replicate 16 (0 : UInt8)) m (by rw [List.length_replicate]; exact hm16)
      (fun j _ => by rw [List.length_replicate])
    rw [getD_reverse_leBytes hm, List.length_replicate, List.take_replicate, Nat.min_eq_left (by omega)] at hback
    rw [← hback]
    refine List.foldl_ext _ _ _ fun out j hj => ?_
    rw [List.mem_range] at hj
    unfold writeBack
    dsimp only
    have hidx : (15 - (j : Int)).toNat = 15 - j := by omega
    rw [if_pos (by omega), hidx, List.length_reverse, length_leBytes]
  rcases Nat.lt_or_ge 16 n with h17 | h16
  · -- the first of seventeen bytes is left out
    obtain rfl : n = 17 := by omega
    rw [List.range_succ, List.foldl_append, hfill 16 (by decide) le_rfl]
    rfl
  · rw [hfill n le_rfl h16, ← List.reverse_replicate, ← List.reverse_append]
    have hsum : n + (16 - n) = 16 := by omega
    rw [← leBytes_of_lt hlt, hsum]

/-- A block of the message, with one bit more. -/
theorem block_eq {msg : List UInt8} {i : Nat} :
    (write (List.replicate (min 16 (msg.length - i) + 1) 0) 0
      ((msg.drop i).take (min 16 (msg.length - i)))).set (min 16 (msg.length - i)) 1
      = (msg.drop i).take 16 ++ [1] := by
  have hlen : ((msg.drop i).take 16).length = min 16 (msg.length - i) := by
    rw [List.length_take, List.length_drop]
  have htake : (msg.drop i).take (min 16 (msg.length - i)) = (msg.drop i).take 16 := by
    rw [← List.length_drop, ← List.take_eq_take_min]
  have hdrop : (List.replicate (min 16 (msg.length - i) + 1) (0 : UInt8)).drop (min 16 (msg.length - i)) = [0] := by
    rw [List.drop_replicate, Nat.add_sub_cancel_left]
    rfl
  unfold write
  rw [htake, hlen, List.take_zero, List.nil_append, Nat.zero_add, hdrop,
    List.set_append_right _ _ (by rw [hlen]), hlen, Nat.sub_self]
  rfl

/-- The loop over the message, with numbers of either kind. -/
theorem foldl_accumulate (r : Nat) (msg : List UInt8) :
    (offsets 16 msg.length).foldl (fun acc (i : Nat) =>
      (acc + ((le ((msg.drop i).take 16 ++ [1]) : Nat) : Int)) * (r : Int) % (2 ^ 130 - 5)) 0
      = (Rfc8439.accumulate r msg : Nat) := by
  unfold offsets Rfc8439.accumulate
  rw [List.foldl_map]
  show List.foldl _ ((0 : Nat) : Int) (List.range ((msg.length + 15) / 16)) = _
  generalize (0 : Nat) = acc
  induction List.range ((msg.length + 15) / 16) generalizing acc with
  | nil => rfl
  | cons i is ih =>
    have hprime : ((2 : Int) ^ 130 - 5) = (Rfc8439.prime : Nat) := by
      unfold Rfc8439.prime
      decide
    rw [List.foldl_cons, List.foldl_cons, ← ih, hprime, Int.mul_comm]
    congr 1

/-- **The tag is that of the RFC, the other way round.** -/
theorem poly1305_eq (msg : List UInt8) {key : List UInt8} (h : key.length = 32) :
    poly1305 msg key = (Rfc8439.mac msg key).reverse := by
  have hr : (key.take 16).length = 16 := by
    rw [List.length_take]
    omega
  have hmod : ((Rfc8439.macNumber msg key : Nat) : Int) % 2 ^ 128
      = ((Rfc8439.macNumber msg key % 2 ^ 128 : Nat) : Int) := rfl
  have hacc : ((Rfc8439.accumulate (Rfc8439.clamp (le (key.take 16))) msg : Nat) : Int)
      + ((le ((key.drop 16).take 16) : Nat) : Int) = ((Rfc8439.macNumber msg key : Nat) : Int) := rfl
  unfold poly1305
  dsimp only
  rw [leBig_clearBits hr, leBig_eq]
  simp only [block_eq, leBig_eq]
  rw [foldl_accumulate, hacc, hmod]
  refine (foldl_writeBack (Nat.mod_lt _ (by decide))).trans ?_
  have hpow : (2 : Nat) ^ 128 = 256 ^ 16 := by decide
  rw [hpow, leBytes_mod]
  rfl

/-! ## 6. The AEAD -/

theorem pad16_eq (xs : List UInt8) : pad16 xs.length = Rfc8439.pad16 xs := by
  unfold pad16 Rfc8439.pad16
  split
  · rename_i h
    rw [h]
    rfl
  · rename_i h
    have hmod : (16 - xs.length % 16) % 16 = 16 - xs.length % 16 := Nat.mod_eq_of_lt (by omega)
    rw [hmod]

theorem le64_eq (n : Nat) : le64 (UInt64.ofNat n) = leBytes 8 n := by
  rw [← leBytes_mod]
  unfold le64
  apply List.ext_getElem
  · rw [List.length_map, List.length_range, length_leBytes]
  · intro i hi hi'
    rw [length_leBytes] at hi'
    rw [List.getElem_map, List.getElem_range, getElem_leBytes]
    apply UInt8.toNat_inj.1
    have hpow : (256 : Nat) ^ i = 2 ^ (8 * i) := by
      rw [pow_mul]
      rfl
    rw [UInt64.toNat_toUInt8, UInt64.toNat_shiftRight, UInt64.toNat_ofNat', UInt64.toNat_ofNat',
      UInt8.toNat_ofNat', Nat.shiftRight_eq_div_pow, Nat.mod_eq_of_lt (by omega : 8 * i < 2 ^ 64),
      Nat.mod_eq_of_lt (by omega : 8 * i < 64), hpow]
    rfl

section Encrypt

variable {key nonce : List UInt8} (hkey : key.length = 32) (hnonce : nonce.length = 12) (pt aad : List UInt8)

include hkey hnonce

/-- **What the code makes**: the ciphertext of the RFC, and its tag the other way round. -/
theorem chacha20poly1305Encrypt_eq : chacha20poly1305Encrypt key nonce pt aad
    = Rfc8439.ciphertext key nonce pt ++ (Rfc8439.tag key nonce pt aad).reverse := by
  have hzeros : (List.replicate 64 (0 : UInt8)).length = 64 := List.length_replicate
  have hmac : (Rfc8439.macKey key nonce).length = 32 := by
    rw [Rfc8439.macKey, List.length_take, Rfc8439.length_block]
    rfl
  have hpoly : (Rfc8439.block key 0 nonce).take 32 = Rfc8439.macKey key nonce := rfl
  have hct : Rfc8439.encrypt key 1 nonce pt = Rfc8439.ciphertext key nonce pt := rfl
  unfold chacha20poly1305Encrypt
  dsimp only
  rw [chachaState_eq hkey hnonce, chachaBlock_eq _ _ _ hzeros, chacha20Xor_eq hkey hnonce, hpoly, hct,
    pad16_eq, pad16_eq, le64_eq, le64_eq, poly1305_eq _ hmac]
  rfl

/-- **The result is that of the RFC exactly where the tag reads the same from both ends.** -/
theorem chacha20poly1305Encrypt_iff :
    chacha20poly1305Encrypt key nonce pt aad = Rfc8439.aead key nonce pt aad ↔
      (Rfc8439.tag key nonce pt aad).reverse = Rfc8439.tag key nonce pt aad := by
  rw [chacha20poly1305Encrypt_eq hkey hnonce, Rfc8439.aead, List.append_right_inj]

end Encrypt

/-- Three bytes of text and two of associated data. -/
theorem chacha20poly1305Encrypt_bytes :
    chacha20poly1305Encrypt (List.replicate 32 1) (List.replicate 12 2) [10, 20, 30] [40, 50]
        = Rfc8439.aead (List.replicate 32 1) (List.replicate 12 2) [10, 20, 30] [40, 50] ↔
      (Rfc8439.tag (List.replicate 32 1) (List.replicate 12 2) [10, 20, 30] [40, 50]).reverse
        = Rfc8439.tag (List.replicate 32 1) (List.replicate 12 2) [10, 20, 30] [40, 50] :=
  chacha20poly1305Encrypt_iff (by decide) (by decide) [10, 20, 30] [40, 50]

/-- **The tag of nothing at all is not that of the RFC.** -/
theorem chacha20poly1305Encrypt_reversed :
    chacha20poly1305Encrypt (List.replicate 32 0) (List.replicate 12 0) [] []
      ≠ Rfc8439.aead (List.replicate 32 0) (List.replicate 12 0) [] [] := by
  have htag : (Rfc8439.tag (List.replicate 32 0) (List.replicate 12 0) [] []).reverse
      ≠ Rfc8439.tag (List.replicate 32 0) (List.replicate 12 0) [] [] := by decide +kernel
  rw [chacha20poly1305Encrypt_eq (by decide) (by decide), Rfc8439.aead]
  exact fun h => htag (List.append_cancel_left h)

end SwiftVpn.DelayProbe
