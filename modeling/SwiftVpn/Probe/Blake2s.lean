/-
  File:      SwiftVpn/Probe/Blake2s.lean
  Subject:   THE HASH OF THE PROBES: Blake2s OF DelayProbe.kt, AGAINST RFC 7693.

  The buffer is flushed only when more comes in, so the last block is still there when `digest` is called.

  * `Blake2s`, `update`, `digest` -- the class; that the buffer has 64 bytes and is never overfull is part
    of its value;
  * `Absorbed` -- THE INVARIANT: all full blocks but the last are hashed, the rest stands in the buffer, and
    `t` counts what is hashed;
  * `absorbed_update` -- a chunk of any length keeps it, `absorbed_foldl` so does any sequence of chunks;
  * `digest_update` -- so the digest is that of the RFC for the chunks taken together.
-/
import SwiftVpn.Lib.Blake2s
import SwiftVpn.Probe.Aead

namespace SwiftVpn.DelayProbe

open Bytes

/-! ## 1. The class -/

namespace Blake2s

def IV : Vector UInt32 8 :=
  #v[0x6A09E667, 0xBB67AE85, 0x3C6EF372, 0xA54FF53A, 0x510E527F, 0x9B05688C, 0x1F83D9AB, 0x5BE0CD19]

def SIGMA : Vector (Vector (Fin 16) 16) 10 :=
  #v[#v[0, 1, 2, 3, 4, 5, 6, 7, 8, 9, 10, 11, 12, 13, 14, 15],
    #v[14, 10, 4, 8, 9, 15, 13, 6, 1, 12, 0, 2, 11, 7, 5, 3],
    #v[11, 8, 12, 0, 5, 2, 15, 13, 10, 14, 3, 6, 7, 1, 9, 4],
    #v[7, 9, 3, 1, 13, 12, 11, 14, 2, 6, 5, 10, 4, 0, 15, 8],
    #v[9, 0, 5, 7, 2, 4, 10, 15, 14, 1, 11, 12, 6, 8, 3, 13],
    #v[2, 12, 6, 10, 0, 11, 8, 3, 4, 13, 7, 5, 15, 14, 1, 9],
    #v[12, 5, 1, 15, 14, 13, 4, 10, 0, 7, 6, 3, 9, 2, 8, 11],
    #v[13, 11, 7, 14, 12, 1, 3, 9, 5, 0, 15, 4, 8, 6, 2, 10],
    #v[6, 15, 14, 9, 11, 3, 0, 8, 12, 2, 13, 7, 1, 4, 10, 5],
    #v[10, 2, 8, 4, 7, 6, 1, 5, 15, 11, 9, 14, 3, 12, 13, 0]]

def rotr (xv n : UInt32) : UInt32 := (xv >>> n) ||| (xv <<< (32 - n))

def g (v : Vector UInt32 16) (a b c d : Fin 16) (x y : UInt32) : Vector UInt32 16 :=
  let v := store v a (v.get a + (v.get b + x))
  let v := store v d (rotr (v.get d ^^^ v.get a) 16)
  let v := store v c (v.get c + v.get d)
  let v := store v b (rotr (v.get b ^^^ v.get c) 12)
  let v := store v a (v.get a + (v.get b + y))
  let v := store v d (rotr (v.get d ^^^ v.get a) 8)
  let v := store v c (v.get c + v.get d)
  store v b (rotr (v.get b ^^^ v.get c) 7)

/-- The words that `compress` starts from. -/
def working (h : Vector UInt32 8) (t : UInt64) (last : Bool) : Vector UInt32 16 :=
  let v : Vector UInt32 16 := h ++ IV
  let v := store v 12 (v.get 12 ^^^ t.toUInt32)
  let v := store v 13 (v.get 13 ^^^ (t >>> 32).toUInt32)
  if last then store v 14 (~~~v.get 14) else v

/-- One round of `compress`. -/
def round (m v : Vector UInt32 16) (s : Vector (Fin 16) 16) : Vector UInt32 16 :=
  let v := g v 0 4 8 12 (m.get (s.get 0)) (m.get (s.get 1))
  let v := g v 1 5 9 13 (m.get (s.get 2)) (m.get (s.get 3))
  let v := g v 2 6 10 14 (m.get (s.get 4)) (m.get (s.get 5))
  let v := g v 3 7 11 15 (m.get (s.get 6)) (m.get (s.get 7))
  let v := g v 0 5 10 15 (m.get (s.get 8)) (m.get (s.get 9))
  let v := g v 1 6 11 12 (m.get (s.get 10)) (m.get (s.get 11))
  let v := g v 2 7 8 13 (m.get (s.get 12)) (m.get (s.get 13))
  g v 3 4 9 14 (m.get (s.get 14)) (m.get (s.get 15))

/-- `compress`: the new value of `h`. -/
def compress (h : Vector UInt32 8) (t : UInt64) (block : List UInt8) (last : Bool) : Vector UInt32 8 :=
  let m : Vector UInt32 16 := Vector.ofFn fun i : Fin 16 => leInt block (i * 4)
  let v := (List.finRange 10).foldl (fun v r => round m v (SIGMA.get r)) (working h t last)
  Vector.ofFn fun i : Fin 8 => h.get i ^^^ v.get (i.castAdd 8) ^^^ v.get (i.addNat 8)

end Blake2s

structure Blake2s where
  h : Vector UInt32 8
  buf : List UInt8
  buflen : Nat
  t : UInt64
  outlen : Nat
  length_buf : buf.length = 64
  buflen_le : buflen ≤ 64

namespace Blake2s

/-- A full buffer is hashed and empty again. -/
def flush (b : Blake2s) : Blake2s :=
  if b.buflen = 64 then
    let t := b.t + 64
    { b with t := t, h := compress b.h t b.buf false, buflen := 0, buflen_le := Nat.zero_le 64 }
  else b

theorem buflen_flush (b : Blake2s) : b.flush.buflen < 64 := by
  unfold flush
  split
  · exact Nat.zero_lt_succ 63
  · have := b.buflen_le
    omega

/-- Bytes that the buffer has room for. -/
def fill (b : Blake2s) (src : List UInt8) (h : b.buflen + src.length ≤ 64) : Blake2s :=
  { b with
    buf := write b.buf b.buflen src
    buflen := b.buflen + src.length
    length_buf := by rw [length_write (by rw [b.length_buf]; exact h), b.length_buf]
    buflen_le := h }

theorem length_taken (b : Blake2s) (input : List UInt8) (i remaining : Nat) :
    b.buflen + ((input.drop i).take (min (64 - b.buflen) remaining)).length ≤ 64 := by
  have := b.buflen_le
  rw [List.length_take]
  omega

/-- The loop of `update`: `remaining` bytes of the input, from `i` on. -/
def updateFrom (b : Blake2s) (input : List UInt8) (i remaining : Nat) : Blake2s :=
  if _h : 0 < remaining then
    let b' := b.flush
    let take := min (64 - b'.buflen) remaining
    updateFrom (b'.fill ((input.drop i).take take) (length_taken b' input i remaining)) input (i + take)
      (remaining - take)
  else b
termination_by remaining
decreasing_by
  have := b.buflen_flush
  omega

def update (b : Blake2s) (input : List UInt8) : Blake2s := b.updateFrom input 0 input.length

/-- `copyOf(64)`. -/
def copyOf64 (bytes : List UInt8) : List UInt8 := (bytes ++ List.replicate 64 0).take 64

/-- The fields of a new hash. -/
def fresh (kk outlen : Nat) : Blake2s where
  h := store IV 0 (IV.get 0 ^^^ ((0x01010000 : UInt32) ^^^ (UInt32.ofNat kk <<< 8) ^^^ UInt32.ofNat outlen))
  buf := List.replicate 64 0
  buflen := 0
  t := 0
  outlen := outlen
  length_buf := List.length_replicate
  buflen_le := Nat.zero_le 64

/-- The constructor; without a key there is nothing to hash yet. -/
def init (key : Option (List UInt8)) (outlen : Nat) : Blake2s :=
  let b := fresh ((key.map List.length).getD 0) outlen
  match key with
  | some key => if key.isEmpty then b else b.update (copyOf64 key)
  | none => b

def digest (b : Blake2s) : List UInt8 :=
  let t := b.t + UInt64.ofNat b.buflen
  let buf := write b.buf b.buflen (List.replicate (64 - b.buflen) 0)
  let h := compress b.h t buf true
  (List.range b.outlen).map fun i => ((h.toList.getD (i >>> 2) 0) >>> UInt32.ofNat ((i &&& 3) * 8)).toUInt8

end Blake2s

/-- `blake2s`. -/
def blake2s (data : List UInt8) (key : Option (List UInt8)) (outlen : Nat) : List UInt8 :=
  ((Blake2s.init key outlen).update data).digest

/-! ## 2. Compression -/

namespace Blake2s

/-- `v[a] += v[b] + x`. -/
def addInput (v : Vector UInt32 16) (a b : Fin 16) (x : UInt32) : Vector UInt32 16 := store v a (v.get a + (v.get b + x))

theorem addInput_eq : addInput = Rfc7693.addWord := by
  funext v a b x
  unfold addInput Rfc7693.addWord
  rw [UInt32.add_assoc]

theorem g_eq : g = Rfc7693.mix := by
  funext v a b c d x y
  have hg : g v a b c d x y
      = (let v := addInput v a b x
        let v := Rfc7693.xorRotate v d a 16
        let v := Rfc7693.add v c d
        let v := Rfc7693.xorRotate v b c 12
        let v := addInput v a b y
        let v := Rfc7693.xorRotate v d a 8
        let v := Rfc7693.add v c d
        Rfc7693.xorRotate v b c 7) := rfl
  rw [hg, addInput_eq]
  rfl

theorem round_eq : round = Rfc7693.round := by
  unfold round Rfc7693.round
  rw [g_eq]

theorem IV_eq : IV = Rfc7693.iv := rfl

/-- The count of bytes, in two words. -/
theorem working_eq (h : Vector UInt32 8) (t : Nat) (last : Bool) :
    working h (UInt64.ofNat t) last = Rfc7693.working h t last := by
  have hlow : (UInt64.ofNat t).toUInt32 = UInt32.ofNat t := by
    apply UInt32.toNat_inj.1
    rw [UInt64.toNat_toUInt32, UInt64.toNat_ofNat', UInt32.toNat_ofNat']
    omega
  have hhigh : (UInt64.ofNat t >>> 32).toUInt32 = UInt32.ofNat (t / 2 ^ 32) := by
    apply UInt32.toNat_inj.1
    rw [UInt64.toNat_toUInt32, UInt64.toNat_shiftRight, UInt64.toNat_ofNat', UInt32.toNat_ofNat',
      Nat.shiftRight_eq_div_pow]
    show t % 2 ^ 64 / 2 ^ 32 % 2 ^ 32 = _
    omega
  have hnot : ∀ x : UInt32, ~~~x = x ^^^ 0xFFFFFFFF := by
    intro x
    exact UInt32.xor_neg_one.symm
  unfold working Rfc7693.working
  rw [hlow, hhigh, IV_eq]
  cases last with
  | false => rfl
  | true => simp only [if_true, hnot]

/-- **A block is hashed as in the RFC.** -/
theorem compress_eq (h : Vector UInt32 8) (t : Nat) {block : List UInt8} (hb : block.length = 64) (last : Bool) :
    compress h (UInt64.ofNat t) block last = Rfc7693.compress h (Rfc7693.words block) t last := by
  have hm : ∀ i : Fin 16, leInt block (i * 4) = word block (i * 4) := fun i => leInt_eq (by omega)
  have hrows : ∀ f : Vector UInt32 16 → Vector (Fin 16) 16 → Vector UInt32 16, ∀ v,
      (List.finRange 10).foldl (fun v r => f v (SIGMA.get r)) v = Rfc7693.sigma.foldl f v := fun f v => rfl
  unfold compress Rfc7693.compress Rfc7693.words
  dsimp only
  rw [funext hm, round_eq, hrows, working_eq]

/-! ## 3. Chunks -/

/-- What is left of a buffer of 64 bytes when its first bytes are written and the rest is cleared. -/
theorem write_zeros {buf : List UInt8} {n : Nat} (hn : n ≤ 64) (hbuf : buf.length = 64) :
    write buf n (List.replicate (64 - n) 0) = buf.take n ++ List.replicate (64 - n) 0 := by
  unfold write
  rw [List.length_replicate, List.drop_eq_nil_of_le (by omega), List.append_nil]

/-- The first blocks of the data are hashed, and what is left stands in the buffer. -/
structure Holds (h0 : Vector UInt32 8) (data : List UInt8) (b : Blake2s) (n : Nat) : Prop where
  length : data.length = 64 * n + b.buflen
  buffer : b.buf.take b.buflen = data.drop (64 * n)
  count : b.t = UInt64.ofNat (64 * n)
  hash : b.h = Rfc7693.chain h0 data n

/-- Nothing is left only of no data at all: a full block waits until more comes in. -/
structure Absorbed (h0 : Vector UInt32 8) (data : List UInt8) (b : Blake2s) : Prop where
  waits : data ≠ [] → 0 < b.buflen
  holds : ∃ n, Holds h0 data b n

section Chunks

variable {h0 : Vector UInt32 8} {data : List UInt8} {b : Blake2s}

theorem holds_fill {n : Nat} (h : Holds h0 data b n) {src : List UInt8} (hroom : b.buflen + src.length ≤ 64) :
    Holds h0 (data ++ src) (b.fill src hroom) n := by
  have hle := b.buflen_le
  have hlength := h.length
  refine ⟨?_, ?_, h.count, ?_⟩
  · rw [List.length_append, hlength, Nat.add_assoc]
    rfl
  · show (write b.buf b.buflen src).take (b.buflen + src.length) = _
    rw [take_write (by rw [b.length_buf]; exact hle), h.buffer,
      List.drop_append_of_le_length (by omega)]
  · rw [Rfc7693.chain_append (by omega)]
    exact h.hash

theorem holds_flush (h : Absorbed h0 data b) : ∃ n, Holds h0 data b.flush n := by
  obtain ⟨n, h⟩ := h.holds
  unfold flush
  split
  · rename_i hfull
    have hlength := h.length
    rw [hfull] at hlength
    have hbuffer : b.buf = data.drop (64 * n) := by
      rw [← h.buffer, hfull, List.take_of_length_le b.length_buf.le]
    have hblock : Rfc7693.block data n = b.buf := by
      rw [Rfc7693.block_of_full (by omega), ← hbuffer, List.take_of_length_le b.length_buf.le]
    have hnext : 64 * n + 64 = (n + 1) * 64 := by omega
    have hcount : b.t + 64 = UInt64.ofNat ((n + 1) * 64) := by
      rw [h.count, ← hnext, UInt64.ofNat_add]
      rfl
    refine ⟨n + 1, by omega, ?_, ?_, ?_⟩
    · rw [List.drop_eq_nil_of_le (by omega)]
      rfl
    · rw [Nat.mul_comm]
      exact hcount
    · show compress b.h (b.t + 64) b.buf false = _
      rw [Rfc7693.chain_succ, hcount, compress_eq _ _ b.length_buf, hblock, h.hash]
  · exact ⟨n, h⟩

/-- One turn of the loop. -/
theorem absorbed_step (h : Absorbed h0 data b) {src : List UInt8} (hsrc : 0 < src.length)
    (hroom : b.flush.buflen + src.length ≤ 64) : Absorbed h0 (data ++ src) (b.flush.fill src hroom) := by
  obtain ⟨n, hn⟩ := holds_flush h
  exact ⟨fun _ => Nat.lt_of_lt_of_le hsrc (Nat.le_add_left _ _), n, holds_fill hn hroom⟩

theorem take_split {input : List UInt8} {i n k : Nat} (h : k ≤ n) :
    (input.drop i).take n = (input.drop i).take k ++ (input.drop (i + k)).take (n - k) := by
  have hsum : n = k + (n - k) := by omega
  conv_lhs => rw [hsum, List.take_add, List.drop_drop]

/-- **A chunk of any length.** -/
theorem absorbed_updateFrom (input : List UInt8) (i remaining : Nat) (hi : i + remaining ≤ input.length)
    (h : Absorbed h0 data b) :
    Absorbed h0 (data ++ (input.drop i).take remaining) (b.updateFrom input i remaining) := by
  induction remaining using Nat.strongRecOn generalizing b data i with
  | ind remaining ih =>
    unfold updateFrom
    split
    · rename_i hpos
      have hroom := b.buflen_flush
      have hlen : 0 < ((input.drop i).take (min (64 - b.flush.buflen) remaining)).length := by
        rw [List.length_take, List.length_drop]
        omega
      have hstep := absorbed_step h hlen (length_taken b.flush input i remaining)
      rw [take_split (Nat.min_le_right (64 - b.flush.buflen) remaining), ← List.append_assoc]
      exact ih _ (by omega) _ (by omega) hstep
    · rename_i hzero
      have hnone : remaining = 0 := by omega
      rw [hnone, List.take_zero, List.append_nil]
      exact h

theorem absorbed_update (input : List UInt8) (h : Absorbed h0 data b) :
    Absorbed h0 (data ++ input) (b.update input) := by
  have := absorbed_updateFrom input 0 input.length (by omega) h
  rwa [List.drop_zero, List.take_length] at this

/-- **Any sequence of chunks.** -/
theorem absorbed_foldl (chunks : List (List UInt8)) (h : Absorbed h0 data b) :
    Absorbed h0 (data ++ chunks.flatten) (chunks.foldl update b) := by
  induction chunks generalizing data b with
  | nil =>
    rw [List.flatten_nil, List.append_nil]
    exact h
  | cons chunk chunks ih =>
    rw [List.flatten_cons, ← List.append_assoc, List.foldl_cons]
    exact ih (absorbed_update chunk h)

/-- The bytes of the words, up to the length that is asked for. -/
theorem bytes_eq (h : Vector UInt32 8) {outlen : Nat} (ho : outlen ≤ 32) :
    ((List.range outlen).map fun i => ((h.toList.getD (i >>> 2) 0) >>> UInt32.ofNat ((i &&& 3) * 8)).toUInt8)
      = (h.toList.flatMap wordBytes).take outlen := by
  have hall : ((List.range 32).map fun i =>
      ((h.toList.getD (i >>> 2) 0) >>> UInt32.ofNat ((i &&& 3) * 8)).toUInt8) = h.toList.flatMap wordBytes := by
    match hl : h.toList, (by simp : h.toList.length = 8) with
    | [w0, w1, w2, w3, w4, w5, w6, w7], _ =>
      simp only [List.flatMap_cons, List.flatMap_nil, wordBytes_eq]
      rfl
  rw [← hall, ← List.map_take, List.take_range, Nat.min_eq_left ho]

/-- **The digest of what was absorbed.** -/
theorem digest_absorbed (h : Absorbed h0 data b) (ho : b.outlen ≤ 32) :
    b.digest = ((Rfc7693.digest h0 data).toList.flatMap wordBytes).take b.outlen := by
  obtain ⟨n, hn⟩ := h.holds
  have hle := b.buflen_le
  have hlength := hn.length
  have hblocks : Rfc7693.blocks data - 1 = n := by
    have hwaits := h.waits
    unfold Rfc7693.blocks
    rcases Nat.eq_zero_or_pos data.length with hd | hd
    · omega
    · have := hwaits (List.ne_nil_of_length_pos hd)
      omega
  have hrest : (data.drop (64 * n)).length = b.buflen := by
    rw [List.length_drop]
    omega
  have hblock : write b.buf b.buflen (List.replicate (64 - b.buflen) 0) = Rfc7693.block data n := by
    have htake : (data.drop (64 * n)).take 64 = data.drop (64 * n) := List.take_of_length_le (by omega)
    unfold Rfc7693.block
    rw [write_zeros hle b.length_buf, hn.buffer, htake, List.take_append, htake, hrest, List.take_replicate,
      Nat.min_eq_left (by omega)]
  have hlen : (write b.buf b.buflen (List.replicate (64 - b.buflen) 0)).length = 64 := by
    rw [length_write (by rw [List.length_replicate, b.length_buf]; omega), b.length_buf]
  have hcount : b.t + UInt64.ofNat b.buflen = UInt64.ofNat data.length := by
    rw [hn.count, hlength, UInt64.ofNat_add]
  unfold digest Rfc7693.digest
  dsimp only
  rw [hcount, compress_eq _ _ hlen, bytes_eq _ ho, hblocks, hblock, hn.hash]

end Chunks

theorem outlen_updateFrom (b : Blake2s) (input : List UInt8) (i remaining : Nat) :
    (b.updateFrom input i remaining).outlen = b.outlen := by
  induction remaining using Nat.strongRecOn generalizing b i with
  | ind remaining ih =>
    unfold updateFrom
    split
    · have hroom := b.buflen_flush
      refine (ih _ (by omega) _ _).trans ?_
      show b.flush.outlen = b.outlen
      unfold flush
      split <;> rfl
    · rfl

theorem outlen_foldl (chunks : List (List UInt8)) (b : Blake2s) : (chunks.foldl update b).outlen = b.outlen := by
  induction chunks generalizing b with
  | nil => rfl
  | cons chunk chunks ih => rw [List.foldl_cons, ih, update, outlen_updateFrom]

/-! ## 4. A new hash -/

theorem outlen_init (key : Option (List UInt8)) (outlen : Nat) : (init key outlen).outlen = outlen := by
  unfold init
  dsimp only
  split
  · split
    · rfl
    · rw [update, outlen_updateFrom]
      rfl
  · rfl

theorem initial_eq (kk outlen : Nat) :
    store IV 0 (IV.get 0 ^^^ ((0x01010000 : UInt32) ^^^ (UInt32.ofNat kk <<< 8) ^^^ UInt32.ofNat outlen))
      = Rfc7693.initial kk outlen := by
  unfold Rfc7693.initial
  rw [IV_eq, UInt32.xor_assoc, UInt32.xor_assoc, UInt32.xor_assoc, ← UInt32.xor_assoc (0x01010000 : UInt32)]

theorem absorbed_fresh (kk outlen : Nat) : Absorbed (Rfc7693.initial kk outlen) [] (fresh kk outlen) := by
  refine ⟨fun h => absurd rfl h, 0, rfl, rfl, rfl, ?_⟩
  exact initial_eq kk outlen

theorem absorbed_init (key : Option (List UInt8)) (outlen : Nat) :
    Absorbed (Rfc7693.initial (key.getD []).length outlen) (Rfc7693.keyBlock (key.getD [])) (init key outlen) := by
  cases key with
  | none => exact absorbed_fresh 0 outlen
  | some key =>
    unfold init Rfc7693.keyBlock
    dsimp only [Option.getD_some, Option.map_some]
    by_cases hkey : key = []
    · rw [if_pos hkey, if_pos (by rw [hkey]; rfl)]
      exact absorbed_fresh key.length outlen
    · rw [if_neg hkey, if_neg (by simpa using hkey)]
      exact absorbed_update (copyOf64 key) (absorbed_fresh key.length outlen)

/-- The digest of some chunks is that of the RFC for all of them. -/
theorem digest_foldl (key : Option (List UInt8)) {outlen : Nat} (ho : outlen ≤ 32)
    (chunks : List (List UInt8)) :
    (chunks.foldl update (init key outlen)).digest = Rfc7693.hash (key.getD []) chunks.flatten outlen := by
  have houtlen : (chunks.foldl update (init key outlen)).outlen = outlen := by
    rw [outlen_foldl, outlen_init]
  rw [digest_absorbed (absorbed_foldl chunks (absorbed_init key outlen)) (by rw [houtlen]; exact ho), houtlen]
  rfl

/-- **Blake2s is BLAKE2s**: for every key, and for every way to cut the message into chunks. -/
theorem digest_update (key : {key : Option (List UInt8) // (key.getD []).length ≤ 32})
    (outlen : {n : Nat // 1 ≤ n ∧ n ≤ 32}) (chunks : List (List UInt8)) :
    (chunks.foldl update (init key.1 outlen.1)).digest
      = Rfc7693.hash (key.1.getD []) chunks.flatten outlen.1 :=
  digest_foldl key.1 outlen.2.2 chunks

end Blake2s

/-- `blake2s` hashes one chunk. -/
theorem blake2s_eq (data : List UInt8) (key : Option (List UInt8)) {outlen : Nat} (ho : outlen ≤ 32) :
    blake2s data key outlen = Rfc7693.hash (key.getD []) data outlen := by
  have := Blake2s.digest_foldl key ho [data]
  rwa [List.flatten_singleton] at this

end SwiftVpn.DelayProbe
