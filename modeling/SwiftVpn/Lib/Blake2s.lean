/-
  File:      SwiftVpn/Lib/Blake2s.lean
  Subject:   RFC 7693: BLAKE2s.

  * `mix`, `compress` -- sections 3.1 and 3.2, with the byte count as a number;
  * `block`, `chain` -- the blocks of the data, padded with zeros, and the hash of all but the last ones;
  * `digest`, `hash` -- section 3.3: the data of a keyed hash starts with a block that holds the key;
  * `chain_append` -- what is hashed of the blocks that are full does not depend on what follows.
-/
import Mathlib.Data.Fin.VecNotation
import SwiftVpn.Lib.Bytes

namespace Rfc7693

open Bytes

/-- The initial hash value. -/
def iv : Vector UInt32 8 :=
  Vector.ofFn ![0x6A09E667, 0xBB67AE85, 0x3C6EF372, 0xA54FF53A, 0x510E527F, 0x9B05688C, 0x1F83D9AB, 0x5BE0CD19]

/-- The message schedule, a row for each round. -/
def sigma : List (Vector (Fin 16) 16) :=
  [Vector.ofFn ![0, 1, 2, 3, 4, 5, 6, 7, 8, 9, 10, 11, 12, 13, 14, 15],
    Vector.ofFn ![14, 10, 4, 8, 9, 15, 13, 6, 1, 12, 0, 2, 11, 7, 5, 3],
    Vector.ofFn ![11, 8, 12, 0, 5, 2, 15, 13, 10, 14, 3, 6, 7, 1, 9, 4],
    Vector.ofFn ![7, 9, 3, 1, 13, 12, 11, 14, 2, 6, 5, 10, 4, 0, 15, 8],
    Vector.ofFn ![9, 0, 5, 7, 2, 4, 10, 15, 14, 1, 11, 12, 6, 8, 3, 13],
    Vector.ofFn ![2, 12, 6, 10, 0, 11, 8, 3, 4, 13, 7, 5, 15, 14, 1, 9],
    Vector.ofFn ![12, 5, 1, 15, 14, 13, 4, 10, 0, 7, 6, 3, 9, 2, 8, 11],
    Vector.ofFn ![13, 11, 7, 14, 12, 1, 3, 9, 5, 0, 15, 4, 8, 6, 2, 10],
    Vector.ofFn ![6, 15, 14, 9, 11, 3, 0, 8, 12, 2, 13, 7, 1, 4, 10, 5],
    Vector.ofFn ![10, 2, 8, 4, 7, 6, 1, 5, 15, 11, 9, 14, 3, 12, 13, 0]]

/-! ## Compression -/

/-- Rotation of a word to the right. -/
def rotateRight (x : UInt32) (n : Nat) : UInt32 := ⟨x.toBitVec.rotateRight n⟩

/-- `v[a] := v[a] + v[b] + x`. -/
def addWord (v : Vector UInt32 16) (a b : Fin 16) (x : UInt32) : Vector UInt32 16 := store v a (v.get a + v.get b + x)

/-- `v[c] := v[c] + v[d]`. -/
def add (v : Vector UInt32 16) (c d : Fin 16) : Vector UInt32 16 := store v c (v.get c + v.get d)

/-- `v[d] := (v[d] ^ v[a]) >>> n`. -/
def xorRotate (v : Vector UInt32 16) (d a : Fin 16) (n : Nat) : Vector UInt32 16 :=
  store v d (rotateRight (v.get d ^^^ v.get a) n)

/-- Section 3.1: `G`. -/
def mix (v : Vector UInt32 16) (a b c d : Fin 16) (x y : UInt32) : Vector UInt32 16 :=
  let v := addWord v a b x
  let v := xorRotate v d a 16
  let v := add v c d
  let v := xorRotate v b c 12
  let v := addWord v a b y
  let v := xorRotate v d a 8
  let v := add v c d
  xorRotate v b c 7

/-- A round. -/
def round (m v : Vector UInt32 16) (s : Vector (Fin 16) 16) : Vector UInt32 16 :=
  let v := mix v 0 4 8 12 (m.get (s.get 0)) (m.get (s.get 1))
  let v := mix v 1 5 9 13 (m.get (s.get 2)) (m.get (s.get 3))
  let v := mix v 2 6 10 14 (m.get (s.get 4)) (m.get (s.get 5))
  let v := mix v 3 7 11 15 (m.get (s.get 6)) (m.get (s.get 7))
  let v := mix v 0 5 10 15 (m.get (s.get 8)) (m.get (s.get 9))
  let v := mix v 1 6 11 12 (m.get (s.get 10)) (m.get (s.get 11))
  let v := mix v 2 7 8 13 (m.get (s.get 12)) (m.get (s.get 13))
  mix v 3 4 9 14 (m.get (s.get 14)) (m.get (s.get 15))

/-- The working vector, from the hash, the count of bytes and the flag of the last block. -/
def working (h : Vector UInt32 8) (t : Nat) (last : Bool) : Vector UInt32 16 :=
  let v : Vector UInt32 16 := h ++ iv
  let v := store v 12 (v.get 12 ^^^ UInt32.ofNat t)
  let v := store v 13 (v.get 13 ^^^ UInt32.ofNat (t / 2 ^ 32))
  if last then store v 14 (v.get 14 ^^^ 0xFFFFFFFF) else v

/-- Section 3.2: `F`. -/
def compress (h : Vector UInt32 8) (m : Vector UInt32 16) (t : Nat) (last : Bool) : Vector UInt32 8 :=
  let v := sigma.foldl (round m) (working h t last)
  Vector.ofFn fun i : Fin 8 => h.get i ^^^ v.get (i.castAdd 8) ^^^ v.get (i.addNat 8)

/-! ## Data -/

/-- A block of the data, padded with zeros. -/
def block (data : List UInt8) (i : Nat) : List UInt8 :=
  ((data.drop (64 * i)).take 64 ++ List.replicate 64 0).take 64

/-- Its words. -/
def words (block : List UInt8) : Vector UInt32 16 := Vector.ofFn fun i : Fin 16 => word block (i * 4)

/-- The hash of the first blocks. -/
def chain (h : Vector UInt32 8) (data : List UInt8) (n : Nat) : Vector UInt32 8 :=
  (List.range n).foldl (fun h i => compress h (words (block data i)) ((i + 1) * 64) false) h

/-- The number of blocks, one at least. -/
def blocks (data : List UInt8) : Nat := max 1 ((data.length + 63) / 64)

/-- The hash of all blocks. -/
def digest (h : Vector UInt32 8) (data : List UInt8) : Vector UInt32 8 :=
  compress (chain h data (blocks data - 1)) (words (block data (blocks data - 1))) data.length true

/-- The first value, from the lengths of the key and of the digest. -/
def initial (keyLength outlen : Nat) : Vector UInt32 8 :=
  store iv 0 (iv.get 0 ^^^ (0x01010000 : UInt32) ^^^ (UInt32.ofNat keyLength <<< 8) ^^^ UInt32.ofNat outlen)

/-- A key is a block in front of the message. -/
def keyBlock (key : List UInt8) : List UInt8 :=
  if key = [] then [] else (key ++ List.replicate 64 0).take 64

/-- Section 3.3. -/
def hash (key message : List UInt8) (outlen : Nat) : List UInt8 :=
  ((digest (initial key.length outlen) (keyBlock key ++ message)).toList.flatMap wordBytes).take outlen

/-! ## Laws -/

theorem block_append {data : List UInt8} {i : Nat} (h : 64 * (i + 1) ≤ data.length) (more : List UInt8) :
    block (data ++ more) i = block data i := by
  have hlen : 64 ≤ (data.drop (64 * i)).length := by
    rw [List.length_drop]
    omega
  unfold block
  rw [List.drop_append_of_le_length (by omega), List.take_append_of_le_length hlen]

/-- What is hashed of the full blocks stays what it is. -/
theorem chain_append {data : List UInt8} {n : Nat} (h : 64 * n ≤ data.length) (hash : Vector UInt32 8)
    (more : List UInt8) : chain hash (data ++ more) n = chain hash data n := by
  unfold chain
  refine List.foldl_ext _ _ _ fun h' i hi => ?_
  have hlt := List.mem_range.1 hi
  rw [block_append (by omega)]

theorem chain_succ (hash : Vector UInt32 8) (data : List UInt8) (n : Nat) :
    chain hash data (n + 1) = compress (chain hash data n) (words (block data n)) ((n + 1) * 64) false := by
  unfold chain
  rw [List.range_succ, List.foldl_append]
  rfl

/-- A block that is full. -/
theorem block_of_full {data : List UInt8} {i : Nat} (h : 64 * (i + 1) ≤ data.length) :
    block data i = (data.drop (64 * i)).take 64 := by
  unfold block
  rw [List.take_append_of_le_length, List.take_take]
  · rfl
  · rw [List.length_take, List.length_drop]
    omega

end Rfc7693
