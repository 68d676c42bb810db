/-
  File:      SwiftVpn/Lib/Bytes.lean
  Subject:   BYTES, NUMBERS AND BUFFERS.

  * `le`, `leBytes` -- the number that bytes stand for, the first one the least, and the bytes of a number;
    each is the inverse of the other (`le_leBytes`, `leBytes_le`);
  * `word`, `wordBytes` -- the same for words of 32 bits, and as shifts (`word_eq`, `wordBytes_eq`);
  * `store` -- an element of a vector that is written;
  * `write` -- bytes that are copied into a buffer;
  * `offsets` -- what a loop `while (i < n) i += k` goes through; a loop that fills a buffer block by block
    makes the blocks one after the other (`foldl_write_offsets`).
-/
import Mathlib.Data.Nat.Digits.Defs
import Mathlib.Data.List.Basic

namespace Bytes

/-! ## Numbers -/

/-- The number that bytes stand for, the first one the least. -/
def le (bs : List UInt8) : Nat := Nat.ofDigits 256 (bs.map UInt8.toNat)

/-- The last bytes of a number, the least first. -/
def leBytes : Nat → Nat → List UInt8
  | 0, _ => []
  | n + 1, v => UInt8.ofNat v :: leBytes n (v / 256)

@[simp] theorem le_nil : le [] = 0 := rfl

@[simp] theorem le_cons (b : UInt8) (bs : List UInt8) : le (b :: bs) = b.toNat + 256 * le bs := rfl

theorem le_append (xs ys : List UInt8) : le (xs ++ ys) = le xs + 256 ^ xs.length * le ys := by
  unfold le
  rw [List.map_append, Nat.ofDigits_append, List.length_map]

@[simp] theorem length_leBytes (n v : Nat) : (leBytes n v).length = n := by
  induction n generalizing v with
  | zero => rfl
  | succ n ih => rw [leBytes, List.length_cons, ih]

theorem le_leBytes (n v : Nat) : le (leBytes n v) = v % 256 ^ n := by
  induction n generalizing v with
  | zero => rw [leBytes, le_nil, pow_zero, Nat.mod_one]
  | succ n ih =>
    have hpow : 256 ^ (n + 1) = 256 * 256 ^ n := Nat.pow_succ'
    rw [leBytes, le_cons, ih, UInt8.toNat_ofNat', hpow, Nat.mod_mul]

theorem leBytes_le (bs : List UInt8) : leBytes bs.length (le bs) = bs := by
  induction bs with
  | nil => rfl
  | cons b bs ih =>
    have hdiv : (b.toNat + 256 * le bs) / 256 = le bs := by
      have := b.toNat_lt
      omega
    have hmod : UInt8.ofNat (b.toNat + 256 * le bs) = b := by
      apply UInt8.toNat_inj.1
      rw [UInt8.toNat_ofNat']
      have := b.toNat_lt
      omega
    rw [List.length_cons, leBytes, le_cons, hdiv, hmod, ih]

/-- Only the last bytes of a number are written. -/
theorem leBytes_mod (n v : Nat) : leBytes n (v % 256 ^ n) = leBytes n v := by
  have := leBytes_le (leBytes n v)
  rwa [length_leBytes, le_leBytes] at this

theorem leBytes_zero (n : Nat) : leBytes n 0 = List.replicate n 0 := by
  induction n with
  | zero => rfl
  | succ n ih => rw [leBytes, Nat.zero_div, ih, List.replicate_succ]; rfl

/-- More bytes than a number has are zero. -/
theorem leBytes_of_lt {m v : Nat} (h : v < 256 ^ m) (n : Nat) :
    leBytes (m + n) v = leBytes m v ++ List.replicate n 0 := by
  induction m generalizing v with
  | zero =>
    rw [pow_zero, Nat.lt_one_iff] at h
    rw [h, Nat.zero_add, leBytes_zero]
    rfl
  | succ m ih =>
    have hdiv : v / 256 < 256 ^ m := by
      rw [pow_succ] at h
      omega
    rw [Nat.add_right_comm, leBytes, ih hdiv, leBytes, List.cons_append]

theorem getElem_leBytes {n i : Nat} (v : Nat) (h : i < (leBytes n v).length) :
    (leBytes n v)[i] = UInt8.ofNat (v / 256 ^ i) := by
  induction n generalizing v i with
  | zero => exact absurd h (Nat.not_lt_zero i)
  | succ n ih =>
    cases i with
    | zero => rw [pow_zero, Nat.div_one]; rfl
    | succ i =>
      have hi : i < (leBytes n (v / 256)).length := by
        rw [length_leBytes] at h ⊢
        omega
      show (leBytes n (v / 256))[i] = _
      rw [ih _ hi, Nat.div_div_eq_div_mul, pow_succ, Nat.mul_comm 256]

/-- Bytes are masked one by one. -/
theorem le_zipWith_and (xs ys : List UInt8) (h : xs.length = ys.length) :
    le (List.zipWith (· &&& ·) xs ys) = le xs &&& le ys := by
  induction xs generalizing ys with
  | nil => rw [List.zipWith_nil_left, le_nil, Nat.zero_and]
  | cons x xs ih =>
    cases ys with
    | nil => cases h
    | cons y ys =>
      have hx := x.toNat_lt
      have hy := y.toNat_lt
      have hdiv : ∀ b n : Nat, b < 2 ^ 8 → (b + 256 * n) / 2 ^ 8 = n := by omega
      have hmod : ∀ b n : Nat, b < 2 ^ 8 → (b + 256 * n) % 2 ^ 8 = b := by omega
      have hlow : (le (x :: xs) &&& le (y :: ys)) % 2 ^ 8 = (x &&& y).toNat := by
        rw [Nat.and_mod_two_pow, le_cons, le_cons, hmod _ _ hx, hmod _ _ hy, UInt8.toNat_and]
      have hhigh : (le (x :: xs) &&& le (y :: ys)) / 2 ^ 8 = le xs &&& le ys := by
        rw [Nat.and_div_two_pow, le_cons, le_cons, hdiv _ _ hx, hdiv _ _ hy]
      rw [List.zipWith_cons_cons, le_cons, ih ys (by simpa using h), ← hlow, ← hhigh]
      exact Nat.mod_add_div _ (2 ^ 8)

/-! ## Words -/

instance neZero_eight : NeZero 8 := ⟨Nat.succ_ne_zero 7⟩

instance neZero_sixteen : NeZero 16 := ⟨Nat.succ_ne_zero 15⟩

section Store

variable {α : Type} {n : Nat} (v : Vector α n)

/-- `v[i] := x`. -/
def store (i : Fin n) (x : α) : Vector α n := v.set i x

theorem store_get (i : Fin n) : store v i (v.get i) = v := Vector.set_getElem_self i.isLt

@[simp] theorem get_store_self (i : Fin n) (x : α) : (store v i x).get i = x := Vector.getElem_set_self i.isLt

theorem get_store_of_ne {i j : Fin n} (h : i.val ≠ j.val) (x : α) : (store v i x).get j = v.get j :=
  Vector.getElem_set_ne i.isLt j.isLt h

theorem store_store (i : Fin n) (x y : α) : store (store v i x) i y = store v i y := Vector.set_set x i.isLt

theorem store_comm {i j : Fin n} (h : i.val ≠ j.val) (x y : α) :
    store (store v i x) j y = store (store v j y) i x :=
  Vector.set_comm x y h

end Store

/-- The word at a place. -/
def word (bs : List UInt8) (off : Nat) : UInt32 := UInt32.ofNat (le ((bs.drop off).take 4))

/-- The bytes of a word. -/
def wordBytes (x : UInt32) : List UInt8 := leBytes 4 x.toNat

@[simp] theorem length_wordBytes (x : UInt32) : (wordBytes x).length = 4 := length_leBytes 4 _

theorem wordBytes_eq (x : UInt32) :
    wordBytes x = [x.toUInt8, (x >>> 8).toUInt8, (x >>> 16).toUInt8, (x >>> 24).toUInt8] := by
  have hbyte : ∀ n : Nat, n < 32 → UInt8.ofNat (x.toNat / 2 ^ n) = (x >>> UInt32.ofNat n).toUInt8 := by
    intro n hn
    apply UInt8.toNat_inj.1
    rw [UInt8.toNat_ofNat', UInt32.toNat_toUInt8, UInt32.toNat_shiftRight, UInt32.toNat_ofNat',
      Nat.mod_eq_of_lt (by omega : n < 2 ^ 32), Nat.mod_eq_of_lt hn, Nat.shiftRight_eq_div_pow]
  have h0 : UInt8.ofNat x.toNat = x.toUInt8 := by
    apply UInt8.toNat_inj.1
    rw [UInt8.toNat_ofNat', UInt32.toNat_toUInt8]
  have h8 := hbyte 8 (by decide)
  have h16 := hbyte 16 (by decide)
  have h24 := hbyte 24 (by decide)
  unfold wordBytes
  rw [leBytes, leBytes, leBytes, leBytes, leBytes, Nat.div_div_eq_div_mul, Nat.div_div_eq_div_mul, h0]
  exact congrArg _ (congrArg₂ _ h8 (congrArg₂ _ h16 (congrArg₂ _ h24 rfl)))

/-- Four bytes, shifted into a word. -/
theorem word_eq (a b c d : UInt8) :
    UInt32.ofNat (le [a, b, c, d]) = a.toUInt32 ||| (b.toUInt32 <<< 8) ||| (c.toUInt32 <<< 16) |||
      (d.toUInt32 <<< 24) := by
  have ha := a.toNat_lt
  have hb := b.toNat_lt
  have hc := c.toNat_lt
  have hd := d.toNat_lt
  have hb' : (b.toUInt32 <<< 8).toNat = 2 ^ 8 * b.toNat := by
    rw [UInt32.toNat_shiftLeft, UInt8.toNat_toUInt32, Nat.shiftLeft_eq]
    show b.toNat * 2 ^ 8 % 2 ^ 32 = _
    omega
  have hc' : (c.toUInt32 <<< 16).toNat = 2 ^ 16 * c.toNat := by
    rw [UInt32.toNat_shiftLeft, UInt8.toNat_toUInt32, Nat.shiftLeft_eq]
    show c.toNat * 2 ^ 16 % 2 ^ 32 = _
    omega
  have hd' : (d.toUInt32 <<< 24).toNat = 2 ^ 24 * d.toNat := by
    rw [UInt32.toNat_shiftLeft, UInt8.toNat_toUInt32, Nat.shiftLeft_eq]
    show d.toNat * 2 ^ 24 % 2 ^ 32 = _
    omega
  apply UInt32.toNat_inj.1
  rw [UInt32.toNat_or, UInt32.toNat_or, UInt32.toNat_or, hb', hc', hd', UInt8.toNat_toUInt32,
    Nat.or_comm a.toNat, ← Nat.two_pow_add_eq_or_of_lt (by omega),
    Nat.or_comm (2 ^ 8 * b.toNat + a.toNat), ← Nat.two_pow_add_eq_or_of_lt (by omega),
    Nat.or_comm (2 ^ 16 * c.toNat + (2 ^ 8 * b.toNat + a.toNat)), ← Nat.two_pow_add_eq_or_of_lt (by omega),
    UInt32.toNat_ofNat', le_cons, le_cons, le_cons, le_cons, le_nil]
  omega

/-! ## Buffers -/

section Buffers

variable {α : Type}

/-- A buffer with `src` copied into it. -/
def write (dst : List α) (off : Nat) (src : List α) : List α :=
  dst.take off ++ (src ++ dst.drop (off + src.length))

theorem length_write {dst src : List α} {off : Nat} (h : off + src.length ≤ dst.length) :
    (write dst off src).length = dst.length := by
  unfold write
  rw [List.length_append, List.length_append, List.length_take, List.length_drop]
  omega

/-- What stands in a buffer up to the end of what was copied. -/
theorem take_write {dst src : List α} {off : Nat} (h : off ≤ dst.length) :
    (write dst off src).take (off + src.length) = dst.take off ++ src := by
  have hlen : (dst.take off).length = off := by
    rw [List.length_take]
    omega
  have htake : (dst.take off ++ (src ++ dst.drop (off + src.length))).take (off + src.length)
      = dst.take off ++ (src ++ dst.drop (off + src.length)).take src.length := by
    rw [List.take_append, hlen, Nat.add_sub_cancel_left, List.take_of_length_le (by omega)]
  unfold write
  rw [htake, List.take_left]

/-- What a loop `while (i < n) i += k` goes through. -/
def offsets (k n : Nat) : List Nat := (List.range ((n + k - 1) / k)).map (k * ·)

theorem mem_offsets {k n i : Nat} (hk : 0 < k) (h : i ∈ offsets k n) : i < n := by
  obtain ⟨j, hj, rfl⟩ := List.mem_map.1 h
  rw [List.mem_range, Nat.lt_div_iff_mul_lt hk] at hj
  rw [Nat.mul_comm]
  omega

/-- The first blocks, all full. -/
theorem foldl_write_range {f : Nat → List α} {k : Nat} {out : List α} (m : Nat) (hm : k * m ≤ out.length)
    (hf : ∀ j < m, (f (k * j)).length = k) :
    ((List.range m).map (k * ·)).foldl (fun out i => write out i (f i)) out
      = ((List.range m).map (k * ·)).flatMap f ++ out.drop (k * m) ∧
    (((List.range m).map (k * ·)).flatMap f).length = k * m := by
  induction m with
  | zero => simp
  | succ m ih =>
    have hstep : k * (m + 1) = k * m + k := Nat.mul_succ k m
    obtain ⟨hfold, hlen⟩ := ih (by omega) fun j hj => hf j (by omega)
    have hlast := hf m (by omega)
    rw [List.range_succ, List.map_append, List.map_singleton, List.foldl_append, List.flatMap_append, hfold,
      List.foldl_cons, List.foldl_nil, List.flatMap_singleton, List.length_append, hlen, hlast]
    refine ⟨?_, hstep.symm⟩
    unfold write
    rw [hlast, List.take_left' hlen, List.append_assoc, ← hstep, List.drop_append, hlen,
      List.drop_eq_nil_of_le (by rw [hlen]; omega), List.nil_append, List.drop_drop]
    congr 3
    omega

/-- **A buffer that is filled block by block.** -/
theorem foldl_write_offsets {f : Nat → List α} {k : Nat} (hk : 0 < k) (out : List α)
    (hf : ∀ i ∈ offsets k out.length, (f i).length = min k (out.length - i)) :
    (offsets k out.length).foldl (fun out i => write out i (f i)) out = (offsets k out.length).flatMap f := by
  unfold offsets at hf ⊢
  generalize hc : (out.length + k - 1) / k = c at hf ⊢
  have hlower : ∀ j < c, k * j < out.length := by
    intro j hj
    rw [← hc, Nat.lt_div_iff_mul_lt hk, Nat.mul_comm] at hj
    omega
  have hupper : out.length ≤ k * c := by
    have := Nat.lt_mul_div_succ (out.length + k - 1) hk
    rw [hc, Nat.mul_succ] at this
    omega
  cases c with
  | zero =>
    rw [Nat.mul_zero, Nat.le_zero, List.length_eq_zero_iff] at hupper
    rw [hupper]
    rfl
  | succ m =>
    have hm := hlower m (by omega)
    have hfull : ∀ j < m, (f (k * j)).length = k := by
      intro j hj
      have hnext : k * (j + 1) ≤ k * m := Nat.mul_le_mul_left k hj
      rw [Nat.mul_succ] at hnext
      rw [hf (k * j) (List.mem_map.2 ⟨j, List.mem_range.2 (by omega), rfl⟩)]
      omega
    have hlast : (f (k * m)).length = out.length - k * m := by
      rw [Nat.mul_succ] at hupper
      rw [hf (k * m) (List.mem_map.2 ⟨m, List.mem_range.2 (by omega), rfl⟩)]
      omega
    obtain ⟨hfold, hlen⟩ := foldl_write_range m hm.le hfull
    rw [List.range_succ, List.map_append, List.map_singleton, List.foldl_append, List.flatMap_append, hfold,
      List.foldl_cons, List.foldl_nil, List.flatMap_singleton]
    unfold write
    rw [hlast, List.take_left' hlen, List.drop_eq_nil_of_le, List.append_nil]
    rw [List.length_append, List.length_drop, hlen]

/-- A buffer that is filled by pieces of one length. -/
theorem foldl_write_finRange {n k : Nat} (hk : 0 < k) {f : Fin n → List α} (hf : ∀ i, (f i).length = k)
    {out : List α} (h : out.length = k * n) :
    (List.finRange n).foldl (fun out (i : Fin n) => write out (k * i) (f i)) out = (List.finRange n).flatMap f := by
  let g : Nat → List α := fun o => if ho : o / k < n then f ⟨o / k, ho⟩ else []
  have hg : ∀ i : Fin n, g (k * i) = f i := by
    intro i
    have hdiv : k * i.val / k = i.val := Nat.mul_div_cancel_left _ hk
    simp only [g, hdiv, i.isLt, dite_true]
  have hrange : (List.range n).map (k * ·) = (List.finRange n).map fun i : Fin n => k * i.val := by
    rw [← List.map_coe_finRange_eq_range, List.map_map]
    rfl
  have hlen : ∀ j < n, (g (k * j)).length = k := fun j hj => by rw [hg ⟨j, hj⟩, hf]
  have hfill := (foldl_write_range n h.ge hlen).1
  rw [hrange, List.foldl_map, List.flatMap_map, List.drop_eq_nil_of_le h.le, List.append_nil] at hfill
  simp only [hg] at hfill
  exact hfill

/-- A buffer that is filled from its end. -/
theorem foldl_set_back (f : Nat → α) (g : Nat → Nat) (out : List α) (m : Nat) (h : m ≤ out.length)
    (hg : ∀ i < m, g i = out.length - 1 - i) :
    (List.range m).foldl (fun out i => out.set (g i) (f i)) out
      = out.take (out.length - m) ++ ((List.range m).map f).reverse := by
  induction m with
  | zero => simp
  | succ m ih =>
    have hm : m < out.length := h
    have hfront : out.take (out.length - m) = out.take (out.length - (m + 1)) ++ [out[out.length - (m + 1)]] := by
      have hsub : out.length - m = out.length - (m + 1) + 1 := by omega
      rw [hsub, List.take_succ_eq_append_getElem (by omega)]
    have hplace : out.length - 1 - m - (out.length - (m + 1)) = 0 := by omega
    rw [List.range_succ, List.foldl_append, ih hm.le fun i hi => hg i (by omega), List.foldl_cons,
      List.foldl_nil, hg m (by omega), hfront, List.append_assoc,
      List.set_append_right _ _ (by rw [List.length_take]; omega), List.length_take,
      Nat.min_eq_left (by omega), hplace]
    simp

end Buffers

end Bytes
