/-
  File:      SwiftVpn/Lib/Text.lean
  Subject:   WHAT THE JVM DOES WITH TEXT, ON LISTS OF CHARACTERS.

  A text is a list of Unicode characters; where the platform counts UTF-16 units, so does `length`.

  * `foldCase`, `equalsIgnoreCase`, `startsWithIgnoreCase`, `containsIgnoreCase` -- comparison with an
    ASCII text, case ignored as the platform ignores it; `lowercase`;
  * `strip` -- a text without the characters of a class at its ends;
  * `digitOf`, `parseInteger` -- numbers in a base, with the decimal digits of every script;
  * `padded` -- decimal numbers of a fixed width, ordered as numbers (`padded_lt`);
  * `toUtf16`, `fromUtf16` -- the units of a text, and the text behind units without a lone surrogate;
  * `cutFirst`, `cutLast` -- the texts around the first and the last occurrence of a character.
-/
import Mathlib.Algebra.Order.Ring.Int
import Mathlib.Data.List.DropRight

namespace Text

/-- A statement about the characters of a list is decided along the list: the instance for statements about
    all characters there are would be tried first. -/
instance (priority := 1100) decidableForallMem (p : Char → Prop) [DecidablePred p] (cs : List Char) :
    Decidable (∀ c ∈ cs, p c) :=
  List.decidableBAll p cs

/-! ## 1. Case -/

/-- The ASCII letter a character is equal to when case is ignored; the long s, the dotless and the
    dotted i and the Kelvin sign are the only ones outside ASCII. -/
def foldCase (c : Char) : Char :=
  match c.toNat with
  | 0x17F => 's'
  | 0x130 => 'i'
  | 0x131 => 'i'
  | 0x212A => 'k'
  | _ => c.toLower

/-- `lowercase()`, as far as an ASCII text can see it: the Kelvin sign is the one character outside
    ASCII that becomes an ASCII letter. -/
def lowercase (cs : List Char) : List Char :=
  cs.map fun c => if c.toNat = 0x212A then 'k' else c.toLower

/-- Equality with the ASCII text `lit`, case ignored. -/
def equalsIgnoreCase (cs lit : List Char) : Bool := cs.map foldCase == lit.map foldCase

/-- `startsWith(lit, ignoreCase = true)`. -/
def startsWithIgnoreCase (cs lit : List Char) : Bool :=
  (lit.map foldCase).isPrefixOf (cs.map foldCase)

/-- `contains(lit, ignoreCase = true)`. -/
def containsIgnoreCase (lit : List Char) : List Char → Bool
  | [] => lit.isEmpty
  | c :: cs => startsWithIgnoreCase (c :: cs) lit || containsIgnoreCase lit cs

theorem containsIgnoreCase_iff {lit cs : List Char} :
    containsIgnoreCase lit cs = true ↔ lit.map foldCase <:+: cs.map foldCase := by
  induction cs with
  | nil => simp [containsIgnoreCase, List.infix_nil]
  | cons c cs ih =>
    rw [containsIgnoreCase, Bool.or_eq_true, ih, startsWithIgnoreCase, List.isPrefixOf_iff_prefix,
      List.map_cons, List.infix_cons_iff]

/-- What folds to no letter of the text is not needed to find it: it is found before or behind. -/
theorem infix_append_cons {lit xs ys : List Char} {x : Char} (hx : x ∉ lit)
    (h : lit <:+: xs ++ x :: ys) : lit <:+: xs ∨ lit <:+: ys := by
  obtain ⟨p, q, h⟩ := h
  rcases List.append_eq_append_iff.1 h with ⟨t, rfl, -⟩ | ⟨t, hp, hq⟩
  · exact .inl ⟨p, t, rfl⟩
  · cases t with
    | nil => exact .inl ⟨p, [], by simpa using hp⟩
    | cons d t =>
      rw [List.cons_append, List.cons.injEq] at hq
      obtain ⟨rfl, rfl⟩ := hq
      rcases List.append_eq_append_iff.1 hp with ⟨u, -, hu⟩ | ⟨u, -, hu⟩
      · exact absurd (hu ▸ List.mem_append_right u List.mem_cons_self) hx
      · cases u with
        | nil => exact absurd (show x ∈ lit from List.nil_append lit ▸ hu ▸ List.mem_cons_self) hx
        | cons e u =>
          rw [List.cons_append, List.cons.injEq] at hu
          exact .inr ⟨u, q, by rw [hu.2]⟩

/-- A text is searched in two parts around a character that is none of the sought ones. -/
theorem containsIgnoreCase_append_cons {lit : List Char} {x : Char}
    (hx : foldCase x ∉ lit.map foldCase) (xs ys : List Char) :
    containsIgnoreCase lit (xs ++ x :: ys)
      = (containsIgnoreCase lit xs || containsIgnoreCase lit ys) := by
  rw [Bool.eq_iff_iff, Bool.or_eq_true, containsIgnoreCase_iff, containsIgnoreCase_iff,
    containsIgnoreCase_iff, List.map_append, List.map_cons]
  constructor
  · exact infix_append_cons hx
  · rintro (h | h)
    · exact h.trans (List.prefix_append _ _).isInfix
    · exact h.trans ((List.suffix_cons _ _).trans (List.suffix_append _ _)).isInfix

/-- A start without the character `x` ends before it. -/
theorem prefix_append_cons {lit xs ys : List Char} {x : Char} (hx : x ∉ lit)
    (h : lit <+: xs ++ x :: ys) : lit <+: xs := by
  obtain ⟨q, h⟩ := h
  rcases List.append_eq_append_iff.1 h with ⟨t, rfl, -⟩ | ⟨t, hp, hq⟩
  · exact List.prefix_append lit t
  · cases t with
    | nil => exact ⟨[], by simpa using hp⟩
    | cons d t =>
      rw [List.cons_append, List.cons.injEq] at hq
      obtain ⟨rfl, -⟩ := hq
      exact absurd (hp ▸ List.mem_append_right xs List.mem_cons_self) hx

/-- A text that ends in `a` and the first `x`, with no `a` behind that, is found right there. -/
theorem getLast?_of_infix (lit : List Char) {xs ys : List Char} {a x : Char} (hx : x ∉ xs) (ha : a ∉ x :: ys)
    (h : lit ++ [a, x] <:+: xs ++ x :: ys) : xs.getLast? = some a := by
  obtain ⟨p, q, h⟩ := h
  have hsplit : (p ++ lit ++ [a]) ++ x :: q = xs ++ x :: ys := by simpa using h
  rcases List.append_eq_append_iff.1 hsplit with ⟨t, ht, hq⟩ | ⟨t, ht, hy⟩
  · cases t with
    | nil => simp [ht]
    | cons d t =>
      rw [List.cons_append, List.cons.injEq] at hq
      exact absurd (ht ▸ List.mem_append_right _ (hq.1 ▸ List.mem_cons_self)) hx
  · rcases List.eq_nil_or_concat t with rfl | ⟨t, d, rfl⟩
    · rw [List.append_nil] at ht
      simp [← ht]
    · have hd : a = d := by
        have := congrArg List.getLast? ht
        simpa using this
      have hmem : a ∈ x :: ys := by
        rw [hy, hd]
        simp
      exact absurd hmem ha

theorem toLower_of_not_upper {c : Char} (h : ¬ (65 ≤ c.toNat ∧ c.toNat ≤ 90)) : c.toLower = c := dif_neg h

/-- Only letters are folded. -/
theorem eq_of_foldCase {c x : Char} (h : foldCase c = x) (hx : ¬ (97 ≤ x.toNat ∧ x.toNat ≤ 122)) :
    c = x := by
  unfold foldCase at h
  split at h
  · exact absurd (h ▸ (by decide)) hx
  · exact absurd (h ▸ (by decide)) hx
  · exact absurd (h ▸ (by decide)) hx
  · exact absurd (h ▸ (by decide)) hx
  · delta Char.toLower at h
    split at h
    · rename_i hc
      have hval : (c.val + ('a'.val - 'A'.val)).toNat = x.toNat :=
        congrArg (fun c : Char => c.val.toNat) h
      have hlo : 65 ≤ c.val.toNat := hc.1
      have hhi : c.val.toNat ≤ 90 := hc.2
      have hd : ('a'.val - 'A'.val).toNat = 32 := rfl
      rw [UInt32.toNat_add] at hval
      omega
    · exact h

/-- A text with a `=` in it is in no text without one. -/
theorem containsIgnoreCase_of_not_mem {lit cs : List Char} (hlit : '=' ∈ lit) (h : '=' ∉ cs) :
    containsIgnoreCase lit cs = false := by
  rw [Bool.eq_false_iff]
  intro hc
  have hmem := (containsIgnoreCase_iff.1 hc).mem (List.mem_map_of_mem hlit)
  obtain ⟨c, hm, hf⟩ := List.mem_map.1 hmem
  have hc : c = '=' := eq_of_foldCase hf (by decide)
  exact h (hc ▸ hm)

/-! ## 2. Numbers -/

/-- The zeros of the decimal digits, ten code points each. -/
def zeros : List Nat :=
  [0x30, 0x660, 0x6F0, 0x7C0, 0x966, 0x9E6, 0xA66, 0xAE6, 0xB66, 0xBE6, 0xC66, 0xCE6, 0xD66, 0xDE6,
    0xE50, 0xED0, 0xF20, 0x1040, 0x1090, 0x17E0, 0x1810, 0x1946, 0x19D0, 0x1A80, 0x1A90, 0x1B50,
    0x1BB0, 0x1C40, 0x1C50, 0xA620, 0xA8D0, 0xA900, 0xA9D0, 0xA9F0, 0xAA50, 0xABF0, 0xFF10]

/-- `Character.digit`, for a base up to sixteen. -/
def digitOf (base : Nat) (c : Char) : Option Nat :=
  let n := c.toNat
  let value :=
    match zeros.find? fun z => z ≤ n && n < z + 10 with
    | some z => some (n - z)
    | none =>
      if (0x41 ≤ n && n ≤ 0x46) || (0xFF21 ≤ n && n ≤ 0xFF26) then some (n % 32 + 9)
      else if (0x61 ≤ n && n ≤ 0x66) || (0xFF41 ≤ n && n ≤ 0xFF46) then some (n % 32 + 9)
      else none
  value.filter (· < base)

/-- The value of a run of digits, behind digits worth `n`. -/
def digitsFrom (base : Nat) : Nat → List Char → Option Nat
  | n, [] => some n
  | n, c :: cs => (digitOf base c).bind fun d => digitsFrom base (base * n + d) cs

/-- The value of a nonempty run of digits. -/
def digitsValue (base : Nat) (cs : List Char) : Option Nat :=
  if cs.isEmpty then none else digitsFrom base 0 cs

/-- A number of `bits` bits with an optional sign, or nothing. -/
def parseInteger (bits base : Nat) (cs : List Char) : Option Int :=
  let value :=
    match cs with
    | '-' :: ds => (digitsValue base ds).map fun n => -Int.ofNat n
    | '+' :: ds => (digitsValue base ds).map Int.ofNat
    | ds => (digitsValue base ds).map Int.ofNat
  value.filter fun n => -(2 ^ (bits - 1) : Int) ≤ n && n < (2 ^ (bits - 1) : Int)

theorem digitOf_digitChar {n : Nat} (h : n < 10) : digitOf 10 n.digitChar = some n := by
  have hall : ∀ n < 10, digitOf 10 n.digitChar = some n := by decide
  exact hall n h

theorem digitsFrom_append (base n : Nat) (xs ys : List Char) :
    digitsFrom base n (xs ++ ys) = (digitsFrom base n xs).bind fun m => digitsFrom base m ys := by
  induction xs generalizing n with
  | nil => rfl
  | cons c xs ih =>
    rw [List.cons_append, digitsFrom, digitsFrom, Option.bind_assoc]
    congr 1
    funext d
    exact ih _

theorem digitsFrom_toDigits (n : Nat) : digitsFrom 10 0 (Nat.toDigits 10 n) = some n := by
  induction n using Nat.strongRecOn with
  | _ n ih =>
    by_cases hn : n < 10
    · rw [Nat.toDigits_of_lt_base hn, digitsFrom, digitOf_digitChar hn]
      simp [digitsFrom]
    · have hlast : digitOf 10 (n % 10).digitChar = some (n % 10) :=
        digitOf_digitChar (Nat.mod_lt n (by decide))
      have hsum : 10 * (n / 10) + n % 10 = n := Nat.div_add_mod n 10
      rw [Nat.toDigits_of_base_le (by decide) (by omega), digitsFrom_append, ih (n / 10) (by omega),
        Option.bind_some, digitsFrom, hlast, Option.bind_some, hsum, digitsFrom]

theorem digitsValue_toDigits (n : Nat) : digitsValue 10 (Nat.toDigits 10 n) = some n := by
  have hne : (Nat.toDigits 10 n).isEmpty = false := by
    rw [List.isEmpty_eq_false_iff]
    exact Nat.toDigits_ne_nil
  unfold digitsValue
  rw [hne, if_neg (by decide)]
  exact digitsFrom_toDigits n

/-- A number that fits is read back from its decimal text. -/
theorem parseInteger_toString {bits : Nat} {n : Int} (hlo : -(2 ^ (bits - 1) : Int) ≤ n)
    (hhi : n < (2 ^ (bits - 1) : Int)) : parseInteger bits 10 (toString n).toList = some n := by
  have hfilter : (some n).filter
      (fun n => -(2 ^ (bits - 1) : Int) ≤ n && n < (2 ^ (bits - 1) : Int)) = some n := by
    simp [Option.filter, hlo, hhi]
  rw [Int.toString_eq_repr, Int.repr_eq_if]
  split
  · rename_i h0
    have hread : digitsValue 10 (Nat.toDigits 10 n.toNat) = some n.toNat := digitsValue_toDigits _
    rw [Nat.toList_repr]
    -- no digit is a sign
    have hsign : ∀ c ∈ Nat.toDigits 10 n.toNat, c ≠ '-' ∧ c ≠ '+' := by
      intro c hc
      have hd := Nat.isDigit_of_mem_toDigits (by decide) (by decide) hc
      constructor <;> (rintro rfl; revert hd; decide)
    unfold parseInteger
    cases hds : Nat.toDigits 10 n.toNat with
    | nil => exact absurd hds Nat.toDigits_ne_nil
    | cons d ds =>
      have hd := hsign d (hds ▸ List.mem_cons_self)
      rw [hds] at hread
      have hn : Int.ofNat n.toNat = n := Int.toNat_of_nonneg h0
      split
      · rename_i heq
        cases heq
        exact absurd rfl hd.1
      · rename_i heq
        cases heq
        exact absurd rfl hd.2
      · rename_i heq _ _
        rw [hread, Option.map_some, hn, hfilter]
  · rename_i h0
    have hread : digitsValue 10 (Nat.toDigits 10 (-n).toNat) = some (-n).toNat :=
      digitsValue_toDigits _
    have hn : -Int.ofNat (-n).toNat = n := by
      have := Int.toNat_of_nonneg (show 0 ≤ -n by omega)
      rw [Int.ofNat_eq_natCast, this, Int.neg_neg]
    have htext : ("-" ++ (-n).toNat.repr).toList = '-' :: Nat.toDigits 10 (-n).toNat := by
      rw [String.toList_append, Nat.toList_repr]
      rfl
    rw [htext]
    unfold parseInteger
    simp only
    rw [hread, Option.map_some, hn, hfilter]

/-- A number that was read fits. -/
theorem parseInteger_bounds {bits base : Nat} {cs : List Char} {n : Int}
    (h : parseInteger bits base cs = some n) :
    -(2 ^ (bits - 1) : Int) ≤ n ∧ n < (2 ^ (bits - 1) : Int) := by
  unfold parseInteger at h
  have hfits := (Option.filter_eq_some_iff.1 h).2
  simpa using hfits

/-- A character of a decimal number. -/
def isNumeral (c : Char) : Bool := c == '-' || c == '+' || (digitOf 10 c).isSome

/-- Decimal digits are ASCII digits or stand in the blocks of the other scripts. -/
theorem toNat_of_digitOf {c : Char} (h : (digitOf 10 c).isSome = true) :
    ∃ z ∈ zeros, z ≤ c.toNat ∧ c.toNat < z + 10 := by
  unfold digitOf at h
  dsimp only at h
  cases hz : zeros.find? fun z => z ≤ c.toNat && c.toNat < z + 10 with
  | some z => exact ⟨z, List.mem_of_find?_eq_some hz, by simpa using List.find?_some hz⟩
  | none =>
    rw [hz] at h
    dsimp only at h
    obtain ⟨d, hd⟩ := Option.isSome_iff_exists.1 h
    obtain ⟨hd, hlt⟩ := Option.filter_eq_some_iff.1 hd
    rw [decide_eq_true_eq] at hlt
    split at hd
    · rename_i hc
      cases hd
      simp only [Bool.or_eq_true, Bool.and_eq_true, decide_eq_true_eq] at hc
      omega
    · split at hd
      · rename_i hc
        cases hd
        simp only [Bool.or_eq_true, Bool.and_eq_true, decide_eq_true_eq] at hc
        omega
      · cases hd

theorem isNumeral_of_digitsFrom {cs : List Char} {n m : Nat} (h : digitsFrom 10 n cs = some m) :
    ∀ c ∈ cs, isNumeral c = true := by
  induction cs generalizing n with
  | nil => exact nofun
  | cons c cs ih =>
    obtain ⟨d, hd, hrest⟩ := Option.bind_eq_some_iff.1 h
    exact List.forall_mem_cons.2 ⟨by simp [isNumeral, hd], ih hrest⟩

/-- A number that was read has nothing but a sign and digits. -/
theorem isNumeral_of_parseInteger {bits : Nat} {cs : List Char} {n : Int}
    (h : parseInteger bits 10 cs = some n) : ∀ c ∈ cs, isNumeral c = true := by
  have hvalue : ∀ {ds : List Char} {m : Nat}, digitsValue 10 ds = some m → ∀ c ∈ ds, isNumeral c = true := by
    intro ds m hds
    unfold digitsValue at hds
    split at hds
    · cases hds
    · exact isNumeral_of_digitsFrom hds
  unfold parseInteger at h
  have hread := (Option.filter_eq_some_iff.1 h).1
  split at hread
  · obtain ⟨m, hm, -⟩ := Option.map_eq_some_iff.1 hread
    exact List.forall_mem_cons.2 ⟨rfl, hvalue hm⟩
  · obtain ⟨m, hm, -⟩ := Option.map_eq_some_iff.1 hread
    exact List.forall_mem_cons.2 ⟨rfl, hvalue hm⟩
  · obtain ⟨m, hm, -⟩ := Option.map_eq_some_iff.1 hread
    exact hvalue hm

/-! ## 3. UTF-16 -/

/-- The units of a character. -/
def unitsOf (c : Char) : List Nat :=
  let n := c.toNat
  if n < 0x10000 then [n]
  else [0xD800 + (n - 0x10000) / 0x400, 0xDC00 + (n - 0x10000) % 0x400]

/-- The units of a text. -/
def toUtf16 (cs : List Char) : List Nat := cs.flatMap unitsOf

/-- The platform's length of a text. -/
def length (cs : List Char) : Nat := (toUtf16 cs).length

/-- The text behind units, if no surrogate stands alone. -/
def fromUtf16 : List Nat → Option (List Char)
  | [] => some []
  | u :: us =>
    if 0xD800 ≤ u ∧ u ≤ 0xDBFF then
      match us with
      | v :: rest =>
        if 0xDC00 ≤ v ∧ v ≤ 0xDFFF then
          (fromUtf16 rest).map (Char.ofNat (0x10000 + (u - 0xD800) * 0x400 + (v - 0xDC00)) :: ·)
        else none
      | [] => none
    else if 0xDC00 ≤ u ∧ u ≤ 0xDFFF then none
    else (fromUtf16 us).map (Char.ofNat u :: ·)

theorem length_of_ascii {cs : List Char} (h : ∀ c ∈ cs, c.toNat < 0x80) :
    length cs = cs.length := by
  induction cs with
  | nil => rfl
  | cons c cs ih =>
    have hc : unitsOf c = [c.toNat] := by
      have := h c List.mem_cons_self
      unfold unitsOf
      exact if_pos (by omega)
    have hrest := ih fun d hd => h d (List.mem_cons_of_mem c hd)
    unfold length toUtf16 at hrest ⊢
    rw [List.flatMap_cons, hc, List.length_append, hrest, List.length_singleton, List.length_cons]
    omega

/-- A character is no surrogate. -/
theorem toNat_valid (c : Char) : c.toNat < 0xD800 ∨ (0xDFFF < c.toNat ∧ c.toNat < 0x110000) :=
  c.valid

theorem fromUtf16_unitsOf (c : Char) (us : List Nat) :
    fromUtf16 (unitsOf c ++ us) = (fromUtf16 us).map (c :: ·) := by
  have hvalid := toNat_valid c
  unfold unitsOf
  dsimp only
  split
  · rename_i hsmall
    simp only [List.cons_append, List.nil_append]
    rw [fromUtf16.eq_def]
    dsimp only
    rw [if_neg (by omega), if_neg (by omega), Char.ofNat_toNat]
  · rename_i hbig
    have hback : 0x10000 + (0xD800 + (c.toNat - 0x10000) / 0x400 - 0xD800) * 0x400
        + (0xDC00 + (c.toNat - 0x10000) % 0x400 - 0xDC00) = c.toNat := by omega
    simp only [List.cons_append, List.nil_append]
    rw [fromUtf16.eq_def]
    dsimp only
    rw [if_pos (by omega), if_pos (by omega), hback, Char.ofNat_toNat]

/-- The units of a text give the text back. -/
theorem fromUtf16_toUtf16 (cs : List Char) : fromUtf16 (toUtf16 cs) = some cs := by
  induction cs with
  | nil => rfl
  | cons c cs ih =>
    unfold toUtf16 at ih ⊢
    rw [List.flatMap_cons, fromUtf16_unitsOf, ih, Option.map_some]

/-! ## 4. Parts -/

/-- The texts before and behind the first `x`. -/
def cutFirst (x : Char) (cs : List Char) : Option (List Char × List Char) :=
  if x ∈ cs then some (cs.takeWhile (· ≠ x), (cs.dropWhile (· ≠ x)).tail) else none

/-- The texts before and behind the last `x`. -/
def cutLast (x : Char) (cs : List Char) : Option (List Char × List Char) :=
  (cutFirst x cs.reverse).map fun (r, l) => (l.reverse, r.reverse)

theorem cutFirst_append {x : Char} {xs : List Char} (h : x ∉ xs) (ys : List Char) :
    cutFirst x (xs ++ x :: ys) = some (xs, ys) := by
  have hpos : ∀ c ∈ xs, decide (c ≠ x) = true := by
    intro c hc
    rw [decide_eq_true_eq]
    rintro rfl
    exact h hc
  unfold cutFirst
  rw [if_pos (by simp), List.takeWhile_append_of_pos hpos, List.dropWhile_append_of_pos hpos]
  simp

/-- A text has one first `x`. -/
theorem append_cons_inj {x : Char} {xs xs' ys ys' : List Char} (h : xs ++ x :: ys = xs' ++ x :: ys')
    (hx : x ∉ xs) (hx' : x ∉ xs') : xs = xs' ∧ ys = ys' := by
  have hcut := cutFirst_append hx ys
  rw [h, cutFirst_append hx' ys'] at hcut
  have hpair := Prod.mk.inj (Option.some.inj hcut)
  exact ⟨hpair.1.symm, hpair.2.symm⟩

theorem cutFirst_of_not_mem {x : Char} {cs : List Char} (h : x ∉ cs) : cutFirst x cs = none :=
  if_neg h

theorem cutLast_append {x : Char} {ys : List Char} (h : x ∉ ys) (xs : List Char) :
    cutLast x (xs ++ x :: ys) = some (xs, ys) := by
  have hrev : (xs ++ x :: ys).reverse = ys.reverse ++ x :: xs.reverse := by simp
  unfold cutLast
  rw [hrev, cutFirst_append (by simpa using h)]
  simp

theorem cutLast_of_not_mem {x : Char} {cs : List Char} (h : x ∉ cs) : cutLast x cs = none := by
  unfold cutLast
  rw [cutFirst_of_not_mem (by simpa using h)]
  rfl

theorem cutFirst_eq_some {x : Char} {cs xs ys : List Char} (h : cutFirst x cs = some (xs, ys)) :
    cs = xs ++ x :: ys := by
  unfold cutFirst at h
  split at h
  · rename_i hm
    cases h
    have hsplit := List.takeWhile_append_dropWhile (p := fun c => decide (c ≠ x)) (l := cs)
    cases hd : cs.dropWhile (fun c => decide (c ≠ x)) with
    | nil =>
      rw [hd, List.append_nil] at hsplit
      rw [← hsplit] at hm
      have := List.all_eq_true.1 List.all_takeWhile x hm
      simp at this
    | cons d ds =>
      have hne := List.head?_dropWhile_not (fun c => decide (c ≠ x)) cs
      rw [hd] at hne
      have hdx : d = x := by simpa using hne
      rw [hd, hdx] at hsplit
      exact hsplit.symm
  · cases h

theorem cutLast_eq_some {x : Char} {cs xs ys : List Char} (h : cutLast x cs = some (xs, ys)) :
    cs = xs ++ x :: ys := by
  unfold cutLast at h
  obtain ⟨⟨r, l⟩, hcut, he⟩ := Option.map_eq_some_iff.1 h
  cases he
  rw [← List.reverse_inj, cutFirst_eq_some hcut]
  simp

theorem not_mem_of_cutFirst {x : Char} {cs xs ys : List Char} (h : cutFirst x cs = some (xs, ys)) :
    x ∉ xs := by
  unfold cutFirst at h
  split at h
  · cases h
    intro hm
    have := List.all_eq_true.1 List.all_takeWhile x hm
    simp at this
  · cases h

theorem not_mem_of_cutLast {x : Char} {cs xs ys : List Char} (h : cutLast x cs = some (xs, ys)) :
    x ∉ ys := by
  unfold cutLast at h
  obtain ⟨⟨r, l⟩, hcut, he⟩ := Option.map_eq_some_iff.1 h
  cases he
  rw [List.mem_reverse]
  exact not_mem_of_cutFirst hcut

theorem not_mem_of_cutLast_none {x : Char} {cs : List Char} (h : cutLast x cs = none) : x ∉ cs := by
  unfold cutLast cutFirst at h
  rw [Option.map_eq_none_iff] at h
  split at h
  · cases h
  · rename_i hm
    rwa [List.mem_reverse] at hm

/-- What stands in a part of a text stands in the text, and is no separator. -/
theorem mem_of_mem_splitOnP {sep : Char → Bool} {cs part : List Char} (h : part ∈ cs.splitOnP sep)
    {c : Char} (hc : c ∈ part) : c ∈ cs ∧ sep c = false := by
  induction cs generalizing part with
  | nil =>
    rw [List.splitOnP_nil, List.mem_singleton] at h
    subst h
    cases hc
  | cons d cs ih =>
    have htail : ∀ {part}, part ∈ cs.splitOnP sep → c ∈ part → c ∈ d :: cs ∧ sep c = false :=
      fun hp hc => ⟨List.mem_cons_of_mem d (ih hp hc).1, (ih hp hc).2⟩
    rw [List.splitOnP_cons_eq_if_modifyHead] at h
    split at h
    · rcases List.mem_cons.1 h with rfl | h
      · cases hc
      · exact htail h hc
    · rename_i hd
      cases hsplit : cs.splitOnP sep with
      | nil => exact absurd hsplit (List.splitOnP_ne_nil _ _)
      | cons w ws =>
        rw [hsplit] at htail h
        rcases List.mem_cons.1 h with rfl | h
        · rcases List.mem_cons.1 hc with rfl | hc
          · exact ⟨List.mem_cons_self, by simpa using hd⟩
          · exact htail List.mem_cons_self hc
        · exact htail (List.mem_cons_of_mem w h) hc

/-- A part of a text stands in it. -/
theorem infix_of_mem_splitOnP {sep : Char → Bool} {cs part : List Char} (h : part ∈ cs.splitOnP sep) :
    part <:+: cs := by
  have hparts : ∀ w ws, cs.splitOnP sep = w :: ws → w <+: cs ∧ ∀ v ∈ ws, v <:+: cs := by
    clear h
    induction cs with
    | nil =>
      intro w ws hsplit
      rw [List.splitOnP_nil, List.cons.injEq] at hsplit
      obtain ⟨rfl, rfl⟩ := hsplit
      exact ⟨List.prefix_refl _, fun v hv => absurd hv List.not_mem_nil⟩
    | cons c cs ih =>
      intro w ws hsplit
      obtain ⟨v, vs, hrest⟩ := List.exists_cons_of_ne_nil (List.splitOnP_ne_nil sep cs)
      obtain ⟨hhead, htail⟩ := ih v vs hrest
      rw [List.splitOnP_cons_eq_if_modifyHead, hrest] at hsplit
      split at hsplit
      · obtain ⟨rfl, rfl⟩ := List.cons.inj hsplit
        refine ⟨List.nil_prefix, fun u hu => ?_⟩
        rcases List.mem_cons.1 hu with rfl | hu
        · exact List.infix_cons hhead.isInfix
        · exact List.infix_cons (htail u hu)
      · obtain ⟨rfl, rfl⟩ := List.cons.inj hsplit
        exact ⟨(List.prefix_cons_inj c).2 hhead, fun u hu => List.infix_cons (htail u hu)⟩
  obtain ⟨w, ws, hsplit⟩ := List.exists_cons_of_ne_nil (List.splitOnP_ne_nil sep cs)
  obtain ⟨hhead, htail⟩ := hparts w ws hsplit
  rw [hsplit] at h
  rcases List.mem_cons.1 h with rfl | h
  · exact hhead.isInfix
  · exact htail part h

/-! ## 5. Ends -/

/-- A text without the characters of a class at its ends. -/
def strip (p : Char → Bool) (cs : List Char) : List Char := ((cs.dropWhile p).reverse.dropWhile p).reverse

/-- What is taken away. -/
theorem exists_strip (p : Char → Bool) (cs : List Char) :
    ∃ xs ys, cs = xs ++ strip p cs ++ ys ∧ (∀ c ∈ xs, p c = true) ∧ ∀ c ∈ ys, p c = true := by
  have hright := List.takeWhile_append_dropWhile (p := p) (l := (cs.dropWhile p).reverse)
  have hleft := List.takeWhile_append_dropWhile (p := p) (l := cs)
  refine ⟨cs.takeWhile p, ((cs.dropWhile p).reverse.takeWhile p).reverse, ?_, ?_, ?_⟩
  · have hback := congrArg List.reverse hright
    rw [List.reverse_append, List.reverse_reverse] at hback
    rw [strip, List.append_assoc, hback, hleft]
  · exact fun c hc => List.all_eq_true.1 List.all_takeWhile c hc
  · exact fun c hc => List.all_eq_true.1 List.all_takeWhile c (List.mem_reverse.1 hc)

/-- A class that has none of the characters taken away does not see the difference. -/
theorem filter_strip {p q : Char → Bool} (h : ∀ c, p c = true → q c = false) (cs : List Char) :
    (strip p cs).filter q = cs.filter q := by
  obtain ⟨xs, ys, hcs, hxs, hys⟩ := exists_strip p cs
  have hnil : ∀ zs : List Char, (∀ c ∈ zs, p c = true) → zs.filter q = [] := by
    intro zs hzs
    rw [List.filter_eq_nil_iff]
    intro c hc
    rw [h c (hzs c hc)]
    exact Bool.false_ne_true
  conv_rhs => rw [hcs]
  rw [List.filter_append, List.filter_append, hnil xs hxs, hnil ys hys, List.nil_append, List.append_nil]

theorem strip_eq (p : Char → Bool) (cs : List Char) : strip p cs = (cs.dropWhile p).rdropWhile p := rfl

section Classes

variable {p q : Char → Bool} {xs ys : List Char}

theorem exists_rdropWhile (p : Char → Bool) (cs : List Char) :
    ∃ ys, cs = cs.rdropWhile p ++ ys ∧ ∀ c ∈ ys, p c = true := by
  induction cs using List.reverseRecOn with
  | nil => exact ⟨[], rfl, nofun⟩
  | append_singleton cs c ih =>
    cases hc : p c with
    | false =>
      rw [List.rdropWhile_concat_neg p cs c (by simp [hc])]
      exact ⟨[], by simp, nofun⟩
    | true =>
      obtain ⟨ys, hcs, hys⟩ := ih
      rw [List.rdropWhile_concat_pos p cs c hc]
      refine ⟨ys ++ [c], ?_, ?_⟩
      · rw [← List.append_assoc, ← hcs]
      · simpa [or_imp, forall_and, hc] using hys

theorem rdropWhile_append (h : ∀ c ∈ ys, p c = true) (xs : List Char) :
    (xs ++ ys).rdropWhile p = xs.rdropWhile p := by
  induction ys using List.reverseRecOn with
  | nil => rw [List.append_nil]
  | append_singleton ys c ih =>
    rw [← List.append_assoc, List.rdropWhile_concat_pos p (xs ++ ys) c (h c (by simp)),
      ih fun d hd => h d (List.mem_append_left _ hd)]

theorem rdropWhile_append_cons {c : Char} (hc : p c = false) (xs ys : List Char) :
    (xs ++ c :: ys).rdropWhile p = xs ++ c :: ys.rdropWhile p := by
  induction ys using List.reverseRecOn with
  | nil => rw [List.rdropWhile_concat_neg p xs c (by simp [hc]), List.rdropWhile_nil]
  | append_singleton ys d ih =>
    have hsplit : xs ++ c :: (ys ++ [d]) = (xs ++ c :: ys) ++ [d] := by simp
    rw [hsplit]
    cases hd : p d with
    | true => rw [List.rdropWhile_concat_pos p _ d hd, List.rdropWhile_concat_pos p _ d hd, ih]
    | false =>
      rw [List.rdropWhile_concat_neg p _ d (by simp [hd]), List.rdropWhile_concat_neg p _ d (by simp [hd]),
        hsplit]

theorem strip_append_left (h : ∀ c ∈ xs, p c = true) (ys : List Char) : strip p (xs ++ ys) = strip p ys := by
  rw [strip_eq, strip_eq, List.dropWhile_append_of_pos h]

theorem strip_append_right (h : ∀ c ∈ ys, p c = true) (xs : List Char) :
    strip p (xs ++ ys) = strip p xs := by
  rw [strip_eq, strip_eq, List.dropWhile_append]
  split
  · rename_i hnil
    rw [List.isEmpty_iff] at hnil
    rw [hnil, List.dropWhile_eq_nil_iff.2 h]
  · exact rdropWhile_append h _

theorem dropWhile_congr {cs : List Char} (h : ∀ c ∈ cs, p c = q c) : cs.dropWhile p = cs.dropWhile q := by
  induction cs with
  | nil => rfl
  | cons d ds ih =>
    obtain ⟨hd, hds⟩ := List.forall_mem_cons.1 h
    rw [List.dropWhile_cons, List.dropWhile_cons, hd, ih hds]

theorem strip_congr {cs : List Char} (h : ∀ c ∈ cs, p c = q c) : strip p cs = strip q cs := by
  unfold strip
  rw [dropWhile_congr h,
    dropWhile_congr fun c hc => h c ((List.dropWhile_sublist _).mem (List.mem_reverse.1 hc))]

theorem rdropWhile_congr {cs : List Char} (h : ∀ c ∈ cs, p c = q c) : cs.rdropWhile p = cs.rdropWhile q := by
  unfold List.rdropWhile
  rw [dropWhile_congr fun c hc => h c (List.mem_reverse.1 hc)]

theorem mem_of_mem_strip {cs : List Char} {c : Char} (h : c ∈ strip p cs) : c ∈ cs :=
  (List.dropWhile_sublist _).mem (List.mem_reverse.1 ((List.dropWhile_sublist _).mem (List.mem_reverse.1 h)))

/-- What is not of the class stays. -/
theorem mem_strip {cs : List Char} {c : Char} (h : c ∈ cs) (hc : p c = false) : c ∈ strip p cs := by
  obtain ⟨xs, ys, hcs, hxs, hys⟩ := exists_strip p cs
  rw [hcs] at h
  simp only [List.mem_append] at h
  rcases h with (h | h) | h
  · exact absurd (hxs c h) (by simp [hc])
  · exact h
  · exact absurd (hys c h) (by simp [hc])

end Classes

/-! ## 6. Padded numbers -/

/-- `%0wd`: a decimal number of at least `w` digits. -/
def padded (w n : Nat) : List Char :=
  List.replicate (w - (Nat.toDigits 10 n).length) '0' ++ Nat.toDigits 10 n

theorem padded_one {n : Nat} (h : n < 10) : padded 1 n = [n.digitChar] := by
  rw [padded, Nat.toDigits_of_lt_base h]
  rfl

/-- The last digit, and the digits before it. -/
theorem padded_succ {w n : Nat} (hw : 1 ≤ w) :
    padded (w + 1) n = padded w (n / 10) ++ [(n % 10).digitChar] := by
  by_cases hn : n < 10
  · have hdiv : n / 10 = 0 := Nat.div_eq_of_lt hn
    have hzeros : List.replicate w '0' = List.replicate (w - 1) '0' ++ ['0'] := by
      obtain ⟨v, rfl⟩ : ∃ v, w = v + 1 := ⟨w - 1, by omega⟩
      exact List.replicate_succ'
    rw [padded, padded, hdiv, Nat.mod_eq_of_lt hn, Nat.toDigits_of_lt_base hn, Nat.toDigits_zero]
    show List.replicate w '0' ++ [n.digitChar] = List.replicate (w - 1) '0' ++ ['0'] ++ [n.digitChar]
    rw [hzeros]
  · rw [padded, padded, Nat.toDigits_of_base_le (by omega) (by omega), List.length_append,
      List.length_singleton, Nat.add_sub_add_right, List.append_assoc]

theorem length_padded {w n : Nat} (hw : 1 ≤ w) (h : n < 10 ^ w) : (padded w n).length = w := by
  induction w, hw using Nat.le_induction generalizing n with
  | base =>
    rw [padded_one h]
    rfl
  | succ w hw ih =>
    rw [padded_succ hw, List.length_append, ih (by rw [Nat.pow_succ] at h; omega)]
    rfl

/-- Texts of one length are compared part by part. -/
theorem append_lt_append {xs ys us vs : List Char} (h : xs.length = ys.length) :
    xs ++ us < ys ++ vs ↔ xs < ys ∨ xs = ys ∧ us < vs := by
  induction xs generalizing ys with
  | nil =>
    obtain rfl := List.eq_nil_of_length_eq_zero h.symm
    simp
  | cons x xs ih =>
    cases ys with
    | nil => cases h
    | cons y ys =>
      have hlen : xs.length = ys.length := Nat.succ.inj h
      simp only [List.cons_append, List.cons_lt_cons_iff, ih hlen, List.cons.injEq]
      grind

/-- What keeps the order of two numbers keeps them apart. -/
theorem eq_iff_of_lt_iff {f : Nat → List Char} {a b : Nat} (h : f a < f b ↔ a < b)
    (h' : f b < f a ↔ b < a) : f a = f b ↔ a = b := by
  refine ⟨fun he => ?_, fun he => by rw [he]⟩
  rcases Nat.lt_trichotomy a b with hlt | hab | hlt
  · exact absurd (h.mpr hlt) (he ▸ List.lt_irrefl _)
  · exact hab
  · exact absurd (h'.mpr hlt) (he ▸ List.lt_irrefl _)

theorem digitChar_lt {a b : Nat} (ha : a < 10) (hb : b < 10) : a.digitChar < b.digitChar ↔ a < b := by
  have hall : ∀ x < 10, ∀ y < 10, x.digitChar < y.digitChar ↔ x < y := by decide
  exact hall a ha b hb

/-- **Padded numbers are ordered as numbers.** -/
theorem padded_lt {w a b : Nat} (hw : 1 ≤ w) (ha : a < 10 ^ w) (hb : b < 10 ^ w) :
    padded w a < padded w b ↔ a < b := by
  induction w, hw using Nat.le_induction generalizing a b with
  | base =>
    rw [padded_one ha, padded_one hb, List.cons_lt_cons_iff, digitChar_lt ha hb]
    simp
  | succ w hw ih =>
    have ha' : a / 10 < 10 ^ w := by rw [Nat.pow_succ] at ha; omega
    have hb' : b / 10 < 10 ^ w := by rw [Nat.pow_succ] at hb; omega
    have hlen : (padded w (a / 10)).length = (padded w (b / 10)).length := by
      rw [length_padded hw ha', length_padded hw hb']
    have heq : padded w (a / 10) = padded w (b / 10) ↔ a / 10 = b / 10 :=
      eq_iff_of_lt_iff (ih ha' hb') (ih hb' ha')
    have hlast : [(a % 10).digitChar] < [(b % 10).digitChar] ↔ a % 10 < b % 10 := by
      rw [List.cons_lt_cons_iff, digitChar_lt (by omega) (by omega)]
      simp
    rw [padded_succ hw, padded_succ hw, append_lt_append hlen, ih ha' hb', heq, hlast]
    omega

/-- Padded numbers of one width differ. -/
theorem padded_inj {w a b : Nat} (hw : 1 ≤ w) (ha : a < 10 ^ w) (hb : b < 10 ^ w) :
    padded w a = padded w b ↔ a = b :=
  eq_iff_of_lt_iff (padded_lt hw ha hb) (padded_lt hw hb ha)

end Text
