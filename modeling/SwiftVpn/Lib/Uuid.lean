/-
  File:      SwiftVpn/Lib/Uuid.lean
  Subject:   THE UUIDS OF THE JVM AND THEIR TEXTS.

  * `UUID` -- 128 bits in two halves; `fromString` and `toString` are those of java.util.UUID, on the
    texts that its documentation describes: five groups of hexadecimal digits;
  * `IsCanonical` -- the texts that `toString` writes: the groups have their lengths and the letters are
    lower case;
  * `toString_fromString` -- such a text comes back as it is.
-/
import Mathlib.Data.List.Induction
import Mathlib.Data.List.SplitLengths
import SwiftVpn.Lib.Percent

/-- `java.util.UUID`. -/
structure UUID where
  mostSigBits : BitVec 64
  leastSigBits : BitVec 64
  deriving DecidableEq, Repr

namespace UUID

/-! ## 1. Hexadecimal digits -/

/-- The number that digits of base 16 spell. -/
def ofDigits (ds : List Nat) : Nat := ds.foldl (fun n d => 16 * n + d) 0

/-- The last `w` digits of a number. -/
def digits : Nat → Nat → List Nat
  | 0, _ => []
  | w + 1, n => digits w (n / 16) ++ [n % 16]

theorem ofDigits_append (ds : List Nat) (d : Nat) : ofDigits (ds ++ [d]) = 16 * ofDigits ds + d := by
  unfold ofDigits
  rw [List.foldl_append, List.foldl_cons, List.foldl_nil]

theorem digits_ofDigits {ds : List Nat} (h : ∀ d ∈ ds, d < 16) :
    digits ds.length (ofDigits ds) = ds := by
  induction ds using List.reverseRecOn with
  | nil => rfl
  | append_singleton ds d ih =>
    have hd : d < 16 := h d (List.mem_append_right ds (List.mem_singleton_self d))
    have hdiv : (16 * ofDigits ds + d) / 16 = ofDigits ds := by omega
    have hmod : (16 * ofDigits ds + d) % 16 = d := by omega
    rw [List.length_append, List.length_singleton, digits, ofDigits_append, hdiv, hmod,
      ih fun d hd => h d (List.mem_append_left _ hd)]

theorem ofDigits_lt {ds : List Nat} (h : ∀ d ∈ ds, d < 16) : ofDigits ds < 16 ^ ds.length := by
  induction ds using List.reverseRecOn with
  | nil => exact Nat.one_pos
  | append_singleton ds d ih =>
    have hd : d < 16 := h d (List.mem_append_right ds (List.mem_singleton_self d))
    have hds := ih fun d hd => h d (List.mem_append_left _ hd)
    rw [List.length_append, List.length_singleton, ofDigits_append, Nat.pow_succ]
    omega

/-! ## 2. Texts -/

/-- The lengths of the groups. -/
def groups : List Nat := [8, 4, 4, 4, 12]

/-- `fromString`. -/
def fromString (s : String) : Option UUID :=
  let components := s.toList.splitOn '-'
  let chars := components.flatten
  if components.map List.length = groups ∧ chars.all fun c => (Percent.hexValue c).isSome then
    let ds := chars.map fun c => (Percent.hexValue c).getD 0
    some ⟨.ofNat 64 (ofDigits (ds.take 16)), .ofNat 64 (ofDigits (ds.drop 16))⟩
  else none

/-- `toString`. -/
def toString (u : UUID) : String :=
  let chars := (digits 16 u.mostSigBits.toNat ++ digits 16 u.leastSigBits.toNat).map Nat.digitChar
  String.ofList (['-'].intercalate (groups.splitLengths chars))

/-- The digits that `toString` writes. -/
def hexChars : List Char := "0123456789abcdef".toList

/-- A text that `toString` writes. -/
def IsCanonical (s : String) : Prop :=
  (s.toList.splitOn '-').map List.length = groups ∧ ∀ c ∈ (s.toList.splitOn '-').flatten, c ∈ hexChars

instance instDecidableIsCanonical (s : String) : Decidable (IsCanonical s) :=
  inferInstanceAs (Decidable (_ ∧ _))

theorem hexValue_of_mem {c : Char} (h : c ∈ hexChars) :
    ∃ d < 16, Percent.hexValue c = some d ∧ d.digitChar = c := by
  revert c
  decide

/-- Cut to the lengths of its parts, a list has these parts. -/
theorem splitLengths_flatten {α : Type*} (parts : List (List α)) :
    (parts.map List.length).splitLengths parts.flatten = parts := by
  induction parts with
  | nil => rfl
  | cons part parts ih =>
    rw [List.map_cons, List.flatten_cons, List.splitLengths_cons, List.take_left, List.drop_left, ih]

/-- Sixteen digits make one half. -/
theorem digits_ofNat {ds : List Nat} (hlength : ds.length = 16) (h : ∀ d ∈ ds, d < 16) :
    digits 16 (BitVec.ofNat 64 (ofDigits ds)).toNat = ds := by
  have hlt := ofDigits_lt h
  rw [hlength] at hlt
  rw [BitVec.toNat_ofNat, Nat.mod_eq_of_lt (by omega)]
  calc digits 16 (ofDigits ds) = digits ds.length (ofDigits ds) := by rw [hlength]
    _ = ds := digits_ofDigits h

/-- **A canonical text comes back as it is.** -/
theorem toString_fromString {s : String} (h : IsCanonical s) :
    ∃ u, fromString s = some u ∧ u.toString = s := by
  obtain ⟨hlengths, hchars⟩ := h
  have hall : ((s.toList.splitOn '-').flatten.all fun c => (Percent.hexValue c).isSome) = true := by
    refine List.all_eq_true.2 fun c hc => ?_
    obtain ⟨d, -, hd, -⟩ := hexValue_of_mem (hchars c hc)
    rw [hd]
    rfl
  refine ⟨_, if_pos ⟨hlengths, hall⟩, ?_⟩
  have hlength : (s.toList.splitOn '-').flatten.length = 32 := by
    rw [List.length_flatten, hlengths]
    rfl
  generalize hds : (s.toList.splitOn '-').flatten.map (fun c => (Percent.hexValue c).getD 0) = ds
  have hlt : ∀ d ∈ ds, d < 16 := by
    rw [← hds]
    intro d hd
    obtain ⟨c, hc, rfl⟩ := List.mem_map.1 hd
    obtain ⟨d, hlt, hvalue, -⟩ := hexValue_of_mem (hchars c hc)
    rw [hvalue]
    exact hlt
  have hlengthDs : ds.length = 32 := by
    rw [← hds, List.length_map, hlength]
  have hback : ds.map Nat.digitChar = (s.toList.splitOn '-').flatten := by
    rw [← hds, List.map_map]
    refine (List.map_congr_left fun c hc => ?_).trans (List.map_id _)
    obtain ⟨d, -, hvalue, hchar⟩ := hexValue_of_mem (hchars c hc)
    show Nat.digitChar ((Percent.hexValue c).getD 0) = c
    rw [hvalue]
    exact hchar
  have hhigh : digits 16 (BitVec.ofNat 64 (ofDigits (ds.take 16))).toNat = ds.take 16 :=
    digits_ofNat (by rw [List.length_take, hlengthDs]; rfl) fun d hd => hlt d (List.mem_of_mem_take hd)
  have hlow : digits 16 (BitVec.ofNat 64 (ofDigits (ds.drop 16))).toNat = ds.drop 16 :=
    digits_ofNat (by rw [List.length_drop, hlengthDs]) fun d hd => hlt d (List.mem_of_mem_drop hd)
  unfold toString
  dsimp only
  rw [hhigh, hlow, List.take_append_drop, hback, ← hlengths, splitLengths_flatten,
    List.intercalate_splitOn, String.ofList_toList]

end UUID
