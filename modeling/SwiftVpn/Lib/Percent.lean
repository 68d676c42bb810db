/-
  File:      SwiftVpn/Lib/Percent.lean
  Subject:   PERCENT ENCODING OF TEXT.

  * `encode` -- every character outside `safe` as the escapes of its UTF-8 bytes;
  * `formEncode`, `formDecode` -- the form encoding (a space is a `+`) and its reader, which refuses
    a `%` that two hexadecimal digits do not follow (`malformed`);
  * `unescape` -- the reader behind `formDecode` and behind the plain one (`decode`): a run of escapes
    is collected and read as UTF-8 when it ends;
  * `decode_encode`, `formDecode_encode` -- both readers give back what `encode` wrote;
  * `formDecode_getD_eq_iff` -- which texts the form reader leaves as they are, a refused text counted
    as left.
-/
import Mathlib.Algebra.Order.Ring.Int
import SwiftVpn.Lib.Utf8

namespace Percent

/-! ## 1. Digits -/

/-- A hexadecimal digit's value. -/
def hexValue (c : Char) : Option Nat :=
  if '0' ≤ c ∧ c ≤ '9' then some (c.toNat - '0'.toNat)
  else if 'A' ≤ c ∧ c ≤ 'F' then some (c.toNat - 'A'.toNat + 10)
  else if 'a' ≤ c ∧ c ≤ 'f' then some (c.toNat - 'a'.toNat + 10)
  else none

theorem isAlphanum_iff (c : Char) : c.isAlphanum = true ↔
    (65 ≤ c.toNat ∧ c.toNat ≤ 90) ∨ (97 ≤ c.toNat ∧ c.toNat ≤ 122) ∨
      (48 ≤ c.toNat ∧ c.toNat ≤ 57) := by
  delta Char.isAlphanum Char.isAlpha Char.isUpper Char.isLower Char.isDigit
  simp only [Bool.or_eq_true, Bool.and_eq_true, decide_eq_true_eq, UInt32.le_iff_toNat_le, ge_iff_le]
  rw [or_assoc]
  rfl

theorem isAlphanum_of_hexValue {c : Char} (h : (hexValue c).isSome = true) :
    c.isAlphanum = true := by
  rw [isAlphanum_iff]
  unfold hexValue at h
  split at h
  · rename_i hc
    exact .inr (.inr hc)
  · split at h
    · rename_i hc
      have hlo : 65 ≤ c.toNat := hc.1
      have hhi : c.toNat ≤ 70 := hc.2
      omega
    · split at h
      · rename_i hc
        have hlo : 97 ≤ c.toNat := hc.1
        have hhi : c.toNat ≤ 102 := hc.2
        omega
      · cases h

/-- The upper-case digit of a value below sixteen. -/
def hexDigit (n : Nat) : Char :=
  if n < 10 then Char.ofNat ('0'.toNat + n) else Char.ofNat ('A'.toNat + (n - 10))

theorem hexValue_hexDigit {n : Nat} (h : n < 16) : hexValue (hexDigit n) = some n := by
  have hall : ∀ n < 16, hexValue (hexDigit n) = some n := by decide
  exact hall n h

/-- One byte as an escape. -/
def escape (b : UInt8) : List Char := ['%', hexDigit (b.toNat / 16), hexDigit (b.toNat % 16)]

/-- The byte two digits stand for. -/
def byteOf (a b : Char) : Option UInt8 :=
  match hexValue a, hexValue b with
  | some x, some y => some (UInt8.ofNat (16 * x + y))
  | _, _ => none

theorem isSome_of_byteOf {a b : Char} (h : (byteOf a b).isSome = true) :
    (hexValue a).isSome = true ∧ (hexValue b).isSome = true := by
  unfold byteOf at h
  cases ha : hexValue a with
  | none => simp [ha] at h
  | some x =>
    cases hb : hexValue b with
    | none => simp [ha, hb] at h
    | some y => exact ⟨rfl, rfl⟩

theorem byteOf_escape (b : UInt8) :
    byteOf (hexDigit (b.toNat / 16)) (hexDigit (b.toNat % 16)) = some b := by
  have hlt : b.toNat < 256 := b.toNat_lt
  have hhigh : b.toNat / 16 < 16 := by omega
  have hlow : b.toNat % 16 < 16 := by omega
  have hsum : 16 * (b.toNat / 16) + b.toNat % 16 = b.toNat := by omega
  simp only [byteOf, hexValue_hexDigit hhigh, hexValue_hexDigit hlow, hsum, UInt8.ofNat_toNat]

/-! ## 2. Writing -/

/-- The characters that stand for themselves. -/
def safe (c : Char) : Bool :=
  c.isAlphanum || c == '-' || c == '_' || c == '.' || c == '*'

/-- The escapes of a character. -/
def escapes (c : Char) : List Char := (String.utf8EncodeChar c).flatMap escape

/-- One character, encoded. -/
def encodeChar (c : Char) : List Char := if safe c then [c] else escapes c

/-- A text, encoded. -/
def encode (cs : List Char) : List Char := cs.flatMap encodeChar

/-- A text in form encoding: a space becomes a `+`. -/
def formEncode (cs : List Char) : List Char :=
  cs.flatMap fun c => if c == ' ' then ['+'] else encodeChar c

/-- `text.replace("+", "%20")`. -/
def plusToPercent (cs : List Char) : List Char :=
  cs.flatMap fun c => if c == '+' then ['%', '2', '0'] else [c]

@[simp] theorem encode_nil : encode [] = [] := rfl

theorem encode_cons (c : Char) (cs : List Char) : encode (c :: cs) = encodeChar c ++ encode cs := by
  simp [encode]

theorem safe_hexDigit {n : Nat} (h : n < 16) : safe (hexDigit n) = true := by
  have hall : ∀ n < 16, safe (hexDigit n) = true := by decide
  exact hall n h

theorem mem_escape {b : UInt8} {c : Char} (h : c ∈ escape b) : c = '%' ∨ safe c = true := by
  have hlt : b.toNat < 256 := b.toNat_lt
  simp only [escape, List.mem_cons, List.not_mem_nil, or_false] at h
  rcases h with rfl | rfl | rfl
  · exact .inl rfl
  · exact .inr (safe_hexDigit (by omega))
  · exact .inr (safe_hexDigit (by omega))

theorem mem_encodeChar {c d : Char} (h : d ∈ encodeChar c) : d = '%' ∨ safe d = true := by
  unfold encodeChar at h
  split at h
  · rename_i hs
    rw [List.mem_singleton] at h
    exact .inr (h ▸ hs)
  · obtain ⟨b, _, hb⟩ := List.mem_flatMap.1 h
    exact mem_escape hb

/-- An encoded text consists of safe characters and escapes. -/
theorem mem_encode {cs : List Char} {d : Char} (h : d ∈ encode cs) : d = '%' ∨ safe d = true := by
  obtain ⟨c, _, hc⟩ := List.mem_flatMap.1 h
  exact mem_encodeChar hc

theorem not_mem_encode {cs : List Char} {d : Char} (hp : d ≠ '%') (hs : safe d = false) :
    d ∉ encode cs := by
  intro h
  rcases mem_encode h with h | h
  · exact hp h
  · rw [hs] at h
    cases h

theorem plusToPercent_of_not_mem {cs : List Char} (h : '+' ∉ cs) : plusToPercent cs = cs := by
  induction cs with
  | nil => rfl
  | cons c cs ih =>
    rw [List.mem_cons, not_or] at h
    have hc : (c == '+') = false := by simpa using fun e => h.1 e.symm
    unfold plusToPercent at ih ⊢
    rw [List.flatMap_cons, hc, ih h.2]
    rfl

/-- The form encoding with its pluses replaced is the plain encoding. -/
theorem plusToPercent_formEncode (cs : List Char) : plusToPercent (formEncode cs) = encode cs := by
  induction cs with
  | nil => rfl
  | cons c cs ih =>
    have happ : ∀ xs ys : List Char,
        plusToPercent (xs ++ ys) = plusToPercent xs ++ plusToPercent ys := by
      intro xs ys
      simp [plusToPercent]
    have hcons : formEncode (c :: cs)
        = (if c == ' ' then ['+'] else encodeChar c) ++ formEncode cs := by
      simp [formEncode]
    rw [hcons, happ, ih, encode_cons]
    congr 1
    split
    · rename_i hc
      rw [beq_iff_eq] at hc
      subst hc
      decide
    · exact plusToPercent_of_not_mem (by
        intro h
        rcases mem_encodeChar h with h | h <;> revert h <;> decide)

/-! ## 3. Reading -/

/-- Reads escapes and plain characters; `run` holds the bytes of the escapes just read. -/
def unescape (plain : Char → Char) : List UInt8 → List Char → Option (List Char)
  | run, [] => some (Utf8.decode run)
  | run, c :: cs =>
    if c = '%' then
      match cs with
      | a :: b :: rest =>
        match byteOf a b with
        | some x => unescape plain (run ++ [x]) rest
        | none => none
      | _ => none
    else (unescape plain [] cs).map fun out => Utf8.decode run ++ plain c :: out

/-- The plain reader. -/
def decode (cs : List Char) : Option (List Char) := unescape id [] cs

/-- The form reader: a `+` is a space. -/
def formDecode (cs : List Char) : Option (List Char) :=
  unescape (fun c => if c = '+' then ' ' else c) [] cs

/-- Some `%` is not followed by two hexadecimal digits. -/
def malformed : List Char → Bool
  | [] => false
  | c :: cs =>
    if c = '%' then
      match cs with
      | a :: b :: rest => (byteOf a b).isNone || malformed rest
      | _ => true
    else malformed cs

section Read

variable {plain : Char → Char}

theorem unescape_cons_of_ne {c : Char} (h : c ≠ '%') (run : List UInt8) (cs : List Char) :
    unescape plain run (c :: cs)
      = (unescape plain [] cs).map fun out => Utf8.decode run ++ plain c :: out := by
  conv_lhs => unfold unescape
  exact if_neg h

theorem unescape_percent (run : List UInt8) (a b : Char) (rest : List Char) :
    unescape plain run ('%' :: a :: b :: rest)
      = (byteOf a b).bind fun x => unescape plain (run ++ [x]) rest := by
  simp only [unescape, if_true]
  cases byteOf a b <;> rfl

theorem unescape_percent_short (run : List UInt8) {cs : List Char} (h : cs.length < 2) :
    unescape plain run ('%' :: cs) = none := by
  match cs, h with
  | [], _ => rfl
  | [_], _ => rfl

theorem unescape_escape (b : UInt8) (run : List UInt8) (cs : List Char) :
    unescape plain run (escape b ++ cs) = unescape plain (run ++ [b]) cs := by
  simp only [escape, List.cons_append, List.nil_append]
  rw [unescape_percent, byteOf_escape, Option.bind_some]

theorem unescape_flatMap_escape (bs run : List UInt8) (cs : List Char) :
    unescape plain run (bs.flatMap escape ++ cs) = unescape plain (run ++ bs) cs := by
  induction bs generalizing run with
  | nil => simp
  | cons b bs ih =>
    rw [List.flatMap_cons, List.append_assoc, unescape_escape, ih, List.append_assoc]
    rfl

theorem safe_ne_percent {c : Char} (h : safe c = true) : c ≠ '%' := by
  intro e
  subst e
  revert h
  decide

/-- The reader gives back an encoded text, behind a run that spells the characters `ds`. -/
theorem unescape_encode (hplain : ∀ c, safe c = true → plain c = c) (cs ds : List Char) :
    unescape plain (Utf8.encode ds) (encode cs) = some (ds ++ cs) := by
  -- the run is a whole number of characters whenever the reader stands before an encoded one
  induction cs generalizing ds with
  | nil => simp [unescape]
  | cons c cs ih =>
    rw [encode_cons]
    cases hc : safe c with
    | true =>
      have hnil := ih []
      rw [Utf8.encode_nil] at hnil
      simp only [encodeChar, hc, if_true, List.cons_append, List.nil_append]
      rw [unescape_cons_of_ne (safe_ne_percent hc), hnil, hplain c hc]
      simp
    | false =>
      simp only [encodeChar, hc, Bool.false_eq_true, if_false, escapes]
      have henc : Utf8.encode ds ++ String.utf8EncodeChar c = Utf8.encode (ds ++ [c]) := by
        simp [Utf8.encode]
      rw [unescape_flatMap_escape, henc, ih]
      simp

/-- A text without escapes is read character by character. -/
theorem unescape_of_not_mem {cs : List Char} (h : '%' ∉ cs) :
    unescape plain [] cs = some (cs.map plain) := by
  induction cs with
  | nil => rfl
  | cons c cs ih =>
    rw [List.mem_cons, not_or] at h
    rw [unescape_cons_of_ne (fun e => h.1 e.symm), ih h.2]
    simp

/-- A text behind a start without escapes. -/
theorem unescape_append_of_not_mem {xs : List Char} (h : '%' ∉ xs) (cs : List Char) :
    unescape plain [] (xs ++ cs) = (unescape plain [] cs).map (xs.map plain ++ ·) := by
  induction xs with
  | nil => simp
  | cons c xs ih =>
    rw [List.mem_cons, not_or] at h
    rw [List.cons_append, unescape_cons_of_ne (fun e => h.1 e.symm), ih h.2, Option.map_map]
    congr 1

theorem length_lt_two {cs : List Char} (h : ∀ a b rest, cs = a :: b :: rest → False) :
    cs.length < 2 := by
  match cs, h with
  | [], _ => exact Nat.zero_lt_two
  | [_], _ => exact Nat.one_lt_two
  | a :: b :: rest, h => exact (h a b rest rfl).elim

theorem unescape_eq_none_iff (run : List UInt8) (cs : List Char) :
    unescape plain run cs = none ↔ malformed cs = true := by
  fun_induction malformed cs generalizing run with
  | case1 => simp [unescape]
  | case2 a b rest ih =>
    rw [unescape_percent]
    cases hb : byteOf a b with
    | none => simp
    | some x => simpa using ih (run ++ [x])
  | case3 cs hcs =>
    rw [unescape_percent_short run (length_lt_two hcs)]
    simp
  | case4 c cs hc ih =>
    rw [unescape_cons_of_ne hc, Option.map_eq_none_iff]
    exact ih []

/-- Reading never lengthens, and shortens where there is an escape. -/
theorem length_unescape {cs : List Char} {run : List UInt8} {out : List Char}
    (h : unescape plain run cs = some out) :
    out.length ≤ run.length + cs.length ∧ ('%' ∈ cs → out.length < run.length + cs.length) := by
  fun_induction unescape plain run cs generalizing out with
  | case1 run =>
    cases h
    exact ⟨by simpa using Utf8.length_decode_le run, by simp⟩
  | case2 run a b rest x hx ih =>
    have := (ih h).1
    simp only [List.length_append, List.length_cons, List.length_nil] at this ⊢
    exact ⟨by omega, fun _ => by omega⟩
  | case3 => cases h
  | case4 => cases h
  | case5 run c cs hc ih =>
    obtain ⟨rest, hrest, rfl⟩ := Option.map_eq_some_iff.1 h
    obtain ⟨hle, hlt⟩ := ih hrest
    have hrun := Utf8.length_decode_le run
    simp only [List.length_append, List.length_cons, List.length_nil] at hle hlt ⊢
    refine ⟨by omega, ?_⟩
    intro hm
    rcases List.mem_cons.1 hm with e | hm
    · exact absurd e.symm hc
    · have := hlt hm
      omega

/-- A character that is no digit ends an escape: the text is read in two parts around it. -/
theorem unescape_append_cons {c : Char} (hc : c ≠ '%') (hx : hexValue c = none)
    (xs ys : List Char) (run : List UInt8) :
    unescape plain run (xs ++ c :: ys) = (unescape plain run xs).bind fun a =>
      (unescape plain [] ys).map fun b => a ++ plain c :: b := by
  have hbyte : ∀ a, byteOf a c = none := by
    intro a
    unfold byteOf
    rw [hx]
    cases hexValue a <;> rfl
  have hbyte' : ∀ a, byteOf c a = none := by
    intro a
    unfold byteOf
    rw [hx]
  fun_induction unescape plain run xs with
  | case1 run => rw [List.nil_append, unescape_cons_of_ne hc]; rfl
  | case2 run a b rest x hab ih =>
    rw [List.cons_append, List.cons_append, List.cons_append, unescape_percent, hab]
    exact ih
  | case3 run a b rest hab =>
    rw [List.cons_append, List.cons_append, List.cons_append, unescape_percent, hab]
    rfl
  | case4 run cs hcs =>
    -- the `%` is followed by at most one more character before `c`
    rw [Option.bind_none]
    match cs, length_lt_two hcs with
    | [], _ =>
      cases ys with
      | nil => rfl
      | cons d ys =>
        simp only [List.cons_append, List.nil_append]
        rw [unescape_percent, hbyte']
        rfl
    | [a], _ =>
      simp only [List.cons_append, List.nil_append]
      rw [unescape_percent, hbyte]
      rfl
  | case5 run d cs hd ih =>
    rw [List.cons_append, unescape_cons_of_ne hd, ih]
    cases unescape plain [] cs with
    | none => rfl
    | some a =>
      cases unescape plain [] ys with
      | none => rfl
      | some b => simp

end Read

/-- **The plain reader gives back what was encoded.** -/
theorem decode_encode (cs : List Char) : decode (encode cs) = some cs := by
  have := unescape_encode (fun c _ => show id c = c from rfl) cs []
  simpa [decode] using this

theorem safe_ne_plus {c : Char} (h : safe c = true) : c ≠ '+' := by
  intro e
  subst e
  revert h
  decide

/-- **The form reader gives back what was encoded.** -/
theorem formDecode_encode (cs : List Char) : formDecode (encode cs) = some cs := by
  have hplain : ∀ c, safe c = true → (if c = '+' then ' ' else c) = c :=
    fun c hc => if_neg (safe_ne_plus hc)
  have := unescape_encode hplain cs []
  simpa [formDecode] using this

theorem map_plus_eq_self_iff (cs : List Char) :
    cs.map (fun c => if c = '+' then ' ' else c) = cs ↔ '+' ∉ cs := by
  induction cs with
  | nil => simp
  | cons c cs ih =>
    rw [List.map_cons, List.cons.injEq, ih, List.mem_cons, not_or]
    refine and_congr ?_ Iff.rfl
    by_cases hc : c = '+'
    · subst hc
      simp
    · simp [hc, Ne.symm hc]

/-- **Which texts the form reader leaves as they are**: those it refuses, and those without a `%`
    and a `+`. -/
theorem formDecode_getD_eq_iff (cs : List Char) :
    (formDecode cs).getD cs = cs ↔ malformed cs = true ∨ ('%' ∉ cs ∧ '+' ∉ cs) := by
  cases hd : formDecode cs with
  | none =>
    have hm := (unescape_eq_none_iff [] cs).1 hd
    simp [hm]
  | some out =>
    have hm : malformed cs ≠ true := by
      intro hm
      have hnone : formDecode cs = none := (unescape_eq_none_iff [] cs).2 hm
      rw [hnone] at hd
      cases hd
    rw [Option.getD_some]
    by_cases hp : '%' ∈ cs
    · -- an escape makes the text shorter
      have hlt := (length_unescape hd).2 hp
      simp only [List.length_nil, Nat.zero_add] at hlt
      constructor
      · intro e
        rw [e] at hlt
        omega
      · rintro (h | h)
        · exact absurd h hm
        · exact absurd hp h.1
    · have hout : formDecode cs = some (cs.map fun c => if c = '+' then ' ' else c) :=
        unescape_of_not_mem hp
      rw [hd, Option.some.injEq] at hout
      rw [hout, map_plus_eq_self_iff]
      simp [hm, hp]

end Percent
