/-
  File:      SwiftVpn/Lib/Base64.lean
  Subject:   BASE64 WITH A LENIENT READER.

  * `encode` -- three bytes as four digits, over a given alphabet, padded or not, on one line;
  * `step`, `decode` -- the reader as a machine that takes one character at a time: a character
    outside the standard alphabet is skipped, an end without padding is accepted, and a `=` counts
    only where a tuple lacks one or two digits;
  * `decode_encode` -- the reader gives back what was written over the standard alphabet, padded or
    not;
  * `decode_encode_replicate` -- signs put behind a text are read only where it lacks them;
  * `length_decode` -- four digits make three bytes at most;
  * `decode_of_even`, `decode_signs_of_odd` -- digits alone are read wherever their number is even, and two
    signs behind them are refused wherever it is odd.
-/
import Mathlib.Data.List.Basic

namespace Base64

/-! ## 1. Digits -/

/-- The standard alphabet. -/
def digit (n : Nat) : Char :=
  if n < 26 then Char.ofNat ('A'.toNat + n)
  else if n < 52 then Char.ofNat ('a'.toNat + (n - 26))
  else if n < 62 then Char.ofNat ('0'.toNat + (n - 52))
  else if n = 62 then '+'
  else '/'

/-- The alphabet that is safe in a URL. -/
def urlSafeDigit (n : Nat) : Char :=
  if n = 62 then '-' else if n = 63 then '_' else digit n

/-- What a character is to the reader. -/
inductive Symbol where
  | value (n : Nat)
  | equals
  | skip
  deriving DecidableEq, Repr

/-- The reader's table. -/
def symbol (c : Char) : Symbol :=
  if 'A' ≤ c ∧ c ≤ 'Z' then .value (c.toNat - 'A'.toNat)
  else if 'a' ≤ c ∧ c ≤ 'z' then .value (c.toNat - 'a'.toNat + 26)
  else if '0' ≤ c ∧ c ≤ '9' then .value (c.toNat - '0'.toNat + 52)
  else if c = '+' then .value 62
  else if c = '/' then .value 63
  else if c = '=' then .equals
  else .skip

theorem symbol_digit {n : Nat} (h : n < 64) : symbol (digit n) = .value n := by
  have hall : ∀ n < 64, symbol (digit n) = .value n := by decide
  exact hall n h

/-! ## 2. Writing -/

/-- The digits of the bytes, over the alphabet `d`. -/
def encode (d : Nat → Char) (padding : Bool) : List UInt8 → List Char
  | [] => []
  | [a] =>
    d (a.toNat / 4) :: d (a.toNat % 4 * 16) :: if padding then ['=', '='] else []
  | [a, b] =>
    d (a.toNat / 4) :: d (a.toNat % 4 * 16 + b.toNat / 16) :: d (b.toNat % 16 * 4) ::
      if padding then ['='] else []
  | a :: b :: c :: bs =>
    d (a.toNat / 4) :: d (a.toNat % 4 * 16 + b.toNat / 16) ::
      d (b.toNat % 16 * 4 + c.toNat / 64) :: d (c.toNat % 64) :: encode d padding bs

/-- What an encoded text consists of. -/
theorem mem_encode {d : Nat → Char} {padding : Bool} {bs : List UInt8} {c : Char}
    (h : c ∈ encode d padding bs) : (∃ n, n < 64 ∧ c = d n) ∨ (padding = true ∧ c = '=') := by
  fun_induction encode d padding bs with
  | case1 => cases h
  | case2 a =>
    have ha := a.toNat_lt
    simp only [List.mem_cons] at h
    rcases h with h | h | h
    · exact .inl ⟨_, by omega, h⟩
    · exact .inl ⟨_, by omega, h⟩
    · right
      split at h
      · exact ⟨‹_›, by simpa using h⟩
      · cases h
  | case3 a b =>
    have ha := a.toNat_lt
    have hb := b.toNat_lt
    simp only [List.mem_cons] at h
    rcases h with h | h | h | h
    · exact .inl ⟨_, by omega, h⟩
    · exact .inl ⟨_, by omega, h⟩
    · exact .inl ⟨_, by omega, h⟩
    · right
      split at h
      · exact ⟨‹_›, by simpa using h⟩
      · cases h
  | case4 a b c' bs ih =>
    have ha := a.toNat_lt
    have hb := b.toNat_lt
    have hc := c'.toNat_lt
    simp only [List.mem_cons] at h
    rcases h with h | h | h | h | h
    · exact .inl ⟨_, by omega, h⟩
    · exact .inl ⟨_, by omega, h⟩
    · exact .inl ⟨_, by omega, h⟩
    · exact .inl ⟨_, by omega, h⟩
    · exact ih h

theorem encode_ne_nil (d : Nat → Char) (padding : Bool) {bs : List UInt8} (h : bs ≠ []) :
    encode d padding bs ≠ [] := by
  match bs with
  | [] => exact absurd rfl h
  | [_] => exact List.cons_ne_nil _ _
  | [_, _] => exact List.cons_ne_nil _ _
  | _ :: _ :: _ :: _ => exact List.cons_ne_nil _ _

/-- A text over another alphabet, digit by digit. -/
theorem map_encode {d d' : Nat → Char} {f : Char → Char} (hf : ∀ n < 64, f (d n) = d' n)
    (heq : f '=' = '=') (padding : Bool) (bs : List UInt8) :
    (encode d padding bs).map f = encode d' padding bs := by
  induction bs using encode.induct with
  | case1 => rfl
  | case2 a =>
    have ha := a.toNat_lt
    rw [encode, encode, List.map_cons, List.map_cons, hf _ (by omega), hf _ (by omega)]
    cases padding <;> simp [heq]
  | case3 a b =>
    have ha := a.toNat_lt
    have hb := b.toNat_lt
    rw [encode, encode, List.map_cons, List.map_cons, List.map_cons, hf _ (by omega),
      hf _ (by omega), hf _ (by omega)]
    cases padding <;> simp [heq]
  | case4 a b c bs ih =>
    have ha := a.toNat_lt
    have hb := b.toNat_lt
    have hc := c.toNat_lt
    rw [encode, encode, List.map_cons, List.map_cons, List.map_cons, List.map_cons,
      hf _ (by omega), hf _ (by omega), hf _ (by omega), hf _ (by omega), ih]

/-- What the padding is, by the digits: none, or one or two signs behind a digit whose last bits are
    empty. -/
theorem encode_padding (d : Nat → Char) (bs : List UInt8) :
    (encode d true bs = encode d false bs ∧ (encode d false bs).length % 4 = 0) ∨
    ∃ init k, k < 16 ∧ encode d false bs = init ++ [d (4 * k)] ∧
      ((encode d true bs = encode d false bs ++ ['=', '='] ∧ (encode d false bs).length % 4 = 2) ∨
        (encode d true bs = encode d false bs ++ ['='] ∧ (encode d false bs).length % 4 = 3)) := by
  induction bs using encode.induct with
  | case1 => exact .inl ⟨rfl, rfl⟩
  | case2 a =>
    have hk : a.toNat % 4 * 16 = 4 * (a.toNat % 4 * 4) := by omega
    refine .inr ⟨[d (a.toNat / 4)], a.toNat % 4 * 4, by omega, ?_, .inl ⟨rfl, rfl⟩⟩
    rw [encode, hk]
    rfl
  | case3 a b =>
    have hk : b.toNat % 16 * 4 = 4 * (b.toNat % 16) := by omega
    refine .inr ⟨[d (a.toNat / 4), d (a.toNat % 4 * 16 + b.toNat / 16)], b.toNat % 16, by omega, ?_,
      .inr ⟨rfl, rfl⟩⟩
    rw [encode, hk]
    rfl
  | case4 a b c bs ih =>
    rw [encode, encode]
    rcases ih with ⟨he, hl⟩ | ⟨init, k, hk, hinit, hpad⟩
    · exact .inl ⟨by rw [he], by simp only [List.length_cons]; omega⟩
    · refine .inr ⟨_ :: _ :: _ :: _ :: init, k, hk, by rw [hinit]; rfl, ?_⟩
      rcases hpad with ⟨he, hl⟩ | ⟨he, hl⟩
      · exact .inl ⟨by rw [he]; rfl, by simp only [List.length_cons]; omega⟩
      · exact .inr ⟨by rw [he]; rfl, by simp only [List.length_cons]; omega⟩

theorem length_encode_padded (d : Nat → Char) (bs : List UInt8) : (encode d true bs).length % 4 = 0 := by
  rcases encode_padding d bs with ⟨he, hl⟩ | ⟨init, k, -, -, ⟨he, hl⟩ | ⟨he, hl⟩⟩
  · rw [he, hl]
  · rw [he, List.length_append, List.length_cons, List.length_singleton]
    omega
  · rw [he, List.length_append, List.length_singleton]
    omega

/-- A way to write base64. -/
structure Flavour where
  urlSafe : Bool
  padding : Bool
  deriving DecidableEq, Repr

/-- The alphabet of a flavour. -/
def Flavour.digit (f : Flavour) : Nat → Char := if f.urlSafe then urlSafeDigit else Base64.digit

/-- The digits of the bytes, in a flavour. -/
def Flavour.encode (f : Flavour) (bs : List UInt8) : List Char := Base64.encode f.digit f.padding bs

/-- The characters of the four flavours. -/
def isBase64 (c : Char) : Bool :=
  c.isAlphanum || c == '+' || c == '/' || c == '-' || c == '_' || c == '='

theorem Flavour.isBase64_of_mem {f : Flavour} {bs : List UInt8} {c : Char} (h : c ∈ f.encode bs) :
    isBase64 c = true := by
  have hstd : ∀ n < 64, isBase64 (Base64.digit n) = true := by decide
  have hurl : ∀ n < 64, isBase64 (urlSafeDigit n) = true := by decide
  rcases mem_encode h with ⟨n, hn, rfl⟩ | ⟨-, rfl⟩
  · unfold Flavour.digit
    split
    · exact hurl n hn
    · exact hstd n hn
  · decide

/-- With its two special digits replaced, a URL-safe text is a standard one. -/
theorem Flavour.map_encode_standard (f : Flavour) (bs : List UInt8) :
    (f.encode bs).map (fun c => if c = '-' then '+' else if c = '_' then '/' else c)
      = Base64.encode Base64.digit f.padding bs := by
  refine map_encode ?_ (by decide) _ _
  have hstd : ∀ n < 64, (if Base64.digit n = '-' then '+' else if Base64.digit n = '_' then '/'
      else Base64.digit n) = Base64.digit n := by decide
  have hurl : ∀ n < 64, (if urlSafeDigit n = '-' then '+' else if urlSafeDigit n = '_' then '/'
      else urlSafeDigit n) = Base64.digit n := by decide
  unfold Flavour.digit
  split
  · exact hurl
  · exact hstd

/-- The digit before the padding is every fourth one of the alphabet. -/
theorem Flavour.encode_cases (f : Flavour) (bs : List UInt8) :
    '=' ∉ f.encode bs ∨ ∃ init k pad, k < 16 ∧ f.encode bs = init ++ f.digit (4 * k) :: '=' :: pad ∧
      '=' ∉ init ∧ (pad = [] ∨ pad = ['=']) := by
  have hdigit : ∀ n < 64, f.digit n ≠ '=' := by
    have hstd : ∀ n < 64, Base64.digit n ≠ '=' := by decide
    have hurl : ∀ n < 64, urlSafeDigit n ≠ '=' := by decide
    unfold Flavour.digit
    split
    · exact hurl
    · exact hstd
  have hbare : '=' ∉ Base64.encode f.digit false bs := by
    intro h
    rcases mem_encode h with ⟨n, hn, h⟩ | ⟨h, -⟩
    · exact hdigit n hn h.symm
    · cases h
  unfold Flavour.encode
  cases f.padding with
  | false => exact .inl hbare
  | true =>
    rcases encode_padding f.digit bs with ⟨he, -⟩ | ⟨init, k, hk, hinit, ⟨he, -⟩ | ⟨he, -⟩⟩
    · exact .inl (he ▸ hbare)
    · refine .inr ⟨init, k, ['='], hk, by rw [he, hinit]; simp, ?_, .inr rfl⟩
      exact fun h => hbare (hinit ▸ List.mem_append_left _ h)
    · refine .inr ⟨init, k, [], hk, by rw [he, hinit]; simp, ?_, .inl rfl⟩
      exact fun h => hbare (hinit ▸ List.mem_append_left _ h)

/-! ## 3. Reading -/

/-- Where the reader stands: after so many digits of a tuple, with their value, or in the padding. -/
inductive State where
  | start
  | one (v : Nat)
  | two (v : Nat)
  | three (v : Nat)
  | wantEquals
  | done
  deriving DecidableEq, Repr

/-- One character: the state after it and the bytes it completes, or a refusal. -/
def step : State → Symbol → Option (State × List UInt8)
  | st, .skip => some (st, [])
  | .start, .value n => some (.one n, [])
  | .one v, .value n => some (.two (v * 64 + n), [])
  | .two v, .value n => some (.three (v * 64 + n), [])
  | .three v, .value n =>
    let w := v * 64 + n
    some (.start, [UInt8.ofNat (w / 65536), UInt8.ofNat (w / 256), UInt8.ofNat w])
  | .two v, .equals => some (.wantEquals, [UInt8.ofNat (v / 16)])
  | .three v, .equals => some (.done, [UInt8.ofNat (v / 1024), UInt8.ofNat (v / 4)])
  | .wantEquals, .equals => some (.done, [])
  | _, _ => none

/-- The end of the text. -/
def finish : State → Option (List UInt8)
  | .start => some []
  | .two v => some [UInt8.ofNat (v / 16)]
  | .three v => some [UInt8.ofNat (v / 1024), UInt8.ofNat (v / 4)]
  | .done => some []
  | .one _ | .wantEquals => none

/-- Reads on from a state. -/
def decodeFrom : State → List Char → Option (List UInt8)
  | st, [] => finish st
  | st, c :: cs =>
    match step st (symbol c) with
    | some (st', out) => (decodeFrom st' cs).map (out ++ ·)
    | none => none

/-- The bytes behind a text. -/
def decode (cs : List Char) : Option (List UInt8) := decodeFrom .start cs

/-! ## 4. What was written is read back -/

theorem ofNat_eq {n : Nat} {b : UInt8} (h : n % 256 = b.toNat) : UInt8.ofNat n = b := by
  rw [← UInt8.toNat_inj, UInt8.toNat_ofNat']
  exact h

/-- A digit that completes nothing only moves the reader on. -/
theorem decodeFrom_digit {st st' : State} {n : Nat} (h : n < 64)
    (hs : step st (.value n) = some (st', [])) (cs : List Char) :
    decodeFrom st (digit n :: cs) = decodeFrom st' cs := by
  simp only [decodeFrom, symbol_digit h, hs, List.nil_append, Option.map_id']

/-- A fourth digit completes three bytes. -/
theorem decodeFrom_fourth {v n : Nat} (h : n < 64) (cs : List Char) :
    decodeFrom (.three v) (digit n :: cs) = (decodeFrom .start cs).map
      ([UInt8.ofNat ((v * 64 + n) / 65536), UInt8.ofNat ((v * 64 + n) / 256),
        UInt8.ofNat (v * 64 + n)] ++ ·) := by
  simp only [decodeFrom, symbol_digit h, step]

/-! ### Characters that are skipped, and signs behind the end -/

/-- Characters outside the alphabet may be left out before reading. -/
theorem decodeFrom_filter {p : Char → Bool} {cs : List Char}
    (h : ∀ c ∈ cs, p c = false → symbol c = .skip) (st : State) :
    decodeFrom st (cs.filter p) = decodeFrom st cs := by
  induction cs generalizing st with
  | nil => rfl
  | cons c cs ih =>
    have ih' := ih fun d hd => h d (List.mem_cons_of_mem c hd)
    cases hc : p c with
    | true =>
      rw [List.filter_cons_of_pos hc]
      unfold decodeFrom
      cases step st (symbol c) with
      | none => rfl
      | some r => simp only [ih']
    | false =>
      have hskip : ∀ st, step st .skip = some (st, []) := fun st => by cases st <;> rfl
      rw [List.filter_cons_of_neg (by simp [hc]), ih', decodeFrom, h c List.mem_cons_self hc, hskip]
      simp

/-- Signs right behind whole tuples, two digits and three digits. -/
theorem decodeFrom_start_signs (k : Nat) :
    decodeFrom .start (List.replicate k '=') = if k = 0 then some [] else none := by
  match k with
  | 0 => rfl
  | k + 1 => rfl

@[inherit_doc decodeFrom_start_signs]
theorem decodeFrom_two_signs (v k : Nat) :
    decodeFrom (.two v) (List.replicate k '=')
      = if k = 0 ∨ k = 2 then some [UInt8.ofNat (v / 16)] else none := by
  match k with
  | 0 => rfl
  | 1 => rfl
  | 2 => rfl
  | k + 3 =>
    rw [if_neg (by omega)]
    rfl

@[inherit_doc decodeFrom_start_signs]
theorem decodeFrom_three_signs (v k : Nat) :
    decodeFrom (.three v) (List.replicate k '=')
      = if k = 0 ∨ k = 1 then some [UInt8.ofNat (v / 1024), UInt8.ofNat (v / 4)] else none := by
  match k with
  | 0 => rfl
  | 1 => rfl
  | k + 2 =>
    rw [if_neg (by omega)]
    rfl

/-- **A text with signs put behind it** is read if they are the padding it lacks, and refused if
    they are not. -/
theorem decode_encode_replicate (padding : Bool) (bs : List UInt8) {k : Nat} (hk : k ≤ 2) :
    decode (encode digit padding bs ++ List.replicate k '=')
      = if k = 0 ∨ (encode digit padding bs).length % 4 + k = 4 then some bs else none := by
  unfold decode
  fun_induction encode digit padding bs with
  | case1 =>
    rw [List.nil_append, decodeFrom_start_signs]
    exact if_congr (by simp only [List.length_nil]; omega) rfl rfl
  | case2 a =>
    have ha := a.toNat_lt
    have hbyte : UInt8.ofNat ((a.toNat / 4 * 64 + a.toNat % 4 * 16) / 16) = a :=
      ofNat_eq (by omega)
    simp only [List.cons_append]
    rw [decodeFrom_digit (by omega) rfl, decodeFrom_digit (by omega) rfl]
    have hpads : (if padding = true then ['=', '='] else []) ++ List.replicate k '='
        = List.replicate ((if padding = true then 2 else 0) + k) '=' := by
      rw [List.replicate_add]
      cases padding <;> rfl
    rw [hpads, decodeFrom_two_signs, hbyte]
    refine if_congr ?_ rfl rfl
    cases padding <;> simp <;> omega
  | case3 a b =>
    have ha := a.toNat_lt
    have hb := b.toNat_lt
    have hfst : UInt8.ofNat (((a.toNat / 4 * 64 + (a.toNat % 4 * 16 + b.toNat / 16)) * 64
        + b.toNat % 16 * 4) / 1024) = a := ofNat_eq (by omega)
    have hsnd : UInt8.ofNat (((a.toNat / 4 * 64 + (a.toNat % 4 * 16 + b.toNat / 16)) * 64
        + b.toNat % 16 * 4) / 4) = b := ofNat_eq (by omega)
    simp only [List.cons_append]
    rw [decodeFrom_digit (by omega) rfl, decodeFrom_digit (by omega) rfl,
      decodeFrom_digit (by omega) rfl]
    have hpads : (if padding = true then ['='] else []) ++ List.replicate k '='
        = List.replicate ((if padding = true then 1 else 0) + k) '=' := by
      rw [List.replicate_add]
      cases padding <;> rfl
    rw [hpads, decodeFrom_three_signs, hfst, hsnd]
    refine if_congr ?_ rfl rfl
    cases padding <;> simp <;> omega
  | case4 a b c bs ih =>
    have ha := a.toNat_lt
    have hb := b.toNat_lt
    have hc := c.toNat_lt
    simp only [List.cons_append]
    have hw : ((a.toNat / 4 * 64 + (a.toNat % 4 * 16 + b.toNat / 16)) * 64
        + (b.toNat % 16 * 4 + c.toNat / 64)) * 64 + c.toNat % 64
        = a.toNat * 65536 + b.toNat * 256 + c.toNat := by omega
    have hfst : UInt8.ofNat ((a.toNat * 65536 + b.toNat * 256 + c.toNat) / 65536) = a :=
      ofNat_eq (by omega)
    have hsnd : UInt8.ofNat ((a.toNat * 65536 + b.toNat * 256 + c.toNat) / 256) = b :=
      ofNat_eq (by omega)
    have hthd : UInt8.ofNat (a.toNat * 65536 + b.toNat * 256 + c.toNat) = c :=
      ofNat_eq (by omega)
    rw [decodeFrom_digit (by omega) rfl, decodeFrom_digit (by omega) rfl,
      decodeFrom_digit (by omega) rfl, decodeFrom_fourth (by omega), ih, hw, hfst, hsnd, hthd]
    have hlen : ∀ n, (n + 1 + 1 + 1 + 1) % 4 = n % 4 := by omega
    simp only [List.length_cons, hlen]
    split <;> rfl

/-- **The reader gives back the bytes.** -/
theorem decode_encode (padding : Bool) (bs : List UInt8) :
    decode (encode digit padding bs) = some bs := by
  simpa using decode_encode_replicate padding bs (k := 0) (by omega)

/-! ## 5. How much is read -/

/-- A character that counts for the bytes. -/
def isDigit (c : Char) : Bool :=
  match symbol c with
  | .value _ => true
  | _ => false

/-- The digits of a tuple that is not complete. -/
def pending : State → Nat
  | .one _ => 1
  | .two _ => 2
  | .three _ => 3
  | _ => 0

theorem length_step {st st' : State} {c : Char} {out : List UInt8}
    (h : step st (symbol c) = some (st', out)) :
    4 * out.length + 3 * pending st' ≤ 3 * (pending st + if isDigit c then 1 else 0) := by
  unfold isDigit
  generalize symbol c = sym at h ⊢
  cases st <;> cases sym <;> cases h <;> simp [pending]

theorem length_decodeFrom {st : State} {cs : List Char} {out : List UInt8}
    (h : decodeFrom st cs = some out) : 4 * out.length ≤ 3 * (pending st + cs.countP isDigit) := by
  induction cs generalizing st out with
  | nil =>
    unfold decodeFrom at h
    cases st <;> cases h <;> simp [pending]
  | cons c cs ih =>
    unfold decodeFrom at h
    cases hs : step st (symbol c) with
    | none =>
      rw [hs] at h
      cases h
    | some r =>
      obtain ⟨st', o⟩ := r
      rw [hs] at h
      obtain ⟨rest, hrest, rfl⟩ := Option.map_eq_some_iff.1 h
      have hstep := length_step hs
      have hlen := ih hrest
      rw [List.length_append, List.countP_cons]
      omega

/-- Four digits make three bytes at most. -/
theorem length_decode {cs : List Char} {out : List UInt8} (h : decode cs = some out) :
    4 * out.length ≤ 3 * cs.countP isDigit := by
  simpa [pending] using length_decodeFrom h

/-- No padding has been read. -/
def isOpen : State → Bool
  | .start | .one _ | .two _ | .three _ => true
  | .wantEquals | .done => false

/-- One digit: the fourth completes three bytes. -/
theorem step_value {st : State} (hst : isOpen st = true) (n : Nat) :
    ∃ st' out q, step st (.value n) = some (st', out) ∧ isOpen st' = true ∧
      pending st' + 4 * q = pending st + 1 ∧ out.length = 3 * q := by
  cases st with
  | start => exact ⟨_, _, 0, rfl, rfl, rfl, rfl⟩
  | one v => exact ⟨_, _, 0, rfl, rfl, rfl, rfl⟩
  | two v => exact ⟨_, _, 0, rfl, rfl, rfl, rfl⟩
  | three v => exact ⟨_, _, 1, rfl, rfl, rfl, rfl⟩
  | wantEquals => cases hst
  | done => cases hst

/-- Digits, and what is skipped: where the reader stands behind them, and how much it has read. -/
theorem decodeFrom_digits {st : State} (hst : isOpen st = true) {cs : List Char}
    (h : ∀ c ∈ cs, symbol c ≠ .equals) : ∃ st' out q, isOpen st' = true ∧
      pending st' + 4 * q = pending st + cs.countP isDigit ∧ out.length = 3 * q ∧
      ∀ rest, decodeFrom st (cs ++ rest) = (decodeFrom st' rest).map (out ++ ·) := by
  induction cs generalizing st with
  | nil => exact ⟨st, [], 0, hst, rfl, rfl, fun rest => by simp⟩
  | cons c cs ih =>
    obtain ⟨hc, hcs⟩ := List.forall_mem_cons.1 h
    cases hsymbol : symbol c with
    | equals => exact absurd hsymbol hc
    | skip =>
      obtain ⟨st', out, q, hopen, hcount, hlength, hread⟩ := ih hst hcs
      have hdigit : isDigit c = false := by rw [isDigit, hsymbol]
      have hskip : step st .skip = some (st, []) := by cases st <;> rfl
      refine ⟨st', out, q, hopen, by simp [hcount, hdigit], hlength, fun rest => ?_⟩
      rw [List.cons_append, decodeFrom, hsymbol, hskip]
      simp only [List.nil_append, Option.map_id', hread]
    | value n =>
      obtain ⟨st₁, o, q₁, hstep, hopen₁, hcount₁, hlength₁⟩ := step_value hst n
      obtain ⟨st', out, q, hopen, hcount, hlength, hread⟩ := ih hopen₁ hcs
      have hdigit : isDigit c = true := by rw [isDigit, hsymbol]
      refine ⟨st', o ++ out, q₁ + q, hopen, ?_, ?_, fun rest => ?_⟩
      · rw [List.countP_cons_of_pos hdigit]
        omega
      · rw [List.length_append]
        omega
      · rw [List.cons_append, decodeFrom, hsymbol, hstep]
        simp only [hread, Option.map_map, List.append_assoc]
        rfl

/-- An even number of digits is read, without padding. -/
theorem decode_of_even {cs : List Char} (h : ∀ c ∈ cs, symbol c ≠ .equals)
    (heven : cs.countP isDigit % 2 = 0) :
    ∃ out, decode cs = some out ∧ 3 * cs.countP isDigit ≤ 4 * out.length + 2 := by
  have hstart : isOpen .start = true := rfl
  obtain ⟨st, out, q, hopen, hcount, hlength, hread⟩ := decodeFrom_digits hstart h
  have hend := hread []
  rw [List.append_nil] at hend
  rw [show pending .start = 0 from rfl] at hcount
  unfold decode
  rw [hend]
  cases st with
  | start =>
    rw [show pending .start = 0 from rfl] at hcount
    exact ⟨out ++ [], rfl, by rw [List.append_nil]; omega⟩
  | one v =>
    rw [show pending (.one v) = 1 from rfl] at hcount
    omega
  | two v =>
    rw [show pending (.two v) = 2 from rfl] at hcount
    exact ⟨out ++ [_], rfl, by rw [List.length_append, List.length_singleton]; omega⟩
  | three v =>
    rw [show pending (.three v) = 3 from rfl] at hcount
    omega
  | wantEquals => cases hopen
  | done => cases hopen

/-- Behind an odd number of digits two signs are one too many. -/
theorem decode_signs_of_odd {cs : List Char} (h : ∀ c ∈ cs, symbol c ≠ .equals)
    (hodd : cs.countP isDigit % 2 = 1) : decode (cs ++ ['=', '=']) = none := by
  have hstart : isOpen .start = true := rfl
  obtain ⟨st, out, q, hopen, hcount, hlength, hread⟩ := decodeFrom_digits hstart h
  rw [show pending .start = 0 from rfl] at hcount
  unfold decode
  rw [hread]
  cases st with
  | start =>
    rw [show pending .start = 0 from rfl] at hcount
    omega
  | one v => rfl
  | two v =>
    rw [show pending (.two v) = 2 from rfl] at hcount
    omega
  | three v => rfl
  | wantEquals => cases hopen
  | done => cases hopen

end Base64
