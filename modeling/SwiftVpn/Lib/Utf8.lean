/-
  File:      SwiftVpn/Lib/Utf8.lean
  Subject:   UTF-8 ON LISTS.

  * `encode` -- the bytes of a text, character by character with the standard library's encoder;
  * `decode` -- the reader that replaces: a malformed sequence becomes one U+FFFD, and is as long as
    the longest part of a well-formed sequence that starts there (`malformedLength`);
  * `decode_encode` -- what was written is read back, and a part of it from the same character on
    (`head?_decode_encode`);
  * `length_decode_le` -- a reader never makes more characters than it is given bytes;
  * `length_le_encode_decode` -- and never characters that take fewer bytes.
-/
import Mathlib.Data.List.Basic

namespace Utf8

/-- The bytes of a text. -/
def encode (cs : List Char) : List UInt8 := cs.flatMap String.utf8EncodeChar

@[simp] theorem encode_nil : encode [] = [] := rfl

theorem encode_cons (c : Char) (cs : List Char) :
    encode (c :: cs) = String.utf8EncodeChar c ++ encode cs := by
  simp [encode]

/-- The character a sequence of bytes starts with. -/
def headChar (bs : List UInt8) : Option Char :=
  ByteArray.utf8DecodeChar? (bs.take 4).toByteArray 0

/-- `b` may follow `a`, the first byte of a sequence of three or four. -/
def follows (a b : UInt8) : Bool :=
  0xE0 ≤ a && a ≤ 0xF4 && 0x80 ≤ b && b ≤ 0xBF && (a != 0xE0 || 0xA0 ≤ b) &&
    (a != 0xED || b ≤ 0x9F) && (a != 0xF0 || 0x90 ≤ b) && (a != 0xF4 || b ≤ 0x8F)

/-- How many bytes one replacement stands for, at a place where no character starts. -/
def malformedLength : List UInt8 → Nat
  | a :: b :: bs =>
    if follows a b then
      -- only of a sequence of four can a third byte be right and the whole still be malformed
      if 0xF0 ≤ a && bs.head?.any (fun c => 0x80 ≤ c && c ≤ 0xBF) then 3 else 2
    else 1
  | _ => 1

theorem malformedLength_pos (bs : List UInt8) : 0 < malformedLength bs := by
  unfold malformedLength
  split
  · split
    · split <;> omega
    · omega
  · omega

/-- At most `n` characters of the text behind the bytes. -/
def decodeFrom : Nat → List UInt8 → List Char
  | 0, _ => []
  | _ + 1, [] => []
  | n + 1, b :: bs =>
    match headChar (b :: bs) with
    | some c => c :: decodeFrom n ((b :: bs).drop c.utf8Size)
    | none => '\uFFFD' :: decodeFrom n ((b :: bs).drop (malformedLength (b :: bs)))

/-- The text behind the bytes, malformed sequences replaced. -/
def decode (bs : List UInt8) : List Char := decodeFrom bs.length bs

@[simp] theorem decode_nil : decode [] = [] := rfl

/-! ## What was written is read back -/

theorem headChar_encode (c : Char) (bs : List UInt8) :
    headChar (String.utf8EncodeChar c ++ bs) = some c := by
  have hle : (String.utf8EncodeChar c).length ≤ 4 := by
    rw [String.length_utf8EncodeChar]
    exact c.utf8Size_le_four
  unfold headChar
  rw [List.take_append, List.take_of_length_le hle, List.toByteArray_append]
  exact ByteArray.utf8DecodeChar?_utf8EncodeChar_append

theorem decodeFrom_encode (cs : List Char) (n : Nat) (hn : (encode cs).length ≤ n) :
    decodeFrom n (encode cs) = cs := by
  induction cs generalizing n with
  | nil => cases n <;> rfl
  | cons c cs ih =>
    rw [encode_cons] at hn ⊢
    have hsize : (String.utf8EncodeChar c).length = c.utf8Size := String.length_utf8EncodeChar c
    have hpos : 0 < c.utf8Size := c.utf8Size_pos
    rw [List.length_append, hsize] at hn
    obtain ⟨m, rfl⟩ : ∃ m, n = m + 1 := ⟨n - 1, by omega⟩
    have hhead := headChar_encode c (encode cs)
    have hdrop : (String.utf8EncodeChar c ++ encode cs).drop c.utf8Size = encode cs := by
      rw [← hsize, List.drop_left]
    -- the encoding of a character is not empty, so the reader takes its second equation
    cases hb : String.utf8EncodeChar c ++ encode cs with
    | nil =>
      have := congrArg List.length hb
      rw [List.length_append, hsize, List.length_nil] at this
      omega
    | cons b bs =>
      rw [hb] at hhead hdrop
      simp only [decodeFrom, hhead, hdrop]
      rw [ih m (by omega)]

/-- **Decoding gives back the encoded text.** -/
@[simp] theorem decode_encode (cs : List Char) : decode (encode cs) = cs :=
  decodeFrom_encode cs _ (Nat.le_refl _)

/-- A text that starts with a whole character is read from it on. -/
theorem head?_decode_encode (c : Char) (bs : List UInt8) :
    (decode (String.utf8EncodeChar c ++ bs)).head? = some c := by
  have hhead := headChar_encode c bs
  cases hb : String.utf8EncodeChar c ++ bs with
  | nil =>
    have hlen := congrArg List.length hb
    have hpos : 0 < c.utf8Size := c.utf8Size_pos
    rw [List.length_append, String.length_utf8EncodeChar, List.length_nil] at hlen
    omega
  | cons a as =>
    rw [hb] at hhead
    simp only [decode, List.length_cons, decodeFrom, hhead, List.head?_cons]

/-! ## A reader makes no more characters than it has bytes -/

theorem length_decodeFrom_le (n : Nat) (bs : List UInt8) : (decodeFrom n bs).length ≤ bs.length := by
  induction n generalizing bs with
  | zero => exact Nat.zero_le _
  | succ n ih =>
    cases bs with
    | nil => exact Nat.zero_le _
    | cons b bs =>
      unfold decodeFrom
      split
      · rename_i c _
        have h := ih ((b :: bs).drop c.utf8Size)
        have hpos := c.utf8Size_pos
        rw [List.length_drop] at h
        simp only [List.length_cons] at h ⊢
        omega
      · have h := ih ((b :: bs).drop (malformedLength (b :: bs)))
        have hpos := malformedLength_pos (b :: bs)
        rw [List.length_drop] at h
        simp only [List.length_cons] at h ⊢
        omega

theorem malformedLength_le (bs : List UInt8) : malformedLength bs ≤ 3 := by
  unfold malformedLength
  split
  · split
    · split <;> omega
    · omega
  · omega

theorem length_le_encode_decodeFrom {n : Nat} {bs : List UInt8} (h : bs.length ≤ n) :
    bs.length ≤ (encode (decodeFrom n bs)).length := by
  induction n generalizing bs with
  | zero => exact Nat.le_trans h (Nat.zero_le _)
  | succ n ih =>
    cases bs with
    | nil => exact Nat.zero_le _
    | cons b bs =>
      unfold decodeFrom
      rw [List.length_cons] at h
      cases hc : headChar (b :: bs) with
      | some c =>
        have hpos := c.utf8Size_pos
        have hdrop : ((b :: bs).drop c.utf8Size).length ≤ n := by
          rw [List.length_drop, List.length_cons]
          omega
        have hrest := ih hdrop
        rw [List.length_drop] at hrest
        dsimp only
        rw [encode_cons, List.length_append, String.length_utf8EncodeChar]
        omega
      | none =>
        -- a replacement takes three bytes, and stands for three at most
        have hpos := malformedLength_pos (b :: bs)
        have hle := malformedLength_le (b :: bs)
        have hsize : (String.utf8EncodeChar '\uFFFD').length = 3 := by decide
        have hdrop : ((b :: bs).drop (malformedLength (b :: bs))).length ≤ n := by
          rw [List.length_drop, List.length_cons]
          omega
        have hrest := ih hdrop
        rw [List.length_drop] at hrest
        dsimp only
        rw [encode_cons, List.length_append, hsize]
        omega

/-- **The text that is read takes at least as many bytes as it was read from.** -/
theorem length_le_encode_decode (bs : List UInt8) : bs.length ≤ (encode (decode bs)).length :=
  length_le_encode_decodeFrom (Nat.le_refl _)

theorem length_decode_le (bs : List UInt8) : (decode bs).length ≤ bs.length :=
  length_decodeFrom_le _ bs

end Utf8
