/-
  File:      SwiftVpn/Xray/Bodies.lean
  Subject:   SUBSCRIPTION BODIES IN BASE64: `XraySubscriptionStore.parseLinks` on any lines, remarks
             among them.

  * `Joined` -- the lines of a text, each ended by LF or CRLF but for the last;
  * `Body` -- a base64 text with LF and CR anywhere in it and white space around it;
  * `parseLinks_body` -- the raw reading finds nothing in such a body, and the decoded one finds every
    line that looks like a share link.
-/
import SwiftVpn.Xray.Links

namespace SwiftVpn.XrayShareLink

/-! ## 1. Lines -/

/-- The lines, joined by LF or CRLF. -/
inductive Joined : List String → List Char → Prop where
  | single (l : String) : Joined [l] l.toList
  | lf (l : String) {ls : List String} {cs : List Char} (h : Joined ls cs) :
      Joined (l :: ls) (l.toList ++ '\n' :: cs)
  | crLf (l : String) {ls : List String} {cs : List Char} (h : Joined ls cs) :
      Joined (l :: ls) (l.toList ++ '\r' :: '\n' :: cs)

theorem joinCrLf_append {l : List Char} (h : '\r' ∉ l) (cs : List Char) :
    joinCrLf (l ++ cs) = l ++ joinCrLf cs := by
  induction l with
  | nil => rfl
  | cons c l ih =>
    rw [List.mem_cons, not_or] at h
    have hstep : joinCrLf (c :: (l ++ cs)) = c :: joinCrLf (l ++ cs) := by
      rw [joinCrLf]
      rintro ds rfl -
      exact h.1 rfl
    rw [List.cons_append, List.cons_append, hstep, ih h.2]

/-- **The lines are read back**, whichever way they are joined. -/
theorem lineSequence_joined {ls : List String} {cs : List Char} (hj : Joined ls cs)
    (h : ∀ l ∈ ls, ∀ c ∈ l.toList, c ≠ '\n' ∧ c ≠ '\r') : lineSequence (String.ofList cs) = ls := by
  rw [lineSequence_ofList]
  induction hj with
  | single l =>
    have hl := h l (List.mem_singleton_self l)
    rw [joinCrLf_of_not_mem fun hm => (hl _ hm).2 rfl, List.splitOnP_eq_singleton, List.map_singleton,
      String.ofList_toList]
    intro c hc
    simp [(hl c hc).1, (hl c hc).2]
  | lf l hj ih | crLf l hj ih =>
    have hl := h l List.mem_cons_self
    have hsep : ∀ c ∈ l.toList, (c == '\n' || c == '\r') = false := fun c hc => by
      simp [(hl c hc).1, (hl c hc).2]
    rw [joinCrLf_append fun hm => (hl _ hm).2 rfl, joinCrLf,
      List.splitOnP_append_cons_of_forall_mem hsep '\n' (by decide), List.map_cons,
      String.ofList_toList, ih fun m hm => h m (List.mem_cons_of_mem l hm)]
    all_goals exact fun _ h => absurd h (by decide)

/-! ## 2. White space and line breaks -/

section Surround

variable {p : Char → Bool} {pre mid post : List Char}

/-- What is trimmed may as well not be there. -/
theorem dropWhile_append_of_all (h : ∀ c ∈ pre, p c = true) (cs : List Char) :
    (pre ++ cs).dropWhile p = cs.dropWhile p := by
  induction pre with
  | nil => rfl
  | cons c pre ih =>
    rw [List.cons_append, List.dropWhile_cons_of_pos (h c List.mem_cons_self),
      ih fun d hd => h d (List.mem_cons_of_mem c hd)]

theorem trimChars_surround (hpre : ∀ c ∈ pre, isWhitespace c = true)
    (hpost : ∀ c ∈ post, isWhitespace c = true) : trimChars (pre ++ mid ++ post) = trimChars mid := by
  have hback : ∀ c ∈ post.reverse, isWhitespace c = true := fun c hc =>
    hpost c (List.mem_reverse.mp hc)
  unfold trimChars
  rw [List.append_assoc, dropWhile_append_of_all hpre]
  cases hmid : mid.dropWhile isWhitespace with
  | nil =>
    have hall : ∀ c ∈ mid, isWhitespace c = true := by
      simpa [List.dropWhile_eq_nil_iff] using hmid
    have hnone : post.dropWhile isWhitespace = [] := List.dropWhile_eq_nil_iff.mpr hpost
    rw [dropWhile_append_of_all hall, hnone]
  | cons c cs =>
    rw [List.dropWhile_append, hmid]
    simp only [List.isEmpty_cons, Bool.false_eq_true, if_false]
    rw [List.reverse_append, dropWhile_append_of_all hback]

end Surround

/-- The base64 of `bs` with line breaks anywhere in it and white space around it. -/
def Body (f : Base64.Flavour) (bs : List UInt8) (cs : List Char) : Prop :=
  ∃ pre mid post : List Char, cs = pre ++ mid ++ post ∧
    (∀ c ∈ pre, isWhitespace c = true) ∧ (∀ c ∈ post, isWhitespace c = true) ∧
    mid.filter (fun c => c != '\n' && c != '\r') = f.encode bs

section Broken

variable {f : Base64.Flavour} {bs : List UInt8} {body : String}

/-- The characters of a body are white space or those of base64. -/
theorem Body.mem (h : Body f bs body.toList) {c : Char} (hc : c ∈ body.toList) :
    isWhitespace c = true ∨ Base64.isBase64 c = true := by
  obtain ⟨pre, mid, post, hcs, hpre, hpost, hmid⟩ := h
  rw [hcs, List.mem_append, List.mem_append] at hc
  rcases hc with (hc | hc) | hc
  · exact .inl (hpre c hc)
  · cases hbreak : c != '\n' && c != '\r' with
    | true =>
      have hm : c ∈ f.encode bs := hmid ▸ List.mem_filter.mpr ⟨hc, hbreak⟩
      exact .inr (Base64.Flavour.isBase64_of_mem hm)
    | false =>
      left
      rw [Bool.and_eq_false_iff, bne_eq_false_iff_eq, bne_eq_false_iff_eq] at hbreak
      rcases hbreak with rfl | rfl <;> decide
  · exact .inl (hpost c hc)

/-- Without its line breaks, a trimmed body is the base64. -/
theorem Body.filter_trim (h : Body f bs body.toList) :
    (SwiftVpn.trim body).toList.filter (fun c => c != '\n' && c != '\r') = f.encode bs := by
  obtain ⟨pre, mid, post, hcs, hpre, hpost, hmid⟩ := h
  have hvisible : ∀ c ∈ mid, isWhitespace c = true → (c != '\n' && c != '\r') = false := by
    intro c hc hw
    cases hbreak : c != '\n' && c != '\r' with
    | false => rfl
    | true =>
      have hm : c ∈ f.encode bs := hmid ▸ List.mem_filter.mpr ⟨hc, hbreak⟩
      rw [(isBase64_props (Base64.Flavour.isBase64_of_mem hm)).1] at hw
      cases hw
  rw [SwiftVpn.trim, String.toList_ofList, hcs, trimChars_surround hpre hpost, ← hmid]
  unfold trimChars
  rw [List.filter_reverse, filter_dropWhile, List.filter_reverse, List.reverse_reverse,
    filter_dropWhile hvisible]
  intro c hc
  rw [List.mem_reverse] at hc
  exact hvisible c ((List.dropWhile_sublist _).mem hc)

/-- **A body in base64 is what its bytes say**: there is no link in the base64 itself. -/
theorem parseLinks_of_body (h : Body f bs body.toList) :
    XraySubscriptionStore.parseLinks body = XraySubscriptionStore.collect (utf8String bs) := by
  have hdecoded : XraySubscriptionStore.fromDecoded body
      = XraySubscriptionStore.collect (utf8String bs) := by
    unfold XraySubscriptionStore.fromDecoded
    rw [subscription_decodeBase64_eq, h.filter_trim, readPadded_flavour]
  have hraw : XraySubscriptionStore.collect body = [] := by
    refine collect_of_not_mem fun hc => ?_
    rcases h.mem hc with hw | hb
    · exact absurd hw (by decide)
    · exact absurd hb (by decide)
  unfold XraySubscriptionStore.parseLinks
  rw [hraw, hdecoded]
  exact if_pos (Nat.zero_le _)

end Broken

/-- The links of some lines. -/
theorem collect_joined {ls : List String} {cs : List Char} (hj : Joined ls cs)
    (h : ∀ l ∈ ls, ∀ c ∈ l.toList, c ≠ '\n' ∧ c ≠ '\r') :
    XraySubscriptionStore.collect (String.ofList cs)
      = ((ls.map trim).filter looksLikeShareLink).eraseDups := by
  have hempty : ∀ l : String, (!l.isEmpty && looksLikeShareLink l) = looksLikeShareLink l := by
    intro l
    cases he : l.isEmpty with
    | false => rw [Bool.not_false, Bool.true_and]
    | true =>
      have hnone : looksLikeShareLink l = false := by
        rw [String.isEmpty_iff.mp he]
        decide
      rw [hnone, Bool.and_false]
  unfold XraySubscriptionStore.collect
  rw [lineSequence_joined hj h]
  simp only [hempty]

/-- **A subscription in base64 is read completely**: the trimmed lines that look like a share link,
    each once and in order, whatever lines stand between them, whichever flavour of base64 it is and
    wherever that is broken. -/
theorem parseLinks_body (f : Base64.Flavour) {ls : List String} {cs : List Char} {body : String}
    (hj : Joined ls cs) (h : ∀ l ∈ ls, ∀ c ∈ l.toList, c ≠ '\n' ∧ c ≠ '\r')
    (hbody : Body f (toByteArray (String.ofList cs)) body.toList) :
    XraySubscriptionStore.parseLinks body
      = ((ls.map trim).filter looksLikeShareLink).eraseDups := by
  rw [parseLinks_of_body hbody, utf8String_toByteArray, collect_joined hj h]

theorem parseLinks_body_remark :
    XraySubscriptionStore.parseLinks " VA0K\r\nc3M6\nLy9h\n" = ["ss://a"] := by
  have hj : Joined ["T", "ss://a"] "T\r\nss://a".toList := .crLf "T" (.single "ss://a")
  have hbody : Body ⟨false, true⟩ (toByteArray (String.ofList "T\r\nss://a".toList))
      " VA0K\r\nc3M6\nLy9h\n".toList :=
    ⟨" ".toList, "VA0K\r\nc3M6\nLy9h".toList, "\n".toList, by decide, by decide, by decide,
      by decide +kernel⟩
  have hlinks := parseLinks_body ⟨false, true⟩ hj (by decide) hbody
  rw [hlinks]
  decide +kernel

end SwiftVpn.XrayShareLink
