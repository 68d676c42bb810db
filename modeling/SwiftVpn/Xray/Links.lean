/-
  File:      SwiftVpn/Xray/Links.lean
  Subject:   LISTS OF SHARE LINKS: `XrayShareLink.extractLinks` for a paste and
             `XraySubscriptionStore.parseLinks` for a subscription.

  A list of links is given as it is, one link a line (`plain`), or as the base64 of that text, broken
  into lines (`Wrapped`).

  * `looksLikeShareLink` -- the test of both; it looks at the scheme only;
  * `extractLinks` -- cuts at white space, and reads base64 only if there is no link in the text;
  * `parseLinks` -- cuts at line ends, and keeps the reading with more links;
  * `readings_agree` -- when both give the same list. They differ where a link has a space in it, where
    a plain text reads as base64 of as many links, and where the line breaks inside base64 make up a
    length that seems to lack padding.
-/
import SwiftVpn.Xray.RoundTrip

namespace SwiftVpn

/-! ## 1. The two readers -/

/-- The ends of lines as one character each. -/
def joinCrLf : List Char → List Char
  | '\r' :: '\n' :: cs => '\n' :: joinCrLf cs
  | c :: cs => c :: joinCrLf cs
  | [] => []

/-- Kotlin's `lineSequence`. -/
def lineSequence (s : String) : List String :=
  ((joinCrLf s.toList).splitOnP fun c => c == '\n' || c == '\r').map String.ofList

theorem lineSequence_ofList (cs : List Char) : lineSequence (String.ofList cs)
    = ((joinCrLf cs).splitOnP fun c => c == '\n' || c == '\r').map String.ofList := by
  rw [lineSequence, String.toList_ofList]

namespace XrayShareLink

/-- The schemes that are taken for a share link; `http://` is not among them. -/
def linkSchemes : List String :=
  ["vless://", "vmess://", "trojan://", "ss://", "socks://", "hysteria2://", "hy2://"]

/-- `looksLikeShareLink`. -/
def looksLikeShareLink (text : String) : Bool :=
  linkSchemes.any (startsWithIgnoreCase (trim text))

/-- The links among the words of a text. The empty words, which only the ends of the text give, are
    no links. -/
def linksIn (blob : String) : List String :=
  ((blob.toList.splitOnP isRegexSpace).map fun cs => trim (String.ofList cs)).filter looksLikeShareLink

/-- `extractLinks`. -/
def extractLinks (text : String) : List String :=
  let t := trim text
  if t.isEmpty then [] else
  let direct := linksIn t
  if !direct.isEmpty then direct else
  match decodeBase64 t with
  | some bytes => linksIn (utf8String bytes)
  | none => []

end XrayShareLink

namespace XraySubscriptionStore

open XrayShareLink

/-- `decodeBase64` of the subscriptions: line ends are taken out before the padding is counted. -/
def decodeBase64 (input : String) : Option (List UInt8) :=
  let s := (input.toList.filter fun c => c != '\n' && c != '\r').map fun c =>
    if c = '-' then '+' else if c = '_' then '/' else c
  let padded := match Text.length s % 4 with
    | 2 => s ++ ['=', '=']
    | 3 => s ++ ['=']
    | _ => s
  Base64.decode padded

/-- The links among the lines of a text, each once. -/
def collect (text : String) : List String :=
  (((lineSequence text).map trim).filter fun l => !l.isEmpty && looksLikeShareLink l).eraseDups

/-- The links of a body that is base64. -/
def fromDecoded (body : String) : List String :=
  match decodeBase64 (trim body) with
  | some bytes => collect (utf8String bytes)
  | none => []

/-- `parseLinks`. -/
def parseLinks (body : String) : List String :=
  let fromRaw := collect body
  if fromRaw.length ≤ (fromDecoded body).length then fromDecoded body else fromRaw

end XraySubscriptionStore

/-! ## 2. Schemes and white space -/

theorem subscription_decodeBase64_eq (input : String) : XraySubscriptionStore.decodeBase64 input
    = XrayShareLink.readPadded (input.toList.filter fun c => c != '\n' && c != '\r') := rfl

theorem foldCase_of_isWhitespace {c : Char} (h : isWhitespace c = true ∨ isRegexSpace c = true) :
    Text.foldCase c = c := by
  have hn : c.toNat ≤ 32 ∨ c.toNat = 0x85 ∨ c.toNat = 0xA0 ∨ c.toNat = 0x1680 ∨
      (0x2000 ≤ c.toNat ∧ c.toNat ≤ 0x205F) ∨ c.toNat = 0x3000 := by
    simp only [isWhitespace, isRegexSpace, Bool.or_eq_true, Bool.and_eq_true, decide_eq_true_eq,
      beq_iff_eq] at h
    omega
  unfold Text.foldCase
  split
  · omega
  · omega
  · omega
  · omega
  · exact Text.toLower_of_not_upper (by omega)

namespace XrayShareLink

/-- A text that some scheme folds to. -/
def IsScheme (p : List Char) : Prop :=
  ∃ lit ∈ linkSchemes, p.map Text.foldCase = lit.toList.map Text.foldCase

theorem looksLikeShareLink_iff (s : String) :
    looksLikeShareLink s = true ↔ ∃ p r, (trim s).toList = p ++ r ∧ IsScheme p := by
  unfold looksLikeShareLink IsScheme
  rw [List.any_eq_true]
  constructor
  · rintro ⟨lit, hlit, h⟩
    obtain ⟨p, r, hs, hp⟩ := (startsWithIgnoreCase_iff _ _).1 h
    exact ⟨p, r, hs, lit, hlit, hp⟩
  · rintro ⟨p, r, hs, lit, hlit, hp⟩
    exact ⟨lit, hlit, (startsWithIgnoreCase_iff _ _).2 ⟨p, r, hs, hp⟩⟩

/-- No character of a scheme is white space, of either kind. -/
theorem IsScheme.visible {p : List Char} (h : IsScheme p) {c : Char} (hc : c ∈ p) :
    isWhitespace c = false ∧ isRegexSpace c = false := by
  obtain ⟨lit, hlit, hp⟩ := h
  have hall : linkSchemes.all (fun lit => (lit.toList.map Text.foldCase).all fun c =>
      !isWhitespace c && !isRegexSpace c) = true := by decide
  have hfold : Text.foldCase c ∈ lit.toList.map Text.foldCase := hp ▸ List.mem_map_of_mem hc
  have hvisible := List.all_eq_true.1 (List.all_eq_true.1 hall lit hlit) _ hfold
  rw [Bool.and_eq_true, Bool.not_eq_true', Bool.not_eq_true'] at hvisible
  constructor
  · rw [Bool.eq_false_iff]
    intro hw
    rw [foldCase_of_isWhitespace (.inl hw), hw] at hvisible
    cases hvisible.1
  · rw [Bool.eq_false_iff]
    intro hw
    rw [foldCase_of_isWhitespace (.inr hw), hw] at hvisible
    cases hvisible.2

/-- A scheme ends in a colon and slashes. -/
theorem IsScheme.isInfix {p : List Char} (h : IsScheme p) : [':', '/'] <:+: p := by
  obtain ⟨lit, hlit, hp⟩ := h
  have hall : linkSchemes.all (fun lit => (lit.toList.map Text.foldCase).reverse.take 3 == ['/', '/', ':'])
      = true := by decide
  have hend := beq_iff_eq.1 (List.all_eq_true.1 hall lit hlit)
  have hfold : ∃ xs ys, xs ++ [':', '/'] ++ ys = p.map Text.foldCase := by
    refine ⟨((p.map Text.foldCase).reverse.drop 3).reverse, ['/'], ?_⟩
    have hsplit := List.take_append_drop 3 (p.map Text.foldCase).reverse
    rw [hp, hend, ← List.reverse_eq_iff] at hsplit
    rw [hp, ← hsplit]
    simp
  obtain ⟨xs, ys, hfold⟩ := hfold
  obtain ⟨p', q, rfl, hp', -⟩ := List.map_eq_append_iff.1 hfold.symm
  obtain ⟨r, s, rfl, -, hs⟩ := List.map_eq_append_iff.1 hp'
  obtain ⟨c, s, rfl, hc, hs⟩ := List.map_eq_cons_iff.1 hs
  obtain ⟨d, s, rfl, hd, hs⟩ := List.map_eq_cons_iff.1 hs
  obtain rfl := List.map_eq_nil_iff.1 hs
  rw [Text.eq_of_foldCase hc (by decide), Text.eq_of_foldCase hd (by decide)]
  exact List.infix_append r [':', '/'] q

theorem IsScheme.colon_mem {p : List Char} (h : IsScheme p) : ':' ∈ p :=
  h.isInfix.subset List.mem_cons_self

theorem infix_trimChars (cs : List Char) : trimChars cs <:+: cs := by
  unfold trimChars
  have hfront := List.dropWhile_suffix isWhitespace (l := cs)
  have hback := (List.dropWhile_suffix isWhitespace (l := (cs.dropWhile isWhitespace).reverse)).reverse
  rw [List.reverse_reverse] at hback
  exact hback.isInfix.trans hfront.isInfix

theorem mem_of_mem_trimChars {cs : List Char} {c : Char} (h : c ∈ trimChars cs) : c ∈ cs :=
  (infix_trimChars cs).subset h

/-- A link has a colon and a slash in a row. -/
theorem looksLikeShareLink_of_noScheme {s : String} (h : ¬ [':', '/'] <:+: s.toList) :
    looksLikeShareLink s = false := by
  rw [Bool.eq_false_iff]
  intro hl
  obtain ⟨p, r, hs, hp⟩ := (looksLikeShareLink_iff s).1 hl
  have hfront : p <:+: (trim s).toList := hs ▸ (List.prefix_append p r).isInfix
  rw [trim, String.toList_ofList] at hfront
  exact h (hp.isInfix.trans (hfront.trans (infix_trimChars _)))

theorem looksLikeShareLink_of_not_mem {s : String} (h : ':' ∉ s.toList) :
    looksLikeShareLink s = false :=
  looksLikeShareLink_of_noScheme fun hm => h (hm.subset List.mem_cons_self)

/-- Trimming leaves a visible start alone. -/
theorem trimChars_append {p : List Char} (hne : p ≠ []) (hp : ∀ c ∈ p, isWhitespace c = false)
    (r : List Char) : ∃ r', trimChars (p ++ r) = p ++ r' := by
  have hdrop : ∀ {q : List Char} (t : List Char), q ≠ [] → (∀ c ∈ q, isWhitespace c = false) →
      (q ++ t).dropWhile isWhitespace = q ++ t := by
    intro q t hq hv
    cases q with
    | nil => exact absurd rfl hq
    | cons c q => simp [hv c List.mem_cons_self]
  have hrev : ∀ t : List Char, ∃ t', (t ++ p.reverse).dropWhile isWhitespace = t' ++ p.reverse := by
    intro t
    induction t with
    | nil =>
      have := hdrop [] (q := p.reverse) (by simpa using hne) (by simpa using hp)
      exact ⟨[], by simpa using this⟩
    | cons c t ih =>
      cases hc : isWhitespace c with
      | true =>
        obtain ⟨t', ht'⟩ := ih
        exact ⟨t', by simpa [hc] using ht'⟩
      | false => exact ⟨c :: t, by simp [hc]⟩
  obtain ⟨t', ht'⟩ := hrev r.reverse
  refine ⟨t'.reverse, ?_⟩
  unfold trimChars
  rw [hdrop r hne hp, List.reverse_append, ht']
  simp

theorem getLast?_trimChars {cs : List Char} {c : Char} (h : c ∈ (trimChars cs).getLast?) :
    isWhitespace c = false := by
  rw [trimChars, List.getLast?_reverse] at h
  have hne := List.head?_dropWhile_not isWhitespace (cs.dropWhile isWhitespace).reverse
  rw [Option.mem_def.1 h] at hne
  simpa using hne

theorem head?_trimChars {cs : List Char} {c : Char} (h : c ∈ (trimChars cs).head?) :
    isWhitespace c = false := by
  have hne := List.head?_dropWhile_not isWhitespace cs
  cases hcs : cs.dropWhile isWhitespace with
  | nil =>
    rw [trimChars, hcs] at h
    cases h
  | cons d ds =>
    have hd : isWhitespace d = false := by
      rw [hcs] at hne
      simpa using hne
    have hdrop : trimChars cs = trimChars ([d] ++ ds) := by
      unfold trimChars
      rw [hcs, List.singleton_append, List.dropWhile_cons_of_neg (by simp [hd])]
    obtain ⟨r, hr⟩ := trimChars_append (p := [d]) (by simp) (by simpa using hd) ds
    rw [hdrop, hr] at h
    cases h
    exact hd

theorem trim_trim (s : String) : trim (trim s) = trim s := by
  apply trim_eq_self
  · intro c hc
    rw [trim, String.toList_ofList] at hc
    exact head?_trimChars hc
  · intro c hc
    rw [trim, String.toList_ofList] at hc
    exact getLast?_trimChars hc

theorem parse_trim (doubles : Doubles) (link : String) :
    parse doubles (trim link) = parse doubles link := by
  unfold parse
  rw [trim_trim]

theorem IsScheme.ne_nil {p : List Char} (h : IsScheme p) : p ≠ [] := by
  intro e
  have := h.colon_mem
  rw [e] at this
  cases this

/-- What starts with a scheme looks like a link. -/
theorem looksLikeShareLink_of_scheme {p : List Char} (h : IsScheme p) (r : List Char) :
    looksLikeShareLink (String.ofList (p ++ r)) = true := by
  obtain ⟨r', hr'⟩ := trimChars_append h.ne_nil (fun c hc => (h.visible hc).1) r
  rw [looksLikeShareLink_iff]
  exact ⟨p, r', by rw [trim, String.toList_ofList, String.toList_ofList, hr'], h⟩

/-! ## 3. Words -/

theorem linksIn_append {x : Char} (hx : isRegexSpace x = true) (xs ys : List Char) :
    linksIn (String.ofList (xs ++ x :: ys))
      = linksIn (String.ofList xs) ++ linksIn (String.ofList ys) := by
  unfold linksIn
  rw [String.toList_ofList, String.toList_ofList, String.toList_ofList,
    List.splitOnP_append_cons xs ys hx, List.map_append, List.filter_append]

theorem linksIn_nil : linksIn (String.ofList []) = [] := by decide

theorem linksIn_ofList (cs : List Char) : linksIn (String.ofList cs)
    = ((cs.splitOnP isRegexSpace).map fun word => trim (String.ofList word)).filter looksLikeShareLink := by
  rw [linksIn, String.toList_ofList]

/-- Links in the text itself are preferred. -/
theorem extractLinks_of_ne_nil {text : String} (h : linksIn (trim text) ≠ []) :
    extractLinks text = linksIn (trim text) := by
  have hempty : (trim text).isEmpty = false := by
    rw [Bool.eq_false_iff]
    intro he
    rw [String.isEmpty_iff] at he
    rw [he] at h
    exact h linksIn_nil
  have hdirect : (linksIn (trim text)).isEmpty = false := List.isEmpty_eq_false_iff.2 h
  unfold extractLinks
  simp only [hempty, hdirect, Bool.false_eq_true, if_false, Bool.not_false, if_true]

theorem isRegexSpace_of_mem_linksIn {blob link : String} (h : link ∈ linksIn blob) {c : Char}
    (hc : c ∈ link.toList) : isRegexSpace c = false := by
  unfold linksIn at h
  obtain ⟨hm, -⟩ := List.mem_filter.1 h
  obtain ⟨word, hword, rfl⟩ := List.mem_map.1 hm
  rw [trim, String.toList_ofList, String.toList_ofList] at hc
  exact (Text.mem_of_mem_splitOnP hword (mem_of_mem_trimChars hc)).2

/-- A text that holds nothing of a scheme holds no link. -/
theorem linksIn_of_noScheme {blob : String} (h : ¬ [':', '/'] <:+: blob.toList) : linksIn blob = [] := by
  unfold linksIn
  rw [List.filter_eq_nil_iff]
  intro link hl
  obtain ⟨word, hword, rfl⟩ := List.mem_map.1 hl
  rw [looksLikeShareLink_of_noScheme]
  · decide
  · rw [trim, String.toList_ofList, String.toList_ofList]
    exact fun hm => h (hm.trans ((infix_trimChars word).trans (Text.infix_of_mem_splitOnP hword)))

theorem linksIn_of_not_mem {blob : String} (h : ':' ∉ blob.toList) : linksIn blob = [] :=
  linksIn_of_noScheme fun hm => h (hm.subset List.mem_cons_self)

/-- A line as both readers get it. -/
structure IsLine (l : String) : Prop where
  single : ∀ c ∈ l.toList, c ≠ '\n' ∧ c ≠ '\r'
  trimmed : trim l = l
  looks : looksLikeShareLink l = true

/-- No white space stands in a link. -/
def NoSpace (l : String) : Prop := ∀ c ∈ l.toList, isRegexSpace c = false

theorem linksIn_of_noSpace {l : String} (hl : IsLine l) (h : NoSpace l) : linksIn l = [l] := by
  unfold linksIn
  rw [List.splitOnP_eq_singleton h, List.map_singleton, String.ofList_toList, hl.trimmed,
    List.filter_singleton, hl.looks]
  rfl

/-- Every line has a link in it, if only its first word. -/
theorem linksIn_ne_nil {l : String} (hl : IsLine l) : linksIn l ≠ [] := by
  obtain ⟨p, r, hs, hp⟩ := (looksLikeShareLink_iff l).1 hl.looks
  rw [hl.trimmed] at hs
  have hfirst : ∃ w ws, r.splitOnP isRegexSpace = w :: ws :=
    List.exists_cons_of_ne_nil (List.splitOnP_ne_nil _ _)
  obtain ⟨w, ws, hw⟩ := hfirst
  have hsplit : ∀ q : List Char, (∀ c ∈ q, isRegexSpace c = false) →
      (q ++ r).splitOnP isRegexSpace = (q ++ w) :: ws := by
    intro q hq
    induction q with
    | nil => exact hw
    | cons c q ih =>
      rw [List.cons_append, List.splitOnP_cons_eq_if_modifyHead,
        ih fun d hd => hq d (List.mem_cons_of_mem c hd), hq c List.mem_cons_self]
      rfl
  have hlooks : looksLikeShareLink (trim (String.ofList (p ++ w))) = true := by
    obtain ⟨w', hw'⟩ := trimChars_append hp.ne_nil (fun c hc => (hp.visible hc).1) w
    rw [trim, String.toList_ofList, hw']
    exact looksLikeShareLink_of_scheme hp w'
  unfold linksIn
  rw [hs, hsplit p fun c hc => (hp.visible hc).2, List.map_cons, List.filter_cons_of_pos hlooks]
  exact List.cons_ne_nil _ _

/-! ## 4. Lists of lines -/

/-- The links, one a line. -/
def plain (ls : List String) : String := String.ofList (['\n'].intercalate (ls.map String.toList))

theorem plain_singleton (l : String) : plain [l] = l := by
  simp [plain, List.intercalate]

theorem plain_cons_cons (l l' : String) (ls : List String) :
    plain (l :: l' :: ls) = String.ofList (l.toList ++ '\n' :: (plain (l' :: ls)).toList) := by
  simp [plain, List.intercalate]

theorem linksIn_plain (ls : List String) : linksIn (plain ls) = ls.flatMap linksIn := by
  induction ls with
  | nil => decide
  | cons l ls ih =>
    cases ls with
    | nil => simp [plain_singleton]
    | cons l' ls =>
      rw [plain_cons_cons, linksIn_append (by decide), String.ofList_toList, String.ofList_toList, ih,
        List.flatMap_cons (x := l)]

theorem joinCrLf_sublist (cs : List Char) : (joinCrLf cs).Sublist cs := by
  fun_induction joinCrLf cs with
  | case1 cs ih => exact (ih.cons_cons '\n').cons '\r'
  | case2 c cs hc ih => exact ih.cons_cons c
  | case3 => exact List.Sublist.refl _

theorem joinCrLf_of_not_mem {cs : List Char} (h : '\r' ∉ cs) : joinCrLf cs = cs := by
  fun_induction joinCrLf cs with
  | case1 cs ih => exact absurd List.mem_cons_self h
  | case2 c cs hc ih => rw [ih fun hm => h (List.mem_cons_of_mem c hm)]
  | case3 => rfl

theorem not_mem_plain {ls : List String} {x : Char} (hx : x ≠ '\n')
    (h : ∀ l ∈ ls, x ∉ l.toList) : x ∉ (plain ls).toList := by
  induction ls with
  | nil => simp [plain, List.intercalate]
  | cons l ls ih =>
    have hl := h l List.mem_cons_self
    have htail := ih fun l' hl' => h l' (List.mem_cons_of_mem l hl')
    cases ls with
    | nil => rwa [plain_singleton]
    | cons l' ls =>
      rw [plain_cons_cons, String.toList_ofList, List.mem_append, List.mem_cons, not_or, not_or]
      exact ⟨hl, hx, htail⟩

/-- **The lines of a list are read back.** -/
theorem lineSequence_plain {ls : List String} (hne : ls ≠ [])
    (h : ∀ l ∈ ls, ∀ c ∈ l.toList, c ≠ '\n' ∧ c ≠ '\r') : lineSequence (plain ls) = ls := by
  unfold lineSequence
  rw [joinCrLf_of_not_mem (not_mem_plain (by decide) fun l hl hm => (h l hl _ hm).2 rfl)]
  induction ls with
  | nil => exact absurd rfl hne
  | cons l ls ih =>
    have hl : ∀ c ∈ l.toList, (c == '\n' || c == '\r') = false := by
      intro c hc
      have := h l List.mem_cons_self c hc
      simp [this.1, this.2]
    cases ls with
    | nil =>
      rw [plain_singleton, List.splitOnP_eq_singleton hl, List.map_singleton, String.ofList_toList]
    | cons l' ls =>
      rw [plain_cons_cons, String.toList_ofList,
        List.splitOnP_append_cons_of_forall_mem hl '\n' (by decide), List.map_cons,
        String.ofList_toList, ih (by simp) fun m hm => h m (List.mem_cons_of_mem l hm)]

theorem eraseDups_sublist (ls : List String) : ls.eraseDups.Sublist ls := by
  induction h : ls.length using Nat.strongRecOn generalizing ls with
  | _ n ih =>
    cases ls with
    | nil => exact List.Sublist.refl _
    | cons l ls =>
      have hlt : (ls.filter fun b => !b == l).length < n := by
        have := List.length_filter_le (fun b => !b == l) ls
        rw [← h, List.length_cons]
        omega
      rw [List.eraseDups_cons]
      exact ((ih _ hlt _ rfl).trans List.filter_sublist).cons_cons l

/-- Every link that is collected is a trimmed line. -/
theorem collect_sublist (text : String) :
    (XraySubscriptionStore.collect text).Sublist ((lineSequence text).map trim) := by
  unfold XraySubscriptionStore.collect
  exact (eraseDups_sublist _).trans List.filter_sublist

theorem prefix_joinCrLf {lit cs : List Char} (hlit : '\n' ∉ lit) (h : lit <+: joinCrLf cs) : lit <+: cs := by
  fun_induction joinCrLf cs generalizing lit with
  | case1 cs ih =>
    cases lit with
    | nil => exact List.nil_prefix
    | cons x lit =>
      obtain ⟨rfl, -⟩ := List.cons_prefix_cons.1 h
      exact absurd List.mem_cons_self hlit
  | case2 c cs hc ih =>
    cases lit with
    | nil => exact List.nil_prefix
    | cons x lit =>
      obtain ⟨rfl, hrest⟩ := List.cons_prefix_cons.1 h
      exact List.cons_prefix_cons.2 ⟨rfl, ih (fun hm => hlit (List.mem_cons_of_mem x hm)) hrest⟩
  | case3 => exact h

/-- Nothing without a line end is joined. -/
theorem infix_joinCrLf {lit cs : List Char} (hlit : '\n' ∉ lit) (h : lit <:+: joinCrLf cs) : lit <:+: cs := by
  fun_induction joinCrLf cs with
  | case1 cs ih =>
    rcases List.infix_cons_iff.1 h with hfront | hrest
    · cases lit with
      | nil => exact List.nil_infix
      | cons x lit =>
        obtain ⟨rfl, -⟩ := List.cons_prefix_cons.1 hfront
        exact absurd List.mem_cons_self hlit
    · exact List.infix_cons (List.infix_cons (ih hrest))
  | case2 c cs hc ih =>
    rcases List.infix_cons_iff.1 h with hfront | hrest
    · have hstep : joinCrLf (c :: cs) = c :: joinCrLf cs := by rw [joinCrLf]; exact hc
      exact (prefix_joinCrLf hlit (hstep ▸ hfront)).isInfix
    · exact List.infix_cons (ih hrest)
  | case3 => exact h

/-- A text that holds nothing of a scheme has no link among its lines. -/
theorem looksLikeShareLink_of_lines {text l : String} (h : ¬ [':', '/'] <:+: text.toList)
    (hl : l ∈ (lineSequence text).map trim) : looksLikeShareLink l = false := by
  obtain ⟨m, hm, rfl⟩ := List.mem_map.1 hl
  obtain ⟨part, hpart, rfl⟩ := List.mem_map.1 hm
  apply looksLikeShareLink_of_noScheme
  rw [trim, String.toList_ofList, String.toList_ofList]
  intro hm
  have hpart' := hm.trans ((infix_trimChars part).trans (Text.infix_of_mem_splitOnP hpart))
  exact h (infix_joinCrLf (by decide) hpart')

theorem looksLikeShareLink_of_mem_lines {text l : String} (h : ':' ∉ text.toList)
    (hl : l ∈ (lineSequence text).map trim) : looksLikeShareLink l = false :=
  looksLikeShareLink_of_lines (fun hm => h (hm.subset List.mem_cons_self)) hl

theorem collect_of_not_mem {text : String} (h : ':' ∉ text.toList) :
    XraySubscriptionStore.collect text = [] := by
  have hnone : ((lineSequence text).map trim).filter
      (fun l => !l.isEmpty && looksLikeShareLink l) = [] := by
    rw [List.filter_eq_nil_iff]
    intro l hl
    rw [looksLikeShareLink_of_mem_lines h hl, Bool.and_false]
    decide
  unfold XraySubscriptionStore.collect
  rw [hnone]
  rfl

theorem eraseDups_of_nodup {ls : List String} (h : ls.Nodup) : ls.eraseDups = ls := by
  induction ls with
  | nil => rfl
  | cons l ls ih =>
    rw [List.nodup_cons] at h
    have hkeep : ls.filter (fun b => !b == l) = ls := by
      rw [List.filter_eq_self]
      intro b hb
      have hne : b ≠ l := fun e => h.1 (e ▸ hb)
      simpa using hne
    rw [List.eraseDups_cons, hkeep, ih h.2]

theorem IsLine.ne_empty {l : String} (h : IsLine l) : l.isEmpty = false := by
  rw [Bool.eq_false_iff]
  intro he
  rw [String.isEmpty_iff] at he
  have hl := h.looks
  rw [he] at hl
  revert hl
  decide

section Lines

variable {ls : List String}

theorem collect_plain (hne : ls ≠ []) (hnodup : ls.Nodup) (hlines : ∀ l ∈ ls, IsLine l) :
    XraySubscriptionStore.collect (plain ls) = ls := by
  have htrim : ls.map trim = ls := by
    conv_rhs => rw [← List.map_id ls]
    exact List.map_congr_left fun l hl => (hlines l hl).trimmed
  have hkeep : ls.filter (fun l => !l.isEmpty && looksLikeShareLink l) = ls := by
    rw [List.filter_eq_self]
    intro l hl
    rw [(hlines l hl).ne_empty, (hlines l hl).looks]
    rfl
  unfold XraySubscriptionStore.collect
  rw [lineSequence_plain hne fun l hl => (hlines l hl).single, htrim, hkeep, eraseDups_of_nodup hnodup]

theorem IsLine.last {l : String} (h : IsLine l) {c : Char} (hc : c ∈ l.toList.getLast?) :
    isWhitespace c = false := by
  have htrim := congrArg String.toList h.trimmed
  rw [trim, String.toList_ofList] at htrim
  exact getLast?_trimChars (by rwa [htrim])

theorem exists_head (ls : List String) (h : ∃ l ∈ ls.head?, IsLine l) :
    ∃ p r, (plain ls).toList = p ++ r ∧ IsScheme p := by
  obtain ⟨l, hl, hline⟩ := h
  obtain ⟨p, r, hs, hp⟩ := (looksLikeShareLink_iff l).1 hline.looks
  rw [hline.trimmed] at hs
  cases ls with
  | nil => cases hl
  | cons l₀ ls =>
    cases hl
    cases ls with
    | nil => exact ⟨p, r, by rw [plain_singleton, hs], hp⟩
    | cons l' ls =>
      exact ⟨p, r ++ '\n' :: (plain (l' :: ls)).toList, by
        rw [plain_cons_cons, String.toList_ofList, hs, List.append_assoc], hp⟩

theorem toList_plain_ne_nil (hne : ls ≠ []) (hlines : ∀ l ∈ ls, IsLine l) :
    (plain ls).toList ≠ [] := by
  cases ls with
  | nil => exact absurd rfl hne
  | cons l ls =>
    obtain ⟨p, r, hs, hp⟩ := exists_head (l :: ls) ⟨l, rfl, hlines l List.mem_cons_self⟩
    rw [hs]
    simp [hp.ne_nil]

/-- Nothing of a list of lines is trimmed. -/
theorem trim_plain (hne : ls ≠ []) (hlines : ∀ l ∈ ls, IsLine l) : trim (plain ls) = plain ls := by
  apply trim_eq_self
  · cases ls with
    | nil => exact absurd rfl hne
    | cons l ls =>
      obtain ⟨p, r, hs, hp⟩ := exists_head (l :: ls) ⟨l, rfl, hlines l List.mem_cons_self⟩
      rw [hs]
      cases p with
      | nil => exact absurd rfl hp.ne_nil
      | cons c p =>
        intro d hd
        cases hd
        exact (hp.visible List.mem_cons_self).1
  · induction ls with
    | nil => exact absurd rfl hne
    | cons l ls ih =>
      cases ls with
      | nil =>
        rw [plain_singleton]
        exact fun c hc => (hlines l List.mem_cons_self).last hc
      | cons l' ls =>
        have hrest : ∀ m ∈ l' :: ls, IsLine m := fun m hm => hlines m (List.mem_cons_of_mem l hm)
        have htail := ih (by simp) hrest
        have hnil := toList_plain_ne_nil (by simp) hrest
        intro c hc
        rw [plain_cons_cons, String.toList_ofList, List.getLast?_append_cons,
          List.getLast?_cons_of_ne_nil hnil] at hc
        exact htail c hc

/-- **A paste of links, one a line, is cut into words.** -/
theorem extractLinks_plain (hne : ls ≠ []) (hlines : ∀ l ∈ ls, IsLine l) :
    extractLinks (plain ls) = ls.flatMap linksIn := by
  have hlinks : linksIn (trim (plain ls)) = ls.flatMap linksIn := by
    rw [trim_plain hne hlines]
    exact linksIn_plain ls
  refine (extractLinks_of_ne_nil ?_).trans hlinks
  rw [hlinks]
  cases ls with
  | nil => exact absurd rfl hne
  | cons l ls =>
    rw [List.flatMap_cons]
    simp [linksIn_ne_nil (hlines l List.mem_cons_self)]

/-- The words of the lines are the lines exactly where there is no white space in them. -/
theorem flatMap_linksIn_iff (hlines : ∀ l ∈ ls, IsLine l) :
    ls.flatMap linksIn = ls ↔ ∀ l ∈ ls, NoSpace l := by
  constructor
  · intro h l hl c hc
    rw [← h] at hl
    obtain ⟨m, -, hm⟩ := List.mem_flatMap.1 hl
    exact isRegexSpace_of_mem_linksIn hm hc
  · intro h
    induction ls with
    | nil => rfl
    | cons l ls ih =>
      rw [List.flatMap_cons, linksIn_of_noSpace (hlines l List.mem_cons_self) (h l List.mem_cons_self),
        ih (fun m hm => hlines m (List.mem_cons_of_mem l hm))
          fun m hm => h m (List.mem_cons_of_mem l hm)]
      rfl

end Lines

/-! ## 5. Base64 -/

theorem filter_dropWhile {p q : Char → Bool} {cs : List Char}
    (h : ∀ c ∈ cs, q c = true → p c = false) : (cs.dropWhile q).filter p = cs.filter p := by
  induction cs with
  | nil => rfl
  | cons c cs ih =>
    cases hc : q c with
    | true =>
      have hp := h c List.mem_cons_self hc
      rw [List.dropWhile_cons_of_pos hc, ih fun d hd => h d (List.mem_cons_of_mem c hd),
        List.filter_cons_of_neg (by simp [hp])]
    | false => rw [List.dropWhile_cons_of_neg (by simp [hc])]

section Broken

variable {f : Base64.Flavour} {bs : List UInt8} {body : String}

/-- Only line breaks are trimmed from a broken text. -/
theorem Wrapped.trim (h : Wrapped f bs body.toList) : Wrapped f bs (trimChars body.toList) := by
  have hbreak : ∀ c ∈ body.toList, isWhitespace c = true → (c != '\n') = false := by
    intro c hc hw
    rcases h.mem hc with rfl | hb
    · rfl
    · rw [(isBase64_props hb).1] at hw
      cases hw
  unfold Wrapped trimChars
  rw [List.filter_reverse, filter_dropWhile, List.filter_reverse, List.reverse_reverse,
    filter_dropWhile hbreak]
  · exact h
  · intro c hc
    rw [List.mem_reverse] at hc
    exact hbreak c ((List.dropWhile_sublist _).mem hc)

theorem Wrapped.not_mem (h : Wrapped f bs body.toList) {x : Char} (hn : x ≠ '\n')
    (hb : Base64.isBase64 x = false) : x ∉ body.toList := by
  intro hx
  rcases h.mem hx with e | e
  · exact hn e
  · rw [hb] at e
    cases e

/-- **A paste in base64** is read by its length with the line breaks. -/
theorem extractLinks_wrapped (h : Wrapped f bs body.toList) (hne : bs ≠ []) :
    extractLinks body = if paddingFits (trimChars body.toList).length (f.encode bs).length
      then linksIn (utf8String bs) else [] := by
  have hcolon : ':' ∉ (SwiftVpn.trim body).toList := by
    rw [SwiftVpn.trim, String.toList_ofList]
    exact fun hm => h.not_mem (by decide) (by decide) (mem_of_mem_trimChars hm)
  have hempty : (SwiftVpn.trim body).isEmpty = false := by
    rw [Bool.eq_false_iff]
    intro he
    rw [String.isEmpty_iff, SwiftVpn.trim, String.ofList_eq_empty_iff] at he
    have hw := h.trim
    rw [he] at hw
    exact Base64.encode_ne_nil _ _ hne hw.symm
  have hread : decodeBase64 (SwiftVpn.trim body) = readPadded (trimChars body.toList) := by
    have htrim := congrArg String.toList (trim_trim body)
    rw [SwiftVpn.trim, String.toList_ofList] at htrim
    rw [decodeBase64_eq, htrim, SwiftVpn.trim, String.toList_ofList]
  unfold extractLinks
  simp only [hempty, linksIn_of_not_mem hcolon, hread, readPadded_wrapped h.trim]
  split
  · rename_i hc
    cases hc
  · split
    · rename_i hc
      cases hc
    · cases paddingFits (trimChars body.toList).length (f.encode bs).length <;> rfl

/-- **A subscription in base64** is read without the line breaks. -/
theorem parseLinks_wrapped (h : Wrapped f bs body.toList) :
    XraySubscriptionStore.parseLinks body = XraySubscriptionStore.collect (utf8String bs) := by
  have hfilter : (SwiftVpn.trim body).toList.filter (fun c => c != '\n' && c != '\r') = f.encode bs := by
    rw [SwiftVpn.trim, String.toList_ofList, ← h.trim]
    refine List.filter_congr fun c hc => ?_
    have hr : (c != '\r') = true := by
      rw [bne_iff_ne]
      rintro rfl
      exact h.not_mem (by decide) (by decide) (mem_of_mem_trimChars hc)
    rw [hr, Bool.and_true]
  have hdecoded : XraySubscriptionStore.fromDecoded body
      = XraySubscriptionStore.collect (utf8String bs) := by
    unfold XraySubscriptionStore.fromDecoded
    rw [subscription_decodeBase64_eq, hfilter, readPadded_flavour]
  have hraw : XraySubscriptionStore.collect body = [] :=
    collect_of_not_mem (h.not_mem (by decide) (by decide))
  unfold XraySubscriptionStore.parseLinks
  rw [hraw, hdecoded]
  exact if_pos (Nat.zero_le _)

end Broken

/-! ## 6. No text is the base64 of its own lines -/

/-- How long a list of lines is. -/
def size (ls : List String) : Nat := (ls.map fun l => l.toList.length + 1).sum

theorem size_cons (l : String) (ls : List String) : size (l :: ls) = l.toList.length + 1 + size ls := by
  simp [size]

theorem size_mono {ls ms : List String} (h : ls.Sublist ms) : size ls ≤ size ms := by
  induction h with
  | slnil => exact Nat.le_refl _
  | cons a _ ih =>
    rw [size_cons]
    omega
  | cons_cons a _ ih =>
    rw [size_cons, size_cons]
    omega

theorem size_map_trim (ls : List String) : size (ls.map trim) ≤ size ls := by
  induction ls with
  | nil => exact Nat.le_refl _
  | cons l ls ih =>
    have hl : (trim l).toList.length ≤ l.toList.length := by
      rw [trim, String.toList_ofList, trimChars, List.length_reverse]
      calc ((l.toList.dropWhile isWhitespace).reverse.dropWhile isWhitespace).length
          ≤ (l.toList.dropWhile isWhitespace).reverse.length := (List.dropWhile_sublist _).length_le
        _ = (l.toList.dropWhile isWhitespace).length := List.length_reverse
        _ ≤ l.toList.length := (List.dropWhile_sublist _).length_le
    rw [List.map_cons, size_cons, size_cons]
    omega

theorem size_splitOnP (sep : Char → Bool) (cs : List Char) :
    size ((cs.splitOnP sep).map String.ofList) = cs.length + 1 := by
  induction cs with
  | nil =>
    rw [List.splitOnP_nil]
    rfl
  | cons c cs ih =>
    rw [List.splitOnP_cons_eq_if_modifyHead]
    cases hsplit : cs.splitOnP sep with
    | nil => exact absurd hsplit (List.splitOnP_ne_nil _ _)
    | cons w ws =>
      rw [hsplit, List.map_cons, size_cons, String.toList_ofList] at ih
      split
      · rw [List.map_cons, List.map_cons, size_cons, size_cons, String.toList_ofList,
          String.toList_ofList, List.length_nil, List.length_cons]
        omega
      · rw [List.modifyHead_cons, List.map_cons, size_cons, String.toList_ofList, List.length_cons,
          List.length_cons]
        omega

theorem size_collect (text : String) :
    size (XraySubscriptionStore.collect text) ≤ text.toList.length + 1 := by
  have hlines : size (lineSequence text) ≤ text.toList.length + 1 := by
    unfold lineSequence
    rw [size_splitOnP]
    have := (joinCrLf_sublist text.toList).length_le
    omega
  have hsub := size_mono (collect_sublist text)
  have htrim := size_map_trim (lineSequence text)
  omega

theorem size_plain {ls : List String} (hne : ls ≠ []) : size ls = (plain ls).toList.length + 1 := by
  induction ls with
  | nil => exact absurd rfl hne
  | cons l ls ih =>
    cases ls with
    | nil => simp [size, plain_singleton]
    | cons l' ls =>
      rw [size_cons, ih (by simp), plain_cons_cons, String.toList_ofList, List.length_append,
        List.length_cons]
      omega

/-- What base64 reads is shorter than the text. -/
theorem length_readPadded {cs : List Char} {bs : List UInt8} (h : readPadded cs = some bs) :
    4 * bs.length ≤ 3 * cs.length := by
  rw [readPadded_eq] at h
  have hlen := Base64.length_decode h
  have hsigns : ∀ k, (List.replicate k '=').countP Base64.isDigit = 0 := by
    intro k
    rw [List.countP_eq_zero]
    intro c hc
    rw [(List.mem_replicate.1 hc).2]
    decide
  rw [List.countP_append, hsigns, Nat.add_zero] at hlen
  have hcount := List.countP_le_length (p := Base64.isDigit)
    (l := cs.map fun c => if c = '-' then '+' else if c = '_' then '/' else c)
  rw [List.length_map] at hcount
  omega

/-- **The base64 reading of a list never is that list.** -/
theorem fromDecoded_ne {ls : List String} (hne : ls ≠ []) (hlines : ∀ l ∈ ls, IsLine l) :
    XraySubscriptionStore.fromDecoded (plain ls) ≠ ls := by
  intro he
  unfold XraySubscriptionStore.fromDecoded at he
  split at he
  · rename_i bytes hread
    rw [subscription_decodeBase64_eq, trim_plain hne hlines] at hread
    have hbytes := length_readPadded hread
    have hfilter := List.length_filter_le (fun c => c != '\n' && c != '\r') (plain ls).toList
    have htext : (utf8String bytes).toList.length ≤ bytes.length := by
      rw [utf8String, String.toList_ofList]
      exact Utf8.length_decode_le bytes
    have hsize := size_collect (utf8String bytes)
    have hpos : 0 < (plain ls).toList.length :=
      List.length_pos_iff.2 (toList_plain_ne_nil hne hlines)
    rw [he, size_plain hne] at hsize
    omega
  · exact hne he.symm

/-! ## 7. When both readers agree -/

open XraySubscriptionStore (parseLinks fromDecoded)

/-- A subscription of links, one a line: its raw reading, unless the other has as many links. -/
theorem parseLinks_plain {ls : List String} (hne : ls ≠ []) (hnodup : ls.Nodup)
    (hlines : ∀ l ∈ ls, IsLine l) :
    parseLinks (plain ls)
      = if (fromDecoded (plain ls)).length < ls.length then ls else fromDecoded (plain ls) := by
  unfold parseLinks
  simp only [collect_plain hne hnodup hlines]
  split
  · rw [if_neg (by omega)]
  · rw [if_pos (by omega)]

/-- **When a paste and a subscription give the same links.** A plain list does where no link has white
    space in it and the base64 reading has fewer links; if only one of the two holds, it does not. A
    list in base64 does exactly where no link has white space in it and the length with the line
    breaks does not make up padding. -/
theorem readings_agree {ls : List String} (hne : ls ≠ []) (hnodup : ls.Nodup)
    (hlines : ∀ l ∈ ls, IsLine l) :
    ((∀ l ∈ ls, NoSpace l) → (fromDecoded (plain ls)).length < ls.length →
      extractLinks (plain ls) = parseLinks (plain ls)) ∧
    (extractLinks (plain ls) = parseLinks (plain ls) →
      ((∀ l ∈ ls, NoSpace l) ↔ (fromDecoded (plain ls)).length < ls.length)) ∧
    ∀ (f : Base64.Flavour) (body : String), Wrapped f (toByteArray (plain ls)) body.toList →
      (extractLinks body = parseLinks body ↔ (∀ l ∈ ls, NoSpace l) ∧
        paddingFits (trimChars body.toList).length (f.encode (toByteArray (plain ls))).length
          = true) := by
  rw [extractLinks_plain hne hlines, parseLinks_plain hne hnodup hlines]
  refine ⟨?_, ?_, ?_⟩
  · intro hspace hfewer
    rw [if_pos hfewer]
    exact (flatMap_linksIn_iff hlines).2 hspace
  · intro hagree
    constructor
    · intro hspace
      by_contra hfewer
      rw [if_neg hfewer, (flatMap_linksIn_iff hlines).2 hspace] at hagree
      exact fromDecoded_ne hne hlines hagree.symm
    · intro hfewer
      rw [if_pos hfewer] at hagree
      exact (flatMap_linksIn_iff hlines).1 hagree
  · intro f body hbody
    have hbytes : toByteArray (plain ls) ≠ [] := by
      intro h
      have htext := utf8String_toByteArray (plain ls)
      rw [h] at htext
      exact toList_plain_ne_nil hne hlines (by rw [← htext]; rfl)
    rw [extractLinks_wrapped hbody hbytes, parseLinks_wrapped hbody, utf8String_toByteArray,
      collect_plain hne hnodup hlines, linksIn_plain, ← flatMap_linksIn_iff hlines]
    cases paddingFits (trimChars body.toList).length (f.encode (toByteArray (plain ls))).length with
    | true => simp
    | false => simp [Ne.symm hne]

theorem isLine_of_decide {l : String}
    (h : (l.toList.all (fun c => c != '\n' && c != '\r') && decide (trim l = l) &&
      looksLikeShareLink l) = true) : IsLine l := by
  rw [Bool.and_eq_true, Bool.and_eq_true, decide_eq_true_eq] at h
  exact ⟨fun c hc => by simpa using List.all_eq_true.1 h.1.1 c hc, h.1.2, h.2⟩

/-- Two links, as they are and in base64 with a break after every fourth sign. -/
theorem readings_agree_pair : IsLine "ss://a" ∧ IsLine "ss://b" ∧
    extractLinks (plain ["ss://a", "ss://b"]) = parseLinks (plain ["ss://a", "ss://b"]) ∧
    extractLinks "c3M6\nLy9h\nCnNz\nOi8v\nYg==" = parseLinks "c3M6\nLy9h\nCnNz\nOi8v\nYg==" := by
  have hfirst : IsLine "ss://a" := isLine_of_decide (by decide +kernel)
  have hsecond : IsLine "ss://b" := isLine_of_decide (by decide +kernel)
  have hlines : ∀ l ∈ ["ss://a", "ss://b"], IsLine l := by
    simpa only [List.forall_mem_cons] using ⟨hfirst, hsecond, fun l hl => absurd hl List.not_mem_nil⟩
  have hvisible : ["ss://a", "ss://b"].all (fun l => l.toList.all fun c => !isRegexSpace c) = true := by decide
  have hspace : ∀ l ∈ ["ss://a", "ss://b"], NoSpace l := by
    intro l hl c hc
    simpa using List.all_eq_true.1 (List.all_eq_true.1 hvisible l hl) c hc
  have hfewer : (fromDecoded (plain ["ss://a", "ss://b"])).length < 2 := by decide +kernel
  have hwrapped : Wrapped ⟨false, true⟩ (toByteArray (plain ["ss://a", "ss://b"]))
      "c3M6\nLy9h\nCnNz\nOi8v\nYg==".toList := by
    unfold Wrapped
    decide +kernel
  have hfits : paddingFits (trimChars "c3M6\nLy9h\nCnNz\nOi8v\nYg==".toList).length
      (Base64.Flavour.encode ⟨false, true⟩ (toByteArray (plain ["ss://a", "ss://b"]))).length = true := by
    decide +kernel
  obtain ⟨hplain, -, hbase64⟩ := readings_agree (by simp) (by decide) hlines
  exact ⟨hfirst, hsecond, hplain hspace hfewer, (hbase64 ⟨false, true⟩ _ hwrapped).2 ⟨hspace, hfits⟩⟩

/-- A name with a space is cut, and base64 in lines of three is not read at all. -/
theorem readings_differ :
    (IsLine "ss://a#my home" ∧ extractLinks (plain ["ss://a#my home"]) = ["ss://a#my"] ∧
      parseLinks (plain ["ss://a#my home"]) = ["ss://a#my home"]) ∧
    (Wrapped ⟨false, true⟩ (toByteArray (plain ["ss://a"])) "c3M\n6Ly\n9h".toList ∧
      extractLinks "c3M\n6Ly\n9h" = [] ∧ parseLinks "c3M\n6Ly\n9h" = ["ss://a"]) := by
  have hline : IsLine "ss://a#my home" := isLine_of_decide (by decide +kernel)
  have hpaste : extractLinks (plain ["ss://a#my home"]) = ["ss://a#my"] := by decide +kernel
  have hsubscription : parseLinks (plain ["ss://a#my home"]) = ["ss://a#my home"] := by
    decide +kernel
  have hwrapped : Wrapped ⟨false, true⟩ (toByteArray (plain ["ss://a"])) "c3M\n6Ly\n9h".toList := by
    unfold Wrapped
    decide +kernel
  have hnone : extractLinks "c3M\n6Ly\n9h" = [] := by decide +kernel
  have hone : parseLinks "c3M\n6Ly\n9h" = ["ss://a"] := by decide +kernel
  exact ⟨⟨hline, hpaste, hsubscription⟩, hwrapped, hnone, hone⟩

end XrayShareLink

end SwiftVpn
