/-
  File:      SwiftVpn/Xray/UserInfo.lean
  Subject:   SHADOWSOCKS LINKS WHOSE LOGIN IS PERCENT-ENCODED: XrayShareLink.parse, which tries the link
             as it is first.

  * `userInfo`, `escapeSigns` -- the login in base64, and with its `=`, `+` and `/` as escapes;
  * `readLogin`, `parseOnce_bareLink` -- what a link is parsed to, by what its login is read as;
  * `decodeBase64_escaped` -- the reader skips the `%` of an escape and takes its two digits for base64:
    it refuses an odd number of escapes, and reads too much of an even one;
  * `escaped_login_iff` -- the escapes are understood exactly where there are none, or an odd number.
-/
import SwiftVpn.Xray.Shadowsocks

namespace SwiftVpn

namespace XrayShareLink

/-! ## 1. Logins -/

/-- The flavour with all the signs. -/
def standard : Base64.Flavour := ⟨false, true⟩

/-- `base64(method:password)`. -/
def userInfo (method password : String) : List Char :=
  standard.encode (toByteArray (method ++ ":" ++ password))

/-- The characters of base64 that are escaped. -/
def isSign (c : Char) : Bool := c == '=' || c == '+' || c == '/'

/-- One character, as an escape if it is such a sign. -/
def escapeSign (c : Char) : List Char := if isSign c then Percent.escapes c else [c]

/-- A text with its signs escaped. -/
def escapeSigns (cs : List Char) : List Char := cs.flatMap escapeSign

/-- `ss://userinfo@host:port`. -/
def bareLink (userInfo : List Char) (address : String) (port : Int) : String :=
  "ss://" ++ String.ofList (userInfo ++ '@' :: (hostAndPort address port).toList)

/-- Letters, digits, dots and hyphens. -/
def isHostChar (c : Char) : Bool := c.isAlphanum || c == '.' || c == '-'

/-- A letter, a digit or a sign. -/
theorem isAlphanum_or_isSign {method password : String} {c : Char} (h : c ∈ userInfo method password) :
    c.isAlphanum = true ∨ isSign c = true := by
  have hall : ∀ n < 64, (Base64.digit n).isAlphanum = true ∨ isSign (Base64.digit n) = true := by decide
  rcases Base64.mem_encode h with ⟨n, hn, rfl⟩ | ⟨-, rfl⟩
  · exact hall n hn
  · exact .inr rfl

/-- Of such a text the form encoder escapes the signs. -/
theorem escapeSigns_eq_encode {cs : List Char} (h : ∀ c ∈ cs, c.isAlphanum = true ∨ isSign c = true) :
    escapeSigns cs = Percent.encode cs := by
  refine List.flatMap_congr fun c hc => ?_
  unfold escapeSign Percent.encodeChar
  rcases h c hc with hc | hc
  · have hsafe : Percent.safe c = true := by
      unfold Percent.safe
      rw [hc]
      rfl
    have hsign : isSign c = false := by
      rw [Bool.eq_false_iff]
      intro hs
      unfold isSign at hs
      simp only [Bool.or_eq_true, beq_iff_eq] at hs
      rcases hs with (rfl | rfl) | rfl <;> exact absurd hc (by decide)
    rw [hsign, hsafe, if_neg Bool.false_ne_true, if_pos rfl]
  · have hsafe : Percent.safe c = false := by
      unfold isSign at hc
      simp only [Bool.or_eq_true, beq_iff_eq] at hc
      rcases hc with (rfl | rfl) | rfl <;> decide
    rw [hc, hsafe, if_pos rfl, if_neg Bool.false_ne_true]

theorem escapeSigns_eq_self {cs : List Char} (h : cs.countP isSign = 0) : escapeSigns cs = cs := by
  rw [List.countP_eq_zero] at h
  unfold escapeSigns
  have hone : ∀ c ∈ cs, escapeSign c = [c] := fun c hc => if_neg (h c hc)
  rw [List.flatMap_congr hone, List.flatMap_singleton']

/-! ### The digits of an escaped login -/

theorem mem_escapeSign {c d : Char} (hc : c.isAlphanum = true ∨ isSign c = true)
    (hd : d ∈ escapeSign c) : d.isAlphanum = true ∨ d = '%' := by
  unfold escapeSign at hd
  split at hd
  · rename_i hs
    have hall : ∀ c ∈ ['=', '+', '/'], ∀ d ∈ Percent.escapes c, d.isAlphanum = true ∨ d = '%' := by decide
    refine hall c ?_ d hd
    unfold isSign at hs
    simpa [Bool.or_eq_true, or_assoc] using hs
  · rename_i hs
    rw [List.mem_singleton.1 hd]
    exact .inl (hc.resolve_right hs)

theorem isDigit_of_isAlphanum {c : Char} (h : c.isAlphanum = true) : Base64.isDigit c = true := by
  have hall : ∀ n < 128, (Char.ofNat n).isAlphanum = true → Base64.isDigit (Char.ofNat n) = true := by decide
  have hlt : c.toNat < 128 := by
    rw [Percent.isAlphanum_iff] at h
    omega
  have hc := hall c.toNat hlt
  rw [Char.ofNat_toNat] at hc
  exact hc h

/-- How much an escape adds: two characters, and a digit to the reader -- two for a padding sign, which
    was none before. -/
theorem count_escapeSign {c : Char} (hc : c.isAlphanum = true ∨ isSign c = true) :
    (escapeSign c).length = 1 + (if isSign c then 2 else 0) ∧
      (escapeSign c).countP Base64.isDigit = 1 + if isSign c then 1 else 0 := by
  unfold escapeSign
  cases hs : isSign c with
  | true =>
    have hall : ∀ c ∈ ['=', '+', '/'], (Percent.escapes c).length = 3 ∧
        (Percent.escapes c).countP Base64.isDigit = 2 := by decide
    refine hall c ?_
    unfold isSign at hs
    simpa [Bool.or_eq_true, or_assoc] using hs
  | false =>
    rw [hs] at hc
    have hdigit : Base64.isDigit c = true := isDigit_of_isAlphanum (hc.resolve_right Bool.false_ne_true)
    simp [hdigit]

theorem count_escapeSigns {cs : List Char} (h : ∀ c ∈ cs, c.isAlphanum = true ∨ isSign c = true) :
    (escapeSigns cs).length = cs.length + 2 * cs.countP isSign ∧
      (escapeSigns cs).countP Base64.isDigit = cs.length + cs.countP isSign := by
  induction cs with
  | nil => exact ⟨rfl, rfl⟩
  | cons c cs ih =>
    obtain ⟨hc, hcs⟩ := List.forall_mem_cons.1 h
    obtain ⟨hlength, hdigits⟩ := ih hcs
    obtain ⟨hone, hdigit⟩ := count_escapeSign hc
    unfold escapeSigns at hlength hdigits ⊢
    rw [List.flatMap_cons, List.length_append, List.countP_append, hlength, hdigits, hone, hdigit,
      List.length_cons, List.countP_cons]
    cases isSign c <;> simp <;> omega

/-- An escaped login holds letters, digits and `%`. -/
theorem mem_escapeSigns {cs : List Char} (h : ∀ c ∈ cs, c.isAlphanum = true ∨ isSign c = true) :
    ∀ d ∈ escapeSigns cs, d.isAlphanum = true ∨ d = '%' := by
  intro d hd
  obtain ⟨c, hc, hd⟩ := List.mem_flatMap.1 hd
  exact mem_escapeSign (h c hc) hd

/-! ## 2. What is read of an escaped login -/

/-- The characters of a login: nothing that is trimmed, replaced or a separator. -/
def isLoginChar (c : Char) : Bool := c.isAlphanum || isSign c || c == '%'

theorem isLoginChar_props {c : Char} (h : isLoginChar c = true) :
    isWhitespace c = false ∧ c.toNat < 0x80 ∧ c ∉ ['-', '_', '@', ':', '#', '?'] := by
  unfold isLoginChar isSign at h
  simp only [Bool.or_eq_true, beq_iff_eq] at h
  rcases h with (h | (rfl | rfl) | rfl) | rfl
  · refine ⟨isWhitespace_of_isAlphanum h, ?_, ?_⟩
    · rw [Percent.isAlphanum_iff] at h
      omega
    · intro hm
      simp only [List.mem_cons, List.not_mem_nil, or_false] at hm
      rcases hm with rfl | rfl | rfl | rfl | rfl | rfl <;> exact absurd h (by decide)
  all_goals decide

/-- A login is read as it is, with the padding that its length asks for. -/
theorem decodeBase64_login {cs : List Char} (h : ∀ c ∈ cs, isLoginChar c = true) :
    decodeBase64 (String.ofList cs) = Base64.decode (cs ++ List.replicate (signs cs.length) '=') := by
  have htrim : trimChars cs = cs := by
    have hvisible : trim (String.ofList cs) = String.ofList cs := by
      apply trim_eq_self
      · rw [String.toList_ofList]
        exact fun c hc => (isLoginChar_props (h c (List.mem_of_mem_head? hc))).1
      · rw [String.toList_ofList]
        exact fun c hc => (isLoginChar_props (h c (List.mem_of_getLast? hc))).1
    have hchars := congrArg String.toList hvisible
    rwa [trim, String.toList_ofList, String.toList_ofList] at hchars
  have hmap : cs.map (fun c => if c = '-' then '+' else if c = '_' then '/' else c) = cs := by
    refine (List.map_congr_left fun c hc => ?_).trans (List.map_id' cs)
    have hnot := (isLoginChar_props (h c hc)).2.2
    simp only [List.mem_cons, not_or] at hnot
    rw [if_neg hnot.1, if_neg hnot.2.1]
  rw [decodeBase64_eq, String.toList_ofList, htrim, readPadded_eq, hmap,
    Text.length_of_ascii fun c hc => (isLoginChar_props (h c hc)).2.1]

section Escaped

variable {cs : List Char} (h : ∀ c ∈ cs, c.isAlphanum = true ∨ isSign c = true)
  (hlength : cs.length % 4 = 0)

include h

theorem isLoginChar_of_mem_escapeSigns : ∀ c ∈ escapeSigns cs, isLoginChar c = true := by
  intro c hc
  unfold isLoginChar
  rcases mem_escapeSigns h c hc with hc | rfl
  · rw [hc]
    rfl
  · rfl

theorem symbol_of_mem_escapeSigns : ∀ c ∈ escapeSigns cs, Base64.symbol c ≠ .equals := by
  intro c hc
  rcases mem_escapeSigns h c hc with hc | rfl
  · have hdigit := isDigit_of_isAlphanum hc
    unfold Base64.isDigit at hdigit
    intro he
    rw [he] at hdigit
    cases hdigit
  · decide

include hlength

/-- **An odd number of escapes is refused**: two signs are put behind an odd number of digits. -/
theorem decodeBase64_escaped_odd (hodd : cs.countP isSign % 2 = 1) :
    decodeBase64 (String.ofList (escapeSigns cs)) = none := by
  obtain ⟨hlen, hdigits⟩ := count_escapeSigns h
  have hsigns : signs (escapeSigns cs).length = 2 := by
    have hmod : (escapeSigns cs).length % 4 = 2 := by omega
    simp [signs, hmod]
  rw [decodeBase64_login (isLoginChar_of_mem_escapeSigns h), hsigns]
  exact Base64.decode_signs_of_odd (symbol_of_mem_escapeSigns h) (by omega)

/-- **An even number of escapes is read**, and the digits of the escapes with the others. -/
theorem decodeBase64_escaped_even (heven : cs.countP isSign % 2 = 0) :
    ∃ out, decodeBase64 (String.ofList (escapeSigns cs)) = some out ∧
      3 * (cs.length + cs.countP isSign) ≤ 4 * out.length + 2 := by
  obtain ⟨hlen, hdigits⟩ := count_escapeSigns h
  have hsigns : signs (escapeSigns cs).length = 0 := by
    have hmod : (escapeSigns cs).length % 4 = 0 := by omega
    simp [signs, hmod]
  rw [decodeBase64_login (isLoginChar_of_mem_escapeSigns h), hsigns, List.replicate_zero, List.append_nil,
    ← hdigits]
  exact Base64.decode_of_even (symbol_of_mem_escapeSigns h) (by omega)

end Escaped

/-! ## 3. What a link is parsed to -/

/-- A host of letters, digits, dots and hyphens, and a port. -/
structure Endpoint (address : String) (port : Int) : Prop where
  address : ∀ c ∈ address.toList, isHostChar c = true
  nonneg : 0 ≤ port
  port : port < 2 ^ 31

theorem Endpoint.not_mem {address : String} {port : Int} (h : Endpoint address port) {x : Char}
    (hx : x ∈ ['@', '?', '#', '%', '+', '=']) : x ∉ (hostAndPort address port).toList := by
  have hprops : isHostChar x = false ∧ x ≠ ':' ∧ x.isDigit = false := by
    simp only [List.mem_cons, List.not_mem_nil, or_false] at hx
    rcases hx with rfl | rfl | rfl | rfl | rfl | rfl <;> decide
  refine not_mem_hostAndPort (fun hm => ?_) h.nonneg hprops.2.1 hprops.2.2
  rw [h.address x hm] at hprops
  cases hprops.1

/-- What a link is parsed to, where its login is read as `bytes`. -/
def readLogin (ui : List Char) (address : String) (port : Int) (bytes : List UInt8) : XrayOutbound where
  protocol := "shadowsocks"
  name := hostAndPort address port
  address := address
  port := port
  method := substringBefore ':' (utf8String bytes) (utf8String bytes)
  password := substringAfter ':' (utf8String bytes) ""
  uotVersion := uotOf (String.ofList (ui ++ '@' :: (hostAndPort address port).toList))
    (substringBefore ':' (utf8String bytes) (utf8String bytes))

section Links

variable {ui : List Char} {address : String} {port : Int}

theorem toList_bareLink (ui : List Char) (address : String) (port : Int) :
    (bareLink ui address port).toList = "ss://".toList ++ (ui ++ '@' :: (hostAndPort address port).toList) := by
  simp [bareLink]

/-- **A link is parsed as soon as its login is read.** -/
theorem parseOnce_bareLink (doubles : Doubles) (hui : ∀ c ∈ ui, isLoginChar c = true)
    (hplugin : Text.containsIgnoreCase pluginKey ui = false) (he : Endpoint address port) :
    parseOnce doubles (bareLink ui address port)
      = (decodeBase64 (String.ofList ui)).map (readLogin ui address port) := by
  have hchars := toList_bareLink ui address port
  have hscheme : startsWithIgnoreCase (bareLink ui address port) "ss://" = true := by
    rw [startsWithIgnoreCase_iff]
    exact ⟨_, _, hchars, rfl⟩
  have hplain : ∀ x ∈ ['-', '_', '@', ':', '#', '?'], x ∉ ui :=
    fun x hx hm => (isLoginChar_props (hui x hm)).2.2 hx
  have hfree : Text.containsIgnoreCase "plugin=".toList (bareLink ui address port).toList = false := by
    have hsplit : (bareLink ui address port).toList
        = "ss:/".toList ++ '/' :: (ui ++ '@' :: (hostAndPort address port).toList) := by
      rw [hchars]
      rfl
    have hnone : Text.containsIgnoreCase pluginKey "ss:/".toList = false := by decide
    have hhost : Text.containsIgnoreCase pluginKey (hostAndPort address port).toList = false :=
      Text.containsIgnoreCase_of_not_mem (by decide) (he.not_mem (by decide))
    show Text.containsIgnoreCase pluginKey _ = false
    rw [hsplit, Text.containsIgnoreCase_append_cons (by decide),
      Text.containsIgnoreCase_append_cons (by decide), hnone, hplugin, hhost]
    rfl
  have hcore : removePrefix (removePrefix (bareLink ui address port) "ss://") "SS://"
      = String.ofList (ui ++ '@' :: (hostAndPort address port).toList) := by
    have hlist : (String.ofList (ui ++ '@' :: (hostAndPort address port).toList)).toList
        = ui ++ '@' :: (hostAndPort address port).toList := String.toList_ofList
    rw [removePrefix_of_eq hchars]
    apply removePrefix_eq_self
    rw [hlist]
    intro hp
    have hmem := (Text.prefix_append_cons (by decide) hp).mem (show ':' ∈ "SS://".toList by decide)
    exact hplain ':' (by decide) hmem
  have hhash : '#' ∉ ui ++ '@' :: (hostAndPort address port).toList := by
    rw [List.mem_append, List.mem_cons, not_or, not_or]
    exact ⟨hplain '#' (by decide), by decide, he.not_mem (by decide)⟩
  have hquery : substringBefore '?' (hostAndPort address port) (hostAndPort address port)
      = hostAndPort address port := by
    unfold substringBefore
    rw [Text.cutFirst_of_not_mem (he.not_mem (by decide))]
  have hdecode : urlDecode (hostAndPort address port) = hostAndPort address port :=
    (urlDecode_eq_self_iff _).2 (.inr ⟨he.not_mem (by decide), he.not_mem (by decide)⟩)
  rw [parseOnce_ss hscheme]
  unfold parseShadowsocks
  rw [hfree]
  simp only [Bool.false_eq_true, if_false, hcore, substringAfter, substringBefore, String.toList_ofList,
    Text.cutFirst_of_not_mem hhash, Text.cutLast_append (he.not_mem (x := '@') (by decide)),
    String.ofList_toList]
  unfold parseSip002
  simp only [hquery, hdecode, Option.bind_eq_bind, substringBeforeLast_hostAndPort address he.nonneg,
    parseIntOrNull_hostAndPort address he.nonneg he.port]
  cases decodeBase64 (String.ofList ui) with
  | none => rfl
  | some bytes => rfl

theorem trim_bareLink (he : Endpoint address port) (ui : List Char) :
    trim (bareLink ui address port) = bareLink ui address port := by
  have hchars : (bareLink ui address port).toList
      = ("ss://".toList ++ (ui ++ '@' :: address.toList)) ++ ':' :: Nat.toDigits 10 port.toNat := by
    rw [toList_bareLink, toList_hostAndPort address he.nonneg]
    simp
  apply trim_eq_self
  · rw [toList_bareLink]
    intro c hc
    cases hc
    decide
  · intro c hc
    rw [hchars, List.getLast?_append_cons] at hc
    have hm := List.mem_of_getLast? hc
    rw [List.mem_cons] at hm
    rcases hm with rfl | hm
    · decide
    · refine isWhitespace_of_isAlphanum ?_
      rw [Char.isAlphanum, Nat.isDigit_of_mem_toDigits (by decide) (by decide) hm, Bool.or_true]

/-- The decoded form of the link is the one with the login as it was. -/
theorem urlDecode_bareLink (he : Endpoint address port)
    (h : ∀ c ∈ ui, c.isAlphanum = true ∨ isSign c = true) :
    urlDecode (bareLink (escapeSigns ui) address port) = bareLink ui address port := by
  have hplain : ∀ c, Percent.safe c = true → (if c = '+' then ' ' else c) = c :=
    fun c hc => if_neg (Percent.safe_ne_plus hc)
  have hlogin := Percent.unescape_encode hplain ui []
  rw [Utf8.encode_nil, List.nil_append] at hlogin
  have hrest : Percent.unescape (fun c => if c = '+' then ' ' else c) [] (hostAndPort address port).toList
      = some (hostAndPort address port).toList := by
    rw [Percent.unescape_of_not_mem (he.not_mem (by decide)),
      (Percent.map_plus_eq_self_iff _).2 (he.not_mem (by decide))]
  have hdecode : Percent.formDecode (bareLink (escapeSigns ui) address port).toList
      = some (bareLink ui address port).toList := by
    unfold Percent.formDecode
    rw [toList_bareLink, toList_bareLink, Percent.unescape_append_of_not_mem (by decide),
      escapeSigns_eq_encode h, Percent.unescape_append_cons (by decide) (by decide), hlogin, hrest]
    rfl
  unfold urlDecode
  simp only [hdecode, String.ofList_toList]

end Links

/-! ## 4. When the escapes are understood -/

section Understood

variable (doubles : Doubles) {method password address : String} {port : Int}

/-- The escaped link gives the login and the endpoint of the one as it was. -/
def Understood (doubles : Doubles) (method password address : String) (port : Int) : Prop :=
  ∃ o o', parse doubles (bareLink (userInfo method password) address port) = some o ∧
    parse doubles (bareLink (escapeSigns (userInfo method password)) address port) = some o' ∧
    o'.method = o.method ∧ o'.password = o.password ∧ o'.address = o.address ∧ o'.port = o.port

theorem length_userInfo (method password : String) : (userInfo method password).length % 4 = 0 :=
  Base64.length_encode_padded _ _

theorem isLoginChar_of_mem_userInfo : ∀ c ∈ userInfo method password, isLoginChar c = true := by
  intro c hc
  unfold isLoginChar
  rcases isAlphanum_or_isSign hc with hc | hc <;> simp [hc]

/-- The link as it was gives its login. -/
theorem parseOnce_userInfo (he : Endpoint address port) (method password : String) :
    parseOnce doubles (bareLink (userInfo method password) address port)
      = some (readLogin (userInfo method password) address port (toByteArray (method ++ ":" ++ password))) := by
  rw [parseOnce_bareLink doubles isLoginChar_of_mem_userInfo (containsIgnoreCase_plugin_flavour _ _) he,
    userInfo, decodeBase64_flavour]
  rfl

theorem readLogin_login (hmethod : ':' ∉ method.toList) (ui : List Char) :
    (readLogin ui address port (toByteArray (method ++ ":" ++ password))).method = method ∧
      (readLogin ui address port (toByteArray (method ++ ":" ++ password))).password = password := by
  unfold readLogin
  rw [utf8String_toByteArray]
  exact ⟨substringBefore_login hmethod password _, substringAfter_login hmethod password _⟩

/-- Method and password are not shorter than the text they are cut from. -/
theorem length_login_le (text : String) : (toByteArray text).length ≤
    (toByteArray (substringBefore ':' text text ++ ":" ++ substringAfter ':' text "")).length := by
  unfold substringBefore substringAfter toByteArray
  cases hcut : Text.cutFirst ':' text.toList with
  | some parts =>
    obtain ⟨l, r⟩ := parts
    rw [Text.cutFirst_eq_some hcut]
    simp
  | none => simp [Utf8.encode]

/-- A login that was read from more bytes than it takes is another. -/
theorem readLogin_ne {out : List UInt8}
    (hlong : (toByteArray (method ++ ":" ++ password)).length < out.length) (ui : List Char) :
    ¬ ((readLogin ui address port out).method = method ∧ (readLogin ui address port out).password = password) := by
  rintro ⟨hm, hp⟩
  have hle := length_login_le (utf8String out)
  unfold readLogin at hm hp
  dsimp only at hm hp
  rw [hm, hp] at hle
  have hbytes := Utf8.length_le_encode_decode out
  rw [show Utf8.encode (Utf8.decode out) = toByteArray (utf8String out) by
    unfold toByteArray utf8String; rw [String.toList_ofList]] at hbytes
  omega

/-- The escaped link, by what its login is read as. -/
theorem parseOnce_escaped (he : Endpoint address port) (method password : String) :
    parseOnce doubles (bareLink (escapeSigns (userInfo method password)) address port)
      = (decodeBase64 (String.ofList (escapeSigns (userInfo method password)))).map
          (readLogin (escapeSigns (userInfo method password)) address port) := by
  have hsigns : ∀ c ∈ userInfo method password, c.isAlphanum = true ∨ isSign c = true :=
    fun c hc => isAlphanum_or_isSign hc
  refine parseOnce_bareLink doubles (isLoginChar_of_mem_escapeSigns hsigns) ?_ he
  refine Text.containsIgnoreCase_of_not_mem (by decide) fun hm => ?_
  rcases mem_escapeSigns hsigns '=' hm with h | h
  · exact absurd h (by decide)
  · exact absurd h (by decide)

/-- Where an odd number of characters is escaped, the raw form is refused and the decoded one is read. -/
theorem understood_of_odd (he : Endpoint address port)
    (hodd : (userInfo method password).countP isSign % 2 = 1) :
    Understood doubles method password address port := by
  have hsigns : ∀ c ∈ userInfo method password, c.isAlphanum = true ∨ isSign c = true :=
    fun c hc => isAlphanum_or_isSign hc
  have hraw := parseOnce_userInfo doubles he method password
  have hescaped := parseOnce_escaped doubles he method password
  rw [decodeBase64_escaped_odd hsigns (length_userInfo method password) hodd, Option.map_none] at hescaped
  refine ⟨_, _, parse_of_parseOnce (trim_bareLink he _) hraw, ?_, rfl, rfl, rfl, rfl⟩
  unfold parse
  simp only [trim_bareLink he]
  rw [List.findSome?_cons, hescaped, urlDecode_bareLink he hsigns]
  dsimp only
  rw [List.findSome?_cons, hraw]

/-- Where nothing is escaped the links are one. -/
theorem understood_of_zero (he : Endpoint address port)
    (hzero : (userInfo method password).countP isSign = 0) :
    Understood doubles method password address port := by
  have hraw := parse_of_parseOnce (trim_bareLink he _) (parseOnce_userInfo doubles he method password)
  refine ⟨_, _, hraw, ?_, rfl, rfl, rfl, rfl⟩
  rw [escapeSigns_eq_self hzero]
  exact hraw

/-- Where an even number of characters is escaped, the raw form is read, and its login is too long. -/
theorem not_understood_of_even (hmethod : ':' ∉ method.toList) (he : Endpoint address port)
    (heven : (userInfo method password).countP isSign % 2 = 0)
    (hpos : 0 < (userInfo method password).countP isSign) :
    ¬ Understood doubles method password address port := by
  have hsigns : ∀ c ∈ userInfo method password, c.isAlphanum = true ∨ isSign c = true :=
    fun c hc => isAlphanum_or_isSign hc
  obtain ⟨out, hout, hlong⟩ := decodeBase64_escaped_even hsigns (length_userInfo method password) heven
  have hraw := parseOnce_userInfo doubles he method password
  have hescaped := parseOnce_escaped doubles he method password
  rw [hout, Option.map_some] at hescaped
  -- four digits make three bytes, and there are more digits than the login has
  have hshort : 4 * (toByteArray (method ++ ":" ++ password)).length
      ≤ 3 * (userInfo method password).countP Base64.isDigit :=
    Base64.length_decode (Base64.decode_encode true _)
  have hdigits : (userInfo method password).countP Base64.isDigit ≤ (userInfo method password).length :=
    List.countP_le_length
  rintro ⟨o, o', ho, ho', hmethod', hpassword', -, -⟩
  rw [parse_of_parseOnce (trim_bareLink he _) hraw, Option.some.injEq] at ho
  rw [parse_of_parseOnce (trim_bareLink he _) hescaped, Option.some.injEq] at ho'
  subst ho ho'
  obtain ⟨hm, hp⟩ := readLogin_login hmethod (userInfo method password)
  exact readLogin_ne (by omega) _ ⟨hmethod'.trans hm, hpassword'.trans hp⟩

/-- **An escaped login is understood exactly where nothing had to be escaped, or an odd number of
    characters.** -/
theorem escaped_login_iff (hmethod : ':' ∉ method.toList) (he : Endpoint address port) :
    Understood doubles method password address port ↔
      (userInfo method password).countP isSign = 0 ∨ (userInfo method password).countP isSign % 2 = 1 := by
  constructor
  · intro h
    by_contra hnot
    rw [not_or] at hnot
    exact not_understood_of_even doubles hmethod he (by omega) (by omega) h
  · rintro (hzero | hodd)
    · exact understood_of_zero doubles he hzero
    · exact understood_of_odd doubles he hodd

/-- A server. -/
theorem endpoint_sample : Endpoint "example.com" 8388 where
  address := by decide
  nonneg := by decide
  port := by decide

/-- One `=` is escaped. -/
theorem escaped_login_odd : Understood (fun _ => none) "aes-256-gcm" "passw" "example.com" 8388 :=
  (escaped_login_iff (fun _ => none) (by decide) endpoint_sample).2 (.inr (by decide))

/-- Two `=` are escaped, and the raw form is taken. -/
theorem escaped_login_even : ¬ Understood (fun _ => none) "aes-256-gcm" "test" "example.com" 8388 :=
  not_understood_of_even (fun _ => none) (by decide) endpoint_sample (by decide) (by decide)

end Understood

end XrayShareLink

end SwiftVpn
