/-
  File:      SwiftVpn/Lib/Uri.lean
  Subject:   HIERARCHICAL URIS AS java.net.URI READS THEM.

  Of a text `scheme://authority/path?query#fragment` the reader keeps the user info, the host and the
  port of the authority, the raw query and the raw fragment. A URI without `//` has none of the
  first three, so `ofText` gives up on it.

  * `scan` -- a run of characters of a class, escapes and visible characters beyond ASCII included;
    a `%` that two hexadecimal digits do not follow is an error wherever the run meets it;
  * `isIPv4`, `isHostname`, `isIPv6` -- the three forms of a host;
  * `authorityOf` -- an authority is first read as `user@host:port`; one that is not of this form
    but consists of the characters of a registered name is accepted without a host;
  * `ofText` -- the whole text;
  * `ofText_server` -- a text put together from a user info, a host, a port, a query and a fragment
    comes apart again into these;
  * `host_of_ofText`, `port_of_ofText` -- a host that was read is one of the three forms, and a port fits
    an `Int`.
-/
import SwiftVpn.Lib.Percent

namespace Uri

/-! ## 1. Classes of characters -/

/-- What stands for itself everywhere. -/
def unreserved (c : Char) : Bool := c.isAlphanum || "_-!.~'()*".toList.contains c

/-- The characters of a user info. -/
def userInfoChar (c : Char) : Bool := unreserved c || ";:&=+$,".toList.contains c

/-- The characters of an authority that names a server. -/
def serverChar (c : Char) : Bool := userInfoChar c || ".:@[]%".toList.contains c

/-- The characters of a registered name. -/
def regNameChar (c : Char) : Bool := unreserved c || "$,;:@&=+".toList.contains c

/-- The characters of a path. -/
def pathChar (c : Char) : Bool := unreserved c || ":@&=+$,;/".toList.contains c

/-- The characters of a query and of a fragment. -/
def uric (c : Char) : Bool := unreserved c || ";/?:@&=+$,[]".toList.contains c

/-- Java's `Character.isSpaceChar`, beyond ASCII. -/
def isSpaceChar (c : Char) : Bool :=
  let n := c.toNat
  n == 0xA0 || n == 0x1680 || (0x2000 ≤ n && n ≤ 0x200A) || n == 0x2028 || n == 0x2029 ||
    n == 0x202F || n == 0x205F || n == 0x3000

/-- A visible character beyond ASCII; up to 0x9F there are only control characters. -/
def other (c : Char) : Bool := 0x9F < c.toNat && !isSpaceChar c

/-- How far a run of the class `ok` goes: to the end (`some true`), to a character that does not
    belong (`some false`), or into a malformed escape. -/
def scan (ok : Char → Bool) : List Char → Option Bool
  | [] => some true
  | c :: cs =>
    if ok c then scan ok cs
    else if c = '%' then
      match cs with
      | a :: b :: rest => if (Percent.byteOf a b).isSome then scan ok rest else none
      | _ => none
    else if other c then scan ok cs
    else some false

/-- `checkChars`: the whole text is of the class. -/
def checkChars (ok : Char → Bool) (cs : List Char) : Bool := scan ok cs == some true

/-! ## 2. Hosts and ports -/

/-- The value of a run of digits. -/
def decimal (ds : List Char) : Nat := Nat.ofDigitChars 10 ds 0

/-- Four numbers below 256. -/
def isIPv4 (cs : List Char) : Bool :=
  let bytes := cs.splitOn '.'
  cs.all (fun c => c.isDigit || c == '.') && bytes.length == 4 &&
    bytes.all fun ds => !ds.isEmpty && decimal ds ≤ 255

/-- A label of a host name: its first character a letter or a digit, its last no hyphen. -/
def isLabel (cs : List Char) : Bool := cs.head?.any Char.isAlphanum && cs.getLast? != some '-'

/-- A host name: labels of letters, digits, hyphens and underscores, the last of several with a
    letter in front, and at most one dot behind them. -/
def isHostname (cs : List Char) : Bool :=
  let parts := cs.splitOn '.'
  let labels := if parts.getLast? = some [] then parts.dropLast else parts
  cs.all (fun c => c.isAlphanum || c == '-' || c == '_' || c == '.') && !labels.isEmpty &&
    labels.all isLabel &&
    (labels.length == 1 || (labels.getLast?.bind List.head?).any Char.isAlpha)

/-- A host outside brackets. -/
def isPlainHost (cs : List Char) : Bool := isIPv4 cs || isHostname cs

/-- One to four hexadecimal digits. -/
def isHexGroup (cs : List Char) : Bool :=
  !cs.isEmpty && cs.length ≤ 4 && cs.all fun c => (Percent.hexValue c).isSome

/-- Groups between colons, an IPv4 address for the last two if `v4`: how many groups that is. -/
def groups (v4 : Bool) (cs : List Char) : Option Nat :=
  if cs.isEmpty then some 0 else
  let parts := cs.splitOn ':'
  if parts.dropLast.all isHexGroup then
    if parts.getLast?.any isHexGroup then some parts.length
    else if v4 && parts.getLast?.any isIPv4 then some (parts.length + 1)
    else none
  else none

/-- The texts before and behind the first `::`. -/
def cutDoubleColon : List Char → Option (List Char × List Char)
  | ':' :: ':' :: cs => some ([], cs)
  | c :: cs => (cutDoubleColon cs).map fun (l, r) => (c :: l, r)
  | [] => none

/-- Eight groups, or fewer around one `::`. -/
def isIPv6 (cs : List Char) : Bool :=
  match cutDoubleColon cs with
  | none => groups true cs == some 8
  | some (l, r) =>
    match groups false l, groups true r with
    | some m, some n => m + n ≤ 7
    | _, _ => false

/-- What may stand between the brackets: an IPv6 address, with a scope behind a `%`. -/
def isBracketed (cs : List Char) : Bool :=
  match cs.dropWhile (· ≠ '%') with
  | [] => isIPv6 cs
  | _ :: scope => isIPv6 (cs.takeWhile (· ≠ '%')) && !scope.isEmpty && scope.all Char.isAlphanum

/-- What may follow the host. -/
def portOf : List Char → Option (Option Nat)
  | [] => some none
  | c :: ds =>
    if c = ':' then
      if ds.isEmpty then some none
      else if ds.all Char.isDigit && decimal ds < 2 ^ 31 then some (some (decimal ds))
      else none
    else none

/-- `host:port`. -/
def hostPort (cs : List Char) : Option (List Char × Option Nat) :=
  if cs.head? = some '[' then
    match cs.tail.dropWhile (· ≠ ']') with
    | [] => none
    | _ :: after =>
      let inner := cs.tail.takeWhile (· ≠ ']')
      if isBracketed inner then (portOf after).map fun p => ('[' :: inner ++ [']'], p) else none
  else
    let host := cs.takeWhile (· ≠ ':')
    if isPlainHost host then
      (portOf (cs.dropWhile (· ≠ ':'))).map fun p => (host, p)
    else none

/-- A text that is read as a host. -/
def isHost (cs : List Char) : Bool := hostPort cs == some (cs, none)

/-! ## 3. The whole text -/
end Uri

/-- What the reader keeps of a URI, as it stands in the text. -/
structure Uri where
  userInfo : Option (List Char) := none
  host : Option (List Char) := none
  port : Option Nat := none
  query : Option (List Char) := none
  fragment : Option (List Char) := none
  deriving DecidableEq, Repr

namespace Uri

/-- `[user@]host[:port]`. -/
def serverOf (cs : List Char) : Option Uri :=
  if '@' ∈ cs then
    let user := cs.takeWhile (· ≠ '@')
    if checkChars userInfoChar user then
      (hostPort (cs.dropWhile (· ≠ '@')).tail).map fun (h, p) =>
        { userInfo := some user, host := some h, port := p }
    else none
  else (hostPort cs).map fun (h, p) => { host := some h, port := p }

/-- An authority: of a server, or of a registry, which has no host. -/
def authorityOf (cs : List Char) : Option Uri :=
  if cs.isEmpty then some {}
  -- a `]` in front is refused in a host, in a user info and in a registered name
  else if cs.head? = some ']' then none
  else
    match scan regNameChar cs with
    | none => none
    | some regChars =>
      let registry := if regChars then some {} else none
      if scan serverChar cs = some true then
        match serverOf cs with
        | some uri => some uri
        | none => registry
      else registry

/-- The query in front of the fragment. -/
def queryOf : List Char → Option (List Char)
  | '?' :: cs => some (cs.takeWhile (· ≠ '#'))
  | _ => none

/-- The fragment of what follows the path. -/
def fragmentOf (cs : List Char) : Option (List Char) :=
  match cs.dropWhile (· ≠ '#') with
  | [] => none
  | _ :: fragment => some fragment

/-- The text behind `scheme://`. -/
def afterScheme (cs : List Char) : Option Uri :=
  let rest := cs.dropWhile fun c => !"/?#".toList.contains c
  let path := rest.takeWhile fun c => !"?#".toList.contains c
  let rest := rest.dropWhile fun c => !"?#".toList.contains c
  match authorityOf (cs.takeWhile fun c => !"/?#".toList.contains c) with
  | none => none
  | some uri =>
    if checkChars pathChar path && (queryOf rest).all (checkChars uric) &&
        (fragmentOf rest).all (checkChars uric) then
      some { uri with query := queryOf rest, fragment := fragmentOf rest }
    else none

/-- The name of a scheme. -/
def isScheme (cs : List Char) : Bool :=
  cs.head?.any Char.isAlpha && cs.all fun c => c.isAlphanum || "+-.".toList.contains c

/-- A URI with an authority. -/
def ofText (cs : List Char) : Option Uri :=
  match cs.dropWhile (· ≠ ':') with
  | ':' :: '/' :: '/' :: rest => if isScheme (cs.takeWhile (· ≠ ':')) then afterScheme rest else none
  | _ => none

/-! ## 4. Runs -/

/-- A text put together from a run of a class and what does not belong to it, taken apart. -/
theorem span_append {α : Type*} (p : α → Bool) (xs ys : List α) (hx : ∀ c ∈ xs, p c = true)
    (hy : ∀ c ∈ ys.head?, p c = false) :
    (xs ++ ys).takeWhile p = xs ∧ (xs ++ ys).dropWhile p = ys := by
  rw [List.takeWhile_append_of_pos hx, List.dropWhile_append_of_pos hx]
  cases ys with
  | nil => simp
  | cons y ys =>
    have := hy y rfl
    simp [this]

section Scan

variable {ok : Char → Bool}

theorem scan_cons_of_ok {c : Char} (h : ok c = true) (cs : List Char) :
    scan ok (c :: cs) = scan ok cs := by
  conv_lhs => unfold scan
  exact if_pos h

theorem scan_cons_of_not {c : Char} (h : ok c = false) (hp : c ≠ '%') (ho : other c = false)
    (cs : List Char) : scan ok (c :: cs) = some false := by
  conv_lhs => unfold scan
  simp [h, hp, ho]

theorem scan_percent (h : ok '%' = false) (a b : Char) (rest : List Char) :
    scan ok ('%' :: a :: b :: rest)
      = if (Percent.byteOf a b).isSome then scan ok rest else none := by
  simp [scan, h]

theorem scan_append {xs : List Char} (h : scan ok xs = some true) (ys : List Char) :
    scan ok (xs ++ ys) = scan ok ys := by
  fun_induction scan ok xs with
  | case1 => rfl
  | case2 c cs hc ih => rw [List.cons_append, scan_cons_of_ok hc, ih h]
  | case3 a b rest hb hc ih =>
    simp only [List.cons_append]
    rw [scan_percent (by simpa using hc), if_pos hb, ih h]
  | case4 => cases h
  | case5 => cases h
  | case6 c cs hc hp ho ih =>
    have hstep : scan ok (c :: (cs ++ ys)) = scan ok (cs ++ ys) := by
      conv_lhs => unfold scan
      rw [if_neg hc, if_neg hp, if_pos ho]
    rw [List.cons_append, hstep, ih h]
  | case7 => cases h

theorem scan_of_forall {xs : List Char} (h : ∀ c ∈ xs, ok c = true) : scan ok xs = some true := by
  induction xs with
  | nil => rfl
  | cons c cs ih =>
    rw [scan_cons_of_ok (h c List.mem_cons_self)]
    exact ih fun d hd => h d (List.mem_cons_of_mem c hd)

theorem scan_encode (hok : ∀ c, Percent.safe c = true → ok c = true) (hp : ok '%' = false)
    (cs : List Char) : scan ok (Percent.encode cs) = some true := by
  have hescapes : ∀ (bs : List UInt8), scan ok (bs.flatMap Percent.escape) = some true := by
    intro bs
    induction bs with
    | nil => rfl
    | cons b bs ih =>
      rw [List.flatMap_cons]
      simp only [Percent.escape, List.cons_append, List.nil_append]
      rw [scan_percent hp, Percent.byteOf_escape]
      exact ih
  induction cs with
  | nil => rfl
  | cons c cs ih =>
    rw [Percent.encode_cons, scan_append]
    · exact ih
    · unfold Percent.encodeChar
      split
      · rename_i hc
        exact scan_of_forall (by simpa using hok c hc)
      · exact hescapes _

/-- A character outside the class that takes no part in an escape is not in the run. -/
theorem not_mem_of_scan {d : Char} (hd : ok d = false) (hp : d ≠ '%')
    (hx : Percent.hexValue d = none) (ho : other d = false) {xs : List Char}
    (h : scan ok xs = some true) : d ∉ xs := by
  fun_induction scan ok xs with
  | case1 => simp
  | case2 c cs hc ih =>
    rw [List.mem_cons, not_or]
    refine ⟨?_, ih h⟩
    rintro rfl
    rw [hd] at hc
    cases hc
  | case3 a b rest hb hc ih =>
    have hne : ∀ c, (Percent.hexValue c).isSome → d ≠ c := by
      rintro c hc rfl
      rw [hx] at hc
      cases hc
    have hab := Percent.isSome_of_byteOf hb
    simp only [List.mem_cons, not_or]
    exact ⟨hp, hne a hab.1, hne b hab.2, ih h⟩
  | case4 => cases h
  | case5 => cases h
  | case6 c cs hc hpc hoc ih =>
    rw [List.mem_cons, not_or]
    refine ⟨?_, ih h⟩
    rintro rfl
    rw [ho] at hoc
    cases hoc
  | case7 => cases h

end Scan

/-- A run of a class is a run of every larger one. -/
theorem scan_mono {ok ok' : Char → Bool} (hsub : ∀ c, ok c = true → ok' c = true)
    (hhex : ∀ c, (Percent.hexValue c).isSome → ok' c = true) {xs : List Char}
    (h : scan ok xs = some true) : scan ok' xs = some true := by
  fun_induction scan ok xs with
  | case1 => rfl
  | case2 c cs hc ih => rw [scan_cons_of_ok (hsub c hc), ih h]
  | case3 a b rest hb hc ih =>
    by_cases hp : ok' '%' = true
    · -- the larger class has the `%` itself: its digits follow one by one
      have hab := Percent.isSome_of_byteOf hb
      rw [scan_cons_of_ok hp, scan_cons_of_ok (hhex a hab.1), scan_cons_of_ok (hhex b hab.2), ih h]
    · rw [scan_percent (by simpa using hp), if_pos hb, ih h]
  | case4 => cases h
  | case5 => cases h
  | case6 c cs hc hp ho ih =>
    by_cases hc' : ok' c = true
    · rw [scan_cons_of_ok hc', ih h]
    · conv_lhs => unfold scan
      rw [if_neg hc', if_neg hp, if_pos ho, ih h]
  | case7 => cases h

/-! ## 5. Hosts -/

theorem mem_splitOn {x c : Char} {cs : List Char} (h : c ∈ cs) :
    c = x ∨ ∃ part ∈ cs.splitOn x, c ∈ part := by
  induction cs with
  | nil => cases h
  | cons d cs ih =>
    rw [List.splitOn, List.splitOnP_cons_eq_if_modifyHead]
    rw [List.splitOn] at ih
    split
    · rename_i hd
      rw [beq_iff_eq] at hd
      rcases List.mem_cons.1 h with e | h
      · exact .inl (e.trans hd)
      · rcases ih h with e | ⟨part, hp, hc⟩
        · exact .inl e
        · exact .inr ⟨part, List.mem_cons_of_mem _ hp, hc⟩
    · cases hsplit : cs.splitOnP (· == x) with
      | nil => exact absurd hsplit (List.splitOnP_ne_nil _ _)
      | cons part parts =>
        rw [hsplit] at ih
        rw [List.modifyHead_cons]
        rcases List.mem_cons.1 h with e | h
        · exact .inr ⟨d :: part, List.mem_cons_self, e ▸ List.mem_cons_self⟩
        · rcases ih h with e | ⟨q, hq, hc⟩
          · exact .inl e
          · rcases List.mem_cons.1 hq with rfl | hq
            · exact .inr ⟨d :: q, List.mem_cons_self, List.mem_cons_of_mem d hc⟩
            · exact .inr ⟨q, List.mem_cons_of_mem _ hq, hc⟩

/-- The characters of a host outside brackets. -/
def hostChar (c : Char) : Bool := c.isAlphanum || c == '-' || c == '_' || c == '.'

theorem isAlphanum_of_isDigit {c : Char} (h : c.isDigit = true) : c.isAlphanum = true := by
  simp [Char.isAlphanum, h]

theorem mem_isIPv4 {cs : List Char} (h : isIPv4 cs = true) {c : Char} (hc : c ∈ cs) :
    c.isDigit = true ∨ c = '.' := by
  simp only [isIPv4, Bool.and_eq_true, List.all_eq_true] at h
  simpa using h.1.1 c hc

theorem mem_isPlainHost {cs : List Char} (h : isPlainHost cs = true) {c : Char} (hc : c ∈ cs) :
    hostChar c = true := by
  unfold isPlainHost at h
  rw [Bool.or_eq_true] at h
  rcases h with h | h
  · unfold hostChar
    rcases mem_isIPv4 h hc with h | rfl
    · simp [isAlphanum_of_isDigit h]
    · rfl
  · simp only [isHostname, Bool.and_eq_true, List.all_eq_true] at h
    exact h.1.1.1 c hc

/-- The characters between the brackets. -/
def bracketChar (c : Char) : Bool := c.isAlphanum || c == ':' || c == '.' || c == '%'

theorem mem_groups {v4 : Bool} {cs : List Char} {n : Nat} (h : groups v4 cs = some n) {c : Char}
    (hc : c ∈ cs) : bracketChar c = true := by
  have hex : ∀ part, isHexGroup part = true → c ∈ part → bracketChar c = true := by
    intro part hp hm
    simp only [isHexGroup, Bool.and_eq_true, List.all_eq_true] at hp
    simp [bracketChar, Percent.isAlphanum_of_hexValue (hp.2 c hm)]
  have hv4 : ∀ part, isIPv4 part = true → c ∈ part → bracketChar c = true := by
    intro part hp hm
    rcases mem_isIPv4 hp hm with h | rfl
    · simp [bracketChar, isAlphanum_of_isDigit h]
    · rfl
  rcases mem_splitOn (x := ':') hc with rfl | ⟨part, hp, hm⟩
  · rfl
  · unfold groups at h
    split at h
    · rename_i he
      rw [List.isEmpty_iff] at he
      subst he
      cases hc
    · dsimp only at h
      -- the part is the last one or one before it
      have hlast : part ∈ (cs.splitOn ':').dropLast ∨ (cs.splitOn ':').getLast? = some part := by
        have hne : cs.splitOn ':' ≠ [] := List.splitOnP_ne_nil _ _
        rw [← List.dropLast_append_getLast hne, List.mem_append, List.mem_singleton] at hp
        rcases hp with hp | hp
        · exact .inl hp
        · exact .inr (by rw [List.getLast?_eq_some_getLast hne, hp])
      split at h
      · rename_i hall
        rw [List.all_eq_true] at hall
        rcases hlast with hl | hl
        · exact hex part (hall part hl) hm
        · rw [hl] at h
          split at h
          · rename_i hg
            exact hex part hg hm
          · split at h
            · rename_i hg
              rw [Bool.and_eq_true] at hg
              exact hv4 part hg.2 hm
            · cases h
      · cases h

theorem cutDoubleColon_eq {cs l r : List Char} (h : cutDoubleColon cs = some (l, r)) :
    cs = l ++ ':' :: ':' :: r := by
  fun_induction cutDoubleColon cs generalizing l r with
  | case1 cs =>
    cases h
    rfl
  | case2 c cs hc ih =>
    obtain ⟨⟨l', r'⟩, hcut, he⟩ := Option.map_eq_some_iff.1 h
    cases he
    rw [ih hcut]
    rfl
  | case3 => cases h

theorem mem_isIPv6 {cs : List Char} (h : isIPv6 cs = true) {c : Char} (hc : c ∈ cs) :
    bracketChar c = true := by
  unfold isIPv6 at h
  split at h
  · rw [beq_iff_eq] at h
    exact mem_groups h hc
  · rename_i l r hcut
    rw [cutDoubleColon_eq hcut] at hc
    simp only [List.mem_append, List.mem_cons] at hc
    split at h
    · rename_i hl hr
      rcases hc with hc | rfl | rfl | hc
      · exact mem_groups hl hc
      · rfl
      · rfl
      · exact mem_groups hr hc
    · cases h

theorem mem_isBracketed {cs : List Char} (h : isBracketed cs = true) {c : Char} (hc : c ∈ cs) :
    bracketChar c = true := by
  have hsplit := List.takeWhile_append_dropWhile (p := fun c => decide (c ≠ '%')) (l := cs)
  unfold isBracketed at h
  split at h
  · exact mem_isIPv6 h hc
  · rename_i d scope hd
    simp only [Bool.and_eq_true, List.all_eq_true] at h
    rw [← hsplit, hd, List.mem_append, List.mem_cons] at hc
    rcases hc with hc | rfl | hc
    · exact mem_isIPv6 h.1.1 hc
    · have := List.head?_dropWhile_not (fun c => decide (c ≠ '%')) cs
      rw [hd] at this
      simp at this
      subst this
      rfl
    · simp [bracketChar, h.2 c hc]

/-- **The forms of a host**: a plain one, or one in brackets. -/
theorem hostPort_forms {cs h : List Char} {p : Option Nat} (hp : hostPort cs = some (h, p)) :
    isPlainHost h = true ∨
      ∃ inner, h = '[' :: inner ++ [']'] ∧ ']' ∉ inner ∧ isBracketed inner = true := by
  unfold hostPort at hp
  split at hp
  · split at hp
    · cases hp
    · dsimp only at hp
      split at hp
      · rename_i hb
        obtain ⟨q, -, he⟩ := Option.map_eq_some_iff.1 hp
        cases he
        refine .inr ⟨_, rfl, ?_, hb⟩
        intro hm
        simpa using List.all_eq_true.1 List.all_takeWhile _ hm
      · cases hp
  · dsimp only at hp
    split at hp
    · rename_i hb
      obtain ⟨q, -, he⟩ := Option.map_eq_some_iff.1 hp
      cases he
      exact .inl hb
    · cases hp

/-- A host of either form is read in front of any port. -/
theorem hostPort_append {h : List Char}
    (hf : isPlainHost h = true ∨
      ∃ inner, h = '[' :: inner ++ [']'] ∧ ']' ∉ inner ∧ isBracketed inner = true)
    (after : List Char) (ha : ∀ c ∈ after.head?, c = ':') :
    hostPort (h ++ after) = (portOf after).map fun p => (h, p) := by
  rcases hf with hplain | ⟨inner, rfl, hm, hb⟩
  · have hchars : ∀ c ∈ h, hostChar c = true := fun c hc => mem_isPlainHost hplain hc
    have hcut := span_append (fun c => decide (c ≠ ':')) h after
      (by
        intro c hc
        have := hchars c hc
        simp only [decide_eq_true_eq]
        rintro rfl
        revert this
        decide)
      (by
        intro c hc
        simp [ha c hc])
    have hhead : (h ++ after).head? ≠ some '[' := by
      cases h with
      | nil =>
        intro e
        have := ha '[' e
        revert this
        decide
      | cons c h =>
        have := hchars c List.mem_cons_self
        simp only [List.cons_append, List.head?_cons, ne_eq, Option.some.injEq]
        rintro rfl
        revert this
        decide
    unfold hostPort
    rw [if_neg hhead]
    dsimp only
    rw [hcut.1, hcut.2, if_pos hplain]
  · have hcut := span_append (fun c => decide (c ≠ ']')) inner (']' :: after)
      (by
        intro c hc
        simp only [decide_eq_true_eq]
        rintro rfl
        exact hm hc)
      (by simp)
    have htext : '[' :: inner ++ [']'] ++ after = '[' :: (inner ++ ']' :: after) := by simp
    rw [htext]
    unfold hostPort
    rw [if_pos List.head?_cons]
    simp only [List.tail_cons, hcut.1, hcut.2, hb, if_true]

theorem isHost_iff (h : List Char) :
    isHost h = true ↔ isPlainHost h = true ∨
      ∃ inner, h = '[' :: inner ++ [']'] ∧ ']' ∉ inner ∧ isBracketed inner = true := by
  unfold isHost
  rw [beq_iff_eq]
  refine ⟨hostPort_forms, fun hf => ?_⟩
  have := hostPort_append hf [] (by simp)
  simpa [portOf] using this

theorem isHost_of_isPlainHost {h : List Char} (hp : isPlainHost h = true) : isHost h = true :=
  (isHost_iff h).2 (.inl hp)

/-- A host that does not start with a bracket is a plain one. -/
theorem isPlainHost_of_isHost {h : List Char} (hh : isHost h = true) (hb : h.head? ≠ some '[') :
    isPlainHost h = true := by
  rcases (isHost_iff h).1 hh with hp | ⟨inner, rfl, -, -⟩
  · exact hp
  · exact absurd rfl hb

/-- The characters of a host of either form. -/
theorem mem_isHost {h : List Char} (hh : isHost h = true) {c : Char} (hc : c ∈ h) :
    hostChar c = true ∨ bracketChar c = true ∨ c = '[' ∨ c = ']' := by
  rcases (isHost_iff h).1 hh with hp | ⟨inner, rfl, -, hb⟩
  · exact .inl (mem_isPlainHost hp hc)
  · simp only [List.cons_append, List.mem_cons, List.mem_append, List.not_mem_nil, or_false] at hc
    rcases hc with rfl | hc | rfl
    · exact .inr (.inr (.inl rfl))
    · exact .inr (.inl (mem_isBracketed hb hc))
    · exact .inr (.inr (.inr rfl))

/-- The host and the port of a URI that has a host were read as `host:port`. -/
theorem hostPort_of_ofText {cs : List Char} {uri : Uri} (h : ofText cs = some uri)
    {host : List Char} (hh : uri.host = some host) :
    ∃ text, hostPort text = some (host, uri.port) := by
  have hserver : ∀ {cs uri}, serverOf cs = some uri → uri.host = some host →
      ∃ text, hostPort text = some (host, uri.port) := by
    intro cs uri h hh
    unfold serverOf at h
    split at h
    · dsimp only at h
      split at h
      · obtain ⟨⟨h', p⟩, hp, rfl⟩ := Option.map_eq_some_iff.1 h
        cases hh
        exact ⟨_, hp⟩
      · cases h
    · obtain ⟨⟨h', p⟩, hp, rfl⟩ := Option.map_eq_some_iff.1 h
      cases hh
      exact ⟨_, hp⟩
  have hauth : ∀ {cs uri}, authorityOf cs = some uri → uri.host = some host →
      ∃ text, hostPort text = some (host, uri.port) := by
    intro cs uri h hh
    have hregistry : ∀ {b : Bool} {uri : Uri}, (if b then some {} else none) = some uri →
        uri.host = none := by
      intro b uri h
      cases b
      · cases h
      · cases h
        rfl
    unfold authorityOf at h
    split at h
    · cases h
      cases hh
    · split at h
      · cases h
      · split at h
        · cases h
        · dsimp only at h
          split at h
          · split at h
            · rename_i hs
              cases h
              exact hserver hs hh
            · rw [hregistry h] at hh
              cases hh
          · rw [hregistry h] at hh
            cases hh
  unfold ofText at h
  split at h
  · split at h
    · unfold afterScheme at h
      dsimp only at h
      split at h
      · cases h
      · rename_i ha
        split at h
        · cases h
          obtain ⟨text, ht⟩ := hauth ha hh
          exact ⟨text, ht⟩
        · cases h
    · cases h
  · cases h

/-- **A host that was read is of one of the forms.** -/
theorem host_of_ofText {cs : List Char} {uri : Uri} (h : ofText cs = some uri) {host : List Char}
    (hh : uri.host = some host) : isHost host = true := by
  obtain ⟨text, ht⟩ := hostPort_of_ofText h hh
  exact (isHost_iff host).2 (hostPort_forms ht)

/-- A port that was read fits an `Int`. -/
theorem port_of_ofText {cs : List Char} {uri : Uri} (h : ofText cs = some uri) {host : List Char}
    (hh : uri.host = some host) {n : Nat} (hn : uri.port = some n) : n < 2 ^ 31 := by
  have hport : ∀ {after : List Char}, portOf after = some (some n) → n < 2 ^ 31 := by
    intro after h
    unfold portOf at h
    split at h
    · cases h
    · split at h
      · split at h
        · cases h
        · split at h
          · rename_i hd
            rw [Bool.and_eq_true, decide_eq_true_eq] at hd
            cases h
            exact hd.2
          · cases h
      · cases h
  obtain ⟨text, ht⟩ := hostPort_of_ofText h hh
  rw [hn] at ht
  unfold hostPort at ht
  split at ht
  · split at ht
    · cases ht
    · dsimp only at ht
      split at ht
      · obtain ⟨q, hq, he⟩ := Option.map_eq_some_iff.1 ht
        cases he
        exact hport hq
      · cases ht
  · dsimp only at ht
    split at ht
    · obtain ⟨q, hq, he⟩ := Option.map_eq_some_iff.1 ht
      cases he
      exact hport hq
    · cases ht

/-! ## 6. A text put together comes apart again -/

theorem portOf_toDigits {n : Nat} (hn : n < 2 ^ 31) :
    portOf (':' :: Nat.toDigits 10 n) = some (some n) := by
  have hne : (Nat.toDigits 10 n).isEmpty = false := by
    rw [List.isEmpty_eq_false_iff]
    exact Nat.toDigits_ne_nil
  have hdigits : (Nat.toDigits 10 n).all Char.isDigit = true := by
    rw [List.all_eq_true]
    intro c hc
    exact Nat.isDigit_of_mem_toDigits (by decide) (by decide) hc
  have hvalue : decimal (Nat.toDigits 10 n) = n := Nat.ofDigitChars_ten_toDigits
  simp only [portOf, if_true, hne, hdigits, hvalue, Bool.true_and, decide_eq_true hn,
    Bool.false_eq_true, if_false]

/-- The characters of `host:port` are those of a server's authority, and end no authority. -/
theorem mem_hostPort {h : List Char} {n : Nat} (hh : isHost h = true) {c : Char}
    (hc : c ∈ h ++ ':' :: Nat.toDigits 10 n) :
    serverChar c = true ∧ c ≠ '@' ∧ "/?#".toList.contains c = false := by
  have halnum : ∀ c : Char, c.isAlphanum = true →
      serverChar c = true ∧ c ≠ '@' ∧ "/?#".toList.contains c = false := by
    intro c hc
    have hne : ∀ d : Char, d.isAlphanum = false → c ≠ d := by
      rintro d hd rfl
      rw [hc] at hd
      cases hd
    refine ⟨by simp [serverChar, userInfoChar, unreserved, hc], hne '@' (by decide), ?_⟩
    have h1 := hne '/' (by decide)
    have h2 := hne '?' (by decide)
    have h3 := hne '#' (by decide)
    simp [h1, h2, h3]
  have hpoint : ∀ c ∈ ['-', '_', '.', ':', '%', '[', ']'],
      serverChar c = true ∧ c ≠ '@' ∧ "/?#".toList.contains c = false := by
    simp only [List.forall_mem_cons, List.not_mem_nil, false_implies, implies_true]
    decide
  rw [List.mem_append, List.mem_cons] at hc
  rcases hc with hc | rfl | hc
  · rcases mem_isHost hh hc with hc | hc | rfl | rfl
    · simp only [hostChar, Bool.or_eq_true, beq_iff_eq] at hc
      rcases hc with ((hc | rfl) | rfl) | rfl
      · exact halnum c hc
      all_goals exact hpoint _ (by decide)
    · simp only [bracketChar, Bool.or_eq_true, beq_iff_eq] at hc
      rcases hc with ((hc | rfl) | rfl) | rfl
      · exact halnum c hc
      all_goals exact hpoint _ (by decide)
    · exact hpoint _ (by decide)
    · exact hpoint _ (by decide)
  · exact hpoint _ (by decide)
  · have hd := Nat.isDigit_of_mem_toDigits (by decide) (by decide) hc
    exact halnum c (isAlphanum_of_isDigit hd)

/-- A run over the characters of a registered name meets no escape in `host:port`. -/
theorem scan_regName_hostPort {h : List Char} {n : Nat} (hh : isHost h = true) :
    ∃ b, scan regNameChar (h ++ ':' :: Nat.toDigits 10 n) = some b := by
  rcases (isHost_iff h).1 hh with hp | ⟨inner, rfl, -, -⟩
  · refine ⟨true, scan_of_forall ?_⟩
    intro c hc
    have halnum : ∀ c : Char, c.isAlphanum = true → regNameChar c = true := by
      intro c hc
      simp [regNameChar, unreserved, hc]
    rw [List.mem_append, List.mem_cons] at hc
    rcases hc with hc | rfl | hc
    · have := mem_isPlainHost hp hc
      simp only [hostChar, Bool.or_eq_true, beq_iff_eq] at this
      rcases this with ((hc | rfl) | rfl) | rfl
      · exact halnum c hc
      all_goals decide
    · decide
    · exact halnum c (isAlphanum_of_isDigit
        (Nat.isDigit_of_mem_toDigits (by decide) (by decide) hc))
  · refine ⟨false, ?_⟩
    simp only [List.cons_append]
    exact scan_cons_of_not (by decide) (by decide) (by decide) _

/-- `user@host:port` is read as such. -/
theorem authorityOf_server {user h : List Char} {n : Nat}
    (hu : scan userInfoChar user = some true) (hh : isHost h = true) (hn : n < 2 ^ 31) :
    authorityOf (user ++ '@' :: (h ++ ':' :: Nat.toDigits 10 n))
      = some { userInfo := some user, host := some h, port := some n } := by
  have hnot : ∀ d : Char, userInfoChar d = false → d ≠ '%' → Percent.hexValue d = none →
      other d = false → d ∉ user := fun d h1 h2 h3 h4 => not_mem_of_scan h1 h2 h3 h4 hu
  have hhex : ∀ c : Char, (Percent.hexValue c).isSome → unreserved c = true := by
    intro c hc
    simp [unreserved, Percent.isAlphanum_of_hexValue hc]
  obtain ⟨b, hb⟩ := scan_regName_hostPort (n := n) hh
  -- both runs pass the user info and the `@`
  have hreg : scan regNameChar (user ++ '@' :: (h ++ ':' :: Nat.toDigits 10 n)) = some b := by
    have huser : scan regNameChar user = some true := by
      refine scan_mono ?_ (fun c hc => by simp [regNameChar, hhex c hc]) hu
      intro c hc
      simp only [userInfoChar, Bool.or_eq_true, List.contains_iff_mem] at hc
      simp only [regNameChar, Bool.or_eq_true, List.contains_iff_mem]
      refine hc.imp_right fun hm => ?_
      have hsub : ";:&=+$,".toList.all (fun c => "$,;:@&=+".toList.contains c) = true := by decide
      exact List.contains_iff_mem.1 (List.all_eq_true.1 hsub c hm)
    rw [scan_append huser, scan_cons_of_ok (by decide), hb]
  have hserver : scan serverChar (user ++ '@' :: (h ++ ':' :: Nat.toDigits 10 n)) = some true := by
    have huser : scan serverChar user = some true :=
      scan_mono (fun c hc => by simp [serverChar, hc])
        (fun c hc => by simp [serverChar, userInfoChar, hhex c hc]) hu
    rw [scan_append huser, scan_cons_of_ok (by decide)]
    exact scan_of_forall fun c hc => (mem_hostPort hh hc).1
  have hread : serverOf (user ++ '@' :: (h ++ ':' :: Nat.toDigits 10 n))
      = some { userInfo := some user, host := some h, port := some n } := by
    have hcut := span_append (fun c => decide (c ≠ '@')) user
      ('@' :: (h ++ ':' :: Nat.toDigits 10 n))
      (by
        intro c hc
        simp only [decide_eq_true_eq]
        rintro rfl
        exact hnot '@' (by decide) (by decide) (by decide) (by decide) hc)
      (by simp)
    have hport := hostPort_append ((isHost_iff h).1 hh) (':' :: Nat.toDigits 10 n) (by simp)
    rw [portOf_toDigits hn] at hport
    unfold serverOf
    rw [if_pos (by simp)]
    dsimp only
    rw [hcut.1, hcut.2, checkChars, hu, if_pos (by decide), List.tail_cons, hport]
    rfl
  have hempty : (user ++ '@' :: (h ++ ':' :: Nat.toDigits 10 n)).isEmpty = false := by
    cases user <;> rfl
  have hhead : (user ++ '@' :: (h ++ ':' :: Nat.toDigits 10 n)).head? ≠ some ']' := by
    cases user with
    | nil => simp
    | cons c user =>
      simp only [List.cons_append, List.head?_cons, ne_eq, Option.some.injEq]
      rintro rfl
      exact hnot ']' (by decide) (by decide) (by decide) (by decide) List.mem_cons_self
  unfold authorityOf
  rw [hempty, if_neg (by decide), if_neg hhead, hreg]
  dsimp only
  rw [if_pos hserver, hread]

/-- A query as it stands in the text. -/
def queryPart : Option (List Char) → List Char
  | none => []
  | some q => '?' :: q

/-- **A text put together from its parts comes apart again.** -/
theorem ofText_server {scheme user h fragment : List Char} {n : Nat} {query : Option (List Char)}
    (hs : isScheme scheme = true) (hu : scan userInfoChar user = some true)
    (hh : isHost h = true) (hn : n < 2 ^ 31) (hq : ∀ q ∈ query, scan uric q = some true)
    (hf : scan uric fragment = some true) :
    ofText (scheme ++ ':' :: '/' :: '/' :: (user ++ '@' :: (h ++ ':' :: Nat.toDigits 10 n)
        ++ (queryPart query ++ '#' :: fragment)))
      = some { userInfo := some user, host := some h, port := some n, query := query,
               fragment := some fragment } := by
  have hsplit : ∀ (p : Char → Bool) (q : List Char), (∀ c ∈ q, p c = true) → p '#' = false →
      (q ++ '#' :: fragment).takeWhile p = q ∧
        (q ++ '#' :: fragment).dropWhile p = '#' :: fragment := by
    intro p q hq hp
    exact span_append p q _ hq (by simpa using hp)
  have hhash : ∀ q, scan uric q = some true → '#' ∉ q := fun q hq =>
    not_mem_of_scan (by decide) (by decide) (by decide) (by decide) hq
  have hscheme := span_append (fun c => decide (c ≠ ':')) scheme (':' :: '/' :: '/' ::
      (user ++ '@' :: (h ++ ':' :: Nat.toDigits 10 n) ++ (queryPart query ++ '#' :: fragment)))
    (by
      intro c hc
      have hall := (Bool.and_eq_true _ _ ▸ hs : _ ∧ _).2
      have := List.all_eq_true.1 hall c hc
      simp only [decide_eq_true_eq]
      rintro rfl
      revert this
      decide)
    (by simp)
  have hauth := span_append (fun c => !"/?#".toList.contains c)
    (user ++ '@' :: (h ++ ':' :: Nat.toDigits 10 n)) (queryPart query ++ '#' :: fragment)
    (by
      intro c hc
      rw [List.mem_append, List.mem_cons] at hc
      rcases hc with hc | rfl | hc
      · have hne : ∀ d : Char, userInfoChar d = false → d ≠ '%' → Percent.hexValue d = none →
            other d = false → c ≠ d := by
          rintro d h1 h2 h3 h4 rfl
          exact not_mem_of_scan h1 h2 h3 h4 hu hc
        have h1 := hne '/' (by decide) (by decide) (by decide) (by decide)
        have h2 := hne '?' (by decide) (by decide) (by decide) (by decide)
        have h3 := hne '#' (by decide) (by decide) (by decide) (by decide)
        simp [h1, h2, h3]
      · decide
      · rw [(mem_hostPort hh hc).2.2]
        rfl)
    (by
      cases query with
      | none => simp [queryPart]
      | some q => simp [queryPart])
  have hpath : ∀ p : Char → Bool, p '?' = false → p '#' = false →
      (queryPart query ++ '#' :: fragment).takeWhile p = [] ∧
        (queryPart query ++ '#' :: fragment).dropWhile p = queryPart query ++ '#' :: fragment := by
    intro p h1 h2
    cases query with
    | none => simp [queryPart, h2]
    | some q => simp [queryPart, h1]
  have hquery : queryOf (queryPart query ++ '#' :: fragment) = query := by
    cases query with
    | none => rfl
    | some q =>
      have hcut := (hsplit (fun c => decide (c ≠ '#')) q (by
        intro c hc
        simp only [decide_eq_true_eq]
        rintro rfl
        exact hhash q (hq q rfl) hc) (by decide)).1
      simp only [queryPart, List.cons_append, queryOf, hcut]
  have hfragment : fragmentOf (queryPart query ++ '#' :: fragment) = some fragment := by
    have hcut := (hsplit (fun c => decide (c ≠ '#')) (queryPart query) (by
      intro c hc
      simp only [decide_eq_true_eq]
      rintro rfl
      cases query with
      | none => cases hc
      | some q =>
        rcases List.mem_cons.1 hc with e | hc
        · revert e
          decide
        · exact hhash q (hq q rfl) hc) (by decide)).2
    simp only [fragmentOf, hcut]
  have hqall : query.all (checkChars uric) = true := by
    cases query with
    | none => rfl
    | some q => simp [checkChars, hq q rfl]
  have hfall : (some fragment).all (checkChars uric) = true := by simp [checkChars, hf]
  have hslash := hpath (fun c => !"?#".toList.contains c) (by decide) (by decide)
  unfold ofText
  rw [hscheme.1, hscheme.2]
  simp only [hs, if_true]
  unfold afterScheme
  dsimp only
  rw [hauth.1, hauth.2, authorityOf_server hu hh hn, hslash.1, hslash.2]
  simp only
  rw [hquery, hfragment, hqall, hfall, if_pos (by decide)]

end Uri
