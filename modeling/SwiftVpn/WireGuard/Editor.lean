/-
  File:      SwiftVpn/WireGuard/Editor.lean
  Subject:   THE WIREGUARD EDITOR: parseWgDoc AND assemble OF WireGuardSettingsScreen.kt.

  The editor takes a document apart into one value for each key that it has a field for, and lines that it
  carries along. On save it writes a document from them, with one interface and one peer.

  * `parseWgDoc`, `assemble`, `saveEnabled` -- the screen, with no field edited;
  * `parseWgDoc_eq` -- what stands in the fields: of each key the LAST value;
  * `SeenByEditor` -- a line that is a header for both readers or for neither, and that has for each field
    of the editor the value which the editor has for it; `alike_of_plain`: so has every line in whose text
    the three readers take the same characters for blanks;
  * `attributeOf_written` -- a line that is written back has the value of the line that was read, comment
    or not;
  * `save_lossless_iff` -- what is stored is read as before exactly where the last Address, DNS and
    AllowedIPs lines name all that the earlier ones name.
-/
import SwiftVpn.WireGuard.Rewrite

namespace SwiftVpn.WireGuardSettingsScreen

open Awg WireGuardEngine

/-! ## 1. The screen -/

/-- Interface keys that the editor has a field for. -/
def ifaceKeys : List String := ["privatekey", "address", "dns", "mtu"]

/-- Peer keys that the editor has a field for. -/
def peerKeys : List String := ["publickey", "presharedkey", "endpoint", "allowedips", "persistentkeepalive"]

structure WgDoc where
  iface : String → Option String := fun _ => none
  peer : String → Option String := fun _ => none
  ifaceExtras : List String := []
  peerExtras : List String := []
  tailExtras : List String := []
  peerCount : Nat := 0

/-- The name between the brackets of a header. -/
def sectionName (raw : String) : String :=
  String.ofList (Text.lowercase (trimChars (trim raw).toList.tail.dropLast))

/-- The two sides of a line with a `=`. -/
def entryOf (raw : String) : Option (String × String) :=
  (Text.cutFirst '=' (trim raw).toList).map fun (left, right) =>
    (String.ofList (Text.lowercase (trimChars left)), String.ofList (trimChars right))

/-- A line that the editor carries along. -/
def WgDoc.addExtra (doc : WgDoc) (section_ raw : String) : WgDoc :=
  if section_ = "interface" then { doc with ifaceExtras := doc.ifaceExtras ++ [raw] }
  else if section_ = "peer" then { doc with peerExtras := doc.peerExtras ++ [raw] }
  else { doc with tailExtras := doc.tailExtras ++ [raw] }

/-- One line, in a section. -/
def WgDoc.next (st : String × WgDoc) (raw : String) : String × WgDoc :=
  let (section_, doc) := st
  if isHeaderLine raw then
    let name := sectionName raw
    if name = "peer" then (name, { doc with peerCount := doc.peerCount + 1 })
    else if name ≠ "interface" then (name, { doc with tailExtras := doc.tailExtras ++ [raw] })
    else (name, doc)
  else if (trim raw).toList.isEmpty then st
  else
    match entryOf raw with
    | some (key, value) =>
      if section_ = "interface" ∧ key ∈ ifaceKeys then
        (section_, { doc with iface := Function.update doc.iface key (some value) })
      else if section_ = "peer" ∧ doc.peerCount = 1 ∧ key ∈ peerKeys then
        (section_, { doc with peer := Function.update doc.peer key (some value) })
      else (section_, doc.addExtra section_ raw)
    | none => (section_, doc.addExtra section_ raw)

/-- `parseWgDoc`. -/
def parseWgDoc (text : String) : WgDoc := ((lineSequence text).foldl WgDoc.next ("", {})).2

namespace WgDoc

variable (doc : WgDoc)

/-- The form opens, and not the raw text. -/
def singlePeer : Bool := doc.peerCount ≤ 1 && (doc.iface "privatekey").isSome

def ifaceField (key : String) : String := (doc.iface key).getD ""

def peerField (key : String) : String := (doc.peer key).getD ""

/-- The lines of `assemble`. -/
def lines : List String :=
  ["[Interface]", "PrivateKey = " ++ trim (doc.ifaceField "privatekey"),
    "Address = " ++ trim (doc.ifaceField "address")] ++
  (if isBlank (doc.ifaceField "dns") then [] else ["DNS = " ++ trim (doc.ifaceField "dns")]) ++
  (if isBlank (doc.ifaceField "mtu") then [] else ["MTU = " ++ trim (doc.ifaceField "mtu")]) ++
  doc.ifaceExtras ++ ["", "[Peer]", "PublicKey = " ++ trim (doc.peerField "publickey")] ++
  (if isBlank (doc.peerField "presharedkey") then []
    else ["PresharedKey = " ++ trim (doc.peerField "presharedkey")]) ++
  ["Endpoint = " ++ trim (doc.peerField "endpoint"), "AllowedIPs = " ++ trim (doc.peerField "allowedips")] ++
  (if isBlank (doc.peerField "persistentkeepalive") then []
    else ["PersistentKeepalive = " ++ trim (doc.peerField "persistentkeepalive")]) ++
  doc.peerExtras ++ if doc.tailExtras.isEmpty then [] else "" :: doc.tailExtras

/-- `assemble`: every line has an end. -/
def assemble : String := String.ofList (doc.lines.flatMap fun l => l.toList ++ ['\n'])

/-- `saveEnabled`, with the form open. -/
def saveEnabled (name : String) : Bool :=
  !isBlank name && !isBlank (doc.ifaceField "privatekey") && !isBlank (doc.ifaceField "address") &&
    !isBlank (doc.peerField "publickey") && !isBlank (doc.peerField "endpoint") &&
    !isBlank (doc.peerField "allowedips")

end WgDoc

/-! ## 2. One line -/

/-- What `Config.parse` reads in a value: its comment goes, then what Java trims, then the blanks of the
    expression for a line. -/
def said (cs : List Char) : List Char :=
  Text.strip isRegexSpace ((cs.takeWhile (· ≠ '#')).rdropWhile fun c => c.toNat ≤ 0x20)

/-- What it reads in the value of a field, which is written trimmed. -/
def saying (v : String) : String := String.ofList (said (trimChars v.toList))

/-- A value without its comment and Kotlin's blanks. -/
def bare (cs : List Char) : List Char := Text.strip isWhitespace (cs.takeWhile (· ≠ '#'))

/-- In front of a comment, Kotlin, Java and the expression for a line take the same characters for
    blanks. -/
def Plain (cs : List Char) : Prop :=
  ∀ c ∈ cs.takeWhile (· ≠ '#'), isRegexSpace c = isWhitespace c ∧ (c.toNat ≤ 0x20 → isWhitespace c = true)

instance : DecidablePred Plain := fun cs => inferInstanceAs (Decidable (∀ c ∈ cs.takeWhile (· ≠ '#'), _))

section Line

theorem bare_append_left {xs : List Char} (h : ∀ c ∈ xs, isWhitespace c = true) (ys : List Char) :
    bare (xs ++ ys) = bare ys := by
  have hsharp : ∀ c ∈ xs, decide (c ≠ '#') = true := by
    intro c hc
    rw [decide_eq_true_eq]
    rintro rfl
    exact absurd (h _ hc) (by decide)
  unfold bare
  rw [List.takeWhile_append_of_pos hsharp, Text.strip_append_left h]

theorem bare_append_right {ys : List Char} (h : ∀ c ∈ ys, isWhitespace c = true) (xs : List Char) :
    bare (xs ++ ys) = bare xs := by
  have hsharp : ∀ c ∈ ys, decide (c ≠ '#') = true := by
    intro c hc
    rw [decide_eq_true_eq]
    rintro rfl
    exact absurd (h _ hc) (by decide)
  have hall : ys.takeWhile (fun c => decide (c ≠ '#')) = ys := List.takeWhile_eq_self_iff.2 hsharp
  unfold bare
  rw [List.takeWhile_append]
  split
  · rename_i hlen
    have hxs : xs.takeWhile (fun c => decide (c ≠ '#')) = xs :=
      (List.takeWhile_prefix _).eq_of_length hlen
    rw [hall, Text.strip_append_right h, hxs]
  · rfl

theorem bare_trim (cs : List Char) : bare (trimChars cs) = bare cs := by
  obtain ⟨xs, ys, hcs, hxs, hys⟩ := Text.exists_strip isWhitespace cs
  have htrim : trimChars cs = Text.strip isWhitespace cs := rfl
  conv_rhs => rw [hcs]
  rw [htrim, bare_append_right hys, bare_append_left hxs]

/-- What the editor makes of a line with a `=`: both sides are those of the untrimmed line. -/
theorem entryOf_eq {raw : String} {before after : List Char} (h : raw.toList = before ++ '=' :: after)
    (hbefore : '=' ∉ before) : ∃ v, entryOf raw
        = some (String.ofList (Text.lowercase (trimChars before)), String.ofList (trimChars v)) ∧
      bare v = bare after ∧ ∃ ys, after = v ++ ys := by
  obtain ⟨xs, ys, htrim, hxs, hys⟩ := Text.exists_strip isWhitespace raw.toList
  have hmem : '=' ∈ (trim raw).toList := by
    rw [trim, String.toList_ofList]
    exact Text.mem_strip (by rw [h]; simp) (by decide)
  obtain ⟨l, r, hcut⟩ : ∃ l r, Text.cutFirst '=' (trim raw).toList = some (l, r) := ⟨_, _, if_pos hmem⟩
  have htext : Text.strip isWhitespace raw.toList = l ++ '=' :: r := by
    have := Text.cutFirst_eq_some hcut
    rw [trim, String.toList_ofList] at this
    exact this
  have hl := Text.not_mem_of_cutFirst hcut
  rw [htext] at htrim
  have hsplit : before ++ '=' :: after = (xs ++ l) ++ '=' :: (r ++ ys) := by
    rw [← h, htrim]
    simp
  have hxl : '=' ∉ xs ++ l := by
    rw [List.mem_append, not_or]
    exact ⟨fun hm => absurd (hxs _ hm) (by decide), hl⟩
  obtain ⟨rfl, rfl⟩ := Text.append_cons_inj hsplit hbefore hxl
  refine ⟨r, ?_, (bare_append_right hys r).symm, ys, rfl⟩
  have hkey : trimChars (xs ++ l) = trimChars l := Text.strip_append_left hxs l
  rw [entryOf, hcut, hkey]
  rfl

/-- A name starts visibly, starts no header and no comment. -/
def readable (name : String) : Bool :=
  (name.toList.head?.any fun c => !isWhitespace c && c != '[') && !name.toList.contains '#'

theorem not_mem_of_blank {cs : List Char} (h : ∀ c ∈ cs, isWhitespace c = true) {x : Char}
    (hx : isWhitespace x = false) : x ∉ cs :=
  fun hm => absurd (h x hm) (by simp [hx])

/-- A part of a line in front of which there is no comment. -/
theorem Plain.infix {xs w ys : List Char} (h : Plain (xs ++ (w ++ ys))) (hx : '#' ∉ xs) : Plain w := by
  intro c hc
  apply h c
  have hpos : ∀ d ∈ xs, decide (d ≠ '#') = true := by
    intro d hd
    rw [decide_eq_true_eq]
    rintro rfl
    exact hx hd
  rw [List.takeWhile_append_of_pos hpos, List.takeWhile_append]
  apply List.mem_append_right
  split
  · exact List.mem_append_left _ ((List.takeWhile_prefix _).subset hc)
  · exact hc

theorem Plain.trim {cs : List Char} (h : Plain cs) : Plain (trimChars cs) := by
  obtain ⟨xs, ys, hcs, hxs, -⟩ := Text.exists_strip isWhitespace cs
  rw [hcs, List.append_assoc] at h
  exact h.infix (not_mem_of_blank hxs (by decide))

/-- What is read in a plain value is what is left of it. -/
theorem said_of_plain {cs : List Char} (h : Plain cs) : said cs = bare cs := by
  obtain ⟨ys, hw, hys⟩ := Text.exists_rdropWhile (fun c => decide (c.toNat ≤ 0x20))
    (cs.takeWhile fun c => decide (c ≠ '#'))
  have hblank : ∀ c ∈ ys, isWhitespace c = true := fun c hc =>
    (h c (hw ▸ List.mem_append_right _ hc)).2 (of_decide_eq_true (hys c hc))
  unfold said bare
  conv_rhs => rw [hw]
  rw [Text.strip_append_right hblank]
  exact Text.strip_congr fun c hc => (h c (hw ▸ List.mem_append_left _ hc)).1

theorem trimChars_of_left {K : Type} {names : List (String × K)} (hn : ∀ n ∈ names, readable n.1 = true)
    {left : List Char} {k : K} (hk : names.lookup (String.ofList (Text.lowercase
      (left.rdropWhile isWhitespace))) = some k) : trimChars left = left.rdropWhile isWhitespace := by
  obtain ⟨l₁, l₂, hmem⟩ : ∃ l₁ l₂, names = l₁ ++ (String.ofList (Text.lowercase
      (left.rdropWhile isWhitespace)), k) :: l₂ := by
    obtain ⟨l₁, l₂, h, -⟩ := List.lookup_eq_some_iff.1 hk
    exact ⟨l₁, l₂, h⟩
  have hread := hn (String.ofList (Text.lowercase (left.rdropWhile isWhitespace)), k) (hmem ▸ by simp)
  unfold readable at hread
  rw [Bool.and_eq_true, String.toList_ofList] at hread
  have hdrop : left.dropWhile isWhitespace = left := by
    cases left with
    | nil => rfl
    | cons c cs =>
      cases hc : isWhitespace c with
      | false => rw [List.dropWhile_cons_of_neg (by simp [hc])]
      | true =>
        -- a blank in front would be in front of the name
        exfalso
        cases hkey : (c :: cs).rdropWhile isWhitespace with
        | nil =>
          rw [hkey] at hread
          exact absurd hread.1 (by decide)
        | cons d ds =>
          have hpre := List.rdropWhile_prefix isWhitespace (c :: cs)
          rw [hkey] at hpre
          obtain ⟨rest, hrest⟩ := hpre
          have hd : d = c := (List.cons.inj hrest).1
          rw [hkey, hd] at hread
          have hhead := hread.1
          unfold Text.lowercase at hhead
          rw [List.map_cons, List.head?_cons, Option.any_some] at hhead
          have hsame : (if c.toNat = 0x212A then 'k' else c.toLower) = c := by
            have hrange : c.toNat ≤ 32 ∨ 0xA0 ≤ c.toNat := by
              simp only [isWhitespace, Bool.or_eq_true, Bool.and_eq_true, decide_eq_true_eq, beq_iff_eq] at hc
              omega
            have hkelvin : c.toNat ≠ 0x212A := by
              simp only [isWhitespace, Bool.or_eq_true, Bool.and_eq_true, decide_eq_true_eq, beq_iff_eq] at hc
              omega
            rw [if_neg hkelvin]
            exact Text.toLower_of_not_upper (by omega)
          rw [hsame, hc] at hhead
          cases hhead
  have hstrip : trimChars left = (left.dropWhile isWhitespace).rdropWhile isWhitespace := rfl
  rw [hstrip, hdrop]

/-- **A plain line that `Config.parse` reads is read by the editor**: the same name, and a value in which
    the same is read. -/
theorem entryOf_of_attribute {K : Type} {names : List (String × K)} (hn : ∀ n ∈ names, readable n.1 = true)
    {raw s : String} {k : K} (hplain : Plain raw.toList)
    (h : attributeOf names (content raw) = some (k, s)) : ∃ name v, entryOf raw = some (name, v) ∧
      names.lookup name = some k ∧ s = saying v := by
  obtain ⟨left, right, hline, hleft, hk, rfl, -⟩ := attributeOf_eq_some h
  obtain ⟨js, js', hjava, hjs, hjs'⟩ := Text.exists_strip (fun c => decide (c.toNat ≤ 0x20))
    (raw.toList.takeWhile (· ≠ '#'))
  have hcontent : Text.strip (fun c => decide (c.toNat ≤ 0x20)) (raw.toList.takeWhile (· ≠ '#'))
      = left ++ '=' :: right := hline
  rw [hcontent] at hjava
  have hpre : ∀ c ∈ js ++ (left ++ '=' :: right) ++ js',
      isRegexSpace c = isWhitespace c ∧ (c.toNat ≤ 0x20 → isWhitespace c = true) := by
    rw [← hjava]
    exact hplain
  have hsharp : '#' ∉ js ++ (left ++ '=' :: right) ++ js' := by
    rw [← hjava]
    intro hm
    have := List.all_eq_true.1 List.all_takeWhile _ hm
    simp at this
  simp only [List.mem_append, List.mem_cons] at hpre hsharp
  have hjsK : ∀ c ∈ js, isWhitespace c = true := fun c hc =>
    (hpre c (.inl (.inl hc))).2 (of_decide_eq_true (hjs c hc))
  have hjsK' : ∀ c ∈ js', isWhitespace c = true := fun c hc =>
    (hpre c (.inr hc)).2 (of_decide_eq_true (hjs' c hc))
  have hsplit := List.takeWhile_append_dropWhile (p := fun c => decide (c ≠ '#')) (l := raw.toList)
  generalize hrest : raw.toList.dropWhile (fun c => decide (c ≠ '#')) = rest at hsplit
  rw [hjava] at hsplit
  have hraw : raw.toList = (js ++ left) ++ '=' :: (right ++ js' ++ rest) := by
    rw [← hsplit]
    simp
  have hbefore : '=' ∉ js ++ left := by
    rw [List.mem_append, not_or]
    exact ⟨not_mem_of_blank hjsK (by decide), hleft⟩
  obtain ⟨v, hentry, hbare, ys, hafter⟩ := entryOf_eq hraw hbefore
  have hkey : left.rdropWhile isRegexSpace = left.rdropWhile isWhitespace :=
    Text.rdropWhile_congr fun c hc => (hpre c (.inl (.inr (.inl hc)))).1
  rw [hkey] at hk
  have hname : trimChars (js ++ left) = left.rdropWhile isWhitespace := by
    have hdrop : trimChars (js ++ left) = trimChars left := Text.strip_append_left hjsK left
    rw [hdrop, trimChars_of_left hn hk]
  -- what stands in front of a comment
  have hcomment : rest.takeWhile (fun c => decide (c ≠ '#')) = [] := by
    rw [← hrest]
    cases hd : raw.toList.dropWhile (fun c => decide (c ≠ '#')) with
    | nil => rfl
    | cons d ds =>
      have hhead := List.head?_dropWhile_not (fun c => decide (c ≠ '#')) raw.toList
      rw [hd] at hhead
      rw [List.takeWhile_cons_of_neg (by simpa using hhead)]
  have hvalue : bare v = Text.strip isRegexSpace right := by
    have hpos : ∀ c ∈ right ++ js', decide (c ≠ '#') = true := by
      intro c hc
      rw [decide_eq_true_eq]
      rintro rfl
      rcases List.mem_append.1 hc with hc | hc
      · exact hsharp (.inl (.inr (.inr (.inr hc))))
      · exact hsharp (.inr hc)
    rw [hbare, bare, List.takeWhile_append_of_pos hpos, hcomment, List.append_nil,
      Text.strip_append_right hjsK']
    exact Text.strip_congr fun c hc => (hpre c (.inl (.inr (.inr (.inr hc))))).1.symm
  have hplainV : Plain (trimChars v) := by
    obtain ⟨xs, zs, hv, hxs, -⟩ := Text.exists_strip isWhitespace v
    have hall : raw.toList = (js ++ left ++ '=' :: xs) ++ (Text.strip isWhitespace v ++ (zs ++ ys)) := by
      rw [hraw, hafter]
      conv_lhs => rw [hv]
      simp
    rw [hall] at hplain
    refine hplain.infix ?_
    simp only [List.mem_append, List.mem_cons, not_or]
    refine ⟨⟨fun hm => hsharp (.inl (.inl hm)), fun hm => hsharp (.inl (.inr (.inl hm)))⟩, by decide, ?_⟩
    exact not_mem_of_blank hxs (by decide)
  refine ⟨_, _, hentry, ?_, ?_⟩
  · rw [hname]
    exact hk
  · rw [saying, String.toList_ofList, said_of_plain hplainV.trim, bare_trim, bare_trim, hvalue]

/-- A character of the names that the editor writes. -/
def labelChar (c : Char) : Bool :=
  Attribute.isWord c && c != '=' && c != '#' && 0x20 < c.toNat && !isRegexSpace c

/-- **A line that the editor writes** is read with the value that it was written with. -/
theorem attributeOf_written {K : Type} {names : List (String × K)} {k : K} {name : List Char}
    (hk : names.lookup (String.ofList (Text.lowercase name)) = some k) (hne : name ≠ [])
    (hname : ∀ c ∈ name, labelChar c = true) {label v : String} (hlabel : label.toList = name ++ [' ', '=', ' '])
    (hend : (said (trimChars v.toList)).all (!isLineEnd ·) = true) :
    attributeOf names (content (label ++ SwiftVpn.trim v)) = some (k, saying v) := by
  have hchar : ∀ c ∈ name, Attribute.isWord c = true ∧ c ≠ '=' ∧ c ≠ '#' ∧ 0x20 < c.toNat ∧
      isRegexSpace c = false := by
    intro c hc
    simpa [labelChar, and_assoc] using hname c hc
  generalize hw : (trimChars v.toList).takeWhile (fun c => decide (c ≠ '#')) = w
  have hsaid : said (trimChars v.toList) = Text.strip isRegexSpace (w.rdropWhile fun c => c.toNat ≤ 0x20) := by
    rw [said, hw]
  have htake : (label ++ SwiftVpn.trim v).toList.takeWhile (fun c => decide (c ≠ '#'))
      = (name ++ [' ']) ++ '=' :: (' ' :: w) := by
    rw [String.toList_append, hlabel, SwiftVpn.trim, String.toList_ofList, List.takeWhile_append_of_pos, hw]
    · simp
    · intro c hc
      rcases List.mem_append.1 hc with hc | hc
      · simpa using (hchar c hc).2.2.1
      · have hlit : [' ', '=', ' '].all (fun c => decide (c ≠ '#')) = true := by decide
        exact List.all_eq_true.1 hlit c hc
  have hcontent : content (label ++ SwiftVpn.trim v)
      = (name ++ [' ']) ++ '=' :: (' ' :: w).rdropWhile (fun c => decide (c.toNat ≤ 0x20)) := by
    have hstrip : content (label ++ SwiftVpn.trim v)
        = (((name ++ [' ']) ++ '=' :: (' ' :: w)).dropWhile (fun c => decide (c.toNat ≤ 0x20))).rdropWhile
          (fun c => decide (c.toNat ≤ 0x20)) := by
      rw [← htake]
      rfl
    rw [hstrip]
    cases hn : name with
    | nil => exact absurd hn hne
    | cons c cs =>
      have hc := (hchar c (hn ▸ List.mem_cons_self)).2.2.2.1
      rw [List.cons_append, List.cons_append, List.dropWhile_cons_of_neg (by simpa using hc),
        ← List.cons_append, Text.rdropWhile_append_cons (by decide)]
  have hkey : (name ++ [' ']).rdropWhile isRegexSpace = name := by
    rw [Text.rdropWhile_append (by decide) name]
    refine List.rdropWhile_eq_self_iff.2 fun hl => ?_
    rw [(hchar _ (List.getLast_mem hl)).2.2.2.2]
    exact Bool.false_ne_true
  have hvalue : Text.strip isRegexSpace ((' ' :: w).rdropWhile fun c => decide (c.toNat ≤ 0x20))
      = said (trimChars v.toList) := by
    rw [hsaid]
    obtain ⟨ys, hu, hys⟩ := Text.exists_rdropWhile (fun c => decide (c.toNat ≤ 0x20)) w
    by_cases hnil : w.rdropWhile (fun c => decide (c.toNat ≤ 0x20)) = []
    · -- nothing but blanks: the one in front goes with them
      have hall : ∀ c ∈ ' ' :: w, decide (c.toNat ≤ 0x20) = true := by
        rw [hu, hnil, List.nil_append]
        exact List.forall_mem_cons.2 ⟨by decide, hys⟩
      rw [hnil, List.rdropWhile_eq_nil_iff.2 hall]
    · have hfront : (' ' :: w).rdropWhile (fun c => decide (c.toNat ≤ 0x20))
          = ' ' :: w.rdropWhile fun c => decide (c.toNat ≤ 0x20) := by
        conv_lhs => rw [hu, ← List.cons_append, Text.rdropWhile_append hys]
        exact List.rdropWhile_eq_self_iff.2 fun hl => by
          rw [List.getLast_cons hnil]
          exact List.rdropWhile_last_not _ _ hnil
      rw [hfront, ← List.singleton_append, Text.strip_append_left (by decide)]
  have hcut : '=' ∉ name ++ [' '] := by
    rw [List.mem_append, not_or]
    exact ⟨fun hm => (hchar _ hm).2.1 rfl, by decide⟩
  have hparse : Attribute.parse (content (label ++ SwiftVpn.trim v))
      = some (name, saying v) := by
    unfold Attribute.parse
    rw [hcontent, Text.cutFirst_append hcut]
    dsimp only
    have hrev : ((name ++ [' ']).reverse.dropWhile isRegexSpace).reverse = name := hkey
    have hword : name.all Attribute.isWord = true := List.all_eq_true.2 fun c hc => (hchar c hc).1
    have hnonempty : name.isEmpty = false := by simpa using hne
    rw [hrev, hvalue, hword, hnonempty, hend]
    rfl
  unfold attributeOf
  rw [hparse]
  show ((names.lookup (String.ofList (Text.lowercase name))).bind fun k => some (k, _)) = _
  rw [hk]
  rfl

/-- A line that says nothing has no name that the editor knows. -/
theorem entryOf_of_nil {raw : String} (h : content raw = []) {name v : String}
    (hentry : entryOf raw = some (name, v)) : '#' ∈ name.toList := by
  obtain ⟨js, js', hjava, hjs, hjs'⟩ := Text.exists_strip (fun c => decide (c.toNat ≤ 0x20))
    (raw.toList.takeWhile (· ≠ '#'))
  have hcontent : Text.strip (fun c => decide (c.toNat ≤ 0x20)) (raw.toList.takeWhile (· ≠ '#')) = [] := h
  rw [hcontent, List.append_nil] at hjava
  have hsplit := List.takeWhile_append_dropWhile (p := fun c => decide (c ≠ '#')) (l := raw.toList)
  rw [hjava] at hsplit
  have heq : '=' ∉ js ++ js' := by
    rw [List.mem_append, not_or]
    exact ⟨fun hm => absurd (hjs _ hm) (by decide), fun hm => absurd (hjs' _ hm) (by decide)⟩
  have hsides := hentry
  unfold entryOf at hsides
  obtain ⟨⟨l, r⟩, hcut, -⟩ := Option.map_eq_some_iff.1 hsides
  -- the `=` stands behind the sharp
  have hmem : '=' ∈ raw.toList := by
    have htext := Text.cutFirst_eq_some hcut
    apply Text.mem_of_mem_strip (p := isWhitespace)
    have htrim : Text.strip isWhitespace raw.toList = (SwiftVpn.trim raw).toList := by
      rw [SwiftVpn.trim, String.toList_ofList]
      rfl
    rw [htrim, htext]
    simp
  cases hd : raw.toList.dropWhile (fun c => decide (c ≠ '#')) with
  | nil =>
    rw [hd, List.append_nil] at hsplit
    rw [← hsplit] at hmem
    exact absurd hmem heq
  | cons d ds =>
    have hhead := List.head?_dropWhile_not (fun c => decide (c ≠ '#')) raw.toList
    rw [hd] at hhead
    have hsharp : d = '#' := by simpa using hhead
    rw [hd, hsharp] at hsplit
    have hds : '=' ∈ ds := by
      rw [← hsplit] at hmem
      simp only [List.mem_append, List.mem_cons] at hmem heq
      rcases hmem with hm | hm | hm
      · exact absurd hm heq
      · exact absurd hm (by decide)
      · exact hm
    obtain ⟨as, bs, hcut'⟩ : ∃ as bs, Text.cutFirst '=' ds = some (as, bs) := ⟨_, _, if_pos hds⟩
    have hab := Text.cutFirst_eq_some hcut'
    have has := Text.not_mem_of_cutFirst hcut'
    have hraw : raw.toList = (js ++ js' ++ '#' :: as) ++ '=' :: bs := by
      rw [← hsplit, hab]
      simp
    have hbefore : '=' ∉ js ++ js' ++ '#' :: as := by
      rw [List.mem_append, List.mem_cons, not_or, not_or]
      exact ⟨heq, by decide, has⟩
    obtain ⟨v', hentry', -⟩ := entryOf_eq hraw hbefore
    rw [hentry] at hentry'
    rw [(Prod.mk.inj (Option.some.inj hentry')).1, String.toList_ofList]
    have hin : '#' ∈ trimChars (js ++ js' ++ '#' :: as) :=
      Text.mem_strip (p := isWhitespace) (by simp) (by decide)
    exact List.mem_map.2 ⟨'#', hin, by decide⟩

end Line

/-! ## 3. Fields -/

/-- The field that a line goes to, and its value. -/
def known (keys : List String) (raw : String) : Option (String × String) :=
  (entryOf raw).filter fun e => e.1 ∈ keys

/-- A line that is carried along. -/
def isExtra (keys : List String) (raw : String) : Bool :=
  !(trim raw).toList.isEmpty && (known keys raw).isNone

/-- The value that a line has for a field. -/
def fieldValue (keys : List String) (key raw : String) : Option String :=
  (known keys raw).bind fun e => if e.1 = key then some e.2 else none

/-- The keys of a form are names of the section, each for one attribute. -/
structure Form {K : Type} (names : List (String × K)) (keys : List String) : Prop where
  readable : ∀ n ∈ names, readable n.1 = true
  sharp : ∀ key ∈ keys, '#' ∉ key.toList
  unique : ∀ n ∈ names, ∀ m ∈ names, n.2 = m.2 → n.1 = m.1

section Fields

variable {K : Type} [DecidableEq K] {names : List (String × K)} {keys : List String} {raw : String}

omit [DecidableEq K] in
theorem Form.eq_of_lookup (hf : Form names keys) {a b : String} {k : K} (ha : names.lookup a = some k)
    (hb : names.lookup b = some k) : a = b := by
  obtain ⟨l₁, l₂, h, -⟩ := List.lookup_eq_some_iff.1 ha
  obtain ⟨m₁, m₂, h', -⟩ := List.lookup_eq_some_iff.1 hb
  exact hf.unique (a, k) (h ▸ by simp) (b, k) (h' ▸ by simp) rfl

theorem known_of_nil (hsharp : ∀ key ∈ keys, '#' ∉ key.toList) (h : content raw = []) :
    known keys raw = none := by
  unfold known
  rw [Option.filter_eq_none_iff]
  rintro ⟨name, v⟩ hentry hmem
  exact hsharp name (of_decide_eq_true hmem) (entryOf_of_nil h hentry)

/-- A line has for the attribute of each field the value that the editor has for the field. -/
def Alike (names : List (String × K)) (keys : List String) (raw : String) : Prop :=
  ∀ key ∈ keys, ∀ k ∈ names.lookup key, valueOf names k raw = (fieldValue keys key raw).map saying

instance : Decidable (Alike names keys raw) := inferInstanceAs (Decidable (∀ key ∈ keys, _))

/-- **So has every plain line** of a section of `Config.parse`. -/
theorem alike_of_plain (hf : Form names keys) (hreads : Reads names raw) (hplain : Plain raw.toList) :
    Alike names keys raw := by
  intro key hkey k hk
  unfold valueOf fieldValue
  cases ha : attributeOf names (content raw) with
  | none =>
    have hnil : content raw = [] := hreads.resolve_right (by simp [ha])
    rw [known_of_nil hf.sharp hnil]
    rfl
  | some a =>
    obtain ⟨k', s⟩ := a
    obtain ⟨name, v, hentry, hname, rfl⟩ := entryOf_of_attribute hf.readable hplain ha
    rw [known, hentry]
    dsimp only [Option.bind_some]
    by_cases hkk : k' = k
    · subst hkk
      have hsame : name = key := hf.eq_of_lookup hname hk
      subst hsame
      simp [Option.filter, hkey]
    · have hother : name ≠ key := by
        rintro rfl
        exact hkk (Option.some.inj (hname.symm.trans hk))
      rw [if_neg hkk]
      by_cases hmem : name ∈ keys <;> simp [Option.filter, hmem, hother]

/-- The attribute of a line that goes to a field is that of the field. -/
theorem Alike.attribute (h : Alike names keys raw) {key v : String} (hkey : key ∈ keys) {k : K}
    (hk : names.lookup key = some k) (hv : fieldValue keys key raw = some v) :
    attributeOf names (content raw) = some (k, saying v) := by
  have hvalue := h key hkey k hk
  rw [hv] at hvalue
  exact valueOf_eq_some.1 hvalue

/-- What stands in a field can be written back. -/
theorem Alike.lineEnd (h : Alike names keys raw) {key v : String} (hkey : key ∈ keys) {k : K}
    (hk : names.lookup key = some k) (hv : fieldValue keys key raw = some v) :
    (said (trimChars v.toList)).all (!isLineEnd ·) = true := by
  obtain ⟨left, right, -, -, -, hsaying, hend⟩ := attributeOf_eq_some (h.attribute hkey hk hv)
  rw [String.ofList_injective hsaying]
  exact hend

/-- What an attribute without a field gets from the lines that are carried along. -/
theorem Alike.extra (h : Alike names keys raw) (hnames : ∀ key ∈ keys, (names.lookup key).isSome = true)
    {k : K} (hk : ∀ key ∈ keys, names.lookup key ≠ some k) {v : String} (hv : valueOf names k raw = some v) :
    isExtra keys raw = true := by
  have hnone : known keys raw = none := by
    rw [Option.eq_none_iff_forall_ne_some]
    rintro ⟨name, w⟩ hknown
    have hmem : name ∈ keys := of_decide_eq_true (Option.filter_eq_some_iff.1 hknown).2
    obtain ⟨k', hk'⟩ := Option.isSome_iff_exists.1 (hnames name hmem)
    have hfield : fieldValue keys name raw = some w := by
      rw [fieldValue, hknown, Option.bind_some]
      exact if_pos rfl
    have hattr := h.attribute hmem hk' hfield
    rw [valueOf_eq_some.1 hv, Option.some.injEq, Prod.mk.injEq] at hattr
    exact hk name hmem (hattr.1 ▸ hk')
  have hequals : '=' ∈ (trim raw).toList := by
    obtain ⟨left, right, hline, -⟩ := attributeOf_eq_some (valueOf_eq_some.1 hv)
    have hmem : '=' ∈ content raw := by
      rw [hline]
      simp
    rw [trim, String.toList_ofList]
    exact Text.mem_strip ((List.takeWhile_prefix _).subset (Text.mem_of_mem_strip hmem)) (by decide)
  unfold isExtra
  rw [hnone]
  simpa using List.ne_nil_of_mem hequals

/-- The lines that are carried along, attribute by attribute. -/
theorem filterMap_extras (hnames : ∀ key ∈ keys, (names.lookup key).isSome = true) {lines : List String}
    (halike : ∀ raw ∈ lines, Alike names keys raw) (k : K) :
    (lines.filter (isExtra keys)).filterMap (valueOf names k)
      = if keys.any (fun key => names.lookup key = some k) then [] else lines.filterMap (valueOf names k) := by
  rw [List.filterMap_filter]
  split
  · rename_i hk
    obtain ⟨key, hkey, hk⟩ := List.any_eq_true.1 hk
    rw [List.filterMap_eq_nil_iff]
    intro raw hraw
    split
    · rename_i hextra
      unfold isExtra at hextra
      rw [Bool.and_eq_true, Option.isNone_iff_eq_none] at hextra
      rw [halike raw hraw key hkey k (of_decide_eq_true hk), fieldValue, hextra.2]
      rfl
    · rfl
  · rename_i hk
    refine List.filterMap_congr fun raw hraw => ?_
    split
    · rfl
    · rename_i hextra
      cases hv : valueOf names k raw with
      | none => rfl
      | some v =>
        refine absurd ((halike raw hraw).extra hnames (fun key hkey hlookup => hk ?_) hv) hextra
        exact List.any_eq_true.2 ⟨key, hkey, decide_eq_true hlookup⟩

end Fields

/-! ## 4. Sections that are written -/

/-- The line of a field, unless it is blank. -/
def written (label : String) (value : Option String) : List String :=
  if isBlank (value.getD "") then [] else [label ++ trim (value.getD "")]

/-- The lines of a section: its fields, then what was carried along. -/
def bodyLines (labels : List (String × String)) (field : String → Option String) (extras : List String) :
    List String :=
  (labels.flatMap fun l => written l.1 (field l.2)) ++ extras

/-- A label is the name of its key, in any case, and a sign. -/
def IsLabel (l : String × String) : Prop :=
  ∃ name, l.1.toList = name ++ [' ', '=', ' '] ∧ String.ofList (Text.lowercase name) = l.2 ∧ name ≠ [] ∧
    ∀ c ∈ name, labelChar c = true

def ifaceLabels : List (String × String) :=
  [("PrivateKey = ", "privatekey"), ("Address = ", "address"), ("DNS = ", "dns"), ("MTU = ", "mtu")]

def peerLabels : List (String × String) :=
  [("PublicKey = ", "publickey"), ("PresharedKey = ", "presharedkey"), ("Endpoint = ", "endpoint"),
    ("AllowedIPs = ", "allowedips"), ("PersistentKeepalive = ", "persistentkeepalive")]

theorem isLabel_of_take {l : String × String} (n : Nat)
    (h : l.1.toList = l.1.toList.take n ++ [' ', '=', ' '] ∧
      String.ofList (Text.lowercase (l.1.toList.take n)) = l.2 ∧ l.1.toList.take n ≠ [] ∧
      (l.1.toList.take n).all labelChar = true) : IsLabel l :=
  ⟨_, h.1, h.2.1, h.2.2.1, fun c hc => List.all_eq_true.1 h.2.2.2 c hc⟩

theorem isLabel_ifaceLabels : ∀ l ∈ ifaceLabels, IsLabel l := by
  intro l hl
  unfold ifaceLabels at hl
  simp only [List.mem_cons, List.not_mem_nil, or_false] at hl
  rcases hl with rfl | rfl | rfl | rfl
  · exact isLabel_of_take 10 (by decide +kernel)
  · exact isLabel_of_take 7 (by decide +kernel)
  · exact isLabel_of_take 3 (by decide +kernel)
  · exact isLabel_of_take 3 (by decide +kernel)

theorem isLabel_peerLabels : ∀ l ∈ peerLabels, IsLabel l := by
  intro l hl
  unfold peerLabels at hl
  simp only [List.mem_cons, List.not_mem_nil, or_false] at hl
  rcases hl with rfl | rfl | rfl | rfl | rfl
  · exact isLabel_of_take 9 (by decide +kernel)
  · exact isLabel_of_take 12 (by decide +kernel)
  · exact isLabel_of_take 8 (by decide +kernel)
  · exact isLabel_of_take 10 (by decide +kernel)
  · exact isLabel_of_take 19 (by decide +kernel)

theorem form_iface : Form InterfaceKey.names ifaceKeys where
  readable := by decide +kernel
  sharp := by decide +kernel
  unique := by decide +kernel

theorem form_peer : Form PeerKey.names peerKeys where
  readable := by decide +kernel
  sharp := by decide +kernel
  unique := by decide +kernel

section Written

variable {K : Type} [DecidableEq K] {names : List (String × K)}

omit [DecidableEq K] in
theorem attributeOf_label {l : String × String} (hl : IsLabel l) {k : K} (hk : names.lookup l.2 = some k)
    {v : String} (hend : (said (trimChars v.toList)).all (!isLineEnd ·) = true) :
    attributeOf names (content (l.1 ++ trim v)) = some (k, saying v) := by
  obtain ⟨name, hlabel, hkey, hne, hname⟩ := hl
  exact attributeOf_written (hkey ▸ hk) hne hname hlabel hend

/-- The value of a field, unless it is blank. -/
def shown (value : Option String) : Option String := value.filter fun v => !isBlank v

theorem written_eq (label : String) (value : Option String) :
    written label value = (shown value).toList.map fun v => label ++ trim v := by
  unfold written shown
  cases value with
  | none => rfl
  | some v => cases hb : isBlank v <;> simp [Option.filter, hb]

/-- One label for each key. -/
theorem flatMap_single {B : Type} {labels : List (String × String)} (hnodup : (labels.map (·.2)).Nodup)
    {key : String} (hkey : key ∈ labels.map (·.2)) (g : List B) :
    (labels.flatMap fun l => if l.2 = key then g else []) = g := by
  have hnone : ∀ ls : List (String × String), key ∉ ls.map (·.2) →
      (ls.flatMap fun l => if l.2 = key then g else []) = [] := by
    intro ls hls
    rw [List.flatMap_eq_nil_iff]
    intro l hl
    exact if_neg fun (he : l.2 = key) => hls (he ▸ List.mem_map_of_mem hl)
  induction labels with
  | nil => cases hkey
  | cons l ls ih =>
    rw [List.map_cons, List.nodup_cons] at hnodup
    rw [List.flatMap_cons]
    by_cases he : l.2 = key
    · rw [if_pos he, hnone ls (he ▸ hnodup.1), List.append_nil]
    · rw [if_neg he, List.nil_append]
      rw [List.map_cons, List.mem_cons] at hkey
      exact ih hnodup.2 (hkey.resolve_left (Ne.symm he))

/-- **The values of a written section**: a field has its own, and all else what was carried along. -/
theorem filterMap_bodyLines {keys : List String} (hf : Form names keys) {labels : List (String × String)}
    (hlabels : ∀ l ∈ labels, IsLabel l) (hkeys : labels.map (·.2) = keys) (hnodup : keys.Nodup)
    (hnames : ∀ key ∈ keys, (names.lookup key).isSome = true) {lines : List String}
    (halike : ∀ raw ∈ lines, Alike names keys raw) {field : String → Option String}
    (hfield : ∀ key ∈ keys, field key = (lines.filterMap (fieldValue keys key)).getLast?) (k : K) :
    (bodyLines labels field (lines.filter (isExtra keys))).filterMap (valueOf names k)
      = match keys.find? fun key => names.lookup key = some k with
        | some key => (shown (field key)).toList.map saying
        | none => lines.filterMap (valueOf names k) := by
  have hline : ∀ l ∈ labels, (written l.1 (field l.2)).filterMap (valueOf names k)
      = if names.lookup l.2 = some k then (shown (field l.2)).toList.map saying else [] := by
    intro l hl
    have hkey : l.2 ∈ keys := hkeys ▸ List.mem_map_of_mem hl
    rw [written_eq]
    cases hs : shown (field l.2) with
    | none => simp
    | some v =>
      have hv : field l.2 = some v := (Option.filter_eq_some_iff.1 hs).1
      rw [hfield l.2 hkey] at hv
      obtain ⟨raw, hraw, hval⟩ := List.mem_filterMap.1 (List.mem_of_getLast? hv)
      obtain ⟨k', hk'⟩ := Option.isSome_iff_exists.1 (hnames l.2 hkey)
      have hattr := attributeOf_label (hlabels l hl) hk' ((halike raw hraw).lineEnd hkey hk' hval)
      rw [Option.toList_some, List.map_singleton, List.map_singleton, hk']
      by_cases hkk : k' = k
      · subst hkk
        rw [if_pos rfl, List.filterMap_cons_some (valueOf_eq_some.2 hattr)]
        rfl
      · have hnone : valueOf names k (l.1 ++ trim v) = none := by
          unfold valueOf
          rw [hattr]
          exact if_neg hkk
        rw [if_neg (by simpa using hkk), List.filterMap_cons_none hnone]
        rfl
  unfold bodyLines
  rw [List.filterMap_append, List.filterMap_flatMap, filterMap_extras hnames halike]
  have hmap : (labels.flatMap fun l => (written l.1 (field l.2)).filterMap (valueOf names k))
      = labels.flatMap fun l => if names.lookup l.2 = some k then (shown (field l.2)).toList.map saying else [] :=
    List.flatMap_congr hline
  rw [hmap]
  cases hfind : keys.find? fun key => names.lookup key = some k with
  | none =>
    have hno : ∀ key ∈ keys, ¬ names.lookup key = some k := by
      intro key hkey
      simpa using List.find?_eq_none.1 hfind key hkey
    rw [if_neg]
    · rw [List.flatMap_eq_nil_iff.2, List.nil_append]
      intro l hl
      exact if_neg (hno l.2 (hkeys ▸ List.mem_map_of_mem hl))
    · intro hany
      obtain ⟨key, hkey, hk⟩ := List.any_eq_true.1 hany
      exact hno key hkey (of_decide_eq_true hk)
  | some key =>
    have hkey := List.mem_of_find?_eq_some hfind
    have hk : names.lookup key = some k := by simpa using List.find?_some hfind
    rw [if_pos (List.any_eq_true.2 ⟨key, hkey, decide_eq_true hk⟩), List.append_nil]
    have hsame : ∀ l ∈ labels, (if names.lookup l.2 = some k then (shown (field l.2)).toList.map saying else [])
        = if l.2 = key then (shown (field key)).toList.map saying else [] := by
      intro l hl
      by_cases he : l.2 = key
      · rw [he, if_pos hk, if_pos rfl]
      · rw [if_neg fun h => he (hf.eq_of_lookup h hk), if_neg he]
    rw [List.flatMap_congr hsame, flatMap_single (hkeys ▸ hnodup) (hkeys ▸ hkey)]

theorem saying_of_isBlank {v : String} (h : isBlank v = true) : saying v = "" := by
  have hnil : trimChars v.toList = [] := by
    rw [← List.append_nil v.toList]
    exact Text.strip_append_left (fun c hc => List.all_eq_true.1 h c hc) []
  rw [saying, hnil]
  rfl

variable {F : Type} {g : String → Option F}

/-- A field that is overwritten keeps its last value; a blank one must mean nothing. -/
theorem foldlM_shown_last {x y : F} (hblank : g "" = none ∨ g "" = some x) {ws : List String}
    (h : (ws.map saying).foldlM (fun _ v => g v) x = some y) :
    ((shown ws.getLast?).toList.map saying).foldlM (fun _ v => g v) x = some y := by
  obtain ⟨hsome, hlast⟩ := (Slots.foldlM_last g x y _).1 h
  rw [List.getLast?_map] at hlast
  cases hw : ws.getLast? with
  | none =>
    rw [hw] at hlast
    exact hlast
  | some w =>
    rw [hw, Option.map_some, Option.elim_some] at hlast
    cases hb : isBlank w with
    | false =>
      have hshown : shown (some w) = some w := by simp [shown, Option.filter, hb]
      rw [hshown, Option.toList_some, List.map_singleton, List.foldlM_cons, hlast]
      rfl
    | true =>
      have hshown : shown (some w) = none := by simp [shown, Option.filter, hb]
      rw [saying_of_isBlank hb] at hlast
      rw [hshown]
      rcases hblank with hg | hg
      · rw [hg] at hlast
        cases hlast
      · exact hg.symm.trans hlast

/-- A field that values are added to keeps all of them exactly where the last one has them all. -/
theorem foldlM_shown_join [SemilatticeSup F] [OrderBot F] {y : F} (hblank : g "" = none) {ws : List String}
    (h : (ws.map saying).foldlM (fun old v => (g v).map (old ⊔ ·)) ⊥ = some y) :
    ((shown ws.getLast?).toList.map saying).foldlM (fun old v => (g v).map (old ⊔ ·)) ⊥ = some y
      ↔ Slots.LastIsGreatest g (ws.map saying) := by
  rw [← Slots.foldlM_join_last h]
  have hsome := Slots.foldlM_join_isSome h
  rw [List.getLast?_map]
  cases hw : ws.getLast? with
  | none => exact Iff.rfl
  | some w =>
    have hne : isBlank w = false := by
      rw [Bool.eq_false_iff]
      intro hb
      have := hsome (saying w) (List.mem_map_of_mem (List.mem_of_getLast? hw))
      rw [saying_of_isBlank hb, hblank] at this
      cases this
    have hshown : shown (some w) = some w := by simp [shown, Option.filter, hne]
    rw [hshown]
    exact Iff.rfl

end Written

/-! ## 5. What stands in the fields -/

/-- The section that a header starts for the editor. -/
def sectionOf (raw : String) : Option Header :=
  if sectionName raw = "interface" then some .interface
  else if sectionName raw = "peer" then some .peer
  else none

/-- A line that the editor and `Config.parse` see the same way: whether it is a header, and of which
    section, and else the value that it has for each field. -/
structure SeenByEditor (raw : String) : Prop where
  header : isHeader raw = isHeaderLine raw
  name : isHeader raw = true → headerOf raw = sectionOf raw
  iface : Alike InterfaceKey.names ifaceKeys raw
  peer : Alike PeerKey.names peerKeys raw

instance : DecidablePred SeenByEditor := fun _ =>
  decidable_of_iff (_ ∧ _ ∧ _ ∧ _)
    ⟨fun ⟨h1, h2, h3, h4⟩ => ⟨h1, h2, h3, h4⟩, fun h => ⟨h.header, h.name, h.iface, h.peer⟩⟩

/-- Control characters in front of a comment hide nothing. -/
example : ∀ raw ∈ ["\x0c# office", "MTU = 1280\x01 # wired", "Address = 10.0.0.2\x0c# first"],
    SeenByEditor raw := by
  decide +kernel

namespace WgDoc

/-- A document with more lines of an interface. -/
def withIface (doc : WgDoc) (ls : List String) : WgDoc :=
  { doc with
    iface := fun key => (ls.filterMap (fieldValue ifaceKeys key)).getLast?.or (doc.iface key)
    ifaceExtras := doc.ifaceExtras ++ ls.filter (isExtra ifaceKeys) }

/-- A document with more lines of its peer. -/
def withPeer (doc : WgDoc) (ls : List String) : WgDoc :=
  { doc with
    peer := fun key => (ls.filterMap (fieldValue peerKeys key)).getLast?.or (doc.peer key)
    peerExtras := doc.peerExtras ++ ls.filter (isExtra peerKeys) }

/-- A document with more lines of no section. -/
def withTail (doc : WgDoc) (ls : List String) : WgDoc :=
  { doc with tailExtras := doc.tailExtras ++ ls.filter fun raw => !(trim raw).toList.isEmpty }

theorem withIface_append (doc : WgDoc) (a b : List String) :
    (doc.withIface a).withIface b = doc.withIface (a ++ b) := by
  unfold withIface
  simp only [List.filterMap_append, List.getLast?_append, List.filter_append, List.append_assoc,
    Option.or_assoc]

theorem withPeer_append (doc : WgDoc) (a b : List String) :
    (doc.withPeer a).withPeer b = doc.withPeer (a ++ b) := by
  unfold withPeer
  simp only [List.filterMap_append, List.getLast?_append, List.filter_append, List.append_assoc,
    Option.or_assoc]

theorem withTail_append (doc : WgDoc) (a b : List String) :
    (doc.withTail a).withTail b = doc.withTail (a ++ b) := by
  unfold withTail
  simp only [List.filter_append, List.append_assoc]

theorem withIface_nil (doc : WgDoc) : doc.withIface [] = doc := by
  simp [withIface]

theorem withPeer_nil (doc : WgDoc) : doc.withPeer [] = doc := by
  simp [withPeer]

theorem withTail_nil (doc : WgDoc) : doc.withTail [] = doc := by
  simp [withTail]

@[simp] theorem peerCount_withPeer (doc : WgDoc) (ls : List String) :
    (doc.withPeer ls).peerCount = doc.peerCount := by
  rw [withPeer]

theorem entryOf_of_isEmpty {raw : String} (h : (trim raw).toList.isEmpty = true) : entryOf raw = none := by
  unfold entryOf
  rw [List.isEmpty_iff.1 h]
  rfl

/-- A field after one more line. -/
theorem update_eq_or {keys : List String} {raw key value : String}
    (he : entryOf raw = some (key, value)) (hmem : key ∈ keys) (field : String → Option String) :
    Function.update field key (some value)
      = fun k => ([raw].filterMap (fieldValue keys k)).getLast?.or (field k) := by
  have hknown : known keys raw = some (key, value) := by simp [known, he, Option.filter, hmem]
  funext k
  by_cases hk : k = key
  · subst hk
    simp [fieldValue, hknown]
  · simp [fieldValue, hknown, Ne.symm hk, Function.update_of_ne hk]

theorem fieldValue_of_none {keys : List String} {raw : String} (h : known keys raw = none)
    (field : String → Option String) :
    (fun k => ([raw].filterMap (fieldValue keys k)).getLast?.or (field k)) = field := by
  funext k
  simp [fieldValue, h]

theorem next_iface {raw : String} (h : isHeaderLine raw = false) (doc : WgDoc) :
    next ("interface", doc) raw = ("interface", doc.withIface [raw]) := by
  unfold next withIface
  dsimp only
  rw [h, if_neg Bool.false_ne_true]
  cases hempty : (trim raw).toList.isEmpty with
  | true =>
    have hknown : known ifaceKeys raw = none := by simp [known, entryOf_of_isEmpty hempty, Option.filter]
    rw [if_pos rfl, fieldValue_of_none hknown]
    simp [isExtra, hempty]
  | false =>
    rw [if_neg Bool.false_ne_true]
    cases hentry : entryOf raw with
    | none =>
      have hknown : known ifaceKeys raw = none := by simp [known, hentry, Option.filter]
      rw [fieldValue_of_none hknown]
      simp [isExtra, hempty, hknown, addExtra]
    | some e =>
      obtain ⟨key, value⟩ := e
      dsimp only
      by_cases hmem : key ∈ ifaceKeys
      · have hknown : known ifaceKeys raw = some (key, value) := by simp [known, hentry, Option.filter, hmem]
        rw [if_pos ⟨rfl, hmem⟩, update_eq_or hentry hmem]
        simp [isExtra, hknown]
      · have hknown : known ifaceKeys raw = none := by simp [known, hentry, Option.filter, hmem]
        rw [if_neg fun h => hmem h.2, if_neg (by simp), fieldValue_of_none hknown]
        simp [isExtra, hempty, hknown, addExtra]

theorem next_peer {raw : String} (h : isHeaderLine raw = false) {doc : WgDoc} (hcount : doc.peerCount = 1) :
    next ("peer", doc) raw = ("peer", doc.withPeer [raw]) := by
  unfold next withPeer
  dsimp only
  rw [h, if_neg Bool.false_ne_true]
  cases hempty : (trim raw).toList.isEmpty with
  | true =>
    have hknown : known peerKeys raw = none := by simp [known, entryOf_of_isEmpty hempty, Option.filter]
    rw [if_pos rfl, fieldValue_of_none hknown]
    simp [isExtra, hempty]
  | false =>
    rw [if_neg Bool.false_ne_true]
    cases hentry : entryOf raw with
    | none =>
      have hknown : known peerKeys raw = none := by simp [known, hentry, Option.filter]
      rw [fieldValue_of_none hknown]
      simp [isExtra, hempty, hknown, addExtra]
    | some e =>
      obtain ⟨key, value⟩ := e
      dsimp only
      rw [if_neg (by simp)]
      by_cases hmem : key ∈ peerKeys
      · have hknown : known peerKeys raw = some (key, value) := by simp [known, hentry, Option.filter, hmem]
        rw [if_pos ⟨rfl, hcount, hmem⟩, update_eq_or hentry hmem]
        simp [isExtra, hknown]
      · have hknown : known peerKeys raw = none := by simp [known, hentry, Option.filter, hmem]
        rw [if_neg fun h => hmem h.2.2, fieldValue_of_none hknown]
        simp [isExtra, hempty, hknown, addExtra]

theorem next_tail {raw : String} (h : isHeaderLine raw = false) (doc : WgDoc) :
    next ("", doc) raw = ("", doc.withTail [raw]) := by
  unfold next withTail
  dsimp only
  rw [h, if_neg Bool.false_ne_true]
  cases hempty : (trim raw).toList.isEmpty with
  | true => simp [hempty]
  | false =>
    rw [if_neg Bool.false_ne_true]
    cases entryOf raw with
    | none => simp [hempty, addExtra]
    | some e => simp [hempty, addExtra]

theorem foldl_iface {ls : List String} (h : ∀ l ∈ ls, isHeaderLine l = false) (doc : WgDoc) :
    ls.foldl next ("interface", doc) = ("interface", doc.withIface ls) := by
  induction ls generalizing doc with
  | nil => rw [List.foldl_nil, withIface_nil]
  | cons l ls ih =>
    obtain ⟨hl, hls⟩ := List.forall_mem_cons.1 h
    rw [List.foldl_cons, next_iface hl, ih hls, withIface_append, List.singleton_append]

theorem foldl_peer {ls : List String} (h : ∀ l ∈ ls, isHeaderLine l = false) {doc : WgDoc}
    (hcount : doc.peerCount = 1) : ls.foldl next ("peer", doc) = ("peer", doc.withPeer ls) := by
  induction ls generalizing doc with
  | nil => rw [List.foldl_nil, withPeer_nil]
  | cons l ls ih =>
    obtain ⟨hl, hls⟩ := List.forall_mem_cons.1 h
    have hcount' : (doc.withPeer [l]).peerCount = 1 := by rw [peerCount_withPeer, hcount]
    rw [List.foldl_cons, next_peer hl hcount, ih hls hcount', withPeer_append, List.singleton_append]

theorem foldl_tail {ls : List String} (h : ∀ l ∈ ls, isHeaderLine l = false) (doc : WgDoc) :
    ls.foldl next ("", doc) = ("", doc.withTail ls) := by
  induction ls generalizing doc with
  | nil => rw [List.foldl_nil, withTail_nil]
  | cons l ls ih =>
    obtain ⟨hl, hls⟩ := List.forall_mem_cons.1 h
    rw [List.foldl_cons, next_tail hl, ih hls, withTail_append, List.singleton_append]

theorem sectionName_of_interface {raw : String} (h : sectionOf raw = some .interface) :
    sectionName raw = "interface" := by
  unfold sectionOf at h
  split at h
  · assumption
  · split at h <;> cases h

theorem sectionName_of_peer {raw : String} (h : sectionOf raw = some .peer) : sectionName raw = "peer" := by
  unfold sectionOf at h
  split at h
  · cases h
  · split at h
    · assumption
    · cases h

theorem next_header_iface {raw : String} (hh : isHeaderLine raw = true) (h : sectionOf raw = some .interface)
    (st : String × WgDoc) : next st raw = ("interface", st.2) := by
  unfold next
  dsimp only
  rw [if_pos hh, sectionName_of_interface h, if_neg (by decide), if_neg (by simp)]

theorem next_header_peer {raw : String} (hh : isHeaderLine raw = true) (h : sectionOf raw = some .peer)
    (st : String × WgDoc) :
    next st raw = ("peer", { st.2 with peerCount := st.2.peerCount + 1 }) := by
  unfold next
  dsimp only
  rw [if_pos hh, sectionName_of_peer h, if_pos rfl]

/-- A line with a field of the form. -/
theorem next_field_iface {raw key value : String} (hh : isHeaderLine raw = false)
    (he : entryOf raw = some (key, value)) (hk : key ∈ ifaceKeys) (doc : WgDoc) :
    next ("interface", doc) raw
      = ("interface", { doc with iface := Function.update doc.iface key (some value) }) := by
  have hempty : (trim raw).toList.isEmpty = false := by
    rw [Bool.eq_false_iff]
    intro hempty
    rw [entryOf_of_isEmpty hempty] at he
    cases he
  unfold next
  dsimp only
  rw [hh, if_neg Bool.false_ne_true, hempty, if_neg Bool.false_ne_true, he]
  dsimp only
  rw [if_pos ⟨rfl, hk⟩]

@[inherit_doc next_field_iface]
theorem next_field_peer {raw key value : String} (hh : isHeaderLine raw = false)
    (he : entryOf raw = some (key, value)) (hk : key ∈ peerKeys) {doc : WgDoc} (hcount : doc.peerCount = 1) :
    next ("peer", doc) raw
      = ("peer", { doc with peer := Function.update doc.peer key (some value) }) := by
  have hempty : (trim raw).toList.isEmpty = false := by
    rw [Bool.eq_false_iff]
    intro hempty
    rw [entryOf_of_isEmpty hempty] at he
    cases he
  unfold next
  dsimp only
  rw [hh, if_neg Bool.false_ne_true, hempty, if_neg Bool.false_ne_true, he]
  dsimp only
  rw [if_neg fun h => absurd h.1 (by decide), if_pos ⟨rfl, hcount, hk⟩]

/-- Only headers of peers are counted. -/
theorem peerCount_next {raw : String} (h : isHeaderLine raw = false) (st : String × WgDoc) :
    (next st raw).2.peerCount = st.2.peerCount := by
  have hextra : ∀ (doc : WgDoc) (name : String), (doc.addExtra name raw).peerCount = doc.peerCount := by
    intro doc name
    unfold addExtra
    split
    · rfl
    · split <;> rfl
  unfold next
  dsimp only
  rw [h, if_neg Bool.false_ne_true]
  split
  · rfl
  · split
    · split
      · rfl
      · split
        · rfl
        · exact hextra _ _
    · exact hextra _ _

theorem peerCount_foldl {ls : List String} (h : ∀ l ∈ ls, isHeaderLine l = false) (st : String × WgDoc) :
    (ls.foldl next st).2.peerCount = st.2.peerCount := by
  induction ls generalizing st with
  | nil => rfl
  | cons l ls ih =>
    obtain ⟨hl, hls⟩ := List.forall_mem_cons.1 h
    rw [List.foldl_cons, ih hls, peerCount_next hl]

/-- One section. -/
def readSection (st : String × WgDoc) (s : String × List String) : String × WgDoc :=
  s.2.foldl next (next st s.1)

/-- Sections whose headers the editor sees as `Config.parse` does. -/
structure Seen (secs : List (String × List String)) : Prop where
  header : ∀ s ∈ secs, isHeaderLine s.1 = true
  body : ∀ s ∈ secs, ∀ l ∈ s.2, isHeaderLine l = false
  name : ∀ s ∈ secs, headerOf s.1 = sectionOf s.1
  known : ∀ s ∈ secs, (headerOf s.1).isSome = true

theorem Seen.tail {s : String × List String} {secs : List (String × List String)} (h : Seen (s :: secs)) :
    Seen secs :=
  ⟨fun t ht => h.header t (List.mem_cons_of_mem s ht), fun t ht => h.body t (List.mem_cons_of_mem s ht),
    fun t ht => h.name t (List.mem_cons_of_mem s ht), fun t ht => h.known t (List.mem_cons_of_mem s ht)⟩

theorem peerCount_sections {secs : List (String × List String)} (h : Seen secs) (st : String × WgDoc) :
    (secs.foldl readSection st).2.peerCount = st.2.peerCount + (bodies .peer secs).length := by
  induction secs generalizing st with
  | nil => rfl
  | cons s secs ih =>
    have hh := h.header s List.mem_cons_self
    have hb := h.body s List.mem_cons_self
    have hname := h.name s List.mem_cons_self
    rw [List.foldl_cons, ih h.tail, readSection, peerCount_foldl hb]
    cases hk : headerOf s.1 with
    | none => exact absurd (h.known s List.mem_cons_self) (by simp [hk])
    | some k =>
      rw [hk] at hname
      cases k with
      | interface =>
        rw [next_header_iface hh hname.symm, bodies_cons_of_ne secs hk (by decide)]
      | peer =>
        rw [next_header_peer hh hname.symm, bodies_cons_self secs hk, List.length_cons]
        dsimp only
        omega

/-- **The fields of a document with one peer at most.** -/
theorem foldl_sections {secs : List (String × List String)} (h : Seen secs) (st : String × WgDoc)
    (hcount : st.2.peerCount + (bodies .peer secs).length ≤ 1) :
    (secs.foldl readSection st).2 = { (st.2.withIface (bodies .interface secs).flatten).withPeer
      (bodies .peer secs).flatten with peerCount := st.2.peerCount + (bodies .peer secs).length } := by
  induction secs generalizing st with
  | nil =>
    show st.2 = { (st.2.withIface []).withPeer [] with peerCount := st.2.peerCount + 0 }
    rw [withIface_nil, withPeer_nil]
    rfl
  | cons s secs ih =>
    have hh := h.header s List.mem_cons_self
    have hb := h.body s List.mem_cons_self
    have hname := h.name s List.mem_cons_self
    rw [List.foldl_cons]
    cases hk : headerOf s.1 with
    | none => exact absurd (h.known s List.mem_cons_self) (by simp [hk])
    | some k =>
      rw [hk] at hname
      cases k with
      | interface =>
        have hpeers : bodies .peer (s :: secs) = bodies .peer secs := bodies_cons_of_ne secs hk (by decide)
        have hstep : readSection st s = ("interface", st.2.withIface s.2) := by
          rw [readSection, next_header_iface hh hname.symm, foldl_iface hb]
        rw [hpeers] at hcount ⊢
        have hcount' : ("interface", st.2.withIface s.2).2.peerCount + (bodies .peer secs).length ≤ 1 := hcount
        rw [hstep, ih h.tail ("interface", st.2.withIface s.2) hcount', bodies_cons_self secs hk,
          List.flatten_cons, ← withIface_append]
        rfl
      | peer =>
        rw [bodies_cons_self secs hk, List.length_cons] at hcount ⊢
        have hone : st.2.peerCount + 1 = 1 := by omega
        obtain ⟨doc', hdoc'⟩ : ∃ d : WgDoc, d = { st.2 with peerCount := st.2.peerCount + 1 } := ⟨_, rfl⟩
        have hpeer : doc'.peerCount = 1 := by rw [hdoc']; exact hone
        have hstep : readSection st s = ("peer", doc'.withPeer s.2) := by
          rw [readSection, next_header_peer hh hname.symm, ← hdoc', foldl_peer hb hpeer]
        have hcount' : ("peer", doc'.withPeer s.2).2.peerCount + (bodies .peer secs).length ≤ 1 := by
          show doc'.peerCount + (bodies .peer secs).length ≤ 1
          omega
        have hifaces : bodies .interface (s :: secs) = bodies .interface secs :=
          bodies_cons_of_ne secs hk (by decide)
        rw [hstep, ih h.tail ("peer", doc'.withPeer s.2) hcount', hifaces, List.flatten_cons,
          ← withPeer_append, hdoc']
        have hsum : st.2.peerCount + ((bodies .peer secs).length + 1)
            = st.2.peerCount + 1 + (bodies .peer secs).length := by omega
        rw [hsum]
        rfl

end WgDoc

section Parse

variable {text : String}

theorem seen_document (hs : ∀ raw ∈ lineSequence text, SeenByEditor raw)
    (hknown : ∀ s ∈ (document text).sections, (headerOf s.1).isSome = true) :
    WgDoc.Seen (document text).sections where
  header := by
    intro s hmem
    rw [← (hs s.1 (mem_of_mem_document hmem (.inl rfl))).header]
    exact isHeader_of_mem_document hmem
  body := by
    intro s hmem l hl
    rw [← (hs l (mem_of_mem_document hmem (.inr hl))).header]
    exact (Sections.cut_headed isHeader (lineSequence text)).body s hmem l hl
  name := by
    intro s hmem
    exact (hs s.1 (mem_of_mem_document hmem (.inl rfl))).name (isHeader_of_mem_document hmem)
  known := hknown

theorem mem_of_mem_front {l : String} (hl : l ∈ (document text).front) : l ∈ lineSequence text := by
  rw [← Sections.lines_cut isHeader (lineSequence text)]
  exact List.mem_append_left _ hl

theorem parseWgDoc_sections (hs : ∀ raw ∈ lineSequence text, SeenByEditor raw) : parseWgDoc text
    = ((document text).sections.foldl WgDoc.readSection
        ("", ({} : WgDoc).withTail (document text).front)).2 := by
  have hfront : ∀ l ∈ (document text).front, isHeaderLine l = false := by
    intro l hl
    rw [← (hs l (mem_of_mem_front hl)).header]
    exact (Sections.cut_headed isHeader (lineSequence text)).front l hl
  have hlines : lineSequence text = (document text).lines := (Sections.lines_cut isHeader _).symm
  unfold parseWgDoc
  rw [hlines, Sections.foldl_lines, WgDoc.foldl_tail hfront]
  rfl

/-- **What stands in the fields**: of each key the last value. -/
theorem parseWgDoc_eq (hs : ∀ raw ∈ lineSequence text, SeenByEditor raw)
    (hknown : ∀ s ∈ (document text).sections, (headerOf s.1).isSome = true)
    (hcount : (parseWgDoc text).peerCount ≤ 1) :
    parseWgDoc text = { ((({} : WgDoc).withTail (document text).front).withIface
      (bodies .interface (document text).sections).flatten).withPeer
        (bodies .peer (document text).sections).flatten with
      peerCount := (bodies .peer (document text).sections).length } := by
  have hseen := seen_document hs hknown
  rw [parseWgDoc_sections hs, WgDoc.peerCount_sections hseen] at hcount
  have hzero : (({} : WgDoc).withTail (document text).front).peerCount = 0 := rfl
  rw [parseWgDoc_sections hs, WgDoc.foldl_sections hseen _ hcount]
  dsimp only
  rw [hzero, Nat.zero_add]

end Parse

/-! ## 6. What is saved -/

section Saved

variable {K : Type} {names : List (String × K)} {keys : List String}

/-- A line with an attribute starts no section. -/
theorem isHeader_of_attribute (hn : ∀ n ∈ names, readable n.1 = true) {raw : String}
    (h : (attributeOf names (content raw)).isSome = true) : isHeader raw = false := by
  obtain ⟨⟨k, v⟩, ha⟩ := Option.isSome_iff_exists.1 h
  obtain ⟨left, right, hline, -, hk, -⟩ := attributeOf_eq_some ha
  obtain ⟨l₁, l₂, hmem, -⟩ := List.lookup_eq_some_iff.1 hk
  have hread := hn _ (hmem ▸ List.mem_append_right _ List.mem_cons_self)
  unfold readable at hread
  rw [Bool.and_eq_true, String.toList_ofList] at hread
  unfold isHeader
  rw [hline, decide_eq_false_iff_not]
  intro hhead
  cases left with
  | nil => cases hhead
  | cons c cs =>
    cases hhead
    have hpre := List.rdropWhile_prefix isRegexSpace ('[' :: cs)
    cases hdrop : ('[' :: cs).rdropWhile isRegexSpace with
    | nil =>
      rw [hdrop] at hread
      exact absurd hread.1 (by decide)
    | cons d ds =>
      rw [hdrop] at hpre hread
      obtain ⟨rest, hrest⟩ := hpre
      have hd : d = '[' := (List.cons.inj hrest).1
      rw [hd] at hread
      exact absurd hread.1 (by simp [Text.lowercase])

theorem mem_of_fieldValue {key v raw : String} (h : fieldValue keys key raw = some v) :
    ∀ c ∈ v.toList, c ∈ raw.toList := by
  intro c hc
  unfold fieldValue known at h
  obtain ⟨⟨name, w⟩, hknown, h⟩ := Option.bind_eq_some_iff.1 h
  dsimp only at h
  split at h
  · cases h
    have hentry := (Option.filter_eq_some_iff.1 hknown).1
    unfold entryOf at hentry
    obtain ⟨⟨l, r⟩, hcut, he⟩ := Option.map_eq_some_iff.1 hentry
    cases he
    rw [String.toList_ofList] at hc
    have hr : c ∈ (trim raw).toList := by
      rw [Text.cutFirst_eq_some hcut]
      exact List.mem_append_right _ (List.mem_cons_of_mem _ (Text.mem_of_mem_strip hc))
    rw [trim, String.toList_ofList] at hr
    exact Text.mem_of_mem_strip hr
  · cases h

/-- The lines of a written section: those of its fields, and those that were carried along. -/
theorem mem_bodyLines {labels : List (String × String)} {field : String → Option String}
    {extras : List String} {l : String} (h : l ∈ bodyLines labels field extras) :
    (∃ label ∈ labels, ∃ v, field label.2 = some v ∧ l = label.1 ++ trim v) ∨ l ∈ extras := by
  rcases List.mem_append.1 h with h | h
  · obtain ⟨label, hlabel, hl⟩ := List.mem_flatMap.1 h
    rw [written_eq] at hl
    obtain ⟨v, hv, rfl⟩ := List.mem_map.1 hl
    have hshown : shown (field label.2) = some v := by simpa using hv
    exact .inl ⟨label, hlabel, v, (Option.filter_eq_some_iff.1 hshown).1, rfl⟩
  · exact .inr h

/-- The labels of a form, one for each of its keys. -/
structure Labels (names : List (String × K)) (keys : List String) (labels : List (String × String)) :
    Prop extends Form names keys where
  isLabel : ∀ l ∈ labels, IsLabel l
  keys_eq : labels.map (·.2) = keys
  nodup : keys.Nodup
  known : ∀ key ∈ keys, (names.lookup key).isSome = true
  single : ∀ l ∈ labels, ∀ c ∈ l.1.toList, c ≠ '\n' ∧ c ≠ '\r'

/-- Lines of a text that stand in a section of the form. -/
structure Rewritten [DecidableEq K] (names : List (String × K)) (keys : List String) (labels : List (String × String))
    (lines : List String) : Prop extends Labels names keys labels where
  reads : ∀ raw ∈ lines, Reads names raw
  alike : ∀ raw ∈ lines, Alike names keys raw
  line : ∀ raw ∈ lines, ∀ c ∈ raw.toList, c ≠ '\n' ∧ c ≠ '\r'

namespace Rewritten

variable [DecidableEq K] {labels : List (String × String)} {lines : List String}
  (hw : Rewritten names keys labels lines)
  {field : String → Option String}
  (hfield : ∀ key ∈ keys, field key = (lines.filterMap (fieldValue keys key)).getLast?)

include hw hfield

/-- A line of a field is that of some line of the text. -/
theorem exists_line {label : String × String} (hlabel : label ∈ labels) {v : String}
    (hv : field label.2 = some v) : ∃ raw ∈ lines, fieldValue keys label.2 raw = some v := by
  rw [hfield label.2 (hw.keys_eq ▸ List.mem_map_of_mem hlabel)] at hv
  exact List.mem_filterMap.1 (List.mem_of_getLast? hv)

theorem reads_bodyLines {l : String} (h : l ∈ bodyLines labels field (lines.filter (isExtra keys))) :
    Reads names l := by
  rcases mem_bodyLines h with ⟨label, hlabel, v, hv, rfl⟩ | h
  · obtain ⟨raw, hraw, hval⟩ := hw.exists_line hfield hlabel hv
    have hkey : label.2 ∈ keys := hw.keys_eq ▸ List.mem_map_of_mem hlabel
    obtain ⟨k, hk⟩ := Option.isSome_iff_exists.1 (hw.known label.2 hkey)
    have hend := (hw.alike raw hraw).lineEnd hkey hk hval
    exact .inr (by rw [attributeOf_label (hw.isLabel label hlabel) hk hend]; rfl)
  · exact hw.reads l (List.mem_of_mem_filter h)

theorem body_bodyLines {l : String} (h : l ∈ bodyLines labels field (lines.filter (isExtra keys))) :
    isHeader l = false := by
  rcases hw.reads_bodyLines hfield h with hnil | hsome
  · simp [isHeader, hnil]
  · exact isHeader_of_attribute hw.readable hsome

theorem single_bodyLines {l : String} (h : l ∈ bodyLines labels field (lines.filter (isExtra keys))) :
    ∀ c ∈ l.toList, c ≠ '\n' ∧ c ≠ '\r' := by
  rcases mem_bodyLines h with ⟨label, hlabel, v, hv, rfl⟩ | h
  · obtain ⟨raw, hraw, hval⟩ := hw.exists_line hfield hlabel hv
    intro c hc
    rw [String.toList_append, List.mem_append] at hc
    rcases hc with hc | hc
    · exact hw.single label hlabel c hc
    · rw [trim, String.toList_ofList] at hc
      exact hw.line raw hraw c (mem_of_fieldValue hval c (Text.mem_of_mem_strip hc))
  · exact hw.line l (List.mem_of_mem_filter h)

/-- An attribute without a field has the values that it had. -/
theorem column_of_none {k : K} (hk : keys.find? (fun key => names.lookup key = some k) = none) :
    (bodyLines labels field (lines.filter (isExtra keys))).filterMap (valueOf names k)
      = lines.filterMap (valueOf names k) := by
  rw [filterMap_bodyLines hw.toForm hw.isLabel hw.keys_eq hw.nodup hw.known hw.alike hfield, hk]

/-- An attribute with a field has the last of its values, unless that is blank. -/
theorem column_of_some {k : K} {key : String}
    (hk : keys.find? (fun key => names.lookup key = some k) = some key) :
    ∃ ws : List String, lines.filterMap (valueOf names k) = ws.map saying ∧
      (bodyLines labels field (lines.filter (isExtra keys))).filterMap (valueOf names k)
        = (shown ws.getLast?).toList.map saying := by
  have hmem := List.mem_of_find?_eq_some hk
  have hlookup : names.lookup key = some k := by simpa using List.find?_some hk
  refine ⟨lines.filterMap (fieldValue keys key), ?_, ?_⟩
  · rw [List.map_filterMap]
    exact List.filterMap_congr fun raw hraw =>
      hw.alike raw hraw key hmem k hlookup
  · rw [filterMap_bodyLines hw.toForm hw.isLabel hw.keys_eq hw.nodup hw.known hw.alike hfield, hk]
    dsimp only
    rw [hfield key hmem]

end Rewritten

end Saved

theorem labels_iface : Labels InterfaceKey.names ifaceKeys ifaceLabels where
  toForm := form_iface
  isLabel := isLabel_ifaceLabels
  keys_eq := rfl
  nodup := by decide
  known := by decide
  single := by decide

theorem labels_peer : Labels PeerKey.names peerKeys peerLabels where
  toForm := form_peer
  isLabel := isLabel_peerLabels
  keys_eq := rfl
  nodup := by decide
  known := by decide
  single := by decide

section Sections

variable {numeric : String → Option InetAddress} {lines : List String}

theorem parseNetworks_empty : parseNetworks numeric "" = none := by
  have hsplit : Attribute.split "" = [""] := rfl
  have hnetwork : InetNetwork.parse numeric "" = none := rfl
  unfold parseNetworks
  rw [hsplit, List.mapM_cons, hnetwork]
  rfl

theorem parseDnsServers_empty : parseDnsServers numeric "" = none := by
  have hsplit : Attribute.split "" = [""] := rfl
  have hserver : addDns numeric ⊥ "" = none := rfl
  unfold parseDnsServers
  rw [hsplit, List.foldlM_cons, hserver]
  rfl

theorem find?_ifaceKeys {k : InterfaceKey} (h1 : k ≠ .address) (h2 : k ≠ .dns) (h3 : k ≠ .mtu)
    (h4 : k ≠ .privateKey) : ifaceKeys.find? (fun key => InterfaceKey.names.lookup key = some k) = none := by
  cases k <;> first | contradiction | decide +kernel

/-- **The interface that is saved** is the one that was read where the last addresses and the last name
    servers are all of them. -/
theorem interface_saved (hw : Rewritten InterfaceKey.names ifaceKeys ifaceLabels lines)
    {field : String → Option String}
    (hfield : ∀ key ∈ ifaceKeys, field key = (lines.filterMap (fieldValue ifaceKeys key)).getLast?)
    {i : Interface} (h : Interface.parse numeric (contents lines) = some i) :
    Interface.parse numeric (contents (bodyLines ifaceLabels field (lines.filter (isExtra ifaceKeys)))) = some i
      ↔ Slots.LastIsGreatest (parseNetworks numeric) (lines.filterMap (valueOf InterfaceKey.names .address)) ∧
        Slots.LastIsGreatest (parseDnsServers numeric) (lines.filterMap (valueOf InterfaceKey.names .dns)) := by
  obtain ⟨-, hkeys, hcomplete⟩ := Interface.parse_iff.1 h
  have hreads : ∀ raw ∈ bodyLines ifaceLabels field (lines.filter (isExtra ifaceKeys)),
      Reads InterfaceKey.names raw := fun raw hraw => hw.reads_bodyLines hfield hraw
  have haddress : ((bodyLines ifaceLabels field (lines.filter (isExtra ifaceKeys))).filterMap
      (valueOf InterfaceKey.names .address)).foldlM (InterfaceKey.write numeric .address)
        (InterfaceKey.initial .address) = some (i .address) ↔
      Slots.LastIsGreatest (parseNetworks numeric) (lines.filterMap (valueOf InterfaceKey.names .address)) := by
    obtain ⟨ws, hws, hsaved⟩ := hw.column_of_some hfield
      (show ifaceKeys.find? (fun key => InterfaceKey.names.lookup key = some .address) = some "address" by
        decide +kernel)
    have hold := hkeys .address
    rw [hws] at hold ⊢
    rw [hsaved]
    exact foldlM_shown_join parseNetworks_empty hold
  have hdns : ((bodyLines ifaceLabels field (lines.filter (isExtra ifaceKeys))).filterMap
      (valueOf InterfaceKey.names .dns)).foldlM (InterfaceKey.write numeric .dns)
        (InterfaceKey.initial .dns) = some (i .dns) ↔
      Slots.LastIsGreatest (parseDnsServers numeric) (lines.filterMap (valueOf InterfaceKey.names .dns)) := by
    obtain ⟨ws, hws, hsaved⟩ := hw.column_of_some hfield
      (show ifaceKeys.find? (fun key => InterfaceKey.names.lookup key = some .dns) = some "dns" by
        decide +kernel)
    have hwrite : InterfaceKey.write numeric .dns = fun old v => (parseDnsServers numeric v).map (old ⊔ ·) := by
      funext old v
      exact foldlM_addDns numeric old v
    have hold := hkeys .dns
    rw [hws, hwrite] at hold
    rw [hws, hsaved, hwrite]
    exact foldlM_shown_join parseDnsServers_empty hold
  have hmtu : ((bodyLines ifaceLabels field (lines.filter (isExtra ifaceKeys))).filterMap
      (valueOf InterfaceKey.names .mtu)).foldlM (InterfaceKey.write numeric .mtu)
        (InterfaceKey.initial .mtu) = some (i .mtu) := by
    obtain ⟨ws, hws, hsaved⟩ := hw.column_of_some hfield
      (show ifaceKeys.find? (fun key => InterfaceKey.names.lookup key = some .mtu) = some "mtu" by
        decide +kernel)
    have hold := hkeys .mtu
    rw [hws] at hold
    rw [hsaved]
    exact foldlM_shown_last (g := optionalNumber) (.inl (by decide +kernel)) hold
  have hprivateKey : ((bodyLines ifaceLabels field (lines.filter (isExtra ifaceKeys))).filterMap
      (valueOf InterfaceKey.names .privateKey)).foldlM (InterfaceKey.write numeric .privateKey)
        (InterfaceKey.initial .privateKey) = some (i .privateKey) := by
    obtain ⟨ws, hws, hsaved⟩ := hw.column_of_some hfield
      (show ifaceKeys.find? (fun key => InterfaceKey.names.lookup key = some .privateKey) = some "privatekey" by
        decide +kernel)
    have hold := hkeys .privateKey
    rw [hws] at hold
    rw [hsaved]
    exact foldlM_shown_last (g := fun v => (Key.fromBase64 v).map some) (.inl (by decide +kernel)) hold
  rw [Interface.parse_iff, ← haddress, ← hdns]
  constructor
  · rintro ⟨-, hall, -⟩
    exact ⟨hall .address, hall .dns⟩
  · rintro ⟨hall, hall'⟩
    refine ⟨hreads, fun k => ?_, hcomplete⟩
    by_cases h1 : k = .address
    · exact h1 ▸ hall
    by_cases h2 : k = .dns
    · exact h2 ▸ hall'
    by_cases h3 : k = .mtu
    · exact h3 ▸ hmtu
    by_cases h4 : k = .privateKey
    · exact h4 ▸ hprivateKey
    rw [hw.column_of_none hfield (find?_ifaceKeys h1 h2 h3 h4)]
    exact hkeys k

/-- **The peer that is saved** is the one that was read where the last networks are all of them. -/
theorem peer_saved (hw : Rewritten PeerKey.names peerKeys peerLabels lines) {field : String → Option String}
    (hfield : ∀ key ∈ peerKeys, field key = (lines.filterMap (fieldValue peerKeys key)).getLast?)
    {p : Peer} (h : Peer.parse numeric (contents lines) = some p) :
    Peer.parse numeric (contents (bodyLines peerLabels field (lines.filter (isExtra peerKeys)))) = some p
      ↔ Slots.LastIsGreatest (parseNetworks numeric) (lines.filterMap (valueOf PeerKey.names .allowedIPs)) := by
  obtain ⟨-, hkeys, hcomplete⟩ := Peer.parse_iff.1 h
  have hnetworks : ((bodyLines peerLabels field (lines.filter (isExtra peerKeys))).filterMap
      (valueOf PeerKey.names .allowedIPs)).foldlM (PeerKey.write numeric .allowedIPs)
        (PeerKey.initial .allowedIPs) = some (p .allowedIPs) ↔
      Slots.LastIsGreatest (parseNetworks numeric) (lines.filterMap (valueOf PeerKey.names .allowedIPs)) := by
    obtain ⟨ws, hws, hsaved⟩ := hw.column_of_some hfield
      (show peerKeys.find? (fun key => PeerKey.names.lookup key = some .allowedIPs) = some "allowedips" by
        decide +kernel)
    have hold := hkeys .allowedIPs
    rw [hws] at hold ⊢
    rw [hsaved]
    exact foldlM_shown_join parseNetworks_empty hold
  have hset : ∀ k : PeerKey, k ≠ .allowedIPs →
      ((bodyLines peerLabels field (lines.filter (isExtra peerKeys))).filterMap
        (valueOf PeerKey.names k)).foldlM (PeerKey.write numeric k) (PeerKey.initial k) = some (p k) := by
    intro k hk
    have hfind : ∃ key, peerKeys.find? (fun key => PeerKey.names.lookup key = some k) = some key := by
      cases k
      · contradiction
      · exact ⟨"endpoint", by decide +kernel⟩
      · exact ⟨"persistentkeepalive", by decide +kernel⟩
      · exact ⟨"presharedkey", by decide +kernel⟩
      · exact ⟨"publickey", by decide +kernel⟩
    obtain ⟨key, hkey⟩ := hfind
    obtain ⟨ws, hws, hsaved⟩ := hw.column_of_some hfield hkey
    have hold := hkeys k
    rw [hws] at hold
    rw [hsaved]
    cases k with
    | allowedIPs => contradiction
    | endpoint =>
      exact foldlM_shown_last (g := fun v => (InetEndpoint.parse v).map some) (.inl (by decide +kernel)) hold
    | persistentKeepalive =>
      exact foldlM_shown_last (g := fun v => some (setPersistentKeepalive v)) (.inr (by decide +kernel)) hold
    | preSharedKey =>
      exact foldlM_shown_last (g := fun v => (Key.fromBase64 v).map some) (.inl (by decide +kernel)) hold
    | publicKey =>
      exact foldlM_shown_last (g := fun v => (Key.fromBase64 v).map some) (.inl (by decide +kernel)) hold
  rw [Peer.parse_iff, ← hnetworks]
  constructor
  · rintro ⟨-, hall, -⟩
    exact hall .allowedIPs
  · intro hall
    refine ⟨fun raw hraw => hw.reads_bodyLines hfield hraw, fun k => ?_, hcomplete⟩
    by_cases hk : k = .allowedIPs
    · exact hk ▸ hall
    · exact hset k hk

end Sections

namespace WgDoc

variable {doc : WgDoc}

/-- What follows the fields of the peer. -/
def rest (doc : WgDoc) : List String := if doc.tailExtras.isEmpty then [] else "" :: doc.tailExtras

theorem written_of_not_isBlank {label : String} {value : Option String} (h : isBlank (value.getD "") = false) :
    written label value = [label ++ trim (value.getD "")] := by
  rw [written, if_neg (by rw [h]; decide)]

/-- The lines of a document that may be saved. -/
theorem lines_eq {name : String} (h : doc.saveEnabled name = true) :
    doc.lines = "[Interface]" :: bodyLines ifaceLabels doc.iface doc.ifaceExtras ++
      "" :: "[Peer]" :: (bodyLines peerLabels doc.peer doc.peerExtras ++ doc.rest) := by
  unfold saveEnabled ifaceField peerField at h
  simp only [Bool.and_eq_true, Bool.not_eq_eq_eq_not, Bool.not_true] at h
  obtain ⟨⟨⟨⟨⟨-, hprivate⟩, haddress⟩, hpublic⟩, hendpoint⟩, hnetworks⟩ := h
  unfold lines bodyLines ifaceLabels peerLabels rest ifaceField peerField
  simp only [List.flatMap_cons, List.flatMap_nil, List.append_nil, List.append_assoc, List.cons_append,
    List.nil_append, written_of_not_isBlank hprivate, written_of_not_isBlank haddress,
    written_of_not_isBlank hpublic, written_of_not_isBlank hendpoint, written_of_not_isBlank hnetworks]
  rfl

/-- Every line has an end, so there is one more line behind the last end. -/
theorem assemble_eq : doc.assemble = XrayShareLink.plain (doc.lines ++ [""]) := by
  unfold assemble
  generalize doc.lines = ls
  induction ls with
  | nil => rw [List.nil_append, XrayShareLink.plain_singleton]; rfl
  | cons l ls ih =>
    obtain ⟨l', ls', hls⟩ := List.exists_cons_of_ne_nil (List.append_ne_nil_of_right_ne_nil ls (by simp : [""] ≠ []))
    rw [List.cons_append, hls, XrayShareLink.plain_cons_cons, ← hls, ← ih, String.toList_ofList,
      List.flatMap_cons, List.append_assoc, List.singleton_append]

end WgDoc

theorem contents_eq_nil {ls : List String} : contents ls = [] ↔ ∀ l ∈ ls, content l = [] := by
  unfold contents
  rw [List.filter_eq_nil_iff]
  simp

theorem content_empty : content "" = [] := by decide

/-- What is written, by its sections. -/
def savedDocument (doc : WgDoc) : Sections.Document String where
  front := []
  sections := [("[Interface]", bodyLines ifaceLabels doc.iface doc.ifaceExtras ++ [""]),
    ("[Peer]", bodyLines peerLabels doc.peer doc.peerExtras ++ (doc.rest ++ [""]))]

theorem headerOf_interface_written : headerOf "[Interface]" = some .interface := rfl

theorem headerOf_peer_written : headerOf "[Peer]" = some .peer := rfl

theorem isHeader_interface_written : isHeader "[Interface]" = true := rfl

theorem isHeader_peer_written : isHeader "[Peer]" = true := rfl

theorem bodies_written (i p : List String) :
    bodies .interface [("[Interface]", i), ("[Peer]", p)] = [i] ∧
      bodies .peer [("[Interface]", i), ("[Peer]", p)] = [p] := by
  unfold bodies
  simp [headerOf_interface_written, headerOf_peer_written]

section Document

variable {doc : WgDoc}

theorem savedDocument_lines {name : String} (h : doc.saveEnabled name = true) :
    (savedDocument doc).lines = doc.lines ++ [""] := by
  rw [WgDoc.lines_eq h]
  simp [savedDocument, Sections.Document.lines]

/-- **The text that is stored, by its sections.** -/
theorem document_assemble {name : String} (h : doc.saveEnabled name = true)
    (hiface : ∀ l ∈ bodyLines ifaceLabels doc.iface doc.ifaceExtras,
      isHeader l = false ∧ ∀ c ∈ l.toList, c ≠ '\n' ∧ c ≠ '\r')
    (hpeer : ∀ l ∈ bodyLines peerLabels doc.peer doc.peerExtras,
      isHeader l = false ∧ ∀ c ∈ l.toList, c ≠ '\n' ∧ c ≠ '\r')
    (hrest : ∀ l ∈ doc.rest, isHeader l = false ∧ ∀ c ∈ l.toList, c ≠ '\n' ∧ c ≠ '\r') :
    document doc.assemble = savedDocument doc := by
  have hempty : isHeader "" = false ∧ ∀ c ∈ "".toList, c ≠ '\n' ∧ c ≠ '\r' := by
    rw [isHeader, content_empty]
    exact ⟨rfl, by simp⟩
  have hheaded : (savedDocument doc).Headed isHeader := by
    refine ⟨by simp [savedDocument], ?_, ?_⟩
    · intro s hs
      simp only [savedDocument, List.mem_cons, List.not_mem_nil, or_false] at hs
      rcases hs with rfl | rfl
      · exact isHeader_interface_written
      · exact isHeader_peer_written
    · intro s hs l hl
      simp only [savedDocument, List.mem_cons, List.not_mem_nil, or_false] at hs
      rcases hs with rfl | rfl
      · rcases List.mem_append.1 hl with hl | hl
        · exact (hiface l hl).1
        · rw [List.mem_singleton.1 hl]
          exact hempty.1
      · rcases List.mem_append.1 hl with hl | hl
        · exact (hpeer l hl).1
        · rcases List.mem_append.1 hl with hl | hl
          · exact (hrest l hl).1
          · rw [List.mem_singleton.1 hl]
            exact hempty.1
  have hsingle : ∀ l ∈ doc.lines ++ [""], ∀ c ∈ l.toList, c ≠ '\n' ∧ c ≠ '\r' := by
    have hinterface : ∀ c ∈ "[Interface]".toList, c ≠ '\n' ∧ c ≠ '\r' := by decide
    have hheader : ∀ c ∈ "[Peer]".toList, c ≠ '\n' ∧ c ≠ '\r' := by decide
    intro l hl
    rw [WgDoc.lines_eq h] at hl
    simp only [List.mem_append, List.mem_cons, List.not_mem_nil, or_false] at hl
    rcases hl with ((rfl | hl) | rfl | rfl | hl | hl) | rfl
    · exact hinterface
    · exact (hiface l hl).2
    · exact hempty.2
    · exact hheader
    · exact (hpeer l hl).2
    · exact (hrest l hl).2
    · exact hempty.2
  unfold document
  rw [WgDoc.assemble_eq, XrayShareLink.lineSequence_plain (by simp) hsingle, ← savedDocument_lines h]
  exact Sections.cut_lines hheaded

/-- What `Config.parse` reads from it. -/
theorem parses_savedDocument {numeric : String → Option InetAddress} {c : Config} {p : Peer}
    (hpeers : c.peers = [p]) (hrest : contents doc.rest = []) :
    Parses numeric (savedDocument doc) c ↔
      Interface.parse numeric (contents (bodyLines ifaceLabels doc.iface doc.ifaceExtras)) = some c.interface ∧
        Peer.parse numeric (contents (bodyLines peerLabels doc.peer doc.peerExtras)) = some p := by
  have hempty : contents [""] = [] := contents_eq_nil.2 (by simp [content_empty])
  obtain ⟨hI, hP⟩ := bodies_written (bodyLines ifaceLabels doc.iface doc.ifaceExtras ++ [""])
    (bodyLines peerLabels doc.peer doc.peerExtras ++ (doc.rest ++ [""]))
  have hsections : (savedDocument doc).sections
      = [("[Interface]", bodyLines ifaceLabels doc.iface doc.ifaceExtras ++ [""]),
        ("[Peer]", bodyLines peerLabels doc.peer doc.peerExtras ++ (doc.rest ++ [""]))] := rfl
  rw [← hsections] at hI hP
  have hmapM : ∀ b : List String, [b].mapM (fun b => Peer.parse numeric (contents b)) = some c.peers ↔
      Peer.parse numeric (contents b) = some p := by
    intro b
    rw [hpeers, List.mapM_cons]
    cases Peer.parse numeric (contents b) <;> simp
  have hinterface : contents (bodies .interface (savedDocument doc).sections).flatten
      = contents (bodyLines ifaceLabels doc.iface doc.ifaceExtras) := by
    rw [hI, List.flatten_singleton, contents_append, hempty, List.append_nil]
  have hpeer : contents (bodyLines peerLabels doc.peer doc.peerExtras ++ (doc.rest ++ [""]))
      = contents (bodyLines peerLabels doc.peer doc.peerExtras) := by
    rw [contents_append, contents_append, hrest, hempty, List.append_nil, List.append_nil]
  rw [← hinterface, ← hpeer, ← hmapM, ← hP]
  constructor
  · intro h
    exact ⟨h.interface, h.peers⟩
  · rintro ⟨hi, hp⟩
    refine ⟨rfl, ?_, ?_, hi, hp⟩
    · intro s hs
      simp only [savedDocument, List.mem_cons, List.not_mem_nil, or_false] at hs
      rcases hs with rfl | rfl
      · rw [headerOf_interface_written]
        rfl
      · rw [headerOf_peer_written]
        rfl
    · rw [hI]
      simp

end Document

/-! ## 7. A text that is opened and saved -/

/-- The last Address line and the last DNS line name all that earlier ones name, and so does the last
    AllowedIPs line. -/
structure LastLinesNameAll (numeric : String → Option InetAddress) (text : String) : Prop where
  address : Slots.LastIsGreatest (parseNetworks numeric)
    ((bodies .interface (document text).sections).flatten.filterMap (valueOf InterfaceKey.names .address))
  dns : Slots.LastIsGreatest (parseDnsServers numeric)
    ((bodies .interface (document text).sections).flatten.filterMap (valueOf InterfaceKey.names .dns))
  allowedIPs : Slots.LastIsGreatest (parseNetworks numeric)
    ((bodies .peer (document text).sections).flatten.filterMap (valueOf PeerKey.names .allowedIPs))

section Opened

variable {numeric : String → Option InetAddress} {text : String} {c : Config}

/-- The document that the editor has open. -/
structure Open (text : String) : Prop where
  iface : ∀ key, (parseWgDoc text).iface key
    = ((bodies .interface (document text).sections).flatten.filterMap (fieldValue ifaceKeys key)).getLast?
  peer : ∀ key, (parseWgDoc text).peer key
    = ((bodies .peer (document text).sections).flatten.filterMap (fieldValue peerKeys key)).getLast?
  ifaceExtras : (parseWgDoc text).ifaceExtras
    = (bodies .interface (document text).sections).flatten.filter (isExtra ifaceKeys)
  peerExtras : (parseWgDoc text).peerExtras
    = (bodies .peer (document text).sections).flatten.filter (isExtra peerKeys)
  tailExtras : ∀ l ∈ (parseWgDoc text).tailExtras, l ∈ (document text).front
  peerCount : (bodies .peer (document text).sections).length ≤ 1

theorem open_of_singlePeer (hs : ∀ raw ∈ lineSequence text, SeenByEditor raw)
    (hknown : ∀ s ∈ (document text).sections, (headerOf s.1).isSome = true)
    (hsingle : (parseWgDoc text).singlePeer = true) : Open text := by
  unfold WgDoc.singlePeer at hsingle
  rw [Bool.and_eq_true, decide_eq_true_eq] at hsingle
  have hcount := hsingle.1
  have heq := parseWgDoc_eq hs hknown hcount
  have hlen : (parseWgDoc text).peerCount = (bodies .peer (document text).sections).length := by rw [heq]
  refine ⟨fun key => ?_, fun key => ?_, ?_, ?_, ?_, hlen ▸ hcount⟩
  · rw [heq]
    dsimp only [WgDoc.withPeer, WgDoc.withIface, WgDoc.withTail]
    exact Option.or_none
  · rw [heq]
    dsimp only [WgDoc.withPeer, WgDoc.withIface, WgDoc.withTail]
    exact Option.or_none
  · rw [heq]
    exact List.nil_append _
  · rw [heq]
    exact List.nil_append _
  · intro l hl
    have htail : (parseWgDoc text).tailExtras
        = [] ++ (document text).front.filter fun raw => !(trim raw).toList.isEmpty := by rw [heq]; rfl
    rw [htail, List.nil_append] at hl
    exact List.mem_of_mem_filter hl

theorem mem_lineSequence_of_bodies {k : Header} {raw : String}
    (h : raw ∈ (bodies k (document text).sections).flatten) : raw ∈ lineSequence text := by
  obtain ⟨b, hb, hraw⟩ := List.mem_flatten.1 h
  obtain ⟨s, hmem, -, rfl⟩ := mem_of_mem_bodies hb
  exact mem_of_mem_document hmem (.inr hraw)

/-- **The editor keeps a profile exactly where the last lines name all**, for a text that it sees as
    `Config.parse` does. -/
theorem save_lossless_iff (hc : Config.parse numeric text = some c)
    (hs : ∀ raw ∈ lineSequence text, SeenByEditor raw) (hsingle : (parseWgDoc text).singlePeer = true)
    {name : String} (hsave : (parseWgDoc text).saveEnabled name = true) :
    Config.parse numeric (parseWgDoc text).assemble = some c ↔ LastLinesNameAll numeric text := by
  have hread := Awg.parse_iff.1 hc
  have hopen := open_of_singlePeer hs hread.headers hsingle
  have hbodies : ∀ k, ∀ raw ∈ (bodies k (document text).sections).flatten,
      SeenByEditor raw ∧ ∀ c ∈ raw.toList, c ≠ '\n' ∧ c ≠ '\r' := fun k raw hraw =>
    ⟨hs raw (mem_lineSequence_of_bodies hraw), single_of_mem_lineSequence (mem_lineSequence_of_bodies hraw)⟩
  -- the public key that Save asks for stands in the only section of a peer
  obtain ⟨b, hb⟩ : ∃ b, bodies .peer (document text).sections = [b] := by
    have hpublic : (parseWgDoc text).peer "publickey" ≠ none := by
      intro hnone
      unfold WgDoc.saveEnabled WgDoc.peerField at hsave
      rw [hnone] at hsave
      simp [isBlank] at hsave
    rw [hopen.peer] at hpublic
    have hlen := hopen.peerCount
    cases hp : bodies .peer (document text).sections with
    | nil =>
      rw [hp] at hpublic
      exact absurd rfl hpublic
    | cons b bs =>
      rw [hp, List.length_cons] at hlen
      have hnil : bs = [] := List.length_eq_zero_iff.1 (by omega)
      exact ⟨b, by rw [hnil]⟩
  have hflat : (bodies .peer (document text).sections).flatten = b := by rw [hb, List.flatten_singleton]
  obtain ⟨p, hp, hpeers⟩ : ∃ p, Peer.parse numeric (contents b) = some p ∧ c.peers = [p] := by
    have hmapM := hread.peers
    rw [hb, List.mapM_cons, List.mapM_nil] at hmapM
    obtain ⟨p, hp, hrest⟩ := Option.bind_eq_some_iff.1 hmapM
    exact ⟨p, hp, (Option.some.inj hrest).symm⟩
  have hI : Rewritten InterfaceKey.names ifaceKeys ifaceLabels
      (bodies .interface (document text).sections).flatten :=
    { labels_iface with
      reads := (Interface.parse_iff.1 hread.interface).1
      alike := fun raw hraw => (hbodies .interface raw hraw).1.iface
      line := fun raw hraw => (hbodies .interface raw hraw).2 }
  have hP : Rewritten PeerKey.names peerKeys peerLabels (bodies .peer (document text).sections).flatten :=
    { labels_peer with
      reads := by
        rw [hflat]
        exact (Peer.parse_iff.1 hp).1
      alike := fun raw hraw => (hbodies .peer raw hraw).1.peer
      line := fun raw hraw => (hbodies .peer raw hraw).2 }
  have hfront : ∀ l ∈ (document text).front, content l = [] := contents_eq_nil.1 hread.front
  have hrest : ∀ l ∈ (parseWgDoc text).rest, content l = [] ∧ ∀ c ∈ l.toList, c ≠ '\n' ∧ c ≠ '\r' := by
    intro l hl
    unfold WgDoc.rest at hl
    split at hl
    · cases hl
    · rcases List.mem_cons.1 hl with rfl | hl
      · exact ⟨content_empty, by simp⟩
      · have hmem := hopen.tailExtras l hl
        exact ⟨hfront l hmem, single_of_mem_lineSequence (mem_of_mem_front hmem)⟩
  have hiface := interface_saved hI (fun key _ => hopen.iface key) hread.interface
  have hpeer := peer_saved hP (fun key _ => hopen.peer key) (by rw [hflat]; exact hp)
  have hdocument : document (parseWgDoc text).assemble = savedDocument (parseWgDoc text) := by
    apply document_assemble hsave
    · rw [hopen.ifaceExtras]
      exact fun l hl => ⟨hI.body_bodyLines (fun key _ => hopen.iface key) hl,
        hI.single_bodyLines (fun key _ => hopen.iface key) hl⟩
    · rw [hopen.peerExtras]
      exact fun l hl => ⟨hP.body_bodyLines (fun key _ => hopen.peer key) hl,
        hP.single_bodyLines (fun key _ => hopen.peer key) hl⟩
    · intro l hl
      refine ⟨?_, (hrest l hl).2⟩
      rw [isHeader, (hrest l hl).1]
      rfl
  rw [Awg.parse_iff, hdocument, parses_savedDocument hpeers (contents_eq_nil.2 fun l hl => (hrest l hl).1),
    hopen.ifaceExtras, hopen.peerExtras, hiface, hpeer]
  exact ⟨fun h => ⟨h.1.1, h.1.2, h.2⟩, fun h => ⟨⟨h.address, h.dns⟩, h.allowedIPs⟩⟩

end Opened

/-- Two addresses of a home network. -/
def homeAddress (s : String) : Option InetAddress :=
  if s = "10.0.0.2" then some [10, 0, 0, 2] else if s = "10.0.0.3" then some [10, 0, 0, 3] else none

/-- An interface with two address lines. -/
def homeLines : List String :=
  ["[Interface]", "PrivateKey = AAAAAAAAAAAAAAAAAAAAAAAAAAAAAAAAAAAAAAAAAAA=", "Address = 10.0.0.2",
    "Address = 10.0.0.3", "[Peer]", "PublicKey = AAAAAAAAAAAAAAAAAAAAAAAAAAAAAAAAAAAAAAAAAAA=",
    "Endpoint = h:1", "AllowedIPs = 10.0.0.3"]

def homeProfile : String := XrayShareLink.plain homeLines

theorem lineSequence_homeProfile : lineSequence homeProfile = homeLines :=
  XrayShareLink.lineSequence_plain (by simp [homeLines]) (by decide +kernel)

/-- The form that opens for it. -/
def homeDoc : WgDoc where
  iface := Function.update (Function.update (Function.update (fun _ => none) "privatekey"
    (some "AAAAAAAAAAAAAAAAAAAAAAAAAAAAAAAAAAAAAAAAAAA=")) "address" (some "10.0.0.2")) "address"
    (some "10.0.0.3")
  peer := Function.update (Function.update (Function.update (fun _ => none) "publickey"
    (some "AAAAAAAAAAAAAAAAAAAAAAAAAAAAAAAAAAAAAAAAAAA=")) "endpoint" (some "h:1")) "allowedips"
    (some "10.0.0.3")
  peerCount := 1

theorem parseWgDoc_homeProfile : parseWgDoc homeProfile = homeDoc := by
  have hprivate : entryOf "PrivateKey = AAAAAAAAAAAAAAAAAAAAAAAAAAAAAAAAAAAAAAAAAAA="
      = some ("privatekey", "AAAAAAAAAAAAAAAAAAAAAAAAAAAAAAAAAAAAAAAAAAA=") := by decide +kernel
  have hfirst : entryOf "Address = 10.0.0.2" = some ("address", "10.0.0.2") := by decide +kernel
  have hsecond : entryOf "Address = 10.0.0.3" = some ("address", "10.0.0.3") := by decide +kernel
  have hpublic : entryOf "PublicKey = AAAAAAAAAAAAAAAAAAAAAAAAAAAAAAAAAAAAAAAAAAA="
      = some ("publickey", "AAAAAAAAAAAAAAAAAAAAAAAAAAAAAAAAAAAAAAAAAAA=") := by decide +kernel
  have hendpoint : entryOf "Endpoint = h:1" = some ("endpoint", "h:1") := by decide +kernel
  have hallowed : entryOf "AllowedIPs = 10.0.0.3" = some ("allowedips", "10.0.0.3") := by decide +kernel
  rw [parseWgDoc, lineSequence_homeProfile]
  unfold homeLines
  rw [List.foldl_cons, WgDoc.next_header_iface (by decide +kernel) (by decide +kernel),
    List.foldl_cons, WgDoc.next_field_iface (by decide +kernel) hprivate (by decide),
    List.foldl_cons, WgDoc.next_field_iface (by decide +kernel) hfirst (by decide),
    List.foldl_cons, WgDoc.next_field_iface (by decide +kernel) hsecond (by decide),
    List.foldl_cons, WgDoc.next_header_peer (by decide +kernel) (by decide +kernel),
    List.foldl_cons, WgDoc.next_field_peer (by decide +kernel) hpublic (by decide) rfl,
    List.foldl_cons, WgDoc.next_field_peer (by decide +kernel) hendpoint (by decide) rfl,
    List.foldl_cons, WgDoc.next_field_peer (by decide +kernel) hallowed (by decide) rfl]
  rfl

theorem homeProfile_address :
    (Config.parse homeAddress homeProfile).map (fun c => c.interface .address)
      = some {⟨[10, 0, 0, 2], 32⟩, ⟨[10, 0, 0, 3], 32⟩} := by
  rw [parse_lines, lineSequence_homeProfile]
  decide +kernel

theorem homeProfile_singlePeer : (parseWgDoc homeProfile).singlePeer = true := by
  rw [parseWgDoc_homeProfile]
  rfl

theorem homeProfile_saveEnabled : (parseWgDoc homeProfile).saveEnabled "Home" = true := by
  rw [parseWgDoc_homeProfile]
  decide +kernel

theorem save_lossless_home :
    ∃ c, Config.parse homeAddress homeProfile = some c ∧
      (Config.parse homeAddress (parseWgDoc homeProfile).assemble = some c ↔
        LastLinesNameAll homeAddress homeProfile) := by
  have hseen : ∀ raw ∈ lineSequence homeProfile, SeenByEditor raw := by
    rw [lineSequence_homeProfile]
    decide +kernel
  obtain ⟨c, hc, -⟩ := Option.map_eq_some_iff.1 homeProfile_address
  exact ⟨c, hc, save_lossless_iff hc hseen homeProfile_singlePeer homeProfile_saveEnabled⟩

/-- **The first address is lost.** -/
theorem save_loses_address :
    (parseWgDoc homeProfile).singlePeer = true ∧ (parseWgDoc homeProfile).saveEnabled "Home" = true ∧
      ∃ c, Config.parse homeAddress homeProfile = some c ∧
        Config.parse homeAddress (parseWgDoc homeProfile).assemble ≠ some c := by
  refine ⟨homeProfile_singlePeer, homeProfile_saveEnabled, ?_⟩
  obtain ⟨c, hc, haddress⟩ := Option.map_eq_some_iff.1 homeProfile_address
  refine ⟨c, hc, fun hsaved => ?_⟩
  have hlines : (parseWgDoc homeProfile).lines = ["[Interface]",
      "PrivateKey = AAAAAAAAAAAAAAAAAAAAAAAAAAAAAAAAAAAAAAAAAAA=", "Address = 10.0.0.3", "", "[Peer]",
      "PublicKey = AAAAAAAAAAAAAAAAAAAAAAAAAAAAAAAAAAAAAAAAAAA=", "Endpoint = h:1",
      "AllowedIPs = 10.0.0.3"] := by
    rw [parseWgDoc_homeProfile]
    decide +kernel
  have hread := (Awg.parse_iff.1 hsaved).interface
  have hone := (Interface.parse_iff.1 hread).2.1 .address
  rw [haddress, document, WgDoc.assemble_eq, hlines,
    XrayShareLink.lineSequence_plain (by simp) (by decide +kernel)] at hone
  revert hone
  decide +kernel

end SwiftVpn.WireGuardSettingsScreen
