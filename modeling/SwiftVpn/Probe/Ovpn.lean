/-
  File:      SwiftVpn/Probe/Ovpn.lean
  Subject:   WHAT THE OPENVPN PROBE READS IN A .ovpn TEXT: parseOvpn, parseStaticKey OF DelayProbe.kt.

  * `parseOvpn`, `parseStaticKey` -- the two passes, line by line and digit by digit;
  * `items` -- a text as directives and inline blocks; `fields_foldl_next` -- the loop goes through these;
  * `parseStaticKey_joined_iff` -- which key the lines of a block give: the first pass joins them without the
    ends of lines, so the second one sees a single line and drops it whole if it starts with a mark;
  * `parseOvpn_key_iff` -- a block in OpenVPN's own form starts with a mark: its key is lost, and what is
    read is at most the key of another block of that tag below;
  * `parseOvpn_first_iff` -- host and port are those of the last lines that have one, so the first remote
    is probed exactly where these agree with it.
-/
import SwiftVpn.Xray.Links

namespace SwiftVpn.DelayProbe

open XrayShareLink

/-! ## 1. The second pass: a static key -/

def isHexDigit (c : Char) : Bool := "0123456789abcdefABCDEF".toList.contains c

/-- The lines that are not empty, no marker and no comment. -/
def keyLine (line : String) : Bool :=
  !line.toList.isEmpty && !"-----".toList.isPrefixOf line.toList && !"#".toList.isPrefixOf line.toList

/-- The hexadecimal digits of a block. -/
def hexOf (block : String) : List Char :=
  ((((lineSequence block).map trim).filter keyLine).flatMap String.toList).filter isHexDigit

/-- `toInt(16).toByte()`. -/
def byteOf (digits : List Char) : UInt8 := UInt8.ofNat ((Text.digitsValue 16 digits).getD 0)

def parseStaticKey (block : String) : Option (List UInt8) :=
  if (hexOf block).length < 512 then none
  else some ((List.range 256).map fun i => byteOf (((hexOf block).drop (i * 2)).take 2))

/-! ## 2. The first pass: directives and blocks -/

structure OvpnProbeTarget where
  host : String
  port : Int
  tcp : Bool
  authDigest : String
  tlsAuthKey : Option (List UInt8)
  keyDirection : Int
  tlsCryptKey : Option (List UInt8)
  deriving DecidableEq, Repr

/-- `split(Regex("\\s+"))`: between the first part and the last one, none is empty. -/
def splitSpaces (line : String) : List String :=
  match line.toList.splitOnP isRegexSpace with
  | [] => []
  | part :: parts =>
    (part :: (parts.dropLast.filter (!·.isEmpty) ++ parts.getLast?.toList)).map String.ofList

/-- The whole of `<([a-z-]+)>`. -/
def openTag (line : String) : Option String :=
  match line.toList with
  | '<' :: cs =>
    let name := cs.dropLast
    if cs.getLast? = some '>' ∧ name ≠ [] ∧ name.all (fun c => ('a' ≤ c && c ≤ 'z') || c == '-') = true then
      some (String.ofList name)
    else none
  | _ => none

/-- `uppercase`, as far as an ASCII text can see it. -/
def uppercase (cs : List Char) : List Char :=
  cs.flatMap fun c =>
    match c.toNat with
    | 0x131 => ['I']
    | 0x17F => ['S']
    | 0xDF => ['S', 'S']
    | 0xFB00 => ['F', 'F']
    | 0xFB01 => ['F', 'I']
    | 0xFB02 => ['F', 'L']
    | 0xFB03 => ['F', 'F', 'I']
    | 0xFB04 => ['F', 'F', 'L']
    | 0xFB05 => ['S', 'T']
    | 0xFB06 => ['S', 'T']
    | _ => [c.toUpper]

/-- What the loop has read. -/
structure Fields where
  host : Option String := none
  port : Int := 1194
  proto : String := "udp"
  auth : String := "HmacSHA1"
  direction : Int := -1
  /-- the blocks, the last one first -/
  inline : List (String × String) := []
  deriving DecidableEq, Repr

namespace Fields

/-- A line outside of every block. -/
def directive (f : Fields) (line : String) : Fields :=
  match splitSpaces line with
  | "remote" :: host :: rest =>
    { f with host := some host, port := (rest.head?.map fun p => (parseIntOrNull p).getD 1194).getD f.port }
  | "proto" :: proto :: _ => { f with proto := proto }
  | "auth" :: digest :: _ =>
    { f with auth := "Hmac" ++ String.ofList (uppercase (digest.toList.filter (· ≠ '-'))) }
  | "key-direction" :: d :: _ => { f with direction := (parseIntOrNull d).getD (-1) }
  | _ => f

end Fields

/-- The variables of the loop. -/
structure Collector where
  fields : Fields := {}
  tag : Option String := none
  buf : String := ""

def closing (tag : String) : String := "</" ++ tag ++ ">"

def Collector.next (st : Collector) (raw : String) : Collector :=
  let line := trim raw
  match openTag line with
  | some tag => { st with tag := some tag, buf := "" }
  | none =>
    match st.tag with
    | some tag =>
      if line = closing tag then
        { st with fields := { st.fields with inline := (tag, st.buf) :: st.fields.inline }, tag := none }
      else { st with buf := st.buf ++ line }
    | none => { st with fields := st.fields.directive line }

/-- What is made of the fields. -/
def Fields.target (f : Fields) : Option OvpnProbeTarget :=
  f.host.map fun host =>
    { host := host
      port := f.port
      tcp := "tcp".toList.isPrefixOf f.proto.toList
      authDigest := f.auth
      tlsAuthKey := (f.inline.lookup "tls-auth").bind parseStaticKey
      keyDirection := f.direction
      tlsCryptKey := (f.inline.lookup "tls-crypt").bind parseStaticKey }

def parseOvpn (text : String) : Option OvpnProbeTarget :=
  ((lineSequence text).foldl Collector.next {}).fields.target

/-! ## 3. A text as directives and blocks -/

/-- A line outside of every block, or a block with its lines, trimmed. -/
inductive Item where
  | directive (line : String)
  | block (tag : String) (lines : List String)
  deriving DecidableEq, Repr

/-- The items of lines, below the start of a block that is open. A block that is not closed is none. -/
def items : Option (String × List String) → List String → List Item
  | _, [] => []
  | inside, raw :: lines =>
    match openTag (trim raw) with
    | some tag => items (some (tag, [])) lines
    | none =>
      match inside with
      | some (tag, body) =>
        if trim raw = closing tag then .block tag body :: items none lines
        else items (some (tag, body ++ [trim raw])) lines
      | none => .directive (trim raw) :: items none lines

/-- The lines of a block without their ends. -/
def joined (lines : List String) : String := String.ofList (lines.flatMap String.toList)

def Fields.take (f : Fields) : Item → Fields
  | .directive line => f.directive line
  | .block tag lines => { f with inline := (tag, joined lines) :: f.inline }

/-- The bodies of the blocks of a tag. -/
def bodies (tag : String) (is : List Item) : List (List String) :=
  is.filterMap fun
    | .block t lines => if t = tag then some lines else none
    | .directive _ => none

theorem joined_nil : joined [] = "" := String.ofList_nil

theorem joined_append (lines : List String) (line : String) : joined (lines ++ [line]) = joined lines ++ line := by
  rw [joined, joined, List.flatMap_append, List.flatMap_singleton, String.ofList_append, String.ofList_toList]

section Steps

variable {raw tag : String} {inside : Option (String × List String)} {body : List String} (lines : List String)

theorem items_open (h : openTag (trim raw) = some tag) :
    items inside (raw :: lines) = items (some (tag, [])) lines := by
  rw [items.eq_def]
  simp only [h]

theorem items_directive (h : openTag (trim raw) = none) :
    items none (raw :: lines) = .directive (trim raw) :: items none lines := by
  rw [items.eq_def]
  simp only [h]

theorem items_close (h : openTag (trim raw) = none) (hclose : trim raw = closing tag) :
    items (some (tag, body)) (raw :: lines) = .block tag body :: items none lines := by
  rw [items.eq_def]
  simp only [h, if_pos hclose]

theorem items_line (h : openTag (trim raw) = none) (hclose : trim raw ≠ closing tag) :
    items (some (tag, body)) (raw :: lines) = items (some (tag, body ++ [trim raw])) lines := by
  rw [items.eq_def]
  simp only [h, if_neg hclose]

end Steps

/-- What one line does. -/
theorem next_open {st : Collector} {raw tag : String} (h : openTag (trim raw) = some tag) :
    st.next raw = { st with tag := some tag, buf := "" } := by
  simp only [Collector.next, h]

theorem next_directive {st : Collector} {raw : String} (h : openTag (trim raw) = none) (hst : st.tag = none) :
    st.next raw = { st with fields := st.fields.directive (trim raw) } := by
  simp only [Collector.next, h, hst]

theorem next_close {st : Collector} {raw tag : String} {body : List String} (h : openTag (trim raw) = none)
    (hst : st.tag = some tag) (hbuf : st.buf = joined body) (hclose : trim raw = closing tag) :
    st.next raw = { st with fields := st.fields.take (.block tag body), tag := none } := by
  simp only [Collector.next, h, hst, if_pos hclose, hbuf]
  rfl

theorem next_line {st : Collector} {raw tag : String} {body : List String} (h : openTag (trim raw) = none)
    (hst : st.tag = some tag) (hbuf : st.buf = joined body) (hclose : trim raw ≠ closing tag) :
    st.next raw = { st with buf := joined (body ++ [trim raw]) } := by
  simp only [Collector.next, h, hst, if_neg hclose, hbuf, joined_append]

/-- The open block of the loop. -/
structure Open (st : Collector) (inside : Option (String × List String)) : Prop where
  tag : st.tag = inside.map (·.1)
  buf : ∀ p ∈ inside, st.buf = joined p.2

/-- **The loop goes through the items.** -/
theorem fields_foldl_next (lines : List String) (st : Collector) (inside : Option (String × List String))
    (h : Open st inside) :
    (lines.foldl Collector.next st).fields = (items inside lines).foldl Fields.take st.fields := by
  induction lines generalizing st inside with
  | nil => cases inside <;> rfl
  | cons raw lines ih =>
    rw [List.foldl_cons]
    cases hopen : openTag (trim raw) with
    | some tag =>
      have hst : Open { st with tag := some tag, buf := "" } (some (tag, [])) :=
        ⟨rfl, fun p hp => by rw [← Option.mem_some.1 hp, joined_nil]⟩
      rw [items_open lines hopen, next_open hopen, ih _ _ hst]
    | none =>
      cases inside with
      | none =>
        have hst : Open { st with fields := st.fields.directive (trim raw) } none :=
          ⟨h.tag, fun p hp => absurd hp (by simp)⟩
        rw [items_directive lines hopen, next_directive hopen h.tag, ih _ _ hst, List.foldl_cons, Fields.take]
      | some p =>
        obtain ⟨tag, body⟩ := p
        have hbuf : st.buf = joined body := h.buf _ rfl
        by_cases hclose : trim raw = closing tag
        · have hst : Open { st with fields := st.fields.take (.block tag body), tag := none } none :=
            ⟨rfl, fun p hp => absurd hp (by simp)⟩
          rw [items_close lines hopen hclose, next_close hopen h.tag hbuf hclose, ih _ _ hst, List.foldl_cons]
        · have hst : Open { st with buf := joined (body ++ [trim raw]) } (some (tag, body ++ [trim raw])) :=
            ⟨h.tag, fun p hp => by rw [← Option.mem_some.1 hp]⟩
          rw [items_line lines hopen hclose, next_line hopen h.tag hbuf hclose, ih _ _ hst]

/-- What stands above the start of a block does not matter below it. -/
theorem items_append_open {raw tag : String} (h : openTag (trim raw) = some tag)
    (lines : List String) : ∀ (above : List String) (inside : Option (String × List String)),
      items inside (above ++ raw :: lines) = items inside above ++ items (some (tag, [])) lines
  | [], inside => by
    rw [List.nil_append, items_open lines h]
    cases inside <;> rfl
  | l :: above, inside => by
    have ih := items_append_open h lines above
    rw [List.cons_append]
    cases hopen : openTag (trim l) with
    | some t => rw [items_open _ hopen, items_open _ hopen, ih]
    | none =>
      cases inside with
      | none => rw [items_directive _ hopen, items_directive _ hopen, ih, List.cons_append]
      | some p =>
        obtain ⟨t, body⟩ := p
        by_cases hclose : trim l = closing t
        · rw [items_close _ hopen hclose, items_close _ hopen hclose, ih, List.cons_append]
        · rw [items_line _ hopen hclose, items_line _ hopen hclose, ih]

/-- The lines of a block, and its end. -/
theorem items_body {raw tag : String} (h : openTag (trim raw) = none) (hclose : trim raw = closing tag)
    (below : List String) : ∀ (lines body : List String),
      (∀ l ∈ lines, openTag (trim l) = none ∧ trim l ≠ closing tag) →
      items (some (tag, body)) (lines ++ raw :: below) = .block tag (body ++ lines.map trim) :: items none below
  | [], body, _ => by rw [List.nil_append, items_close below h hclose, List.map_nil, List.append_nil]
  | l :: lines, body, hl => by
    obtain ⟨hopen, hne⟩ := hl l List.mem_cons_self
    rw [List.cons_append, items_line _ hopen hne,
      items_body h hclose below lines _ fun l' hl' => hl l' (List.mem_cons_of_mem _ hl'), List.map_cons,
      List.append_assoc, List.singleton_append]

/-- The last block of a tag counts. -/
theorem lookup_foldl_take (tag : String) (is : List Item) (f : Fields) :
    (is.foldl Fields.take f).inline.lookup tag = ((bodies tag is).getLast?.map joined).or (f.inline.lookup tag) := by
  induction is generalizing f with
  | nil => rfl
  | cons i is ih =>
    rw [List.foldl_cons, ih]
    cases i with
    | directive line =>
      have hinline : (f.directive line).inline = f.inline := by
        unfold Fields.directive
        split <;> rfl
      show (((bodies tag is).getLast?.map joined).or ((f.directive line).inline.lookup tag)) = _
      rw [hinline]
      rfl
    | block t lines =>
      show (((bodies tag is).getLast?.map joined).or (List.lookup tag ((t, joined lines) :: f.inline))) = _
      by_cases ht : t = tag
      · have hb : bodies tag (.block t lines :: is) = lines :: bodies tag is := by
          simp [bodies, ht]
        rw [hb, ht, List.lookup_cons_self, List.getLast?_cons]
        cases (bodies tag is).getLast? <;> rfl
      · have hb : bodies tag (.block t lines :: is) = bodies tag is := by
          simp [bodies, ht]
        rw [hb, List.lookup_cons, beq_false_of_ne (Ne.symm ht)]

/-- A remote is named. -/
def Remote (is : List Item) : Prop :=
  ∃ line host rest, Item.directive line ∈ is ∧ splitSpaces line = "remote" :: host :: rest

theorem host_directive (f : Fields) (line : String) :
    (f.directive line).host.isSome = true ↔
      f.host.isSome = true ∨ ∃ host rest, splitSpaces line = "remote" :: host :: rest := by
  unfold Fields.directive
  split
  · rename_i host rest h
    exact iff_of_true rfl (.inr ⟨host, rest, h⟩)
  all_goals
    rename_i h
    refine ⟨fun hf => .inl hf, fun hf => hf.elim id fun ⟨host, rest, hr⟩ => ?_⟩
    simp_all

theorem host_foldl_take (is : List Item) (f : Fields) :
    (is.foldl Fields.take f).host.isSome = true ↔ f.host.isSome = true ∨ Remote is := by
  induction is generalizing f with
  | nil => simp [Remote]
  | cons i is ih =>
    rw [List.foldl_cons, ih]
    cases i with
    | directive line =>
      show (f.directive line).host.isSome = true ∨ _ ↔ _
      rw [host_directive]
      simp only [Remote, List.mem_cons, Item.directive.injEq]
      grind
    | block t lines =>
      show f.host.isSome = true ∨ _ ↔ _
      simp only [Remote, List.mem_cons, reduceCtorEq, false_or]

/-! ## 4. The key of a block -/

/-- The bytes of digits, two for each. -/
def bytesOf : List Char → List UInt8
  | a :: b :: cs => byteOf [a, b] :: bytesOf cs
  | _ => []

/-- The lines, joined, are a comment or a marker for the second pass. -/
def Marked (lines : List String) : Prop :=
  "-----".toList <+: trimChars (lines.flatMap String.toList) ∨ "#".toList <+: trimChars (lines.flatMap String.toList)

/-- The key that the lines of a block spell. -/
def Spells (lines : List String) (key : List UInt8) : Prop :=
  ¬Marked lines ∧ ∃ digits rest, (lines.flatMap String.toList).filter isHexDigit = digits ++ rest ∧
    digits.length = 512 ∧ bytesOf digits = key

/-- No end of a line stands in a line. -/
def Single (line : String) : Prop := ∀ c ∈ line.toList, c ≠ '\n' ∧ c ≠ '\r'

theorem map_range_byteOf (n : Nat) {hex : List Char} (h : n * 2 ≤ hex.length) :
    (List.range n).map (fun i => byteOf ((hex.drop (i * 2)).take 2)) = bytesOf (hex.take (n * 2)) := by
  induction n generalizing hex with
  | zero => rfl
  | succ n ih =>
    match hex, h with
    | [], h | [_], h => exact absurd h (by simp only [List.length_cons, List.length_nil]; omega)
    | a :: b :: cs, h =>
      have hcs : n * 2 ≤ cs.length := by
        simp only [List.length_cons] at h
        omega
      have htake : (a :: b :: cs).take ((n + 1) * 2) = a :: b :: cs.take (n * 2) := by
        rw [Nat.succ_mul, List.take_succ_cons, List.take_succ_cons]
      rw [List.range_succ_eq_map, List.map_cons, List.map_map, htake, bytesOf, ← ih hcs]
      refine congrArg₂ _ rfl (List.map_congr_left fun i hi => ?_)
      show byteOf (((a :: b :: cs).drop ((i + 1) * 2)).take 2) = _
      rw [Nat.succ_mul, List.drop_succ_cons, List.drop_succ_cons]

theorem not_isHexDigit_of_isWhitespace (c : Char) (h : isWhitespace c = true) : isHexDigit c = false := by
  rw [Bool.eq_false_iff]
  intro hc
  have hall : ∀ d ∈ "0123456789abcdefABCDEF".toList, isWhitespace d = false := by decide
  rw [hall c (List.contains_iff_mem.1 hc)] at h
  cases h

theorem mem_lineSequence {text line : String} (h : line ∈ lineSequence text) : Single line := by
  obtain ⟨cs, hcs, rfl⟩ := List.mem_map.1 h
  intro c hc
  rw [String.toList_ofList] at hc
  have := (Text.mem_of_mem_splitOnP hcs hc).2
  simpa using this

theorem lineSequence_single {line : String} (h : Single line) : lineSequence line = [line] := by
  have hplain := lineSequence_plain (List.cons_ne_nil line []) (List.forall_mem_singleton.2 h)
  rwa [plain_singleton] at hplain

theorem toList_joined (lines : List String) : (joined lines).toList = lines.flatMap String.toList :=
  String.toList_ofList

/-- Joined lines are one line for the second pass. -/
theorem hexOf_joined {lines : List String} (h : ∀ l ∈ lines, Single l) :
    (Marked lines → hexOf (joined lines) = []) ∧
      (¬Marked lines → hexOf (joined lines) = (lines.flatMap String.toList).filter isHexDigit) := by
  have hsingle : Single (joined lines) := by
    intro c hc
    rw [toList_joined, List.mem_flatMap] at hc
    obtain ⟨l, hl, hcl⟩ := hc
    exact h l hl c hcl
  have hfilter := Text.filter_strip not_isHexDigit_of_isWhitespace (lines.flatMap String.toList)
  have hhex : hexOf (joined lines)
      = (([trim (joined lines)].filter keyLine).flatMap String.toList).filter isHexDigit := by
    rw [hexOf, lineSequence_single hsingle, List.map_singleton]
  have htrim : (trim (joined lines)).toList = trimChars (lines.flatMap String.toList) := by
    rw [trim, String.toList_ofList, toList_joined]
  have hkey : keyLine (trim (joined lines)) = true ↔
      trimChars (lines.flatMap String.toList) ≠ [] ∧ ¬Marked lines := by
    unfold keyLine Marked
    rw [htrim]
    simp only [Bool.and_eq_true, Bool.not_eq_true', ← Bool.not_eq_true, List.isEmpty_iff, List.isPrefixOf_iff_prefix,
      not_or, ne_eq, and_assoc]
  refine ⟨fun hm => ?_, fun hm => ?_⟩
  · rw [hhex, List.filter_cons_of_neg fun hk => (hkey.1 hk).2 hm]
    rfl
  · rw [hhex, ← hfilter]
    by_cases hne : trimChars (lines.flatMap String.toList) = []
    · rw [List.filter_cons_of_neg fun hk => (hkey.1 hk).1 hne,
        show Text.strip isWhitespace _ = trimChars _ from rfl, hne]
      rfl
    · rw [List.filter_cons_of_pos (hkey.2 ⟨hne, hm⟩), List.filter_nil, List.flatMap_singleton, htrim]
      rfl

/-- **Which key the lines of a block give.** -/
theorem parseStaticKey_joined_iff {lines : List String} (h : ∀ l ∈ lines, Single l) (key : List UInt8) :
    parseStaticKey (joined lines) = some key ↔ Spells lines key := by
  unfold parseStaticKey Spells
  by_cases hm : Marked lines
  · rw [(hexOf_joined h).1 hm]
    simp [hm]
  · rw [(hexOf_joined h).2 hm]
    by_cases hlen : ((lines.flatMap String.toList).filter isHexDigit).length < 512
    · rw [if_pos hlen]
      refine iff_of_false (by simp) fun ⟨_, digits, rest, hd, hl, _⟩ => ?_
      rw [hd, List.length_append] at hlen
      omega
    · rw [if_neg hlen, map_range_byteOf 256 (by omega), Option.some.injEq]
      refine ⟨fun hk => ⟨hm, _, _, (List.take_append_drop 512 _).symm, ?_, hk⟩, fun ⟨_, digits, rest, hd, hl, hk⟩ => ?_⟩
      · rw [List.length_take]
        omega
      · rw [hd, show 256 * 2 = 512 from rfl, List.take_left' hl, hk]

/-! ## 5. A key in OpenVPN's own form -/

/-- The lines between the tags: comments, the marker, sixteen rows of digits and the other marker. -/
structure StandardBody (key : List UInt8) (comments : List String) (first : String) (rows : List String)
    (last : String) : Prop where
  comments : ∀ l ∈ comments, "#".toList <+: (trim l).toList
  first : "-----BEGIN".toList <+: (trim first).toList
  count : rows.length = 16
  width : ∀ l ∈ rows, (trim l).toList.length = 32 ∧ ∀ c ∈ (trim l).toList, isHexDigit c = true
  digits : bytesOf (List.flatMap (fun l => (trim l).toList) rows) = key
  last : "-----END".toList <+: (trim last).toList

inductive KeyTag where
  | tlsAuth
  | tlsCrypt
  deriving DecidableEq, Repr

def KeyTag.name : KeyTag → String
  | .tlsAuth => "tls-auth"
  | .tlsCrypt => "tls-crypt"

/-- The start of a block. -/
def opening (tag : KeyTag) : String := "<" ++ tag.name ++ ">"

theorem openTag_opening (tag : KeyTag) : openTag (opening tag) = some tag.name := by
  cases tag <;> decide +kernel

def OvpnProbeTarget.key (t : OvpnProbeTarget) : KeyTag → Option (List UInt8)
  | .tlsAuth => t.tlsAuthKey
  | .tlsCrypt => t.tlsCryptKey

/-- A line that is no tag. -/
theorem not_tag_of_prefix {line : String} {p : List Char} {c : Char} (hc : c ≠ '<') (h : c :: p <+: line.toList)
    (tag : String) : openTag line = none ∧ line ≠ closing tag := by
  obtain ⟨r, hr⟩ := h
  refine ⟨?_, fun hclose => ?_⟩
  · unfold openTag
    rw [← hr]
    split
    · rename_i cs hcs
      exact absurd (List.cons.inj hcs).1 hc
    · rfl
  · have hhead : line.toList.head? = some '<' := by
      rw [hclose, closing, String.toList_append, String.toList_append]
      rfl
    rw [← hr] at hhead
    exact hc (Option.some.inj hhead)

theorem StandardBody.not_tag {key : List UInt8} {comments rows : List String} {first last : String}
    (h : StandardBody key comments first rows last) (tag : String) :
    ∀ l ∈ comments ++ first :: (rows ++ [last]), openTag (trim l) = none ∧ trim l ≠ closing tag := by
  intro l hl
  simp only [List.mem_append, List.mem_cons, List.not_mem_nil, or_false] at hl
  rcases hl with hl | rfl | hl | rfl
  · exact not_tag_of_prefix (by decide) (h.comments l hl) tag
  · exact not_tag_of_prefix (by decide) h.first tag
  · obtain ⟨hlen, hhex⟩ := h.width l hl
    cases hcs : (trim l).toList with
    | nil =>
      rw [hcs] at hlen
      cases hlen
    | cons c cs =>
      have hc := hhex c (hcs ▸ List.mem_cons_self)
      have hne : c ≠ '<' := by
        rintro rfl
        exact absurd hc (by decide)
      exact not_tag_of_prefix hne (hcs ▸ List.cons_prefix_cons.2 ⟨rfl, List.nil_prefix⟩ : [c] <+: _) tag
  · exact not_tag_of_prefix (by decide) h.last tag

/-- What starts with visible characters still does when it is trimmed. -/
theorem prefix_trimChars {p cs : List Char} (hne : p ≠ []) (hp : ∀ c ∈ p, isWhitespace c = false) (h : p <+: cs) :
    p <+: trimChars cs := by
  obtain ⟨r, rfl⟩ := h
  obtain ⟨r', hr'⟩ := trimChars_append hne hp r
  exact ⟨r', hr'.symm⟩

theorem StandardBody.marked {key : List UInt8} {comments rows : List String} {first last : String}
    (h : StandardBody key comments first rows last) :
    Marked ((comments ++ first :: (rows ++ [last])).map trim) := by
  have hstart : ∀ (l : String) (ls : List String), (trim l).toList <+: ((l :: ls).map trim).flatMap String.toList := by
    intro l ls
    rw [List.map_cons, List.flatMap_cons]
    exact List.prefix_append _ _
  cases comments with
  | nil =>
    have hdashes : "-----".toList <+: "-----BEGIN".toList := by decide
    exact .inl (prefix_trimChars (by decide) (by decide) ((hdashes.trans h.first).trans (hstart _ _)))
  | cons l ls =>
    exact .inr (prefix_trimChars (by decide) (by decide)
      ((h.comments l List.mem_cons_self).trans (hstart _ _)))

theorem Single.trim {raw : String} (h : Single raw) : Single (trim raw) := by
  intro c hc
  rw [SwiftVpn.trim, String.toList_ofList] at hc
  exact h c (mem_of_mem_trimChars hc)

/-- The lines of a block are lines of the text, trimmed. -/
theorem mem_bodies {tag line : String} {body : List String} (hline : line ∈ body) :
    ∀ {lines : List String} {inside : Option (String × List String)}, body ∈ bodies tag (items inside lines) →
      (∃ raw ∈ lines, trim raw = line) ∨ ∃ p ∈ inside, line ∈ p.2
  | [], inside, h => by cases inside <;> cases h
  | raw :: lines, inside, h => by
    have hlater : ∀ {l : String}, (∃ raw ∈ lines, trim raw = l) → ∃ r ∈ raw :: lines, trim r = l :=
      fun ⟨r, hr, e⟩ => ⟨r, List.mem_cons_of_mem _ hr, e⟩
    cases hopen : openTag (trim raw) with
    | some t =>
      rw [items_open lines hopen] at h
      rcases mem_bodies hline h with hm | ⟨p, hp, hm⟩
      · exact .inl (hlater hm)
      · rw [← Option.mem_some.1 hp] at hm
        cases hm
    | none =>
      cases inside with
      | none =>
        rw [items_directive lines hopen] at h
        have h' : body ∈ bodies tag (items none lines) := by simpa [bodies] using h
        exact (mem_bodies hline h').imp hlater id
      | some p =>
        obtain ⟨t, ls⟩ := p
        by_cases hclose : trim raw = closing t
        · rw [items_close lines hopen hclose] at h
          simp only [bodies, List.filterMap_cons] at h
          split_ifs at h with ht
          · rcases List.mem_cons.1 h with rfl | h
            · exact .inr ⟨_, rfl, hline⟩
            · rcases mem_bodies hline h with hm | ⟨p, hp, hm⟩
              · exact .inl (hlater hm)
              · cases hp
          · rcases mem_bodies hline h with hm | ⟨p, hp, hm⟩
            · exact .inl (hlater hm)
            · cases hp
        · rw [items_line lines hopen hclose] at h
          rcases mem_bodies hline h with hm | ⟨p, hp, hm⟩
          · exact .inl (hlater hm)
          · rw [← Option.mem_some.1 hp] at hm
            rcases List.mem_append.1 hm with hm | hm
            · exact .inr ⟨_, rfl, hm⟩
            · exact .inl ⟨raw, List.mem_cons_self, (List.mem_singleton.1 hm).symm⟩

/-- The key of a tag, as the last block of that tag has it. -/
theorem parseOvpn_key (text : String) (tag : KeyTag) (key : List UInt8) :
    (∃ t, parseOvpn text = some t ∧ t.key tag = some key) ↔
      Remote (items none (lineSequence text)) ∧
        ∃ body, (bodies tag.name (items none (lineSequence text))).getLast? = some body ∧ Spells body key := by
  obtain ⟨f, hf⟩ : ∃ f, f = (items none (lineSequence text)).foldl Fields.take {} := ⟨_, rfl⟩
  have hfields : ((lineSequence text).foldl Collector.next {}).fields = f := by
    rw [fields_foldl_next _ _ none ⟨rfl, fun p hp => absurd hp (by simp)⟩, hf]
  have hhost : f.host.isSome = true ↔ Remote (items none (lineSequence text)) := by
    rw [hf, host_foldl_take]
    simp
  have hlookup : f.inline.lookup tag.name
      = (bodies tag.name (items none (lineSequence text))).getLast?.map joined := by
    rw [hf, lookup_foldl_take]
    exact Option.or_none
  have hkey : ∀ t, f.target = some t → t.key tag = (f.inline.lookup tag.name).bind parseStaticKey := by
    intro t ht
    obtain ⟨host, -, rfl⟩ := Option.map_eq_some_iff.1 ht
    cases tag <;> rfl
  have hread : (f.inline.lookup tag.name).bind parseStaticKey = some key ↔
      ∃ body, (bodies tag.name (items none (lineSequence text))).getLast? = some body ∧ Spells body key := by
    rw [hlookup, Option.bind_map, Option.bind_eq_some_iff]
    refine exists_congr fun body => and_congr_right fun hbody => ?_
    have hsingle : ∀ l ∈ body, Single l := by
      intro l hl
      rcases mem_bodies hl (List.mem_of_mem_getLast? hbody) with ⟨raw, hraw, rfl⟩ | ⟨p, hp, -⟩
      · exact (mem_lineSequence hraw).trim
      · cases hp
    rw [← parseStaticKey_joined_iff hsingle, Function.comp_apply]
  rw [parseOvpn, hfields, ← hhost, ← hread]
  constructor
  · rintro ⟨t, ht, hk⟩
    refine ⟨?_, (hkey t ht).symm.trans hk⟩
    obtain ⟨host, hh, -⟩ := Option.map_eq_some_iff.1 ht
    rw [hh]
    rfl
  · rintro ⟨hh, hk⟩
    obtain ⟨host, hhost⟩ := Option.isSome_iff_exists.1 hh
    obtain ⟨t, ht⟩ : ∃ t, f.target = some t := ⟨_, by rw [Fields.target, hhost]; rfl⟩
    exact ⟨t, ht, (hkey t ht).trans hk⟩

section Standard

variable {text : String} {tag : KeyTag} {key : List UInt8} {above comments rows below : List String}
  {start first last stop : String}
  (hlines : lineSequence text = above ++ start :: (comments ++ first :: (rows ++ [last]) ++ stop :: below))
  (hstart : trim start = opening tag) (hbody : StandardBody key comments first rows last)
  (hstop : trim stop = closing tag.name)

include hlines hstart hbody hstop

theorem items_standard :
    items none (lineSequence text)
      = items none above ++ .block tag.name ((comments ++ first :: (rows ++ [last])).map trim) ::
          items none below := by
  have hclose : openTag (trim stop) = none := by
    rw [hstop]
    cases tag <;> decide +kernel
  have hopen : openTag (trim start) = some tag.name := by rw [hstart, openTag_opening]
  rw [hlines, items_append_open hopen, items_body hclose hstop below _ [] (hbody.not_tag tag.name),
    List.nil_append]

theorem bodies_standard :
    (bodies tag.name (items none (lineSequence text))).getLast?
      = some ((bodies tag.name (items none below)).getLast?.getD
          ((comments ++ first :: (rows ++ [last])).map trim)) := by
  have hbodies : bodies tag.name (items none (lineSequence text))
      = bodies tag.name (items none above) ++
          (comments ++ first :: (rows ++ [last])).map trim :: bodies tag.name (items none below) := by
    rw [items_standard hlines hstart hbody hstop]
    simp [bodies]
  rw [hbodies, List.getLast?_append, List.getLast?_cons, Option.some_or]

/-- **A key in OpenVPN's own form is lost**: what is read, if anything, is the key of the last block of that
    tag below, in a form that OpenVPN does not write. -/
theorem parseOvpn_key_iff :
    (∃ t, parseOvpn text = some t ∧ t.key tag = some key) ↔
      Remote (items none (lineSequence text)) ∧
        ∃ body, (bodies tag.name (items none below)).getLast? = some body ∧ Spells body key := by
  have hmarked := hbody.marked
  rw [parseOvpn_key, bodies_standard hlines hstart hbody hstop]
  refine and_congr_right fun _ => ?_
  cases (bodies tag.name (items none below)).getLast? with
  | none =>
    rw [Option.getD_none]
    refine iff_of_false ?_ (by simp)
    rintro ⟨b, hb, hspells⟩
    rw [← Option.some.inj hb] at hspells
    exact hspells.1 hmarked
  | some b => rw [Option.getD_some]

end Standard

/-- A configuration with a key of zeros, as OpenVPN writes it. -/
def zerosText : String :=
  plain (["client", "remote vpn.example.com 1194"] ++ "<tls-auth>" ::
    (["# 2048 bit"] ++ "-----BEGIN OpenVPN Static key V1-----" ::
      (List.replicate 16 (String.ofList (List.replicate 32 '0')) ++ ["-----END OpenVPN Static key V1-----"]) ++
      "</tls-auth>" :: []))

theorem lineSequence_zerosText :
    lineSequence zerosText = ["client", "remote vpn.example.com 1194"] ++ "<tls-auth>" ::
      (["# 2048 bit"] ++ "-----BEGIN OpenVPN Static key V1-----" ::
        (List.replicate 16 (String.ofList (List.replicate 32 '0')) ++ ["-----END OpenVPN Static key V1-----"]) ++
        "</tls-auth>" :: []) := by
  refine lineSequence_plain (by simp) ?_
  decide +kernel

theorem standardBody_zeros :
    StandardBody (List.replicate 256 0) ["# 2048 bit"] "-----BEGIN OpenVPN Static key V1-----"
      (List.replicate 16 (String.ofList (List.replicate 32 '0'))) "-----END OpenVPN Static key V1-----" where
  comments := by decide +kernel
  first := by decide +kernel
  count := List.length_replicate
  width := by decide +kernel
  digits := by decide +kernel
  last := by decide +kernel

theorem trim_opening : trim "<tls-auth>" = opening .tlsAuth := by decide +kernel

theorem trim_closing : trim "</tls-auth>" = closing KeyTag.tlsAuth.name := by decide +kernel

theorem parseOvpn_key_zeros :
    (∃ t, parseOvpn zerosText = some t ∧ t.key .tlsAuth = some (List.replicate 256 0)) ↔
      Remote (items none (lineSequence zerosText)) ∧
        ∃ body, (bodies "tls-auth" (items none [])).getLast? = some body ∧ Spells body (List.replicate 256 0) :=
  parseOvpn_key_iff lineSequence_zerosText trim_opening standardBody_zeros trim_closing

theorem parseOvpn_loses_zeros :
    Remote (items none (lineSequence zerosText)) ∧
      ¬∃ t, parseOvpn zerosText = some t ∧ t.key .tlsAuth = some (List.replicate 256 0) := by
  have hitems := items_standard lineSequence_zerosText trim_opening standardBody_zeros trim_closing
  refine ⟨⟨"remote vpn.example.com 1194", "vpn.example.com", ["1194"], ?_, by decide +kernel⟩, fun h => ?_⟩
  · rw [hitems]
    exact List.mem_append_left _ (by decide +kernel)
  · obtain ⟨-, body, hbody, hspells⟩ := (parseOvpn_key _ _ _).1 h
    rw [bodies_standard lineSequence_zerosText trim_opening standardBody_zeros trim_closing] at hbody
    rw [← Option.some.inj hbody] at hspells
    exact hspells.1 standardBody_zeros.marked

/-! ## 6. The remote that is probed -/

/-- A remote: its host, and its port if the line has one. -/
structure RemoteLine where
  host : String
  port : Option Int
  deriving DecidableEq, Repr

/-- The remote of a directive. A port that is no number is read as the default one. -/
def remoteOf (line : String) : Option RemoteLine :=
  match splitSpaces line with
  | "remote" :: host :: rest => some ⟨host, rest.head?.map fun p => (parseIntOrNull p).getD 1194⟩
  | _ => none

/-- The remotes outside of every block, in their order. -/
def remoteLines (is : List Item) : List RemoteLine :=
  is.filterMap fun
    | .directive line => remoteOf line
    | .block _ _ => none

/-- A directive of another name. -/
theorem remoteOf_of_ne {line word : String} {rest : List String} (h : splitSpaces line = word :: rest)
    (hw : word ≠ "remote") : remoteOf line = none := by
  unfold remoteOf
  split
  · rename_i hs
    rw [h] at hs
    exact absurd (List.cons.inj hs).1 hw
  · rfl

/-- A directive overwrites the host, and the port where it has one. -/
theorem directive_remoteOf (f : Fields) (line : String) :
    (f.directive line).host = ((remoteOf line).map (·.host)).or f.host ∧
      (f.directive line).port = ((remoteOf line).bind (·.port)).getD f.port := by
  unfold Fields.directive
  split
  · rename_i host rest h
    have hr : remoteOf line = some ⟨host, rest.head?.map fun p => (parseIntOrNull p).getD 1194⟩ := by
      unfold remoteOf
      rw [h]
      rfl
    rw [hr]
    exact ⟨rfl, rfl⟩
  · rename_i h
    rw [remoteOf_of_ne h (by decide)]
    exact ⟨rfl, rfl⟩
  · rename_i h
    rw [remoteOf_of_ne h (by decide)]
    exact ⟨rfl, rfl⟩
  · rename_i h
    rw [remoteOf_of_ne h (by decide)]
    exact ⟨rfl, rfl⟩
  · rename_i h _ _ _
    have hr : remoteOf line = none := by
      unfold remoteOf
      split
      · rename_i host rest hs
        exact absurd hs (h host rest)
      · rfl
    rw [hr]
    exact ⟨rfl, rfl⟩

/-- The last host counts, and the last port. -/
theorem foldl_take_remoteLines (is : List Item) (f : Fields) :
    (is.foldl Fields.take f).host = ((remoteLines is).getLast?.map (·.host)).or f.host ∧
      (is.foldl Fields.take f).port = ((remoteLines is).filterMap (·.port)).getLast?.getD f.port := by
  induction is generalizing f with
  | nil => exact ⟨rfl, rfl⟩
  | cons i is ih =>
    rw [List.foldl_cons]
    obtain ⟨hhost, hport⟩ := ih (f.take i)
    rw [hhost, hport]
    cases i with
    | block t lines => exact ⟨rfl, rfl⟩
    | directive line =>
      obtain ⟨hlhost, hlport⟩ := directive_remoteOf f line
      show ((remoteLines is).getLast?.map _).or (f.directive line).host = _ ∧
        ((remoteLines is).filterMap _).getLast?.getD (f.directive line).port = _
      rw [hlhost, hlport]
      cases hr : remoteOf line with
      | none =>
        have hlines : remoteLines (.directive line :: is) = remoteLines is :=
          List.filterMap_cons_none hr
        rw [hlines]
        exact ⟨rfl, rfl⟩
      | some r =>
        have hlines : remoteLines (.directive line :: is) = r :: remoteLines is :=
          List.filterMap_cons_some hr
        rw [hlines, List.getLast?_cons]
        refine ⟨?_, ?_⟩
        · cases (remoteLines is).getLast? <;> rfl
        · cases hp : r.port with
          | none =>
            rw [List.filterMap_cons_none hp, Option.bind_some, hp]
            rfl
          | some n =>
            rw [List.filterMap_cons_some hp, List.getLast?_cons, Option.bind_some, hp]
            rfl

/-- **The first remote is probed** exactly where the last one names the same host, and the last port is
    that of the first one. -/
theorem parseOvpn_first_iff (text : String) (first : RemoteLine) (later : List RemoteLine)
    (h : remoteLines (items none (lineSequence text)) = first :: later) :
    (∃ t, parseOvpn text = some t ∧ t.host = first.host ∧ t.port = first.port.getD 1194) ↔
      (later.getLast?.getD first).host = first.host ∧
        (later.filterMap (·.port)).getLast?.getD (first.port.getD 1194) = first.port.getD 1194 := by
  have hfields := fields_foldl_next (lineSequence text) {} none ⟨rfl, fun p hp => absurd hp (by simp)⟩
  obtain ⟨hhost, hport⟩ := foldl_take_remoteLines (items none (lineSequence text)) {}
  rw [h] at hhost hport
  rw [← hfields, List.getLast?_cons, Option.map_some, Option.some_or] at hhost
  have hlast : ((first :: later).filterMap (·.port)).getLast?.getD 1194
      = (later.filterMap (·.port)).getLast?.getD (first.port.getD 1194) := by
    cases hp : first.port with
    | none =>
      rw [List.filterMap_cons_none hp]
      rfl
    | some n =>
      rw [List.filterMap_cons_some hp, List.getLast?_cons]
      rfl
  rw [← hfields, hlast] at hport
  unfold parseOvpn Fields.target
  rw [hhost, Option.map_some]
  constructor
  · rintro ⟨t, ht, hth, htp⟩
    cases ht
    exact ⟨hth, hport.symm.trans htp⟩
  · rintro ⟨hth, htp⟩
    exact ⟨_, rfl, hth, hport.trans htp⟩

/-- Two remotes of which only the first has a port. -/
def mixedText : String := "remote a.example 443\nremote b.example"

theorem remoteLines_mixedText :
    remoteLines (items none (lineSequence mixedText)) = [⟨"a.example", some 443⟩, ⟨"b.example", none⟩] := by
  decide +kernel

/-- The second remote names the host of the first one and no port. -/
theorem parseOvpn_first_again :
    ∃ t, parseOvpn "remote a.example 443\nremote a.example" = some t ∧ t.host = "a.example" ∧
      t.port = (some 443).getD 1194 := by
  have h : remoteLines (items none (lineSequence "remote a.example 443\nremote a.example"))
      = [⟨"a.example", some 443⟩, ⟨"a.example", none⟩] := by
    decide +kernel
  exact (parseOvpn_first_iff _ ⟨"a.example", some 443⟩ [⟨"a.example", none⟩] h).2 ⟨rfl, rfl⟩

/-- **The host of one line is probed at the port of another.** -/
theorem parseOvpn_mixes_lines :
    (remoteLines (items none (lineSequence mixedText))).head? = some ⟨"a.example", some 443⟩ ∧
      (parseOvpn mixedText).map (fun t => (t.host, t.port)) = some ("b.example", 443) := by
  rw [remoteLines_mixedText]
  exact ⟨rfl, by decide +kernel⟩

end SwiftVpn.DelayProbe
