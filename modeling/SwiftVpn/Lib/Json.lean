/-
  File:      SwiftVpn/Lib/Json.lean
  Subject:   JSON DOCUMENTS WITH THE READER AND THE WRITER OF Android's org.json.

  * `Json` -- a document. An object keeps its members in the order in which they were put; an array may
    hold a hole, which is what the reader makes of `[1,,2]`, and a number that is not finite, which
    only `JSONObject.put` refuses;
  * `put`, `remove`, `optString`, `getString`, `optObject`, `optArray`, `optInt`, `optLong`, `optBoolean` --
    `JSONObject`'s operations; `optString` writes out a value that is no string;
  * `render` -- `toString()`, of a document without such numbers (`finite`); of any other it is null
    (`finite_put`, `finite_of_lookup`: member by member);
  * `nextValue`, `ofText` -- `JSONTokener`, which takes comments, single quotes, unquoted texts, `=`
    and `=>` for `:`, and `;` for `,`; `ofText` is the constructor `JSONObject(text)`, `arrayOfText` is
    `JSONArray(text)`;
  * `Same` -- equality as JSON documents: the same value at every path, whatever the order of the
    members;
  * `ReadBack` -- a text, a number of 64 bits or a word is read back from what was written; for the
    containers see Lib/JsonLayout.lean;
  * `Readable`, `Readable.parts` -- what the reader can make of a text: its numbers have 64 bits.

  `Double` is what is kept of a floating point number: the two texts the writer can make of it.
  `Double.valueOf` is a parameter of the reader (`Doubles`): `none` where the text is no number,
  `some none` where the number is not finite. A text with an unpaired surrogate,
  which an escape can spell, is none of ours and is refused.
-/
import SwiftVpn.Lib.Percent
import SwiftVpn.Lib.Text

/-! ## 1. Documents -/

/-- A floating point number: what `String.valueOf` and what `JSONObject.numberToString` make of it. -/
structure Double where
  valueText : String
  jsonText : String
  head_valueText : valueText.toList.head?.any (fun c => c.isDigit || c == '-') = true
  deriving DecidableEq, Repr

/-- A JSON document. -/
inductive Json where
  | null
  | hole
  | bool (b : Bool)
  | int (n : Int)
  | double (d : Double)
  | nonFinite
  | str (s : String)
  | arr (elems : List Json)
  | obj (members : List (String × Json))

/-- `JSONObject`. -/
abbrev JsonObject := List (String × Json)

namespace JsonObject

/-- `put`: a member that exists is replaced where it stands. -/
def put (o : JsonObject) (name : String) (value : Json) : JsonObject :=
  match o with
  | [] => [(name, value)]
  | (k, v) :: rest => if k = name then (name, value) :: rest else (k, v) :: put rest name value

theorem lookup_put_self (o : JsonObject) (name : String) (value : Json) :
    (o.put name value).lookup name = some value := by
  induction o with
  | nil => simp [put]
  | cons m rest ih =>
    obtain ⟨k, v⟩ := m
    unfold put
    split
    · simp
    · rename_i hk
      rw [List.lookup_cons, beq_false_of_ne (Ne.symm hk), ih]

theorem lookup_put_of_ne {name other : String} (h : other ≠ name) (o : JsonObject) (value : Json) :
    (o.put name value).lookup other = o.lookup other := by
  induction o with
  | nil =>
    have hne : (other == name) = false := beq_false_of_ne h
    simp [put, List.lookup_cons, hne]
  | cons m rest ih =>
    obtain ⟨k, v⟩ := m
    unfold put
    split
    · rename_i hk
      subst hk
      have hne : (other == k) = false := beq_false_of_ne h
      rw [List.lookup_cons, List.lookup_cons, hne]
    · rw [List.lookup_cons, List.lookup_cons, ih]

/-- A member of a new name is appended. -/
theorem put_of_lookup_eq_none {o : JsonObject} {name : String} (h : o.lookup name = none)
    (value : Json) : o.put name value = o ++ [(name, value)] := by
  induction o with
  | nil => rfl
  | cons m rest ih =>
    obtain ⟨k, v⟩ := m
    rw [List.lookup_cons] at h
    cases hk : name == k with
    | true =>
      rw [hk] at h
      cases h
    | false =>
      rw [hk] at h
      have hne : k ≠ name := fun e => by simp [e] at hk
      unfold put
      rw [if_neg hne, ih h]
      rfl

/-- `remove`. -/
def remove (o : JsonObject) (name : String) : JsonObject := o.eraseP fun m => m.1 == name

/-- Several members taken out. -/
def removeAll (o : JsonObject) (names : List String) : JsonObject := names.foldl remove o

@[simp] theorem remove_cons_self (name : String) (v : Json) (o : JsonObject) :
    remove ((name, v) :: o) name = o := List.eraseP_cons_of_pos (beq_self_eq_true name)

theorem remove_cons_of_ne {k name : String} (h : k ≠ name) (v : Json) (o : JsonObject) :
    remove ((k, v) :: o) name = (k, v) :: remove o name :=
  List.eraseP_cons_of_neg (by simpa using h)

theorem remove_put_self (o : JsonObject) (name : String) (value : Json) :
    (o.put name value).remove name = o.remove name := by
  induction o with
  | nil => exact remove_cons_self name value []
  | cons m rest ih =>
    obtain ⟨k, v⟩ := m
    unfold put
    split
    · rename_i hk
      subst hk
      rw [remove_cons_self, remove_cons_self]
    · rename_i hk
      rw [remove_cons_of_ne hk, remove_cons_of_ne hk, ih]

theorem remove_put_of_ne {name other : String} (h : name ≠ other) (o : JsonObject) (value : Json) :
    (o.put name value).remove other = (o.remove other).put name value := by
  induction o with
  | nil => exact remove_cons_of_ne h value []
  | cons m rest ih =>
    obtain ⟨k, v⟩ := m
    by_cases hk : k = name
    · have hko : k ≠ other := fun e => h (hk.symm.trans e)
      rw [remove_cons_of_ne hko]
      unfold put
      rw [if_pos hk, if_pos hk, remove_cons_of_ne h]
    · by_cases hko : k = other
      · subst hko
        rw [remove_cons_self]
        conv_lhs => unfold put
        rw [if_neg hk, remove_cons_self]
      · rw [remove_cons_of_ne hko]
        unfold put
        rw [if_neg hk, if_neg hk, remove_cons_of_ne hko, ih]

theorem lookup_remove_of_ne {name other : String} (h : other ≠ name) (o : JsonObject) :
    (o.remove name).lookup other = o.lookup other := by
  induction o with
  | nil => rfl
  | cons m rest ih =>
    obtain ⟨k, v⟩ := m
    by_cases hk : k = name
    · subst hk
      rw [remove_cons_self, List.lookup_cons, beq_false_of_ne h]
    · rw [remove_cons_of_ne hk, List.lookup_cons, List.lookup_cons, ih]

end JsonObject

namespace Json

/-! ## 2. Writing -/

/-- One character between the quotes. -/
def quoteChar (c : Char) : List Char :=
  if c = '"' ∨ c = '\\' ∨ c = '/' then ['\\', c]
  else if c = '\t' then ['\\', 't']
  else if c.toNat = 8 then ['\\', 'b']
  else if c = '\n' then ['\\', 'n']
  else if c = '\r' then ['\\', 'r']
  else if c.toNat = 12 then ['\\', 'f']
  else if c.toNat ≤ 0x1F then
    ['\\', 'u', '0', '0', (Percent.hexDigit (c.toNat / 16)).toLower,
      (Percent.hexDigit (c.toNat % 16)).toLower]
  else [c]

/-- A text in quotes. -/
def quote (s : List Char) : List Char := '"' :: s.flatMap quoteChar ++ ['"']

mutual

/-- `toString()`, on the characters. -/
def renderChars : Json → List Char
  | .null => "null".toList
  | .hole => "null".toList
  | .bool b => (toString b).toList
  | .int n => (toString n).toList
  | .double d => d.jsonText.toList
  | .nonFinite => []
  | .str s => quote s.toList
  | .arr es => '[' :: renderElems es ++ [']']
  | .obj ms => '\x7b' :: renderMembers ms ++ ['\x7d']

/-- The elements of an array. -/
def renderElems : List Json → List Char
  | [] => []
  | e :: es => renderChars e ++ (match es with | [] => [] | _ => ',' :: renderElems es)

/-- The members of an object. -/
def renderMembers : List (String × Json) → List Char
  | [] => []
  | (k, v) :: ms =>
    quote k.toList ++ ':' :: renderChars v ++ (match ms with | [] => [] | _ => ',' :: renderMembers ms)

end

/-- `toString()`. -/
def render (v : Json) : String := String.ofList v.renderChars

mutual

/-- The document has no number that is not finite. -/
def finite : Json → Bool
  | .nonFinite => false
  | .arr es => finiteElems es
  | .obj ms => finiteMembers ms
  | _ => true

@[inherit_doc finite]
def finiteElems : List Json → Bool
  | [] => true
  | e :: es => e.finite && finiteElems es

@[inherit_doc finite]
def finiteMembers : List (String × Json) → Bool
  | [] => true
  | (_, v) :: ms => v.finite && finiteMembers ms

end

/-- `String.valueOf`: a string is itself, everything else is written out. -/
def text : Json → String
  | .str s => s
  | .double d => d.valueText
  | v => v.render

end Json

namespace JsonObject

/-- `optString`; what cannot be written out is as good as missing. -/
def optString (o : JsonObject) (name : String) (fallback : String := "") : String :=
  match o.lookup name with
  | some v => if v.finite then v.text else fallback
  | none => fallback

theorem optString_of_some {o : JsonObject} {name fallback : String} {v : Json}
    (h : o.lookup name = some v) :
    o.optString name fallback = if v.finite then v.text else fallback := by
  unfold optString
  rw [h]

theorem optString_of_none {o : JsonObject} {name fallback : String} (h : o.lookup name = none) :
    o.optString name fallback = fallback := by
  unfold optString
  rw [h]

/-- `getString`: no fallback. -/
def getString (o : JsonObject) (name : String) : Option String :=
  match o.lookup name with
  | some v => if v.finite then some v.text else none
  | none => none

/-- `optJSONObject`. -/
def optObject (o : JsonObject) (name : String) : Option JsonObject :=
  match o.lookup name with
  | some (.obj ms) => some ms
  | _ => none

/-- `optJSONArray`. -/
def optArray (o : JsonObject) (name : String) : Option (List Json) :=
  match o.lookup name with
  | some (.arr es) => some es
  | _ => none

/-- `optInt`, where `truncate` is `(int) Double.parseDouble`; a long is cut to 32 bits. -/
def optInt (truncate : String → Option Int) (o : JsonObject) (name : String) (fallback : Int := 0) : Int :=
  match o.lookup name with
  | some (.int n) => n.bmod (2 ^ 32)
  | some (.double d) => (truncate d.valueText).getD fallback
  | some (.str s) => (truncate s).getD fallback
  | _ => fallback

/-- `optLong`, where `truncate` is `(long) Double.parseDouble`. -/
def optLong (truncate : String → Option Int) (o : JsonObject) (name : String) (fallback : Int := 0) : Int :=
  match o.lookup name with
  | some (.int n) => n
  | some (.double d) => (truncate d.valueText).getD fallback
  | some (.str s) => (truncate s).getD fallback
  | _ => fallback

theorem optObject_congr {o o' : JsonObject} {name : String} (h : o.lookup name = o'.lookup name) :
    o.optObject name = o'.optObject name := by
  unfold optObject
  rw [h]

theorem optArray_congr {o o' : JsonObject} {name : String} (h : o.lookup name = o'.lookup name) :
    o.optArray name = o'.optArray name := by
  unfold optArray
  rw [h]

theorem optObject_remove_of_ne {name other : String} (h : other ≠ name) (o : JsonObject) :
    (o.remove name).optObject other = o.optObject other :=
  optObject_congr (lookup_remove_of_ne h o)

theorem lookup_of_optObject {o ms : JsonObject} {name : String} (h : o.optObject name = some ms) :
    o.lookup name = some (.obj ms) := by
  unfold optObject at h
  split at h
  · rename_i hl
    cases h
    exact hl
  · cases h

theorem lookup_of_optArray {o : JsonObject} {es : List Json} {name : String}
    (h : o.optArray name = some es) : o.lookup name = some (.arr es) := by
  unfold optArray at h
  split at h
  · rename_i hl
    cases h
    exact hl
  · cases h

/-- `optBoolean`. -/
def optBoolean (o : JsonObject) (name : String) (fallback : Bool := false) : Bool :=
  match o.lookup name with
  | some (.bool b) => b
  | some (.str s) =>
    if Text.equalsIgnoreCase s.toList "true".toList then true
    else if Text.equalsIgnoreCase s.toList "false".toList then false
    else fallback
  | _ => fallback

end JsonObject

/-! ## 3. Reading -/

/-- `Double.valueOf`. -/
abbrev Doubles := String → Option (Option Double)

namespace Json

/-- The text behind the end of the line. -/
def afterLine : List Char → List Char
  | [] => []
  | c :: cs => if c = '\r' ∨ c = '\n' then cs else afterLine cs

/-- The text behind the end of the comment, if it ends. -/
def afterComment : List Char → Option (List Char)
  | [] => none
  | c :: cs => if c = '*' ∧ cs.head? = some '/' then some cs.tail else afterComment cs

/-- `nextCleanInternal`: the text from the next character that is neither blank nor in a comment. -/
def cleanFrom : Nat → List Char → Option (List Char)
  | 0, cs => some cs
  | _ + 1, [] => some []
  | n + 1, c :: cs =>
    if c = '\t' ∨ c = ' ' ∨ c = '\n' ∨ c = '\r' then cleanFrom n cs
    else if c = '#' then cleanFrom n (afterLine cs)
    else if c = '/' then
      match cs with
      | '*' :: rest => (afterComment rest).bind (cleanFrom n)
      | '/' :: rest => cleanFrom n (afterLine rest)
      | _ => some (c :: cs)
    else some (c :: cs)

/-- The text from the next character that counts. -/
def clean (cs : List Char) : Option (List Char) := cleanFrom cs.length cs

/-- The value of four hexadecimal digits. `Integer.parseInt(s, 16)` also takes a sign before three of them,
    and digits of other scripts; here such an escape is refused. -/
def hexUnit (a b c d : Char) : Option Nat := do
  return 4096 * (← Percent.hexValue a) + 256 * (← Percent.hexValue b) +
    16 * (← Percent.hexValue c) + (← Percent.hexValue d)

/-- What an escaped character other than `u` stands for. -/
def escaped (c : Char) : Char :=
  if c = 't' then '\t'
  else if c = 'b' then Char.ofNat 8
  else if c = 'n' then '\n'
  else if c = 'r' then '\r'
  else if c = 'f' then Char.ofNat 12
  else c

/-- `nextString`: the UTF-16 units up to the closing quote, and the text behind it. -/
def nextUnits (quote : Char) : List Char → Option (List Nat × List Char)
  | [] => none
  | c :: cs =>
    if c = quote then some ([], cs)
    else if c = '\\' then
      match cs with
      | [] => none
      | e :: rest =>
        if e = 'u' then
          match rest with
          | x :: y :: z :: w :: rest =>
            match hexUnit x y z w with
            | some u => (nextUnits quote rest).map fun (us, r) => (u :: us, r)
            | none => none
          | _ => none
        else (nextUnits quote rest).map fun (us, r) => (Text.unitsOf (escaped e) ++ us, r)
    else (nextUnits quote cs).map fun (us, r) => (Text.unitsOf c ++ us, r)

/-- `nextString`. -/
def nextString (quote : Char) (cs : List Char) : Option (String × List Char) :=
  (nextUnits quote cs).bind fun (us, rest) =>
    (Text.fromUtf16 us).map fun s => (String.ofList s, rest)

/-- What ends an unquoted text. -/
def isDelimiter (c : Char) : Bool :=
  ['\x7b', '\x7d', '[', ']', '/', '\\', ':', ',', '=', ';', '#', ' ', '\t', '\r', '\n'].contains c ||
    c.toNat == 12

/-- `readLiteral`, on the text up to the delimiter. -/
def literal (doubles : Doubles) (cs : List Char) : Option Json :=
  if cs.isEmpty then none
  else if Text.equalsIgnoreCase cs "null".toList then some .null
  else if Text.equalsIgnoreCase cs "true".toList then some (.bool true)
  else if Text.equalsIgnoreCase cs "false".toList then some (.bool false)
  else
    let integral :=
      if cs.contains '.' then none
      else match cs with
        | '0' :: 'x' :: ds => Text.parseInteger 64 16 ds
        | '0' :: 'X' :: ds => Text.parseInteger 64 16 ds
        | '0' :: d :: ds => Text.parseInteger 64 8 (d :: ds)
        | ds => Text.parseInteger 64 10 ds
    match integral with
    | some n => some (.int n)
    | none =>
      match doubles (String.ofList cs) with
      | some (some d) => some (.double d)
      | some none => some .nonFinite
      | none => some (.str (String.ofList cs))

mutual

/-- `nextValue`: a value and the text behind it. -/
def nextValue (doubles : Doubles) : Nat → List Char → Option (Json × List Char)
  | 0, _ => none
  | n + 1, cs =>
    match clean cs with
    | none => none
    | some [] => none
    | some (c :: cs) =>
      if c = '\x7b' then
        match clean cs with
        | none => none
        | some rest =>
          if rest.head? = some '\x7d' then some (.obj [], rest.tail)
          else (readObject doubles n [] rest).map fun (ms, r) => (.obj ms, r)
      else if c = '[' then (readArray doubles n [] false cs).map fun (es, r) => (.arr es, r)
      else if c = '\'' ∨ c = '"' then (nextString c cs).map fun (s, r) => (.str s, r)
      else
        (literal doubles ((c :: cs).takeWhile (!isDelimiter ·))).map fun v =>
          (v, (c :: cs).dropWhile (!isDelimiter ·))

/-- `readObject`, behind the brace and the members `acc`. -/
def readObject (doubles : Doubles) : Nat → JsonObject → List Char → Option (JsonObject × List Char)
  | 0, _, _ => none
  | n + 1, acc, cs =>
    match nextValue doubles n cs with
    | some (.str name, cs) =>
      match clean cs with
      | some (sep :: cs) =>
        if sep = ':' ∨ sep = '=' then
          let cs := if cs.head? = some '>' then cs.tail else cs
          match nextValue doubles n cs with
          | some (.nonFinite, _) => none
          | some (value, cs) =>
            match clean cs with
            | some ('\x7d' :: cs) => some (acc.put name value, cs)
            | some (';' :: cs) => readObject doubles n (acc.put name value) cs
            | some (',' :: cs) => readObject doubles n (acc.put name value) cs
            | _ => none
          | none => none
        else none
      | _ => none
    | _ => none

/-- `readArray`, behind the bracket and the elements `acc`; `trailing` after a separator. -/
def readArray (doubles : Doubles) :
    Nat → List Json → Bool → List Char → Option (List Json × List Char)
  | 0, _, _, _ => none
  | n + 1, acc, trailing, cs =>
    match clean cs with
    | none => none
    | some [] => none
    | some (c :: cs) =>
      if c = ']' then some (if trailing then acc ++ [.hole] else acc, cs)
      else if c = ',' ∨ c = ';' then readArray doubles n (acc ++ [.hole]) true cs
      else
        match nextValue doubles n (c :: cs) with
        | some (value, cs) =>
          match clean cs with
          | some (']' :: cs) => some (acc ++ [value], cs)
          | some (',' :: cs) => readArray doubles n (acc ++ [value]) true cs
          | some (';' :: cs) => readArray doubles n (acc ++ [value]) true cs
          | _ => none
        | none => none

end

/-- The constructor `JSONObject(text)`; what follows the object is ignored. A byte order mark in front
    is skipped. -/
def ofText (doubles : Doubles) (s : String) : Option JsonObject :=
  let cs := if s.toList.head? = some '\uFEFF' then s.toList.tail else s.toList
  match nextValue doubles (2 * cs.length + 4) cs with
  | some (.obj ms, _) => some ms
  | _ => none

/-- The constructor `JSONArray(text)`, likewise. -/
def arrayOfText (doubles : Doubles) (s : String) : Option (List Json) :=
  let cs := if s.toList.head? = some '\uFEFF' then s.toList.tail else s.toList
  match nextValue doubles (2 * cs.length + 4) cs with
  | some (.arr es, _) => some es
  | _ => none

/-! ## 4. What can be written out -/

theorem finite_arr_iff (es : List Json) : (arr es).finite = true ↔ ∀ e ∈ es, e.finite = true := by
  have helems : finiteElems es = true ↔ ∀ e ∈ es, e.finite = true := by
    induction es with
    | nil => exact ⟨fun _ => nofun, fun _ => rfl⟩
    | cons e es ih => rw [finiteElems, Bool.and_eq_true, ih, List.forall_mem_cons]
  show finiteElems es = true ↔ _
  exact helems

theorem finite_cons (k : String) (v : Json) (ms : JsonObject) :
    (obj ((k, v) :: ms)).finite = (v.finite && (obj ms).finite) := by
  simp only [finite, finiteMembers]

/-- A member that is there, and the others. -/
theorem finite_of_lookup {o : JsonObject} {name : String} {v : Json} (h : o.lookup name = some v) :
    (obj o).finite = (v.finite && (obj (o.remove name)).finite) := by
  induction o with
  | nil => cases h
  | cons m rest ih =>
    obtain ⟨k, w⟩ := m
    by_cases hk : k = name
    · subst hk
      rw [List.lookup_cons, beq_self_eq_true] at h
      cases h
      rw [JsonObject.remove_cons_self, finite_cons]
    · rw [List.lookup_cons, beq_false_of_ne (Ne.symm hk)] at h
      rw [JsonObject.remove_cons_of_ne hk, finite_cons, finite_cons, ih h, Bool.and_left_comm]

/-- A member that was put, and the others. -/
theorem finite_put (o : JsonObject) (name : String) (v : Json) :
    (obj (o.put name v)).finite = (v.finite && (obj (o.remove name)).finite) := by
  rw [finite_of_lookup (JsonObject.lookup_put_self o name v), JsonObject.remove_put_self]

theorem finite_remove {o : JsonObject} (h : (obj o).finite = true) (name : String) :
    (obj (o.remove name)).finite = true := by
  induction o with
  | nil => exact h
  | cons m rest ih =>
    obtain ⟨k, v⟩ := m
    rw [finite_cons, Bool.and_eq_true] at h
    by_cases hk : k = name
    · subst hk
      rw [JsonObject.remove_cons_self]
      exact h.2
    · rw [JsonObject.remove_cons_of_ne hk, finite_cons, Bool.and_eq_true]
      exact ⟨h.1, ih h.2⟩

/-! ## 5. Equality of documents -/

/-- One step into a document. -/
inductive Step where
  | key (name : String)
  | index (i : Nat)
  deriving DecidableEq, Repr

/-- What stands at one place of a document, without what is below it. -/
inductive Leaf where
  | null
  | hole
  | bool (b : Bool)
  | int (n : Int)
  | double (d : Double)
  | nonFinite
  | str (s : String)
  | arr (length : Nat)
  | obj
  deriving DecidableEq, Repr

/-- The root of a document. -/
def leaf : Json → Leaf
  | .null => .null
  | .hole => .hole
  | .bool b => .bool b
  | .int n => .int n
  | .double d => .double d
  | .nonFinite => .nonFinite
  | .str s => .str s
  | .arr es => .arr es.length
  | .obj _ => .obj

/-- What stands at the end of a path. -/
def at? : List Step → Json → Option Leaf
  | [], v => some v.leaf
  | .key k :: path, .obj ms => (ms.lookup k).bind (at? path)
  | .index i :: path, .arr es => es[i]?.bind (at? path)
  | _ :: _, _ => none

/-- Equality as JSON documents: the same at every path. -/
def Same (a b : Json) : Prop := ∀ path, a.at? path = b.at? path

theorem Same.of_eq {a b : Json} (h : a = b) : Same a b := fun path => by rw [h]

/-- The members of documents that are the same are the same. -/
theorem Same.lookup {a b : JsonObject} (h : Same (.obj a) (.obj b)) {k : String} {x y : Json}
    (hx : a.lookup k = some x) (hy : b.lookup k = some y) : Same x y := by
  intro path
  have hpath := h (.key k :: path)
  unfold at? at hpath
  rwa [hx, hy] at hpath

/-! ## 6. What was written is read back -/

theorem clean_cons {c : Char} (h : ∀ d ∈ ['\t', ' ', '\n', '\r', '#', '/'], c ≠ d) (cs : List Char) :
    clean (c :: cs) = some (c :: cs) := by
  have h1 := h '\t' (by decide)
  have h2 := h ' ' (by decide)
  have h3 := h '\n' (by decide)
  have h4 := h '\r' (by decide)
  have h5 := h '#' (by decide)
  have h6 := h '/' (by decide)
  simp [clean, cleanFrom, h1, h2, h3, h4, h5, h6]

theorem hexUnit_control {n : Nat} (h : n < 256) :
    hexUnit '0' '0' (Percent.hexDigit (n / 16)).toLower (Percent.hexDigit (n % 16)).toLower
      = some n := by
  have hall : ∀ k < 16, Percent.hexValue (Percent.hexDigit k).toLower = some k := by decide
  have hzero : Percent.hexValue '0' = some 0 := by decide
  have hsum : 4096 * 0 + 256 * 0 + 16 * (n / 16) + n % 16 = n := by omega
  simp only [hexUnit, hzero, hall (n / 16) (by omega), hall (n % 16) (by omega),
    Option.bind_eq_bind, Option.bind_some, hsum]
  rfl

/-- The reader behind an escape other than that of a unit. -/
theorem nextUnits_escape {e : Char} (h : e ≠ 'u') (rest : List Char) :
    nextUnits '"' ('\\' :: e :: rest)
      = (nextUnits '"' rest).map fun (us, r) => (Text.unitsOf (escaped e) ++ us, r) := by
  conv_lhs => unfold nextUnits
  rw [if_neg (by decide), if_pos rfl]
  exact if_neg h

theorem nextUnits_plain {c : Char} (hq : c ≠ '"') (hb : c ≠ '\\') (rest : List Char) :
    nextUnits '"' (c :: rest)
      = (nextUnits '"' rest).map fun (us, r) => (Text.unitsOf c ++ us, r) := by
  conv_lhs => unfold nextUnits
  rw [if_neg hq, if_neg hb]

theorem nextUnits_quoteChar (c : Char) (rest : List Char) :
    nextUnits '"' (quoteChar c ++ rest)
      = (nextUnits '"' rest).map fun (us, r) => (Text.unitsOf c ++ us, r) := by
  have hnat : ∀ n, c.toNat = n → c = Char.ofNat n := by
    rintro n rfl
    exact (Char.ofNat_toNat c).symm
  unfold quoteChar
  split
  · rename_i hc
    have hu : c ≠ 'u' := by
      rintro rfl
      revert hc
      decide
    have hself : escaped c = c := by
      rcases hc with rfl | rfl | rfl <;> decide
    simp only [List.cons_append, List.nil_append]
    rw [nextUnits_escape hu, hself]
  · rename_i hc
    simp only [not_or] at hc
    split
    · rename_i he
      subst he
      exact nextUnits_escape (by decide) rest
    · split
      · rename_i he
        rw [hnat 8 he]
        exact nextUnits_escape (by decide) rest
      · split
        · rename_i he
          subst he
          exact nextUnits_escape (by decide) rest
        · split
          · rename_i he
            subst he
            exact nextUnits_escape (by decide) rest
          · split
            · rename_i he
              rw [hnat 12 he]
              exact nextUnits_escape (by decide) rest
            · split
              · -- a control character is spelled by its unit
                rename_i he
                have hunits : Text.unitsOf c = [c.toNat] := by
                  unfold Text.unitsOf
                  exact if_pos (by omega)
                simp only [List.cons_append, List.nil_append]
                conv_lhs => unfold nextUnits
                rw [if_neg (by decide), if_pos rfl]
                simp only [if_true]
                rw [hexUnit_control (by omega), hunits]
                rfl
              · exact nextUnits_plain hc.1 hc.2.1 rest

theorem nextUnits_quoted (s rest : List Char) :
    nextUnits '"' (s.flatMap quoteChar ++ '"' :: rest) = some (Text.toUtf16 s, rest) := by
  induction s with
  | nil =>
    rw [List.flatMap_nil, List.nil_append, nextUnits.eq_def]
    rfl
  | cons c s ih =>
    rw [List.flatMap_cons, List.append_assoc, nextUnits_quoteChar, ih]
    rfl

theorem nextString_quoted (s : String) (rest : List Char) :
    nextString '"' (s.toList.flatMap quoteChar ++ '"' :: rest) = some (s, rest) := by
  simp [nextString, nextUnits_quoted, Text.fromUtf16_toUtf16]

section Read

variable (doubles : Doubles)

theorem nextValue_quote (n : Nat) (s : String) (rest : List Char) :
    nextValue doubles (n + 1) (quote s.toList ++ rest) = some (.str s, rest) := by
  have htext : quote s.toList ++ rest
      = '"' :: (s.toList.flatMap quoteChar ++ '"' :: rest) := by
    simp [quote]
  rw [htext, nextValue, clean_cons (by simp)]
  simp only
  rw [if_neg (by decide), if_neg (by decide), if_pos (by decide), nextString_quoted]
  rfl

/-- The value is read back from what was written, in `f` steps and before any text that ends a
    literal. -/
structure ReadBack (f : Nat) (v : Json) : Prop where
  head : ∃ c cs, v.renderChars = c :: cs ∧
    c ∉ ['\t', ' ', '\n', '\r', '#', '/', '>', ']', ',', ';']
  read : ∀ n rest, (∃ c cs, rest = c :: cs ∧ isDelimiter c = true) →
    nextValue doubles (n + f) (v.renderChars ++ rest) = some (v, rest)

theorem readBack_str (s : String) : ReadBack doubles 1 (.str s) where
  head := ⟨'"', _, rfl, by decide⟩
  read n rest _ := nextValue_quote doubles n s rest

/-- A literal is read back, if it is one. -/
theorem readBack_literal {v : Json} {c : Char} {cs : List Char} (hchars : v.renderChars = c :: cs)
    (hplain : ∀ d ∈ c :: cs, isDelimiter d = false ∧ d ∉ ['\'', '"', '>'])
    (hliteral : literal doubles (c :: cs) = some v) : ReadBack doubles 1 v := by
  have hhead : ∀ d, isDelimiter d = true → c ≠ d := by
    rintro d hd rfl
    rw [(hplain c List.mem_cons_self).1] at hd
    cases hd
  have hquote := (hplain c List.mem_cons_self).2
  simp only [List.mem_cons, List.not_mem_nil, or_false, not_or] at hquote
  refine ⟨⟨c, cs, hchars, ?_⟩, fun n rest hrest => ?_⟩
  · intro hc
    have hcases : ∀ d ∈ ['\t', ' ', '\n', '\r', '#', '/', '>', ']', ',', ';'],
        isDelimiter d = true ∨ d = '>' := by decide
    rcases hcases c hc with h | h
    · exact hhead c h rfl
    · exact hquote.2.2 h
  · obtain ⟨d, ds, rfl, hd⟩ := hrest
    have hgo : ∀ x ∈ c :: cs, (!isDelimiter x) = true := fun x hx => by
      rw [(hplain x hx).1]
      rfl
    have htake : (c :: (cs ++ d :: ds)).takeWhile (!isDelimiter ·) = c :: cs := by
      rw [← List.cons_append, List.takeWhile_append_of_pos hgo, List.takeWhile_cons_of_neg (by simp [hd]),
        List.append_nil]
    have hdrop : (c :: (cs ++ d :: ds)).dropWhile (!isDelimiter ·) = d :: ds := by
      rw [← List.cons_append, List.dropWhile_append_of_pos hgo, List.dropWhile_cons_of_neg (by simp [hd])]
    have hclean : ∀ d ∈ ['\t', ' ', '\n', '\r', '#', '/'], c ≠ d := by
      intro d hd
      refine hhead d ?_
      revert d
      decide
    rw [hchars, List.cons_append, nextValue, clean_cons hclean]
    simp only
    rw [if_neg (hhead _ (by decide)), if_neg (hhead _ (by decide)),
      if_neg (fun h => h.elim hquote.1 hquote.2.1), htake, hliteral, hdrop]
    rfl

theorem readBack_null : ReadBack doubles 1 .null := by
  have hchars : renderChars .null = ['n', 'u', 'l', 'l'] := rfl
  exact readBack_literal doubles hchars (by decide) rfl

theorem readBack_bool (b : Bool) : ReadBack doubles 1 (.bool b) := by
  cases b with
  | true =>
    have hchars : renderChars (.bool true) = ['t', 'r', 'u', 'e'] := by decide
    exact readBack_literal doubles hchars (by decide) rfl
  | false =>
    have hchars : renderChars (.bool false) = ['f', 'a', 'l', 's', 'e'] := by decide
    exact readBack_literal doubles hchars (by decide) rfl

/-- What a decimal number is written with. -/
def numerals : List Char := ['-', '0', '1', '2', '3', '4', '5', '6', '7', '8', '9']

theorem mem_numerals_of_isDigit {c : Char} (h : c.isDigit = true) : c ∈ numerals := by
  have hall : ∀ k < 10, Char.ofNat (48 + k) ∈ numerals := by decide
  simp only [Char.isDigit, Bool.and_eq_true, decide_eq_true_eq] at h
  have hlo : 48 ≤ c.toNat := h.1
  have hhi : c.toNat ≤ 57 := h.2
  have hc : c = Char.ofNat (48 + (c.toNat - 48)) := by
    rw [Nat.add_sub_cancel' hlo, Char.ofNat_toNat]
  rw [hc]
  exact hall (c.toNat - 48) (by omega)

/-- No number but zero begins with a zero. -/
theorem head_toDigits {n : Nat} (h : 0 < n) : ∃ c cs, Nat.toDigits 10 n = c :: cs ∧ c ≠ '0' := by
  induction n using Nat.strongRecOn with
  | _ n ih =>
    by_cases hn : n < 10
    · have hall : ∀ k < 10, 0 < k → k.digitChar ≠ '0' := by decide
      exact ⟨n.digitChar, [], Nat.toDigits_of_lt_base hn, hall n hn h⟩
    · obtain ⟨c, cs, hcs, hc⟩ := ih (n / 10) (by omega) (by omega)
      rw [Nat.toDigits_of_base_le (by omega) (by omega), hcs]
      exact ⟨c, cs ++ [(n % 10).digitChar], rfl, hc⟩

/-- The text of a number. -/
theorem toString_int_chars (n : Int) :
    ∃ c cs, (toString n).toList = c :: cs ∧ (∀ d ∈ c :: cs, d ∈ numerals) ∧ (c = '0' → cs = []) := by
  have hdigits : ∀ k, ∀ d ∈ Nat.toDigits 10 k, d ∈ numerals := fun k d hd =>
    mem_numerals_of_isDigit (Nat.isDigit_of_mem_toDigits (by omega) (by omega) hd)
  rw [Int.toString_eq_repr, Int.repr_eq_if]
  split
  · rw [Nat.toList_repr]
    rcases Nat.eq_zero_or_pos n.toNat with hzero | hpos
    · rw [hzero]
      exact ⟨'0', [], Nat.toDigits_zero 10, by decide, fun _ => rfl⟩
    · obtain ⟨c, cs, hcs, hc⟩ := head_toDigits hpos
      exact ⟨c, cs, hcs, hcs ▸ hdigits n.toNat, fun he => absurd he hc⟩
  · rw [String.toList_append, Nat.toList_repr]
    refine ⟨'-', Nat.toDigits 10 (-n).toNat, rfl, fun d hd => ?_, nofun⟩
    rcases List.mem_cons.mp hd with rfl | hd
    · decide
    · exact hdigits _ d hd

theorem literal_int {n : Int} (hlo : -(2 ^ 63 : Int) ≤ n) (hhi : n < (2 ^ 63 : Int)) :
    literal doubles (toString n).toList = some (.int n) := by
  have hread : Text.parseInteger 64 10 (toString n).toList = some n :=
    Text.parseInteger_toString hlo hhi
  obtain ⟨c, cs, hchars, hmem, hzero⟩ := toString_int_chars n
  rw [hchars] at hread ⊢
  -- no word and no floating point number
  have hword : ∀ w ∈ ["null".toList, "true".toList, "false".toList],
      Text.equalsIgnoreCase (c :: cs) w = false := by
    have hfold : ∀ c ∈ numerals, ∀ d ∈ ['n', 't', 'f'], Text.foldCase c ≠ Text.foldCase d := by decide
    intro w hw
    have hhead : ∃ d ds, w = d :: ds ∧ d ∈ ['n', 't', 'f'] := by
      simp only [List.mem_cons, List.not_mem_nil, or_false] at hw
      rcases hw with rfl | rfl | rfl
      · exact ⟨'n', _, rfl, by decide⟩
      · exact ⟨'t', _, rfl, by decide⟩
      · exact ⟨'f', _, rfl, by decide⟩
    obtain ⟨d, ds, rfl, hd⟩ := hhead
    refine beq_false_of_ne fun h => ?_
    exact hfold c (hmem c List.mem_cons_self) d hd (List.cons.inj h).1
  have hpoint : (c :: cs).contains '.' = false := by
    rw [List.contains_eq_mem, decide_eq_false_iff_not]
    intro h
    exact absurd (hmem '.' h) (by decide)
  have hbase : (match c :: cs with
      | '0' :: 'x' :: ds => Text.parseInteger 64 16 ds
      | '0' :: 'X' :: ds => Text.parseInteger 64 16 ds
      | '0' :: d :: ds => Text.parseInteger 64 8 (d :: ds)
      | ds => Text.parseInteger 64 10 ds) = some n := by
    split
    · rename_i heq
      cases heq
      cases hzero rfl
    · rename_i heq
      cases heq
      cases hzero rfl
    · rename_i heq
      cases heq
      cases hzero rfl
    · exact hread
  unfold literal
  rw [if_neg (by simp), hword _ (by simp), hword _ (by simp), hword _ (by simp), hpoint]
  simp only [Bool.false_eq_true, if_false, hbase]

/-- A number of 64 bits is read back. -/
theorem readBack_int {n : Int} (hlo : -(2 ^ 63 : Int) ≤ n) (hhi : n < (2 ^ 63 : Int)) :
    ReadBack doubles 1 (.int n) := by
  obtain ⟨c, cs, hchars, hmem, -⟩ := toString_int_chars n
  have hplain : ∀ c ∈ numerals, isDelimiter c = false ∧ c ∉ ['\'', '"', '>'] := by decide
  have hlit := literal_int doubles hlo hhi
  rw [hchars] at hlit
  exact readBack_literal doubles hchars (fun d hd => hplain d (hmem d hd)) hlit

end Read

/-! ## 7. What can be read -/

section Readable

variable {doubles : Doubles}

theorem mem_put {o : JsonObject} {name : String} {value : Json} {m : String × Json}
    (h : m ∈ o.put name value) : m ∈ o ∨ m.2 = value := by
  induction o with
  | nil =>
    rw [List.mem_singleton.1 h]
    exact .inr rfl
  | cons p rest ih =>
    obtain ⟨k, v⟩ := p
    unfold JsonObject.put at h
    split at h
    · rcases List.mem_cons.1 h with rfl | h
      · exact .inr rfl
      · exact .inl (List.mem_cons_of_mem _ h)
    · rcases List.mem_cons.1 h with rfl | h
      · exact .inl List.mem_cons_self
      · exact (ih h).imp_left (List.mem_cons_of_mem _)

/-- A value that the reader makes of some text. -/
def Readable (doubles : Doubles) (v : Json) : Prop := ∃ n cs rest, nextValue doubles n cs = some (v, rest)

/-- What the reader of an object does: one member, and then the end or the others. -/
theorem readObject_cases {n : Nat} {acc ms : JsonObject} {cs rest : List Char}
    (h : readObject doubles (n + 1) acc cs = some (ms, rest)) :
    ∃ name value, Readable doubles value ∧ (ms = acc.put name value ∨
      ∃ cs', readObject doubles n (acc.put name value) cs' = some (ms, rest)) := by
  unfold readObject at h
  split at h
  · rename_i name _ _
    split at h
    · split at h
      · dsimp only at h
        split at h
        · cases h
        · rename_i value _ _ hvalue
          refine ⟨name, value, ⟨_, _, _, hvalue⟩, ?_⟩
          split at h
          · exact .inl (congrArg Prod.fst (Option.some.inj h)).symm
          · exact .inr ⟨_, h⟩
          · exact .inr ⟨_, h⟩
          · cases h
        · cases h
      · cases h
    · cases h
  · cases h

/-- The members of an object that was read were read. -/
theorem readObject_readable {n : Nat} {acc ms : JsonObject} {cs rest : List Char}
    (h : readObject doubles n acc cs = some (ms, rest)) (hacc : ∀ m ∈ acc, Readable doubles m.2) :
    ∀ m ∈ ms, Readable doubles m.2 := by
  induction n generalizing acc cs with
  | zero => cases h
  | succ n ih =>
    obtain ⟨name, value, hvalue, hms⟩ := readObject_cases h
    have hput : ∀ m ∈ acc.put name value, Readable doubles m.2 := fun m hm =>
      (mem_put hm).elim (hacc m) fun he => he ▸ hvalue
    rcases hms with rfl | ⟨cs', h'⟩
    · exact hput
    · exact ih h' hput

/-- What the reader of an array does: one element or a hole, and then the end or the others. -/
theorem readArray_cases {n : Nat} {acc es : List Json} {trailing : Bool} {cs rest : List Char}
    (h : readArray doubles (n + 1) acc trailing cs = some (es, rest)) :
    es = acc ∨ ∃ e, (e = .hole ∨ Readable doubles e) ∧ (es = acc ++ [e] ∨
      ∃ cs', readArray doubles n (acc ++ [e]) true cs' = some (es, rest)) := by
  unfold readArray at h
  split at h
  · cases h
  · cases h
  · split at h
    · have he := (congrArg Prod.fst (Option.some.inj h)).symm
      dsimp only at he
      split at he
      · exact .inr ⟨.hole, .inl rfl, .inl he⟩
      · exact .inl he
    · split at h
      · exact .inr ⟨.hole, .inl rfl, .inr ⟨_, h⟩⟩
      · split at h
        · rename_i value _ hvalue
          refine .inr ⟨value, .inr ⟨_, _, _, hvalue⟩, ?_⟩
          split at h
          · exact .inl (congrArg Prod.fst (Option.some.inj h)).symm
          · exact .inr ⟨_, h⟩
          · exact .inr ⟨_, h⟩
          · cases h
        · cases h

/-- The elements of an array that was read are holes or were read. -/
theorem readArray_readable {n : Nat} {acc es : List Json} {trailing : Bool} {cs rest : List Char}
    (h : readArray doubles n acc trailing cs = some (es, rest))
    (hacc : ∀ e ∈ acc, e = .hole ∨ Readable doubles e) : ∀ e ∈ es, e = .hole ∨ Readable doubles e := by
  induction n generalizing acc trailing cs with
  | zero => cases h
  | succ n ih =>
    rcases readArray_cases h with rfl | ⟨e, he, hes⟩
    · exact hacc
    · have hconcat : ∀ e' ∈ acc ++ [e], e' = .hole ∨ Readable doubles e' := fun e' he' =>
        (List.mem_append.1 he').elim (hacc e') fun hm => List.mem_singleton.1 hm ▸ he
      rcases hes with rfl | ⟨cs', h'⟩
      · exact hconcat
      · exact ih h' hconcat

/-- What is known of a value that was read: the numbers have 64 bits, and the parts were read. -/
structure Parts (doubles : Doubles) (v : Json) : Prop where
  members : ∀ ms, v = .obj ms → ∀ m ∈ ms, Readable doubles m.2
  elements : ∀ es, v = .arr es → ∀ e ∈ es, e = .hole ∨ Readable doubles e
  long : ∀ n, v = .int n → -(2 ^ 63 : Int) ≤ n ∧ n < (2 ^ 63 : Int)

theorem parts_obj {ms : JsonObject} (h : ∀ m ∈ ms, Readable doubles m.2) : Parts doubles (.obj ms) where
  members ms' he := by
    cases he
    exact h
  elements es he := by cases he
  long n he := by cases he

theorem parts_arr {es : List Json} (h : ∀ e ∈ es, e = .hole ∨ Readable doubles e) :
    Parts doubles (.arr es) where
  members ms he := by cases he
  elements es' he := by
    cases he
    exact h
  long n he := by cases he

theorem parts_int {n : Int} (h : -(2 ^ 63 : Int) ≤ n ∧ n < (2 ^ 63 : Int)) : Parts doubles (.int n) where
  members ms he := by cases he
  elements es he := by cases he
  long n' he := by
    cases he
    exact h

theorem parts_other {v : Json} (hobj : ∀ ms, v ≠ .obj ms) (harr : ∀ es, v ≠ .arr es)
    (hint : ∀ n, v ≠ .int n) : Parts doubles v where
  members ms he := absurd he (hobj ms)
  elements es he := absurd he (harr es)
  long n he := absurd he (hint n)

theorem parts_str (s : String) : Parts doubles (.str s) := by apply parts_other <;> simp

theorem parts_literal {cs : List Char} {v : Json} (h : literal doubles cs = some v) : Parts doubles v := by
  unfold literal at h
  split at h
  · cases h
  split at h
  · cases h
    apply parts_other <;> simp
  split at h
  · cases h
    apply parts_other <;> simp
  split at h
  · cases h
    apply parts_other <;> simp
  dsimp only at h
  split at h
  · rename_i n hn
    cases h
    split at hn
    · cases hn
    · split at hn
      all_goals exact parts_int (Text.parseInteger_bounds hn)
  · split at h
    all_goals
      cases h
      apply parts_other <;> simp

/-- **What was read consists of what was read**, and its numbers have 64 bits. -/
theorem Readable.parts {v : Json} (h : Readable doubles v) : Parts doubles v := by
  obtain ⟨n, cs, rest, h⟩ := h
  cases n with
  | zero =>
    rw [nextValue] at h
    cases h
  | succ n =>
    rw [nextValue] at h
    split at h
    · cases h
    · cases h
    split at h
    · split at h
      · cases h
      split at h
      · cases h
        exact parts_obj fun m hm => absurd hm List.not_mem_nil
      · obtain ⟨⟨ms, r⟩, hread, he⟩ := Option.map_eq_some_iff.1 h
        cases he
        exact parts_obj (readObject_readable hread fun m hm => absurd hm List.not_mem_nil)
    split at h
    · obtain ⟨⟨es, r⟩, hread, he⟩ := Option.map_eq_some_iff.1 h
      cases he
      exact parts_arr (readArray_readable hread fun e he => absurd he List.not_mem_nil)
    split at h
    · obtain ⟨⟨s, r⟩, -, he⟩ := Option.map_eq_some_iff.1 h
      cases he
      exact parts_str s
    · obtain ⟨w, hliteral, he⟩ := Option.map_eq_some_iff.1 h
      cases he
      exact parts_literal hliteral

theorem arrayOfText_readable {s : String} {es : List Json} (h : arrayOfText doubles s = some es) :
    Readable doubles (.arr es) := by
  unfold arrayOfText at h
  dsimp only at h
  split at h
  · rename_i hvalue
    cases h
    exact ⟨_, _, _, hvalue⟩
  · cases h

end Readable

/-- The members of an object of texts, as the writer puts them. -/
def texts (ms : List (String × String)) : JsonObject := ms.map fun (k, v) => (k, .str v)

end Json
