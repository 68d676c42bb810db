/-
  File:      SwiftVpn/Lib/JsonLayout.lean
  Subject:   JSON DOCUMENTS WRITTEN OUT WITH BLANKS, AND READ BACK.

  * `Layout` -- where the writer puts blanks: `compact` is `toString()`, `indented n` is `toString(n)`;
  * `laid`, `layOut` -- the writer; `laid_compact`: without blanks it is `render`;
  * `plain` -- the documents that the writer does not change: the numbers are integers of 64 bits, nothing
    is missing, and no two members of an object have one name;
  * `Reads`, `reads_laid` -- a text is read as a document, with as many steps as it is long;
  * `ofText_layOut` -- a plain object is read back from what was written, whatever the layout;
    `ofText_render` -- an object of texts; `arrayOfText_render` -- an array;
  * `Escaped`, `escaped_renderChars` -- `toString()` puts a backslash before every slash.
-/
import SwiftVpn.Lib.Json

namespace Json

/-! ## 1. Writing -/

/-- Where blanks stand: before an element or a member of a container, and before its end, at a depth;
    and behind a colon. -/
structure Layout where
  gap : Nat → List Char
  afterColon : List Char
  blank_gap : ∀ depth, ∀ c ∈ gap depth, c = ' ' ∨ c = '\n'
  blank_afterColon : ∀ c ∈ afterColon, c = ' ' ∨ c = '\n'

/-- The layout of `toString()`. -/
def compact : Layout where
  gap _ := []
  afterColon := []
  blank_gap _ _ h := absurd h List.not_mem_nil
  blank_afterColon _ h := absurd h List.not_mem_nil

@[simp] theorem gap_compact (depth : Nat) : compact.gap depth = [] := rfl

@[simp] theorem afterColon_compact : compact.afterColon = [] := rfl

/-- The layout of `toString(indentSpaces)`: a line for each element and member. -/
def indented (indentSpaces : Nat) : Layout where
  gap depth := '\n' :: List.replicate (depth * indentSpaces) ' '
  afterColon := [' ']
  blank_gap _ c hc := by
    rcases List.mem_cons.1 hc with rfl | hc
    · exact .inr rfl
    · exact .inl (List.eq_of_mem_replicate hc)
  blank_afterColon c hc := .inl (List.mem_singleton.1 hc)

mutual

/-- A document, on the characters. An empty container has no blanks in it. -/
def laid (l : Layout) (depth : Nat) : Json → List Char
  | .arr es => '[' :: laidElems l (depth + 1) es ++ (if es.isEmpty then [] else l.gap depth) ++ [']']
  | .obj ms =>
    '\x7b' :: laidMembers l (depth + 1) ms ++ (if ms.isEmpty then [] else l.gap depth) ++ ['\x7d']
  | v => v.renderChars

/-- The elements of an array. -/
def laidElems (l : Layout) (depth : Nat) : List Json → List Char
  | [] => []
  | e :: es =>
    l.gap depth ++ laid l depth e ++ (match es with | [] => [] | _ => ',' :: laidElems l depth es)

/-- The members of an object. -/
def laidMembers (l : Layout) (depth : Nat) : List (String × Json) → List Char
  | [] => []
  | (k, v) :: ms =>
    l.gap depth ++ quote k.toList ++ ':' :: l.afterColon ++ laid l depth v ++
      (match ms with | [] => [] | _ => ',' :: laidMembers l depth ms)

end

/-- The text of a document. -/
def layOut (l : Layout) (v : Json) : String := String.ofList (laid l 0 v)

mutual

theorem laid_compact (depth : Nat) : ∀ v : Json, laid compact depth v = v.renderChars
  | .arr es => by
    have hes := laidElems_compact (depth + 1) es
    simp [laid, renderChars, hes]
  | .obj ms => by
    have hms := laidMembers_compact (depth + 1) ms
    simp [laid, renderChars, hms]
  | .null | .hole | .bool _ | .int _ | .double _ | .nonFinite | .str _ => rfl

theorem laidElems_compact (depth : Nat) : ∀ es, laidElems compact depth es = renderElems es
  | [] => rfl
  | e :: es => by
    have he := laid_compact depth e
    have hes := laidElems_compact depth es
    cases es with
    | nil => simp [laidElems, renderElems, he]
    | cons e' es =>
      unfold laidElems renderElems
      rw [he, hes]
      rfl

theorem laidMembers_compact (depth : Nat) : ∀ ms, laidMembers compact depth ms = renderMembers ms
  | [] => rfl
  | (k, v) :: ms => by
    have hv := laid_compact depth v
    have hms := laidMembers_compact depth ms
    cases ms with
    | nil => simp [laidMembers, renderMembers, hv]
    | cons m ms =>
      unfold laidMembers renderMembers
      rw [hv, hms]
      simp

end

/-- Without blanks it is `toString()`. -/
theorem layOut_compact (v : Json) : layOut compact v = v.render := by
  unfold layOut render
  rw [laid_compact]

/-! ## 2. The documents that are not changed -/

mutual

/-- Integers of 64 bits, no floating point numbers, no holes, and one member of a name. -/
def plain : Json → Bool
  | .null | .bool _ | .str _ => true
  | .int n => decide (-(2 ^ 63 : Int) ≤ n ∧ n < (2 ^ 63 : Int))
  | .arr es => plainElems es
  | .obj ms => decide (ms.map Prod.fst).Nodup && plainMembers ms
  | .hole | .double _ | .nonFinite => false

@[inherit_doc plain]
def plainElems : List Json → Bool
  | [] => true
  | e :: es => e.plain && plainElems es

@[inherit_doc plain]
def plainMembers : List (String × Json) → Bool
  | [] => true
  | (_, v) :: ms => v.plain && plainMembers ms

end

theorem plainElems_iff (es : List Json) : plainElems es = true ↔ ∀ e ∈ es, e.plain = true := by
  induction es with
  | nil => exact ⟨fun _ _ h => absurd h List.not_mem_nil, fun _ => rfl⟩
  | cons e es ih => rw [plainElems, Bool.and_eq_true, ih, List.forall_mem_cons]

theorem plainMembers_iff (ms : JsonObject) : plainMembers ms = true ↔ ∀ m ∈ ms, m.2.plain = true := by
  induction ms with
  | nil => exact ⟨fun _ _ h => absurd h List.not_mem_nil, fun _ => rfl⟩
  | cons m ms ih => rw [plainMembers, Bool.and_eq_true, ih, List.forall_mem_cons]

/-- An object of plain members. -/
theorem plain_obj_iff (ms : JsonObject) :
    (obj ms).plain = true ↔ (ms.map Prod.fst).Nodup ∧ ∀ m ∈ ms, m.2.plain = true := by
  rw [plain, Bool.and_eq_true, decide_eq_true_iff, plainMembers_iff]

theorem plain_arr_iff (es : List Json) : (arr es).plain = true ↔ ∀ e ∈ es, e.plain = true := by
  rw [plain, plainElems_iff]

theorem ne_nonFinite_of_plain {ms : JsonObject} (h : ∀ m ∈ ms, m.2.plain = true) :
    ∀ m ∈ ms, m.2 ≠ .nonFinite := by
  intro m hm he
  have hplain := h m hm
  rw [he] at hplain
  cases hplain

/-! ## 3. Blanks in front of what is read -/

section Blank

variable {blanks : List Char}

theorem cleanFrom_append (h : ∀ c ∈ blanks, c = ' ' ∨ c = '\n') (n : Nat) (cs : List Char) :
    cleanFrom (blanks.length + n) (blanks ++ cs) = cleanFrom n cs := by
  induction blanks with
  | nil => rw [List.length_nil, Nat.zero_add, List.nil_append]
  | cons b bs ih =>
    obtain ⟨hb, hbs⟩ := List.forall_mem_cons.1 h
    have hblank : b = '\t' ∨ b = ' ' ∨ b = '\n' ∨ b = '\r' := .inr (hb.imp_right .inl)
    rw [List.length_cons, Nat.add_right_comm, List.cons_append]
    conv_lhs => unfold cleanFrom
    rw [if_pos hblank, ih hbs]

theorem clean_append (h : ∀ c ∈ blanks, c = ' ' ∨ c = '\n') (cs : List Char) :
    clean (blanks ++ cs) = clean cs := by
  unfold clean
  rw [List.length_append, cleanFrom_append h]

theorem nextValue_append (doubles : Doubles) (h : ∀ c ∈ blanks, c = ' ' ∨ c = '\n') (n : Nat)
    (cs : List Char) : nextValue doubles n (blanks ++ cs) = nextValue doubles n cs := by
  cases n with
  | zero => rw [nextValue, nextValue]
  | succ n => rw [nextValue, nextValue, clean_append h]

theorem readObject_append (doubles : Doubles) (h : ∀ c ∈ blanks, c = ' ' ∨ c = '\n') (n : Nat)
    (acc : JsonObject) (cs : List Char) :
    readObject doubles n acc (blanks ++ cs) = readObject doubles n acc cs := by
  cases n with
  | zero => rw [readObject, readObject]
  | succ n => rw [readObject, readObject, nextValue_append doubles h]

/-- Blanks end a literal, as what ends one does. -/
theorem delimited_append (h : ∀ c ∈ blanks, c = ' ' ∨ c = '\n') {c : Char} (hc : isDelimiter c = true)
    (cs : List Char) : ∃ d ds, blanks ++ c :: cs = d :: ds ∧ isDelimiter d = true := by
  cases blanks with
  | nil => exact ⟨c, cs, rfl, hc⟩
  | cons b bs =>
    refine ⟨b, bs ++ c :: cs, rfl, ?_⟩
    rcases h b List.mem_cons_self with rfl | rfl
    · decide
    · decide

end Blank

/-! ## 4. What was written is read back -/

section Reads

variable (doubles : Doubles)

/-- The text is read as the value, in `f` steps and before any text that ends a literal. -/
structure Reads (f : Nat) (cs : List Char) (v : Json) : Prop where
  head : ∃ c rest, cs = c :: rest ∧ c ∉ ['\t', ' ', '\n', '\r', '#', '/', '>', ']', ',', ';']
  read : ∀ n rest, f ≤ n → (∃ c ds, rest = c :: ds ∧ isDelimiter c = true) →
    nextValue doubles n (cs ++ rest) = some (v, rest)

variable {doubles} {f : Nat}

theorem ReadBack.reads {v : Json} (h : ReadBack doubles f v) : Reads doubles f v.renderChars v where
  head := h.head
  read n rest hn hrest := by
    obtain ⟨m, rfl⟩ := Nat.exists_eq_add_of_le hn
    rw [Nat.add_comm]
    exact h.read m rest hrest

theorem Reads.mono {g : Nat} {cs : List Char} {v : Json} (h : Reads doubles f cs v) (hle : f ≤ g) :
    Reads doubles g cs v where
  head := h.head
  read n rest hn := h.read n rest (Nat.le_trans hle hn)

theorem Reads.length_pos {cs : List Char} {v : Json} (h : Reads doubles f cs v) : 0 < cs.length := by
  obtain ⟨c, rest, rfl, -⟩ := h.head
  exact Nat.succ_pos _

theorem Reads.two_mul_length {cs : List Char} {v : Json} (h : Reads doubles f cs v) :
    1 ≤ 2 * cs.length := by
  have := h.length_pos
  omega

/-- No text of a value begins with what stands behind a separator. -/
theorem Reads.not_arrow {cs : List Char} {v : Json} (h : Reads doubles f cs v) (rest : List Char) :
    (cs ++ rest).head? ≠ some '>' := by
  obtain ⟨c, cs, rfl, hc⟩ := h.head
  intro he
  obtain rfl : c = '>' := Option.some.inj he
  simp at hc

variable {blanks : List Char}

/-- One element of an array, behind blanks. -/
theorem Reads.element {cs : List Char} {e : Json} (he : Reads doubles f cs e)
    (hblanks : ∀ c ∈ blanks, c = ' ' ∨ c = '\n') (acc : List Json) (trailing : Bool) {n : Nat}
    (hn : f ≤ n) {rest : List Char} (hrest : ∃ c ds, rest = c :: ds ∧ isDelimiter c = true) {d : Char}
    {after : List Char} (hclean : clean rest = some (d :: after)) (hd : d = ']' ∨ d = ',') :
    readArray doubles (n + 1) acc trailing (blanks ++ (cs ++ rest)) =
      if d = ']' then some (acc ++ [e], after) else readArray doubles n (acc ++ [e]) true after := by
  have hread := he.read n rest hn hrest
  obtain ⟨c, cs, rfl, hc⟩ := he.head
  simp only [List.mem_cons, List.not_mem_nil, or_false, not_or] at hc
  rw [List.cons_append] at hread ⊢
  rw [readArray, clean_append hblanks, clean_cons (by simp [hc])]
  simp only
  rw [if_neg hc.2.2.2.2.2.2.2.1, if_neg (by simp [hc])]
  simp only [hread, hclean]
  rcases hd with rfl | rfl
  · exact (if_pos rfl).symm
  · exact (if_neg (by decide)).symm

/-- One member of an object, behind blanks. -/
theorem Reads.member {cs afterColon : List Char} {v : Json} (hv : Reads doubles f cs v)
    (hfinite : v ≠ .nonFinite) (hblanks : ∀ c ∈ blanks, c = ' ' ∨ c = '\n')
    (hcolon : ∀ c ∈ afterColon, c = ' ' ∨ c = '\n') (acc : JsonObject) (k : String) {n : Nat}
    (hn : f ≤ n) (hpos : 0 < n) {rest : List Char}
    (hrest : ∃ c ds, rest = c :: ds ∧ isDelimiter c = true) {d : Char} {after : List Char}
    (hclean : clean rest = some (d :: after)) (hd : d = '\x7d' ∨ d = ',') :
    readObject doubles (n + 1) acc
        (blanks ++ (quote k.toList ++ ':' :: (afterColon ++ (cs ++ rest)))) =
      if d = '\x7d' then some (acc.put k v, after) else readObject doubles n (acc.put k v) after := by
  obtain ⟨m, rfl⟩ := Nat.exists_eq_succ_of_ne_zero (Nat.pos_iff_ne_zero.1 hpos)
  have hread : nextValue doubles (m + 1) (afterColon ++ (cs ++ rest)) = some (v, rest) := by
    rw [nextValue_append doubles hcolon]
    exact hv.read (m + 1) rest hn hrest
  have harrow : (afterColon ++ (cs ++ rest)).head? ≠ some '>' := by
    cases afterColon with
    | nil => exact hv.not_arrow rest
    | cons a as =>
      intro he
      obtain rfl : a = '>' := Option.some.inj he
      exact absurd (hcolon '>' List.mem_cons_self) (by decide)
  rw [readObject, nextValue_append doubles hblanks, nextValue_quote]
  simp only
  rw [clean_cons (by simp)]
  simp only
  rw [if_pos (by decide), if_neg harrow]
  simp only [hread, hclean]
  rcases hd with rfl | rfl
  · exact (if_pos rfl).symm
  · exact (if_neg (by decide)).symm

/-- The elements of an array, each of which is read. -/
theorem readArray_laidElems (l : Layout) (depth : Nat) (es : List Json) (hne : es ≠ [])
    (hes : ∀ e ∈ es, Reads doubles (2 * (laid l depth e).length) (laid l depth e) e)
    (acc : List Json) (trailing : Bool) {n : Nat} (hn : 2 * (laidElems l depth es).length + 1 ≤ n)
    {outer : List Char} (houter : ∀ c ∈ outer, c = ' ' ∨ c = '\n') (rest : List Char) :
    readArray doubles n acc trailing (laidElems l depth es ++ (outer ++ ']' :: rest))
      = some (acc ++ es, rest) := by
  induction es generalizing acc trailing n with
  | nil => exact absurd rfl hne
  | cons e es ih =>
    have he := hes e List.mem_cons_self
    obtain ⟨m, rfl⟩ : ∃ m, n = m + 1 := ⟨n - 1, by omega⟩
    cases es with
    | nil =>
      have htext : laidElems l depth [e] ++ (outer ++ ']' :: rest)
          = l.gap depth ++ (laid l depth e ++ (outer ++ ']' :: rest)) := by
        simp [laidElems]
      have hlen : (laid l depth e).length ≤ (laidElems l depth [e]).length := by
        simp [laidElems]
      have hclean : clean (outer ++ ']' :: rest) = some (']' :: rest) := by
        rw [clean_append houter, clean_cons (by simp)]
      rw [htext, he.element (l.blank_gap depth) acc trailing (by omega)
        (delimited_append houter (by decide) rest) hclean (.inl rfl), if_pos rfl]
    | cons e' es =>
      have htext : laidElems l depth (e :: e' :: es) ++ (outer ++ ']' :: rest)
          = l.gap depth ++ (laid l depth e ++
              ',' :: (laidElems l depth (e' :: es) ++ (outer ++ ']' :: rest))) := by
        simp [laidElems]
      have hlen : (laid l depth e).length + 1 + (laidElems l depth (e' :: es)).length
          ≤ (laidElems l depth (e :: e' :: es)).length := by
        conv_rhs => unfold laidElems
        simp only [List.length_append, List.length_cons]
        omega
      rw [htext, he.element (l.blank_gap depth) acc trailing (by omega) ⟨',', _, rfl, by decide⟩
        (clean_cons (by simp) _) (.inr rfl), if_neg (by decide),
        ih (by simp) (fun e he => hes e (List.mem_cons_of_mem _ he)) (acc ++ [e]) true (by omega)]
      simp

theorem lookup_concat_eq_none {acc : JsonObject} {name k : String} {v : Json}
    (h : acc.lookup name = none) (hne : name ≠ k) : (acc ++ [(k, v)]).lookup name = none := by
  rw [List.lookup_append, h]
  simp [List.lookup_cons, beq_false_of_ne hne]

/-- The members of an object, each of which is read. -/
theorem readObject_laidMembers (l : Layout) (depth : Nat) (ms : JsonObject) (hne : ms ≠ [])
    (hms : ∀ m ∈ ms, Reads doubles (2 * (laid l depth m.2).length) (laid l depth m.2) m.2)
    (hfinite : ∀ m ∈ ms, m.2 ≠ .nonFinite) (hnodup : (ms.map Prod.fst).Nodup) (acc : JsonObject)
    (hfresh : ∀ m ∈ ms, acc.lookup m.1 = none) {n : Nat}
    (hn : 2 * (laidMembers l depth ms).length + 1 ≤ n) {outer : List Char}
    (houter : ∀ c ∈ outer, c = ' ' ∨ c = '\n') (rest : List Char) :
    readObject doubles n acc (laidMembers l depth ms ++ (outer ++ '\x7d' :: rest))
      = some (acc ++ ms, rest) := by
  induction ms generalizing acc n with
  | nil => exact absurd rfl hne
  | cons m ms ih =>
    obtain ⟨k, v⟩ := m
    have hput : acc.put k v = acc ++ [(k, v)] :=
      JsonObject.put_of_lookup_eq_none (hfresh (k, v) List.mem_cons_self) _
    have hv : Reads doubles (2 * (laid l depth v).length) (laid l depth v) v := hms (k, v) List.mem_cons_self
    have hfin : v ≠ .nonFinite := hfinite (k, v) List.mem_cons_self
    have hpos := hv.length_pos
    obtain ⟨j, rfl⟩ : ∃ j, n = j + 1 := ⟨n - 1, by omega⟩
    cases ms with
    | nil =>
      have htext : laidMembers l depth [(k, v)] ++ (outer ++ '\x7d' :: rest)
          = l.gap depth ++ (quote k.toList ++
              ':' :: (l.afterColon ++ (laid l depth v ++ (outer ++ '\x7d' :: rest)))) := by
        simp [laidMembers]
      have hlen : (laid l depth v).length ≤ (laidMembers l depth [(k, v)]).length := by
        simp [laidMembers]
        omega
      have hclean : clean (outer ++ '\x7d' :: rest) = some ('\x7d' :: rest) := by
        rw [clean_append houter, clean_cons (by simp)]
      rw [htext, hv.member hfin (l.blank_gap depth) l.blank_afterColon acc k (by omega) (by omega)
        (delimited_append houter (by decide) rest) hclean (.inl rfl), if_pos rfl, hput]
    | cons m' ms =>
      have htext : laidMembers l depth ((k, v) :: m' :: ms) ++ (outer ++ '\x7d' :: rest)
          = l.gap depth ++ (quote k.toList ++ ':' :: (l.afterColon ++ (laid l depth v ++
              ',' :: (laidMembers l depth (m' :: ms) ++ (outer ++ '\x7d' :: rest))))) := by
        conv_lhs => unfold laidMembers
        simp
      have hlen : (laid l depth v).length + 1 + (laidMembers l depth (m' :: ms)).length
          ≤ (laidMembers l depth ((k, v) :: m' :: ms)).length := by
        conv_rhs => unfold laidMembers
        simp only [List.length_append, List.length_cons]
        omega
      rw [List.map_cons, List.nodup_cons] at hnodup
      rw [htext, hv.member hfin (l.blank_gap depth) l.blank_afterColon acc k (by omega) (by omega)
        ⟨',', _, rfl, by decide⟩ (clean_cons (by simp) _) (.inr rfl), if_neg (by decide), hput,
        ih (by simp) (fun m hm => hms m (List.mem_cons_of_mem _ hm))
        (fun m hm => hfinite m (List.mem_cons_of_mem _ hm)) hnodup.2 (acc ++ [(k, v)]) ?_ (by omega)]
      · simp
      · intro m'' hm''
        refine lookup_concat_eq_none (hfresh m'' (List.mem_cons_of_mem _ hm'')) ?_
        intro e
        exact hnodup.1 (List.mem_map.2 ⟨m'', hm'', e⟩)

/-- An array, each of whose elements is read. -/
theorem reads_arr (l : Layout) (depth : Nat) (es : List Json)
    (hes : ∀ e ∈ es, Reads doubles (2 * (laid l (depth + 1) e).length) (laid l (depth + 1) e) e) :
    Reads doubles (2 * (laid l depth (.arr es)).length) (laid l depth (.arr es)) (.arr es) where
  head := ⟨'[', _, by rw [laid]; rfl, by decide⟩
  read n rest hn _ := by
    obtain ⟨m, rfl⟩ : ∃ m, n = m + 1 := ⟨n - 1, by simp [laid] at hn; omega⟩
    cases es with
    | nil =>
      obtain ⟨j, rfl⟩ : ∃ j, m = j + 1 := ⟨m - 1, by simp [laid, laidElems] at hn; omega⟩
      have htext : laid l depth (.arr []) ++ rest = '[' :: ']' :: rest := by simp [laid, laidElems]
      rw [htext, nextValue, clean_cons (by simp)]
      simp only
      rw [if_neg (by decide), if_pos trivial, readArray, clean_cons (by simp)]
      rfl
    | cons e es =>
      have htext : laid l depth (.arr (e :: es)) ++ rest
          = '[' :: (laidElems l (depth + 1) (e :: es) ++ (l.gap depth ++ ']' :: rest)) := by
        simp [laid]
      have hlen : (laidElems l (depth + 1) (e :: es)).length + 2
          ≤ (laid l depth (.arr (e :: es))).length := by
        simp [laid]
      have hread := readArray_laidElems l (depth + 1) (e :: es) (by simp) hes [] false (n := m)
        (by omega) (l.blank_gap depth) rest
      rw [htext, nextValue, clean_cons (by simp)]
      simp only
      rw [if_neg (by decide), if_pos trivial, hread]
      rfl

/-- An object, each of whose members is read; any text may follow it. -/
theorem nextValue_laid_obj (l : Layout) (depth : Nat) (ms : JsonObject)
    (hnodup : (ms.map Prod.fst).Nodup) (hfinite : ∀ m ∈ ms, m.2 ≠ .nonFinite)
    (hms : ∀ m ∈ ms, Reads doubles (2 * (laid l (depth + 1) m.2).length) (laid l (depth + 1) m.2) m.2)
    {n : Nat} (hn : 2 * (laid l depth (.obj ms)).length ≤ n) (rest : List Char) :
    nextValue doubles n (laid l depth (.obj ms) ++ rest) = some (.obj ms, rest) := by
  obtain ⟨m, rfl⟩ : ∃ m, n = m + 1 := ⟨n - 1, by simp [laid] at hn; omega⟩
  cases ms with
  | nil =>
    have htext : laid l depth (.obj []) ++ rest = '\x7b' :: '\x7d' :: rest := by
      simp [laid, laidMembers]
    rw [htext, nextValue, clean_cons (by simp)]
    simp only
    rw [if_pos trivial, clean_cons (by simp)]
    rfl
  | cons p ms =>
    obtain ⟨k, v⟩ := p
    have htext : laid l depth (.obj ((k, v) :: ms)) ++ rest
        = '\x7b' :: (laidMembers l (depth + 1) ((k, v) :: ms) ++ (l.gap depth ++ '\x7d' :: rest)) := by
      simp [laid]
    have hlen : (laidMembers l (depth + 1) ((k, v) :: ms)).length + 2
        ≤ (laid l depth (.obj ((k, v) :: ms))).length := by
      simp [laid]
    -- the reader has skipped the blanks before it looks for a member
    obtain ⟨cs, hcs⟩ : ∃ cs, laidMembers l (depth + 1) ((k, v) :: ms) ++ (l.gap depth ++ '\x7d' :: rest)
        = l.gap (depth + 1) ++ '"' :: cs := by
      unfold laidMembers quote
      simp only [List.append_assoc, List.cons_append]
      exact ⟨_, rfl⟩
    have hread := readObject_laidMembers l (depth + 1) ((k, v) :: ms) (by simp) hms hfinite hnodup []
      (by simp) (n := m) (by omega) (l.blank_gap depth) rest
    rw [hcs, readObject_append doubles (l.blank_gap (depth + 1))] at hread
    rw [htext, hcs, nextValue, clean_cons (by simp)]
    simp only
    rw [if_pos trivial, clean_append (l.blank_gap (depth + 1)), clean_cons (by simp)]
    simp only
    rw [if_neg (by simp), hread]
    rfl

mutual

/-- **A plain document is read from what was written.** -/
theorem reads_laid (l : Layout) (depth : Nat) : ∀ v : Json, v.plain = true →
    Reads doubles (2 * (laid l depth v).length) (laid l depth v) v
  | .arr es, h => reads_arr l depth es (reads_laidElems l (depth + 1) es ((plain_arr_iff es).1 h))
  | .obj ms, h => by
    obtain ⟨hnodup, hms⟩ := (plain_obj_iff ms).1 h
    exact ⟨⟨'\x7b', _, by rw [laid]; rfl, by decide⟩, fun n rest hn _ =>
      nextValue_laid_obj l depth ms hnodup (ne_nonFinite_of_plain hms)
        (reads_laidMembers l (depth + 1) ms hms) hn rest⟩
  | .null, _ => (readBack_null doubles).reads.mono (readBack_null doubles).reads.two_mul_length
  | .bool b, _ => (readBack_bool doubles b).reads.mono (readBack_bool doubles b).reads.two_mul_length
  | .int n, h => by
    obtain ⟨hlo, hhi⟩ := of_decide_eq_true h
    have hread := (readBack_int doubles hlo hhi).reads
    exact hread.mono hread.two_mul_length
  | .str s, _ => (readBack_str doubles s).reads.mono (readBack_str doubles s).reads.two_mul_length

theorem reads_laidElems (l : Layout) (depth : Nat) : ∀ es : List Json, (∀ e ∈ es, e.plain = true) →
    ∀ e ∈ es, Reads doubles (2 * (laid l depth e).length) (laid l depth e) e
  | [], _, _, he => absurd he List.not_mem_nil
  | e :: es, h, e', he => by
    have hhead := reads_laid l depth e (h e List.mem_cons_self)
    have htail := reads_laidElems l depth es fun e he => h e (List.mem_cons_of_mem _ he)
    rcases List.mem_cons.1 he with rfl | he
    · exact hhead
    · exact htail e' he

theorem reads_laidMembers (l : Layout) (depth : Nat) : ∀ ms : List (String × Json),
    (∀ m ∈ ms, m.2.plain = true) →
    ∀ m ∈ ms, Reads doubles (2 * (laid l depth m.2).length) (laid l depth m.2) m.2
  | [], _, _, hm => absurd hm List.not_mem_nil
  | (k, v) :: ms, h, m, hm => by
    have hhead := reads_laid l depth v (h (k, v) List.mem_cons_self)
    have htail := reads_laidMembers l depth ms fun m hm => h m (List.mem_cons_of_mem _ hm)
    rcases List.mem_cons.1 hm with rfl | hm
    · exact hhead
    · exact htail m hm

end

variable (doubles)

/-- **A plain object is read back from what was written**, whatever the layout. -/
theorem ofText_layOut (l : Layout) {ms : JsonObject} (h : (obj ms).plain = true) :
    ofText doubles (layOut l (.obj ms)) = some ms := by
  obtain ⟨hnodup, hms⟩ := (plain_obj_iff ms).1 h
  have hread : nextValue doubles (2 * (laid l 0 (.obj ms)).length + 4) (laid l 0 (.obj ms) ++ [])
      = some (.obj ms, []) :=
    nextValue_laid_obj l 0 ms hnodup (ne_nonFinite_of_plain hms) (reads_laidMembers l 1 ms hms)
      (Nat.le_add_right _ 4) []
  have hhead : (laid l 0 (.obj ms)).head? ≠ some '\uFEFF' := by
    rw [laid]
    simp
  unfold ofText layOut
  simp only [String.toList_ofList]
  rw [if_neg hhead]
  rw [List.append_nil] at hread
  rw [hread]

/-- **An array of plain elements is read back from what was written.** -/
theorem arrayOfText_render {es : List Json} (h : ∀ e ∈ es, e.plain = true) :
    arrayOfText doubles (render (.arr es)) = some es := by
  rw [← layOut_compact]
  have hread : nextValue doubles (2 * (laid compact 0 (.arr es)).length + 4) (laid compact 0 (.arr es))
      = some (.arr es, []) := by
    cases es with
    | nil => rfl
    | cons e es =>
      have hlen : (laid compact 0 (.arr (e :: es))).length = (laidElems compact 1 (e :: es)).length + 2 := by
        simp [laid]
      have helems : ∀ e' ∈ e :: es, Reads doubles (2 * (laid compact 1 e').length) (laid compact 1 e') e' :=
        reads_laidElems compact 1 (e :: es) h
      have hread := readArray_laidElems compact 1 (e :: es) (List.cons_ne_nil e es) helems [] false
        (n := 2 * ((laidElems compact 1 (e :: es)).length + 2) + 3) (by omega) (compact.blank_gap 0) []
      have htext : laid compact 0 (.arr (e :: es))
          = '[' :: (laidElems compact 1 (e :: es) ++ (compact.gap 0 ++ ']' :: [])) := by
        simp [laid]
      rw [hlen, htext, nextValue, clean_cons (by simp)]
      simp only
      rw [if_neg (by decide), if_pos trivial, hread]
      rfl
  have hhead : (laid compact 0 (.arr es)).head? ≠ some '\uFEFF' := by
    rw [laid]
    simp
  unfold arrayOfText layOut
  simp only [String.toList_ofList]
  rw [if_neg hhead, hread]

/-- **An object of texts is read back from what was written.** -/
theorem ofText_render (ms : List (String × String)) (hnodup : (ms.map Prod.fst).Nodup) :
    ofText doubles (render (.obj (texts ms))) = some (texts ms) := by
  rw [← layOut_compact]
  refine ofText_layOut doubles compact ((plain_obj_iff _).2 ⟨?_, fun m hm => ?_⟩)
  · rw [texts, List.map_map]
    exact hnodup
  · obtain ⟨kv, -, rfl⟩ := List.mem_map.1 hm
    rfl

end Reads

/-! ## 5. Slashes -/

/-- A slash stands behind a backslash only. -/
def Escaped (cs : List Char) : Prop := ∀ front rest, cs = front ++ '/' :: rest → front.getLast? = some '\\'

theorem Escaped.of_not_mem {cs : List Char} (h : '/' ∉ cs) : Escaped cs := by
  rintro front rest rfl
  exact absurd (List.mem_append_right front List.mem_cons_self) h

theorem Escaped.append {cs ds : List Char} (hcs : Escaped cs) (hds : Escaped ds) : Escaped (cs ++ ds) := by
  intro front rest h
  rcases List.append_eq_append_iff.1 h with ⟨middle, rfl, hrest⟩ | ⟨middle, rfl, hrest⟩
  · rw [List.getLast?_append, hds middle rest hrest, Option.some_or]
  · cases middle with
    | nil =>
      have hhead := hds [] rest hrest.symm
      cases hhead
    | cons c middle =>
      rw [List.cons_append, List.cons.injEq] at hrest
      exact hcs front middle (by rw [hrest.1])

theorem Escaped.cons {c : Char} {cs : List Char} (hc : c ≠ '/') (h : Escaped cs) : Escaped (c :: cs) := by
  have hhead : Escaped [c] := Escaped.of_not_mem fun hm => hc (List.mem_singleton.1 hm).symm
  exact hhead.append h

theorem escaped_slash : Escaped ['\\', '/'] := by
  intro front rest h
  cases front with
  | nil => exact absurd (List.cons.inj h).1 (by decide)
  | cons c front =>
    obtain ⟨rfl, htail⟩ := List.cons.inj h
    cases front with
    | nil => rfl
    | cons d front =>
      have hnil := (List.cons.inj htail).2
      exact absurd hnil.symm (List.append_ne_nil_of_right_ne_nil front (List.cons_ne_nil _ _))

theorem escaped_quoteChar (c : Char) : Escaped (quoteChar c) := by
  by_cases hslash : c = '/'
  · rw [hslash]
    exact escaped_slash
  refine Escaped.of_not_mem fun hm => ?_
  have hdigit : ∀ k < 16, (Percent.hexDigit k).toLower ≠ '/' := by decide
  unfold quoteChar at hm
  split at hm
  · rcases List.mem_pair.1 hm with he | he
    · exact absurd he (by decide)
    · exact hslash he.symm
  split at hm
  · exact absurd hm (by decide)
  split at hm
  · exact absurd hm (by decide)
  split at hm
  · exact absurd hm (by decide)
  split at hm
  · exact absurd hm (by decide)
  split at hm
  · exact absurd hm (by decide)
  split at hm
  · rename_i hcontrol
    have hhigh := hdigit (c.toNat / 16) (by omega)
    have hlow := hdigit (c.toNat % 16) (by omega)
    simp only [List.mem_cons, List.not_mem_nil, or_false] at hm
    rcases hm with hm | hm | hm | hm | hm | hm
    · exact absurd hm (by decide)
    · exact absurd hm (by decide)
    · exact absurd hm (by decide)
    · exact absurd hm (by decide)
    · exact hhigh hm.symm
    · exact hlow hm.symm
  · exact hslash (List.mem_singleton.1 hm).symm

theorem escaped_quote (s : List Char) : Escaped (quote s) := by
  have hbody : Escaped (s.flatMap quoteChar) := by
    induction s with
    | nil => exact Escaped.of_not_mem List.not_mem_nil
    | cons c s ih =>
      rw [List.flatMap_cons]
      exact (escaped_quoteChar c).append ih
  exact (hbody.cons (by decide)).append (Escaped.of_not_mem (by decide))

mutual

/-- **The writer puts a backslash before every slash.** -/
theorem escaped_renderChars : ∀ v : Json, v.plain = true → Escaped v.renderChars
  | .null, _ => Escaped.of_not_mem (by decide)
  | .bool true, _ => Escaped.of_not_mem (by decide)
  | .bool false, _ => Escaped.of_not_mem (by decide)
  | .int n, _ => by
    obtain ⟨c, cs, hchars, hmem, -⟩ := toString_int_chars n
    rw [renderChars, hchars]
    exact Escaped.of_not_mem fun hm => absurd (hmem _ hm) (by decide)
  | .str s, _ => escaped_quote s.toList
  | .arr es, h => ((escaped_renderElems es ((plain_arr_iff es).1 h)).cons (by decide)).append
      (Escaped.of_not_mem (by decide))
  | .obj ms, h => ((escaped_renderMembers ms ((plain_obj_iff ms).1 h).2).cons (by decide)).append
      (Escaped.of_not_mem (by decide))

@[inherit_doc escaped_renderChars]
theorem escaped_renderElems : ∀ es : List Json, (∀ e ∈ es, e.plain = true) → Escaped (renderElems es)
  | [], _ => Escaped.of_not_mem List.not_mem_nil
  | e :: es, h => by
    have hhead := escaped_renderChars e (h e List.mem_cons_self)
    have htail := escaped_renderElems es fun e he => h e (List.mem_cons_of_mem _ he)
    unfold renderElems
    cases es with
    | nil => exact hhead.append (Escaped.of_not_mem List.not_mem_nil)
    | cons e' es => exact hhead.append (htail.cons (by decide))

@[inherit_doc escaped_renderChars]
theorem escaped_renderMembers : ∀ ms : List (String × Json), (∀ m ∈ ms, m.2.plain = true) →
    Escaped (renderMembers ms)
  | [], _ => Escaped.of_not_mem List.not_mem_nil
  | (k, v) :: ms, h => by
    have hhead := escaped_renderChars v (h (k, v) List.mem_cons_self)
    have htail := escaped_renderMembers ms fun m hm => h m (List.mem_cons_of_mem _ hm)
    have hmember : Escaped (quote k.toList ++ ':' :: renderChars v) :=
      (escaped_quote k.toList).append (hhead.cons (by decide))
    unfold renderMembers
    cases ms with
    | nil => exact hmember.append (Escaped.of_not_mem List.not_mem_nil)
    | cons m ms => exact hmember.append (htail.cons (by decide))

end

end Json
