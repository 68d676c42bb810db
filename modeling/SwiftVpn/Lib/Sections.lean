/-
  File:      SwiftVpn/Lib/Sections.lean
  Subject:   DOCUMENTS OF SECTIONS, AND RECORDS THAT ARE FILLED LINE BY LINE.

  A document is a list of lines, some of which are headers. What stands before the first header is its
  front; a header and the lines up to the next one are a section.

  * `cut`, `Document.lines` -- the sections of a list of lines, and the lines of a document; each is the
    inverse of the other (`lines_cut`, `cut_lines`);
  * `foldl_lines`, `foldlM_lines` -- a loop over the lines is a loop over the sections; `foldlM_inv` --
    what every turn of a loop keeps, the loop keeps.

  A record has a slot for every key `k : K`, of a type of its own. A line names a key and gives a value;
  `write` makes a new content of the slot from the old one and the value, or refuses. Lines are written
  one after the other (`fill`).

  * `column` -- the values that the lines have for one key, in their order;
  * `fill_eq_some_iff` -- a record is filled exactly where every column is written through its own slot:
    lines of different keys do not see each other;
  * `foldlM_last` -- a slot that a value overwrites holds what the last value gives;
  * `foldlM_join_le`, `foldlM_join_last` -- a slot that values are added to, and when its last value alone
    gives the same.
-/
import Mathlib.Data.List.Induction
import Mathlib.Logic.Function.Basic
import Mathlib.Order.BoundedOrder.Lattice

namespace Sections

variable {α β : Type}

structure Document (α : Type) where
  front : List α
  sections : List (α × List α)

/-- The lines of a document. -/
def Document.lines (d : Document α) : List α := d.front ++ d.sections.flatMap fun s => s.1 :: s.2

/-- A section for each header. -/
def cut (p : α → Bool) : List α → Document α
  | [] => ⟨[], []⟩
  | l :: ls =>
    let d := cut p ls
    if p l then ⟨[], (l, d.front) :: d.sections⟩ else ⟨l :: d.front, d.sections⟩

/-- The headers of a document are its sections' first lines, and nothing else. -/
structure Document.Headed (p : α → Bool) (d : Document α) : Prop where
  front : ∀ l ∈ d.front, p l = false
  header : ∀ s ∈ d.sections, p s.1 = true
  body : ∀ s ∈ d.sections, ∀ l ∈ s.2, p l = false

/-- Every section rewritten below its header. -/
def Document.mapBody (f : α → List α → List α) (d : Document α) : Document α :=
  { d with sections := d.sections.map fun s => (s.1, f s.1 s.2) }

theorem lines_cut (p : α → Bool) (ls : List α) : (cut p ls).lines = ls := by
  induction ls with
  | nil => rfl
  | cons l ls ih =>
    rw [cut]
    split
    · rw [Document.lines, List.nil_append, List.flatMap_cons, List.cons_append]
      exact congrArg (l :: ·) ih
    · rw [Document.lines, List.cons_append]
      exact congrArg (l :: ·) ih

theorem cut_headed (p : α → Bool) (ls : List α) : (cut p ls).Headed p := by
  induction ls with
  | nil => exact ⟨nofun, nofun, nofun⟩
  | cons l ls ih =>
    rw [cut]
    split
    · rename_i hl
      refine ⟨nofun, ?_, ?_⟩
      · exact List.forall_mem_cons.2 ⟨hl, ih.header⟩
      · exact List.forall_mem_cons.2 ⟨ih.front, ih.body⟩
    · rename_i hl
      refine ⟨?_, ih.header, ih.body⟩
      exact List.forall_mem_cons.2 ⟨by simpa using hl, ih.front⟩

theorem cut_append_of_forall {p : α → Bool} {xs : List α} (h : ∀ l ∈ xs, p l = false) (ys : List α) :
    cut p (xs ++ ys) = ⟨xs ++ (cut p ys).front, (cut p ys).sections⟩ := by
  induction xs with
  | nil => rfl
  | cons x xs ih =>
    obtain ⟨hx, hxs⟩ := List.forall_mem_cons.1 h
    rw [List.cons_append, cut, ih hxs, if_neg (by simp [hx])]
    rfl

/-- **A document is read back from its lines.** -/
theorem cut_lines {p : α → Bool} {d : Document α} (h : d.Headed p) : cut p d.lines = d := by
  obtain ⟨front, secs⟩ := d
  have hsecs : ∀ ss : List (α × List α), (∀ s ∈ ss, p s.1 = true) → (∀ s ∈ ss, ∀ l ∈ s.2, p l = false) →
      cut p (ss.flatMap fun s => s.1 :: s.2) = ⟨[], ss⟩ := by
    intro ss hh hb
    induction ss with
    | nil => rfl
    | cons s ss ih =>
      obtain ⟨hs, hss⟩ := List.forall_mem_cons.1 hh
      obtain ⟨hl, hls⟩ := List.forall_mem_cons.1 hb
      rw [List.flatMap_cons, List.cons_append, cut, cut_append_of_forall hl, ih hss hls]
      simp [hs]
  rw [Document.lines, cut_append_of_forall h.front, hsecs secs h.header h.body]
  simp

/-- Who takes the same lines for headers cuts alike. -/
theorem cut_congr {p q : α → Bool} {ls : List α} (h : ∀ l ∈ ls, p l = q l) : cut p ls = cut q ls := by
  induction ls with
  | nil => rfl
  | cons l ls ih =>
    obtain ⟨hl, hls⟩ := List.forall_mem_cons.1 h
    rw [cut, cut, ih hls, hl]

theorem Document.Headed.mapBody {p : α → Bool} {d : Document α} (h : d.Headed p)
    {f : α → List α → List α} (hf : ∀ s ∈ d.sections, ∀ l ∈ f s.1 s.2, p l = false) :
    (d.mapBody f).Headed p where
  front := h.front
  header := by
    intro s hs
    obtain ⟨s', hs', rfl⟩ := List.mem_map.1 hs
    exact h.header s' hs'
  body := by
    intro s hs
    obtain ⟨s', hs', rfl⟩ := List.mem_map.1 hs
    exact hf s' hs'

theorem mem_lines_of_mem_body {d : Document α} {s : α × List α} (hs : s ∈ d.sections) {l : α}
    (hl : l ∈ s.2) : l ∈ d.lines :=
  List.mem_append_right _ (List.mem_flatMap.2 ⟨s, hs, List.mem_cons_of_mem _ hl⟩)

theorem mem_lines_of_header {d : Document α} {s : α × List α} (hs : s ∈ d.sections) : s.1 ∈ d.lines :=
  List.mem_append_right _ (List.mem_flatMap.2 ⟨s, hs, List.mem_cons_self⟩)

theorem mem_mapBody_lines {d : Document α} {f : α → List α → List α} {l : α}
    (h : l ∈ (d.mapBody f).lines) : l ∈ d.lines ∨ ∃ s ∈ d.sections, l ∈ f s.1 s.2 := by
  rcases List.mem_append.1 h with h | h
  · exact .inl (List.mem_append_left _ h)
  · obtain ⟨s', hs', hl⟩ := List.mem_flatMap.1 h
    obtain ⟨s, hs, rfl⟩ := List.mem_map.1 hs'
    rcases List.mem_cons.1 hl with he | hl
    · have hmem : s.1 ∈ d.lines := mem_lines_of_header hs
      exact .inl (he ▸ hmem)
    · exact .inr ⟨s, hs, hl⟩

theorem mapBody_lines_ne_nil {d : Document α} (h : d.lines ≠ []) (f : α → List α → List α) :
    (d.mapBody f).lines ≠ [] := by
  intro hnil
  obtain ⟨hfront, hsecs⟩ := List.append_eq_nil_iff.1 hnil
  apply h
  rw [Document.lines, List.append_eq_nil_iff]
  refine ⟨hfront, ?_⟩
  cases hd : d.sections with
  | nil => rfl
  | cons s ss =>
    unfold Document.mapBody at hsecs
    rw [hd] at hsecs
    cases hsecs

/-- **A loop over the lines is a loop over the sections.** -/
theorem foldl_lines (f : β → α → β) (b : β) (d : Document α) :
    d.lines.foldl f b = d.sections.foldl (fun b s => s.2.foldl f (f b s.1)) (d.front.foldl f b) := by
  rw [Document.lines, List.foldl_append, List.foldl_flatMap]
  rfl

theorem foldlM_lines (f : β → α → Option β) (b : β) (d : Document α) :
    d.lines.foldlM f b = (d.front.foldlM f b).bind fun b =>
      d.sections.foldlM (fun b s => (f b s.1).bind fun b => s.2.foldlM f b) b := by
  rw [Document.lines, List.foldlM_append]
  have hsecs : ∀ (ss : List (α × List α)) (b : β), (ss.flatMap fun s => s.1 :: s.2).foldlM f b
      = ss.foldlM (fun b s => (f b s.1).bind fun b => s.2.foldlM f b) b := by
    intro ss
    induction ss with
    | nil => intro b; rfl
    | cons s ss ih =>
      intro b
      rw [List.flatMap_cons, List.cons_append, List.foldlM_cons, List.foldlM_cons]
      cases f b s.1 with
      | none => rfl
      | some b' =>
        show (s.2 ++ _).foldlM f b' = (s.2.foldlM f b').bind _
        rw [List.foldlM_append]
        cases s.2.foldlM f b' with
        | none => rfl
        | some b'' => exact ih b''
  cases d.front.foldlM f b with
  | none => rfl
  | some b' => exact hsecs d.sections b'

/-- What every turn of a loop keeps, the loop keeps. -/
theorem foldlM_inv {I : β → Prop} {P : α → Prop} {f : β → α → Option β}
    (hf : ∀ b a b', I b → P a → f b a = some b' → I b') {ls : List α} (hls : ∀ l ∈ ls, P l) {b b' : β}
    (hb : I b) (h : ls.foldlM f b = some b') : I b' := by
  induction ls generalizing b with
  | nil =>
    cases h
    exact hb
  | cons l ls ih =>
    rw [List.foldlM_cons] at h
    obtain ⟨b₁, hb₁, h⟩ := Option.bind_eq_some_iff.1 h
    obtain ⟨hl, hls⟩ := List.forall_mem_cons.1 hls
    exact ih hls (hf b l b₁ hb hl hb₁) h

/-- What a list is mapped to comes from its elements. -/
theorem exists_of_mapM {f : α → Option β} {ls : List α} {bs : List β} (h : ls.mapM f = some bs) {b : β}
    (hb : b ∈ bs) : ∃ l ∈ ls, f l = some b := by
  induction ls generalizing bs with
  | nil =>
    cases h
    cases hb
  | cons l ls ih =>
    rw [List.mapM_cons] at h
    obtain ⟨b₁, hb₁, h⟩ := Option.bind_eq_some_iff.1 h
    obtain ⟨bs₁, hbs₁, h⟩ := Option.bind_eq_some_iff.1 h
    cases h
    rcases List.mem_cons.1 hb with rfl | hb
    · exact ⟨l, List.mem_cons_self, hb₁⟩
    · obtain ⟨l', hl', hfl⟩ := ih hbs₁ hb
      exact ⟨l', List.mem_cons_of_mem l hl', hfl⟩

end Sections

namespace Slots

variable {K V : Type} [DecidableEq K] {F : K → Type}

/-- One line. -/
def put (write : (k : K) → F k → V → Option (F k)) (record : (k : K) → F k) (line : K × V) :
    Option ((k : K) → F k) :=
  (write line.1 (record line.1) line.2).map fun content => Function.update record line.1 content

/-- The lines, one after the other. -/
def fill (write : (k : K) → F k → V → Option (F k)) (record : (k : K) → F k) (lines : List (K × V)) :
    Option ((k : K) → F k) :=
  lines.foldlM (put write) record

/-- The values of one key. -/
def column (k : K) (lines : List (K × V)) : List V := (lines.filter fun l => l.1 = k).map (·.2)

section Column

theorem column_cons_self (k : K) (v : V) (lines : List (K × V)) :
    column k ((k, v) :: lines) = v :: column k lines := by
  unfold column
  rw [List.filter_cons_of_pos (by simp), List.map_cons]

theorem column_cons_of_ne {k k' : K} (h : k' ≠ k) (v : V) (lines : List (K × V)) :
    column k ((k', v) :: lines) = column k lines := by
  unfold column
  rw [List.filter_cons_of_neg (by simpa using h)]

end Column

variable {write : (k : K) → F k → V → Option (F k)}

/-- **A record is filled exactly where every column is.** -/
theorem fill_eq_some_iff (lines : List (K × V)) (record record' : (k : K) → F k) :
    fill write record lines = some record' ↔
      ∀ k, (column k lines).foldlM (write k) (record k) = some (record' k) := by
  induction lines generalizing record with
  | nil =>
    show some record = some record' ↔ ∀ k, some (record k) = some (record' k)
    simp only [Option.some.injEq]
    exact ⟨fun h k => congrFun h k, fun h => funext h⟩
  | cons line lines ih =>
    obtain ⟨k₀, v⟩ := line
    have hput : fill write record ((k₀, v) :: lines)
        = (write k₀ (record k₀) v).bind fun x => fill write (Function.update record k₀ x) lines := by
      unfold fill
      rw [List.foldlM_cons, put]
      cases write k₀ (record k₀) v <;> rfl
    have hself : (column k₀ ((k₀, v) :: lines)).foldlM (write k₀) (record k₀)
        = (write k₀ (record k₀) v).bind fun x => (column k₀ lines).foldlM (write k₀) x := by
      rw [column_cons_self, List.foldlM_cons]
      rfl
    rw [hput]
    cases hw : write k₀ (record k₀) v with
    | none =>
      refine iff_of_false nofun fun h => ?_
      have := h k₀
      rw [hself, hw] at this
      cases this
    | some x =>
      rw [Option.bind_some, ih]
      refine forall_congr' fun k => ?_
      by_cases hk : k = k₀
      · subst hk
        rw [Function.update_self, hself, hw, Option.bind_some]
      · rw [Function.update_of_ne hk, column_cons_of_ne (Ne.symm hk)]

/-- The last line that has a value. -/
theorem getLast?_filterMap {A V : Type} {f : A → Option V} {p : A → Bool} {l : List A}
    (h : ∀ a ∈ l, (f a).isSome = p a) : (l.filterMap f).getLast? = (l.filter p).getLast?.bind f := by
  induction l using List.reverseRecOn with
  | nil => rfl
  | append_singleton l a ih =>
    have ha := h a (by simp)
    rw [List.filterMap_append, List.filter_append, List.getLast?_append, List.getLast?_append,
      ih fun b hb => h b (List.mem_append_left _ hb)]
    cases hf : f a with
    | none =>
      rw [hf] at ha
      simp [hf, ← ha]
    | some v =>
      rw [hf] at ha
      simp [hf, ← ha]

/-- **A slot that a value overwrites holds what the last value gives**, if every value gives something. -/
theorem foldlM_last {V F : Type} (g : V → Option F) (x y : F) (vs : List V) :
    vs.foldlM (fun _ v => g v) x = some y ↔
      (∀ v ∈ vs, (g v).isSome) ∧ (vs.getLast?.elim (some x) g = some y) := by
  induction vs generalizing x with
  | nil => simp
  | cons v vs ih =>
    rw [List.foldlM_cons, List.forall_mem_cons]
    cases hv : g v with
    | none => simp
    | some z =>
      show vs.foldlM (fun _ v => g v) z = some y ↔ _
      rw [ih z]
      cases vs with
      | nil => simp [hv]
      | cons w ws => simp [List.getLast?_cons]

section Join

variable {V F : Type} [SemilatticeSup F] {g : V → Option F}

/-- A slot that values are added to is the least one above all of them. -/
theorem foldlM_join_le {vs : List V} {x y : F}
    (h : vs.foldlM (fun old v => (g v).map (old ⊔ ·)) x = some y) (z : F) :
    y ≤ z ↔ x ≤ z ∧ ∀ v ∈ vs, ∀ a, g v = some a → a ≤ z := by
  induction vs generalizing x with
  | nil =>
    cases h
    simp
  | cons v vs ih =>
    rw [List.foldlM_cons] at h
    obtain ⟨x', hx', h⟩ := Option.bind_eq_some_iff.1 h
    obtain ⟨b, hb, rfl⟩ := Option.map_eq_some_iff.1 hx'
    rw [ih h, sup_le_iff, List.forall_mem_cons, and_assoc]
    refine and_congr_right fun _ => and_congr_left fun _ => ?_
    constructor
    · intro hle a ha
      rw [hb] at ha
      cases ha
      exact hle
    · intro hall
      exact hall b hb

theorem foldlM_join_isSome {vs : List V} {x y : F}
    (h : vs.foldlM (fun old v => (g v).map (old ⊔ ·)) x = some y) : ∀ v ∈ vs, (g v).isSome = true := by
  induction vs generalizing x with
  | nil => exact nofun
  | cons v vs ih =>
    rw [List.foldlM_cons] at h
    obtain ⟨x', hx', h⟩ := Option.bind_eq_some_iff.1 h
    obtain ⟨b, hb, -⟩ := Option.map_eq_some_iff.1 hx'
    exact List.forall_mem_cons.2 ⟨by rw [hb]; rfl, ih h⟩

/-- Every value is below the last one. -/
def LastIsGreatest (g : V → Option F) (vs : List V) : Prop :=
  ∀ last ∈ vs.getLast?, ∀ v ∈ vs, ∀ a b, g v = some a → g last = some b → a ≤ b

/-- **The last value alone gives what all of them give** exactly where it is the greatest. -/
theorem foldlM_join_last [OrderBot F] {vs : List V} {y : F}
    (h : vs.foldlM (fun old v => (g v).map (old ⊔ ·)) ⊥ = some y) :
    vs.getLast?.toList.foldlM (fun old v => (g v).map (old ⊔ ·)) ⊥ = some y ↔ LastIsGreatest g vs := by
  unfold LastIsGreatest
  cases hlast : vs.getLast? with
  | none =>
    rw [List.getLast?_eq_none_iff] at hlast
    subst hlast
    exact iff_of_true h nofun
  | some last =>
    have hmem : last ∈ vs := List.mem_of_getLast? hlast
    obtain ⟨b, hb⟩ := Option.isSome_iff_exists.1 (foldlM_join_isSome h last hmem)
    have hbelow := fun z => foldlM_join_le h z
    have hle : b ≤ y := ((hbelow y).1 le_rfl).2 last hmem b hb
    have hsingle : (some last).toList.foldlM (fun old v => (g v).map (old ⊔ ·)) (⊥ : F) = some b := by
      rw [Option.toList_some, List.foldlM_cons, hb, Option.map_some, bot_sup_eq]
      rfl
    rw [hsingle, Option.some.injEq]
    constructor
    · rintro rfl l hl v hv a b' ha hb'
      cases hl
      rw [hb] at hb'
      cases hb'
      exact ((hbelow b).1 le_rfl).2 v hv a ha
    · intro hall
      exact le_antisymm hle ((hbelow b).2 ⟨bot_le, fun v hv a ha => hall last rfl v hv a b ha hb⟩)

end Join

end Slots
