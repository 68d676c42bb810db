/-
  File:      SwiftVpn/Lib/KeyValue.lean
  Subject:   LINES `key=value`, WRITTEN ONE BELOW THE OTHER.

  * `text` -- the lines of a list of pairs; `text_injective`: no value can pass for a line of its own, or
    for a part of another;
  * `present` -- the fields of a record that are there, under names that are fixed; `present_injective`:
    they determine the record.
-/
import SwiftVpn.Lib.Text

namespace KeyValue

/-- One line. -/
def line (p : String × String) : List Char := p.1.toList ++ '=' :: (p.2.toList ++ ['\n'])

/-- The lines of a list of pairs. -/
def text (ps : List (String × String)) : String := String.ofList (ps.flatMap line)

/-- A pair that fits on a line: the key ends at the sign, the value at the end of the line. -/
structure Fits (p : String × String) : Prop where
  key : '=' ∉ p.1.toList
  value : '\n' ∉ p.2.toList

theorem line_append_inj {p q : String × String} (hp : Fits p) (hq : Fits q) {xs ys : List Char}
    (h : line p ++ xs = line q ++ ys) : p = q ∧ xs = ys := by
  unfold line at h
  simp only [List.append_assoc, List.cons_append] at h
  obtain ⟨hkey, hrest⟩ := Text.append_cons_inj h hp.key hq.key
  obtain ⟨hvalue, hxs⟩ := Text.append_cons_inj hrest hp.value hq.value
  exact ⟨Prod.ext (String.toList_injective hkey) (String.toList_injective hvalue), hxs⟩

/-- **The lines determine the pairs.** -/
theorem text_injective {ps qs : List (String × String)} (hps : ∀ p ∈ ps, Fits p) (hqs : ∀ q ∈ qs, Fits q)
    (h : text ps = text qs) : ps = qs := by
  have hchars : ps.flatMap line = qs.flatMap line := by
    simpa [text] using congrArg String.toList h
  clear h
  induction ps generalizing qs with
  | nil =>
    cases qs with
    | nil => rfl
    | cons q qs => simp [line] at hchars
  | cons p ps ih =>
    cases qs with
    | nil => simp [line] at hchars
    | cons q qs =>
      obtain ⟨hp, hps⟩ := List.forall_mem_cons.1 hps
      obtain ⟨hq, hqs⟩ := List.forall_mem_cons.1 hqs
      rw [List.flatMap_cons, List.flatMap_cons] at hchars
      obtain ⟨hpq, hrest⟩ := line_append_inj hp hq hchars
      rw [hpq, ih hps hqs hrest]

/-- The fields that are there. -/
def present (fields : List (String × Option String)) : List (String × String) :=
  fields.filterMap fun f => f.2.map fun value => (f.1, value)

theorem mem_present {fields : List (String × Option String)} {p : String × String} :
    p ∈ present fields ↔ (p.1, some p.2) ∈ fields := by
  unfold present
  rw [List.mem_filterMap]
  constructor
  · rintro ⟨⟨name, content⟩, hf, he⟩
    obtain ⟨value, rfl, rfl⟩ := Option.map_eq_some_iff.1 he
    exact hf
  · intro h
    exact ⟨_, h, rfl⟩

/-- **What is there determines the record**, field by field. -/
theorem present_injective {fields fields' : List (String × Option String)}
    (hnames : fields.map Prod.fst = fields'.map Prod.fst) (hnodup : (fields.map Prod.fst).Nodup)
    (h : present fields = present fields') : fields = fields' := by
  induction fields generalizing fields' with
  | nil =>
    cases fields' with
    | nil => rfl
    | cons f' fields' => cases hnames
  | cons f fields ih =>
    cases fields' with
    | nil => cases hnames
    | cons f' fields' =>
      obtain ⟨name, content⟩ := f
      obtain ⟨name', content'⟩ := f'
      rw [List.map_cons, List.map_cons, List.cons.injEq] at hnames
      obtain ⟨rfl, hnames⟩ := hnames
      rw [List.map_cons, List.nodup_cons] at hnodup
      obtain ⟨hnot, hnodup⟩ := hnodup
      -- a line of this name can stand for this field only
      have habsent : ∀ {fs : List (String × Option String)} {value : String},
          name ∉ fs.map Prod.fst → (name, value) ∉ present fs := by
        intro fs value hname hm
        exact hname (List.mem_map_of_mem (f := Prod.fst) (mem_present.1 hm))
      have hnot' : name ∉ fields'.map Prod.fst := hnames ▸ hnot
      cases content with
      | none =>
        cases content' with
        | none => rw [ih hnames hnodup h]
        | some value' =>
          have hm : (name, value') ∈ present fields := by
            have hpresent : present ((name, none) :: fields) = present fields := rfl
            rw [← hpresent, h]
            exact List.mem_cons_self
          exact absurd hm (habsent hnot)
      | some value =>
        cases content' with
        | none =>
          have hm : (name, value) ∈ present fields' := by
            have hpresent : present ((name, none) :: fields') = present fields' := rfl
            rw [← hpresent, ← h]
            exact List.mem_cons_self
          exact absurd hm (habsent hnot')
        | some value' =>
          have hpresent : (name, value) :: present fields = (name, value') :: present fields' := h
          rw [List.cons.injEq, Prod.mk.injEq] at hpresent
          rw [hpresent.1.2, ih hnames hnodup hpresent.2]

end KeyValue
