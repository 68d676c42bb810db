/-
  File:      SwiftVpn/Lib/Machine.lean
  Subject:   LABELLED MACHINES AND THEIR RUNS.

  A machine is a partial step function `σ → ℓ → Option σ`: `step s l` is the state after the
  step labelled `l`, and `none` where that step is not enabled in `s`. A run is the list of its
  labels. Nothing here knows what the states and labels are.

  * `exec` -- the state at the end of a run (`none` where a step of it is not enabled);
  * `Along C` -- every step of a run meets the condition `C` in the state it is taken in;
  * `exec_inv` -- THE INVARIANT RULE: what holds at the start and is preserved by every enabled
    step that meets `C` holds at the end of every run along `C`;
  * `silent`, `outputs` -- a machine whose steps yield outputs: the outputs forgotten, or what is
    selected of them collected along a run;
  * `observed` -- the machine with a monitor that watches its steps and blocks none
    (`exec_observed`);
  * `exec_map` -- THE REFINEMENT RULE: where every step is a step of another machine, so is every run;
  * `exec_leaves` -- THE RANK RULE: a property whose every own step lowers a rank, and whose other
    steps do not raise it, is left in every run that has more own steps than that;
  * `exec_pays` -- THE POTENTIAL RULE: the steps of a run that spend are paid by those that gain and by
    the potential at its start;
  * `exec_rests` -- THE PROGRESS RULE: where every own step lowers a rank and some own step can be made,
    a state comes to rest;
  * tables of processes: a list read by index, one entry replaced at a time (`get_set`,
    `getLast_set`) or added (`get_concat`, `mem_append_set`, `exists_append_set`); `field` reads one
    field of every process, those not yet there included;
  * `lock_step` -- the discipline of a lock: the process inside is the one that holds it.
-/
import Mathlib.Data.List.Basic

namespace Machine

variable {σ ℓ α : Type*}

/-! ## 1. Runs -/

/-- The state at the end of the run `ls` from `s`. -/
def exec (step : σ → ℓ → Option σ) : σ → List ℓ → Option σ
  | s, [] => some s
  | s, l :: ls =>
    match step s l with
    | some s' => exec step s' ls
    | none => none

/-- Every step of the run `ls` from `s` meets `C` in the state in which it is taken. -/
def Along (step : σ → ℓ → Option σ) (C : σ → ℓ → Prop) : σ → List ℓ → Prop
  | _, [] => True
  | s, l :: ls =>
    C s l ∧ match step s l with
      | some s' => Along step C s' ls
      | none => True

instance decidableAlong (step : σ → ℓ → Option σ) (C : σ → ℓ → Prop) [∀ s l, Decidable (C s l)] :
    ∀ (s : σ) (ls : List ℓ), Decidable (Along step C s ls)
  | _, [] => isTrue trivial
  | s, l :: ls =>
    have : Decidable (match step s l with
        | some s' => Along step C s' ls
        | none => True) :=
      match step s l with
      | some s' => decidableAlong step C s' ls
      | none => isTrue trivial
    inferInstanceAs (Decidable (_ ∧ _))

section Runs

-- the equations of the two recursions
attribute [local simp] exec Along

variable {step : σ → ℓ → Option σ} {C : σ → ℓ → Prop}

@[simp] theorem exec_nil (s : σ) : exec step s [] = some s := rfl

/-- A run that starts with `l` takes that step and then runs on. -/
theorem exec_cons {s s' : σ} {l : ℓ} {ls : List ℓ} :
    exec step s (l :: ls) = some s' ↔ ∃ t, step s l = some t ∧ exec step t ls = some s' := by
  cases h : step s l with
  | none => simp [exec, h]
  | some t => simp [exec, h]

@[simp] theorem along_nil (s : σ) : Along step C s [] := trivial

/-- Along a run that starts with `l`, the first step meets the condition and so does the rest. -/
theorem along_cons {s s' : σ} {l : ℓ} {ls : List ℓ} (hs : step s l = some s') :
    Along step C s (l :: ls) ↔ C s l ∧ Along step C s' ls := by
  simp only [Along, hs]

/-- A condition on the labels alone holds along a run as soon as it holds of every label. -/
theorem along_of_forall {P : ℓ → Prop} {s : σ} {ls : List ℓ} (h : ∀ l ∈ ls, P l) :
    Along step (fun _ l => P l) s ls := by
  induction ls generalizing s with
  | nil => exact along_nil s
  | cons l ls ih =>
    refine ⟨h l List.mem_cons_self, ?_⟩
    cases step s l with
    | none => trivial
    | some t => exact ih fun k hk => h k (List.mem_cons_of_mem l hk)

/-- Two conditions that hold along a run hold together along it. -/
theorem along_and {C' : σ → ℓ → Prop} {s : σ} {ls : List ℓ} (h : Along step C s ls)
    (h' : Along step C' s ls) : Along step (fun s l => C s l ∧ C' s l) s ls := by
  induction ls generalizing s with
  | nil => exact along_nil s
  | cons l ls ih =>
    refine ⟨⟨h.1, h'.1⟩, ?_⟩
    have hr := h.2
    have hr' := h'.2
    cases hs : step s l with
    | none => trivial
    | some t =>
      simp only [hs] at hr hr'
      exact ih hr hr'

/-- A condition that holds along a run may be weakened. -/
theorem along_mono {C' : σ → ℓ → Prop} {s : σ} {ls : List ℓ} (h : Along step C s ls)
    (himp : ∀ s l, C s l → C' s l) : Along step C' s ls := by
  induction ls generalizing s with
  | nil => exact along_nil s
  | cons l ls ih =>
    refine ⟨himp s l h.1, ?_⟩
    have hr := h.2
    cases hs : step s l with
    | none => trivial
    | some t =>
      simp only [hs] at hr
      exact ih hr

/-- A run and one step more. -/
theorem exec_concat {s t t' : σ} {ls : List ℓ} {l : ℓ} (h : exec step s ls = some t)
    (hl : step t l = some t') : exec step s (ls ++ [l]) = some t' := by
  induction ls generalizing s with
  | nil =>
    cases h
    exact exec_cons.mpr ⟨t', hl, rfl⟩
  | cons k ls ih =>
    obtain ⟨u, hu, hrun⟩ := exec_cons.mp h
    exact exec_cons.mpr ⟨u, hu, ih hrun⟩

/-- The invariant rule: **what every step along `C` preserves holds at the end of every run.** -/
theorem exec_inv {I : σ → Prop}
    (hstep : ∀ s l s', I s → C s l → step s l = some s' → I s') {s s' : σ} {ls : List ℓ}
    (hI : I s) (hC : Along step C s ls) (h : exec step s ls = some s') : I s' := by
  induction ls generalizing s with
  | nil =>
    simp only [exec_nil, Option.some.injEq] at h
    exact h ▸ hI
  | cons l ls ih =>
    obtain ⟨t, ht, hr⟩ := exec_cons.mp h
    obtain ⟨hl, hls⟩ := (along_cons ht).mp hC
    exact ih (hstep s l t hI hl ht) hls hr

/-- The invariant rule with no condition on the steps. -/
theorem exec_inv' {I : σ → Prop} (hstep : ∀ s l s', I s → step s l = some s' → I s') {s s' : σ}
    {ls : List ℓ} (hI : I s) (h : exec step s ls = some s') : I s' := by
  have hC : Along step (fun _ _ => True) s ls := along_of_forall (P := fun _ => True) fun _ _ => trivial
  exact exec_inv (fun s l s' hI _ hs => hstep s l s' hI hs) hI hC h

/-- The refinement rule: **where every step is a step of another machine, so is every run.** -/
theorem exec_map {σ' : Type*} {step' : σ' → ℓ → Option σ'} {I : σ → Prop} {P : ℓ → Prop} {f : σ → σ'}
    (h : ∀ s l, I s → P l → (step s l).map f = step' (f s) l ∧ ∀ s' ∈ step s l, I s') {s : σ}
    {ls : List ℓ} (hI : I s) (hP : ∀ l ∈ ls, P l) : (exec step s ls).map f = exec step' (f s) ls := by
  induction ls generalizing s with
  | nil => rfl
  | cons l ls ih =>
    obtain ⟨hmap, hkept⟩ := h s l hI (hP l List.mem_cons_self)
    simp only [exec, ← hmap]
    cases hs : step s l with
    | none => rfl
    | some t => exact ih (hkept t hs) fun k hk => hP k (List.mem_cons_of_mem l hk)

/-- The rank rule: **what every own step brings closer to its end, and no other step takes away from
    it, has an end in every run with more own steps than its rank.** -/
theorem exec_leaves {I P : σ → Prop} {r : σ → Nat} {own : ℓ → Bool}
    (hstep : ∀ s l s', I s → P s → step s l = some s' →
      I s' ∧ (P s' → r s' + (if own l then 1 else 0) ≤ r s))
    {s s' : σ} {ls : List ℓ} (hI : I s) (hP : P s) (h : exec step s ls = some s')
    (hr : r s < ls.countP own) : ∃ ls₁ s₁, ls₁ <+: ls ∧ exec step s ls₁ = some s₁ ∧ ¬ P s₁ := by
  induction ls generalizing s with
  | nil => simp at hr
  | cons l ls ih =>
    obtain ⟨t, ht, hrun⟩ := exec_cons.mp h
    obtain ⟨hIt, hlow⟩ := hstep s l t hI hP ht
    by_cases hPt : P t
    · have hle := hlow hPt
      rw [List.countP_cons] at hr
      obtain ⟨ls₁, s₁, hpre, hex, hP₁⟩ := ih hIt hPt hrun (by omega)
      exact ⟨l :: ls₁, s₁, List.cons_prefix_cons.mpr ⟨rfl, hpre⟩, exec_cons.mpr ⟨t, ht, hex⟩, hP₁⟩
    · refine ⟨[l], t, List.cons_prefix_cons.mpr ⟨rfl, List.nil_prefix⟩, ?_, hPt⟩
      exact exec_cons.mpr ⟨t, ht, exec_nil t⟩

/-- The potential rule: **the steps of a run that spend one (`w`) are paid by those that gain one (`g`) and by
    the potential of the state that the run starts from.** -/
theorem exec_pays {I : σ → Prop} {f : σ → Nat} {w g : ℓ → Bool}
    (hstep : ∀ s l s', I s → C s l → step s l = some s' →
      I s' ∧ f s' + (if w l then 1 else 0) ≤ f s + if g l then 1 else 0) {s s' : σ}
    {ls : List ℓ} (hI : I s) (hC : Along step C s ls) (h : exec step s ls = some s') :
    f s' + ls.countP w ≤ f s + ls.countP g := by
  induction ls generalizing s with
  | nil =>
    obtain rfl := Option.some.inj h
    exact Nat.le_refl _
  | cons l ls ih =>
    obtain ⟨t, ht, hrun⟩ := exec_cons.mp h
    obtain ⟨hl, hls⟩ := (along_cons ht).mp hC
    obtain ⟨hIt, hpays⟩ := hstep s l t hI hl ht
    have hrest := ih hIt hls hrun
    rw [List.countP_cons, List.countP_cons]
    omega

/-- The progress rule: **where every own step lowers a rank and some own step can be made until all is at
    rest, a state comes to rest by own steps, no more of them than its rank.** -/
theorem exec_rests {I P : σ → Prop} {O : ℓ → Prop} {r : σ → Nat}
    (hstep : ∀ s l s', I s → O l → step s l = some s' → I s' ∧ r s' < r s)
    (hmoves : ∀ s, I s → ¬ P s → ∃ l, O l ∧ (step s l).isSome = true) {s : σ} (hI : I s) :
    ∃ ls s', (∀ l ∈ ls, O l) ∧ exec step s ls = some s' ∧ ls.length ≤ r s ∧ P s' := by
  induction hr : r s using Nat.strongRecOn generalizing s with
  | _ n ih =>
    by_cases hP : P s
    · exact ⟨[], s, fun l hl => absurd hl List.not_mem_nil, exec_nil s, Nat.zero_le n, hP⟩
    · obtain ⟨l, hl, hsome⟩ := hmoves s hI hP
      obtain ⟨t, ht⟩ := Option.isSome_iff_exists.1 hsome
      obtain ⟨hIt, hlow⟩ := hstep s l t hI hl ht
      obtain ⟨ls, s', hls, hrun, hlen, hrest⟩ := ih (r t) (hr ▸ hlow) hIt rfl
      refine ⟨l :: ls, s', List.forall_mem_cons.2 ⟨hl, hls⟩, exec_cons.mpr ⟨t, ht, hrun⟩, ?_, hrest⟩
      rw [List.length_cons]
      omega

end Runs

/-! ## 2. Machines with outputs -/

section Outputs

variable {ο : Type*}

/-- A machine whose steps yield outputs, its outputs forgotten. -/
def silent (step : σ → ℓ → Option (σ × ο)) (s : σ) (l : ℓ) : Option σ :=
  match step s l with
  | some (s', _) => some s'
  | none => none

attribute [local simp] silent

theorem silent_some {step : σ → ℓ → Option (σ × ο)} {s s' : σ} {l : ℓ}
    (h : silent step s l = some s') : ∃ o, step s l = some (s', o) := by
  unfold silent at h
  cases hs : step s l with
  | none => rw [hs] at h; cases h
  | some r =>
    rw [hs] at h
    obtain rfl := Option.some.inj h
    exact ⟨r.2, rfl⟩

/-- What `f` selects of the outputs of a run, in order. -/
def outputs (step : σ → ℓ → Option (σ × ο)) (f : σ → ℓ → ο → List α) : σ → List ℓ → List α
  | _, [] => []
  | s, l :: ls =>
    match step s l with
    | some (s', o) => f s l o ++ outputs step f s' ls
    | none => []

attribute [local simp] outputs

theorem outputs_cons {step : σ → ℓ → Option (σ × ο)} {f : σ → ℓ → ο → List α} {s s' : σ} {l : ℓ}
    {o : ο} (h : step s l = some (s', o)) (ls : List ℓ) :
    outputs step f s (l :: ls) = f s l o ++ outputs step f s' ls := by
  simp only [outputs, h]

/-- What every step along `C` keeps to, all the outputs of a run keep to. -/
theorem outputs_inv {step : σ → ℓ → Option (σ × ο)} {f : σ → ℓ → ο → List α} {C : σ → ℓ → Prop}
    {I : σ → Prop} {Q : α → Prop}
    (hstep : ∀ s l s' o, I s → C s l → step s l = some (s', o) → I s' ∧ ∀ a ∈ f s l o, Q a)
    {s : σ} {ls : List ℓ} (hI : I s) (hC : Along (silent step) C s ls) :
    ∀ a ∈ outputs step f s ls, Q a := by
  induction ls generalizing s with
  | nil => exact fun a ha => by cases ha
  | cons l ls ih =>
    intro a ha
    cases hs : step s l with
    | none =>
      simp only [outputs, hs] at ha
      cases ha
    | some r =>
      obtain ⟨s', o⟩ := r
      have hsil : silent step s l = some s' := by simp only [silent, hs]
      obtain ⟨hl, hls⟩ := (along_cons hsil).mp hC
      obtain ⟨hI', hQ⟩ := hstep s l s' o hI hl hs
      rw [outputs_cons hs] at ha
      rcases List.mem_append.mp ha with ha | ha
      · exact hQ a ha
      · exact ih hI' hls a ha

/-- The machine with a monitor: `watch` updates the monitor's state at every step. -/
def observed {γ : Type*} (step : σ → ℓ → Option (σ × ο)) (watch : σ → ℓ → ο → γ → γ)
    (x : σ × γ) (l : ℓ) : Option (σ × γ) :=
  match step x.1 l with
  | some (s', o) => some (s', watch x.1 l o x.2)
  | none => none

attribute [local simp] observed

theorem observed_some {γ : Type*} {step : σ → ℓ → Option (σ × ο)} {watch : σ → ℓ → ο → γ → γ}
    {x x' : σ × γ} {l : ℓ} (h : observed step watch x l = some x') :
    ∃ o, step x.1 l = some (x'.1, o) ∧ x'.2 = watch x.1 l o x.2 := by
  unfold observed at h
  cases hs : step x.1 l with
  | none => rw [hs] at h; cases h
  | some r =>
    rw [hs] at h
    obtain rfl := Option.some.inj h
    exact ⟨r.2, rfl, rfl⟩

/-- Every run of the machine is watched to its end. -/
theorem exec_observed {γ : Type*} {step : σ → ℓ → Option (σ × ο)} (watch : σ → ℓ → ο → γ → γ)
    {s s' : σ} {ls : List ℓ} (g : γ) (h : exec (silent step) s ls = some s') :
    ∃ g', exec (observed step watch) (s, g) ls = some (s', g') := by
  induction ls generalizing s g with
  | nil =>
    obtain rfl := Option.some.inj h
    exact ⟨g, rfl⟩
  | cons l ls ih =>
    obtain ⟨t, ht, hrun⟩ := exec_cons.mp h
    obtain ⟨o, ho⟩ := silent_some ht
    obtain ⟨g', hg'⟩ := ih (watch s l o g) hrun
    refine ⟨g', exec_cons.mpr ⟨(t, watch s l o g), ?_, hg'⟩⟩
    simp only [observed, ho]

end Outputs

/-! ## 3. Tables of processes -/

/-- Reading a table after the entry at `i` was replaced. -/
theorem get_set {l : List α} {i j : Nat} {a b x : α} (hi : l[i]? = some b)
    (h : (l.set i a)[j]? = some x) : (j = i ∧ x = a) ∨ (j ≠ i ∧ l[j]? = some x) := by
  by_cases hji : j = i
  · subst hji
    have hlt : j < l.length := (List.getElem?_eq_some_iff.mp hi).1
    rw [List.getElem?_set_self hlt] at h
    exact .inl ⟨rfl, (Option.some.inj h).symm⟩
  · rw [List.getElem?_set_ne (Ne.symm hji)] at h
    exact .inr ⟨hji, h⟩

/-- Reading a table after an entry was added. -/
theorem get_concat {l : List α} {a x : α} {k : Nat} (h : (l ++ [a])[k]? = some x) :
    l[k]? = some x ∨ (k = l.length ∧ x = a) := by
  rw [List.getElem?_append] at h
  split at h
  · exact .inl h
  · rename_i hk
    obtain ⟨hlt, hx⟩ := List.getElem?_eq_some_iff.mp h
    have hlen : k - l.length < 1 := hlt
    refine .inr ⟨by omega, ?_⟩
    exact List.mem_singleton.mp (List.mem_of_getElem? h)

/-- The entries of a table after some were added and the one at `i` was replaced. -/
theorem mem_append_set {l new : List α} {i : Nat} {a b x : α} (hi : l[i]? = some b)
    (h : x ∈ (l ++ new).set i a) : x = a ∨ x ∈ new ∨ ∃ j, j ≠ i ∧ l[j]? = some x := by
  obtain ⟨j, hj⟩ := List.getElem?_of_mem h
  have hi' : (l ++ new)[i]? = some b := by
    rw [List.getElem?_append_left (List.getElem?_eq_some_iff.mp hi).1]
    exact hi
  rcases get_set hi' hj with ⟨-, hx⟩ | ⟨hne, hx⟩
  · exact .inl hx
  · rw [List.getElem?_append] at hx
    split at hx
    · exact .inr (.inr ⟨j, hne, hx⟩)
    · exact .inr (.inl (List.mem_of_getElem? hx))

/-- What some entry has, the one replaced had it or some entry still has it. -/
theorem exists_append_set {l new : List α} {i : Nat} {a b : α} {Q : α → Prop} (hi : l[i]? = some b)
    (h : ∃ x ∈ l, Q x) : Q b ∨ ∃ x ∈ (l ++ new).set i a, Q x := by
  obtain ⟨x, hx, hQ⟩ := h
  obtain ⟨j, hj⟩ := List.getElem?_of_mem hx
  by_cases hij : i = j
  · subst hij
    exact .inl (Option.some.inj (hj.symm.trans hi) ▸ hQ)
  · refine .inr ⟨x, List.mem_of_getElem? (i := j) ?_, hQ⟩
    rw [List.getElem?_set_ne hij, List.getElem?_append_left (List.getElem?_eq_some_iff.mp hj).1]
    exact hj

/-- Replacing an entry by one that counts the same. -/
theorem countP_set_eq {l : List α} {i : Nat} {a b : α} {p : α → Bool} (hi : l[i]? = some b)
    (h : p a = p b) : (l.set i a).countP p = l.countP p := by
  obtain ⟨hlt, rfl⟩ := List.getElem?_eq_some_iff.mp hi
  have hpos : p l[i] = true → 0 < l.countP p := fun hp =>
    List.countP_pos_iff.mpr ⟨l[i], List.getElem_mem hlt, hp⟩
  rw [List.countP_set hlt, h]
  cases hp : p l[i] with
  | false => simp
  | true =>
    have := hpos hp
    simp only [if_true]
    omega

/-- The last entry of a table after the entry at `i` was replaced. -/
theorem getLast_set {l : List α} {i : Nat} {a b x : α} (hi : l[i]? = some b)
    (h : (l.set i a).getLast? = some x) :
    (i + 1 = l.length ∧ x = a) ∨ (i + 1 ≠ l.length ∧ l.getLast? = some x) := by
  have hlt : i < l.length := (List.getElem?_eq_some_iff.mp hi).1
  rw [List.getLast?_eq_getElem?, List.length_set] at h
  rcases get_set hi h with ⟨hl, hx⟩ | ⟨hl, hx⟩
  · exact .inl ⟨by omega, hx⟩
  · exact .inr ⟨by omega, by rw [List.getLast?_eq_getElem?]; exact hx⟩

/-- The field `f` of the process `i`; `d` for a process that is not there yet. -/
def field {β : Type*} (f : α → β) (d : β) (l : List α) (i : Nat) : β := (l[i]?.map f).getD d

section Field

variable {β : Type*} {f : α → β} {d : β} {l : List α}

theorem field_eq {i : Nat} {a : α} (h : l[i]? = some a) : field f d l i = f a := by
  simp only [field, h, Option.map_some, Option.getD_some]

/-- A process that joins with the default was as good as there. -/
theorem field_concat {a : α} (ha : f a = d) : field f d (l ++ [a]) = field f d l := by
  funext i
  unfold field
  rw [List.getElem?_append]
  split
  · rfl
  · rename_i hi
    rw [List.getElem?_eq_none (by omega : l.length ≤ i)]
    cases hx : [a][i - l.length]? with
    | none => rfl
    | some x =>
      obtain rfl := List.mem_singleton.mp (List.mem_of_getElem? hx)
      exact ha

theorem field_set {i : Nat} {a b : α} (hi : l[i]? = some b) :
    field f d (l.set i a) = Function.update (field f d l) i (f a) := by
  funext k
  have hlt : i < l.length := (List.getElem?_eq_some_iff.mp hi).1
  by_cases hk : k = i
  · subst hk
    rw [Function.update_self, field_eq (List.getElem?_set_self hlt)]
  · rw [Function.update_of_ne hk]
    unfold field
    rw [List.getElem?_set_ne (Ne.symm hk)]

end Field

/-! ## 4. A lock -/

/-- The discipline of a lock: the process `p` takes it while it is free, stays inside, releases it on
    its way out, or stays outside; then **the one inside is always the holder**. -/
theorem lock_step {ω : Type*} {inside inside' : ω → Prop} {m m' : Option ω}
    (I : ∀ o, inside o ↔ m = some o) (p : ω) (hother : ∀ o, o ≠ p → (inside' o ↔ inside o))
    (h : (m = none ∧ inside' p ∧ m' = some p) ∨ (inside p ∧ inside' p ∧ m' = m) ∨
      (inside p ∧ ¬ inside' p ∧ m' = none) ∨ (¬ inside p ∧ ¬ inside' p ∧ m' = m)) :
    ∀ o, inside' o ↔ m' = some o := by
  intro o
  by_cases ho : o = p
  · subst ho
    rcases h with ⟨-, hin, rfl⟩ | ⟨hp, hin, rfl⟩ | ⟨-, hout, rfl⟩ | ⟨hp, hout, rfl⟩
    · exact ⟨fun _ => rfl, fun _ => hin⟩
    · exact ⟨fun _ => (I o).mp hp, fun _ => hin⟩
    · exact ⟨fun h => absurd h hout, nofun⟩
    · exact ⟨fun h => absurd h hout, fun h => absurd ((I o).mpr h) hp⟩
  · rw [hother o ho, I o]
    rcases h with ⟨rfl, -, rfl⟩ | ⟨-, -, rfl⟩ | ⟨hp, -, rfl⟩ | ⟨-, -, rfl⟩
    · exact ⟨nofun, fun h => absurd (Option.some.inj h).symm ho⟩
    · exact Iff.rfl
    · rw [(I p).mp hp]
      exact ⟨fun h => absurd (Option.some.inj h).symm ho, nofun⟩
    · exact Iff.rfl

end Machine
