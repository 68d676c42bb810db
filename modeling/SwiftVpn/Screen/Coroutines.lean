/-
  File:      SwiftVpn/Screen/Coroutines.lean
  Subject:   THE COROUTINES OF THE SCREEN COME TO AN END, and what they owe the user.

  * `pending`, `settles` -- how many segments can still run: however they are interleaved, each takes
    one at least, and at none left nothing is to run;
  * `spinner_waits` -- a row that shows a spinner has a test that is still to run;
  * `connects_le_taps` -- a tap is a token: it is pending, at the permission, at the credentials or at
    the engine, and in one of these places only.
-/
import SwiftVpn.Screen.Lists

namespace SwiftVpn

open Machine

/-! ## 1. Segments -/

namespace Segment

/-- How many segments a segment stands for at most, itself and what it launches. -/
def rank : Segment → Nat
  | .show _ | .opened _ _ _ | .added none | .checked _ _ | .probe _ | .speed _ => 1
  | .load | .settings _ _ | .startTunnel _ => 2
  | .openSettings _ | .manifest _ | .fetched | .removed _ => 3
  | .fetch _ | .removeSubscription _ => 4
  | .added (some _) => 5
  | .addSubscription _ _ | .returned _ _ _ => 6
  | .call _ => 7
  | .imported _ _ _ _ => 8
  | .importZip _ _ _ => 9
  | .delete rest => rest.length + 3
  | .test rest => rest.length + 1

/-- The profiles that a segment is to test. -/
def tests : Segment → List Uuid
  | .test rest => rest
  | .probe u | .speed u => [u]
  | _ => []

/-- The profile that a segment is to connect. -/
def connects : Segment → Option Uuid
  | .startTunnel u | .checked u _ | .call (.setCredentials u _ _) | .returned (.setCredentials u _ _) _ _ => some u
  | _ => none

theorem rank_pos (t : Segment) : 0 < t.rank := by
  unfold rank
  split <;> omega

end Segment

/-- The taps on a profile that wait for the permission, for the credentials, or came to the engine. -/
def Connecting.held (c : Connecting) (u : Uuid) : Nat :=
  c.connects.count u + (if c.pendingConnect = some u then 1 else 0)
    + if c.credentialsFor.map (·.uuid) = some u then 1 else 0

/-- A sum over a list, one element of which is taken out. -/
theorem sum_map_eraseIdx {α : Type} (f : α → Nat) {l : List α} {i : Nat} {a : α} (hi : l[i]? = some a) :
    (l.map f).sum = ((l.eraseIdx i).map f).sum + f a := by
  obtain ⟨hlt, rfl⟩ := List.getElem?_eq_some_iff.1 hi
  have hperm := (List.getElem_cons_eraseIdx_perm hlt).map f
  rw [← hperm.sum_eq, List.map_cons, List.sum_cons, Nat.add_comm]

namespace MainViewModel

section Coroutines

variable {pf : Platform} {lower hostOf : String → String} {newId : Nat → String} {vm vm' : MainViewModel}

/-! ## 2. They come to an end -/

/-- How many segments can still run. -/
def pending (vm : MainViewModel) : Nat := (vm.segments.map Segment.rank).sum

theorem pending_eq_zero : vm.pending = 0 ↔ vm.segments = [] := by
  unfold pending
  cases vm.segments with
  | nil => exact ⟨fun _ => rfl, fun _ => rfl⟩
  | cons t ts =>
    have hpos := t.rank_pos
    rw [List.map_cons, List.sum_cons]
    exact ⟨fun h => by omega, fun h => by cases h⟩

theorem rank_toList {α : Type} (o : Option α) {f : α → Segment} {n : Nat} (h : ∀ a, (f a).rank = n) :
    ((o.toList.map f).map Segment.rank).sum ≤ n := by
  cases o with
  | none => exact Nat.zero_le n
  | some a => exact Nat.le_of_eq (h a)

theorem rank_returned (vm : MainViewModel) (op : Operation) (ok : Bool) (created : Option Uuid) :
    ((vm.returned op ok created).2.map Segment.rank).sum ≤ 5 := by
  have hif : ∀ {c : Prop} [Decidable c] {ts : List Segment}, (ts.map Segment.rank).sum ≤ 5 →
      ((if c then ts else []).map Segment.rank).sum ≤ 5 := by
    intro c _ ts hts
    split
    · exact hts
    · exact Nat.zero_le 5
  have hopens : ((Segment.load :: created.toList.map .openSettings).map Segment.rank).sum ≤ 5 := by
    rw [List.map_cons, List.sum_cons]
    exact Nat.add_le_add_left (rank_toList created fun u => (rfl : (Segment.openSettings u).rank = 3)) 2
  have hload : ([Segment.load].map Segment.rank).sum ≤ 5 := by decide
  unfold returned
  cases op with
  | importConfig _ _ => exact hif hload
  | renameProfile _ _ => exact hload
  | saveProfileSettings _ _ _ => exact hif hload
  | saveIkev2Settings _ => exact hload
  | saveWireGuardSettings _ _ _ =>
    cases ok with
    | true => exact hload
    | false => exact Nat.zero_le 5
  | saveXraySettings _ _ _ =>
    cases ok with
    | true => exact hload
    | false => exact Nat.zero_le 5
  | createXrayProfile _ => exact hif hopens
  | createIkev2Profile _ => exact hif hopens
  | createWarpProfile _ => exact hif hload
  | _ => exact Nat.zero_le 5

/-- What a segment launches stands for fewer segments than itself. -/
theorem rank_runSegment (vm : MainViewModel) (env : Env) (t : Segment) :
    ((vm.runSegment pf lower hostOf newId env t).2.map Segment.rank).sum < t.rank := by
  unfold runSegment
  cases t with
  | returned op ok created => exact Nat.lt_succ_of_le (rank_returned vm op ok created)
  | imported any archive text name =>
    cases any with
    | true => exact (by decide : 5 < 8)
    | false => exact Nat.lt_succ_of_le (rank_toList text fun _ => rfl)
  | manifest archive =>
    dsimp only
    split
    · exact Nat.lt_succ_self 2
    · exact Nat.succ_pos 2
  | delete rest =>
    cases rest with
    | nil => exact Nat.lt_succ_self 2
    | cons u rest =>
      show rest.length + 3 + 0 < rest.length + 1 + 3
      omega
  | addSubscription name url =>
    dsimp only
    split
    · exact Nat.lt_succ_self 5
    · exact (by decide : 1 < 6)
  | added id =>
    cases id with
    | none => exact Nat.one_pos
    | some id => exact Nat.lt_succ_of_le (rank_toList _ fun _ => rfl)
  | checked u username =>
    cases username <;> exact Nat.one_pos
  | test rest =>
    cases rest with
    | nil => exact Nat.one_pos
    | cons u rest =>
      show ((if rest = [] then [] else [Segment.test rest]).map Segment.rank).sum < rest.length + 1 + 1
      split
      · exact Nat.succ_pos _
      · exact Nat.lt_succ_of_le (Nat.le_refl _)
  | call op => exact Nat.lt_succ_self 6
  | importZip archive text name => exact Nat.lt_succ_self 8
  | load => exact Nat.lt_succ_self 1
  | settings p u => exact Nat.lt_succ_self 1
  | openSettings u => exact Nat.lt_succ_self 2
  | startTunnel u => exact Nat.lt_succ_self 1
  | fetch sub => exact Nat.lt_succ_self 3
  | removeSubscription id => exact Nat.lt_succ_self 3
  | fetched => exact Nat.lt_succ_self 2
  | removed id => exact Nat.lt_succ_self 2
  | _ => exact Nat.one_pos

/-- A segment that runs. -/
def Event.advances : Event → Bool
  | .advance _ _ => true
  | _ => false

/-- **The step lemma.** -/
theorem pending_advanced {e : Event} (he : e.advances = true) (hstep : vm.step pf lower hostOf newId e = some vm') :
    vm'.pending + 1 ≤ vm.pending := by
  rcases step_cases hstep with ⟨rfl, -⟩ | ⟨i, env, t, rfl, ht, rfl⟩ | ⟨result, hact, -⟩
  · cases he
  · have hlow := @rank_runSegment pf lower hostOf newId vm env t
    unfold pending
    rw [sum_map_eraseIdx Segment.rank ht, List.map_append, List.sum_append]
    omega
  · cases e with
    | advance i env => cases hact
    | _ => cases he

/-- **The coroutines come to an end**: while the user does nothing, no more segments run than are pending,
    in whatever order; each that is still to run can; and none is left only when none is pending. -/
theorem settles {events : List Event} (hrun : exec (step pf lower hostOf newId) vm events = some vm')
    (hsegments : ∀ e ∈ events, e.advances = true) :
    vm'.pending + events.length ≤ vm.pending ∧ (vm'.pending = 0 ↔ vm'.segments = []) ∧
      ∀ i < vm'.segments.length, ∀ env, (vm'.step pf lower hostOf newId (.advance i env)).isSome = true := by
  refine ⟨?_, pending_eq_zero, fun i hi env => ?_⟩
  · have hone : events.countP (fun _ => true) = events.length := by simp
    have hnone : events.countP (fun _ => false) = 0 := by simp
    have hstep : ∀ (v : MainViewModel) (e : Event) (v' : MainViewModel), True → e.advances = true →
        v.step pf lower hostOf newId e = some v' → True ∧ v'.pending + 1 ≤ v.pending + 0 :=
      fun v e v' _ he hstep => ⟨trivial, pending_advanced he hstep⟩
    have hpays := exec_pays (w := fun _ => true) (g := fun _ => false) hstep trivial (along_of_forall hsegments) hrun
    rwa [hone, hnone, Nat.add_zero] at hpays
  · unfold step
    dsimp only
    rw [List.getElem?_eq_getElem hi]
    rfl

theorem settles_created : ∃ vm vm', exec sampleStep start sampleCreate = some vm ∧
    exec sampleStep vm ([0, 0, 0, 1, 0, 0, 0, 0].map fun i => .advance i {}) = some vm' ∧
      vm'.pending + 8 ≤ vm.pending ∧ vm'.segments = [] := by
  obtain ⟨vm, vm', hvm, hrun, hrest⟩ : ∃ vm vm', exec sampleStep start sampleCreate = some vm ∧
      exec sampleStep vm ([0, 0, 0, 1, 0, 0, 0, 0].map fun i => .advance i {}) = some vm' ∧ vm'.segments = [] :=
    ⟨_, _, rfl, rfl, rfl⟩
  have hsettles := settles hrun (by decide)
  exact ⟨vm, vm', hvm, hrun, hsettles.1, hrest⟩

/-! ## 3. What is owed -/

/-- The segments that are to connect a profile. -/
def owed (ts : List Segment) (u : Uuid) : Nat := ts.countP fun t => t.connects = some u

/-- A tap that is to connect a profile. -/
def Event.taps (u : Uuid) : Event → Bool
  | .toggle v stops _ => v = u && !stops
  | _ => false

/-- What is left to be done: a test for each new spinner, and no connection that was not owed. -/
structure Owes (vm vm' : MainViewModel) (next : List Segment) (tests : List Uuid) (u : Uuid) (n : Nat) : Prop where
  spins : u ∈ vm'.tests.testing → u ∈ vm.tests.testing ∧ (u ∈ tests → ∃ t ∈ next, u ∈ t.tests) ∨
    ∃ t ∈ next, u ∈ t.tests
  connects : vm'.connecting.held u + owed next u ≤ vm.connecting.held u + n

variable {next : List Segment} {u : Uuid} {n : Nat}

theorem owed_nil : owed [] u = 0 := rfl

theorem owed_one (t : Segment) : owed [t] u = if t.connects = some u then 1 else 0 := by
  unfold owed
  rw [List.countP_singleton]
  simp only [decide_eq_true_eq]

theorem owed_toList {α : Type} (o : Option α) {f : α → Segment} (h : ∀ a, (f a).connects = none) :
    owed (o.toList.map f) u = 0 := by
  cases o with
  | none => rfl
  | some a =>
    show owed [f a] u = 0
    rw [owed_one, h a]
    rfl

/-- A step that is about neither. -/
theorem owes_same (htests : vm'.tests = vm.tests) (hconnecting : vm'.connecting = vm.connecting)
    (hnext : owed next u ≤ n) : Owes vm vm' next [] u n :=
  ⟨fun hu => .inl ⟨htests ▸ hu, fun h => absurd h List.not_mem_nil⟩,
    by rw [hconnecting]; exact Nat.add_le_add_left hnext _⟩

/-- The engine is asked to connect. -/
theorem held_connect (vm : MainViewModel) (v : Uuid) :
    (vm.connect v).connecting.held u = vm.connecting.held u + if some v = some u then 1 else 0 := by
  unfold connect Connecting.held
  dsimp only
  rw [List.count_append, List.count_singleton]
  simp only [beq_iff_eq, Option.some.injEq]
  omega

theorem owes_connect (htests : vm'.tests = vm.tests) (hconnecting : vm'.connecting = vm.connecting) (v : Uuid) :
    Owes vm (vm'.connect v) [] [] u (if some v = some u then 1 else 0) :=
  ⟨fun hu => .inl ⟨htests ▸ hu, fun h => absurd h List.not_mem_nil⟩,
    by rw [held_connect, hconnecting]; exact Nat.le_refl _⟩

theorem owes_returned (vm : MainViewModel) (op : Operation) (ok : Bool) (created : Option Uuid) :
    Owes vm (vm.returned op ok created).1 (vm.returned op ok created).2 [] u
      (if (Segment.returned op ok created).connects = some u then 1 else 0) := by
  have hload : ∀ {vm' : MainViewModel} {c : Prop} [Decidable c] {n : Nat}, vm'.tests = vm.tests →
      vm'.connecting = vm.connecting → Owes vm vm' (if c then [.load] else []) [] u n := by
    intro vm' c _ n htests hconnecting
    refine owes_same htests hconnecting ?_
    split <;> exact Nat.zero_le _
  have hopens : owed (.load :: created.toList.map .openSettings) u = 0 := by
    unfold owed
    rw [List.countP_cons_of_neg (by simp [Segment.connects])]
    exact owed_toList created fun _ => rfl
  have hcreated : ∀ {c : Prop} [Decidable c] {n : Nat},
      Owes vm vm (if c then .load :: created.toList.map .openSettings else []) [] u n := by
    intro c _ n
    refine owes_same rfl rfl ?_
    split
    · exact hopens ▸ Nat.zero_le _
    · exact Nat.zero_le _
  unfold returned
  cases op with
  | setCredentials v c persist => exact owes_connect rfl rfl v
  | importConfig _ _ => exact hload rfl rfl
  | saveProfileSettings _ _ _ => exact hload rfl rfl
  | createWarpProfile _ => exact hload rfl rfl
  | createXrayProfile _ => exact hcreated
  | createIkev2Profile _ => exact hcreated
  | saveWireGuardSettings _ _ _ => cases ok <;> exact owes_same rfl rfl (Nat.zero_le _)
  | saveXraySettings _ _ _ => cases ok <;> exact owes_same rfl rfl (Nat.zero_le _)
  | _ => exact owes_same rfl rfl (Nat.zero_le _)

/-- A test that is over takes away the spinner of its profile, and no other. -/
theorem owes_tested {v : Uuid} {ms : Option (Option Nat)} {rest : List Uuid}
    (hrest : u ∈ rest → ∃ t ∈ next, u ∈ t.tests) (howed : owed next u = 0) :
    Owes vm (vm.tested v ms) next (v :: rest) u n where
  spins hu := by
    obtain ⟨hm, hne⟩ := List.mem_filter.1 hu
    refine .inl ⟨hm, fun hin => hrest ((List.mem_cons.1 hin).resolve_left (of_decide_eq_true hne))⟩
  connects := by
    rw [howed]
    exact Nat.le_add_right _ _

/-- The credentials are asked for the profile that was tapped, if it is shown. -/
theorem shown_asked (vm : MainViewModel) (v u : Uuid) :
    (if (vm.shown v).map (fun r => r.profile.uuid) = some u then 1 else 0) ≤ if some v = some u then 1 else 0 := by
  split
  · rename_i hasked
    obtain ⟨r, hr, huuid⟩ := Option.map_eq_some_iff.1 hasked
    unfold MainViewModel.shown at hr
    have hbeq := List.find?_some hr
    have hfound : r.profile.uuid = v := beq_iff_eq.1 hbeq
    rw [if_pos (congrArg some (hfound.symm.trans huuid))]
  · exact Nat.zero_le _

/-- What a segment owes. -/
theorem owes_runSegment (vm : MainViewModel) (env : Env) (t : Segment) :
    Owes vm (vm.runSegment pf lower hostOf newId env t).1 (vm.runSegment pf lower hostOf newId env t).2 t.tests u
      (if t.connects = some u then 1 else 0) := by
  have hnone : ∀ {next : List Segment}, owed next u = 0 →
      owed next u ≤ if (none : Option Uuid) = some u then 1 else 0 := by
    intro next h
    rw [h]
    exact Nat.zero_le _
  unfold runSegment
  cases t with
  | returned op ok created => exact owes_returned vm op ok created
  | call op =>
    refine owes_same rfl rfl ?_
    rw [owed_one]
    cases op <;> exact Nat.le_refl _
  | startTunnel v => exact owes_same rfl rfl (by rw [owed_one]; exact Nat.le_refl _)
  | checked v username =>
    cases username with
    | some name =>
      refine ⟨fun hu => .inl ⟨hu, fun h => absurd h List.not_mem_nil⟩, ?_⟩
      have hasked := shown_asked vm v u
      unfold Connecting.held
      dsimp only
      rw [owed_nil, Option.map_map]
      show _ + _ + (if (vm.shown v).map (fun r => r.profile.uuid) = some u then 1 else 0) + 0 ≤
        _ + _ + _ + if some v = some u then 1 else 0
      omega
    | none =>
      dsimp only
      cases vm.shown v with
      | none => exact owes_connect rfl rfl v
      | some r => exact @owes_connect vm (vm.assignToTile r.profile) u rfl rfl v
  | test rest =>
    cases rest with
    | nil => exact owes_same rfl rfl (Nat.zero_le _)
    | cons v rest =>
      dsimp only
      refine owes_tested (fun hin => ?_) ?_
      · rw [if_neg (List.ne_nil_of_mem hin)]
        exact ⟨_, List.mem_singleton_self _, hin⟩
      · split <;> rfl
  | probe v => exact owes_tested (fun h => absurd h List.not_mem_nil) rfl
  | speed v => exact owes_tested (fun h => absurd h List.not_mem_nil) rfl
  | imported any archive text name =>
    cases any with
    | true => exact owes_same rfl rfl (Nat.zero_le _)
    | false => exact owes_same rfl rfl (hnone (owed_toList text fun _ => rfl))
  | manifest archive =>
    dsimp only
    split <;> exact owes_same rfl rfl (Nat.zero_le _)
  | delete rest => cases rest <;> exact owes_same rfl rfl (Nat.zero_le _)
  | addSubscription name url =>
    dsimp only
    split <;> exact owes_same rfl rfl (Nat.zero_le _)
  | added id =>
    cases id with
    | none => exact owes_same rfl rfl (Nat.zero_le _)
    | some id => exact owes_same rfl rfl (hnone (owed_toList _ fun _ => rfl))
  | _ => exact owes_same rfl rfl (Nat.zero_le _)

/-- What the user does owes no more than a tap. -/
theorem owes_act {e : Event} {result : MainViewModel × List Segment} (hact : vm.act pf lower e = some result) :
    Owes vm result.1 result.2 [] u (if e.taps u = true then 1 else 0) := by
  have hone : ∀ {t : Segment} {n : Nat}, t.connects = none → owed [t] u ≤ n := by
    intro t n h
    rw [owed_one, h]
    exact Nat.zero_le _
  have hsame : ∀ {vm' : MainViewModel} {t : Segment}, vm'.tests = vm.tests → vm'.connecting = vm.connecting →
      t.connects = none → Owes vm vm' [t] [] u (if e.taps u = true then 1 else 0) :=
    fun htests hconnecting h => owes_same htests hconnecting (hone h)
  have hquiet : ∀ {vm' : MainViewModel}, vm'.tests = vm.tests → vm'.connecting = vm.connecting →
      Owes vm vm' [] [] u (if e.taps u = true then 1 else 0) :=
    fun htests hconnecting => owes_same htests hconnecting (Nat.zero_le _)
  have hstarts : ∀ {us : List Uuid} {t : Segment}, us = t.tests → t.connects = none →
      Owes vm (vm.testing us) [t] [] u (if e.taps u = true then 1 else 0) := by
    rintro us t rfl hnone
    refine ⟨fun hu => ?_, ?_⟩
    · exact (List.mem_append.1 hu).imp (fun hm => ⟨hm, fun h => absurd h List.not_mem_nil⟩)
        fun hm => ⟨t, List.mem_singleton_self t, hm⟩
    · exact Nat.add_le_add_left (hone hnone) _
  unfold act at hact
  cases e with
  | restart => cases hact
  | advance i env => cases hact
  | toggle v stops permitted =>
    obtain rfl := Option.some.inj hact
    cases stops with
    | true => exact hquiet rfl rfl
    | false =>
      have htap : (if some v = some u then 1 else 0)
          ≤ if (Event.toggle v false permitted).taps u = true then 1 else 0 := by
        unfold Event.taps
        split <;> simp_all
      cases permitted with
      | true =>
        refine @owes_same vm vm [.startTunnel v] u _ rfl rfl ?_
        rw [owed_one]
        exact htap
      | false =>
        refine ⟨fun hu => .inl ⟨hu, fun h => absurd h List.not_mem_nil⟩, ?_⟩
        have hheld : Connecting.held { vm.connecting with pendingConnect := some v, permissionAsked := true } u
            ≤ vm.connecting.held u + if some v = some u then 1 else 0 := by
          unfold Connecting.held
          dsimp only
          omega
        exact hheld.trans (Nat.add_le_add_left htap _)
  | permissionResult granted =>
    obtain rfl := Option.some.inj hact
    refine ⟨fun hu => .inl ⟨hu, fun h => absurd h List.not_mem_nil⟩, ?_⟩
    unfold Connecting.held
    dsimp only
    cases granted with
    | false =>
      show _ + 0 + _ + 0 ≤ _ + _ + _ + _
      omega
    | true =>
      cases vm.connecting.pendingConnect with
      | none => exact Nat.le_add_right _ _
      | some v =>
        have howed : owed [.startTunnel v] u = if some v = some u then 1 else 0 := owed_one _
        show _ + 0 + _ + owed [.startTunnel v] u ≤ _ + (if some v = some u then 1 else 0) + _ + _
        omega
  | submitCredentials c remember =>
    obtain ⟨p, hp, rfl⟩ := Option.map_eq_some_iff.1 hact
    refine ⟨fun hu => .inl ⟨hu, fun h => absurd h List.not_mem_nil⟩, ?_⟩
    unfold Connecting.held assignToTile
    dsimp only
    rw [owed_one, hp]
    show _ + _ + 0 + (if some p.uuid = some u then 1 else 0) ≤ _ + _ + (if some p.uuid = some u then 1 else 0) + _
    omega
  | dismissCredentials =>
    obtain rfl := Option.some.inj hact
    refine ⟨fun hu => .inl ⟨hu, fun h => absurd h List.not_mem_nil⟩, ?_⟩
    unfold Connecting.held
    dsimp only
    rw [owed_nil]
    exact (Nat.add_le_add_left (Nat.zero_le _) _).trans (Nat.le_add_right _ _)
  | testLatency v active =>
    obtain rfl := Option.some.inj hact
    split
    · exact hquiet rfl rfl
    · exact hstarts rfl rfl
  | testAllLatency active =>
    obtain rfl := Option.some.inj hact
    cases active with
    | true => exact hquiet rfl rfl
    | false => exact hstarts rfl rfl
  | probeXray v active =>
    obtain rfl := Option.some.inj hact
    cases active with
    | true => exact hquiet rfl rfl
    | false => exact hstarts rfl rfl
  | testDownloadSpeed v active =>
    obtain rfl := Option.some.inj hact
    cases active with
    | true => exact hquiet rfl rfl
    | false => exact hstarts rfl rfl
  | importFromText text =>
    obtain rfl := Option.some.inj hact
    dsimp only
    split
    · exact hquiet rfl rfl
    · exact hsame rfl rfl rfl
  | importFromUri archive text name =>
    obtain rfl := Option.some.inj hact
    cases archive with
    | some archive => exact hsame rfl rfl rfl
    | none =>
      refine owes_same rfl rfl ?_
      rw [owed_toList text fun _ => rfl]
      exact Nat.zero_le _
  | setGroupFilter id =>
    obtain ⟨-, rfl⟩ := some_of_ite hact
    exact hquiet rfl rfl
  | toggleFavourite v =>
    obtain ⟨-, rfl⟩ := some_of_ite hact
    exact hsame rfl rfl rfl
  | toggleSelected v =>
    obtain ⟨-, rfl⟩ := some_of_ite hact
    exact hquiet rfl rfl
  | deleteAll us =>
    dsimp only at hact
    split at hact
    · cases hact
    · obtain rfl := Option.some.inj hact
      exact hsame rfl rfl rfl
  | rename v name =>
    obtain ⟨-, rfl⟩ := some_of_ite hact
    exact hsame rfl rfl rfl
  | openSettings v =>
    obtain ⟨-, rfl⟩ := some_of_ite hact
    exact hsame rfl rfl rfl
  | saveSettings name username =>
    obtain ⟨v, -, rfl⟩ := Option.map_eq_some_iff.1 hact
    exact hsame rfl rfl rfl
  | saveWireGuardSettings rawConfig name =>
    obtain ⟨v, -, rfl⟩ := Option.map_eq_some_iff.1 hact
    exact hsame rfl rfl rfl
  | saveXraySettings link name =>
    obtain ⟨v, -, rfl⟩ := Option.map_eq_some_iff.1 hact
    exact hsame rfl rfl rfl
  | saveIkev2Settings updated =>
    obtain ⟨-, rfl⟩ := some_of_ite hact
    exact hsame rfl rfl rfl
  | refreshSubscription id =>
    obtain ⟨-, rfl⟩ := some_of_ite hact
    refine owes_same rfl rfl ?_
    rw [owed_toList _ fun _ => rfl]
    exact Nat.zero_le _
  | removeSubscription id =>
    obtain ⟨-, rfl⟩ := some_of_ite hact
    exact hsame rfl rfl rfl
  | _ =>
    obtain rfl := Option.some.inj hact
    first
      | exact hquiet rfl rfl
      | exact hsame rfl rfl rfl

/-! ## 4. Spinners -/

/-- A spinner has a test that is to run. -/
def Spins (vm : MainViewModel) : Prop := ∀ u ∈ vm.tests.testing, ∃ t ∈ vm.segments, u ∈ t.tests

/-- **The step lemma.** -/
theorem Spins.stepped (h : vm.Spins) {e : Event} (hstep : vm.step pf lower hostOf newId e = some vm') :
    vm'.Spins := by
  intro u hu
  rcases step_cases hstep with ⟨rfl, rfl⟩ | ⟨i, env, t, rfl, ht, rfl⟩ | ⟨result, hact, rfl⟩
  · exact absurd hu List.not_mem_nil
  · rcases (owes_runSegment vm env t).spins hu with ⟨hm, hnext⟩ | ⟨t', ht', hin⟩
    · obtain ⟨t', ht', hin⟩ := h u hm
      by_cases he : t' = t
      · obtain ⟨t'', ht'', hin⟩ := hnext (he ▸ hin)
        exact ⟨t'', List.mem_append_right _ ht'', hin⟩
      · exact ⟨t', List.mem_append_left _ (mem_eraseIdx_of_ne ht ht' he), hin⟩
    · exact ⟨t', List.mem_append_right _ ht', hin⟩
  · rcases (owes_act hact).spins hu with ⟨hm, -⟩ | ⟨t, ht, hin⟩
    · obtain ⟨t, ht, hin⟩ := h u hm
      exact ⟨t, List.mem_append_left _ ht, hin⟩
    · exact ⟨t, List.mem_append_right _ ht, hin⟩

/-- **A spinner does not stay for good**: in every run each row that shows one has a test that is still to
    run, whatever other tests of it ended meanwhile; so at rest no row shows one. -/
theorem spinner_waits {events : List Event} (hrun : exec (step pf lower hostOf newId) start events = some vm) :
    (∀ u ∈ vm.tests.testing, ∃ t ∈ vm.segments, u ∈ t.tests) ∧ (vm.segments = [] → vm.tests.testing = []) := by
  have hspins : vm.Spins :=
    exec_inv' (fun _ _ _ h hstep => Spins.stepped h hstep) (fun u hu => absurd hu List.not_mem_nil) hrun
  refine ⟨hspins, fun hrest => List.eq_nil_iff_forall_not_mem.2 fun u hu => ?_⟩
  obtain ⟨t, ht, -⟩ := hspins u hu
  rw [hrest] at ht
  cases ht

theorem spinner_waits_probed : ∃ vm, exec sampleStep start [.probeXray "u" false, .testDownloadSpeed "u" false]
      = some vm ∧
    vm.tests.testing ≠ [] ∧ ∀ u ∈ vm.tests.testing, ∃ t ∈ vm.segments, u ∈ t.tests := by
  obtain ⟨vm, hrun, htesting⟩ : ∃ vm, exec sampleStep start [.probeXray "u" false, .testDownloadSpeed "u" false]
      = some vm ∧ vm.tests.testing = ["u", "u"] := ⟨_, rfl, rfl⟩
  exact ⟨vm, hrun, htesting ▸ List.cons_ne_nil _ _, (spinner_waits hrun).1⟩

/-! ## 5. Taps -/

/-- Where the taps on a profile are. -/
def tokens (vm : MainViewModel) (u : Uuid) : Nat := vm.connecting.held u + owed vm.segments u

/-- **The step lemma.** -/
theorem tokens_stepped {e : Event} (hstep : vm.step pf lower hostOf newId e = some vm') (u : Uuid) :
    vm'.tokens u ≤ vm.tokens u + if e.taps u = true then 1 else 0 := by
  rcases step_cases hstep with ⟨rfl, rfl⟩ | ⟨i, env, t, rfl, ht, rfl⟩ | ⟨result, hact, rfl⟩
  · -- what was asked for remains, and what waits is dropped
    have hinit : owed [Segment.load] u = 0 := rfl
    unfold tokens Connecting.held init
    dsimp only [Option.map_none]
    rw [hinit, if_neg (Option.some_ne_none u).symm]
    omega
  · have hconnects := (@owes_runSegment pf lower hostOf newId u vm env t).connects
    have herased : owed vm.segments u = owed (vm.segments.eraseIdx i) u + if t.connects = some u then 1 else 0 := by
      obtain ⟨hlt, rfl⟩ := List.getElem?_eq_some_iff.1 ht
      unfold owed
      rw [← (List.getElem_cons_eraseIdx_perm hlt).countP_eq, List.countP_cons]
      simp only [decide_eq_true_eq]
    unfold tokens
    dsimp only
    unfold owed at *
    rw [List.countP_append]
    omega
  · have hconnects := (owes_act hact (u := u)).connects
    unfold tokens
    dsimp only
    unfold owed at *
    rw [List.countP_append]
    omega

/-- **No connection but on a tap**: in every run, whatever the interleaving, the engine is asked to connect a
    profile no more often than the profile was tapped. -/
theorem connects_le_taps {events : List Event} (hrun : exec (step pf lower hostOf newId) start events = some vm)
    (u : Uuid) : vm.connecting.connects.count u ≤ events.countP (Event.taps u) := by
  have hstep : ∀ (v : MainViewModel) (e : Event) (v' : MainViewModel), True → True →
      v.step pf lower hostOf newId e = some v' →
        True ∧ v'.tokens u + 0 ≤ v.tokens u + if e.taps u = true then 1 else 0 :=
    fun v e v' _ _ hstep => ⟨trivial, tokens_stepped hstep u⟩
  have hall : Along (step pf lower hostOf newId) (fun _ _ => True) start events :=
    along_of_forall (P := fun _ => True) fun _ _ => trivial
  have hpays := exec_pays (w := fun _ => false) hstep trivial hall hrun
  have hnone : events.countP (fun _ => false) = 0 := by simp
  have hstart : start.tokens u = 0 := rfl
  have hheld : vm.connecting.connects.count u ≤ vm.tokens u := by
    unfold tokens Connecting.held
    omega
  rw [hnone, hstart] at hpays
  omega

/-- Two taps on a profile, the first of which waits for the permission, and the second with it there; then a
    restart, and another tap. -/
def sampleTaps : List Event :=
  [.toggle "u" false false, .toggle "u" false true, .permissionResult true, .advance 1 {}, .advance 2 {},
    .advance 1 {}, .advance 1 {}, .restart, .toggle "u" false true, .advance 1 {}, .advance 1 {}]

theorem connects_le_taps_tapped : ∃ vm, exec sampleStep start sampleTaps = some vm ∧
    vm.connecting.connects = ["u", "u", "u"] ∧ vm.connecting.connects.count "u" ≤ 3 := by
  obtain ⟨vm, hrun, hconnects⟩ : ∃ vm, exec sampleStep start sampleTaps = some vm ∧
      vm.connecting.connects = ["u", "u", "u"] := ⟨_, rfl, rfl⟩
  exact ⟨vm, hrun, hconnects, connects_le_taps hrun "u"⟩

end Coroutines

end MainViewModel

end SwiftVpn
