/-
  File:      SwiftVpn/Screen/Lists.lean
  Subject:   WHAT THE LIST SHOWS, in every run and under every interleaving of the coroutines.

  * `Rearranged` -- what a step can do to the flows of the list and to the subscriptions;
  * `Arranged` -- the invariant: the two filters exclude each other, only loaded profiles are ticked,
    what is shown is the list filtered and sorted, unless it is to be loaded again, and a group that is
    chosen is of a subscription that is there, unless its removal is to be shown;
  * `arranged_at_rest` -- so once no segment is to run, the screen shows what it holds.
-/
import SwiftVpn.Screen.Stores

namespace SwiftVpn

open Machine

namespace MainViewModel

/-! ## 1. What a step does to the list -/

/-- What a step can do to the list and the subscriptions; `v` and `subs` are those after it,
    `next` is what is to run then. -/
inductive Rearranged (lower : String → String) (vm : MainViewModel) (v : ListView) (subs : List Subscription)
    (next : List Segment) : Prop where
  | same (hview : v = vm.view) (hsubs : subs = vm.subs)
  | byProtocol (p : Option Protocol) (hview : v = vm.view.setProtocolFilter lower p)
    (hsubs : subs = vm.subs)
  | byGroup (id : Option String) (hid : id.all vm.listed = true)
    (hview : v = vm.view.setGroupFilter lower id) (hsubs : subs = vm.subs)
  | ticked (selected : List Uuid)
    (hselected : ∀ u ∈ selected, u ∈ vm.view.selected ∨ u ∈ vm.view.profiles.map (·.profile.uuid))
    (hview : v = { vm.view with selected := selected }) (hsubs : subs = vm.subs)
  | loaded (rows : List Row) (hview : v = vm.view.loaded lower rows vm.subs) (hsubs : subs = vm.subs)
  | listed (hview : v = { vm.view with subscriptions := vm.subs }) (hsubs : subs = vm.subs)
  | left (id : String)
    (hview : v = { vm.view with
      subscriptions := vm.subs
      groupFilter := if vm.view.groupFilter = some id then none else vm.view.groupFilter })
    (hsubs : subs = vm.subs) (hnext : next = [.load])
  | added (sub : Subscription) (hview : v = vm.view) (hsubs : subs = vm.subs ++ [sub])
    (hnext : next = [.added (some sub.id)])
  | counted (hview : v = vm.view) (hsubs : subs.map (·.id) = vm.subs.map (·.id))
    (hnext : next = [.fetched])
  | removed (id : String) (hview : v = vm.view) (hsubs : subs = vm.subs.filter (·.id ≠ id))
    (hnext : next = [.removed id])

section Rearranged

variable {pf : Platform} {lower hostOf : String → String} {newId : Nat → String} {vm vm' : MainViewModel}

theorem mem_of_shown {u : Uuid} (h : (vm.shown u).isSome = true) :
    u ∈ vm.view.profiles.map (·.profile.uuid) := by
  obtain ⟨r, hr⟩ := Option.isSome_iff_exists.1 h
  unfold MainViewModel.shown at hr
  have hbeq := List.find?_some hr
  exact List.mem_map.2 ⟨r, List.mem_of_find?_eq_some hr, beq_iff_eq.1 hbeq⟩

theorem rearranged_act {e : Event} {result : MainViewModel × List Segment}
    (hact : vm.act pf lower e = some result) : Rearranged lower vm result.1.view result.1.subs result.2 := by
  unfold act at hact
  cases e with
  | restart => cases hact
  | advance i env => cases hact
  | setProtocolFilter p =>
    obtain rfl := Option.some.inj hact
    exact .byProtocol p rfl rfl
  | setGroupFilter id =>
    obtain ⟨hid, rfl⟩ := some_of_ite hact
    exact .byGroup id hid rfl rfl
  | toggleFavourite u =>
    obtain ⟨-, rfl⟩ := some_of_ite hact
    exact .same rfl rfl
  | toggleSelected u =>
    obtain ⟨hu, rfl⟩ := some_of_ite hact
    refine .ticked _ (fun v hv => ?_) rfl rfl
    split at hv
    · exact .inl (List.mem_of_mem_filter hv)
    · rcases List.mem_append.1 hv with hold | hnew
      · exact .inl hold
      · exact .inr (List.mem_singleton.1 hnew ▸ mem_of_shown hu)
  | selectAllVisible =>
    obtain rfl := Option.some.inj hact
    exact .ticked _ (fun _ hv => .inr hv) rfl rfl
  | clearSelection =>
    obtain rfl := Option.some.inj hact
    exact .ticked [] (fun _ hv => absurd hv List.not_mem_nil) rfl rfl
  | toggle u stops permitted =>
    obtain rfl := Option.some.inj hact
    split
    · exact .same rfl rfl
    · split <;> exact .same rfl rfl
  | submitCredentials c remember =>
    obtain ⟨p, -, rfl⟩ := Option.map_eq_some_iff.1 hact
    exact .same rfl rfl
  | testLatency u active =>
    obtain rfl := Option.some.inj hact
    split <;> exact .same rfl rfl
  | testAllLatency active =>
    obtain rfl := Option.some.inj hact
    split <;> exact .same rfl rfl
  | probeXray u active =>
    obtain rfl := Option.some.inj hact
    split <;> exact .same rfl rfl
  | testDownloadSpeed u active =>
    obtain rfl := Option.some.inj hact
    split <;> exact .same rfl rfl
  | deleteAll us =>
    dsimp only at hact
    split at hact
    · cases hact
    · obtain rfl := Option.some.inj hact
      exact .same rfl rfl
  | rename u name =>
    obtain ⟨-, rfl⟩ := some_of_ite hact
    exact .same rfl rfl
  | openSettings u =>
    obtain ⟨-, rfl⟩ := some_of_ite hact
    exact .same rfl rfl
  | saveSettings name username =>
    obtain ⟨u, -, rfl⟩ := Option.map_eq_some_iff.1 hact
    exact .same rfl rfl
  | saveWireGuardSettings rawConfig name =>
    obtain ⟨u, -, rfl⟩ := Option.map_eq_some_iff.1 hact
    exact .same rfl rfl
  | saveXraySettings link name =>
    obtain ⟨u, -, rfl⟩ := Option.map_eq_some_iff.1 hact
    exact .same rfl rfl
  | saveIkev2Settings updated =>
    obtain ⟨-, rfl⟩ := some_of_ite hact
    exact .same rfl rfl
  | refreshSubscription id =>
    obtain ⟨-, rfl⟩ := some_of_ite hact
    exact .same rfl rfl
  | removeSubscription id =>
    obtain ⟨-, rfl⟩ := some_of_ite hact
    exact .same rfl rfl
  | _ =>
    obtain rfl := Option.some.inj hact
    exact .same rfl rfl

theorem view_returned (vm : MainViewModel) (op : Operation) (ok : Bool) (created : Option Uuid) :
    (vm.returned op ok created).1.view = vm.view ∧ (vm.returned op ok created).1.subs = vm.subs := by
  unfold MainViewModel.returned
  cases op with
  | saveWireGuardSettings _ _ _ => cases ok <;> exact ⟨rfl, rfl⟩
  | saveXraySettings _ _ _ => cases ok <;> exact ⟨rfl, rfl⟩
  | _ => exact ⟨rfl, rfl⟩

/-- A refresh writes the entries of the list, and no other. -/
theorem ids_refresh {newUuid : Nat → Uuid} {doubles : Doubles} (s : SubscriptionState) (sub : Subscription)
    (active : Option Uuid) (now : Int) (fetched : Option String) :
    (XraySubscriptionStore.refresh newUuid doubles s sub active now fetched).1.subs.map (·.id)
      = s.subs.map (·.id) := by
  unfold XraySubscriptionStore.refresh
  cases fetched with
  | none => rfl
  | some body =>
    dsimp only
    split
    · rfl
    · generalize XraySubscriptionStore.replaceProfiles newUuid doubles s.store sub.id active
        (XraySubscriptionStore.parseLinks body) = replaced
      show (XraySubscriptionStore.counted sub.id now replaced.2 s.subs).map (·.id) = _
      unfold XraySubscriptionStore.counted
      rw [List.map_map]
      refine List.map_congr_left fun e _ => ?_
      rw [Function.comp_apply]
      split <;> rfl

theorem rearranged_runSegment (vm : MainViewModel) (env : Env) (t : Segment) :
    Rearranged lower vm (vm.runSegment pf lower hostOf newId env t).1.view
      (vm.runSegment pf lower hostOf newId env t).1.subs (vm.runSegment pf lower hostOf newId env t).2 := by
  unfold runSegment
  cases t with
  | «show» rows => exact .loaded rows rfl rfl
  | returned op ok created =>
    obtain ⟨hview, hsubs⟩ := view_returned vm op ok created
    exact .same hview hsubs
  | imported any archive text name => cases any <;> exact .same rfl rfl
  | manifest archive =>
    dsimp only
    split <;> exact .same rfl rfl
  | delete rest =>
    cases rest with
    | nil => exact .ticked [] (fun _ hv => absurd hv List.not_mem_nil) rfl rfl
    | cons u rest => exact .same rfl rfl
  | addSubscription name url =>
    dsimp only
    split
    · exact .added _ rfl rfl rfl
    · exact .same rfl rfl
  | added id =>
    cases id with
    | none => exact .same rfl rfl
    | some id => exact .listed rfl rfl
  | fetch sub => exact .counted rfl (ids_refresh _ _ _ _ _) rfl
  | fetched => exact .listed rfl rfl
  | removeSubscription id => exact .removed id rfl rfl rfl
  | removed id => exact .left id rfl rfl rfl
  | checked u username =>
    cases username with
    | some name => exact .same rfl rfl
    | none =>
      dsimp only
      cases vm.shown u <;> exact .same rfl rfl
  | test rest => cases rest <;> exact .same rfl rfl
  | _ => exact .same rfl rfl

/-! ## 2. The invariant -/

/-- A segment that loads or shows the list. -/
def due : Segment → Bool
  | .load | .show _ => true
  | _ => false

/-- A segment after which the subscriptions are shown as they are stored. -/
def lists : Segment → Bool
  | .load | .show _ | .added (some _) | .fetched | .removed _ => true
  | _ => false

/-- The view is what `applyView` makes of it. -/
structure Applied (lower : String → String) (v : ListView) : Prop where
  profiles : v.profiles = ListView.sorted lower v.filtered
  protocols : v.availableProtocols = Protocol.entries.filter fun p =>
    v.allProfiles.any fun r => r.profile.protocol = p ∧ r.subscriptionId = none

/-- A subscription that is stored, or whose removal is still to be shown. -/
def Here (vm : MainViewModel) (id : String) : Prop := id ∈ vm.subs.map (·.id) ∨ .removed id ∈ vm.segments

/-- **What holds of the list in every run.** -/
structure Arranged (lower : String → String) (vm : MainViewModel) : Prop where
  exclusive : vm.view.protocolFilter.isSome = true → vm.view.groupFilter = none
  remembered : vm.view.savedFilter = vm.view.protocolFilter
  shown : ∀ r ∈ vm.view.profiles, r ∈ vm.view.allProfiles
  ticked : ∀ u ∈ vm.view.selected, u ∈ vm.view.allProfiles.map (·.profile.uuid)
  applied : Applied lower vm.view ∨ ∃ t ∈ vm.segments, due t = true
  listed : vm.view.subscriptions = vm.subs ∨ ∃ t ∈ vm.segments, lists t = true
  here : ∀ sub ∈ vm.view.subscriptions, vm.Here sub.id
  group : ∀ id, vm.view.groupFilter = some id → vm.Here id

/-- The filters of a view exclude each other, and the choice of a type is remembered. -/
def Filtered (v : ListView) : Prop :=
  (v.protocolFilter.isSome = true → v.groupFilter = none) ∧ v.savedFilter = v.protocolFilter

/-- What a step leaves of the filters. -/
theorem filtered_rearranged {next : List Segment} (h : Rearranged lower vm vm'.view vm'.subs next)
    (hv : Filtered vm.view) : Filtered vm'.view := by
  obtain ⟨hexclusive, hremembered⟩ := hv
  cases h with
  | byProtocol p hview _ =>
    rw [hview]
    refine ⟨fun hp => ?_, rfl⟩
    exact if_pos hp
  | byGroup id _ hview _ =>
    rw [hview]
    unfold ListView.setGroupFilter
    dsimp only
    split
    · exact ⟨fun hp => absurd hp Bool.false_ne_true, rfl⟩
    · rename_i hnot
      refine ⟨fun hp => ?_, hremembered⟩
      cases id with
      | none => rfl
      | some id => exact absurd (Bool.and_eq_true_iff.2 ⟨rfl, hp⟩) hnot
  | loaded rows hview _ =>
    rw [hview]
    refine ⟨fun hp => ?_, hremembered⟩
    show Option.filter _ vm.view.groupFilter = none
    rw [hexclusive hp]
    rfl
  | left id hview _ _ =>
    rw [hview]
    refine ⟨fun hp => ?_, hremembered⟩
    show (if vm.view.groupFilter = some id then none else vm.view.groupFilter) = none
    rw [hexclusive hp]
    exact ite_self none
  | ticked selected _ hview _ => exact hview ▸ ⟨hexclusive, hremembered⟩
  | same hview _ => exact hview ▸ ⟨hexclusive, hremembered⟩
  | listed hview _ => exact hview ▸ ⟨hexclusive, hremembered⟩
  | added sub hview _ _ => exact hview ▸ ⟨hexclusive, hremembered⟩
  | counted hview _ _ => exact hview ▸ ⟨hexclusive, hremembered⟩
  | removed id hview _ _ => exact hview ▸ ⟨hexclusive, hremembered⟩

theorem applied_applyView (v : ListView) : Applied lower (v.applyView lower) := ⟨rfl, rfl⟩

theorem applied_setGroupFilter (v : ListView) (id : Option String) : Applied lower (v.setGroupFilter lower id) := by
  unfold ListView.setGroupFilter
  dsimp only
  split <;> exact applied_applyView _

/-- What a step leaves shown and ticked. -/
theorem shown_rearranged {next : List Segment} (h : Rearranged lower vm vm'.view vm'.subs next)
    (hshown : ∀ r ∈ vm.view.profiles, r ∈ vm.view.allProfiles)
    (hticked : ∀ u ∈ vm.view.selected, u ∈ vm.view.allProfiles.map (·.profile.uuid)) :
    (∀ r ∈ vm'.view.profiles, r ∈ vm'.view.allProfiles) ∧
      ∀ u ∈ vm'.view.selected, u ∈ vm'.view.allProfiles.map (·.profile.uuid) := by
  cases h with
  | byProtocol p hview _ =>
    rw [hview]
    exact ⟨shown_applyView _, hticked⟩
  | byGroup id _ hview _ =>
    rw [hview]
    refine ⟨shown_setGroupFilter _ _, ?_⟩
    unfold ListView.setGroupFilter
    dsimp only
    split <;> exact hticked
  | ticked selected hselected hview _ =>
    rw [hview]
    refine ⟨hshown, fun u hu => (hselected u hu).elim (hticked u) fun hm => ?_⟩
    obtain ⟨r, hr, rfl⟩ := List.mem_map.1 hm
    exact List.mem_map_of_mem (hshown r hr)
  | loaded rows hview _ =>
    rw [hview]
    refine ⟨shown_applyView _, fun u hu => ?_⟩
    have hkept : u ∈ vm.view.selected.filter fun u => u ∈ rows.map (·.profile.uuid) := hu
    exact of_decide_eq_true (List.mem_filter.1 hkept).2
  | same hview _ => exact hview ▸ ⟨hshown, hticked⟩
  | listed hview _ => exact hview ▸ ⟨hshown, hticked⟩
  | left id hview _ _ => exact hview ▸ ⟨hshown, hticked⟩
  | added sub hview _ _ => exact hview ▸ ⟨hshown, hticked⟩
  | counted hview _ _ => exact hview ▸ ⟨hshown, hticked⟩
  | removed id hview _ _ => exact hview ▸ ⟨hshown, hticked⟩

/-- A step leaves the view applied, or the list is to be loaded. -/
theorem applied_rearranged {next : List Segment} (h : Rearranged lower vm vm'.view vm'.subs next)
    (hv : Applied lower vm.view) : Applied lower vm'.view ∨ ∃ t ∈ next, due t = true := by
  cases h with
  | byProtocol p hview _ => exact .inl (hview ▸ applied_applyView _)
  | byGroup id _ hview _ => exact .inl (hview ▸ applied_setGroupFilter _ _)
  | loaded rows hview _ => exact .inl (hview ▸ ⟨rfl, rfl⟩)
  | left id _ _ hnext => exact .inr ⟨.load, hnext ▸ List.mem_singleton_self _, rfl⟩
  | ticked selected _ hview _ => exact .inl (hview ▸ ⟨hv.profiles, hv.protocols⟩)
  | listed hview _ => exact .inl (hview ▸ ⟨hv.profiles, hv.protocols⟩)
  | same hview _ => exact .inl (hview ▸ hv)
  | added sub hview _ _ => exact .inl (hview ▸ hv)
  | counted hview _ _ => exact .inl (hview ▸ hv)
  | removed id hview _ _ => exact .inl (hview ▸ hv)

/-- A step leaves the subscriptions shown as they are stored, or they are to be shown. -/
theorem listed_rearranged {next : List Segment} (h : Rearranged lower vm vm'.view vm'.subs next)
    (hv : vm.view.subscriptions = vm.subs) :
    vm'.view.subscriptions = vm'.subs ∨ ∃ t ∈ next, lists t = true := by
  cases h with
  | byProtocol p hview hsubs =>
    rw [hview, hsubs]
    exact .inl hv
  | byGroup id _ hview hsubs =>
    rw [hview, hsubs]
    refine .inl ?_
    unfold ListView.setGroupFilter
    dsimp only
    split <;> exact hv
  | loaded rows hview hsubs =>
    rw [hview, hsubs]
    exact .inl rfl
  | left id hview hsubs _ =>
    rw [hview, hsubs]
    exact .inl rfl
  | ticked selected _ hview hsubs =>
    rw [hview, hsubs]
    exact .inl hv
  | listed hview hsubs =>
    rw [hview, hsubs]
    exact .inl rfl
  | same hview hsubs =>
    rw [hview, hsubs]
    exact .inl hv
  | added sub _ _ hnext => exact .inr ⟨.added (some sub.id), hnext ▸ List.mem_singleton_self _, rfl⟩
  | counted _ _ hnext => exact .inr ⟨.fetched, hnext ▸ List.mem_singleton_self _, rfl⟩
  | removed id _ _ hnext => exact .inr ⟨.removed id, hnext ▸ List.mem_singleton_self _, rfl⟩

/-- A subscription is stored after a step, or its removal is to be shown. -/
theorem ids_rearranged {next : List Segment} (h : Rearranged lower vm vm'.view vm'.subs next) {id : String}
    (hid : id ∈ vm.subs.map (·.id)) : id ∈ vm'.subs.map (·.id) ∨ .removed id ∈ next := by
  cases h with
  | added sub _ hsubs _ =>
    rw [hsubs, List.map_append]
    exact .inl (List.mem_append_left _ hid)
  | counted _ hsubs _ => exact .inl (hsubs ▸ hid)
  | removed id' _ hsubs hnext =>
    by_cases he : id = id'
    · exact .inr (hnext ▸ he ▸ List.mem_singleton_self _)
    · obtain ⟨sub, hsub, rfl⟩ := List.mem_map.1 hid
      refine .inl (hsubs ▸ List.mem_map_of_mem (List.mem_filter.2 ⟨hsub, decide_eq_true he⟩))
  | byProtocol p _ hsubs => exact .inl (hsubs ▸ hid)
  | byGroup id _ _ hsubs => exact .inl (hsubs ▸ hid)
  | loaded rows _ hsubs => exact .inl (hsubs ▸ hid)
  | left id _ hsubs _ => exact .inl (hsubs ▸ hid)
  | ticked selected _ _ hsubs => exact .inl (hsubs ▸ hid)
  | listed _ hsubs => exact .inl (hsubs ▸ hid)
  | same _ hsubs => exact .inl (hsubs ▸ hid)

/-- A subscription that is shown after a step was shown or stored before. -/
theorem subscriptions_rearranged {next : List Segment} (h : Rearranged lower vm vm'.view vm'.subs next) :
    vm'.view.subscriptions = vm.view.subscriptions ∨ vm'.view.subscriptions = vm.subs := by
  cases h with
  | byProtocol p hview _ => exact .inl (hview ▸ rfl)
  | byGroup id _ hview _ =>
    rw [hview]
    unfold ListView.setGroupFilter
    dsimp only
    split <;> exact .inl rfl
  | loaded rows hview _ => exact .inr (hview ▸ rfl)
  | left id hview _ _ => exact .inr (hview ▸ rfl)
  | ticked selected _ hview _ => exact .inl (hview ▸ rfl)
  | listed hview _ => exact .inr (hview ▸ rfl)
  | same hview _ => exact .inl (hview ▸ rfl)
  | added sub hview _ _ => exact .inl (hview ▸ rfl)
  | counted hview _ _ => exact .inl (hview ▸ rfl)
  | removed id hview _ _ => exact .inl (hview ▸ rfl)

/-- A group that is chosen after a step was chosen before, or is one that is shown or stored. -/
theorem group_rearranged {next : List Segment} (h : Rearranged lower vm vm'.view vm'.subs next) {id : String}
    (hid : vm'.view.groupFilter = some id) :
    vm.view.groupFilter = some id ∨ (∃ sub ∈ vm.view.subscriptions, sub.id = id) ∨ id ∈ vm.subs.map (·.id) := by
  cases h with
  | byProtocol p hview _ =>
    rw [hview] at hid
    have hkept : (if p.isSome then none else vm.view.groupFilter) = some id := hid
    split at hkept
    · cases hkept
    · exact .inl hkept
  | byGroup id' hlisted hview _ =>
    rw [hview] at hid
    have hchosen : id' = some id := by
      unfold ListView.setGroupFilter at hid
      dsimp only at hid
      split at hid <;> exact hid
    rw [hchosen] at hlisted
    obtain ⟨sub, hsub, hbeq⟩ := List.any_eq_true.1 hlisted
    exact .inr (.inl ⟨sub, hsub, beq_iff_eq.1 hbeq⟩)
  | loaded rows hview _ =>
    rw [hview] at hid
    have hkept : vm.view.groupFilter.filter (fun id => vm.subs.any fun s => s.id == id) = some id := hid
    exact .inl (Option.filter_eq_some_iff.1 hkept).1
  | left id' hview _ _ =>
    rw [hview] at hid
    have hkept : (if vm.view.groupFilter = some id' then none else vm.view.groupFilter) = some id := hid
    split at hkept
    · cases hkept
    · exact .inl hkept
  | ticked selected _ hview _ =>
    rw [hview] at hid
    exact .inl hid
  | listed hview _ =>
    rw [hview] at hid
    exact .inl hid
  | same hview _ => exact .inl (hview ▸ hid)
  | added sub hview _ _ => exact .inl (hview ▸ hid)
  | counted hview _ _ => exact .inl (hview ▸ hid)
  | removed id' hview _ _ => exact .inl (hview ▸ hid)

/-! ## 3. The invariant is kept -/

theorem mem_eraseIdx_of_ne {α : Type} {l : List α} {i : Nat} {a b : α} (hi : l[i]? = some a) (hb : b ∈ l)
    (hne : b ≠ a) : b ∈ l.eraseIdx i := by
  obtain ⟨j, hj⟩ := List.getElem?_of_mem hb
  refine List.mem_eraseIdx_iff_getElem?.2 ⟨j, fun he => hne ?_, hj⟩
  rw [he, hi] at hj
  exact (Option.some.inj hj).symm

theorem arranged_init (app : AppState) (subs : List Subscription) (drawnIds : Nat) (filter : Option Protocol)
    (connects : List Uuid) : Arranged lower (init app subs drawnIds filter connects) where
  exclusive _ := rfl
  remembered := rfl
  shown r hr := absurd hr List.not_mem_nil
  ticked u hu := absurd hu List.not_mem_nil
  applied := .inr ⟨.load, List.mem_singleton_self _, rfl⟩
  listed := .inr ⟨.load, List.mem_singleton_self _, rfl⟩
  here sub hsub := absurd hsub List.not_mem_nil
  group id hid := by cases hid

/-- What the invariant says, without what is still to run. -/
theorem Arranged.of_rearranged (h : Arranged lower vm) {next rest : List Segment}
    (hr : Rearranged lower vm vm'.view vm'.subs next) (hsegments : vm'.segments = rest ++ next)
    (happlied : (∃ t ∈ vm.segments, due t = true) → Applied lower vm'.view ∨ ∃ t ∈ vm'.segments, due t = true)
    (hlisted : (∃ t ∈ vm.segments, lists t = true) →
      vm'.view.subscriptions = vm'.subs ∨ ∃ t ∈ vm'.segments, lists t = true)
    (hhere : ∀ sub ∈ vm'.view.subscriptions, vm'.Here sub.id)
    (hgroup : ∀ id, vm'.view.groupFilter = some id → vm'.Here id) : Arranged lower vm' := by
  have hnext : ∀ {p : Segment → Bool}, (∃ t ∈ next, p t = true) → ∃ t ∈ vm'.segments, p t = true := by
    rintro p ⟨t, ht, hp⟩
    exact ⟨t, hsegments ▸ List.mem_append_right _ ht, hp⟩
  obtain ⟨hexclusive, hremembered⟩ := filtered_rearranged hr ⟨h.exclusive, h.remembered⟩
  obtain ⟨hshown, hticked⟩ := shown_rearranged hr h.shown h.ticked
  refine ⟨hexclusive, hremembered, hshown, hticked, ?_, ?_, hhere, hgroup⟩
  · exact h.applied.elim (fun hv => (applied_rearranged hr hv).imp_right hnext) happlied
  · exact h.listed.elim (fun hv => (listed_rearranged hr hv).imp_right hnext) hlisted

/-- A subscription that is shown or chosen after a step was shown, chosen or stored before. -/
theorem Arranged.here_before (h : Arranged lower vm) {next : List Segment}
    (hr : Rearranged lower vm vm'.view vm'.subs next) :
    (∀ sub ∈ vm'.view.subscriptions, vm.Here sub.id) ∧ ∀ id, vm'.view.groupFilter = some id → vm.Here id := by
  refine ⟨fun sub hsub => ?_, fun id hid => ?_⟩
  · rcases subscriptions_rearranged hr with hsame | hstored
    · exact h.here sub (hsame ▸ hsub)
    · exact .inl (List.mem_map_of_mem (hstored ▸ hsub))
  · rcases group_rearranged hr hid with hold | ⟨sub, hsub, rfl⟩ | hstored
    · exact h.group id hold
    · exact h.here sub hsub
    · exact .inl hstored

/-- A segment that loads, shows or lists leaves it done, or one to do it next. -/
theorem due_runSegment (vm : MainViewModel) (env : Env) {t : Segment} (ht : due t = true) :
    Applied lower (vm.runSegment pf lower hostOf newId env t).1.view ∨
      ∃ t' ∈ (vm.runSegment pf lower hostOf newId env t).2, due t' = true := by
  cases t with
  | load => exact .inr ⟨_, List.mem_singleton_self _, rfl⟩
  | «show» rows => exact .inl ⟨rfl, rfl⟩
  | _ => exact absurd ht Bool.false_ne_true

theorem lists_runSegment (vm : MainViewModel) (env : Env) {t : Segment} (ht : lists t = true) :
    (vm.runSegment pf lower hostOf newId env t).1.view.subscriptions
        = (vm.runSegment pf lower hostOf newId env t).1.subs ∨
      ∃ t' ∈ (vm.runSegment pf lower hostOf newId env t).2, lists t' = true := by
  cases t with
  | load => exact .inr ⟨_, List.mem_singleton_self _, rfl⟩
  | «show» rows => exact .inl rfl
  | added id =>
    cases id with
    | none => exact absurd ht Bool.false_ne_true
    | some id => exact .inl rfl
  | fetched => exact .inl rfl
  | removed id => exact .inl rfl
  | _ => exact absurd ht Bool.false_ne_true

/-- After a segment, what is shown and chosen is stored, or its removal is to be shown. -/
theorem Arranged.here_after (h : Arranged lower vm) {i : Nat} {env : Env} {t : Segment}
    (ht : vm.segments[i]? = some t)
    (hvm : vm' = { (vm.runSegment pf lower hostOf newId env t).1 with
      segments := vm.segments.eraseIdx i ++ (vm.runSegment pf lower hostOf newId env t).2 }) :
    (∀ sub ∈ vm'.view.subscriptions, vm'.Here sub.id) ∧ ∀ id, vm'.view.groupFilter = some id → vm'.Here id := by
  have hr : Rearranged lower vm (vm.runSegment pf lower hostOf newId env t).1.view
      (vm.runSegment pf lower hostOf newId env t).1.subs (vm.runSegment pf lower hostOf newId env t).2 :=
    rearranged_runSegment vm env t
  have hbefore : Rearranged lower vm vm'.view vm'.subs (vm.runSegment pf lower hostOf newId env t).2 := by
    rw [hvm]
    exact hr
  obtain ⟨hhere, hgroup⟩ := h.here_before hbefore
  have hpending : ∀ id, t ≠ .removed id → .removed id ∈ vm.segments → vm'.Here id := by
    intro id hne hm
    rw [hvm]
    exact .inr (List.mem_append_left _ (mem_eraseIdx_of_ne ht hm hne.symm))
  by_cases hremoved : ∃ id, t = .removed id
  · obtain ⟨id₀, rfl⟩ := hremoved
    have hsubs : vm'.subs = vm.subs := by rw [hvm]; rfl
    refine ⟨fun sub hsub => ?_, fun id hid => ?_⟩
    · rw [hvm] at hsub
      exact .inl (hsubs ▸ List.mem_map_of_mem hsub)
    · have hkept : (if vm.view.groupFilter = some id₀ then none else vm.view.groupFilter) = some id := by
        rw [hvm] at hid
        exact hid
      split at hkept
      · cases hkept
      · rename_i hne
        refine (h.group id hkept).elim (fun hstored => .inl (hsubs ▸ hstored)) (hpending id ?_)
        rintro he
        exact hne (Segment.removed.inj he ▸ hkept)
  · have hkept : ∀ id, vm.Here id → vm'.Here id := by
      rintro id (hstored | hm)
      · refine (ids_rearranged hbefore hstored).imp_right fun hnext => ?_
        rw [hvm]
        exact List.mem_append_right _ hnext
      · exact hpending id (fun he => hremoved ⟨id, he⟩) hm
    exact ⟨fun sub hsub => hkept sub.id (hhere sub hsub), fun id hid => hkept id (hgroup id hid)⟩

/-- **The step lemma.** -/
theorem Arranged.stepped (h : Arranged lower vm) {e : Event}
    (hstep : vm.step pf lower hostOf newId e = some vm') : Arranged lower vm' := by
  rcases step_cases hstep with ⟨rfl, rfl⟩ | ⟨i, env, t, rfl, ht, rfl⟩ | ⟨result, hact, rfl⟩
  · exact arranged_init _ _ _ _ _
  · have hr : Rearranged lower vm (vm.runSegment pf lower hostOf newId env t).1.view
        (vm.runSegment pf lower hostOf newId env t).1.subs (vm.runSegment pf lower hostOf newId env t).2 :=
      rearranged_runSegment vm env t
    obtain ⟨hhere, hgroup⟩ := @Arranged.here_after pf lower hostOf newId vm _ h i env t ht rfl
    have hstays : ∀ {p : Segment → Bool} {P : Prop},
        (p t = true → P ∨ ∃ t' ∈ (vm.runSegment pf lower hostOf newId env t).2, p t' = true) →
        (∃ t' ∈ vm.segments, p t' = true) → P ∨ ∃ t' ∈ vm.segments.eraseIdx i ++
          (vm.runSegment pf lower hostOf newId env t).2, p t' = true := by
      rintro p P hran ⟨t', ht', hp⟩
      by_cases he : t' = t
      · refine (hran (he ▸ hp)).imp_right ?_
        rintro ⟨t'', ht'', hp''⟩
        exact ⟨t'', List.mem_append_right _ ht'', hp''⟩
      · exact .inr ⟨t', List.mem_append_left _ (mem_eraseIdx_of_ne ht ht' he), hp⟩
    exact h.of_rearranged hr rfl (hstays (due_runSegment vm env)) (hstays (lists_runSegment vm env)) hhere hgroup
  · have hr := rearranged_act hact
    obtain ⟨hhere, hgroup⟩ := h.here_before hr
    have hstays : ∀ {p : Segment → Bool}, (∃ t ∈ vm.segments, p t = true) →
        ∃ t ∈ vm.segments ++ result.2, p t = true := by
      rintro p ⟨t, ht, hp⟩
      exact ⟨t, List.mem_append_left _ ht, hp⟩
    have hkept : ∀ id, vm.Here id →
        ({ result.1 with segments := vm.segments ++ result.2 } : MainViewModel).Here id := by
      rintro id (hstored | hpending)
      · exact (ids_rearranged hr hstored).imp_right (List.mem_append_right _)
      · exact .inr (List.mem_append_left _ hpending)
    exact h.of_rearranged hr rfl (fun hdue => .inr (hstays hdue)) (fun hlists => .inr (hstays hlists))
      (fun sub hsub => hkept sub.id (hhere sub hsub)) fun id hid => hkept id (hgroup id hid)

/-- **The run lemma.** -/
theorem Arranged.run {events : List Event} (h : Arranged lower vm)
    (hrun : exec (step pf lower hostOf newId) vm events = some vm') : Arranged lower vm' :=
  exec_inv' (fun _ _ _ harranged hstep => harranged.stepped hstep) h hrun

/-! ## 4. At rest -/

theorem before_total (a b : Row) : ListView.before lower a b = true ∨ ListView.before lower b a = true := by
  unfold ListView.before
  by_cases h : a.profile.isFavourite = b.profile.isFavourite
  · rw [if_pos h, if_pos h.symm, decide_eq_true_eq, decide_eq_true_eq]
    exact le_total _ _
  · rw [if_neg h, if_neg fun he => h he.symm]
    cases ha : a.profile.isFavourite with
    | true => exact .inl rfl
    | false =>
      cases hb : b.profile.isFavourite with
      | true => exact .inr rfl
      | false => exact absurd (ha.trans hb.symm) h

theorem before_trans {a b c : Row} (hab : ListView.before lower a b = true) (hbc : ListView.before lower b c = true) :
    ListView.before lower a c = true := by
  unfold ListView.before at *
  cases ha : a.profile.isFavourite <;> cases hb : b.profile.isFavourite <;> cases hc : c.profile.isFavourite <;>
    simp only [ha, hb, hc, if_true, if_false, reduceCtorEq, decide_eq_true_eq] at hab hbc ⊢
  · exact le_trans hab hbc
  · exact le_trans hab hbc

/-- The starred first, then by name. -/
theorem pairwise_sorted (l : List Row) :
    (ListView.sorted lower l).Pairwise fun a b => ListView.before lower a b = true := by
  have htotal : Std.Total fun a b : Row => (ListView.before lower a b = true) := ⟨before_total⟩
  have htrans : IsTrans Row fun a b => (ListView.before lower a b = true) := ⟨fun _ _ _ => before_trans⟩
  exact List.pairwise_insertionSort _ l

/-- The profiles of a view. -/
theorem mem_filtered {v : ListView} (hexclusive : v.protocolFilter.isSome = true → v.groupFilter = none) {r : Row} :
    r ∈ v.filtered ↔ r ∈ v.allProfiles ∧ (∀ id, v.groupFilter = some id → r.subscriptionId = some id) ∧
      ∀ p, v.protocolFilter = some p → r.profile.protocol = p ∧ r.subscriptionId = none := by
  unfold ListView.filtered
  cases hg : v.groupFilter with
  | some id =>
    have hnone : v.protocolFilter = none := by
      cases hp : v.protocolFilter with
      | none => rfl
      | some p =>
        rw [hp, hg] at hexclusive
        cases hexclusive rfl
    simp [hnone]
  | none =>
    cases hp : v.protocolFilter with
    | some p => simp
    | none => simp

/-- **At rest the screen shows what it holds**: the profiles of the type or group that is chosen and no
    others, starred ones first and then by name, the types that can be chosen, and the subscriptions as
    they are stored; the two filters exclude each other and point at nothing that is gone. -/
theorem list_at_rest {events : List Event} (hrun : exec (step pf lower hostOf newId) start events = some vm)
    (hrest : vm.segments = []) :
    vm.view.profiles.Perm vm.view.filtered ∧
      (∀ r, r ∈ vm.view.profiles ↔ r ∈ vm.view.allProfiles ∧
        (∀ id, vm.view.groupFilter = some id → r.subscriptionId = some id) ∧
        ∀ p, vm.view.protocolFilter = some p → r.profile.protocol = p ∧ r.subscriptionId = none) ∧
      vm.view.profiles.Pairwise (fun a b => ListView.before lower a b = true) ∧
      (∀ p, p ∈ vm.view.availableProtocols ↔
        ∃ r ∈ vm.view.allProfiles, r.profile.protocol = p ∧ r.subscriptionId = none) ∧
      (vm.view.protocolFilter.isSome = true → vm.view.groupFilter = none) ∧
      vm.view.savedFilter = vm.view.protocolFilter ∧
      (∀ u ∈ vm.view.selected, u ∈ vm.view.allProfiles.map (·.profile.uuid)) ∧
      vm.view.subscriptions = vm.subs ∧
      ∀ id, vm.view.groupFilter = some id → id ∈ vm.subs.map (·.id) := by
  have h : Arranged lower vm := (arranged_init _ _ _ _ _).run hrun
  have hnone : ∀ {p : Segment → Bool}, ¬ ∃ t ∈ vm.segments, p t = true := by
    rintro p ⟨t, ht, -⟩
    rw [hrest] at ht
    cases ht
  have happlied := h.applied.resolve_right hnone
  have hperm : vm.view.profiles.Perm vm.view.filtered := happlied.profiles ▸ List.perm_insertionSort _ _
  refine ⟨hperm, fun r => hperm.mem_iff.trans (mem_filtered h.exclusive), happlied.profiles ▸ pairwise_sorted _,
    fun p => ?_, h.exclusive, h.remembered, h.ticked, h.listed.resolve_right hnone, fun id hid => ?_⟩
  · rw [happlied.protocols, List.mem_filter, List.any_eq_true]
    have hentry : p ∈ Protocol.entries := by cases p <;> decide
    simp only [hentry, true_and, decide_eq_true_eq]
  · refine (h.group id hid).resolve_right fun hm => ?_
    rw [hrest] at hm
    cases hm

/-- Two profiles that are made, up to the list that shows both. -/
def sampleShown : List Event :=
  .createIkev2Profile "VPN" :: .createIkev2Profile "Home" :: List.replicate 16 (.advance 0 {})

theorem list_at_rest_created : ∃ vm, exec sampleStep start sampleShown = some vm ∧
    vm.view.profiles.map (·.profile.name) = ["Home", "VPN"] ∧ vm.view.profiles.Perm vm.view.filtered ∧
      vm.view.profiles.Pairwise (fun a b => ListView.before id a b = true) := by
  obtain ⟨vm, hrun, hrest, hnames⟩ : ∃ vm, exec sampleStep start sampleShown = some vm ∧ vm.segments = [] ∧
      vm.view.profiles.map (·.profile.name) = ["Home", "VPN"] := ⟨_, rfl, rfl, by decide⟩
  obtain ⟨hperm, -, hpairwise, -⟩ := list_at_rest hrun hrest
  exact ⟨vm, hrun, hnames, hperm, hpairwise⟩

end Rearranged

end MainViewModel

end SwiftVpn
