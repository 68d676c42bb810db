/-
  File:      SwiftVpn/Screen/Stores.lean
  Subject:   WHAT THE SCREEN DOES TO THE STORES, in every run and under every interleaving.

  * `Sane` -- the invariant: the stores are kept, and every uuid that the screen holds (in a row, in an
    editor, in a segment that is to run) was drawn by the store it is to be handed to;
  * `Turn` -- what a step leaves of the stores, of the list and of the editors, and what it starts;
  * `stores_kept` -- so no two profiles share a uuid, and each is found in the store that lists it;
  * `saved_of_untouched` -- a run that does nothing to a profile leaves what is saved of it as it was;
  * `never_back` -- and a profile that is deleted stays deleted.
-/
import SwiftVpn.Screen.MainViewModel

namespace SwiftVpn

open Machine

/-! ## 1. The invariant -/

/-- A uuid that some store has drawn. -/
def AppState.Known (pf : Platform) (s : AppState) (u : Uuid) : Prop := ∃ p, s.Drawn pf p u

/-- The uuids of a segment were drawn by the stores that it hands them to. -/
def Segment.Sound (pf : Platform) (s : AppState) : Segment → Prop
  | .show rows => ∀ r ∈ rows, s.Known pf r.profile.uuid
  | .call op => s.Admissible pf op
  | .opened p u true => s.Drawn pf p u
  | _ => True

/-- The profiles that a segment saves in full. -/
def Segment.saves : Segment → Uuid → Prop
  | .call op => op.saves
  | _ => fun _ => False

namespace MainViewModel

/-- **What holds in every run.** -/
structure Sane (pf : Platform) (vm : MainViewModel) : Prop where
  app : vm.app.Kept pf
  rows : ∀ r ∈ vm.view.allProfiles, vm.app.Known pf r.profile.uuid
  shown : ∀ r ∈ vm.view.profiles, r ∈ vm.view.allProfiles
  editors : ∀ p u, vm.editors p = some u → vm.app.Drawn pf p u
  segments : ∀ t ∈ vm.segments, t.Sound pf vm.app

section Sane

variable {pf : Platform} {lower hostOf : String → String} {newId : Nat → String} {vm vm' : MainViewModel}

theorem known_mono {s s' : AppState} {u : Uuid} (h : s.Known pf u) (hle : ∀ p, s.drawn p ≤ s'.drawn p) :
    s'.Known pf u := by
  obtain ⟨p, hp⟩ := h
  exact ⟨p, hp.mono (hle p)⟩

theorem sound_mono {s s' : AppState} {t : Segment} (h : t.Sound pf s) (hle : ∀ p, s.drawn p ≤ s'.drawn p) :
    t.Sound pf s' := by
  unfold Segment.Sound at h ⊢
  split
  · exact fun r hr => known_mono (h r hr) hle
  · exact AppState.Admissible.mono h hle
  · rename_i p u
    exact AppState.Drawn.mono h (hle p)
  · trivial

/-! ### The view -/

theorem mem_sorted {r : Row} {l : List Row} : r ∈ ListView.sorted lower l ↔ r ∈ l := List.mem_insertionSort _

theorem mem_of_mem_filtered {v : ListView} {r : Row} (h : r ∈ v.filtered) : r ∈ v.allProfiles := by
  unfold ListView.filtered at h
  split at h
  · exact List.mem_of_mem_filter h
  · exact List.mem_of_mem_filter h
  · exact h

/-- A view that is applied shows rows of the list. -/
theorem shown_applyView (v : ListView) :
    ∀ r ∈ (v.applyView lower).profiles, r ∈ (v.applyView lower).allProfiles :=
  fun _ hr => mem_of_mem_filtered (mem_sorted.1 hr)

theorem allProfiles_setGroupFilter (v : ListView) (id : Option String) :
    (v.setGroupFilter lower id).allProfiles = v.allProfiles := by
  unfold ListView.setGroupFilter
  dsimp only
  split <;> rfl

theorem shown_setGroupFilter (v : ListView) (id : Option String) :
    ∀ r ∈ (v.setGroupFilter lower id).profiles, r ∈ (v.setGroupFilter lower id).allProfiles := by
  unfold ListView.setGroupFilter
  dsimp only
  split <;> exact shown_applyView _

/-- A row that is shown is of the list. -/
theorem Sane.known_of_shown (h : Sane pf vm) {u : Uuid} (hu : (vm.shown u).isSome = true) :
    vm.app.Known pf u := by
  obtain ⟨r, hr⟩ := Option.isSome_iff_exists.1 hu
  unfold MainViewModel.shown at hr
  have hbeq := List.find?_some hr
  have huuid : r.profile.uuid = u := beq_iff_eq.1 hbeq
  exact huuid ▸ h.rows r (h.shown r (List.mem_of_find?_eq_some hr))

/-- What is loaded was drawn. -/
theorem known_rows {s : AppState} (h : s.Kept pf) : ∀ r ∈ s.rows pf, s.Known pf r.profile.uuid := by
  intro r hr
  obtain ⟨p, hp, rfl⟩ := List.mem_map.1 hr
  rw [AppState.allProfiles_eq] at hp
  obtain ⟨q, hq, rfl⟩ := List.mem_map.1 hp
  have hmem := (AppState.uuids_saved_sublist pf s).subset (List.mem_map_of_mem hq)
  obtain ⟨p, hkey⟩ := AppState.mem_uuids_iff.1 hmem
  exact ⟨p, h.drawn p _ hkey⟩

/-- Settings that are found are of a profile of that store. -/
theorem keys_of_settingsOf {s : AppState} {p : Protocol} {u : Uuid} (hfound : settingsOf pf s p u = true) :
    u ∈ s.keys p := by
  unfold settingsOf at hfound
  cases p with
  | openvpn =>
    obtain ⟨-, hget⟩ := (Bool.and_eq_true _ _).mp hfound
    unfold ProfileManager.get at hget
    rw [List.find?_isSome] at hget
    obtain ⟨q, hq, hbeq⟩ := hget
    exact List.mem_map.2 ⟨q, hq, beq_iff_eq.1 hbeq⟩
  | wireguard =>
    dsimp only at hfound
    unfold WireGuardStore.rawConfig at hfound
    rw [Option.any_map] at hfound
    cases hf : s.wireGuard.files.find? (·.uuid == u) with
    | none =>
      rw [hf] at hfound
      cases hfound
    | some f =>
      have hbeq := List.find?_some hf
      exact List.mem_map.2 ⟨f, List.mem_of_find?_eq_some hf, beq_iff_eq.1 hbeq⟩
  | xray =>
    dsimp only at hfound
    unfold XrayStore.link XrayStore.storedFile XrayStore.fileOf at hfound
    rw [Option.isSome_map, Option.isSome_or, Bool.or_eq_true, List.find?_isSome, List.find?_isSome] at hfound
    rcases hfound with ⟨f, hf, hkey⟩ | ⟨f, hf, hkey⟩
    · exact List.mem_map.2 ⟨f, hf, beq_iff_eq.1 ((Bool.and_eq_true _ _).mp hkey).1⟩
    · exact List.mem_map.2 ⟨f, hf, beq_iff_eq.1 ((Bool.and_eq_true _ _).mp hkey).1⟩
  | ikev2 =>
    dsimp only at hfound
    unfold Ikev2Store.profile at hfound
    rw [Option.isSome_map, List.find?_isSome] at hfound
    obtain ⟨r, hr, hbeq⟩ := hfound
    exact List.mem_map.2 ⟨r, hr, beq_iff_eq.1 hbeq⟩

/-! ## 2. Steps -/

/-- A call that is launched: a save is of what its editor holds. The other calls are parts of segments. -/
def Offers (vm : MainViewModel) : Operation → Prop
  | .saveXraySettings uuid _ _ => vm.editors .xray = some uuid
  | .saveWireGuardSettings uuid _ _ => vm.editors .wireguard = some uuid
  | .saveIkev2Settings p => vm.editors .ikev2 = some p.uuid
  | .importConfig _ _ | .renameProfile _ _ | .setCredentials _ _ _ | .saveProfileSettings _ _ _
  | .createXrayProfile _ | .createWarpProfile _ | .createIkev2Profile _ => True
  | _ => False

/-- A segment that is to run next: the rows are those of the stores, an editor opens on what they find. -/
def Launches (pf : Platform) (vm : MainViewModel) : Segment → Prop
  | .show rows => rows = vm.app.rows pf
  | .call op => vm.Offers op
  | .opened p u true => settingsOf pf vm.app p u = true
  | _ => True

/-- **What a step can do**: `U` is what it is about, `W` what it saves, `next` what is to run after it. -/
structure Turn (pf : Platform) (U W : Uuid → Prop) (vm vm' : MainViewModel) (next : List Segment) : Prop where
  effect : AppState.Effect pf U W vm.app vm'.app
  rows : vm'.view.allProfiles = vm.view.allProfiles ∨ vm'.view.allProfiles = [] ∨
    .show vm'.view.allProfiles ∈ vm.segments
  shown : (∀ r ∈ vm.view.profiles, r ∈ vm.view.allProfiles) → ∀ r ∈ vm'.view.profiles, r ∈ vm'.view.allProfiles
  editors : ∀ p u, vm'.editors p = some u → vm.editors p = some u ∨ .opened p u true ∈ vm.segments
  next : ∀ t ∈ next, vm.Launches pf t

section Turn

variable {U W : Uuid → Prop} {next : List Segment}

/-- The stores are changed, the screen is not. -/
theorem Turn.stored (heffect : AppState.Effect pf U W vm.app vm'.app) (hview : vm'.view = vm.view)
    (heditors : vm'.editors = vm.editors) (hnext : ∀ t ∈ next, vm.Launches pf t) : Turn pf U W vm vm' next := by
  refine ⟨heffect, .inl (by rw [hview]), fun hshown => ?_, fun p u hu => .inl ?_, hnext⟩
  · rw [hview]
    exact hshown
  · rw [← heditors]
    exact hu

/-- The stores are read. -/
theorem Turn.quiet (happ : vm'.app = vm.app) (hview : vm'.view = vm.view) (heditors : vm'.editors = vm.editors)
    (hnext : ∀ t ∈ next, vm.Launches pf t) : Turn pf U W vm vm' next :=
  .stored (happ ▸ .refl pf U W vm.app) hview heditors hnext

/-- The list is shown another way. -/
theorem Turn.viewed (happ : vm'.app = vm.app) (hrows : vm'.view.allProfiles = vm.view.allProfiles)
    (hshown : (∀ r ∈ vm.view.profiles, r ∈ vm.view.allProfiles) →
      ∀ r ∈ vm'.view.profiles, r ∈ vm'.view.allProfiles)
    (heditors : vm'.editors = vm.editors) (hnext : ∀ t ∈ next, vm.Launches pf t) : Turn pf U W vm vm' next := by
  refine ⟨happ ▸ .refl pf U W vm.app, .inl hrows, hshown, fun p u hu => .inl ?_, hnext⟩
  rw [← heditors]
  exact hu

/-- Editors are closed. -/
theorem Turn.closed (happ : vm'.app = vm.app) (hview : vm'.view = vm.view)
    (heditors : ∀ p, vm'.editors p = vm.editors p ∨ vm'.editors p = none)
    (hnext : ∀ t ∈ next, vm.Launches pf t) : Turn pf U W vm vm' next := by
  refine ⟨happ ▸ .refl pf U W vm.app, .inl (by rw [hview]), fun hshown => ?_, fun p u hu => .inl ?_, hnext⟩
  · rw [hview]
    exact hshown
  · rcases heditors p with he | he
    · rw [← he]
      exact hu
    · rw [he] at hu
      cases hu

end Turn

theorem next_nil : ∀ t ∈ ([] : List Segment), vm.Launches pf t := fun _ ht => absurd ht List.not_mem_nil

theorem next_one {t : Segment} (h : vm.Launches pf t) : ∀ t' ∈ [t], vm.Launches pf t' := fun _ ht' =>
  List.mem_singleton.1 ht' ▸ h

theorem next_map {α : Type} {o : Option α} {f : α → Segment} (h : ∀ a, vm.Launches pf (f a)) :
    ∀ t ∈ o.toList.map f, vm.Launches pf t := by
  intro t ht
  obtain ⟨a, -, rfl⟩ := List.mem_map.1 ht
  exact h a

theorem next_ite {c : Prop} [Decidable c] {ts ts' : List Segment} (h : ∀ t ∈ ts, vm.Launches pf t)
    (h' : ∀ t ∈ ts', vm.Launches pf t) : ∀ t ∈ (if c then ts else ts'), vm.Launches pf t := by
  split
  · exact h
  · exact h'

theorem next_load : ∀ t ∈ [Segment.load], vm.Launches pf t := next_one trivial

theorem editors_setEditor (vm : MainViewModel) (p q : Protocol) :
    (vm.setEditor p none).editors q = vm.editors q ∨ (vm.setEditor p none).editors q = none := by
  unfold MainViewModel.setEditor
  dsimp only
  split
  · exact .inr rfl
  · exact .inl rfl

theorem turn_returned (vm : MainViewModel) (op : Operation) (ok : Bool) (created : Option Uuid) :
    Turn pf (fun _ => False) (fun _ => False) vm (vm.returned op ok created).1 (vm.returned op ok created).2 := by
  have hclosed : ∀ p {next : List Segment}, (∀ t ∈ next, vm.Launches pf t) →
      Turn pf (fun _ => False) (fun _ => False) vm (vm.setEditor p none) next :=
    fun p _ hnext => .closed rfl rfl (editors_setEditor vm p) hnext
  have hopens : ∀ t ∈ Segment.load :: created.toList.map .openSettings, vm.Launches pf t :=
    List.forall_mem_cons.2 ⟨trivial, next_map fun _ => trivial⟩
  have hquiet : ∀ {next : List Segment}, (∀ t ∈ next, vm.Launches pf t) →
      Turn pf (fun _ => False) (fun _ => False) vm vm next := fun hnext => .quiet rfl rfl rfl hnext
  unfold MainViewModel.returned
  cases op with
  | importConfig _ _ => exact hquiet (next_ite next_load next_nil)
  | renameProfile _ _ => exact hquiet next_load
  | saveProfileSettings _ _ _ => exact hclosed .openvpn (next_ite next_load next_nil)
  | saveWireGuardSettings _ _ _ =>
    cases ok with
    | true => exact hclosed .wireguard next_load
    | false => exact hquiet next_nil
  | saveXraySettings _ _ _ =>
    cases ok with
    | true => exact hclosed .xray next_load
    | false => exact hquiet next_nil
  | saveIkev2Settings _ => exact hclosed .ikev2 next_load
  | createXrayProfile _ => exact hquiet (next_ite hopens next_nil)
  | createIkev2Profile _ => exact hquiet (next_ite hopens next_nil)
  | createWarpProfile _ => exact hquiet (next_ite next_load next_nil)
  | setCredentials u _ _ => exact .quiet rfl rfl rfl next_nil
  | _ => exact hquiet next_nil

/-- What a refresh of a subscription leaves. -/
theorem store_refresh {newUuid : Nat → Uuid} {doubles : Doubles} (s : SubscriptionState)
    (sub : Subscription) (active : Option Uuid) (now : Int) (fetched : Option String) :
    (XraySubscriptionStore.refresh newUuid doubles s sub active now fetched).1.store = s.store ∨
      ∃ links, (XraySubscriptionStore.refresh newUuid doubles s sub active now fetched).1.store
        = (XraySubscriptionStore.replaceProfiles newUuid doubles s.store sub.id active links).1 := by
  unfold XraySubscriptionStore.refresh
  cases fetched with
  | none => exact .inl rfl
  | some body =>
    dsimp only
    split
    · exact .inl rfl
    · refine .inr ⟨XraySubscriptionStore.parseLinks body, ?_⟩
      generalize XraySubscriptionStore.replaceProfiles newUuid doubles s.store sub.id active
        (XraySubscriptionStore.parseLinks body) = replaced
      rfl

/-- A refresh of a subscription does to the stores what the call does, or nothing. -/
theorem effect_fetch (h : vm.app.Kept pf) (sub : Subscription) (env : Env) :
    AppState.Effect pf (fun u => vm.app.xray.subs u = some sub.id) (fun _ => False) vm.app
      { vm.app with
        xray := (XraySubscriptionStore.refresh (pf.newUuid .xray) pf.doubles ⟨vm.app.xray, vm.subs⟩ sub
          env.activeUuid env.now env.fetched).1.store } := by
  rcases store_refresh ⟨vm.app.xray, vm.subs⟩ sub env.activeUuid env.now
    env.fetched with hsame | ⟨links, hreplaced⟩
  · rw [hsame]
    exact .refl pf _ _ vm.app
  · rw [hreplaced]
    exact AppState.effect_refreshSubscription h sub.id env.activeUuid links

/-- The profiles that a segment is about. -/
def touches (vm : MainViewModel) : Segment → Uuid → Prop
  | .call op => vm.app.touches op
  | .manifest _ => (· ∈ (vm.view.allProfiles.map (·.profile)).map (·.uuid))
  | .delete (uuid :: _) => (· = uuid)
  | .fetch sub => fun u => vm.app.xray.subs u = some sub.id
  | .removeSubscription id => fun u => vm.app.xray.subs u = some id
  | _ => fun _ => False

/-- **What a segment can do.** -/
theorem turn_runSegment (h : Sane pf vm) (env : Env) {t : Segment} (ht : t ∈ vm.segments) :
    Turn pf (vm.touches t) t.saves vm (vm.runSegment pf lower hostOf newId env t).1
      (vm.runSegment pf lower hostOf newId env t).2 := by
  have hsound := h.segments t ht
  unfold runSegment
  cases t with
  | load => exact .quiet rfl rfl rfl (next_one rfl)
  | «show» rows =>
    exact ⟨.refl pf _ _ vm.app, .inr (.inr ht), fun _ => shown_applyView _, fun _ _ hu => .inl hu, next_nil⟩
  | call op => exact .stored (AppState.perform_effect h.app hsound) rfl rfl (next_one trivial)
  | returned op ok created => exact turn_returned vm op ok created
  | importZip archive text name =>
    have hadmissible : vm.app.Admissible pf (.importZip archive) := trivial
    exact .stored (AppState.perform_effect h.app hadmissible) rfl rfl (next_one trivial)
  | imported any archive text name =>
    cases any with
    | true => exact .quiet rfl rfl rfl (List.forall_mem_cons.2 ⟨trivial, next_one trivial⟩)
    | false => exact .quiet rfl rfl rfl (next_map fun _ => trivial)
  | manifest archive =>
    dsimp only
    split
    · rename_i m _
      have hadmissible : vm.app.Admissible pf (.applyManifest m (vm.view.allProfiles.map (·.profile))) := by
        intro p hp
        obtain ⟨r, hr, rfl⟩ := List.mem_map.1 hp
        exact h.rows r hr
      exact .stored (AppState.perform_effect h.app hadmissible) rfl rfl next_load
    · exact .quiet rfl rfl rfl next_nil
  | delete rest =>
    cases rest with
    | nil => exact .viewed rfl rfl id rfl next_load
    | cons u rest =>
      exact .stored (AppState.removal_deleteProfile vm.app u).1.effect rfl rfl (next_one trivial)
  | openSettings u => exact .quiet rfl rfl rfl (next_one trivial)
  | settings p u =>
    refine .quiet rfl rfl rfl (next_one ?_)
    cases hfound : settingsOf pf vm.app p u with
    | true => exact hfound
    | false => trivial
  | opened p u found =>
    refine ⟨.refl pf _ _ vm.app, .inl rfl, id, fun q v hv => ?_, next_nil⟩
    unfold MainViewModel.setEditor at hv
    dsimp only at hv
    split at hv
    · rename_i hq
      cases found with
      | true =>
        obtain rfl := Option.some.inj hv
        exact .inr (hq ▸ ht)
      | false => cases hv
    · exact .inl hv
  | addSubscription name url =>
    dsimp only
    split
    · exact .quiet rfl rfl rfl (next_one trivial)
    · exact .quiet rfl rfl rfl (next_one trivial)
  | added id =>
    cases id with
    | none => exact .quiet rfl rfl rfl next_nil
    | some id => exact .viewed rfl rfl (fun hshown => hshown) rfl (next_map fun _ => trivial)
  | fetch sub => exact .stored (effect_fetch h.app sub env) rfl rfl (next_one trivial)
  | fetched => exact .viewed rfl rfl id rfl next_load
  | removeSubscription id =>
    exact .stored (AppState.removal_removeSubscription vm.app id env.activeUuid).effect rfl rfl (next_one trivial)
  | removed id => exact .viewed rfl rfl (fun hshown => hshown) rfl next_load
  | startTunnel u => exact .quiet rfl rfl rfl (next_one trivial)
  | checked u username =>
    cases username with
    | some name => exact .quiet rfl rfl rfl next_nil
    | none =>
      dsimp only
      cases vm.shown u with
      | none => exact .quiet rfl rfl rfl next_nil
      | some r =>
        exact .stored (AppState.edit_tile vm.app _ (some (r.profile.uuid, r.profile.name))).effect rfl rfl next_nil
  | test rest =>
    cases rest with
    | nil => exact .quiet rfl rfl rfl next_nil
    | cons u rest =>
      dsimp only
      split
      · exact .quiet rfl rfl rfl next_nil
      · exact .quiet rfl rfl rfl (next_one trivial)
  | probe u => exact .quiet rfl rfl rfl next_nil
  | speed u => exact .quiet rfl rfl rfl next_nil

/-- A profile that the ticks of a bulk deletion drop from the tile only. -/
theorem effect_clearSelections (s : AppState) (us : List Uuid) :
    AppState.Effect pf (fun _ => False) (fun _ => False) s (us.foldl ProfileStore.clearSelectionIfMatches s) := by
  have hsame : ∀ s : AppState, AppState.Edit pf (fun _ => False) s
      (us.foldl ProfileStore.clearSelectionIfMatches s) := by
    induction us with
    | nil => exact fun s => .refl pf _ s
    | cons u us ih =>
      intro s
      rw [List.foldl_cons]
      refine AppState.Edit.trans ?_ (ih _)
      unfold ProfileStore.clearSelectionIfMatches
      split
      · exact AppState.edit_tile s _ none
      · exact .refl pf _ s
  exact (hsame s).effect

theorem some_of_ite {α : Type} {c : Prop} [Decidable c] {a b : α} (h : (if c then some a else none) = some b) :
    c ∧ a = b := by
  split at h
  · exact ⟨‹c›, Option.some.inj h⟩
  · cases h

/-- The profiles that a step is about. -/
def touched (vm : MainViewModel) : Event → Uuid → Prop
  | .toggleFavourite uuid => (· = uuid)
  | .advance i _ => fun u => ∃ t, vm.segments[i]? = some t ∧ vm.touches t u
  | _ => fun _ => False

/-- The profiles that a step saves in full. -/
def written (vm : MainViewModel) : Event → Uuid → Prop
  | .advance i _ => fun u => ∃ t, vm.segments[i]? = some t ∧ t.saves u
  | _ => fun _ => False

/-- **What the user can do.** -/
theorem turn_act (h : Sane pf vm) {e : Event} {result : MainViewModel × List Segment}
    (hact : vm.act pf lower e = some result) : Turn pf (vm.touched e) (vm.written e) vm result.1 result.2 := by
  have hsame : ∀ {U W : Uuid → Prop} {next : List Segment}, (∀ t ∈ next, vm.Launches pf t) →
      Turn pf U W vm vm next := fun hnext => .quiet rfl rfl rfl hnext
  unfold act at hact
  cases e with
  | restart => cases hact
  | advance i env => cases hact
  | refresh =>
    obtain rfl := Option.some.inj hact
    exact hsame next_load
  | setProtocolFilter p =>
    obtain rfl := Option.some.inj hact
    exact .viewed rfl rfl (fun _ => shown_applyView _) rfl next_nil
  | setGroupFilter id =>
    obtain ⟨-, rfl⟩ := some_of_ite hact
    exact .viewed rfl (allProfiles_setGroupFilter _ _) (fun _ => shown_setGroupFilter _ _) rfl next_nil
  | toggleFavourite u =>
    obtain ⟨hu, rfl⟩ := some_of_ite hact
    have hadmissible : vm.app.Admissible pf (.toggleFavourite u) := h.known_of_shown hu
    exact .stored (AppState.perform_effect h.app hadmissible) rfl rfl next_load
  | toggleSelected u =>
    obtain ⟨-, rfl⟩ := some_of_ite hact
    exact .viewed rfl rfl id rfl next_nil
  | selectAllVisible =>
    obtain rfl := Option.some.inj hact
    exact .viewed rfl rfl id rfl next_nil
  | clearSelection =>
    obtain rfl := Option.some.inj hact
    exact .viewed rfl rfl id rfl next_nil
  | toggle u stops permitted =>
    obtain rfl := Option.some.inj hact
    split
    · exact hsame next_nil
    · split
      · exact hsame (next_one trivial)
      · exact .quiet rfl rfl rfl next_nil
  | permissionResult granted =>
    obtain rfl := Option.some.inj hact
    exact .quiet rfl rfl rfl (next_ite (next_map fun _ => trivial) next_nil)
  | submitCredentials c remember =>
    obtain ⟨p, -, rfl⟩ := Option.map_eq_some_iff.1 hact
    exact .stored (AppState.edit_tile vm.app _ (some (p.uuid, p.name))).effect rfl rfl (next_one trivial)
  | dismissCredentials =>
    obtain rfl := Option.some.inj hact
    exact .quiet rfl rfl rfl next_nil
  | testLatency u active =>
    obtain rfl := Option.some.inj hact
    split
    · exact hsame next_nil
    · exact .quiet rfl rfl rfl (next_one trivial)
  | testAllLatency active =>
    obtain rfl := Option.some.inj hact
    split
    · exact hsame next_nil
    · exact .quiet rfl rfl rfl (next_one trivial)
  | probeXray u active =>
    obtain rfl := Option.some.inj hact
    split
    · exact hsame next_nil
    · exact .quiet rfl rfl rfl (next_one trivial)
  | testDownloadSpeed u active =>
    obtain rfl := Option.some.inj hact
    split
    · exact hsame next_nil
    · exact .quiet rfl rfl rfl (next_one trivial)
  | importFromText text =>
    obtain rfl := Option.some.inj hact
    dsimp only
    split
    · exact hsame next_nil
    · exact hsame (next_one trivial)
  | importFromUri archive text name =>
    obtain rfl := Option.some.inj hact
    refine hsame ?_
    cases archive with
    | some archive => exact next_one trivial
    | none => exact next_map fun _ => trivial
  | deleteAll us =>
    dsimp only at hact
    split at hact
    · cases hact
    · obtain rfl := Option.some.inj hact
      exact .stored (effect_clearSelections vm.app us) rfl rfl (next_one trivial)
  | rename u name =>
    obtain ⟨-, rfl⟩ := some_of_ite hact
    exact hsame (next_one trivial)
  | openSettings u =>
    obtain ⟨-, rfl⟩ := some_of_ite hact
    exact hsame (next_one trivial)
  | closeSettings =>
    obtain rfl := Option.some.inj hact
    exact .closed rfl rfl (fun _ => .inr rfl) next_nil
  | saveSettings name username =>
    obtain ⟨u, -, rfl⟩ := Option.map_eq_some_iff.1 hact
    exact hsame (next_one trivial)
  | saveWireGuardSettings rawConfig name =>
    obtain ⟨u, hu, rfl⟩ := Option.map_eq_some_iff.1 hact
    exact hsame (next_one hu)
  | saveXraySettings link name =>
    obtain ⟨u, hu, rfl⟩ := Option.map_eq_some_iff.1 hact
    exact hsame (next_one hu)
  | saveIkev2Settings updated =>
    obtain ⟨hu, rfl⟩ := some_of_ite hact
    exact hsame (next_one hu)
  | createXrayProfile kind =>
    obtain rfl := Option.some.inj hact
    exact hsame (next_one trivial)
  | createWarpProfile text =>
    obtain rfl := Option.some.inj hact
    exact hsame (next_one trivial)
  | createIkev2Profile name =>
    obtain rfl := Option.some.inj hact
    exact hsame (next_one trivial)
  | addSubscription name url =>
    obtain rfl := Option.some.inj hact
    exact hsame (next_one trivial)
  | refreshSubscription id =>
    obtain ⟨-, rfl⟩ := some_of_ite hact
    exact hsame (next_map fun _ => trivial)
  | removeSubscription id =>
    obtain ⟨-, rfl⟩ := some_of_ite hact
    exact hsame (next_one trivial)

/-- What is to run after a step, or before it already. -/
def Goes (pf : Platform) (U W : Uuid → Prop) (vm vm' : MainViewModel) : Prop :=
  ∃ next, Turn pf U W vm vm' next ∧ ∀ t ∈ vm'.segments, t ∈ vm.segments ∨ t ∈ next

theorem Turn.goes {U W : Uuid → Prop} {next rest : List Segment} (h : Turn pf U W vm vm' next)
    (hrest : ∀ t ∈ rest, t ∈ vm.segments) : Goes pf U W vm { vm' with segments := rest ++ next } :=
  ⟨next, ⟨h.effect, h.rows, h.shown, h.editors, h.next⟩, fun t ht => (List.mem_append.1 ht).imp_left (hrest t)⟩

/-- **What a step can do**, as `Turn` says. -/
theorem step_goes (h : Sane pf vm) {e : Event} (hstep : vm.step pf lower hostOf newId e = some vm') :
    Goes pf (vm.touched e) (vm.written e) vm vm' := by
  rcases step_cases hstep with ⟨rfl, rfl⟩ | ⟨i, env, t, rfl, ht, rfl⟩ | ⟨result, hact, rfl⟩
  · have hcounted : AppState.Edit pf (fun _ => False) vm.app { vm.app with lastBatchImport := 0 } :=
      { AppState.Edit.refl pf (fun _ => False) vm.app with same := { SameBut.refl (fun _ => False) vm.app with } }
    exact ⟨[.load], ⟨hcounted.effect, .inr (.inl rfl), fun _ _ hr => hr, fun _ _ hu => (by cases hu), next_load⟩,
      fun _ ht => .inr ht⟩
  · have hturn := @turn_runSegment pf lower hostOf newId vm h env t (List.mem_of_getElem? ht)
    exact Turn.goes ⟨hturn.effect.mono (fun u hu => ⟨t, ht, hu⟩) fun u hu => ⟨t, ht, hu⟩, hturn.rows, hturn.shown,
      hturn.editors, hturn.next⟩ fun _ => List.mem_of_mem_eraseIdx
  · exact (turn_act h hact).goes fun _ => id

/-! ## 3. The invariant is kept -/

/-- What is launched is sound. -/
theorem Sane.sound_of_launches (h : Sane pf vm) {t : Segment} (ht : vm.Launches pf t) : t.Sound pf vm.app := by
  cases t with
  | «show» rows =>
    obtain rfl : rows = vm.app.rows pf := ht
    exact known_rows h.app
  | call op =>
    cases op with
    | saveXraySettings u link name => exact h.editors .xray u ht
    | saveWireGuardSettings u rawConfig name => exact h.editors .wireguard u ht
    | saveIkev2Settings p => exact h.editors .ikev2 p.uuid ht
    | toggleFavourite u => exact absurd ht id
    | applyManifest m current => exact absurd ht id
    | _ => trivial
  | opened p u found =>
    cases found with
    | true => exact h.app.drawn p u (keys_of_settingsOf ht)
    | false => trivial
  | _ => trivial

/-- **The step lemma.** -/
theorem Sane.stepped (h : Sane pf vm) {e : Event} (hstep : vm.step pf lower hostOf newId e = some vm') :
    Sane pf vm' := by
  obtain ⟨next, hturn, hsegments⟩ := step_goes h hstep
  have hle : ∀ p, vm.app.drawn p ≤ vm'.app.drawn p := fun p => (hturn.effect.moved p).le
  refine ⟨hturn.effect.kept h.app, fun r hr => ?_, hturn.shown h.shown, fun p u hu => ?_, fun t ht => ?_⟩
  · rcases hturn.rows with hsame | hnone | hloaded
    · exact known_mono (h.rows r (hsame ▸ hr)) hle
    · rw [hnone] at hr
      cases hr
    · exact known_mono (h.segments _ hloaded r hr) hle
  · rcases hturn.editors p u hu with hold | hopened
    · exact (h.editors p u hold).mono (hle p)
    · exact AppState.Drawn.mono (h.segments _ hopened) (hle p)
  · rcases hsegments t ht with hold | hnew
    · exact sound_mono (h.segments t hold) hle
    · exact sound_mono (h.sound_of_launches (hturn.next t hnew)) hle

/-- **The run lemma.** -/
theorem Sane.run {events : List Event} (h : Sane pf vm)
    (hrun : exec (step pf lower hostOf newId) vm events = some vm') : Sane pf vm' :=
  exec_inv' (fun _ _ _ hsane hstep => Sane.stepped hsane hstep) h hrun

/-! ## 4. Every run -/

/-- Nothing is stored at first. -/
theorem sane_start (hnew : ∀ p q m n, pf.newUuid p m = pf.newUuid q n → p = q ∧ m = n) : Sane pf start where
  app := ⟨hnew, fun p => by cases p <;> exact List.nodup_nil,
    fun p u hu => by cases p <;> exact absurd hu List.not_mem_nil, fun u hu => absurd hu List.not_mem_nil⟩
  rows r hr := absurd hr List.not_mem_nil
  shown r hr := absurd hr List.not_mem_nil
  editors p u hu := by cases hu
  segments t ht := by
    obtain rfl := List.mem_singleton.1 ht
    trivial

/-- What is saved of a profile is in the store of its protocol. -/
theorem mem_keys_of_saved {s : AppState} {q : Saved} (hq : q ∈ s.saved pf) : q.uuid ∈ s.keys q.protocol := by
  unfold AppState.saved at hq
  simp only [List.mem_append] at hq
  rcases hq with ((hq | hq) | hq) | hq
  · obtain ⟨p, hp, rfl⟩ := List.mem_map.1 hq
    exact List.mem_map_of_mem hp
  · obtain ⟨f, hf, rfl⟩ := List.mem_map.1 hq
    exact List.mem_map_of_mem (List.mem_of_mem_filter hf)
  · obtain ⟨f, hf, rfl⟩ := List.mem_map.1 hq
    exact List.mem_map_of_mem (List.mem_of_mem_filter hf)
  · obtain ⟨r, hr, rfl⟩ := List.mem_map.1 hq
    exact List.mem_map_of_mem hr

/-- **In every run from the first start, whatever the interleaving of the coroutines**: no two profiles
    share a uuid, each is found in the store of its protocol, an editor is open on no profile of another
    store, and the next uuid of a store is in none. -/
theorem stores_kept (hnew : ∀ p q m n, pf.newUuid p m = pf.newUuid q n → p = q ∧ m = n) {events : List Event}
    (hrun : exec (step pf lower hostOf newId) start events = some vm) :
    vm.app.uuids.Nodup ∧ (∀ p ∈ vm.app.allProfiles pf, vm.app.protocolOf p.uuid = p.protocol) ∧
      (∀ p u, vm.editors p = some u → ∀ q, u ∈ vm.app.keys q → q = p) ∧
      ∀ p, pf.newUuid p (vm.app.drawn p) ∉ vm.app.uuids := by
  have hsane := (sane_start hnew).run hrun
  refine ⟨hsane.app.distinct, fun p hp => ?_, fun p u hu q hq => ?_, fun p =>
    hsane.app.fresh.unused p _ (Nat.le_refl _)⟩
  · rw [AppState.allProfiles_eq] at hp
    obtain ⟨q, hq, rfl⟩ := List.mem_map.1 hp
    exact hsane.app.protocolOf_eq (mem_keys_of_saved hq)
  · obtain ⟨i, -, hi⟩ := hsane.editors p u hu
    obtain ⟨j, -, hj⟩ := hsane.app.drawn q u hq
    exact (hnew q p j i (hj.trans hi.symm)).1

/-- The steps on a sample platform. -/
def sampleStep : MainViewModel → Event → Option MainViewModel :=
  step VpnEngine.samplePlatform id id fun _ => ""

/-- A profile that is made while the list is still to be loaded. -/
def sampleCreate : List Event := [.createIkev2Profile "VPN", .advance 1 {}]

/-- And another one. -/
def sampleCreateTwo : List Event := sampleCreate ++ [Event.createIkev2Profile "Home", .advance 2 {}]

theorem stores_kept_created : ∃ vm, exec sampleStep start sampleCreateTwo = some vm ∧
    vm.app.uuids.length = 2 ∧ vm.app.uuids.Nodup := by
  obtain ⟨vm, hrun, htwo⟩ : ∃ vm, exec sampleStep start sampleCreateTwo = some vm ∧
      vm.app.uuids.length = 2 := ⟨_, rfl, rfl⟩
  exact ⟨vm, hrun, htwo, (stores_kept BackupManager.samplePlatform_injective hrun).1⟩

/-- **What no step of a run is about stays saved as it is**, whatever else runs meanwhile. -/
theorem saved_of_untouched (hnew : ∀ p q m n, pf.newUuid p m = pf.newUuid q n → p = q ∧ m = n)
    {before after : List Event} (hvm : exec (step pf lower hostOf newId) start before = some vm)
    (hrun : exec (step pf lower hostOf newId) vm after = some vm') {q : Saved} (hq : vm.app.Known pf q.uuid)
    (hto : Along (step pf lower hostOf newId) (fun vm e => ¬ vm.touched e q.uuid) vm after) :
    q ∈ vm'.app.saved pf ↔ q ∈ vm.app.saved pf := by
  have hsane := (sane_start hnew).run hvm
  have hinv := exec_inv (I := fun v => Sane pf v ∧ v.app.Known pf q.uuid ∧
    (q ∈ v.app.saved pf ↔ q ∈ vm.app.saved pf)) ?_ ⟨hsane, hq, Iff.rfl⟩ hto hrun
  · exact hinv.2.2
  · intro v e v' hv hnot hstep
    obtain ⟨next, hturn, -⟩ := step_goes hv.1 hstep
    obtain ⟨p, hp⟩ := hv.2.1
    exact ⟨hv.1.stepped hstep, ⟨p, hp.mono (hturn.effect.moved p).le⟩,
      (hturn.effect.mem_saved_iff hv.1.app hp hnot).trans hv.2.2⟩

/-- What is saved of the profile of `sampleCreate`. -/
def sampleSaved : Saved :=
  AppState.savedRow [] { freshIkev2 VpnEngine.samplePlatform VpnEngine.emptyState "VPN" with remoteId := "%any" }

/-- Another profile that is made next. -/
theorem saved_of_untouched_created : ∃ vm vm', exec sampleStep start sampleCreate = some vm ∧
    exec sampleStep vm [.createIkev2Profile "B", .advance 2 {}] = some vm' ∧
      sampleSaved ∈ vm'.app.saved VpnEngine.samplePlatform := by
  obtain ⟨vm, vm', hvm, hrun, hdrawn, hsaved, hto⟩ : ∃ vm vm', exec sampleStep start sampleCreate = some vm ∧
      exec sampleStep vm [.createIkev2Profile "B", .advance 2 {}] = some vm' ∧ vm.app.drawn .ikev2 = 1 ∧
      sampleSaved ∈ vm.app.saved VpnEngine.samplePlatform ∧
      Along sampleStep (fun vm e => ¬ vm.touched e sampleSaved.uuid) vm
        [.createIkev2Profile "B", .advance 2 {}] := by
    refine ⟨_, _, rfl, rfl, rfl, by decide, id, ?_, trivial⟩
    rintro ⟨t, ht, hu⟩
    obtain rfl := Option.some.inj ht
    exact hu
  have hknown : vm.app.Known VpnEngine.samplePlatform sampleSaved.uuid :=
    ⟨.ikev2, 0, hdrawn.symm ▸ Nat.one_pos, rfl⟩
  exact ⟨vm, vm', hvm, hrun,
    (saved_of_untouched BackupManager.samplePlatform_injective hvm hrun hknown hto).2 hsaved⟩

/-! ## 5. What is deleted -/

/-- A segment that may still bring a uuid back to a store or to the list. -/
def brings : Segment → Uuid → Prop
  | .show rows => (· ∈ rows.map (·.profile.uuid))
  | .call op => op.saves
  | .opened _ v true => (· = v)
  | _ => fun _ => False

/-- A uuid that was drawn once, and that no store, row, editor or segment holds. -/
structure Forgotten (pf : Platform) (vm : MainViewModel) (u : Uuid) : Prop where
  known : vm.app.Known pf u
  stored : ∀ p, u ∉ vm.app.keys p
  rows : ∀ r ∈ vm.view.allProfiles, r.profile.uuid ≠ u
  editors : ∀ p, vm.editors p ≠ some u
  segments : ∀ t ∈ vm.segments, ¬ brings t u

theorem not_mem_rows {s : AppState} {u : Uuid} (h : ∀ p, u ∉ s.keys p) : ∀ r ∈ s.rows pf, r.profile.uuid ≠ u := by
  intro r hr he
  obtain ⟨p, hp, rfl⟩ := List.mem_map.1 hr
  rw [AppState.allProfiles_eq] at hp
  obtain ⟨q, hq, rfl⟩ := List.mem_map.1 hp
  exact h q.protocol (he ▸ mem_keys_of_saved hq)

theorem Forgotten.not_brings {u : Uuid} (h : Forgotten pf vm u) {t : Segment} (ht : vm.Launches pf t) :
    ¬ brings t u := by
  cases t with
  | «show» rows =>
    obtain rfl : rows = vm.app.rows pf := ht
    intro hm
    obtain ⟨r, hr, he⟩ := List.mem_map.1 hm
    exact not_mem_rows h.stored r hr he
  | call op =>
    cases op with
    | saveXraySettings v link name => exact fun he => h.editors .xray (he.symm ▸ ht)
    | saveWireGuardSettings v rawConfig name => exact fun he => h.editors .wireguard (he.symm ▸ ht)
    | saveIkev2Settings p =>
      intro he
      have heditor : vm.editors .ikev2 = some p.uuid := ht
      exact h.editors .ikev2 (heditor.trans (congrArg some (Eq.symm he)))
    | _ => exact id
  | opened p v found =>
    cases found with
    | true =>
      rintro rfl
      exact h.stored p (keys_of_settingsOf ht)
    | false => exact id
  | _ => exact id

/-- **The step lemma.** -/
theorem Forgotten.stepped {u : Uuid} (h : Forgotten pf vm u) (hsane : Sane pf vm) {e : Event}
    (hstep : vm.step pf lower hostOf newId e = some vm') : Forgotten pf vm' u := by
  obtain ⟨next, hturn, hsegments⟩ := step_goes hsane hstep
  obtain ⟨q, hq⟩ := h.known
  have hwritten : ¬ vm.written e u := by
    cases e with
    | advance i env =>
      rintro ⟨t, ht, hsaves⟩
      have hnot := h.segments t (List.mem_of_getElem? ht)
      cases t with
      | call op => exact hnot hsaves
      | _ => exact hsaves
    | _ => exact id
  refine ⟨⟨q, hq.mono (hturn.effect.moved q).le⟩, fun p hp => ?_, fun r hr => ?_, fun p hp => ?_, fun t ht => ?_⟩
  · rcases hturn.effect.mem_keys hp with hold | hdrawn | hsaved
    · exact h.stored p hold
    · exact hsane.app.not_newUuid hq hdrawn
    · exact hwritten hsaved
  · rcases hturn.rows with hsame | hnone | hloaded
    · exact h.rows r (hsame ▸ hr)
    · rw [hnone] at hr
      cases hr
    · exact fun he => h.segments _ hloaded (List.mem_map.2 ⟨r, hr, he⟩)
  · rcases hturn.editors p u hp with hold | hopened
    · exact h.editors p hold
    · exact h.segments _ hopened rfl
  · rcases hsegments t ht with hold | hnew
    · exact h.segments t hold
    · exact h.not_brings (hturn.next t hnew)

/-- **What is deleted does not come back**: once no store, row, editor or segment holds the uuid of a
    profile, none does in any run from there. -/
theorem never_back (hnew : ∀ p q m n, pf.newUuid p m = pf.newUuid q n → p = q ∧ m = n)
    {before after : List Event} (hvm : exec (step pf lower hostOf newId) start before = some vm) {u : Uuid}
    (hgone : Forgotten pf vm u) (hrun : exec (step pf lower hostOf newId) vm after = some vm') :
    u ∉ vm'.app.uuids ∧ (∀ r ∈ vm'.view.profiles, r.profile.uuid ≠ u) ∧ ∀ p, vm'.editors p ≠ some u := by
  have hinv := exec_inv' (I := fun v => Sane pf v ∧ Forgotten pf v u)
    (fun v e v' hv hstep => ⟨hv.1.stepped hstep, hv.2.stepped hv.1 hstep⟩) ⟨(sane_start hnew).run hvm, hgone⟩ hrun
  refine ⟨fun hm => ?_, fun r hr => hinv.2.rows r (hinv.1.shown r hr), hinv.2.editors⟩
  obtain ⟨p, hp⟩ := AppState.mem_uuids_iff.1 hm
  exact hinv.2.stored p hp

/-- The profile of `sampleCreate` is deleted while its editor is to open. -/
def sampleDelete : List Event :=
  sampleCreate ++ [Event.advance 0 {}, .advance 1 {}, .advance 0 {}, .deleteAll ["iu"],
      .advance 2 {}, .advance 2 {}] ++
    [Event.advance 1 {}, .advance 0 {}, .advance 0 {}, .advance 0 {}, .advance 0 {}, .advance 0 {}, .advance 0 {}]

theorem never_back_deleted : ∃ vm vm', exec sampleStep start sampleDelete = some vm ∧
    exec sampleStep vm [.refresh] = some vm' ∧ "iu" ∉ vm'.app.uuids := by
  have hruns : ((exec sampleStep start sampleDelete).any fun vm =>
      vm.segments.isEmpty && vm.view.allProfiles.isEmpty && vm.app.drawn .ikev2 = 1 &&
        Protocol.entries.all fun p => vm.editors p = none && (vm.app.keys p).isEmpty) = true := by
    decide +kernel
  obtain ⟨vm, hvm, hrest⟩ := (Option.any_eq_true _ _).1 hruns
  simp only [Bool.and_eq_true, decide_eq_true_eq, List.isEmpty_iff, List.all_eq_true] at hrest
  obtain ⟨⟨⟨hsegments, hrows⟩, hdrawn⟩, hstores⟩ := hrest
  have hstore : ∀ p, vm.editors p = none ∧ vm.app.keys p = [] := fun p => hstores p (by cases p <;> decide)
  have hgone : Forgotten VpnEngine.samplePlatform vm "iu" := by
    refine ⟨⟨.ikev2, 0, hdrawn.symm ▸ Nat.one_pos, rfl⟩, fun p => ?_, fun r hr => ?_, fun p => ?_, fun t ht => ?_⟩
    · rw [(hstore p).2]
      exact List.not_mem_nil
    · rw [hrows] at hr
      cases hr
    · rw [(hstore p).1]
      exact (Option.some_ne_none "iu").symm
    · rw [hsegments] at ht
      cases ht
  obtain ⟨vm', hrun⟩ : ∃ vm', exec sampleStep vm [.refresh] = some vm' := ⟨_, rfl⟩
  exact ⟨vm, vm', hvm, hrun, (never_back BackupManager.samplePlatform_injective hvm hgone hrun).1⟩

end Sane

end MainViewModel

end SwiftVpn
