/-
  File:      SwiftVpn/Screen/Loads.lean
  Subject:   THE LIST IS THAT OF THE STORES, once no segment is to run.

  Every change of what the list is loaded from is followed by a load. `promises` are the segments from
  which a load comes for sure; the invariant `UpToDate` is that one of them is to run, or that what was
  loaded last is what is stored.

  * `rows_importConfig`, `rows_importZip` -- an import that reports nothing changed nothing of the list;
  * `Orderly` -- what is loaded first is shown first, imports do not overlap, and no archive hands on a
    batch of links, of which `importZip` counts none;
  * `list_up_to_date`.
-/
import SwiftVpn.Screen.Lists
import SwiftVpn.Profiles.Counted

namespace SwiftVpn

open Machine

/-! ## 1. Calls that change nothing of the list -/

namespace AppState

variable {pf : Platform} {s s' : AppState}

/-- The rows depend on the profiles, the stars and the owners. -/
theorem rows_congr (hprofiles : s'.profiles pf = s.profiles pf) (hstars : s'.favourites = s.favourites)
    (hsubs : s'.xray.subs = s.xray.subs) : s'.rows pf = s.rows pf := by
  unfold rows allProfiles
  rw [hprofiles, hstars, hsubs]

theorem rows_grown {new : NewProfiles} (h : Grown pf s s' new) (hsize : new.size = 0)
    (hsubs : s'.xray.subs = s.xray.subs) : s'.rows pf = s.rows pf := by
  obtain ⟨no, nw, nx, ni⟩ := new
  simp only [NewProfiles.size, Nat.add_eq_zero_iff, List.length_eq_zero_iff] at hsize
  obtain ⟨⟨⟨rfl, rfl⟩, rfl⟩, rfl⟩ := hsize
  have hwireGuard : s'.wireGuard.names = s.wireGuard.names :=
    funext fun u => h.wireGuard.names u List.not_mem_nil
  have hxray : s'.xray.names = s.xray.names := funext fun u => h.xray.names u List.not_mem_nil
  refine rows_congr ?_ h.favourites hsubs
  unfold profiles WireGuardStore.profiles XrayStore.profiles WireGuardStore.name XrayStore.name
  rw [h.openVpn.profiles, h.wireGuard.files, h.xray.files, h.ikev2.rows, hwireGuard, hxray]
  simp only [List.append_nil]

theorem rows_setCredentials (s : AppState) (u : Uuid) (c : Credentials) :
    (s.setCredentials u c).rows pf = s.rows pf := by
  unfold setCredentials
  split
  · rfl
  · refine rows_congr ?_ rfl rfl
    unfold profiles ProfileManager.update
    dsimp only
    rw [List.map_map]
    refine congrArg (· ++ _ ++ _ ++ _) (List.map_congr_left fun p _ => ?_)
    rw [Function.comp_apply]
    split <;> rfl

/-- A tile that is cleared is of no matter to the list. -/
theorem rows_clearSelections (us : List Uuid) (s : AppState) :
    (us.foldl ProfileStore.clearSelectionIfMatches s).rows pf = s.rows pf ∧
      (us.foldl ProfileStore.clearSelectionIfMatches s).lastBatchImport = s.lastBatchImport := by
  have hone : ∀ (s : AppState) (u : Uuid), (ProfileStore.clearSelectionIfMatches s u).rows pf = s.rows pf ∧
      (ProfileStore.clearSelectionIfMatches s u).lastBatchImport = s.lastBatchImport := by
    intro s u
    unfold ProfileStore.clearSelectionIfMatches
    split
    · exact ⟨rows_congr rfl rfl rfl, rfl⟩
    · exact ⟨rfl, rfl⟩
  induction us generalizing s with
  | nil => exact ⟨rfl, rfl⟩
  | cons u us ih =>
    rw [List.foldl_cons]
    exact ⟨(ih _).1.trans (hone s u).1, (ih _).2.trans (hone s u).2⟩

end AppState

namespace XrayStore

variable {newUuid : Nat → Uuid} {doubles : Doubles}

/-- A profile that no subscription owns. -/
theorem subs_importLink {s s' : XrayStore} {link preferred name : String} {taken : Option (List String)}
    (h : s.importLink newUuid doubles link preferred none taken = some (s', name)) : s'.subs = s.subs := by
  unfold importLink at h
  simp only [Option.bind_eq_bind, Option.bind_eq_some_iff] at h
  obtain ⟨o, -, h⟩ := h
  cases h
  rfl

theorem subs_foldl_importNext (links : List String) (acc : XrayStore × List String × Nat) :
    (links.foldl (importNext newUuid doubles none) acc).1.subs = acc.1.subs := by
  induction links generalizing acc with
  | nil => rfl
  | cons link links ih =>
    rw [List.foldl_cons, ih]
    unfold importNext
    split
    · rename_i s name h
      exact subs_importLink h
    · rfl

theorem subs_importMany (s : XrayStore) (text : String) :
    (s.importMany newUuid doubles text none).1.subs = s.subs :=
  subs_foldl_importNext _ (s, s.profileNames doubles, 0)

theorem subs_importCustomJson {s s' : XrayStore} {text preferred name : String}
    (h : s.importCustomJson newUuid doubles text preferred none = some (s', name)) : s'.subs = s.subs := by
  unfold importCustomJson at h
  dsimp only at h
  split at h
  · cases h
  · cases h
    rfl

end XrayStore

namespace VpnEngine

open XrayShareLink ZipImport

variable {pf : Platform}

/-- An importer leaves the owners alone, and the number of the last batch. -/
def Keeps (s : AppState) (result : Option (AppState × Profile)) : Prop :=
  ∀ s' p, result = some (s', p) → s'.xray.subs = s.xray.subs ∧ s'.lastBatchImport = s.lastBatchImport

theorem keeps_importLink (s : AppState) (text name : String) : Keeps s (importLink pf s text name) := by
  intro s' p h
  unfold importLink at h
  obtain ⟨r, hr, he⟩ := Option.map_eq_some_iff.1 h
  cases he
  exact ⟨XrayStore.subs_importLink hr, rfl⟩

theorem keeps_importCustomJson (s : AppState) (text name : String) : Keeps s (importCustomJson pf s text name) := by
  intro s' p h
  unfold importCustomJson at h
  obtain ⟨r, hr, he⟩ := Option.map_eq_some_iff.1 h
  cases he
  exact ⟨XrayStore.subs_importCustomJson hr, rfl⟩

theorem keeps_importWireGuard (s : AppState) (text name : String) : Keeps s (importWireGuard pf s text name) := by
  intro s' p h
  unfold importWireGuard at h
  obtain ⟨r, -, he⟩ := Option.map_eq_some_iff.1 h
  cases he
  exact ⟨rfl, rfl⟩

theorem keeps_importOpenVpn (s : AppState) (text name : String) : Keeps s (importOpenVpn pf s text name) := by
  intro s' p h
  unfold importOpenVpn at h
  obtain ⟨r, -, he⟩ := Option.map_eq_some_iff.1 h
  cases he
  exact ⟨rfl, rfl⟩

theorem Keeps.orElse {s : AppState} {r r' : Option (AppState × Profile)} (h : Keeps s r) (h' : Keeps s r') :
    Keeps s (r <|> r') := by
  cases r with
  | none => exact h'
  | some result => exact h

theorem Keeps.outcome {s : AppState} {result : Option (AppState × Profile)} (h : Keeps s result) :
    (ImportOutcome.of s result).state.xray.subs = s.xray.subs ∧
      (ImportOutcome.of s result).state.lastBatchImport = s.lastBatchImport := by
  cases result with
  | none => exact ⟨rfl, rfl⟩
  | some r => exact h r.1 r.2 rfl

/-- What `importConfig` leaves of the owners, and the number it reports: that of a batch, or none. -/
theorem subs_importConfig (s : AppState) (text name : String) :
    (importConfig pf s text name).state.xray.subs = s.xray.subs ∧
      (importConfig pf s text name).state.lastBatchImport
        = if 1 < (extractLinks text).length then profilesIn pf text else 0 := by
  unfold importConfig
  dsimp only
  by_cases hmany : 1 < (extractLinks text).length
  · rw [if_pos hmany, if_pos hmany]
    have hne : extractLinks text ≠ [] := by
      intro h
      rw [h] at hmany
      exact absurd hmany (by decide)
    have hsubs := @XrayStore.subs_importMany (pf.newUuid .xray) pf.doubles s.xray (plain (extractLinks text))
    dsimp only
    refine ⟨hsubs, ?_⟩
    rw [importMany_extractLinks s.xray text hne none]
    obtain ⟨new, -, hcount, hlen⟩ :=
      XrayStore.importBatch_adds (addsFiles_extended pf) s.xray (extractLinks text)
    unfold profilesIn
    rw [if_pos hmany, hcount, hlen, importable_eq pf]
  · rw [if_neg hmany, if_neg hmany]
    have single : ∀ {result : Option (AppState × Profile)}, Keeps { s with lastBatchImport := 0 } result →
        (ImportOutcome.of { s with lastBatchImport := 0 } result).state.xray.subs = s.xray.subs ∧
          (ImportOutcome.of { s with lastBatchImport := 0 } result).state.lastBatchImport = 0 :=
      fun h => h.outcome
    split
    · exact single (keeps_importLink _ text name)
    · split
      · exact single (keeps_importCustomJson _ text name)
      · split
        · exact single ((keeps_importWireGuard _ text name).orElse (keeps_importOpenVpn _ text name))
        · exact single ((keeps_importOpenVpn _ text name).orElse (keeps_importWireGuard _ text name))

/-- **An import that reports nothing changed nothing of the list.** -/
theorem rows_importConfig {s : AppState} {text name : String}
    (hnone : (importConfig pf s text name).profile.isSome = false)
    (hzero : (importConfig pf s text name).state.lastBatchImport = 0) :
    (importConfig pf s text name).state.rows pf = s.rows pf := by
  obtain ⟨new, hgrown, hsize, hsome⟩ := importConfig_spec pf s text name
  obtain ⟨hsubs, hbatch⟩ := @subs_importConfig pf s text name
  refine AppState.rows_grown hgrown ?_ hsubs
  rw [hsize]
  by_cases hmany : 1 < (extractLinks text).length
  · rw [if_pos hmany, hzero] at hbatch
    exact hbatch.symm
  · rw [hnone] at hsome
    by_contra hne
    exact Bool.false_ne_true (hsome.2 ⟨Nat.le_of_not_lt hmany, Nat.pos_of_ne_zero hne⟩)

theorem subs_importEntry (acc : AppState × Nat) (e : Entry) :
    (importEntry pf acc e).1.xray.subs = acc.1.xray.subs := by
  have hcounted : ∀ (acc : AppState × Nat) (text name : String),
      (importCounted pf acc text name).1.xray.subs = acc.1.xray.subs := by
    intro acc text name
    have hsubs := (@subs_importConfig pf acc.1 text name).1
    unfold importCounted
    dsimp only
    exact hsubs
  have hikev2 : ∀ s : AppState, (importIkev2Backup pf s e.text).1.xray = s.xray := by
    intro s
    unfold importIkev2Backup
    cases ikev2Document pf e.text <;> rfl
  unfold importEntry
  split
  · exact congrArg XrayStore.subs (hikev2 acc.1)
  · dsimp only
    split
    · generalize (entryLinks e.text).zipIdx = links
      induction links generalizing acc with
      | nil => rfl
      | cons link links ih => rw [List.foldl_cons, ih, hcounted]
    · exact hcounted acc e.text e.name

theorem subs_importZip (s : AppState) (archive : List ZipEntry) :
    (importZip pf s archive).1.xray.subs = s.xray.subs := by
  have hfoldl : ∀ (es : List Entry) (acc : AppState × Nat),
      (es.foldl (importEntry pf) acc).1.xray.subs = acc.1.xray.subs := by
    intro es
    induction es with
    | nil => exact fun _ => rfl
    | cons e es ih => exact fun acc => (ih _).trans (subs_importEntry acc e)
  unfold importZip
  dsimp only
  split
  · rfl
  · exact hfoldl _ (s, 0)

/-- No text that `importZip` hands on is a batch with a link that parses. -/
def NoBatch (pf : Platform) (archive : List ZipEntry) : Prop :=
  ∀ e ∈ readConfigs archive, e.isIkev2Backup = false → ∀ text ∈ handed e,
    1 < (extractLinks text).length → ∀ l ∈ extractLinks text, parse pf.doubles l = none

/-- **An archive from which nothing is reported changed nothing of the list.** -/
theorem rows_importZip {s : AppState} (hf : s.Fresh pf) {archive : List ZipEntry} (hbatch : NoBatch pf archive)
    (hzero : (importZip pf s archive).2.1 = 0) : (importZip pf s archive).1.rows pf = s.rows pf := by
  obtain ⟨⟨new, hgrown, hsize⟩, hcount⟩ := importZip_gains hf archive
  refine AppState.rows_grown hgrown ?_ (subs_importZip s archive)
  have hsame : ((readConfigs archive).map (VpnEngine.counted pf)).sum
      = ((readConfigs archive).map (stored pf)).sum :=
    congrArg List.sum (List.map_congr_left fun e he => (counted_eq_stored_iff e).2 (hbatch e he))
  rw [hsize, ← hsame, ← hcount, hzero]

end VpnEngine

/-! ## 2. The number of the last batch -/

namespace AppState

variable {pf : Platform}

theorem lastBatchImport_renameProfile (s : AppState) (u : Uuid) (name : String) :
    (s.renameProfile u name).lastBatchImport = s.lastBatchImport := by
  unfold renameProfile
  split
  · rfl
  · rfl
  · split <;> rfl
  · rfl

theorem lastBatchImport_setCredentials (s : AppState) (u : Uuid) (c : Credentials) :
    (s.setCredentials u c).lastBatchImport = s.lastBatchImport := by
  unfold setCredentials
  split <;> rfl

theorem lastBatchImport_applyTo (m : JsonObject) (s : AppState) (p : Profile) :
    (BackupManager.applyTo m s p).lastBatchImport = s.lastBatchImport := by
  have hrenamed : ∀ name : String,
      (if name ≠ p.name then s.renameProfile p.uuid name else s).lastBatchImport = s.lastBatchImport := by
    intro name
    split
    · exact lastBatchImport_renameProfile s p.uuid _
    · rfl
  have hstar : ∀ (t : AppState) (c : Prop) [Decidable c],
      (if c then t.toggleFavourite p.uuid else t).lastBatchImport = t.lastBatchImport := by
    intro t c _
    split <;> rfl
  have htile : ∀ (t : AppState) (tile : Option (Uuid × String)) (c : Prop) [Decidable c],
      (if c then { t with tile := tile } else t).lastBatchImport = t.lastBatchImport := by
    intro t tile c _
    split <;> rfl
  unfold BackupManager.applyTo
  cases BackupManager.originalName m p with
  | none =>
    cases BackupManager.credentialsFor m p with
    | none => exact (htile _ _ _).trans (hstar _ _)
    | some c => exact (htile _ _ _).trans ((hstar _ _).trans (lastBatchImport_setCredentials s p.uuid c))
  | some name =>
    cases BackupManager.credentialsFor m p with
    | none => exact (htile _ _ _).trans ((hstar _ _).trans (hrenamed name))
    | some c =>
      exact (htile _ _ _).trans ((hstar _ _).trans ((lastBatchImport_setCredentials _ p.uuid c).trans (hrenamed name)))

theorem lastBatchImport_applyManifest (m : JsonObject) (s : AppState) (current : List Profile) :
    (BackupManager.applyManifest m s current).lastBatchImport = s.lastBatchImport := by
  unfold BackupManager.applyManifest
  induction current generalizing s with
  | nil => rfl
  | cons p current ih => exact (ih _).trans (lastBatchImport_applyTo m s p)

theorem lastBatchImport_deleteProfile (s : AppState) (u : Uuid) :
    (VpnEngine.deleteProfile s u).lastBatchImport = s.lastBatchImport := by
  unfold VpnEngine.deleteProfile VpnEngine.dropSource
  dsimp only
  split <;> rfl

end AppState

/-! ## 3. What is to be loaded -/

/-- The calls that are launched as such. -/
def Operation.called : Operation → Bool
  | .importConfig _ _ | .renameProfile _ _ | .setCredentials _ _ _ | .saveProfileSettings _ _ _
  | .saveXraySettings _ _ _ | .saveWireGuardSettings _ _ _ | .saveIkev2Settings _
  | .createXrayProfile _ | .createWarpProfile _ | .createIkev2Profile _ => true
  | _ => false

/-- Whether the list is loaded when a call has returned `ok`; `batch` is the number of the last batch. -/
def Operation.reloads (ok : Bool) (batch : Nat) : Operation → Bool
  | .importConfig _ _ => ok || 0 < batch
  | .renameProfile _ _ | .saveIkev2Settings _ => true
  | .saveProfileSettings _ _ _ | .saveWireGuardSettings _ _ _ | .saveXraySettings _ _ _
  | .createXrayProfile _ | .createIkev2Profile _ | .createWarpProfile _ => ok
  | _ => false

namespace AppState

variable {pf : Platform}

theorem rows_or_true {b : Bool} {P : Prop} (h : b = false → P) : P ∨ b = true := by
  cases b with
  | true => exact .inr rfl
  | false => exact .inl (h rfl)

theorem rows_of_outcome {s : AppState} {result : AppState × Bool} {outcome : ImportOutcome}
    (hresult : result = (outcome.state, outcome.profile.isSome))
    (h : outcome.profile.isSome = false → outcome.state.lastBatchImport = 0 → outcome.state.rows pf = s.rows pf) :
    result.1.rows pf = s.rows pf ∨ (result.2 || decide (0 < result.1.lastBatchImport)) = true := by
  rw [hresult]
  refine rows_or_true fun hnone => ?_
  rw [Bool.or_eq_false_iff, decide_eq_false_iff_not, Nat.not_lt, Nat.le_zero] at hnone
  exact h hnone.1 hnone.2

/-- **A call that changes something of the list has the list loaded.** -/
theorem rows_perform (s : AppState) {op : Operation} (hcalled : op.called = true) :
    (s.perform pf op).1.rows pf = s.rows pf ∨
      op.reloads (s.perform pf op).2 (s.perform pf op).1.lastBatchImport = true := by
  cases op with
  | importConfig text name =>
    have hperform : s.perform pf (.importConfig text name)
        = ((VpnEngine.importConfig pf s text name).state, (VpnEngine.importConfig pf s text name).profile.isSome) :=
      rfl
    exact rows_of_outcome hperform (@VpnEngine.rows_importConfig pf s text name)
  | renameProfile u name => exact .inr rfl
  | saveIkev2Settings p => exact .inr rfl
  | createIkev2Profile name => exact .inr rfl
  | setCredentials u c persist => exact .inl (rows_setCredentials s u _)
  | saveProfileSettings u name username =>
    refine rows_or_true fun hfailed => ?_
    unfold perform at hfailed ⊢
    dsimp only at hfailed ⊢
    unfold VpnEngine.saveProfileSettings at hfailed ⊢
    split
    · rfl
    · rename_i p hp
      rw [hp] at hfailed
      cases hfailed
  | saveXraySettings u link name =>
    refine rows_or_true fun hfailed => ?_
    unfold perform at hfailed ⊢
    dsimp only at hfailed ⊢
    unfold VpnEngine.saveXraySettings at hfailed ⊢
    rw [XrayStore.saveLink_eq] at hfailed ⊢
    cases hrejects : XrayStore.saveRejects pf.doubles link with
    | true => rfl
    | false =>
      rw [hrejects, if_neg Bool.false_ne_true] at hfailed
      cases hfailed
  | saveWireGuardSettings u rawConfig name =>
    refine rows_or_true fun hfailed => ?_
    unfold perform at hfailed ⊢
    dsimp only at hfailed ⊢
    unfold VpnEngine.saveWireGuardSettings at hfailed ⊢
    split
    · rename_i hparsed
      rw [if_pos hparsed] at hfailed
      cases hfailed
    · rfl
  | createXrayProfile kind =>
    refine rows_or_true fun hfailed => ?_
    unfold perform at hfailed ⊢
    dsimp only at hfailed ⊢
    split
    · rename_i s' p hgiven
      rw [hgiven] at hfailed
      cases hfailed
    · rfl
  | createWarpProfile text =>
    refine rows_or_true fun hfailed => ?_
    unfold perform at hfailed ⊢
    dsimp only at hfailed ⊢
    split
    · rename_i s' p hgiven
      rw [hgiven] at hfailed
      cases hfailed
    · rfl
  | _ => cases hcalled

/-- Only imports count a batch. -/
theorem lastBatchImport_perform (s : AppState) {op : Operation} (hcalled : op.called = true)
    (hnot : ∀ text name, op ≠ .importConfig text name) :
    (s.perform pf op).1.lastBatchImport = s.lastBatchImport := by
  have hkeeps : ∀ {result : Option (AppState × Profile)} {s' : AppState} {p : Profile},
      VpnEngine.Keeps s result → result = some (s', p) → s'.lastBatchImport = s.lastBatchImport :=
    fun h hresult => (h _ _ hresult).2
  cases op with
  | importConfig text name => exact absurd rfl (hnot text name)
  | renameProfile u name => exact lastBatchImport_renameProfile s u name
  | setCredentials u c persist => exact lastBatchImport_setCredentials s u _
  | saveIkev2Settings p => rfl
  | createIkev2Profile name => rfl
  | saveProfileSettings u name username =>
    unfold perform VpnEngine.saveProfileSettings
    dsimp only
    split <;> rfl
  | saveXraySettings u link name =>
    unfold perform VpnEngine.saveXraySettings
    dsimp only
    split <;> rfl
  | saveWireGuardSettings u rawConfig name =>
    unfold perform VpnEngine.saveWireGuardSettings
    dsimp only
    split <;> rfl
  | createXrayProfile kind =>
    unfold perform
    dsimp only
    split
    · rename_i s' p hgiven
      unfold MainViewModel.createXrayProfile at hgiven
      split at hgiven
      · exact hkeeps (VpnEngine.keeps_importCustomJson s _ _) hgiven
      · exact hkeeps (VpnEngine.keeps_importLink s _ _) hgiven
    · rfl
  | createWarpProfile text =>
    unfold perform
    dsimp only
    split
    · rename_i s' p hgiven
      exact hkeeps (VpnEngine.keeps_importWireGuard s _ _) hgiven
    · rfl
  | _ => cases hcalled

end AppState

namespace MainViewModel

/-- A segment from which a load comes for sure. -/
def promises (vm : MainViewModel) : Segment → Bool
  | .load | .fetched | .removed _ | .delete _ => true
  | .imported any _ _ _ => any
  | .returned op ok _ => op.reloads ok vm.app.lastBatchImport
  | _ => false

/-- What a segment is to show. -/
def shownRows : Segment → Option (List Row)
  | .show rows => some rows
  | _ => none

/-- What was loaded last: it is to be shown, or is shown. -/
def latest (vm : MainViewModel) : List Row :=
  ((vm.segments.filterMap shownRows).getLast?).getD vm.view.allProfiles

/-- A segment that imports, and one in which an import returns. -/
def imports : Segment → Bool
  | .call (.importConfig _ _) | .importZip _ _ _ => true
  | _ => false

def returnsImport : Segment → Bool
  | .returned (.importConfig _ _) _ _ => true
  | _ => false

/-- What is loaded first is shown first; no import starts while another has still to return; and no
    archive hands on a batch of links. -/
def Orderly (pf : Platform) (vm : MainViewModel) : Event → Prop
  | .advance i _ =>
    (∀ rows, vm.segments[i]? = some (.show rows) → (vm.segments.take i).filterMap shownRows = []) ∧
      (∀ t, vm.segments[i]? = some t → imports t = true → ∀ t' ∈ vm.segments, returnsImport t' = false) ∧
      ∀ archive text name, vm.segments[i]? = some (.importZip archive text name) → VpnEngine.NoBatch pf archive
  | _ => True

/-- **The invariant.** -/
structure UpToDate (pf : Platform) (vm : MainViewModel) : Prop where
  calls : ∀ op, .call op ∈ vm.segments → op.called = true
  loaded : vm.latest = vm.app.rows pf ∨ ∃ t ∈ vm.segments, vm.promises t = true

/-- A step that neither loads nor shows: what it changes of the rows, it promises to load. -/
structure Quiet (pf : Platform) (vm vm' : MainViewModel) (next : List Segment) : Prop where
  view : vm'.view.allProfiles = vm.view.allProfiles
  shown : next.filterMap shownRows = []
  stored : vm'.app.rows pf = vm.app.rows pf ∨ ∃ t ∈ next, vm'.promises t = true

section Loads

variable {pf : Platform} {lower hostOf : String → String} {newId : Nat → String} {vm vm' : MainViewModel}

theorem promises_congr {t : Segment} (h : returnsImport t = false ∨ vm'.app.lastBatchImport = vm.app.lastBatchImport) :
    vm'.promises t = vm.promises t := by
  cases t with
  | returned op ok created =>
    cases op with
    | importConfig text name =>
      have hsame : vm'.app.lastBatchImport = vm.app.lastBatchImport := h.resolve_left (by simp [returnsImport])
      unfold promises
      rw [hsame]
    | _ => rfl
  | _ => rfl

theorem filterMap_toList {α : Type} {o : Option α} {f : α → Segment} (h : ∀ a, shownRows (f a) = none) :
    (o.toList.map f).filterMap shownRows = [] := by
  cases o with
  | none => rfl
  | some a =>
    show [f a].filterMap shownRows = []
    rw [List.filterMap_cons_none (h a), List.filterMap_nil]

/-- What the user does. -/
theorem quiet_act {e : Event} {result : MainViewModel × List Segment} (hact : vm.act pf lower e = some result) :
    Quiet pf vm result.1 result.2 ∧ result.1.app.lastBatchImport = vm.app.lastBatchImport := by
  have hsame : ∀ {vm' : MainViewModel} {next : List Segment}, vm'.view.allProfiles = vm.view.allProfiles →
      vm'.app = vm.app → next.filterMap shownRows = [] →
      Quiet pf vm vm' next ∧ vm'.app.lastBatchImport = vm.app.lastBatchImport := fun hview happ hshown =>
    ⟨⟨hview, hshown, .inl (by rw [happ])⟩, by rw [happ]⟩
  unfold act at hact
  cases e with
  | restart => cases hact
  | advance i env => cases hact
  | setGroupFilter id =>
    obtain ⟨-, rfl⟩ := some_of_ite hact
    exact hsame (allProfiles_setGroupFilter _ _) rfl rfl
  | toggleFavourite u =>
    obtain ⟨-, rfl⟩ := some_of_ite hact
    exact ⟨⟨rfl, rfl, .inr ⟨.load, List.mem_singleton_self _, rfl⟩⟩, rfl⟩
  | toggleSelected u =>
    obtain ⟨-, rfl⟩ := some_of_ite hact
    exact hsame rfl rfl rfl
  | toggle u stops permitted =>
    obtain rfl := Option.some.inj hact
    split
    · exact hsame rfl rfl rfl
    · split <;> exact hsame rfl rfl rfl
  | permissionResult granted =>
    obtain rfl := Option.some.inj hact
    refine hsame rfl rfl ?_
    dsimp only
    split
    · exact filterMap_toList fun _ => rfl
    · rfl
  | submitCredentials c remember =>
    obtain ⟨p, -, rfl⟩ := Option.map_eq_some_iff.1 hact
    exact ⟨⟨rfl, rfl, .inl (AppState.rows_congr rfl rfl rfl)⟩, rfl⟩
  | testLatency u active =>
    obtain rfl := Option.some.inj hact
    split <;> exact hsame rfl rfl rfl
  | testAllLatency active =>
    obtain rfl := Option.some.inj hact
    split <;> exact hsame rfl rfl rfl
  | probeXray u active =>
    obtain rfl := Option.some.inj hact
    split <;> exact hsame rfl rfl rfl
  | testDownloadSpeed u active =>
    obtain rfl := Option.some.inj hact
    split <;> exact hsame rfl rfl rfl
  | importFromText text =>
    obtain rfl := Option.some.inj hact
    refine hsame rfl rfl ?_
    dsimp only
    split <;> rfl
  | importFromUri archive text name =>
    obtain rfl := Option.some.inj hact
    refine hsame rfl rfl ?_
    cases archive with
    | some archive => rfl
    | none => exact filterMap_toList fun _ => rfl
  | deleteAll us =>
    dsimp only at hact
    split at hact
    · cases hact
    · obtain rfl := Option.some.inj hact
      obtain ⟨hrows, hbatch⟩ := @AppState.rows_clearSelections pf us vm.app
      exact ⟨⟨rfl, rfl, .inl hrows⟩, hbatch⟩
  | rename u name =>
    obtain ⟨-, rfl⟩ := some_of_ite hact
    exact hsame rfl rfl rfl
  | openSettings u =>
    obtain ⟨-, rfl⟩ := some_of_ite hact
    exact hsame rfl rfl rfl
  | saveSettings name username =>
    obtain ⟨u, -, rfl⟩ := Option.map_eq_some_iff.1 hact
    exact hsame rfl rfl rfl
  | saveWireGuardSettings rawConfig name =>
    obtain ⟨u, -, rfl⟩ := Option.map_eq_some_iff.1 hact
    exact hsame rfl rfl rfl
  | saveXraySettings link name =>
    obtain ⟨u, -, rfl⟩ := Option.map_eq_some_iff.1 hact
    exact hsame rfl rfl rfl
  | saveIkev2Settings updated =>
    obtain ⟨-, rfl⟩ := some_of_ite hact
    exact hsame rfl rfl rfl
  | refreshSubscription id =>
    obtain ⟨-, rfl⟩ := some_of_ite hact
    exact hsame rfl rfl (filterMap_toList fun _ => rfl)
  | removeSubscription id =>
    obtain ⟨-, rfl⟩ := some_of_ite hact
    exact hsame rfl rfl rfl
  | _ =>
    obtain rfl := Option.some.inj hact
    exact hsame rfl rfl rfl

/-- What an archive that is imported leaves. -/
theorem quiet_importZip (h : vm.app.Kept pf) {archive : List ZipEntry} (hbatch : VpnEngine.NoBatch pf archive) :
    (vm.app.perform pf (.importZip archive)).1.rows pf = vm.app.rows pf ∨
      (vm.app.perform pf (.importZip archive)).2 = true := by
  have hperform : vm.app.perform pf (.importZip archive)
      = ((VpnEngine.importZip pf vm.app archive).1, decide (0 < (VpnEngine.importZip pf vm.app archive).2.1)) := rfl
  rw [hperform]
  refine AppState.rows_or_true fun hnone => ?_
  rw [decide_eq_false_iff_not, Nat.not_lt, Nat.le_zero] at hnone
  exact VpnEngine.rows_importZip h.fresh hbatch hnone

theorem view_app_returned (vm : MainViewModel) (op : Operation) (ok : Bool) (created : Option Uuid) :
    (vm.returned op ok created).1.app = vm.app ∧ (vm.returned op ok created).2.filterMap shownRows = [] ∧
      (op.reloads ok vm.app.lastBatchImport = true → .load ∈ (vm.returned op ok created).2) := by
  have hnil : ∀ {b : Bool} {ts : List Segment}, ts.filterMap shownRows = [] →
      (if b = true then ts else []).filterMap shownRows = [] := by
    intro b ts hts
    split
    · exact hts
    · rfl
  have hopens : (Segment.load :: created.toList.map .openSettings).filterMap shownRows = [] :=
    filterMap_toList fun _ => rfl
  have hloads : ∀ {b : Bool} {ts : List Segment}, b = true → .load ∈ ts → .load ∈ if b = true then ts else [] := by
    intro b ts hb hts
    rw [if_pos hb]
    exact hts
  unfold MainViewModel.returned Operation.reloads
  cases op with
  | importConfig text name => exact ⟨rfl, hnil rfl, fun h => hloads h (List.mem_singleton_self _)⟩
  | renameProfile u name => exact ⟨rfl, rfl, fun _ => List.mem_singleton_self _⟩
  | saveProfileSettings u name username => exact ⟨rfl, hnil rfl, fun h => hloads h (List.mem_singleton_self _)⟩
  | saveWireGuardSettings u rawConfig name =>
    cases ok with
    | true => exact ⟨rfl, rfl, fun _ => List.mem_singleton_self _⟩
    | false => exact ⟨rfl, rfl, fun h => absurd h Bool.false_ne_true⟩
  | saveXraySettings u link name =>
    cases ok with
    | true => exact ⟨rfl, rfl, fun _ => List.mem_singleton_self _⟩
    | false => exact ⟨rfl, rfl, fun h => absurd h Bool.false_ne_true⟩
  | saveIkev2Settings p => exact ⟨rfl, rfl, fun _ => List.mem_singleton_self _⟩
  | createXrayProfile kind => exact ⟨rfl, hnil hopens, fun h => hloads h List.mem_cons_self⟩
  | createIkev2Profile name => exact ⟨rfl, hnil hopens, fun h => hloads h List.mem_cons_self⟩
  | createWarpProfile text => exact ⟨rfl, hnil rfl, fun h => hloads h (List.mem_singleton_self _)⟩
  | _ => exact ⟨rfl, rfl, fun h => absurd h Bool.false_ne_true⟩

/-- **A segment that neither loads nor shows.** -/
theorem quiet_runSegment (h : Sane pf vm) (env : Env) {t : Segment} (hdue : due t = false)
    (hcalls : ∀ op, t = .call op → op.called = true)
    (hbatch : ∀ archive text name, t = .importZip archive text name → VpnEngine.NoBatch pf archive) :
    Quiet pf vm (vm.runSegment pf lower hostOf newId env t).1 (vm.runSegment pf lower hostOf newId env t).2 := by
  unfold runSegment
  cases t with
  | load => cases hdue
  | «show» rows => cases hdue
  | call op =>
    refine ⟨rfl, rfl, (AppState.rows_perform vm.app (hcalls op rfl)).imp_right fun hreloads => ?_⟩
    exact ⟨_, List.mem_singleton_self _, hreloads⟩
  | returned op ok created =>
    obtain ⟨happ, hshown, -⟩ := view_app_returned vm op ok created
    exact ⟨by rw [(view_returned vm op ok created).1], hshown, .inl (by rw [happ])⟩
  | importZip archive text name =>
    refine ⟨rfl, rfl, (quiet_importZip h.app (hbatch archive text name rfl)).imp_right fun hany => ?_⟩
    exact ⟨_, List.mem_singleton_self _, hany⟩
  | imported any archive text name =>
    cases any with
    | true => exact ⟨rfl, rfl, .inl rfl⟩
    | false => exact ⟨rfl, filterMap_toList fun _ => rfl, .inl rfl⟩
  | manifest archive =>
    dsimp only
    split
    · exact ⟨rfl, rfl, .inr ⟨.load, List.mem_singleton_self _, rfl⟩⟩
    · exact ⟨rfl, rfl, .inl rfl⟩
  | delete rest =>
    cases rest with
    | nil => exact ⟨rfl, rfl, .inl rfl⟩
    | cons u rest => exact ⟨rfl, rfl, .inr ⟨.delete rest, List.mem_singleton_self _, rfl⟩⟩
  | addSubscription name url =>
    dsimp only
    split <;> exact ⟨rfl, rfl, .inl rfl⟩
  | added id =>
    cases id with
    | none => exact ⟨rfl, rfl, .inl rfl⟩
    | some id => exact ⟨rfl, filterMap_toList fun _ => rfl, .inl rfl⟩
  | fetch sub => exact ⟨rfl, rfl, .inr ⟨.fetched, List.mem_singleton_self _, rfl⟩⟩
  | removeSubscription id => exact ⟨rfl, rfl, .inr ⟨.removed id, List.mem_singleton_self _, rfl⟩⟩
  | checked u username =>
    cases username with
    | some name => exact ⟨rfl, rfl, .inl rfl⟩
    | none =>
      dsimp only
      cases vm.shown u with
      | none => exact ⟨rfl, rfl, .inl rfl⟩
      | some r => exact ⟨rfl, rfl, .inl (AppState.rows_congr rfl rfl rfl)⟩
  | test rest =>
    cases rest with
    | nil => exact ⟨rfl, rfl, .inl rfl⟩
    | cons u rest =>
      refine ⟨rfl, ?_, .inl rfl⟩
      dsimp only
      split <;> rfl
  | _ => exact ⟨rfl, rfl, .inl rfl⟩

/-- A segment that imports nothing counts no batch. -/
theorem lastBatchImport_runSegment (env : Env) {t : Segment} (himports : imports t = false)
    (hcalls : ∀ op, t = .call op → op.called = true) :
    (vm.runSegment pf lower hostOf newId env t).1.app.lastBatchImport = vm.app.lastBatchImport := by
  unfold runSegment
  cases t with
  | call op =>
    refine AppState.lastBatchImport_perform vm.app (hcalls op rfl) fun text name he => ?_
    rw [he] at himports
    cases himports
  | returned op ok created => rw [(view_app_returned vm op ok created).1]
  | importZip archive text name => cases himports
  | imported any archive text name => cases any <;> rfl
  | manifest archive =>
    dsimp only
    split
    · exact AppState.lastBatchImport_applyManifest _ _ _
    · rfl
  | delete rest =>
    cases rest with
    | nil => rfl
    | cons u rest => exact AppState.lastBatchImport_deleteProfile vm.app u
  | addSubscription name url =>
    dsimp only
    split <;> rfl
  | added id => cases id <;> rfl
  | checked u username =>
    cases username with
    | some name => rfl
    | none =>
      dsimp only
      cases vm.shown u <;> rfl
  | test rest => cases rest <;> rfl
  | _ => rfl

/-- **A promise is kept, or handed on.** -/
theorem promised_runSegment (env : Env) {t : Segment} (h : vm.promises t = true) : t = .load ∨
    ∃ t' ∈ (vm.runSegment pf lower hostOf newId env t).2,
      (vm.runSegment pf lower hostOf newId env t).1.promises t' = true := by
  unfold runSegment
  cases t with
  | load => exact .inl rfl
  | fetched => exact .inr ⟨.load, List.mem_singleton_self _, rfl⟩
  | removed id => exact .inr ⟨.load, List.mem_singleton_self _, rfl⟩
  | delete rest =>
    cases rest with
    | nil => exact .inr ⟨.load, List.mem_singleton_self _, rfl⟩
    | cons u rest => exact .inr ⟨.delete rest, List.mem_singleton_self _, rfl⟩
  | imported any archive text name =>
    cases any with
    | true => exact .inr ⟨.load, List.mem_cons_self, rfl⟩
    | false => cases h
  | returned op ok created => exact .inr ⟨.load, (view_app_returned vm op ok created).2.2 h, rfl⟩
  | _ => cases h

/-! ## 4. The invariant is kept -/

theorem called_of_offers {op : Operation} (h : vm.Offers op) : op.called = true := by
  cases op with
  | importConfig _ _ => rfl
  | renameProfile _ _ => rfl
  | setCredentials _ _ _ => rfl
  | saveProfileSettings _ _ _ => rfl
  | saveXraySettings _ _ _ => rfl
  | saveWireGuardSettings _ _ _ => rfl
  | saveIkev2Settings _ => rfl
  | createXrayProfile _ => rfl
  | createWarpProfile _ => rfl
  | createIkev2Profile _ => rfl
  | _ => exact absurd h id

theorem filterMap_around {l : List Segment} {i : Nat} {t : Segment} (hi : l[i]? = some t) :
    l.filterMap shownRows
        = (l.take i).filterMap shownRows ++ (shownRows t).toList ++ (l.drop (i + 1)).filterMap shownRows ∧
      (l.eraseIdx i).filterMap shownRows
        = (l.take i).filterMap shownRows ++ (l.drop (i + 1)).filterMap shownRows := by
  obtain ⟨hlt, rfl⟩ := List.getElem?_eq_some_iff.1 hi
  constructor
  · conv_lhs => rw [← List.take_append_drop i l, List.drop_eq_getElem_cons hlt]
    rw [List.filterMap_append, List.filterMap_cons, List.append_assoc]
    cases shownRows l[i] <;> rfl
  · rw [List.eraseIdx_eq_take_drop_succ, List.filterMap_append]

/-- What was loaded last stays so, where nothing is loaded and no list is shown. -/
theorem latest_quiet {next rest : List Segment} (h : Quiet pf vm vm' next)
    (hrest : rest.filterMap shownRows = vm.segments.filterMap shownRows) :
    ({ vm' with segments := rest ++ next } : MainViewModel).latest = vm.latest := by
  unfold latest
  dsimp only
  rw [List.filterMap_append, h.shown, List.append_nil, hrest, h.view]

/-- What a quiet step leaves of the invariant; `rest` are the segments that it leaves to run. -/
theorem UpToDate.loaded_quiet (h : UpToDate pf vm) {next rest : List Segment} (hquiet : Quiet pf vm vm' next)
    (hrest : rest.filterMap shownRows = vm.segments.filterMap shownRows)
    (hpromise : ∀ t ∈ vm.segments, vm.promises t = true →
      t ∈ rest ∧ vm'.promises t = true ∨ ∃ t' ∈ next, vm'.promises t' = true) :
    ({ vm' with segments := rest ++ next } : MainViewModel).latest = vm'.app.rows pf ∨
      ∃ t ∈ rest ++ next, vm'.promises t = true := by
  have hnext : (∃ t ∈ next, vm'.promises t = true) → ∃ t ∈ rest ++ next, vm'.promises t = true := by
    rintro ⟨t, ht, hp⟩
    exact ⟨t, List.mem_append_right _ ht, hp⟩
  rcases h.loaded with hlatest | ⟨t, ht, hp⟩
  · rcases hquiet.stored with hsame | hpromised
    · exact .inl ((latest_quiet hquiet hrest).trans (hlatest.trans hsame.symm))
    · exact .inr (hnext hpromised)
  · rcases hpromise t ht hp with ⟨hm, hp'⟩ | hpromised
    · exact .inr ⟨t, List.mem_append_left _ hm, hp'⟩
    · exact .inr (hnext hpromised)

/-- **The step lemma.** -/
theorem UpToDate.stepped (h : UpToDate pf vm) (hsane : Sane pf vm) {e : Event} (horderly : vm.Orderly pf e)
    (hstep : vm.step pf lower hostOf newId e = some vm') : UpToDate pf vm' := by
  have hcalls : ∀ op, .call op ∈ vm'.segments → op.called = true := by
    obtain ⟨next, hturn, hsegments⟩ := step_goes hsane hstep
    intro op hop
    exact (hsegments _ hop).elim (h.calls op) fun hnext => called_of_offers (hturn.next _ hnext)
  rcases step_cases hstep with ⟨rfl, rfl⟩ | ⟨i, env, t, rfl, ht, rfl⟩ | ⟨result, hact, rfl⟩
  · exact ⟨hcalls, .inr ⟨.load, List.mem_singleton_self _, rfl⟩⟩
  · obtain ⟨hshown, hone, hbatch⟩ := horderly
    refine ⟨hcalls, ?_⟩
    obtain ⟨hall, herased⟩ := filterMap_around ht
    by_cases hdue : due t = true
    · cases t with
      | load =>
        refine .inl ?_
        unfold latest
        dsimp only
        rw [List.filterMap_append]
        exact congrArg (Option.getD · _) List.getLast?_concat
      | «show» rows =>
        have hnone := hshown rows ht
        rw [hnone, List.nil_append] at hall herased
        have hsegments : ((vm.segments.eraseIdx i ++ []).filterMap shownRows)
            = (vm.segments.drop (i + 1)).filterMap shownRows := by rw [List.append_nil, herased]
        rcases h.loaded with hlatest | ⟨t', ht', hp⟩
        · refine .inl (Eq.trans ?_ hlatest)
          unfold latest
          show ((vm.segments.eraseIdx i ++ []).filterMap shownRows).getLast?.getD rows = _
          rw [hsegments, hall]
          show _ = (rows :: (vm.segments.drop (i + 1)).filterMap shownRows).getLast?.getD vm.view.allProfiles
          cases (vm.segments.drop (i + 1)).filterMap shownRows with
          | nil => rfl
          | cons r rs => rw [List.getLast?_cons_cons, List.getLast?_eq_some_getLast (List.cons_ne_nil r rs)]; rfl
        · refine .inr ⟨t', List.mem_append_left _ (mem_eraseIdx_of_ne ht ht' ?_), hp⟩
          rintro rfl
          cases hp
      | _ => cases hdue
    · have hquiet := @quiet_runSegment pf lower hostOf newId vm hsane env t
        (Bool.not_eq_true _ ▸ hdue) (fun op he => h.calls op (he ▸ List.mem_of_getElem? ht))
        fun archive text name he => hbatch archive text name (he ▸ ht)
      have hnone : shownRows t = none := by
        cases t with
        | «show» rows => exact absurd rfl hdue
        | _ => rfl
      rw [hnone, Option.toList_none, List.append_nil] at hall
      refine h.loaded_quiet hquiet (herased.trans hall.symm) fun t' ht' hp => ?_
      by_cases he : t' = t
      · refine .inr ((promised_runSegment env (he ▸ hp)).resolve_left ?_)
        rintro rfl
        exact hdue rfl
      · refine .inl ⟨mem_eraseIdx_of_ne ht ht' he, ?_⟩
        rw [@promises_congr vm]
        · exact hp
        · by_cases himports : imports t = true
          · exact .inl (hone t ht himports t' ht')
          · exact .inr (lastBatchImport_runSegment env (Bool.not_eq_true _ ▸ himports)
              fun op he => h.calls op (he ▸ List.mem_of_getElem? ht))
  · obtain ⟨hquiet, hsame⟩ := quiet_act hact
    refine ⟨hcalls, h.loaded_quiet hquiet rfl fun t ht hp => .inl ⟨ht, ?_⟩⟩
    rw [@promises_congr vm _ _ (.inr hsame)]
    exact hp

/-! ## 5. Every run -/

/-- At first a load is to run. -/
theorem upToDate_start : UpToDate pf start :=
  ⟨fun _ hop => Segment.noConfusion (List.mem_singleton.1 hop), .inr ⟨.load, List.mem_singleton_self _, rfl⟩⟩

/-- **The list is that of the stores**: in every run in which imports do not overlap and what is loaded
    first is shown first, once no segment is to run the rows are those that a load would give. -/
theorem list_up_to_date (hnew : ∀ p q m n, pf.newUuid p m = pf.newUuid q n → p = q ∧ m = n) {events : List Event}
    (hrun : exec (step pf lower hostOf newId) start events = some vm)
    (horderly : Along (step pf lower hostOf newId) (Orderly pf) start events) (hrest : vm.segments = []) :
    vm.view.allProfiles = vm.app.rows pf := by
  have hinv : Sane pf vm ∧ UpToDate pf vm := by
    refine exec_inv (I := fun v => Sane pf v ∧ UpToDate pf v) ?_ ⟨sane_start hnew, upToDate_start⟩ horderly hrun
    intro v e v' hv horder hstep
    exact ⟨hv.1.stepped hstep, hv.2.stepped hv.1 horder hstep⟩
  have hshown : vm.latest = vm.view.allProfiles := by
    unfold latest
    rw [hrest]
    rfl
  refine hshown.symm.trans (hinv.2.loaded.resolve_right ?_)
  rintro ⟨t, ht, -⟩
  rw [hrest] at ht
  cases ht

/-- A profile that is made, up to the list that shows it and the editor that is opened on it. -/
def sampleRest : List Event :=
  .createIkev2Profile "VPN" :: [1, 0, 0, 0, 1, 0, 0, 0, 0].map fun i => .advance i {}

/-- A step that imports nothing and shows nothing out of order. -/
def calm (vm : MainViewModel) : Event → Bool
  | .advance i _ => ((vm.segments.take i).filterMap shownRows).isEmpty && !(vm.segments[i]?).any imports
  | _ => true

theorem orderly_of_calm {e : Event} (h : vm.calm e = true) : Orderly pf vm e := by
  cases e with
  | advance i env =>
    obtain ⟨hshown, himports⟩ := (Bool.and_eq_true _ _).mp h
    rw [Bool.not_eq_true', ← Bool.not_eq_true, Option.any_eq_true] at himports
    refine ⟨fun _ _ => List.isEmpty_iff.1 hshown, fun t ht hi => absurd ⟨t, ht, hi⟩ himports, ?_⟩
    exact fun archive text name ht => absurd ⟨_, ht, rfl⟩ himports
  | _ => trivial

theorem list_up_to_date_created : ∃ vm, exec sampleStep start sampleRest = some vm ∧
    vm.view.allProfiles = vm.app.rows VpnEngine.samplePlatform ∧ vm.view.allProfiles.length = 1 := by
  obtain ⟨vm, hrun, hrest, hone⟩ : ∃ vm, exec sampleStep start sampleRest = some vm ∧ vm.segments = [] ∧
      vm.view.allProfiles.length = 1 := ⟨_, rfl, rfl, rfl⟩
  have hcalm : Along sampleStep (fun vm e => vm.calm e = true) start sampleRest := by decide
  have horderly : Along sampleStep (Orderly VpnEngine.samplePlatform) start sampleRest :=
    along_mono hcalm fun _ _ h => orderly_of_calm h
  exact ⟨vm, hrun, list_up_to_date BackupManager.samplePlatform_injective hrun horderly hrest, hone⟩

end Loads

end MainViewModel

end SwiftVpn
