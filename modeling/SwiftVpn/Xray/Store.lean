/-
  File:      SwiftVpn/Xray/Store.lean
  Subject:   XRAY PROFILES AND SUBSCRIPTIONS ON DISK: XrayStore.kt and XraySubscription.kt.

  A profile is a file, `<uuid>.link` or `<uuid>.json`, and two preferences under its uuid: its name and
  the subscription that owns it. `UUID.randomUUID()` is the parameter `newUuid`, the sequence of the
  uuids it gives; the store counts the ones drawn. Files are written and read without failure.

  * `XrayStore.importLink`, `importBatch`, `deleteBySubscription` -- what a refresh is made of, each
    with one lemma that says what it leaves (`deleteBySubscription_eq`, `importBatch_spec`);
  * `XraySubscriptionStore.refresh` -- fetch, delete, import, and the entry in the list;
  * `refresh_all_or_nothing_iff` -- a refresh leaves everything as it was or replaces the servers,
    exactly where the body has no link at all or one of its links parses.
-/
import Mathlib.Data.List.Nodup
import SwiftVpn.Xray.Links
import SwiftVpn.Xray.Config

namespace SwiftVpn

/-! ## 1. Profiles -/

/-- A file of a profile; its extension is `json` or `link`. -/
structure XrayFile where
  uuid : Uuid
  json : Bool
  text : String
  deriving DecidableEq, Repr

/-- The directory and the preferences. -/
structure XrayStore where
  files : List XrayFile
  names : Uuid → Option String
  subs : Uuid → Option String
  drawn : Nat

/-- A preference, set or removed. -/
def setPref (prefs : Uuid → Option String) (uuid : Uuid) (value : Option String) :
    Uuid → Option String :=
  fun u => if u = uuid then value else prefs u

/-- `"$wanted ($i)"`, from 2 on. -/
def numbered (wanted : String) (i : Nat) : String := wanted ++ " (" ++ toString (i + 2) ++ ")"

/-- `uniqueAgainst`: the first number that is free; among as many as there are names and one more
    there is one. -/
def uniqueAgainst (wanted : String) (taken : List String) : String :=
  if wanted ∉ taken then wanted
  else (((List.range (taken.length + 1)).map (numbered wanted)).find? (· ∉ taken)).getD wanted

namespace XrayStore

/-- The display name of a profile. -/
def name (s : XrayStore) (uuid : Uuid) : String :=
  (s.names uuid).getD (String.ofList (uuid.toList.take 8))

/-- The names of `profiles()`: of the files whose text is a custom config or a link that parses. -/
def profileNames (doubles : Doubles) (s : XrayStore) : List String :=
  (s.files.filter fun f =>
    XrayConfig.isCustomJson f.text || (XrayShareLink.parse doubles f.text).isSome).map
    fun f => s.name f.uuid

/-- A new file with its preferences. -/
def addFile (s : XrayStore) (f : XrayFile) (name : String) (subscriptionId : Option String) :
    XrayStore where
  files := s.files ++ [f]
  names := setPref s.names f.uuid (some name)
  subs := if subscriptionId.isSome then setPref s.subs f.uuid subscriptionId else s.subs
  drawn := s.drawn + 1

/-- `import`: the store with the new profile, and its name. The names in use are those of the batch,
    or are looked up. -/
def importLink (newUuid : Nat → Uuid) (doubles : Doubles) (s : XrayStore)
    (link preferredName : String) (subscriptionId : Option String)
    (takenNames : Option (List String)) : Option (XrayStore × String) := do
  let trimmed := trim link
  let parsed ← XrayShareLink.parse doubles trimmed
  let wanted := ifBlank parsed.name (ifBlank preferredName "xray")
  let name := uniqueAgainst wanted (takenNames.getD (s.profileNames doubles))
  return (s.addFile ⟨newUuid s.drawn, false, trimmed⟩ name subscriptionId, name)

/-- One link of a batch: the store, the names in use and the number of links accepted. -/
def importNext (newUuid : Nat → Uuid) (doubles : Doubles) (subscriptionId : Option String)
    (acc : XrayStore × List String × Nat) (link : String) : XrayStore × List String × Nat :=
  match acc.1.importLink newUuid doubles link "" subscriptionId (some acc.2.1) with
  | some (s, name) => (s, name :: acc.2.1, acc.2.2 + 1)
  | none => acc

/-- `importBatch`. -/
def importBatch (newUuid : Nat → Uuid) (doubles : Doubles) (s : XrayStore) (links : List String)
    (subscriptionId : Option String) : XrayStore × Nat :=
  let acc := links.foldl (importNext newUuid doubles subscriptionId) (s, s.profileNames doubles, 0)
  (acc.1, acc.2.2)

/-- `importMany`. -/
def importMany (newUuid : Nat → Uuid) (doubles : Doubles) (s : XrayStore) (text : String)
    (subscriptionId : Option String) : XrayStore × Nat :=
  s.importBatch newUuid doubles
    (((lineSequence text).map trim).filter fun l =>
      !l.isEmpty && XrayShareLink.looksLikeShareLink l) subscriptionId

/-- `importCustomJson`: a custom config as a new profile. -/
def importCustomJson (newUuid : Nat → Uuid) (doubles : Doubles) (s : XrayStore)
    (jsonText preferredName : String) (subscriptionId : Option String) :
    Option (XrayStore × String) :=
  let trimmed := trim jsonText
  if !XrayConfig.isValidCustomJson doubles trimmed then none else
  let name := uniqueAgainst (ifBlank preferredName "custom") (s.profileNames doubles)
  some (s.addFile ⟨newUuid s.drawn, true, trimmed⟩ name subscriptionId, name)

/-- `rename`; a blank name is ignored. -/
def rename (s : XrayStore) (uuid : Uuid) (newName : String) : XrayStore :=
  if isBlank newName then s else { s with names := setPref s.names uuid (some newName) }

/-- `delete`. -/
def delete (s : XrayStore) (uuid : Uuid) : XrayStore where
  files := s.files.filter (·.uuid ≠ uuid)
  names := setPref s.names uuid none
  subs := setPref s.subs uuid none
  drawn := s.drawn

/-- One file of `deleteBySubscription`: the profile in use is kept, but is not owned any more. -/
def sweepFile (id : String) (keepUuid : Option Uuid) (s : XrayStore) (f : XrayFile) : XrayStore :=
  if s.subs f.uuid ≠ some id then s
  else if some f.uuid = keepUuid then { s with subs := setPref s.subs f.uuid none }
  else s.delete f.uuid

/-- `deleteBySubscription`, over the files as they were listed. -/
def deleteBySubscription (s : XrayStore) (id : String) (keepUuid : Option Uuid) : XrayStore :=
  s.files.foldl (sweepFile id keepUuid) s

end XrayStore

/-! ## 2. Subscriptions -/

/-- A saved subscription. -/
structure Subscription where
  id : String
  name : String
  url : String
  lastUpdated : Int := 0
  profileCount : Int := 0
  deriving DecidableEq, Repr

/-- Outcome of a refresh. -/
structure RefreshResult where
  imported : Nat := 0
  error : Option String := none
  deriving DecidableEq, Repr

/-- What a refresh works on: the profiles and the list of subscriptions. -/
structure SubscriptionState where
  store : XrayStore
  subs : List Subscription

namespace XraySubscriptionStore

/-- The entry of a subscription after a refresh. -/
def counted (id : String) (now imported : Int) (list : List Subscription) : List Subscription :=
  list.map fun s => if s.id = id then { s with lastUpdated := now, profileCount := imported } else s

/-- The profiles of a subscription, replaced by those of the links. -/
def replaceProfiles (newUuid : Nat → Uuid) (doubles : Doubles) (store : XrayStore) (id : String)
    (activeUuid : Option Uuid) (links : List String) : XrayStore × Nat :=
  (store.deleteBySubscription id activeUuid).importBatch newUuid doubles links (some id)

/-- `refresh`, with the body that was fetched, if any. -/
def refresh (newUuid : Nat → Uuid) (doubles : Doubles) (s : SubscriptionState) (sub : Subscription)
    (activeUuid : Option Uuid) (now : Int) (fetched : Option String) :
    SubscriptionState × RefreshResult :=
  match fetched with
  | none => (s, { error := some "Could not reach the subscription URL" })
  | some body =>
    let links := parseLinks body
    if links.isEmpty then (s, { error := some "The subscription returned no usable servers" }) else
    let (store, imported) := replaceProfiles newUuid doubles s.store sub.id activeUuid links
    (⟨store, counted sub.id now imported s.subs⟩, { imported := imported })

end XraySubscriptionStore

/-! ## 3. What a deletion leaves -/

namespace XrayStore

/-- The uuids of the files. -/
def uuids (s : XrayStore) : List Uuid := s.files.map (·.uuid)

/-- What is done for one file. -/
theorem sweepFile_cases (id : String) (keep : Option Uuid) (s : XrayStore) (f : XrayFile) :
    (s.subs f.uuid ≠ some id ∧ sweepFile id keep s f = s) ∨
    (s.subs f.uuid = some id ∧ some f.uuid = keep ∧
      sweepFile id keep s f = { s with subs := setPref s.subs f.uuid none }) ∨
    (s.subs f.uuid = some id ∧ some f.uuid ≠ keep ∧ sweepFile id keep s f = s.delete f.uuid) := by
  unfold sweepFile
  by_cases ho : s.subs f.uuid = some id
  · by_cases hk : some f.uuid = keep
    · exact .inr (.inl ⟨ho, hk, by simp [ho, hk]⟩)
    · exact .inr (.inr ⟨ho, hk, by simp [ho, hk]⟩)
  · exact .inl ⟨ho, if_pos ho⟩

theorem foldl_sweepFile (id : String) (keep : Option Uuid) (fs : List XrayFile) (s : XrayStore) :
    (∀ u, (fs.foldl (sweepFile id keep) s).subs u
      = if u ∈ fs.map (·.uuid) ∧ s.subs u = some id then none else s.subs u) ∧
    (∀ u, (fs.foldl (sweepFile id keep) s).names u
      = if u ∈ fs.map (·.uuid) ∧ s.subs u = some id ∧ some u ≠ keep then none else s.names u) ∧
    (∀ g, g ∈ (fs.foldl (sweepFile id keep) s).files
      ↔ g ∈ s.files ∧ ¬ (g.uuid ∈ fs.map (·.uuid) ∧ s.subs g.uuid = some id ∧ some g.uuid ≠ keep)) ∧
    (fs.foldl (sweepFile id keep) s).drawn = s.drawn := by
  induction fs generalizing s with
  | nil => simp
  | cons f fs ih =>
    obtain ⟨hsubs, hnames, hfiles, hdrawn⟩ := ih (sweepFile id keep s f)
    simp only [List.foldl_cons, hsubs, hnames, hfiles, hdrawn, List.map_cons, List.mem_cons]
    clear ih hsubs hnames hfiles hdrawn
    rcases sweepFile_cases id keep s f with ⟨ho, he⟩ | ⟨ho, hk, he⟩ | ⟨ho, hk, he⟩
    · rw [he]
      refine ⟨fun u => ?_, fun u => ?_, fun g => ?_, rfl⟩
      · by_cases hu : u = f.uuid <;> simp [hu, ho]
      · by_cases hu : u = f.uuid <;> simp [hu, ho]
      · by_cases hu : g.uuid = f.uuid <;> simp [hu, ho]
    · rw [he]
      refine ⟨fun u => ?_, fun u => ?_, fun g => ?_, rfl⟩
      · by_cases hu : u = f.uuid <;> simp [setPref, hu, ho]
      · by_cases hu : u = f.uuid <;> simp [setPref, hu, ho, hk]
      · by_cases hu : g.uuid = f.uuid <;> simp [setPref, hu, ho, hk]
    · rw [he]
      refine ⟨fun u => ?_, fun u => ?_, fun g => ?_, rfl⟩
      · by_cases hu : u = f.uuid <;> simp [delete, setPref, hu, ho]
      · by_cases hu : u = f.uuid <;> simp [delete, setPref, hu, ho, hk]
      · by_cases hu : g.uuid = f.uuid <;> simp [delete, setPref, hu, ho, hk]

/-- **What `deleteBySubscription` leaves**: the files that are not owned, and the one in use, which is
    not owned any more. -/
theorem deleteBySubscription_spec (s : XrayStore) (id : String) (keep : Option Uuid) :
    (∀ u, (s.deleteBySubscription id keep).subs u
      = if u ∈ s.uuids ∧ s.subs u = some id then none else s.subs u) ∧
    (∀ u, (s.deleteBySubscription id keep).names u
      = if u ∈ s.uuids ∧ s.subs u = some id ∧ some u ≠ keep then none else s.names u) ∧
    (∀ g, g ∈ (s.deleteBySubscription id keep).files
      ↔ g ∈ s.files ∧ (s.subs g.uuid = some id → some g.uuid = keep)) ∧
    (s.deleteBySubscription id keep).drawn = s.drawn := by
  obtain ⟨hsubs, hnames, hfiles, hdrawn⟩ := foldl_sweepFile id keep s.files s
  refine ⟨hsubs, hnames, fun g => ?_, hdrawn⟩
  unfold deleteBySubscription
  rw [hfiles]
  refine and_congr_right fun hg => ?_
  have hmem : g.uuid ∈ s.files.map (·.uuid) := List.mem_map_of_mem hg
  simp [hmem]

/-! ## 4. What an import adds -/

/-- A link that a profile can be made of. -/
def importable (doubles : Doubles) (link : String) : Bool :=
  (XrayShareLink.parse doubles (trim link)).isSome

/-- The store `s'` is `s` with the files `new`, owned by the subscription `id`. -/
structure Imported (newUuid : Nat → Uuid) (id : String) (s s' : XrayStore) (new : List XrayFile) :
    Prop where
  files : s'.files = s.files ++ new
  uuids : new.map (·.uuid) = (List.range' s.drawn new.length).map newUuid
  drawn : s'.drawn = s.drawn + new.length
  names : ∀ u ∉ new.map (·.uuid), s'.names u = s.names u
  subs : ∀ u, s'.subs u = if u ∈ new.map (·.uuid) then some id else s.subs u

theorem Imported.refl (newUuid : Nat → Uuid) (id : String) (s : XrayStore) : Imported newUuid id s s [] :=
  ⟨by simp, rfl, rfl, fun _ _ => rfl, by simp⟩

theorem Imported.trans {newUuid : Nat → Uuid} {id : String} {s s' s'' : XrayStore}
    {new new' : List XrayFile} (h : Imported newUuid id s s' new) (h' : Imported newUuid id s' s'' new') :
    Imported newUuid id s s'' (new ++ new') where
  files := by rw [h'.files, h.files, List.append_assoc]
  uuids := by
    rw [List.map_append, h.uuids, h'.uuids, h.drawn, List.length_append, ← List.map_append,
      List.range'_append_1]
  drawn := by rw [h'.drawn, h.drawn, List.length_append, Nat.add_assoc]
  names u hu := by
    rw [List.map_append, List.mem_append, not_or] at hu
    rw [h'.names u hu.2, h.names u hu.1]
  subs u := by
    rw [h'.subs, h.subs]
    by_cases h1 : u ∈ new'.map (·.uuid)
    · simp [h1]
    · by_cases h2 : u ∈ new.map (·.uuid) <;> simp [h1, h2]

theorem importLink_of_none {newUuid : Nat → Uuid} {doubles : Doubles} {s : XrayStore}
    {link : String} (h : XrayShareLink.parse doubles (trim link) = none) (preferredName : String)
    (sub : Option String) (taken : Option (List String)) :
    s.importLink newUuid doubles link preferredName sub taken = none := by
  unfold importLink
  dsimp only
  rw [h]
  rfl

/-- A link that parses gives a file and a name. -/
theorem importLink_of_some {doubles : Doubles} {link : String} {o : XrayOutbound}
    (h : XrayShareLink.parse doubles (trim link) = some o) (newUuid : Nat → Uuid) (s : XrayStore)
    (preferredName : String) (sub : Option String) (taken : Option (List String)) :
    ∃ name, s.importLink newUuid doubles link preferredName sub taken
      = some (s.addFile ⟨newUuid s.drawn, false, trim link⟩ name sub, name) := by
  refine ⟨uniqueAgainst (ifBlank o.name (ifBlank preferredName "xray"))
    (taken.getD (s.profileNames doubles)), ?_⟩
  unfold importLink
  dsimp only
  rw [h]
  rfl

theorem addFile_spec (newUuid : Nat → Uuid) (s : XrayStore) (text name id : String) :
    Imported newUuid id s (s.addFile ⟨newUuid s.drawn, false, text⟩ name (some id))
      [⟨newUuid s.drawn, false, text⟩] where
  files := rfl
  uuids := rfl
  drawn := rfl
  names u hu := by
    rw [List.map_singleton, List.mem_singleton] at hu
    exact if_neg hu
  subs u := by simp [addFile, setPref]

/-- A relation between the stores before and after files were added that one link keeps to, a batch
    keeps to. -/
structure AddsFiles (newUuid : Nat → Uuid) (doubles : Doubles) (sub : Option String)
    (R : XrayStore → XrayStore → List XrayFile → Prop) : Prop where
  refl : ∀ s, R s s []
  trans : ∀ {s s' s'' new new'}, R s s' new → R s' s'' new' → R s s'' (new ++ new')
  add : ∀ s link name, importable doubles link = true →
    R s (s.addFile ⟨newUuid s.drawn, false, trim link⟩ name sub) [⟨newUuid s.drawn, false, trim link⟩]

section Batch

variable {newUuid : Nat → Uuid} {doubles : Doubles} {sub : Option String}
  {R : XrayStore → XrayStore → List XrayFile → Prop}

theorem importNext_spec (hR : AddsFiles newUuid doubles sub R) (acc : XrayStore × List String × Nat)
    (link : String) :
    ∃ new, R acc.1 (importNext newUuid doubles sub acc link).1 new ∧
      (importNext newUuid doubles sub acc link).2.2 = acc.2.2 + new.length ∧
      new.length = if importable doubles link then 1 else 0 := by
  cases hp : XrayShareLink.parse doubles (trim link) with
  | none =>
    have hi : importable doubles link = false := by rw [importable, hp]; rfl
    unfold importNext
    rw [importLink_of_none hp, hi]
    exact ⟨[], hR.refl _, rfl, rfl⟩
  | some o =>
    have hi : importable doubles link = true := by rw [importable, hp]; rfl
    obtain ⟨name, hname⟩ := importLink_of_some hp newUuid acc.1 "" sub (some acc.2.1)
    unfold importNext
    rw [hname, hi]
    exact ⟨_, hR.add acc.1 link name hi, rfl, rfl⟩

theorem foldl_importNext_spec (hR : AddsFiles newUuid doubles sub R) (links : List String)
    (acc : XrayStore × List String × Nat) :
    ∃ new, R acc.1 (links.foldl (importNext newUuid doubles sub) acc).1 new ∧
      (links.foldl (importNext newUuid doubles sub) acc).2.2 = acc.2.2 + new.length ∧
      new.length = links.countP (importable doubles) := by
  induction links generalizing acc with
  | nil =>
    rw [List.foldl_nil]
    exact ⟨[], hR.refl _, rfl, rfl⟩
  | cons link links ih =>
    obtain ⟨new, himp, hcount, hlen⟩ := importNext_spec hR acc link
    obtain ⟨new', himp', hcount', hlen'⟩ := ih (importNext newUuid doubles sub acc link)
    rw [List.foldl_cons]
    refine ⟨new ++ new', hR.trans himp himp', ?_, ?_⟩
    · rw [hcount', hcount, List.length_append, Nat.add_assoc]
    · rw [List.length_append, hlen, hlen', List.countP_cons, Nat.add_comm]

/-- **What `importBatch` adds**: a file for every link that parses. -/
theorem importBatch_adds (hR : AddsFiles newUuid doubles sub R) (s : XrayStore) (links : List String) :
    ∃ new, R s (s.importBatch newUuid doubles links sub).1 new ∧
      (s.importBatch newUuid doubles links sub).2 = new.length ∧
      new.length = links.countP (importable doubles) := by
  obtain ⟨new, himp, hcount, hlen⟩ :=
    foldl_importNext_spec hR links (s, s.profileNames doubles, 0)
  rw [Nat.zero_add] at hcount
  exact ⟨new, himp, hcount, hlen⟩

end Batch

/-- The files of a batch of a subscription are owned by it. -/
theorem importBatch_spec (newUuid : Nat → Uuid) (doubles : Doubles) (id : String) (s : XrayStore)
    (links : List String) :
    ∃ new, Imported newUuid id s (s.importBatch newUuid doubles links (some id)).1 new ∧
      (s.importBatch newUuid doubles links (some id)).2 = new.length ∧
      new.length = links.countP (importable doubles) :=
  importBatch_adds
    ⟨Imported.refl newUuid id, Imported.trans,
      fun s link name _ => addFile_spec newUuid s (trim link) name id⟩ s links

end XrayStore

/-! ## 5. A refresh -/

namespace XraySubscriptionStore

open XrayShareLink

/-- The uuids that are still to be drawn are new, and differ from each other. -/
structure FreshUuids (newUuid : Nat → Uuid) (s : XrayStore) : Prop where
  injective : Function.Injective newUuid
  unused : ∀ n, s.drawn ≤ n → newUuid n ∉ s.uuids

/-- The profiles that a subscription owns. -/
def owned (s : XrayStore) (id : String) : List XrayFile :=
  s.files.filter fun f => s.subs f.uuid == some id

/-- The profiles of the subscription `id` were replaced by new ones. -/
structure Replaced (s s' : SubscriptionState) (id : String) (activeUuid : Option Uuid)
    (imported : Nat) : Prop where
  pos : 1 ≤ imported
  created : ∀ f ∈ s'.store.files, s'.store.subs f.uuid = some id ↔ f.uuid ∉ s.store.uuids
  distinct : ((owned s'.store id).map (·.uuid)).Nodup
  number : (owned s'.store id).length = imported
  count : ∀ e ∈ s'.subs, e.id = id → e.profileCount = imported
  active : ∀ f ∈ s.store.files, s.store.subs f.uuid = some id → some f.uuid = activeUuid →
    f ∈ s'.store.files ∧ s'.store.subs f.uuid = none ∧ s'.store.names f.uuid = s.store.names f.uuid
  others : ∀ f ∈ s.store.files, s.store.subs f.uuid ≠ some id →
    f ∈ s'.store.files ∧ s'.store.subs f.uuid = s.store.subs f.uuid ∧
      s'.store.names f.uuid = s.store.names f.uuid

/-- Either an error and nothing else, or new profiles. -/
def AllOrNothing (s : SubscriptionState) (outcome : SubscriptionState × RefreshResult) (id : String)
    (activeUuid : Option Uuid) : Prop :=
  (outcome.2.error.isSome ∧ outcome.1 = s) ∨
    (outcome.2.error = none ∧ Replaced s outcome.1 id activeUuid outcome.2.imported)

section Refresh

variable {newUuid : Nat → Uuid} {doubles : Doubles} {s : SubscriptionState} {sub : Subscription}

/-- **A list of links of which one parses replaces the profiles.** -/
theorem replaced_of_importable (hf : FreshUuids newUuid s.store) (id : String)
    (activeUuid : Option Uuid) (now : Int) {links : List String}
    (h : ∃ link ∈ links, XrayStore.importable doubles link = true) :
    Replaced s
      ⟨(replaceProfiles newUuid doubles s.store id activeUuid links).1,
        counted id now (replaceProfiles newUuid doubles s.store id activeUuid links).2 s.subs⟩
      id activeUuid (replaceProfiles newUuid doubles s.store id activeUuid links).2 := by
  obtain ⟨dsubs, dnames, dfiles, ddrawn⟩ :=
    XrayStore.deleteBySubscription_spec s.store id activeUuid
  obtain ⟨new, himp, hcount, hlen⟩ := XrayStore.importBatch_spec newUuid doubles id
    (s.store.deleteBySubscription id activeUuid) links
  -- a new uuid is none of the old ones
  have hnew : ∀ u ∈ new.map (·.uuid), u ∉ s.store.uuids := by
    intro u hu
    rw [himp.uuids, ddrawn] at hu
    obtain ⟨n, hn, rfl⟩ := List.mem_map.1 hu
    exact hf.unused n (List.mem_range'_1.1 hn).1
  have hold : ∀ u ∈ s.store.uuids, u ∉ new.map (·.uuid) := fun u hu hm => hnew u hm hu
  have hunowned : ∀ u ∈ s.store.uuids,
      (s.store.deleteBySubscription id activeUuid).subs u ≠ some id := by
    intro u hu
    rw [dsubs]
    split
    · exact nofun
    · rename_i hc
      exact fun ho => hc ⟨hu, ho⟩
  have huuid : ∀ f ∈ s.store.files, f.uuid ∈ s.store.uuids := fun f hf => List.mem_map_of_mem hf
  have howned : owned ((s.store.deleteBySubscription id activeUuid).importBatch newUuid doubles links
      (some id)).1 id = new := by
    have hdeleted : (s.store.deleteBySubscription id activeUuid).files.filter (fun f =>
        ((s.store.deleteBySubscription id activeUuid).importBatch newUuid doubles links
          (some id)).1.subs f.uuid == some id) = [] := by
      rw [List.filter_eq_nil_iff]
      intro f hm
      have hu := huuid f ((dfiles f).1 hm).1
      rw [himp.subs, if_neg (hold _ hu)]
      simpa using hunowned _ hu
    have hcreated : new.filter (fun f =>
        ((s.store.deleteBySubscription id activeUuid).importBatch newUuid doubles links
          (some id)).1.subs f.uuid == some id) = new := by
      rw [List.filter_eq_self]
      intro f hm
      rw [himp.subs, if_pos (List.mem_map_of_mem hm)]
      exact beq_self_eq_true _
    unfold owned
    rw [himp.files, List.filter_append, hdeleted, hcreated, List.nil_append]
  unfold replaceProfiles
  rw [hcount]
  refine ⟨?_, fun f hm => ?_, ?_, ?_, fun e he hid => ?_, fun f hm ho ha => ?_, fun f hm ho => ?_⟩
  · rw [hlen]
    exact List.countP_pos_iff.2 h
  · dsimp only at hm ⊢
    rw [himp.files, List.mem_append] at hm
    rw [himp.subs]
    rcases hm with hm | hm
    · have hu := huuid f ((dfiles f).1 hm).1
      rw [if_neg (hold _ hu)]
      exact ⟨fun h => absurd h (hunowned _ hu), fun h => absurd hu h⟩
    · have hu := List.mem_map_of_mem (f := (·.uuid)) hm
      rw [if_pos hu]
      exact ⟨fun _ => hnew _ hu, fun _ => rfl⟩
  · rw [howned, himp.uuids]
    exact List.Nodup.map hf.injective List.nodup_range'
  · rw [howned]
  · obtain ⟨e₀, -, rfl⟩ := List.mem_map.1 he
    by_cases h0 : e₀.id = id
    · rw [if_pos h0]
    · rw [if_neg h0] at hid
      exact absurd hid h0
  · have hu := huuid f hm
    refine ⟨?_, ?_, ?_⟩
    · rw [himp.files, List.mem_append]
      exact .inl ((dfiles f).2 ⟨hm, fun _ => ha⟩)
    · rw [himp.subs, if_neg (hold _ hu), dsubs, if_pos ⟨hu, ho⟩]
    · rw [himp.names _ (hold _ hu), dnames, if_neg fun hc => hc.2.2 ha]
  · have hu := huuid f hm
    refine ⟨?_, ?_, ?_⟩
    · rw [himp.files, List.mem_append]
      exact .inl ((dfiles f).2 ⟨hm, fun h => absurd h ho⟩)
    · rw [himp.subs, if_neg (hold _ hu), dsubs, if_neg fun hc => ho hc.2]
    · rw [himp.names _ (hold _ hu), dnames, if_neg fun hc => ho hc.2.1]

/-- **A refresh is all or nothing exactly where the body has no link or one that parses.** -/
theorem refresh_all_or_nothing_iff (hf : FreshUuids newUuid s.store) (sub : Subscription)
    (activeUuid : Option Uuid) (now : Int) (fetched : Option String) :
    AllOrNothing s (refresh newUuid doubles s sub activeUuid now fetched) sub.id activeUuid ↔
      ∀ body ∈ fetched, parseLinks body = [] ∨
        ∃ link ∈ parseLinks body, (parse doubles link).isSome := by
  unfold refresh
  cases fetched with
  | none => exact ⟨fun _ body hb => (by cases hb), fun _ => .inl ⟨rfl, rfl⟩⟩
  | some body =>
    simp only [Option.mem_def, Option.some.injEq, forall_eq']
    cases hl : parseLinks body with
    | nil => exact ⟨fun _ => .inl rfl, fun _ => .inl ⟨rfl, rfl⟩⟩
    | cons link links =>
      have himportable : ∀ l, XrayStore.importable doubles l = (parse doubles l).isSome := by
        intro l
        unfold XrayStore.importable
        rw [parse_trim]
      rw [List.isEmpty_cons, if_neg Bool.false_ne_true]
      constructor
      · rintro (⟨herror, -⟩ | ⟨-, hreplaced⟩)
        · cases herror
        · -- some profile was created, so some link parses
          right
          obtain ⟨new, -, hcount, hlen⟩ := XrayStore.importBatch_spec newUuid doubles sub.id
            (s.store.deleteBySubscription sub.id activeUuid) (link :: links)
          have hpos : 0 < (link :: links).countP (XrayStore.importable doubles) := by
            rw [← hlen, ← hcount]
            exact hreplaced.pos
          obtain ⟨l, hm, hp⟩ := List.countP_pos_iff.1 hpos
          exact ⟨l, hm, by rw [← himportable]; exact hp⟩
      · rintro (h | ⟨l, hm, hp⟩)
        · cases h
        · right
          exact ⟨rfl, replaced_of_importable hf sub.id activeUuid now
            ⟨l, hm, by rw [himportable]; exact hp⟩⟩

end Refresh

/-- Uuids for the examples. -/
def sampleUuid (n : Nat) : Uuid := String.ofList (List.replicate (n + 1) 'u')

/-- A server of the subscription `home`, stored under the first uuid. -/
def sampleState : SubscriptionState where
  store :=
    { files := [⟨sampleUuid 0, false, "trojan://p@h:1#a"⟩]
      names := fun u => if u = sampleUuid 0 then some "a" else none
      subs := fun u => if u = sampleUuid 0 then some "home" else none
      drawn := 1 }
  subs := [{ id := "home", name := "home", url := "https://h/sub", profileCount := 1 }]

theorem sampleUuid_injective : Function.Injective sampleUuid := by
  intro m n h
  have := congrArg (fun s : String => s.toList.length) h
  simpa [sampleUuid] using this

theorem freshUuids_sampleState : FreshUuids sampleUuid sampleState.store := by
  refine ⟨sampleUuid_injective, fun n hn hm => ?_⟩
  have he : sampleUuid n = sampleUuid 0 := by simpa [sampleState, XrayStore.uuids] using hm
  have hz := sampleUuid_injective he
  have hd : sampleState.store.drawn = 1 := rfl
  omega

/-- The subscription of the samples. -/
def sampleSub : Subscription := { id := "home", name := "home", url := "https://h/sub" }

theorem refresh_sample : AllOrNothing sampleState
    (refresh sampleUuid (fun _ => none) sampleState sampleSub none 0 (some "trojan://p@h:2#b"))
    "home" none := by
  have hlinks : parseLinks "trojan://p@h:2#b" = ["trojan://p@h:2#b"] := by decide +kernel
  have hparse : (parse (fun _ => none) "trojan://p@h:2#b").isSome = true := by decide +kernel
  refine (refresh_all_or_nothing_iff freshUuids_sampleState sampleSub none 0 _).2 ?_
  intro body hb
  cases hb
  exact .inr ⟨_, by rw [hlinks]; exact List.mem_singleton_self _, hparse⟩

/-- A body that only looks like links takes the server away and reports no error. -/
theorem refresh_loses_servers :
    (refresh sampleUuid (fun _ => none) sampleState sampleSub none 0 (some "ss://a")).2
      = { imported := 0, error := none } ∧
    (refresh sampleUuid (fun _ => none) sampleState sampleSub none 0 (some "ss://a")).1.store.files
      = [] ∧
    ¬ AllOrNothing sampleState
      (refresh sampleUuid (fun _ => none) sampleState sampleSub none 0 (some "ss://a")) "home" none := by
  have hresult : (refresh sampleUuid (fun _ => none) sampleState sampleSub none 0 (some "ss://a")).2
      = { imported := 0, error := none } := by decide +kernel
  have hfiles : (refresh sampleUuid (fun _ => none) sampleState sampleSub none 0
      (some "ss://a")).1.store.files = [] := by decide +kernel
  refine ⟨hresult, hfiles, ?_⟩
  rintro (⟨herror, -⟩ | ⟨-, hreplaced⟩)
  · rw [hresult] at herror
    cases herror
  · have hpos := hreplaced.pos
    rw [hresult] at hpos
    exact absurd hpos (by decide)

end XraySubscriptionStore

end SwiftVpn
