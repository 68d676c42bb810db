/-
  File:      SwiftVpn/Xray/Batches.lean
  Subject:   A SUBSCRIPTION'S SERVERS COME AND GO: names and owners after `importBatch` and
             `deleteBySubscription` of XrayStore.kt.

  * `uniqueAgainst_not_mem` -- the name that is found is free: of the first numbered names one more
    than there are names, not all are in use;
  * `Batch` -- what holds while a batch is imported: the names in use hold the names of the profiles;
  * `importBatch_unique` -- distinct names stay distinct, and nothing else changes;
  * `deleteBySubscription_exact` -- the servers of a subscription go, with their preferences, and no
    others.
-/
import Mathlib.Data.List.Perm.Subperm
import SwiftVpn.Xray.Store

namespace SwiftVpn

/-! ## 1. A free name -/

theorem numbered_injective (wanted : String) : Function.Injective (numbered wanted) := by
  intro i j h
  have hchars := congrArg String.toList h
  simp only [numbered, String.toList_append, List.append_assoc, List.append_cancel_left_eq] at hchars
  have hdigits : (toString (i + 2)).toList = (toString (j + 2)).toList :=
    List.append_cancel_right hchars
  have hvalue := congrArg (fun ds => Nat.ofDigitChars 10 ds 0) hdigits
  simpa [Nat.toString_eq_ofList_toDigits] using hvalue

/-- **The name that is found is not in use.** -/
theorem uniqueAgainst_not_mem (wanted : String) (taken : List String) :
    uniqueAgainst wanted taken ∉ taken := by
  unfold uniqueAgainst
  split
  · assumption
  · cases hfind : ((List.range (taken.length + 1)).map (numbered wanted)).find? (· ∉ taken) with
    | some name => simpa using List.find?_some hfind
    | none =>
      -- more numbered names than names in use
      have hall : (List.range (taken.length + 1)).map (numbered wanted) ⊆ taken := by
        intro name hname
        simpa using List.find?_eq_none.mp hfind name hname
      have hnodup := (List.nodup_range (n := taken.length + 1)).map (numbered_injective wanted)
      have hle := (List.subperm_of_subset hnodup hall).length_le
      rw [List.length_map, List.length_range] at hle
      omega

/-! ## 2. A batch -/

namespace XrayStore

open XraySubscriptionStore (FreshUuids)

section Batch

variable {newUuid : Nat → Uuid} {doubles : Doubles} {sub : Option String}

/-- While a batch is imported: `s` has become `s'`, the files `new` have come, and `taken` are the names
    in use. -/
structure Batch (newUuid : Nat → Uuid) (doubles : Doubles) (sub : Option String) (s s' : XrayStore)
    (taken : List String) (new : List XrayFile) : Prop where
  files : s'.files = s.files ++ new
  fresh : FreshUuids newUuid s'
  unused : ∀ f ∈ new, f.uuid ∉ s.uuids
  links : ∀ f ∈ new, f.json = false ∧ importable doubles f.text = true
  names : ∀ u ∈ s.uuids, s'.names u = s.names u
  subs : ∀ u, s'.subs u = if u ∈ new.map (·.uuid) then sub.or (s.subs u) else s.subs u
  taken : ∀ name ∈ s'.profileNames doubles, name ∈ taken
  nodup : (s'.profileNames doubles).Nodup
  number : (s'.profileNames doubles).length = (s.profileNames doubles).length + new.length

/-- A profile that is added is listed under its name, the others under theirs. -/
theorem profileNames_addFile (doubles : Doubles) {s : XrayStore} {f : XrayFile} (hf : f.uuid ∉ s.uuids)
    (hp : (XrayShareLink.parse doubles f.text).isSome = true) (name : String)
    (sub : Option String) :
    (s.addFile f name sub).profileNames doubles = s.profileNames doubles ++ [name] := by
  have hself : (s.addFile f name sub).name f.uuid = name := by
    simp [XrayStore.name, addFile, setPref]
  have hother : ∀ g ∈ s.files, (s.addFile f name sub).name g.uuid = s.name g.uuid := by
    intro g hg
    have hne : g.uuid ≠ f.uuid := fun he => hf (he ▸ List.mem_map_of_mem hg)
    simp [XrayStore.name, addFile, setPref, hne]
  unfold profileNames
  rw [show (s.addFile f name sub).files = s.files ++ [f] from rfl, List.filter_append, List.map_append,
    List.filter_cons_of_pos (by rw [hp, Bool.or_true]), List.filter_nil, List.map_singleton, hself]
  congr 1
  exact List.map_congr_left fun g hg => hother g (List.mem_filter.mp hg).1

theorem freshUuids_addFile {s : XrayStore} (h : FreshUuids newUuid s) (text name : String)
    (sub : Option String) :
    FreshUuids newUuid (s.addFile ⟨newUuid s.drawn, false, text⟩ name sub) where
  injective := h.injective
  unused n hn := by
    have hn' : s.drawn + 1 ≤ n := hn
    unfold uuids
    rw [show (s.addFile ⟨newUuid s.drawn, false, text⟩ name sub).files
      = s.files ++ [⟨newUuid s.drawn, false, text⟩] from rfl, List.map_append, List.mem_append, not_or,
      List.map_singleton, List.mem_singleton]
    refine ⟨h.unused n (by omega), fun he => ?_⟩
    have hdrawn : n = s.drawn := h.injective he
    omega

/-- **A link that parses is one profile more**, under a name that was free. -/
theorem Batch.next {s s' : XrayStore} {taken : List String} {new : List XrayFile} {link : String}
    (B : Batch newUuid doubles sub s s' taken new) (hl : importable doubles link = true) (wanted : String) :
    Batch newUuid doubles sub s
      (s'.addFile ⟨newUuid s'.drawn, false, trim link⟩ (uniqueAgainst wanted taken) sub)
      (uniqueAgainst wanted taken :: taken) (new ++ [⟨newUuid s'.drawn, false, trim link⟩]) := by
  have hnew : newUuid s'.drawn ∉ s'.uuids := B.fresh.unused s'.drawn (Nat.le_refl _)
  have huuids : s'.uuids = s.uuids ++ new.map (·.uuid) := by
    unfold uuids
    rw [B.files, List.map_append]
  have hparse : (XrayShareLink.parse doubles (trim link)).isSome = true := hl
  have hnames := profileNames_addFile doubles (f := ⟨newUuid s'.drawn, false, trim link⟩)
    hnew hparse (uniqueAgainst wanted taken) sub
  rw [huuids, List.mem_append, not_or] at hnew
  refine ⟨?_, freshUuids_addFile B.fresh _ _ sub, ?_, ?_, ?_, ?_, ?_, ?_, ?_⟩
  · rw [← List.append_assoc, ← B.files]
    rfl
  · intro f hf
    rcases List.mem_append.mp hf with hf | hf
    · exact B.unused f hf
    · rw [List.mem_singleton.mp hf]
      exact hnew.1
  · intro f hf
    rcases List.mem_append.mp hf with hf | hf
    · exact B.links f hf
    · rw [List.mem_singleton.mp hf]
      refine ⟨rfl, ?_⟩
      unfold importable
      rw [XrayShareLink.trim_trim]
      exact hparse
  · intro u hu
    have hne : u ≠ newUuid s'.drawn := fun he => hnew.1 (he ▸ hu)
    rw [← B.names u hu]
    exact if_neg hne
  · intro u
    simp only [List.map_append, List.map_singleton, List.mem_append, List.mem_singleton]
    have hadd : (s'.addFile ⟨newUuid s'.drawn, false, trim link⟩ (uniqueAgainst wanted taken) sub).subs u
        = if u = newUuid s'.drawn then sub.or (s'.subs u) else s'.subs u := by
      cases sub with
      | none => simp [addFile]
      | some id => rfl
    rw [hadd, B.subs u]
    by_cases hu : u = newUuid s'.drawn
    · rw [if_pos hu, if_neg (by rw [hu]; exact hnew.2), if_pos (.inr hu)]
    · rw [if_neg hu]
      exact if_congr (or_iff_left hu).symm rfl rfl
  · intro name hname
    rw [hnames, List.mem_append, List.mem_singleton] at hname
    rcases hname with hname | rfl
    · exact List.mem_cons_of_mem _ (B.taken name hname)
    · exact List.mem_cons_self
  · rw [hnames, List.nodup_append]
    refine ⟨B.nodup, by simp, fun a ha b hb hab => ?_⟩
    rw [List.mem_singleton.mp hb] at hab
    exact uniqueAgainst_not_mem wanted taken (hab ▸ B.taken a ha)
  · rw [hnames, List.length_append, List.length_append, B.number, List.length_singleton,
      List.length_singleton, Nat.add_assoc]

/-- One link of a batch, which parses or not. -/
theorem importNext_batch {s : XrayStore} {acc : XrayStore × List String × Nat} {new : List XrayFile}
    (B : Batch newUuid doubles sub s acc.1 acc.2.1 new) (link : String) :
    ∃ files : List XrayFile, files.map (·.text) = ([link].filter (importable doubles)).map trim ∧
      (importNext newUuid doubles sub acc link).2.2 = acc.2.2 + files.length ∧
      Batch newUuid doubles sub s (importNext newUuid doubles sub acc link).1
        (importNext newUuid doubles sub acc link).2.1 (new ++ files) := by
  cases hp : XrayShareLink.parse doubles (trim link) with
  | none =>
    have hl : importable doubles link = false := by rw [importable, hp]; rfl
    refine ⟨[], ?_, ?_, ?_⟩
    · rw [List.filter_cons_of_neg (Bool.eq_false_iff.mp hl)]
      rfl
    · unfold importNext
      rw [importLink_of_none hp]
      rfl
    · unfold importNext
      rw [importLink_of_none hp, List.append_nil]
      exact B
  | some o =>
    have hl : importable doubles link = true := by rw [importable, hp]; rfl
    have himport : acc.1.importLink newUuid doubles link "" sub (some acc.2.1)
        = some (acc.1.addFile ⟨newUuid acc.1.drawn, false, trim link⟩
            (uniqueAgainst (ifBlank o.name (ifBlank "" "xray")) acc.2.1) sub,
          uniqueAgainst (ifBlank o.name (ifBlank "" "xray")) acc.2.1) := by
      unfold importLink
      dsimp only
      rw [hp]
      rfl
    refine ⟨[⟨newUuid acc.1.drawn, false, trim link⟩], ?_, ?_, ?_⟩
    · rw [List.filter_cons_of_pos hl]
      rfl
    · unfold importNext
      rw [himport]
      rfl
    · unfold importNext
      rw [himport]
      exact B.next hl _

theorem foldl_importNext_batch (links : List String) {s : XrayStore}
    (acc : XrayStore × List String × Nat) {new : List XrayFile}
    (B : Batch newUuid doubles sub s acc.1 acc.2.1 new) :
    ∃ files : List XrayFile, files.map (·.text) = (links.filter (importable doubles)).map trim ∧
      (links.foldl (importNext newUuid doubles sub) acc).2.2 = acc.2.2 + files.length ∧
      Batch newUuid doubles sub s (links.foldl (importNext newUuid doubles sub) acc).1
        (links.foldl (importNext newUuid doubles sub) acc).2.1 (new ++ files) := by
  induction links generalizing acc new with
  | nil => exact ⟨[], rfl, rfl, by rw [List.append_nil]; exact B⟩
  | cons link links ih =>
    obtain ⟨files, htexts, hcount, B'⟩ := importNext_batch B link
    obtain ⟨files', htexts', hcount', B''⟩ := ih _ B'
    refine ⟨files ++ files', ?_, ?_, ?_⟩
    · rw [List.map_append, htexts, htexts', ← List.map_append, ← List.filter_append]
      rfl
    · rw [List.foldl_cons, hcount', hcount, List.length_append, Nat.add_assoc]
    · rw [List.foldl_cons, ← List.append_assoc]
      exact B''

/-- **A batch keeps the names distinct and touches nothing else.** For every link that parses there is
    one profile more, with the trimmed link as its text and of the given subscription; the profiles
    that were there before keep their text, their name and their owner. -/
theorem importBatch_unique {s : XrayStore} (hf : FreshUuids newUuid s)
    (hnames : (s.profileNames doubles).Nodup) (links : List String) (sub : Option String) :
    ∃ new : List XrayFile, (s.importBatch newUuid doubles links sub).1.files = s.files ++ new ∧
      new.map (·.text) = (links.filter (importable doubles)).map trim ∧
      (s.importBatch newUuid doubles links sub).2 = links.countP (importable doubles) ∧
      ((s.importBatch newUuid doubles links sub).1.profileNames doubles).length
        = (s.profileNames doubles).length + links.countP (importable doubles) ∧
      ((s.importBatch newUuid doubles links sub).1.profileNames doubles).Nodup ∧
      (∀ f ∈ new, f.json = false ∧ f.uuid ∉ s.uuids ∧
        (s.importBatch newUuid doubles links sub).1.subs f.uuid = sub.or (s.subs f.uuid)) ∧
      ∀ u ∈ s.uuids, (s.importBatch newUuid doubles links sub).1.names u = s.names u ∧
        (s.importBatch newUuid doubles links sub).1.subs u = s.subs u := by
  have hstart : Batch newUuid doubles sub s s (s.profileNames doubles) [] :=
    ⟨(List.append_nil _).symm, hf, by simp, by simp, fun _ _ => rfl, by simp, fun _ h => h, hnames, rfl⟩
  obtain ⟨new, htexts, hcount, B⟩ :=
    foldl_importNext_batch links (s, s.profileNames doubles, 0) hstart
  have hlength : new.length = links.countP (importable doubles) := by
    rw [List.countP_eq_length_filter, ← List.length_map (f := trim), ← htexts, List.length_map]
  refine ⟨new, B.files, htexts, ?_, ?_, B.nodup, ?_, ?_⟩
  · rw [← hlength]
    exact hcount.trans (Nat.zero_add _)
  · rw [← hlength]
    exact B.number
  · intro f hf
    refine ⟨(B.links f hf).1, B.unused f hf, (B.subs f.uuid).trans ?_⟩
    exact if_pos (List.mem_map_of_mem hf)
  · intro u hu
    refine ⟨B.names u hu, (B.subs u).trans (if_neg fun hm => ?_)⟩
    obtain ⟨f, hf, rfl⟩ := List.mem_map.mp hm
    exact B.unused f hf hu

/-- A second `a`, a text that is no link, and a third name that looks like the second. -/
def repeatedLinks : List String := ["trojan://p@h:1#a", "no link", "trojan://p@h:1#a%20(2)"]

theorem importBatch_unique_repeated :
    (XraySubscriptionStore.sampleState.store.importBatch XraySubscriptionStore.sampleUuid
      (fun _ => none) repeatedLinks (some "home")).1.profileNames (fun _ => none)
        = ["a", "a (2)", "a (2) (2)"] ∧
    ((XraySubscriptionStore.sampleState.store.importBatch XraySubscriptionStore.sampleUuid
      (fun _ => none) repeatedLinks (some "home")).1.profileNames (fun _ => none)).Nodup := by
  have hnames : (XraySubscriptionStore.sampleState.store.profileNames fun _ => none).Nodup := by
    decide +kernel
  obtain ⟨new, -, -, -, -, hnodup, -, -⟩ :=
    importBatch_unique XraySubscriptionStore.freshUuids_sampleState hnames repeatedLinks (some "home")
  exact ⟨by decide +kernel, hnodup⟩

end Batch

/-! ## 3. A subscription removed -/

/-- **The servers of a subscription are removed, and no others.** No profile is owned by it any more;
    those that were are gone, with their name and their owner; the one that is kept has its text and
    its name, and no owner; and every other profile is as it was. -/
theorem deleteBySubscription_exact (s : XrayStore) (id : String) (keep : Option Uuid) :
    (∀ f ∈ (s.deleteBySubscription id keep).files,
      f ∈ s.files ∧ (s.deleteBySubscription id keep).subs f.uuid ≠ some id) ∧
    ∀ f ∈ s.files,
      (s.subs f.uuid = some id → some f.uuid ≠ keep →
        f.uuid ∉ (s.deleteBySubscription id keep).uuids ∧
          (s.deleteBySubscription id keep).names f.uuid = none ∧
          (s.deleteBySubscription id keep).subs f.uuid = none) ∧
      (s.subs f.uuid = some id → some f.uuid = keep →
        f ∈ (s.deleteBySubscription id keep).files ∧
          (s.deleteBySubscription id keep).names f.uuid = s.names f.uuid ∧
          (s.deleteBySubscription id keep).subs f.uuid = none) ∧
      (s.subs f.uuid ≠ some id →
        f ∈ (s.deleteBySubscription id keep).files ∧
          (s.deleteBySubscription id keep).names f.uuid = s.names f.uuid ∧
          (s.deleteBySubscription id keep).subs f.uuid = s.subs f.uuid) := by
  obtain ⟨hsubs, hnames, hfiles, -⟩ := deleteBySubscription_spec s id keep
  have huuid : ∀ f ∈ s.files, f.uuid ∈ s.uuids := fun f hf => List.mem_map_of_mem hf
  refine ⟨fun f hf => ?_, fun f hf => ⟨fun howned hkeep => ?_, fun howned hkeep => ?_, fun hother => ?_⟩⟩
  · have hold := ((hfiles f).mp hf).1
    refine ⟨hold, ?_⟩
    rw [hsubs]
    split
    · nofun
    · rename_i hnot
      exact fun howned => hnot ⟨huuid f hold, howned⟩
  · refine ⟨fun hm => ?_, ?_, ?_⟩
    · obtain ⟨g, hg, he⟩ := List.mem_map.mp hm
      have hkept := ((hfiles g).mp hg).2
      rw [he] at hkept
      exact hkeep (hkept howned)
    · rw [hnames, if_pos ⟨huuid f hf, howned, hkeep⟩]
    · rw [hsubs, if_pos ⟨huuid f hf, howned⟩]
  · refine ⟨(hfiles f).mpr ⟨hf, fun _ => hkeep⟩, ?_, ?_⟩
    · rw [hnames, if_neg fun h => h.2.2 hkeep]
    · rw [hsubs, if_pos ⟨huuid f hf, howned⟩]
  · refine ⟨(hfiles f).mpr ⟨hf, fun howned => absurd howned hother⟩, ?_, ?_⟩
    · rw [hnames, if_neg fun h => hother h.2.1]
    · rw [hsubs, if_neg fun h => hother h.2]

end XrayStore

end SwiftVpn
