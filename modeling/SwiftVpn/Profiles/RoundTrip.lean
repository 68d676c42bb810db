/-
  File:      SwiftVpn/Profiles/RoundTrip.lean
  Subject:   A BACKUP AND ITS RESTORE: what the profiles are after exportAll, importZip and applyManifest.

  * `Exported` -- some of the saved profiles, within the caps, each with a config that its importer
    accepts;
  * `ready_of_exported` -- what is written of them is what their importers store again;
  * `originalName_of_item`, `credentialsFor_of_item`, `mem_favNames_iff` -- the manifest has name, credentials
    and star of an item under the base of its entry;
  * `stored_manifestEntry` -- the manifest is a config of its own only as base64 of links: `toString()`
    escapes its slashes;
  * `RoundTrips` -- where names, texts and certificates come back;
  * `restore_exportAll` -- there the profiles are restored as they were, their uuids aside;
  * `restore_loses_profile` -- a profile whose name starts with a dot is not.
-/
import SwiftVpn.Profiles.Counted
import SwiftVpn.Profiles.Reimport

namespace SwiftVpn

open XrayShareLink

namespace BackupManager

open VpnEngine

/-! ## 1. What is exported -/

/-- What the stores keep: a uuid for each profile, numbers of 32 bits, and trimmed texts. -/
structure Sources.Kept (src : Sources) : Prop where
  distinct : src.state.Distinct
  inRange : ∀ r ∈ src.state.ikev2.rows, r.profile.InRange
  trimmed : ∀ f ∈ src.state.xray.files, trim f.text = f.text

/-- The texts are trimmed after every run of the store. -/
theorem trimmed_of_run {src : Sources} {newUuid : Nat → Uuid} {doubles : Doubles} {ops : List XrayOperation}
    {last : Uuid → Option String}
    (hrun : Machine.exec (XrayStore.watched newUuid doubles) (XrayStore.empty, fun _ => none) ops
      = some (src.state.xray, last)) : ∀ f ∈ src.state.xray.files, trim f.text = f.text :=
  fun f hf => (XrayStore.files_admitted hrun f hf).1

/-- The bytes of the config of a profile. -/
def Sources.size (src : Sources) (q : Saved) : Nat :=
  ((src.text q.profile).map fun text => (toByteArray text).length).getD 0

/-- Profiles that are saved, at most 499, of different names, each with a config of at most 512 KiB that its
    importer accepts, 8 MiB in total. -/
structure Exported (pf : Platform) (src : Sources) (records : List Saved) : Prop where
  saved : records.Subperm (src.state.saved pf)
  count : records.length ≤ 499
  names : (records.map (·.name)).Nodup
  accepted : ∀ q ∈ records, ∃ text, src.text q.profile = some text ∧ Accepts pf text q.protocol
  small : ∀ q ∈ records, src.size q ≤ 512 * 1024
  total : (records.map src.size).sum ≤ 8 * 1024 * 1024

section Sources

variable {pf : Platform} {src : Sources} {q : Saved}

theorem mem_savedOf (h : q ∈ src.state.saved pf) : q ∈ src.state.savedOf pf q.protocol := by
  unfold AppState.saved at h
  simp only [List.mem_append] at h
  rcases h with ((h | h) | h) | h
  · obtain ⟨p, -, rfl⟩ := List.mem_map.1 h
    exact h
  · obtain ⟨f, -, rfl⟩ := List.mem_map.1 h
    exact h
  · obtain ⟨f, -, rfl⟩ := List.mem_map.1 h
    exact h
  · obtain ⟨r, -, rfl⟩ := List.mem_map.1 h
    exact h

theorem get_of_distinct (hs : src.state.Distinct) {p : OpenVpnProfile} (hp : p ∈ src.state.openVpn.profiles) :
    src.state.openVpn.get p.uuid = some p := by
  unfold AppState.Distinct AppState.uuids at hs
  have hnodup := (List.nodup_append.1 (List.nodup_append.1 (List.nodup_append.1 hs).1).1).1
  exact AppState.find?_of_nodup (·.uuid) hnodup hp

theorem wireGuard_of_distinct (hs : src.state.Distinct) {f : WireGuardFile} (hf : f ∈ src.state.wireGuard.files) :
    src.state.wireGuard.files.find? (·.uuid == f.uuid) = some f := by
  unfold AppState.Distinct AppState.uuids at hs
  have hnodup := (List.nodup_append.1 (List.nodup_append.1 (List.nodup_append.1 hs).1).1).2.1
  exact AppState.find?_of_nodup (·.uuid) hnodup hf

/-- The text of an Xray profile is that of its file, whatever its extension. -/
theorem text_of_xrayFile (hs : src.state.Distinct) {f : XrayFile} (hf : f ∈ src.state.xray.files) {p : Profile}
    (hp : p.protocol = .xray) (huuid : p.uuid = f.uuid) : src.text p = some f.text := by
  have hnodup : src.state.xray.uuids.Nodup := by
    unfold AppState.Distinct AppState.uuids at hs
    exact (List.nodup_append.1 (List.nodup_append.1 hs).1).2.1
  have hdirectory := XrayStore.directory_of_nodup hnodup
  have hfile : ∀ json, src.xrayFile p.uuid json = if f.json = json then some f else none := by
    intro json
    show src.state.xray.fileOf p.uuid json = _
    split
    · rename_i hjson
      exact hdirectory.fileOf_eq_some.2 ⟨hf, huuid.symm, hjson⟩
    · rename_i hjson
      rw [Option.eq_none_iff_forall_ne_some]
      intro g hg
      obtain ⟨hm, hu, hgj⟩ := hdirectory.fileOf_eq_some.1 hg
      rw [List.inj_on_of_nodup_map hnodup hm hf (hu.trans huuid)] at hgj
      exact hjson hgj
  have hextension : (src.extension p == "json") = f.json := by
    unfold Sources.extension
    rw [hp]
    dsimp only
    rw [hfile]
    cases f.json <;> rfl
  unfold Sources.text
  rw [hp]
  dsimp only
  rw [hextension, hfile, if_pos rfl]
  rfl

theorem text_openVpn {p : Profile} (hp : p.protocol = .openvpn) :
    src.text p = (src.state.openVpn.get p.uuid).bind (·.source) := by
  unfold Sources.text
  rw [hp]

theorem text_wireGuard {p : Profile} (hp : p.protocol = .wireguard) :
    src.text p = (src.state.wireGuard.files.find? (·.uuid == p.uuid)).map (·.text) := by
  unfold Sources.text
  rw [hp]

theorem text_ikev2 {p : Profile} (hp : p.protocol = .ikev2) :
    src.text p = (ikev2Dump src.certs src.state.ikev2 p.uuid).or (src.dumps p.uuid) := by
  unfold Sources.text
  rw [hp]

/-- The file of an Xray profile that is saved. -/
theorem xrayFile_of_mem (hs : src.state.Distinct) (hq : q ∈ src.state.saved pf) (hp : q.protocol = .xray)
    {text : String} (htext : src.text q.profile = some text) :
    ∃ f ∈ src.state.xray.files, f.text = text ∧ q.content = .text (some text) := by
  have hmem := mem_savedOf hq
  rw [hp] at hmem
  obtain ⟨f, hf, he⟩ := List.mem_map.1 hmem
  have hfile := (List.mem_filter.1 hf).1
  have huuid : q.uuid = f.uuid := by rw [← he]
  have hcontent : q.content = .text (some f.text) := by rw [← he]
  rw [text_of_xrayFile hs hfile (p := q.profile) hp huuid, Option.some.injEq] at htext
  exact ⟨f, hfile, htext, htext ▸ hcontent⟩

/-- What is saved of a profile has the text of its config, but for an IKEv2 profile. -/
theorem content_of_mem (hs : src.state.Distinct) (hq : q ∈ src.state.saved pf) (hp : q.protocol ≠ .ikev2)
    {text : String} (htext : src.text q.profile = some text) : q.content = .text (some text) := by
  have hmem := mem_savedOf hq
  cases hd : q.protocol with
  | openvpn =>
    rw [hd] at hmem
    obtain ⟨p, hp, he⟩ := List.mem_map.1 hmem
    have huuid : q.profile.uuid = p.uuid := by rw [← he]; rfl
    have hcontent : q.content = .text p.source := by rw [← he]
    rw [text_openVpn (p := q.profile) hd, huuid, get_of_distinct hs hp, Option.bind_some] at htext
    rw [hcontent, htext]
  | wireguard =>
    rw [hd] at hmem
    obtain ⟨f, hf, he⟩ := List.mem_map.1 hmem
    have huuid : q.profile.uuid = f.uuid := by rw [← he]; rfl
    have hcontent : q.content = .text (some f.text) := by rw [← he]
    rw [text_wireGuard (p := q.profile) hd, huuid, wireGuard_of_distinct hs (List.mem_filter.1 hf).1,
      Option.map_some] at htext
    rw [hcontent, htext]
  | xray =>
    obtain ⟨f, -, -, hcontent⟩ := xrayFile_of_mem hs hq hd htext
    exact hcontent
  | ikev2 => exact absurd hd hp

theorem trimmed_of_mem (hs : src.Kept) (hq : q ∈ src.state.saved pf) (hp : q.protocol = .xray) {text : String}
    (htext : src.text q.profile = some text) : trim text = text := by
  obtain ⟨f, hf, rfl, -⟩ := xrayFile_of_mem hs.distinct hq hp htext
  exact hs.trimmed f hf

/-- The dump of an IKEv2 profile is made from its row. -/
theorem dump_of_mem (hs : src.Kept) {i : Item} (hq : i.record ∈ src.state.saved pf)
    (hp : i.record.protocol = .ikev2) (htext : src.text i.record.profile = some i.text) :
    ∃ p, src.state.ikev2.profile i.record.uuid = some p ∧ IsDump src.certs i p := by
  have hmem := mem_savedOf hq
  rw [hp] at hmem
  obtain ⟨r, hr, he⟩ := List.mem_map.1 hmem
  have huuid : i.record.uuid = r.profile.uuid := by rw [← he]; rfl
  have hprofile : src.state.ikev2.profile i.record.uuid = some r.profile := by
    rw [huuid]
    exact hs.distinct.disjoint.profile_eq hr
  have hdump : ikev2Dump src.certs src.state.ikev2 i.record.uuid
      = some (Json.layOut (Json.indented 2) (.obj (ikev2Json src.certs r.profile))) := by
    rw [ikev2Dump, hprofile]
    rfl
  rw [text_ikev2 (p := i.record.profile) hp, show i.record.profile.uuid = i.record.uuid from rfl, hdump,
    Option.some_or, Option.some.injEq] at htext
  refine ⟨r.profile, hprofile, ?_, ?_, htext.symm, r.stored_profile, hs.inRange r hr⟩
  · rw [← he]
    rfl
  · rw [← he]
    rfl

/-- The credentials of an OpenVPN profile, where they are not blank. -/
theorem credentials_of_mem (hs : src.state.Distinct) (hq : q ∈ src.state.saved pf) (hp : q.protocol = .openvpn) :
    src.credentials q.profile
      = if isBlank q.credentials.username && isBlank q.credentials.password then none else some q.credentials := by
  have hmem := mem_savedOf hq
  rw [hp] at hmem
  obtain ⟨p, hprofile, he⟩ := List.mem_map.1 hmem
  have huuid : q.profile.uuid = p.uuid := by rw [← he]; rfl
  have hcredentials : q.credentials = p.credentials := by rw [← he]
  unfold Sources.credentials
  rw [if_pos (show q.profile.protocol = .openvpn from hp), huuid, get_of_distinct hs hprofile, hcredentials]

theorem credentials_of_ne (hq : q ∈ src.state.saved pf) (hp : q.protocol ≠ .openvpn) : q.credentials = {} := by
  have hmem := mem_savedOf hq
  generalize hd : q.protocol = d at hmem hp
  cases d with
  | openvpn => exact absurd rfl hp
  | wireguard =>
    obtain ⟨f, -, rfl⟩ := List.mem_map.1 hmem
    rfl
  | xray =>
    obtain ⟨f, -, rfl⟩ := List.mem_map.1 hmem
    rfl
  | ikev2 =>
    obtain ⟨r, -, rfl⟩ := List.mem_map.1 hmem
    rfl

end Sources

/-! ## 2. What the manifest has for an item -/

section Manifest

variable {src : Sources} {b : Backup} {items : List Item} {i : Item}

/-- An item is looked up under its key in what was noted of some of the items. -/
theorem lookup_noted {α : Type} (hnodup : (items.map Item.key).Nodup) (hi : i ∈ items)
    (noted : Item → Option α) (write : α → Json) :
    (items.filterMap fun j => (noted j).map fun a => (j.key, write a)).lookup i.key = (noted i).map write := by
  have hkeys : ((items.filterMap fun j => (noted j).map fun a => (j.key, write a)).map Prod.fst).Sublist
      (items.map Item.key) := by
    clear hi hnodup
    induction items with
    | nil => exact List.Sublist.slnil
    | cons j items ih =>
      rw [List.filterMap_cons]
      cases noted j with
      | none => exact ih.cons _
      | some a => exact ih.cons_cons _
  cases hnoted : noted i with
  | some a =>
    rw [Option.map_some, ← mem_iff_lookup (hnodup.sublist hkeys)]
    exact List.mem_filterMap.2 ⟨i, hi, by rw [hnoted]; rfl⟩
  | none =>
    rw [Option.map_none, lookup_eq_none_iff_not_mem]
    intro hm
    obtain ⟨e, he, hkey⟩ := List.mem_map.1 hm
    obtain ⟨j, hj, hej⟩ := List.mem_filterMap.1 he
    obtain ⟨a, ha, rfl⟩ := Option.map_eq_some_iff.1 hej
    rw [List.inj_on_of_nodup_map hnodup hj hi hkey, hnoted] at ha
    cases ha

theorem lookup_noted_of_ne {α : Type} {key : String} (hkey : ∀ j ∈ items, j.key ≠ key)
    (noted : Item → Option α) (write : α → Json) :
    (items.filterMap fun j => (noted j).map fun a => (j.key, write a)).lookup key = none := by
  rw [lookup_eq_none_iff_not_mem]
  intro hm
  obtain ⟨e, he, rfl⟩ := List.mem_map.1 hm
  obtain ⟨j, hj, hej⟩ := List.mem_filterMap.1 he
  obtain ⟨a, -, rfl⟩ := Option.map_eq_some_iff.1 hej
  exact hkey j hj rfl

/-- The name that is noted of an item: none where it is the base. -/
def notedName (i : Item) : Option String := if i.base ≠ i.record.name then some i.record.name else none

theorem WrittenItems.nodup_keys (h : WrittenItems src b items) : (items.map Item.key).Nodup := by
  have hnodup := Written.nodup h
  rwa [List.map_map] at hnodup

/-- The names of the manifest are those that are noted. -/
theorem WrittenItems.optObject_names (h : WrittenItems src b items) (profiles : List Profile) :
    (manifest src profiles b).optObject "names"
      = some (items.filterMap fun j => (notedName j).map fun a => (j.key, .str a)) := by
  have hbase : ∀ j ∈ items, Text.cutLast '/' j.key.toList
      = some ((dirName j.record.protocol).toList, j.base.toList) := by
    intro j hj
    have hslash : '/' ∉ j.base.toList := by
      intro hm
      exact Bool.false_ne_true (h.isSafe_base hj '/' hm)
    unfold Item.key entryKey
    rw [String.toList_append, String.toList_append, List.append_assoc]
    exact Text.cutLast_append hslash _
  have hnames : (b.origNames.filter fun n =>
      ((Text.cutLast '/' n.1.toList).map (·.2)).getD n.1.toList ≠ n.2.toList).map (fun n => (n.1, Json.str n.2))
      = items.filterMap fun j => (notedName j).map fun a => (j.key, .str a) := by
    rw [Written.origNames h, List.map_map]
    clear h
    induction items with
    | nil => rfl
    | cons j items ih =>
      have hj := hbase j List.mem_cons_self
      rw [List.map_cons, List.filterMap_cons, ← ih fun k hk => hbase k (List.mem_cons_of_mem j hk),
        List.filter_cons]
      simp only [Function.comp_apply, hj, Option.map_some, Option.getD_some, notedName]
      by_cases hname : j.base = j.record.name
      · simp [hname, Saved.profile]
      · have hchars : j.base.toList ≠ j.record.name.toList := fun he => hname (String.toList_injective he)
        simp [hname, hchars, Saved.profile]
  rw [← hnames]
  rfl

/-- **The manifest has the name of an item** under the base of its entry. -/
theorem WrittenItems.originalName_of_item (h : WrittenItems src b items) (hi : i ∈ items)
    (hname : isBlank i.record.name = false) {p : Profile} (hp : key p = i.key) (profiles : List Profile) :
    originalName (manifest src profiles b) p = notedName i := by
  have hlookup := lookup_noted h.nodup_keys hi notedName Json.str
  unfold originalName
  rw [h.optObject_names profiles, hp]
  dsimp only
  cases hnoted : notedName i with
  | some a =>
    have ha : a = i.record.name := by
      unfold notedName at hnoted
      split at hnoted
      · exact (Option.some.inj hnoted).symm
      · cases hnoted
    rw [hnoted, Option.map_some, ha] at hlookup
    rw [JsonObject.optString_of_some hlookup, ha]
    show (if isBlank i.record.name = true then none else some i.record.name) = _
    rw [hname]
    rfl
  | none =>
    rw [hnoted, Option.map_none] at hlookup
    rw [JsonObject.optString_of_none hlookup]
    rfl

/-- It has none under a base that no item has. -/
theorem WrittenItems.originalName_of_ne (h : WrittenItems src b items) {p : Profile}
    (hp : ∀ j ∈ items, j.key ≠ key p) (profiles : List Profile) :
    originalName (manifest src profiles b) p = none := by
  unfold originalName
  rw [h.optObject_names profiles]
  dsimp only
  rw [JsonObject.optString_of_none (lookup_noted_of_ne hp notedName Json.str)]
  rfl

/-- The credentials of the manifest are those that were noted. -/
theorem WrittenItems.optObject_credentials (h : WrittenItems src b items) (profiles : List Profile) :
    (manifest src profiles b).optObject "credentials"
      = some (items.filterMap fun j => (src.credentials j.record.profile).map fun c =>
          (j.key, .obj [("u", .str c.username), ("p", .str c.password)])) := by
  have hcreds : b.creds.map (fun c => (c.1, Json.obj [("u", .str c.2.username), ("p", .str c.2.password)]))
      = items.filterMap fun j => (src.credentials j.record.profile).map fun c =>
          (j.key, .obj [("u", .str c.username), ("p", .str c.password)]) := by
    rw [Written.creds h, List.filterMap_map, List.map_filterMap]
    refine List.filterMap_congr fun j _ => ?_
    rw [Function.comp_apply, Option.map_map]
    rfl
  rw [← hcreds]
  rfl

/-- **The manifest has the credentials of an item** under the base of its entry, if they are not blank. -/
theorem WrittenItems.credentialsFor_of_item (h : WrittenItems src b items) (hi : i ∈ items)
    {p : Profile} (hp : key p = i.key) (profiles : List Profile) {c : Option Credentials}
    (hc : src.credentials i.record.profile = c)
    (hblank : ∀ c', c = some c' → (isBlank c'.username && isBlank c'.password) = false) :
    credentialsFor (manifest src profiles b) p = c := by
  have hlookup := lookup_noted h.nodup_keys hi (fun j => src.credentials j.record.profile)
    fun c => Json.obj [("u", .str c.username), ("p", .str c.password)]
  unfold credentialsFor
  rw [h.optObject_credentials profiles, Option.bind_some, hp]
  unfold JsonObject.optObject
  rw [hlookup, hc]
  cases c with
  | none => rfl
  | some c =>
    show (if (isBlank c.username && isBlank c.password) = true then none else some c) = some c
    rw [hblank c rfl]
    rfl

/-- **A name is among the favourites** where its profile has a star. -/
theorem mem_favNames_iff {records : List Saved} (hnames : (records.map (·.name)).Nodup) {q : Saved}
    (hq : q ∈ records) : q.name ∈ favNames (manifest src (records.map Saved.profile) b) ↔ q.isFavourite = true := by
  have hlist : favNames (manifest src (records.map Saved.profile) b)
      = ((records.map Saved.profile).filter (·.isFavourite)).map (·.name) := by
    show (((records.map Saved.profile).filter (·.isFavourite)).map fun p => Json.str p.name).map element = _
    rw [List.map_map]
    rfl
  rw [hlist]
  constructor
  · intro hm
    obtain ⟨p, hp, hname⟩ := List.mem_map.1 hm
    obtain ⟨hp, hstar⟩ := List.mem_filter.1 hp
    obtain ⟨q', hq', rfl⟩ := List.mem_map.1 hp
    rw [← List.inj_on_of_nodup_map hnames hq' hq hname]
    exact hstar
  · intro hstar
    exact List.mem_map.2 ⟨q.profile, List.mem_filter.2 ⟨List.mem_map_of_mem hq, hstar⟩, rfl⟩

/-! ### The manifest as a config -/

theorem toList_render (m : JsonObject) :
    (Json.obj m).render.toList = '\x7b' :: Json.renderMembers m ++ ['\x7d'] := by
  rw [Json.render, String.toList_ofList, Json.renderChars]

theorem isCustomJson_render (m : JsonObject) : XrayConfig.isCustomJson (Json.obj m).render = true := by
  unfold XrayConfig.isCustomJson
  rw [toList_render, List.cons_append, List.dropWhile_cons_of_neg (by decide)]
  rfl

theorem trim_render (m : JsonObject) : trim (Json.obj m).render = (Json.obj m).render := by
  refine trim_eq_self (fun c hc => ?_) fun c hc => ?_
  · rw [toList_render] at hc
    obtain rfl := Option.some.inj hc
    decide
  · rw [toList_render, List.getLast?_concat] at hc
    obtain rfl := Option.some.inj hc
    decide

/-- There is no link in a document: its slashes are escaped. -/
theorem noScheme_render {v : Json} (h : v.plain = true) : ¬ [':', '/'] <:+: v.render.toList := by
  rintro ⟨front, rest, hsplit⟩
  rw [Json.render, String.toList_ofList] at hsplit
  have hlast := Json.escaped_renderChars v h (front ++ [':']) rest (by rw [← hsplit]; simp)
  rw [List.getLast?_concat] at hlast
  exact absurd (Option.some.inj hlast) (by decide)

theorem extractLinks_render {m : JsonObject} (hplain : (Json.obj m).plain = true)
    (hbytes : decodeBase64 (Json.obj m).render = none) : extractLinks (Json.obj m).render = [] := by
  unfold extractLinks
  dsimp only
  rw [trim_render, linksIn_of_noScheme (noScheme_render hplain), hbytes]
  exact ite_self []

theorem entryOf_manifestEntry (m : JsonObject) :
    ZipImport.entryOf (manifestEntry m) = ⟨"manifest", (Json.obj m).render, false⟩ := by
  have hbackup : ZipImport.isIkev2Backup (manifestEntry m) = false := by
    have hfront : "ikev2/".toList.isPrefixOf (manifestEntry m).path = false := by
      unfold ZipEntry.path
      rw [show (manifestEntry m).name = "manifest.json" from rfl]
      decide
    unfold ZipImport.isIkev2Backup
    rw [hfront, Bool.false_and]
  have hbytes : utf8String (manifestEntry m).bytes = (Json.obj m).render := utf8String_toByteArray _
  have hname : String.ofList "manifest".toList = "manifest" := String.ofList_toList
  unfold ZipImport.entryOf
  rw [hbytes, hbackup, base_manifestEntry, ← hname]
  rfl

/-- **The manifest is a `.json` file, and is tried as a config, too.** It is no custom config, and holds no
    link, but it may be base64 of a list of links. -/
theorem stored_manifestEntry {pf : Platform} (h : WrittenItems src b items) (profiles : List Profile) :
    VpnEngine.stored pf (ZipImport.entryOf (manifestEntry (manifest src profiles b)))
      = if 1 < (extractLinks (Json.obj (manifest src profiles b)).render).length then
          (extractLinks (Json.obj (manifest src profiles b)).render).countP fun l => (parse pf.doubles l).isSome
        else 0 := by
  have hplain := plain_manifest h profiles
  have hread : Json.ofText pf.doubles (utf8String (manifestEntry (manifest src profiles b)).bytes)
      = some (manifest src profiles b) := ofText_manifestEntry hplain
  have houtbounds : (manifest src profiles b).optArray "outbounds" = none := rfl
  generalize manifest src profiles b = m at hplain hread houtbounds ⊢
  have hvalid : XrayConfig.isValidCustomJson pf.doubles (Json.obj m).render = false := by
    unfold manifestEntry at hread
    rw [utf8String_toByteArray] at hread
    unfold XrayConfig.isValidCustomJson
    rw [hread]
    dsimp only
    rw [houtbounds]
    rfl
  have hhanded : handed ⟨"manifest", (Json.obj m).render, false⟩ = [(Json.obj m).render] := by
    unfold handed
    rw [entryLinks_of_noScheme (noScheme_render hplain)]
    rfl
  rw [entryOf_manifestEntry, VpnEngine.stored, if_neg Bool.false_ne_true, hhanded, List.map_singleton,
    List.sum_singleton]
  unfold profilesIn
  rw [not_looksLikeShareLink_of_isCustomJson (isCustomJson_render m), isCustomJson_render, trim_render, hvalid]
  rfl

end Manifest

/-! ## 3. The restore -/

/-- An item comes back under its name: it is stored under the base of its entry, or under its own name,
    where that is the base of no entry of its protocol. -/
def ComesBack (items : List Item) (a : Item × String) : Prop :=
  a.2 = a.1.base ∨
    a.2 = a.1.record.name ∧ ∀ j ∈ items, j.record.protocol = a.1.record.protocol → j.base ≠ a.2

/-- Where the profiles are restored as they were: the manifest is found, and is no config itself; no name is
    blank, and none of an entry that is looked for by its extension starts with a dot; the texts are
    recognised; the names come back; credentials that are blank are those that stand in the text; the
    certificates get their aliases again. -/
structure RoundTrips (pf : Platform) (src : Sources) (records : List Saved) : Prop where
  unshadowed : Unshadowed src (records.map Saved.profile)
  inert : ∀ m, writtenManifest src (records.map Saved.profile) = some m →
    (extractLinks (Json.obj m).render).length ≤ 1 ∨ ∀ l ∈ extractLinks (Json.obj m).render, parse pf.doubles l = none
  named : ∀ q ∈ records, isBlank q.name = false
  visible : ∀ q ∈ records, q.protocol ≠ .ikev2 → (safeName q.name).toList.head? ≠ some '.'
  recognised : ∀ q ∈ records, q.protocol ≠ .ikev2 → ∀ text, src.text q.profile = some text →
    isBlank text = false ∧ Recognised pf text q.protocol
  names : ∀ a ∈ arrivalsFrom pf.doubles [] (itemsOf src records), ComesBack (itemsOf src records) a
  credentials : ∀ q ∈ records, q.protocol = .openvpn → isBlank q.credentials.username = true →
    isBlank q.credentials.password = true → ∀ text, src.text q.profile = some text →
      pf.parseOpenVpn text = some q.credentials
  certificates : ∀ q ∈ records, q.protocol = .ikev2 → ∀ p, src.state.ikev2.profile q.uuid = some p →
    Reinstalled pf src.certs p

section Restore

variable {pf : Platform} {src : Sources} {b : Backup} {items : List Item} {records : List Saved}

theorem map_fst_arrivalsFrom (doubles : Doubles) (taken : List String) (items : List Item) :
    (arrivalsFrom doubles taken items).map Prod.fst = items := by
  induction items generalizing taken with
  | nil => rfl
  | cons i items ih => rw [arrivalsFrom, List.map_cons, ih]

/-- **The name comes back.** -/
theorem name_restored (h : WrittenItems src b items) {a : Item × String} (ha : a.1 ∈ items)
    (hname : isBlank a.1.record.name = false) (hback : ComesBack items a) (profiles : List Profile) :
    (originalName (manifest src profiles b) (arrived pf a).profile).getD a.2 = a.1.record.name := by
  have hkey : key (arrived pf a).profile = entryKey (dirName a.1.record.protocol) a.2 := rfl
  rcases hback with hbase | ⟨hown, hnone⟩
  · rw [hbase] at hkey
    rw [h.originalName_of_item ha hname hkey, hbase]
    unfold notedName
    split
    · rfl
    · rename_i hsame
      exact not_not.1 hsame
  · have hne : ∀ j ∈ items, j.key ≠ key (arrived pf a).profile := by
      intro j hj he
      rw [hkey] at he
      obtain ⟨hd, hbase⟩ := entryKey_inj he
      exact hnone j hj hd hbase
    rw [h.originalName_of_ne hne]
    exact hown

/-- **The credentials come back.** -/
theorem credentials_restored (hs : src.Kept) (hexported : Exported pf src records)
    (hwhen : RoundTrips pf src records) (h : WrittenItems src b items) {a : Item × String} (ha : a.1 ∈ items)
    (hrecord : a.1.record ∈ records) (htext : src.text a.1.record.profile = some a.1.text)
    (hplain : a.1.record.protocol = .openvpn → a.2 = a.1.base) (profiles : List Profile) :
    (if a.1.record.protocol = .openvpn then
      (credentialsFor (manifest src profiles b) (arrived pf a).profile).getD (arrived pf a).credentials
      else (arrived pf a).credentials) = a.1.record.credentials := by
  have hmem := hexported.saved.subset hrecord
  by_cases hd : a.1.record.protocol = .openvpn
  · have hkey : key (arrived pf a).profile = a.1.key := by
      show entryKey (dirName a.1.record.protocol) a.2 = _
      rw [hplain hd]
      rfl
    have hnoted := credentials_of_mem hs.distinct hmem hd
    rw [if_pos hd]
    cases hblank : isBlank a.1.record.credentials.username && isBlank a.1.record.credentials.password with
    | true =>
      rw [hblank, if_pos rfl] at hnoted
      rw [h.credentialsFor_of_item ha hkey profiles hnoted fun c' hc' => by cases hc']
      rw [Bool.and_eq_true] at hblank
      have hinline := hwhen.credentials _ hrecord hd hblank.1 hblank.2 _ htext
      simp [arrived, hd, hinline]
    | false =>
      rw [hblank, if_neg Bool.false_ne_true] at hnoted
      rw [h.credentialsFor_of_item ha hkey profiles hnoted fun c' hc' => by
        obtain rfl := Option.some.inj hc'
        exact hblank]
      rfl
  · rw [if_neg hd, credentials_of_ne hmem hd]
    simp [arrived, hd]

/-- **What has arrived is restored to what was exported.** -/
theorem restored_arrived (hs : src.Kept) (hexported : Exported pf src records)
    (hwhen : RoundTrips pf src records) (h : WrittenItems src b (itemsOf src records)) {a : Item × String}
    (ha : a ∈ arrivalsFrom pf.doubles [] (itemsOf src records))
    (hplain : a.1.record.protocol = .openvpn → a.2 = a.1.base) :
    restored (manifest src (records.map Saved.profile) b) (arrived pf a).profile (arrived pf a)
      = a.1.record.anonymous := by
  have hitem : a.1 ∈ itemsOf src records := by
    have hmem := List.mem_map_of_mem (f := Prod.fst) ha
    rwa [map_fst_arrivalsFrom] at hmem
  have hrecord : a.1.record ∈ records := by
    have hmem := List.mem_map_of_mem (f := Item.record) hitem
    rwa [itemsOf, map_record_itemsFrom] at hmem
  have hsome : ∀ q ∈ records, (src.text q.profile).isSome := by
    intro q hq
    obtain ⟨text, htext, -⟩ := hexported.accepted q hq
    rw [htext]
    rfl
  have hname : (originalName (manifest src (records.map Saved.profile) b) (arrived pf a).profile).getD a.2
      = a.1.record.name :=
    name_restored h hitem (hwhen.named _ hrecord) (hwhen.names a ha) (records.map Saved.profile)
  have hcredentials := credentials_restored hs hexported hwhen h hitem hrecord
    (text_of_mem_itemsFrom hsome hitem) hplain (records.map Saved.profile)
  have hstar : decide ((originalName (manifest src (records.map Saved.profile) b) (arrived pf a).profile).getD
      (arrived pf a).profile.name ∈ favNames (manifest src (records.map Saved.profile) b))
      = a.1.record.isFavourite := by
    have hread : (originalName (manifest src (records.map Saved.profile) b) (arrived pf a).profile).getD
        (arrived pf a).profile.name = a.1.record.name := hname
    rw [hread, Bool.eq_iff_iff, decide_eq_true_iff]
    exact mem_favNames_iff hexported.names hrecord
  have hread : (originalName (manifest src (records.map Saved.profile) b) (arrived pf a).profile).getD
      (arrived pf a).name = a.1.record.name := hname
  unfold restored Saved.anonymous
  rw [hread, hstar]
  show Saved.mk "" a.1.record.protocol a.1.record.name a.1.record.content _ _ = _
  rw [show (arrived pf a).protocol = a.1.record.protocol from rfl, hcredentials]
  rfl

/-- What is written of the profiles is what their importers store again. -/
theorem ready_of_exported (hs : src.Kept) (hexported : Exported pf src records)
    (hwhen : RoundTrips pf src records) (h : WrittenItems src b items) {i : Item} (hi : i ∈ items)
    (hrecord : i.record ∈ records) (htext : src.text i.record.profile = some i.text) :
    Ready pf src.certs i where
  base := h.isBlank_base hi
  content hd := content_of_mem hs.distinct (hexported.saved.subset hrecord) hd htext
  trimmed hd := trimmed_of_mem hs (hexported.saved.subset hrecord) hd htext
  accepted := by
    obtain ⟨text, hread, haccepted⟩ := hexported.accepted _ hrecord
    rw [Option.some.inj (htext.symm.trans hread)]
    exact haccepted
  recognised hd := (hwhen.recognised _ hrecord hd _ htext).2
  ikev2 hd := by
    obtain ⟨p, hp, hdump⟩ := dump_of_mem hs (hexported.saved.subset hrecord) hd htext
    exact ⟨hwhen.named _ hrecord, p, hdump, hwhen.certificates _ hrecord hd p hp⟩

theorem isBlank_dump {i : Item} {certs : Certificates} {q : Ikev2Profile} (h : IsDump certs i q) :
    isBlank i.text = false := by
  rw [h.text, isBlank, Json.layOut, String.toList_ofList]
  rfl

/-- An import that adds no profile changes nothing that is saved. -/
theorem saved_of_size_zero {s s' : AppState} {new : NewProfiles} (h : Grown pf s s' new) (hsize : new.size = 0) :
    s'.saved pf = s.saved pf := by
  unfold NewProfiles.size at hsize
  have ho : new.openVpn = [] := List.length_eq_zero_iff.1 (by omega)
  have hw : new.wireGuard = [] := List.length_eq_zero_iff.1 (by omega)
  have hx : new.xray = [] := List.length_eq_zero_iff.1 (by omega)
  have hi : new.ikev2 = [] := List.length_eq_zero_iff.1 (by omega)
  have hopen := h.openVpn.profiles
  have hwire := h.wireGuard.files
  have hxray := h.xray.files
  have hrows := h.ikev2.rows
  rw [ho, List.append_nil] at hopen
  rw [hw, List.append_nil] at hwire
  rw [hx, List.append_nil] at hxray
  rw [hi, List.append_nil] at hrows
  have hwnames : ∀ u, s'.wireGuard.names u = s.wireGuard.names u :=
    fun u => h.wireGuard.names u (by rw [hw]; exact List.not_mem_nil)
  have hxnames : ∀ u, s'.xray.names u = s.xray.names u :=
    fun u => h.xray.names u (by rw [hx]; exact List.not_mem_nil)
  simp only [AppState.saved, AppState.savedOpenVpn, AppState.savedWireGuard, AppState.savedXray,
    AppState.savedIkev2, WireGuardStore.name, XrayStore.name, hopen, hwire, hxray, hrows, hwnames, hxnames,
    h.favourites]

/-- Nothing has arrived in an app without profiles. -/
theorem arrived_nil {s : AppState} (hempty : s.uuids = []) (hfresh : s.Fresh pf)
    (hstars : ∀ p n, pf.newUuid p n ∉ s.favourites) : Arrived pf s [] where
  fresh := hfresh
  distinct := by
    unfold AppState.Distinct
    rw [hempty]
    exact List.nodup_nil
  unstarred := hstars
  saved d := by
    have hnone : s.savedOf pf d = [] := by
      refine List.eq_nil_iff_forall_not_mem.2 fun q hq => ?_
      have hmem : q ∈ s.saved pf := by
        unfold AppState.saved
        simp only [List.mem_append]
        cases d with
        | openvpn => exact .inl (.inl (.inl hq))
        | wireguard => exact .inl (.inl (.inr hq))
        | xray => exact .inl (.inr hq)
        | ikev2 => exact .inr hq
      have huuid := (AppState.uuids_saved_sublist pf s).subset (List.mem_map_of_mem hmem)
      rw [hempty] at huuid
      exact absurd huuid List.not_mem_nil
    rw [hnone]
    rfl
  plain a ha := absurd ha List.not_mem_nil

/-- What is behind the items adds nothing. -/
theorem foldl_tail {s : AppState} (hfresh : s.Fresh pf) (hdistinct : s.Distinct) {tail : List ZipImport.Entry}
    {e : ZipImport.Entry} (htail : tail = [] ∨ tail = [e]) (hinert : VpnEngine.stored pf e = 0) (n : Nat) :
    ∃ s' n', tail.foldl (importEntry pf) (s, n) = (s', n') ∧ n ≤ n' ∧ s'.saved pf = s.saved pf ∧ s'.Distinct := by
  rcases htail with rfl | rfl
  · exact ⟨s, n, rfl, Nat.le_refl n, rfl, hdistinct⟩
  · obtain ⟨⟨new, hgrown, hsize⟩, hcount⟩ := importEntry_gains (s, n) hfresh e
    have hle : n ≤ (importEntry pf (s, n) e).2 := by
      rw [hcount]
      exact Nat.le_add_right _ _
    exact ⟨(importEntry pf (s, n) e).1, (importEntry pf (s, n) e).2, rfl, hle,
      saved_of_size_zero hgrown (hsize.trans hinert), hgrown.distinct hfresh hdistinct⟩

/-- An archive that holds nothing to import leaves everything as it was. -/
theorem saved_restore {s : AppState} (hfresh : s.Fresh pf) {archive : List ZipEntry}
    (hnone : ∀ e ∈ ZipImport.readConfigs archive, VpnEngine.stored pf e = 0) :
    (restore pf s archive).saved pf = s.saved pf := by
  obtain ⟨⟨new, hgrown, hsize⟩, hcount⟩ := importZip_gains hfresh archive
  have hstored : ((ZipImport.readConfigs archive).map (VpnEngine.stored pf)).sum = 0 :=
    List.sum_eq_zero fun n hn => by
      obtain ⟨e, he, rfl⟩ := List.mem_map.1 hn
      exact hnone e he
  have hcounted : ((ZipImport.readConfigs archive).map (VpnEngine.counted pf)).sum = 0 :=
    List.sum_eq_zero fun n hn => by
      obtain ⟨e, he, rfl⟩ := List.mem_map.1 hn
      exact Nat.le_zero.1 (hnone e he ▸ counted_le e)
  rw [hstored] at hsize
  rw [hcounted] at hcount
  unfold restore
  dsimp only
  rw [hcount, if_neg (Nat.lt_irrefl 0)]
  exact saved_of_size_zero hgrown hsize

/-- The items, read and imported: the stores hold what has arrived, and the manifest is applied. -/
theorem restore_items (hs : src.Kept) (hexported : Exported pf src records) (hsome : records ≠ [])
    (hwhen : RoundTrips pf src records) (h : WrittenItems src b (itemsOf src records))
    (hadd : addProfiles src (records.map Saved.profile) = some b)
    (htext : ∀ q ∈ records, (src.text q.profile).isSome) {s : AppState} (hempty : s.uuids = [])
    (hfresh : s.Fresh pf) (hstars : ∀ p n, pf.newUuid p n ∉ s.favourites) :
    ∃ s₁ s₂, Arrived pf s₁ (arrivalsFrom pf.doubles [] (itemsOf src records)) ∧
      s₂.saved pf = s₁.saved pf ∧ s₂.Distinct ∧
      restore pf s (b.entries ++ [manifestEntry (manifest src (records.map Saved.profile) b)])
        = applyManifest (manifest src (records.map Saved.profile) b) s₂ (s₂.allProfiles pf) := by
  have hrecords : (itemsOf src records).map Item.record = records := map_record_itemsFrom [] records
  have hitems : ∀ i ∈ itemsOf src records, i.record ∈ records ∧ src.text i.record.profile = some i.text := by
    intro i hi
    refine ⟨?_, text_of_mem_itemsFrom htext hi⟩
    have hmem := List.mem_map_of_mem (f := Item.record) hi
    rwa [hrecords] at hmem
  have hlength : (itemsOf src records).length = records.length := by rw [← List.length_map (f := Item.record), hrecords]
  have hready : ∀ i ∈ itemsOf src records, Ready pf src.certs i :=
    fun i hi => ready_of_exported hs hexported hwhen h hi (hitems i hi).1 (hitems i hi).2
  have hsize : ∀ i ∈ itemsOf src records, (toByteArray i.text).length = src.size i.record := by
    intro i hi
    rw [Sources.size, (hitems i hi).2]
    rfl
  have htotal : ((itemsOf src records).map fun i => (toByteArray i.text).length) = records.map src.size := by
    conv_rhs => rw [← hrecords, List.map_map]
    exact List.map_congr_left hsize
  have hblank : ∀ i ∈ itemsOf src records, isBlank i.text = false := by
    intro i hi
    by_cases hd : i.record.protocol = .ikev2
    · obtain ⟨-, q, hdump, -⟩ := (hready i hi).ikev2 hd
      exact isBlank_dump hdump
    · exact (hwhen.recognised _ (hitems i hi).1 hd _ (hitems i hi).2).1
  have hmanifest : writtenManifest src (records.map Saved.profile)
      = some (manifest src (records.map Saved.profile) b) := by
    rw [writtenManifest, hadd]
    rfl
  have hprofiles : ((itemsOf src records).map fun i => (i.key, i.record.profile)).map Prod.snd
      = src.stored (records.map Saved.profile) := by
    have hall : src.stored (records.map Saved.profile) = records.map Saved.profile := by
      refine List.filter_eq_self.2 fun p hp => ?_
      obtain ⟨q, hq, rfl⟩ := List.mem_map.1 hp
      exact htext q hq
    rw [hall, List.map_map]
    conv_rhs => rw [← hrecords, List.map_map]
    rfl
  have hinert : VpnEngine.stored pf
      (ZipImport.entryOf (manifestEntry (manifest src (records.map Saved.profile) b))) = 0 := by
    rw [stored_manifestEntry h]
    rcases hwhen.inert _ hmanifest with hfew | hnone
    · exact if_neg (Nat.not_lt.2 hfew)
    · rw [ite_eq_right_iff]
      intro _
      refine List.countP_eq_zero.2 fun l hl => ?_
      rw [hnone l hl]
      exact Bool.false_ne_true
  -- what is read of the archive
  generalize hm : manifest src (records.map Saved.profile) b = m at hmanifest hinert ⊢
  obtain ⟨tail, hread, htail⟩ := readConfigs_items h (fun i hi => (hitems i hi).2)
    (hlength ▸ hexported.count) (fun i hi => (hsize i hi).trans_le (hexported.small _ (hitems i hi).1))
    (htotal ▸ hexported.total) hblank (fun i hi => hwhen.visible _ (hitems i hi).1) (manifestEntry m)
  have hreadManifest : readManifest pf.doubles (b.entries ++ [manifestEntry m]) = some m := by
    rw [← hm]
    exact readManifest_eq h ((Written.unshadowed_iff h hprofiles).1 hwhen.unshadowed)
  -- what is imported
  obtain ⟨s₁, hfold, harrived⟩ := foldl_importEntry_items (arrived_nil hempty hfresh hstars) hready
    (by simpa using h.nodup_keys) 0
  obtain ⟨s₂, n, htailFold, hcount, hsaved, hdistinct⟩ :=
    foldl_tail harrived.fresh harrived.distinct htail hinert (0 + (itemsOf src records).length)
  have himported : importZip pf s (b.entries ++ [manifestEntry m]) = (s₂, n, none) := by
    have hne : (ZipImport.readConfigs (b.entries ++ [manifestEntry m])).isEmpty = false := by
      rw [hread, List.isEmpty_eq_false_iff]
      intro hnil
      have hzero := congrArg List.length hnil
      rw [List.length_append, List.length_map, hlength, List.length_nil] at hzero
      exact hsome (List.length_eq_zero_iff.1 (by omega))
    unfold importZip
    dsimp only
    rw [hne, if_neg Bool.false_ne_true, hread, List.foldl_append, hfold, htailFold]
  have hpos : 0 < n := by
    have hrecordsPos := List.length_pos_iff.2 hsome
    omega
  refine ⟨s₁, s₂, harrived, hsaved, hdistinct, ?_⟩
  unfold restore
  rw [himported]
  dsimp only
  rw [if_pos hpos, hreadManifest]

/-- **The profiles of a backup are restored as they were**, their uuids aside, into an app without profiles. -/
theorem restore_exportAll (hs : src.Kept) (hexported : Exported pf src records) (hsome : records ≠ [])
    {s : AppState} (hempty : s.uuids = []) (hfresh : s.Fresh pf)
    (hstars : ∀ p n, pf.newUuid p n ∉ s.favourites) (hwhen : RoundTrips pf src records) :
    ∃ archive, exportAll src (records.map Saved.profile) = some archive ∧
      (((restore pf s archive).saved pf).map Saved.anonymous).Perm (records.map Saved.anonymous) := by
  have htext : ∀ q ∈ records, (src.text q.profile).isSome := by
    intro q hq
    obtain ⟨text, htext, -⟩ := hexported.accepted q hq
    rw [htext]
    rfl
  have hstored : src.stored (records.map Saved.profile) ≠ [] := by
    obtain ⟨q, hq⟩ := List.exists_mem_of_ne_nil records hsome
    exact List.ne_nil_of_mem (List.mem_filter.2 ⟨List.mem_map_of_mem hq, htext q hq⟩)
  have hlength : (records.map Saved.profile).length ≤ 32000 := by
    rw [List.length_map]
    exact Nat.le_trans hexported.count (by decide)
  obtain ⟨b, hadd, h⟩ := Written.of_items htext
  obtain ⟨archive, hexport⟩ := exportAll_isSome hstored hlength
  refine ⟨archive, hexport, ?_⟩
  rw [exportAll_eq_some hexport hadd]
  obtain ⟨s₁, s₂, harrived, hsaved, hdistinct, hrestore⟩ :=
    restore_items hs hexported hsome hwhen h hadd htext hempty hfresh hstars
  have hanonymous : ∀ q : Saved, (restored (manifest src (records.map Saved.profile) b) q.profile q).anonymous
      = restored (manifest src (records.map Saved.profile) b) q.anonymous.profile q.anonymous := fun q => rfl
  -- record by record, whatever their uuids
  have hperm := harrived.saved_perm.map fun q => restored (manifest src (records.map Saved.profile) b) q.profile q
  rw [hrestore, saved_applyManifest hdistinct, hsaved, List.map_map]
  have hleft : (s₁.saved pf).map (Saved.anonymous ∘ fun q => restored (manifest src (records.map Saved.profile) b)
      q.profile q) = ((s₁.saved pf).map Saved.anonymous).map fun q =>
        restored (manifest src (records.map Saved.profile) b) q.profile q := by
    rw [List.map_map]
    exact List.map_congr_left fun q _ => hanonymous q
  have hright : ((arrivalsFrom pf.doubles [] (itemsOf src records)).map (arrived pf)).map
      (fun q => restored (manifest src (records.map Saved.profile) b) q.profile q)
      = records.map Saved.anonymous := by
    have hrecords : (itemsOf src records).map Item.record = records := map_record_itemsFrom [] records
    have hitems := map_fst_arrivalsFrom pf.doubles [] (itemsOf src records)
    conv_rhs => rw [← hrecords, ← hitems, List.map_map, List.map_map]
    rw [List.map_map]
    refine List.map_congr_left fun a ha => ?_
    exact restored_arrived hs hexported hwhen h ha fun hd => harrived.plain a ha (.inr hd)
  rw [hleft, ← hright]
  exact hperm

end Restore

/-! ## 4. A profile that comes back, and one that does not -/

/-- One WireGuard profile. -/
def confSources (name : String) : Sources where
  state := { emptyState with
    wireGuard :=
      { files := [⟨"wu", sampleConf "# office"⟩]
        names := fun u => if u = "wu" then some name else none
        drawn := 1 } }
  certs := sampleCertificates
  dumps _ := none

/-- What is saved of it. -/
def confRecord (name : String) : Saved where
  uuid := "wu"
  protocol := .wireguard
  name := name
  content := .text (some (sampleConf "# office"))
  isFavourite := false

theorem text_confRecord (name : String) :
    (confSources name).text (confRecord name).profile = some (sampleConf "# office") := rfl

theorem kept_confSources (name : String) : (confSources name).Kept where
  distinct := List.nodup_singleton _
  inRange _ h := absurd h List.not_mem_nil
  trimmed _ h := absurd h List.not_mem_nil

theorem accepts_sampleConf : samplePlatform.parseWireGuard (sampleConf "# office") = true := by decide +kernel

theorem saved_confSources (name : String) : (confSources name).state.saved samplePlatform = [confRecord name] := by
  have hfiles : ([⟨"wu", sampleConf "# office"⟩] : List WireGuardFile).filter
      (fun f => samplePlatform.parseWireGuard f.text) = [⟨"wu", sampleConf "# office"⟩] :=
    List.filter_cons_of_pos accepts_sampleConf
  have hsaved : (confSources name).state.savedWireGuard samplePlatform = [confRecord name] := by
    show (([⟨"wu", sampleConf "# office"⟩] : List WireGuardFile).filter
      (fun f => samplePlatform.parseWireGuard f.text)).map _ = _
    rw [hfiles]
    rfl
  have hopen : (confSources name).state.savedOpenVpn = [] := rfl
  have hxray : (confSources name).state.savedXray samplePlatform = [] := rfl
  have hrows : (confSources name).state.savedIkev2 = [] := rfl
  rw [AppState.saved, hsaved, hopen, hxray, hrows]
  rfl

theorem size_confRecord (name : String) : (confSources name).size (confRecord name) = 101 := by
  rw [Sources.size, text_confRecord, Option.map_some, Option.getD_some]
  exact length_sampleConf

theorem exported_confRecord (name : String) : Exported samplePlatform (confSources name) [confRecord name] where
  saved := by rw [saved_confSources]
  count := by
    show 1 ≤ 499
    decide
  names := List.nodup_singleton _
  accepted q hq := by
    obtain rfl := List.mem_singleton.1 hq
    refine ⟨_, text_confRecord name, ?_⟩
    exact accepts_sampleConf
  small q hq := by
    obtain rfl := List.mem_singleton.1 hq
    rw [size_confRecord]
    decide
  total := by
    rw [List.map_singleton, List.sum_singleton, size_confRecord]
    decide

/-- No link is read out of the manifest. -/
theorem extractLinks_manifest {name : String}
    (hbytes : ((writtenManifest (confSources name) [(confRecord name).profile]).all fun m =>
      (decodeBase64 (Json.obj m).render).isNone) = true) {m : JsonObject}
    (hm : writtenManifest (confSources name) [(confRecord name).profile] = some m) :
    extractLinks (Json.obj m).render = [] := by
  have hplain : (Json.obj m).plain = true := by
    obtain ⟨b, written, hadd, h, -⟩ := addProfiles_written (confSources name) [(confRecord name).profile]
    rw [writtenManifest, hadd, Option.map_some, Option.some.injEq] at hm
    rw [← hm]
    exact plain_manifest h _
  rw [hm, Option.all_some, Option.isNone_iff_eq_none] at hbytes
  exact extractLinks_render hplain hbytes

theorem recognised_sampleConf : Recognised samplePlatform (sampleConf "# office") .wireguard where
  batch := by
    rw [extractLinks_sampleConf]
    exact Nat.zero_le 1
  lines := by
    rw [entryLinks_of_not_mem not_mem_sampleConf]
    exact Nat.zero_le 1
  xray := by
    rw [looksLikeShareLink_of_not_mem not_mem_sampleConf, isCustomJson_sampleConf]
    decide
  wireGuard _ := .inr rfl
  openVpn h := by cases h

theorem roundTrips_office : RoundTrips samplePlatform (confSources "the office") [confRecord "the office"] where
  unshadowed := by
    constructor
    · intro p hp hd
      obtain rfl := List.mem_singleton.1 hp
      cases hd
    · intro p hfirst
      have hp := List.mem_singleton.1 (List.mem_of_find?_eq_some hfirst)
      have hcalled := called_iff.1 (List.find?_some hfirst)
      rw [hp] at hcalled
      cases hcalled.1
  inert m hm := by
    left
    rw [extractLinks_manifest _ hm]
    · exact Nat.zero_le 1
    · unfold decodeBase64
      simp only [toList_render]
      decide +kernel
  named q hq := by
    obtain rfl := List.mem_singleton.1 hq
    show isBlank "the office" = false
    decide
  visible q hq _ := by
    obtain rfl := List.mem_singleton.1 hq
    show (safeName "the office").toList.head? ≠ some '.'
    decide +kernel
  recognised q hq _ text htext := by
    obtain rfl := List.mem_singleton.1 hq
    obtain rfl := Option.some.inj ((text_confRecord _).symm.trans htext)
    exact ⟨isBlank_sampleConf, recognised_sampleConf⟩
  names a ha := by
    obtain rfl := List.mem_singleton.1 ha
    exact .inl rfl
  credentials q hq hd := by
    obtain rfl := List.mem_singleton.1 hq
    cases hd
  certificates q hq hd := by
    obtain rfl := List.mem_singleton.1 hq
    cases hd

/-- A profile comes back under its name, of which the name of its entry has lost the blank. -/
theorem restore_exportAll_office : ∃ archive,
    exportAll (confSources "the office") [(confRecord "the office").profile] = some archive ∧
      (((restore samplePlatform emptyState archive).saved samplePlatform).map Saved.anonymous).Perm
        [(confRecord "the office").anonymous] :=
  restore_exportAll (kept_confSources "the office") (exported_confRecord "the office")
    (List.cons_ne_nil _ _) rfl emptyState_fresh (fun _ _ => List.not_mem_nil) roundTrips_office

/-- **A profile whose name starts with a dot is lost**: its entry is passed over. -/
theorem restore_loses_profile : (confSources ".office").Kept ∧
    Exported samplePlatform (confSources ".office") [confRecord ".office"] ∧ emptyState.uuids = [] ∧
    emptyState.Fresh samplePlatform ∧ ∃ archive,
      exportAll (confSources ".office") [(confRecord ".office").profile] = some archive ∧
      ¬ (((restore samplePlatform emptyState archive).saved samplePlatform).map Saved.anonymous).Perm
        [(confRecord ".office").anonymous] := by
  refine ⟨kept_confSources _, exported_confRecord _, rfl, emptyState_fresh, ?_⟩
  have htext : ∀ q ∈ [confRecord ".office"], ((confSources ".office").text q.profile).isSome := by
    intro q hq
    obtain rfl := List.mem_singleton.1 hq
    rfl
  obtain ⟨b, hadd, hwritten⟩ := Written.of_items htext
  rw [List.map_singleton] at hadd
  have h : WrittenItems (confSources ".office") b (itemsOf (confSources ".office") [confRecord ".office"]) := hwritten
  obtain ⟨archive, hexport⟩ : ∃ archive,
      exportAll (confSources ".office") [(confRecord ".office").profile] = some archive := by
    refine exportAll_isSome (List.cons_ne_nil _ _) ?_
    rw [List.length_singleton]
    decide
  refine ⟨archive, hexport, ?_⟩
  rw [exportAll_eq_some hexport hadd]
  -- the only item
  obtain ⟨i, hitems⟩ : ∃ i, itemsOf (confSources ".office") [confRecord ".office"] = [i] := ⟨_, rfl⟩
  have hi : i ∈ itemsOf (confSources ".office") [confRecord ".office"] := hitems ▸ List.mem_singleton_self i
  have hrecord : i.record = confRecord ".office" := by
    have hrecords : (itemsOf (confSources ".office") [confRecord ".office"]).map Item.record
        = [confRecord ".office"] := map_record_itemsFrom [] _
    rw [hitems, List.map_singleton, List.cons.injEq] at hrecords
    exact hrecords.1
  have hentries : b.entries = [i.entry (confSources ".office")] := by
    rw [h.entries fun j hj => text_of_mem_itemsFrom htext hj, hitems]
    rfl
  have hpassed : ZipImport.isConfigFile (i.entry (confSources ".office")) = false := by
    refine not_isConfigFile_entry (h.isSafe_base hi) (by rw [hrecord]; decide) ?_
    rw [h.head?_base hi, hrecord]
    show (safeName ".office").toList.head? = some '.'
    decide +kernel
  -- what is left is the manifest
  have hnone : ∀ e ∈ ZipImport.readConfigs
      (b.entries ++ [manifestEntry (manifest (confSources ".office") [(confRecord ".office").profile] b)]),
      VpnEngine.stored samplePlatform e = 0 := by
    intro e he
    rw [hentries, List.singleton_append, ZipImport.readConfigs, ZipImport.readFrom_cons, if_neg (by decide),
      hpassed, Bool.not_false, if_pos rfl] at he
    rcases ZipImport.readFrom_singleton 1 0
      (manifestEntry (manifest (confSources ".office") [(confRecord ".office").profile] b)) with hread | hread
    · rw [hread] at he
      cases he
    · rw [hread, List.mem_singleton] at he
      have hlinks : extractLinks (Json.obj (manifest (confSources ".office") [(confRecord ".office").profile] b)).render
          = [] := by
        have hm : writtenManifest (confSources ".office") [(confRecord ".office").profile]
            = some (manifest (confSources ".office") [(confRecord ".office").profile] b) := by
          rw [writtenManifest, hadd]
          rfl
        refine extractLinks_manifest ?_ hm
        unfold decodeBase64
        simp only [toList_render]
        decide +kernel
      rw [he, stored_manifestEntry h, hlinks]
      rfl
  have hempty : emptyState.saved samplePlatform = [] := rfl
  rw [saved_restore emptyState_fresh hnone, hempty]
  exact fun hperm => absurd hperm.length_eq (by decide)

end BackupManager

end SwiftVpn
