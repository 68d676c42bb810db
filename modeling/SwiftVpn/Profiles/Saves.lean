/-
  File:      SwiftVpn/Profiles/Saves.lean
  Subject:   SAVES THAT FAIL: XrayStore.saveLink and WireGuardStore.saveConfig, whose write throws.

  * `XrayStore.Stored`, `Keeps` -- a profile that is read and listed once, and what is still read and
    listed afterwards; `WireGuardStore` has the same;
  * `Stored.keeps_writeFile_iff` -- when a file put over a profile, or beside it, keeps the profile;
  * `saves_keep_iff` -- a save that fails keeps what was stored exactly where it wrote nothing, or
    nothing that matters;
  * `save_loses_profile` -- a write that fails behind the truncation.
-/
import SwiftVpn.Profiles.Files
import SwiftVpn.WireGuard.Config

namespace SwiftVpn

namespace XrayStore

/-! ## 1. Xray profiles -/

/-- The rows of a uuid. -/
def rowsOf (doubles : Doubles) (s : XrayStore) (uuid : Uuid) : List XrayRow :=
  (s.rows doubles).filter (·.uuid == uuid)

/-- The file `f` is what is read of its profile, and `row` is all the list shows of it. -/
structure Stored (doubles : Doubles) (s : XrayStore) (f : XrayFile) (row : XrayRow) : Prop where
  directory : s.Directory
  read : s.storedFile f.uuid = some f
  shown : s.toProfile doubles f = some row
  listed : s.rowsOf doubles f.uuid = [row]

/-- The same is read and shown. -/
structure Keeps (doubles : Doubles) (s : XrayStore) (f : XrayFile) (row : XrayRow) : Prop where
  text : s.link f.uuid = some f.text
  listed : s.rowsOf doubles f.uuid = [row]

section Fault

variable {doubles : Doubles} {s : XrayStore} {f : XrayFile} {row : XrayRow}

/-- The rows of a uuid are those of its two files. -/
theorem Directory.rowsOf_perm (h : s.Directory) (doubles : Doubles) (uuid : Uuid) :
    (s.rowsOf doubles uuid).Perm
      (((s.fileOf uuid false).toList ++ (s.fileOf uuid true).toList).filterMap (s.toProfile doubles)) := by
  have hrows : ∀ fs : List XrayFile, (fs.filterMap (s.toProfile doubles)).filter (·.uuid == uuid)
      = (fs.filter (·.uuid == uuid)).filterMap (s.toProfile doubles) := by
    intro fs
    induction fs with
    | nil => rfl
    | cons g fs ih =>
      cases hg : s.toProfile doubles g with
      | none =>
        rw [List.filterMap_cons_none hg, ih, List.filter_cons]
        split
        · rw [List.filterMap_cons_none hg]
        · rfl
      | some r =>
        rw [List.filterMap_cons_some hg, List.filter_cons, List.filter_cons, toProfile_uuid hg, ih]
        split
        · rw [List.filterMap_cons_some hg]
        · rfl
  unfold rowsOf rows
  rw [hrows]
  refine List.Perm.filterMap _ ?_
  have hnodup : (s.files.filter (·.uuid == uuid)).Nodup :=
    (List.Nodup.of_map _ h).sublist List.filter_sublist
  refine (List.perm_ext_iff_of_nodup hnodup ?_).2 fun g => ?_
  · cases hl : s.fileOf uuid false with
    | none => cases s.fileOf uuid true <;> simp
    | some l =>
      cases hj : s.fileOf uuid true with
      | none => simp
      | some j =>
        have hne : l ≠ j := by
          rintro rfl
          have := (h.fileOf_eq_some.1 hl).2.2.symm.trans (h.fileOf_eq_some.1 hj).2.2
          cases this
        simp [hne]
  · rw [List.mem_filter, List.mem_append, Option.mem_toList, Option.mem_toList, h.fileOf_eq_some,
      h.fileOf_eq_some, beq_iff_eq]
    cases g.json <;> simp

theorem Directory.writeFile (h : s.Directory) (g : XrayFile) : (s.writeFile g).Directory := by
  unfold Directory XrayStore.writeFile
  rw [List.map_append, List.nodup_append]
  refine ⟨h.sublist (List.filter_sublist.map _), List.nodup_singleton _, ?_⟩
  intro x hx y hy hxy
  rw [List.map_singleton, List.mem_singleton] at hy
  obtain ⟨k, hk, rfl⟩ := List.mem_map.1 hx
  rw [hy, Prod.mk.injEq] at hxy
  have := (List.mem_filter.1 hk).2
  simp [hxy.1, hxy.2] at this

theorem Directory.fileOf_writeFile (h : s.Directory) (g : XrayFile) :
    (s.writeFile g).fileOf g.uuid g.json = some g :=
  (h.writeFile g).fileOf_eq_some.2 ⟨List.mem_append_right _ (List.mem_singleton_self g), rfl, rfl⟩

/-- The file of the other kind is left alone. -/
theorem Directory.fileOf_writeFile_not (h : s.Directory) (g : XrayFile) :
    (s.writeFile g).fileOf g.uuid (!g.json) = s.fileOf g.uuid (!g.json) := by
  ext k
  rw [(h.writeFile g).fileOf_eq_some, h.fileOf_eq_some]
  refine and_congr_left fun hk => ?_
  unfold XrayStore.writeFile
  rw [List.mem_append, List.mem_filter, List.mem_singleton]
  constructor
  · rintro (hm | rfl)
    · exact hm.1
    · exact absurd hk.2 (by cases k.json <;> simp)
  · intro hm
    refine .inl ⟨hm, ?_⟩
    rw [hk.1, hk.2]
    cases g.json <;> simp

/-- A row depends on the preferences and on what is read under its uuid. -/
theorem toProfile_congr {s' : XrayStore} (hnames : s'.names = s.names) (hsubs : s'.subs = s.subs)
    {g : XrayFile} (hlink : s'.link g.uuid = s.link g.uuid) :
    s'.toProfile doubles g = s.toProfile doubles g := by
  simp only [toProfile, describe, XrayStore.name, hlink, hnames, hsubs]

/-- What is read is the file of its kind; of the other kind there is none in front of it. -/
theorem Stored.file (h : Stored doubles s f row) :
    s.fileOf f.uuid f.json = some f ∧ (f.json = true → s.fileOf f.uuid false = none) := by
  have hread := h.read
  unfold storedFile at hread
  cases hl : s.fileOf f.uuid false with
  | none =>
    rw [hl, Option.none_or] at hread
    have hj := (h.directory.fileOf_eq_some.1 hread).2.2
    rw [hj]
    exact ⟨hread, fun _ => rfl⟩
  | some l =>
    rw [hl, Option.some_or] at hread
    have hj := (h.directory.fileOf_eq_some.1 (hl.trans hread)).2.2
    rw [hj, hl]
    exact ⟨hread, nofun⟩

/-- Every file of a sound store is that of a profile. -/
theorem Sound.stored {last : Uuid → Option String} (h : Sound doubles s.files last) (hf : f ∈ s.files) :
    ∃ row, Stored doubles s f row := by
  have hd := directory_of_nodup h.distinct
  have hread := storedFile_of_mem h.distinct hf
  have hfile : s.fileOf f.uuid f.json = some f := hd.fileOf_eq_some.2 ⟨hf, rfl, rfl⟩
  have hother : s.fileOf f.uuid (!f.json) = none := by
    rw [Option.eq_none_iff_forall_ne_some]
    intro g hg
    obtain ⟨hm, hu, hj⟩ := hd.fileOf_eq_some.1 hg
    rw [List.inj_on_of_nodup_map h.distinct hm hf hu] at hj
    cases hfj : f.json <;> simp [hfj] at hj
  obtain ⟨row, hrow⟩ := Option.isSome_iff_exists.1 (h.shown hf)
  refine ⟨row, hd, hread, hrow, ?_⟩
  have hperm := hd.rowsOf_perm doubles f.uuid
  cases hj : f.json with
  | false =>
    rw [hj] at hfile hother
    rw [hfile, ← Bool.not_false, hother] at hperm
    simp only [Option.toList_some, Option.toList_none, List.append_nil, List.filterMap_cons, hrow,
      List.filterMap_nil] at hperm
    exact List.perm_singleton.1 hperm
  | true =>
    rw [hj] at hfile hother
    rw [hfile, ← Bool.not_true, hother] at hperm
    simp only [Option.toList_some, Option.toList_none, List.nil_append, List.filterMap_cons, hrow,
      List.filterMap_nil] at hperm
    exact List.perm_singleton.1 hperm

/-- With the same two files the same is read and shown. -/
theorem Stored.keeps (h : Stored doubles s f row) {s' : XrayStore} (hd : s'.Directory)
    (hnames : s'.names = s.names) (hsubs : s'.subs = s.subs)
    (hfiles : ∀ json, s'.fileOf f.uuid json = s.fileOf f.uuid json) : Keeps doubles s' f row := by
  have hstored : s'.storedFile f.uuid = s.storedFile f.uuid := by
    unfold storedFile
    rw [hfiles, hfiles]
  have hlink : s'.link f.uuid = s.link f.uuid := by
    unfold link
    rw [hstored]
  refine ⟨?_, ?_⟩
  · rw [hlink]
    unfold link
    rw [h.read]
    rfl
  · have hperm := hd.rowsOf_perm doubles f.uuid
    rw [hfiles, hfiles] at hperm
    have hcongr : ((s.fileOf f.uuid false).toList ++ (s.fileOf f.uuid true).toList).filterMap
        (s'.toProfile doubles)
        = ((s.fileOf f.uuid false).toList ++ (s.fileOf f.uuid true).toList).filterMap
          (s.toProfile doubles) := by
      refine List.filterMap_congr fun g hg => toProfile_congr hnames hsubs ?_
      rw [List.mem_append, Option.mem_toList, Option.mem_toList, h.directory.fileOf_eq_some,
        h.directory.fileOf_eq_some] at hg
      have hu : g.uuid = f.uuid := by
        rcases hg with hg | hg <;> exact hg.2.1
      rw [hu, hlink]
    rw [hcongr] at hperm
    have := hperm.trans (h.directory.rowsOf_perm doubles f.uuid).symm
    rw [h.listed] at this
    exact List.perm_singleton.1 this

/-- Two files that are shown are two rows. -/
theorem Keeps.not_both (h : Keeps doubles s f row) (hd : s.Directory) {l j : XrayFile}
    (hl : s.fileOf f.uuid false = some l) (hj : s.fileOf f.uuid true = some j)
    (hls : (s.toProfile doubles l).isSome = true) : s.toProfile doubles j = none := by
  have hperm := hd.rowsOf_perm doubles f.uuid
  rw [h.listed, hl, hj] at hperm
  obtain ⟨rl, hrl⟩ := Option.isSome_iff_exists.1 hls
  cases hjs : s.toProfile doubles j with
  | none => rfl
  | some rj =>
    have hlen := hperm.length_eq
    simp [hrl, hjs] at hlen

/-- **A file put beside or over that of a profile keeps the profile** exactly where it is the same file,
    or one that the list does not show behind a link. -/
theorem Stored.keeps_writeFile_iff (h : Stored doubles s f row) {g : XrayFile} (hu : g.uuid = f.uuid) :
    Keeps doubles (s.writeFile g) f row ↔
      g = f ∨ (g.json = true ∧ f.json = false ∧
        (XrayConfig.isCustomJson g.text || (XrayShareLink.parse doubles g.text).isSome) = false) := by
  have hd := h.directory.writeFile g
  have hwritten := h.directory.fileOf_writeFile g
  have hother := h.directory.fileOf_writeFile_not g
  obtain ⟨hfile, hfirst⟩ := h.file
  rw [hu] at hwritten hother
  have hfshown : (XrayConfig.isCustomJson f.text || (XrayShareLink.parse doubles f.text).isSome) = true := by
    rw [← toProfile_isSome doubles s f, h.shown]
    rfl
  constructor
  · intro hk
    have htext := hk.text
    unfold link storedFile at htext
    cases hg : g.json with
    | false =>
      -- the link that was written is what is read
      rw [hg] at hwritten hother
      rw [hwritten, Option.some_or, Option.map_some, Option.some.injEq] at htext
      cases hf : f.json with
      | false => exact .inl (by cases g; cases f; simp_all)
      | true =>
        rw [hf] at hfile
        rw [Bool.not_false, hfile] at hother
        have hnone := hk.not_both hd hwritten hother (by rw [toProfile_isSome, htext, hfshown])
        have hsome := toProfile_isSome doubles (s.writeFile g) f
        rw [hnone, hfshown] at hsome
        cases hsome
    | true =>
      rw [hg] at hwritten hother
      rw [Bool.not_true] at hother
      cases hf : f.json with
      | false =>
        rw [hf] at hfile
        have hnone := hk.not_both hd (hother.trans hfile) hwritten (by rw [toProfile_isSome, hfshown])
        have hsome := toProfile_isSome doubles (s.writeFile g) g
        rw [hnone] at hsome
        exact .inr ⟨rfl, rfl, hsome.symm⟩
      | true =>
        rw [hother, hfirst hf, Option.none_or, hwritten, Option.map_some, Option.some.injEq] at htext
        exact .inl (by cases g; cases f; simp_all)
  · rintro (rfl | ⟨hg, hf, hnot⟩)
    · refine h.keeps hd rfl rfl fun json => ?_
      by_cases hj : json = g.json
      · rw [hj, hwritten, hfile]
      · have hj' : json = !g.json := by
          cases json <;> cases hgj : g.json <;> simp_all
        rw [hj', hother]
    · rw [hg] at hwritten hother
      rw [hf] at hfile
      rw [Bool.not_true, hfile] at hother
      have hlink : (s.writeFile g).link f.uuid = some f.text := by
        unfold link storedFile
        rw [hother]
        rfl
      have hsame : (s.writeFile g).link f.uuid = s.link f.uuid := by
        rw [hlink]
        unfold link
        rw [h.read]
        rfl
      refine ⟨hlink, ?_⟩
      have hperm := hd.rowsOf_perm doubles f.uuid
      have hnone : (s.writeFile g).toProfile doubles g = none := by
        rw [← Option.not_isSome_iff_eq_none, toProfile_isSome, hnot]
        exact Bool.false_ne_true
      have hnames : (s.writeFile g).names = s.names := rfl
      have hsubs : (s.writeFile g).subs = s.subs := rfl
      have hrow : (s.writeFile g).toProfile doubles f = some row := by
        rw [toProfile_congr hnames hsubs hsame, h.shown]
      rw [hother, hwritten] at hperm
      simp only [Option.toList_some, List.singleton_append, List.filterMap_cons, hrow, hnone,
        List.filterMap_nil] at hperm
      exact List.perm_singleton.1 hperm

theorem parse_empty (doubles : Doubles) : XrayShareLink.parse doubles "" = none := by
  have honce : XrayShareLink.parseOnce doubles "" = none := by
    unfold XrayShareLink.parseOnce
    rw [if_neg (by decide), if_neg (by decide), if_neg (by decide), if_neg (by decide),
      if_neg (by decide), if_neg (by decide), if_neg (by decide), if_neg (by decide)]
  have htrim : trim "" = "" := by decide
  have hdecode : XrayShareLink.urlDecode "" = "" := by decide
  have hfragment : XrayShareLink.withDecodedFragment "" = "" := by decide
  unfold XrayShareLink.parse
  simp only [htrim, hdecode, hfragment, List.findSome?, honce]

/-- Of a custom config, the list shows everything but the empty text. -/
theorem shown_writtenPart {link : String} (hc : XrayConfig.isCustomJson (trim link) = true) (bytes : Nat) :
    (XrayConfig.isCustomJson (writtenPart (trim link) bytes) ||
      (XrayShareLink.parse doubles (writtenPart (trim link) bytes)).isSome) = false ↔ bytes = 0 := by
  constructor
  · intro h
    cases bytes with
    | zero => rfl
    | succ n =>
      obtain ⟨rest, hrest⟩ := toList_trim_of_isCustomJson hc
      rw [XrayShareLink.trim_trim] at hrest
      have hbytes : (XrayShareLink.toByteArray (trim link)).take (n + 1)
          = String.utf8EncodeChar '\x7b' ++ (Utf8.encode rest).take n := by
        have hbrace : String.utf8EncodeChar '\x7b' = [0x7b] := by decide
        unfold XrayShareLink.toByteArray
        rw [hrest, Utf8.encode_cons, hbrace]
        rfl
      have hhead := Utf8.head?_decode_encode '\x7b' ((Utf8.encode rest).take n)
      have hcustom : XrayConfig.isCustomJson (writtenPart (trim link) (n + 1)) = true := by
        unfold XrayConfig.isCustomJson writtenPart XrayShareLink.utf8String
        rw [hbytes, String.toList_ofList]
        obtain ⟨tail, htail⟩ := List.head?_eq_some_iff.1 hhead
        rw [htail, List.dropWhile_cons_of_neg (by decide)]
        rfl
      rw [hcustom, Bool.true_or] at h
      cases h
  · rintro rfl
    have hempty : writtenPart (trim link) 0 = "" := by
      unfold writtenPart
      rw [List.take_zero]
      rfl
    rw [hempty, parse_empty]
    rfl

/-- What a failed save of `link` over the file `f` may have written. -/
def saveKeeps (doubles : Doubles) (f : XrayFile) (link : String) : Option WriteFault → Prop
  | none | some .opening => True
  | some (.writing bytes) =>
    saveRejects doubles link = true ∨
      (XrayConfig.isCustomJson (trim link) = f.json ∧ writtenPart (trim link) bytes = f.text) ∨
      (XrayConfig.isCustomJson (trim link) = true ∧ f.json = false ∧ bytes = 0)

theorem saveLink_keeps_iff (h : Stored doubles s f row) (link : String) (fault : Option WriteFault) :
    ((s.saveLink doubles f.uuid link fault).2 = false →
        Keeps doubles (s.saveLink doubles f.uuid link fault).1 f row) ↔
      saveKeeps doubles f link fault := by
  have hsame : Keeps doubles s f row := h.keeps h.directory rfl rfl fun _ => rfl
  rw [saveLink_eq]
  cases hr : saveRejects doubles link with
  | true =>
    rw [if_pos rfl]
    refine iff_of_true (fun _ => hsame) ?_
    unfold saveKeeps
    split
    · trivial
    · trivial
    · exact .inl hr
  | false =>
    rw [if_neg Bool.false_ne_true]
    match fault with
    | none => exact iff_of_true nofun trivial
    | some .opening => exact iff_of_true (fun _ => hsame) trivial
    | some (.writing bytes) =>
      show (false = false → Keeps doubles (s.writeFile
        ⟨f.uuid, XrayConfig.isCustomJson (trim link), writtenPart (trim link) bytes⟩) f row) ↔ _
      rw [imp_iff_right rfl, h.keeps_writeFile_iff
        (g := ⟨f.uuid, XrayConfig.isCustomJson (trim link), writtenPart (trim link) bytes⟩) rfl]
      unfold saveKeeps
      dsimp only
      rw [hr, or_iff_right Bool.false_ne_true]
      refine or_congr ?_ ?_
      · cases f
        simp
      · refine and_congr_right fun hc => and_congr_right fun _ => ?_
        exact shown_writtenPart hc bytes

end Fault

end XrayStore

/-! ## 2. WireGuard profiles -/

/-- A row of the list, as WireGuardStore.kt makes it. -/
structure WireGuardRow where
  uuid : Uuid
  name : String
  server : String
  port : String
  deriving DecidableEq, Repr

namespace WireGuardStore

section Fault

variable (numeric : String → Option Awg.InetAddress)

/-- The first endpoint that a peer declares. -/
def endpointOf (config : Awg.Config) : Option Awg.InetEndpoint :=
  config.peers.findSome? fun peer => peer .endpoint

/-- `toProfile`. -/
def toProfile (s : WireGuardStore) (f : WireGuardFile) : Option WireGuardRow :=
  (Awg.Config.parse numeric f.text).map fun config =>
    { uuid := f.uuid
      name := s.name f.uuid
      server := ((endpointOf config).map (·.host)).getD ""
      port := ((endpointOf config).map fun e => toString e.port).getD "" }

/-- The rows of `profiles` for a uuid. -/
def rowsOf (s : WireGuardStore) (uuid : Uuid) : List WireGuardRow :=
  (s.files.filterMap (s.toProfile numeric)).filter (·.uuid == uuid)

/-- `rawConfig`. -/
def rawConfig (s : WireGuardStore) (uuid : Uuid) : Option String :=
  (s.files.find? (·.uuid == uuid)).map (·.text)

/-- The file of a uuid, created or overwritten. -/
def writeFile (s : WireGuardStore) (f : WireGuardFile) : WireGuardStore :=
  { s with files := s.files.filter (·.uuid != f.uuid) ++ [f] }

/-- `saveConfig`; the write throws as `fault` says. -/
def saveConfig (s : WireGuardStore) (uuid : Uuid) (text : String) (fault : Option WriteFault) :
    WireGuardStore × Bool :=
  if (Awg.Config.parse numeric text).isNone then (s, false)
  else match fault with
    | none => (s.writeFile ⟨uuid, text⟩, true)
    | some fault =>
      (match fault.left text with
        | some left => s.writeFile ⟨uuid, left⟩
        | none => s, false)

/-- The file `f` is that of its profile, and `row` is all the list shows of it. -/
structure Stored (s : WireGuardStore) (f : WireGuardFile) (row : WireGuardRow) : Prop where
  directory : (s.files.map (·.uuid)).Nodup
  mem : f ∈ s.files
  shown : s.toProfile numeric f = some row

/-- The same is read and shown. -/
structure Keeps (s : WireGuardStore) (f : WireGuardFile) (row : WireGuardRow) : Prop where
  text : s.rawConfig f.uuid = some f.text
  listed : s.rowsOf numeric f.uuid = [row]

variable {numeric} {s : WireGuardStore} {f : WireGuardFile} {row : WireGuardRow}

theorem toProfile_uuid (h : s.toProfile numeric f = some row) : row.uuid = f.uuid := by
  obtain ⟨c, -, rfl⟩ := Option.map_eq_some_iff.1 h
  rfl

/-- A file of another uuid has no row of this one. -/
theorem rows_of_ne {fs : List WireGuardFile} {uuid : Uuid} (h : ∀ g ∈ fs, g.uuid ≠ uuid) :
    (fs.filterMap (s.toProfile numeric)).filter (·.uuid == uuid) = [] := by
  refine List.filter_eq_nil_iff.2 fun r hr => ?_
  obtain ⟨g, hg, hgr⟩ := List.mem_filterMap.1 hr
  rw [toProfile_uuid hgr, beq_iff_eq]
  exact h g hg

/-- The file written is the one that is read and shown. -/
theorem writeFile_spec (numeric : String → Option Awg.InetAddress) (s : WireGuardStore) (g : WireGuardFile) :
    (s.writeFile g).rawConfig g.uuid = some g.text ∧
      (s.writeFile g).rowsOf numeric g.uuid = (s.toProfile numeric g).toList := by
  have hother : ∀ k ∈ s.files.filter (·.uuid != g.uuid), k.uuid ≠ g.uuid := fun k hk => by
    simpa using (List.mem_filter.1 hk).2
  refine ⟨?_, ?_⟩
  · have hnone : (s.files.filter (·.uuid != g.uuid)).find? (·.uuid == g.uuid) = none :=
      List.find?_eq_none.2 fun k hk => by simpa using hother k hk
    unfold rawConfig writeFile
    rw [List.find?_append, hnone, Option.none_or, List.find?_cons_of_pos]
    · rfl
    · exact beq_self_eq_true _
  · show ((s.files.filter (·.uuid != g.uuid) ++ [g]).filterMap (s.toProfile numeric)).filter
      (·.uuid == g.uuid) = _
    rw [List.filterMap_append, List.filter_append, rows_of_ne hother, List.nil_append]
    cases hg : s.toProfile numeric g with
    | none =>
      rw [List.filterMap_cons_none hg]
      rfl
    | some r =>
      rw [List.filterMap_cons_some hg, List.filterMap_nil, List.filter_cons_of_pos]
      · rfl
      · rw [toProfile_uuid hg, beq_self_eq_true]

theorem Stored.keeps (h : Stored numeric s f row) : Keeps numeric s f row := by
  have huniq : ∀ g ∈ s.files, g.uuid = f.uuid → g = f := fun g hg e =>
    List.inj_on_of_nodup_map h.directory hg h.mem e
  refine ⟨?_, ?_⟩
  · unfold rawConfig
    cases hg : s.files.find? (·.uuid == f.uuid) with
    | none =>
      have := List.find?_eq_none.1 hg f h.mem
      simp at this
    | some g =>
      have hp := List.find?_some hg
      rw [beq_iff_eq] at hp
      rw [huniq g (List.mem_of_find?_eq_some hg) hp]
      rfl
  · -- the files before and behind it are of other profiles
    obtain ⟨before, behind, hsplit⟩ := List.append_of_mem h.mem
    have hnodup := h.directory
    rw [hsplit, List.map_append, List.map_cons, List.nodup_append, List.nodup_cons] at hnodup
    have hbefore : ∀ g ∈ before, g.uuid ≠ f.uuid := fun g hg e =>
      hnodup.2.2 g.uuid (List.mem_map_of_mem hg) f.uuid List.mem_cons_self e
    have hbehind : ∀ g ∈ behind, g.uuid ≠ f.uuid := fun g hg e =>
      hnodup.2.1.1 (e ▸ List.mem_map_of_mem hg)
    unfold rowsOf
    rw [hsplit, List.filterMap_append, List.filterMap_cons_some h.shown, List.filter_append,
      rows_of_ne hbefore, List.nil_append, List.filter_cons_of_pos, rows_of_ne hbehind]
    rw [toProfile_uuid h.shown, beq_self_eq_true]

/-- What a failed save of `text` over the file `f` may have written. -/
def saveKeeps (numeric : String → Option Awg.InetAddress) (f : WireGuardFile) (text : String) :
    Option WriteFault → Prop
  | none | some .opening => True
  | some (.writing bytes) =>
    (Awg.Config.parse numeric text).isNone = true ∨ writtenPart text bytes = f.text

theorem saveConfig_keeps_iff (h : Stored numeric s f row) (text : String) (fault : Option WriteFault) :
    ((s.saveConfig numeric f.uuid text fault).2 = false →
        Keeps numeric (s.saveConfig numeric f.uuid text fault).1 f row) ↔
      saveKeeps numeric f text fault := by
  unfold saveConfig
  cases hr : (Awg.Config.parse numeric text).isNone with
  | true =>
    rw [if_pos rfl]
    refine iff_of_true (fun _ => h.keeps) ?_
    unfold saveKeeps
    split
    · trivial
    · trivial
    · exact .inl hr
  | false =>
    rw [if_neg Bool.false_ne_true]
    match fault with
    | none => exact iff_of_true nofun trivial
    | some .opening => exact iff_of_true (fun _ => h.keeps) trivial
    | some (.writing bytes) =>
      obtain ⟨hraw, hrows⟩ := writeFile_spec numeric s ⟨f.uuid, writtenPart text bytes⟩
      show (false = false → Keeps numeric (s.writeFile ⟨f.uuid, writtenPart text bytes⟩) f row) ↔ _
      rw [imp_iff_right rfl]
      unfold saveKeeps
      dsimp only
      rw [hr, or_iff_right Bool.false_ne_true]
      constructor
      · intro hk
        exact Option.some.inj (hraw.symm.trans hk.text)
      · intro ht
        rw [ht] at hraw hrows ⊢
        refine ⟨hraw, hrows.trans ?_⟩
        have hf : (⟨f.uuid, f.text⟩ : WireGuardFile) = f := rfl
        rw [hf, h.shown]
        rfl

end Fault

end WireGuardStore

/-! ## 3. Saves that fail -/

/-- **A save that fails keeps the profile** exactly where it was refused, or threw before it truncated
    the file, or had written what was there before, or had put an empty `.json` behind a link. -/
theorem saves_keep_iff (doubles : Doubles) (numeric : String → Option Awg.InetAddress)
    (fault : Option WriteFault) :
    (∀ (s : XrayStore) (f : XrayFile) (row : XrayRow) (link : String),
      XrayStore.Stored doubles s f row →
      (((s.saveLink doubles f.uuid link fault).2 = false →
          XrayStore.Keeps doubles (s.saveLink doubles f.uuid link fault).1 f row) ↔
        XrayStore.saveKeeps doubles f link fault)) ∧
    ∀ (s : WireGuardStore) (f : WireGuardFile) (row : WireGuardRow) (text : String),
      WireGuardStore.Stored numeric s f row →
      (((s.saveConfig numeric f.uuid text fault).2 = false →
          WireGuardStore.Keeps numeric (s.saveConfig numeric f.uuid text fault).1 f row) ↔
        WireGuardStore.saveKeeps numeric f text fault) :=
  ⟨fun _ _ _ link h => XrayStore.saveLink_keeps_iff h link fault,
    fun _ _ _ text h => WireGuardStore.saveConfig_keeps_iff h text fault⟩

section Sample

open XraySubscriptionStore

/-- The server of the sample store. -/
def sampleFile : XrayFile := ⟨sampleUuid 0, false, "trojan://p@h:1#a"⟩

theorem sound_sampleState :
    XrayStore.Sound (fun _ => none) sampleState.store.files fun _ => some sampleFile.text where
  distinct := List.nodup_singleton _
  json f hf := by
    rw [List.mem_singleton.1 hf]
    decide +kernel
  parses f hf _ := by
    rw [List.mem_singleton.1 hf]
    decide +kernel
  last f hf := by
    rw [List.mem_singleton.1 hf]
    rfl

/-- A WireGuard profile with nothing but a key. -/
def sampleWireGuardFile : WireGuardFile :=
  ⟨"w", "[Interface]\nPrivateKey=AAAAAAAAAAAAAAAAAAAAAAAAAAAAAAAAAAAAAAAAAAA="⟩

/-- The store of that profile. -/
def sampleWireGuard : WireGuardStore := ⟨[sampleWireGuardFile], fun _ => none, 1⟩

theorem parse_sampleWireGuard :
    (Awg.Config.parse (fun _ => none) sampleWireGuardFile.text).isSome = true := by decide +kernel

/-- Writes that throw before they truncate. -/
theorem saves_keep_iff_opening :
    (∃ row, XrayStore.Keeps (fun _ => none)
      (sampleState.store.saveLink (fun _ => none) sampleFile.uuid "trojan://p@h:2#b" (some .opening)).1
      sampleFile row) ∧
    ∃ row, WireGuardStore.Keeps (fun _ => none)
      (sampleWireGuard.saveConfig (fun _ => none) sampleWireGuardFile.uuid sampleWireGuardFile.text
        (some .opening)).1 sampleWireGuardFile row := by
  obtain ⟨row, hrow⟩ := sound_sampleState.stored (List.mem_singleton_self sampleFile)
  obtain ⟨config, hconfig⟩ := Option.isSome_iff_exists.1 parse_sampleWireGuard
  have hstored : WireGuardStore.Stored (fun _ => none) sampleWireGuard sampleWireGuardFile _ :=
    ⟨List.nodup_singleton _, List.mem_singleton_self _, by
      rw [WireGuardStore.toProfile, hconfig, Option.map_some]⟩
  have hiff := saves_keep_iff (fun _ => none) (fun _ => none) (some .opening)
  refine ⟨⟨row, (hiff.1 _ _ _ _ hrow).2 trivial ?_⟩, ⟨_, (hiff.2 _ _ _ _ hstored).2 trivial ?_⟩⟩
  · rw [XrayStore.saveLink_eq]
    split <;> rfl
  · unfold WireGuardStore.saveConfig
    split <;> rfl

/-- **A save that fails behind the truncation takes the profile away**: the link is empty, and the list
    does not show it. -/
theorem save_loses_profile :
    (∃ row, XrayStore.Stored (fun _ => none) sampleState.store sampleFile row) ∧
    (sampleState.store.saveLink (fun _ => none) sampleFile.uuid "trojan://p@h:2#b"
      (some (.writing 0))).2 = false ∧
    (sampleState.store.saveLink (fun _ => none) sampleFile.uuid "trojan://p@h:2#b"
      (some (.writing 0))).1.link sampleFile.uuid = some "" ∧
    (sampleState.store.saveLink (fun _ => none) sampleFile.uuid "trojan://p@h:2#b"
      (some (.writing 0))).1.rowsOf (fun _ => none) sampleFile.uuid = [] :=
  ⟨sound_sampleState.stored (List.mem_singleton_self sampleFile), by decide +kernel,
    by decide +kernel, by decide +kernel⟩

end Sample

end SwiftVpn
