/-
  File:      SwiftVpn/Profiles/Export.lean
  Subject:   THE HALF OF BackupManager.kt THAT WRITES: exportAll, manifest, safeName, and what
             readManifest makes of the archive.

  * `safeName`, `freeBase` -- the base of an entry: the name of the profile, mangled, with as many
    underscores as it takes;
  * `addProfile`, `addProfiles`, `exportAll` -- the entries in the order of the profiles, the manifest
    behind them;
  * `Written` -- the invariant of the loop: one base for each profile that is written, no base twice;
  * `entry_names_distinct` -- the loop that renames ends, and no two entries have one name;
  * `readManifest_exportAll` -- the manifest is read back exactly where no entry before it has its base.

  A text is a sequence of characters: a name, a config or a password with a surrogate that stands alone,
  which the writer of the archive turns into a question mark, is outside the model here and in all of
  `BackupManager`. A name of more than 65535 characters, which `ZipEntry` refuses, and an entry that is there twice, which
  `ZipOutputStream` refuses, fail the backup as a whole (`zipOutput`).
-/
import Mathlib.Data.List.Perm.Subperm
import SwiftVpn.Profiles.Files
import SwiftVpn.Profiles.Ikev2Mapping

namespace SwiftVpn

namespace BackupManager

open XrayShareLink

/-! ## 1. The names of the entries -/

/-- The characters that stay: `[A-Za-z0-9._-]`. -/
def isSafe (c : Char) : Bool := c.isAlphanum || c == '.' || c == '_' || c == '-'

/-- `safeName`. -/
def safeName (raw : String) : String :=
  ifBlank (String.ofList ((raw.toList.map fun c => if isSafe c then c else '_').take 60)) "profile"

/-- Under which an entry without its extension is noted. -/
def entryKey (dirName base : String) : String := dirName ++ "/" ++ base

/-- The loop that renames, for at most so many turns: an underscore is appended while the name is in
    use. -/
def freeBase (usedNames : List String) (dirName : String) : Nat → String → Option String
  | 0, _ => none
  | turns + 1, base =>
    if entryKey dirName base ∈ usedNames then freeBase usedNames dirName turns (base ++ "_") else some base

/-- `base` after so many turns. -/
def underscored (base : String) (k : Nat) : String := base ++ String.ofList (List.replicate k '_')

theorem underscored_zero (base : String) : underscored base 0 = base := String.append_empty

theorem underscored_succ (base : String) (k : Nat) :
    underscored base (k + 1) = underscored (base ++ "_") k := by
  unfold underscored
  apply String.toList_injective
  simp [List.replicate_succ]

theorem underscored_injective (dirName base : String) :
    Function.Injective fun k => entryKey dirName (underscored base k) := by
  intro j k h
  have hlength := congrArg String.length h
  simp only [entryKey, underscored, String.length_append, String.length_ofList, List.length_replicate] at hlength
  omega

theorem freeBase_eq_none {usedNames : List String} {dirName : String} {turns : Nat} {base : String}
    (h : freeBase usedNames dirName turns base = none) :
    ∀ k < turns, entryKey dirName (underscored base k) ∈ usedNames := by
  induction turns generalizing base with
  | zero => exact fun k hk => absurd hk (Nat.not_lt_zero k)
  | succ turns ih =>
    unfold freeBase at h
    split at h
    · rename_i hused
      intro k hk
      cases k with
      | zero => rwa [underscored_zero]
      | succ k =>
        rw [underscored_succ]
        exact ih h k (Nat.lt_of_succ_lt_succ hk)
    · cases h

/-- The base that is found is free, and the shorter ones are in use. -/
theorem freeBase_eq_some {usedNames : List String} {dirName : String} {turns : Nat} {base b : String}
    (h : freeBase usedNames dirName turns base = some b) :
    entryKey dirName b ∉ usedNames ∧ ∃ k, k < turns ∧ b = underscored base k ∧
      ∀ j < k, entryKey dirName (underscored base j) ∈ usedNames := by
  induction turns generalizing base with
  | zero => cases h
  | succ turns ih =>
    unfold freeBase at h
    split at h
    · rename_i hused
      obtain ⟨hfree, k, hturns, hk, hshorter⟩ := ih h
      refine ⟨hfree, k + 1, Nat.succ_lt_succ hturns, by rw [hk, underscored_succ], fun j hj => ?_⟩
      cases j with
      | zero => rwa [underscored_zero]
      | succ j =>
        rw [underscored_succ]
        exact hshorter j (Nat.lt_of_succ_lt_succ hj)
    · rename_i hfree
      cases h
      exact ⟨hfree, 0, Nat.succ_pos turns, (underscored_zero _).symm, fun j hj => absurd hj (Nat.not_lt_zero j)⟩

/-- **The loop ends** after at most as many turns as there are names in use, and one more. -/
theorem freeBase_isSome (usedNames : List String) (dirName base : String) :
    ∃ b, freeBase usedNames dirName (usedNames.length + 1) base = some b := by
  cases hfree : freeBase usedNames dirName (usedNames.length + 1) base with
  | some b => exact ⟨b, rfl⟩
  | none =>
    -- more bases than names in use
    have hall : (List.range (usedNames.length + 1)).map (fun k => entryKey dirName (underscored base k))
        ⊆ usedNames := by
      intro name hname
      obtain ⟨k, hk, rfl⟩ := List.mem_map.1 hname
      exact freeBase_eq_none hfree k (List.mem_range.1 hk)
    have hnodup := (List.nodup_range (n := usedNames.length + 1)).map (underscored_injective dirName base)
    have hle := (List.subperm_of_subset hnodup hall).length_le
    rw [List.length_map, List.length_range] at hle
    omega

/-! ## 2. The loop over the profiles -/

/-- `mutableMapOf`: a key that is there gets the new value, a new one goes to the end. -/
def putEntry {α : Type} (m : List (String × α)) (key : String) (value : α) : List (String × α) :=
  match m with
  | [] => [(key, value)]
  | (k, v) :: rest => if k = key then (key, value) :: rest else (k, v) :: putEntry rest key value

theorem putEntry_of_not_mem {α : Type} {m : List (String × α)} {key : String} (h : key ∉ m.map Prod.fst)
    (value : α) : putEntry m key value = m ++ [(key, value)] := by
  induction m with
  | nil => rfl
  | cons e m ih =>
    rw [List.map_cons, List.mem_cons, not_or] at h
    unfold putEntry
    rw [if_neg fun he => h.1 he.symm, ih h.2, List.cons_append]

/-- What a backup is made of: the stores, the certificates, and the files `ikev2-<uuid>.json` that
    earlier backups have left. -/
structure Sources where
  state : AppState
  certs : Certificates
  dumps : Uuid → Option String

namespace Sources

/-- The file `xray/<uuid>.json` or `xray/<uuid>.link`. -/
def xrayFile (src : Sources) (uuid : Uuid) (json : Bool) : Option XrayFile :=
  src.state.xray.files.find? fun f => f.uuid == uuid && f.json == json

/-- The extension of a profile's entry. -/
def extension (src : Sources) (p : Profile) : String :=
  match p.protocol with
  | .wireguard => "conf"
  | .openvpn => "ovpn"
  | .xray => if (src.xrayFile p.uuid true).isSome then "json" else "link"
  | .ikev2 => "json"

/-- The text of `src`, if that file exists. The file of an IKEv2 profile is written on the fly; that of a
    profile which is gone stays as it is. -/
def text (src : Sources) (p : Profile) : Option String :=
  match p.protocol with
  | .wireguard => (src.state.wireGuard.files.find? (·.uuid == p.uuid)).map (·.text)
  | .openvpn => (src.state.openVpn.get p.uuid).bind (·.source)
  | .xray => (src.xrayFile p.uuid (src.extension p == "json")).map (·.text)
  | .ikev2 => (ikev2Dump src.certs src.state.ikev2 p.uuid).or (src.dumps p.uuid)

/-- The profiles that have a stored config. -/
def stored (src : Sources) (profiles : List Profile) : List Profile :=
  profiles.filter fun p => (src.text p).isSome

/-- The credentials that the profile manager has for a profile, if they are not blank. -/
def credentials (src : Sources) (p : Profile) : Option Credentials :=
  if p.protocol = .openvpn then
    match src.state.openVpn.get p.uuid with
    | some vp =>
      if isBlank vp.credentials.username && isBlank vp.credentials.password then none
      else some vp.credentials
    | none => none
  else none

end Sources

/-- What the loop has collected. -/
structure Backup where
  usedNames : List String := []
  origNames : List (String × String) := []
  creds : List (String × Credentials) := []
  entries : List ZipEntry := []

/-- A profile is written under its key. -/
def Backup.write (b : Backup) (src : Sources) (p : Profile) (text key : String) : Backup where
  usedNames := b.usedNames ++ [key]
  origNames := putEntry b.origNames key p.name
  creds := match src.credentials p with
    | some c => putEntry b.creds key c
    | none => b.creds
  entries := b.entries ++ [⟨key ++ "." ++ src.extension p, toByteArray text⟩]

/-- One profile of `exportAll`; one without a stored config is skipped. -/
def addProfile (src : Sources) (b : Backup) (p : Profile) : Option Backup :=
  match src.text p with
  | none => some b
  | some text =>
    (freeBase b.usedNames (dirName p.protocol) (b.usedNames.length + 1) (safeName p.name)).map fun base =>
      b.write src p text (entryKey (dirName p.protocol) base)

/-- The loop of `exportAll`: none where a profile's renaming would not have ended. -/
def addProfiles (src : Sources) (profiles : List Profile) : Option Backup :=
  profiles.foldlM (addProfile src) {}

/-- `manifest`. -/
def manifest (src : Sources) (profiles : List Profile) (b : Backup) : JsonObject :=
  [("version", .int 2),
   ("app", .str "SwiftVPN-3p"),
   ("favourites", .arr ((profiles.filter (·.isFavourite)).map fun p => .str p.name)),
   ("tileProfile", .str ((src.state.tile.map (·.2)).getD "")),
   ("names", .obj ((b.origNames.filter fun n =>
      ((Text.cutLast '/' n.1.toList).map (·.2)).getD n.1.toList ≠ n.2.toList).map fun n => (n.1, .str n.2))),
   ("credentials", .obj (b.creds.map fun c =>
      (c.1, .obj [("u", .str c.2.username), ("p", .str c.2.password)])))]

/-- The entry of the manifest. -/
def manifestEntry (m : JsonObject) : ZipEntry := ⟨"manifest.json", toByteArray (Json.obj m).render⟩

/-- What `ZipOutputStream` makes of the entries: a name that is there already, or one that is too long,
    throws. -/
def zipOutput (entries : List ZipEntry) : Option (List ZipEntry) :=
  if (entries.map (·.name)).Nodup ∧ ∀ e ∈ entries, Text.length e.name.toList ≤ 0xFFFF then
    some entries
  else none

/-- `exportAll`. -/
def exportAll (src : Sources) (profiles : List Profile) : Option (List ZipEntry) :=
  if profiles.isEmpty then none else do
    let b ← addProfiles src profiles
    if b.entries.isEmpty then none
    else zipOutput (b.entries ++ [manifestEntry (manifest src profiles b)])

/-! ## 3. The names are distinct -/

section Written

variable {src : Sources}

/-- The profiles of a protocol whose name is mangled to `base`. -/
def called (d : Protocol) (base : String) (p : Profile) : Bool := p.protocol == d && safeName p.name == base

theorem called_iff {d : Protocol} {base : String} {p : Profile} :
    called d base p = true ↔ p.protocol = d ∧ safeName p.name = base := by
  unfold called
  rw [Bool.and_eq_true, beq_iff_eq, beq_iff_eq]

/-- The name of the entry of a profile. -/
def entryName (src : Sources) (w : String × Profile) : String := w.1 ++ "." ++ src.extension w.2

/-- The profiles that were written, each under its key, and what was noted of them. -/
structure Written (src : Sources) (b : Backup) (written : List (String × Profile)) : Prop where
  used : b.usedNames = written.map Prod.fst
  nodup : (written.map Prod.fst).Nodup
  mangled : ∀ w ∈ written, ∃ k, k ≤ written.length ∧
    w.1 = entryKey (dirName w.2.protocol) (underscored (safeName w.2.name) k)
  first : ∀ d base, base.toList.getLast? ≠ some '_' →
    written.lookup (entryKey (dirName d) base) = (written.map Prod.snd).find? (called d base)
  origNames : b.origNames = written.map fun w => (w.1, w.2.name)
  creds : b.creds = written.filterMap fun w => (src.credentials w.2).map fun c => (w.1, c)
  entries : b.entries =
    written.map fun w => ⟨entryName src w, toByteArray ((src.text w.2).getD "")⟩

theorem written_nil (src : Sources) : Written src {} [] where
  used := rfl
  nodup := List.nodup_nil
  mangled _ hw := absurd hw List.not_mem_nil
  first _ _ _ := rfl
  origNames := rfl
  creds := rfl
  entries := rfl

theorem slash_not_mem_dirName (d : Protocol) : '/' ∉ (dirName d).toList := by
  cases d <;> decide

theorem entryKey_inj {d d' : Protocol} {base base' : String}
    (h : entryKey (dirName d) base = entryKey (dirName d') base') : d = d' ∧ base = base' := by
  have hchars := congrArg String.toList h
  simp only [entryKey, String.toList_append, List.append_assoc] at hchars
  obtain ⟨hdir, hbase⟩ :=
    Text.append_cons_inj hchars (slash_not_mem_dirName d) (slash_not_mem_dirName d')
  refine ⟨?_, String.toList_injective hbase⟩
  cases d <;> cases d' <;> first | rfl | exact absurd hdir (by decide)

/-- A base that was renamed ends in an underscore. -/
theorem getLast?_underscored (base : String) (k : Nat) :
    (underscored base (k + 1)).toList.getLast? = some '_' := by
  unfold underscored
  rw [List.replicate_succ', String.toList_append, String.toList_ofList, ← List.append_assoc,
    List.getLast?_concat]

/-- A base that does not end in an underscore goes to the first profile whose name is mangled to it. -/
theorem key_eq_iff {usedNames : List String} {p : Profile} {d : Protocol} {base : String} {k : Nat}
    (hlast : base.toList.getLast? ≠ some '_') (hfree : entryKey (dirName d) base ∉ usedNames)
    (hshorter : ∀ j < k, entryKey (dirName p.protocol) (underscored (safeName p.name) j) ∈ usedNames) :
    entryKey (dirName d) base = entryKey (dirName p.protocol) (underscored (safeName p.name) k)
      ↔ called d base p = true := by
  rw [called_iff]
  constructor
  · intro h
    obtain ⟨rfl, hbase⟩ := entryKey_inj h
    cases k with
    | zero => exact ⟨rfl, by rw [hbase, underscored_zero]⟩
    | succ k => exact absurd (hbase ▸ getLast?_underscored _ k) hlast
  · rintro ⟨rfl, rfl⟩
    cases k with
    | zero => rw [underscored_zero]
    | succ k =>
      have hused := hshorter 0 (Nat.succ_pos k)
      rw [underscored_zero] at hused
      exact absurd hused hfree

theorem lookup_eq_none_iff_not_mem {α : Type} {l : List (String × α)} {key : String} :
    l.lookup key = none ↔ key ∉ l.map Prod.fst := by
  induction l with
  | nil => simp
  | cons e l ih =>
    rw [List.lookup_cons, List.map_cons, List.mem_cons, not_or, ← ih]
    by_cases he : key = e.1
    · simp [he]
    · simp [he, beq_false_of_ne he]

theorem mem_iff_lookup {α : Type} {l : List (String × α)} (hnodup : (l.map Prod.fst).Nodup) {key : String}
    {v : α} : (key, v) ∈ l ↔ l.lookup key = some v := by
  induction l with
  | nil => simp
  | cons e l ih =>
    rw [List.map_cons, List.nodup_cons] at hnodup
    rw [List.lookup_cons, List.mem_cons]
    by_cases he : key = e.1
    · rw [he, beq_self_eq_true]
      refine ⟨fun h => ?_, fun h => .inl (Prod.ext rfl (Option.some.inj h).symm)⟩
      rcases h with h | h
      · rw [← h]
      · exact absurd (List.mem_map_of_mem h) hnodup.1
    · rw [beq_false_of_ne he, ← ih hnodup.2]
      exact or_iff_right fun h => he (congrArg Prod.fst h)

theorem keys_creds_subset {b : Backup} {written : List (String × Profile)} (h : Written src b written) :
    (b.creds.map Prod.fst).Sublist (written.map Prod.fst) := by
  rw [h.creds]
  clear h
  induction written with
  | nil => exact List.Sublist.slnil
  | cons w written ih =>
    rw [List.filterMap_cons]
    cases src.credentials w.2 with
    | none => exact ih.cons w.1
    | some c => exact ih.cons_cons w.1

/-- **One profile more**: its key is new. -/
theorem Written.add {b : Backup} {written : List (String × Profile)} (h : Written src b written) {p : Profile}
    (hp : (src.text p).isSome) :
    ∃ b' key, addProfile src b p = some b' ∧ Written src b' (written ++ [(key, p)]) := by
  obtain ⟨text, htext⟩ := Option.isSome_iff_exists.1 hp
  obtain ⟨base, hbase⟩ := freeBase_isSome b.usedNames (dirName p.protocol) (safeName p.name)
  obtain ⟨hfree, k, hturns, rfl, hshorter⟩ := freeBase_eq_some hbase
  rw [h.used] at hfree hshorter hturns
  generalize hkey : entryKey (dirName p.protocol) (underscored (safeName p.name) k) = key at hfree
  have horig : key ∉ b.origNames.map Prod.fst := by
    rw [h.origNames, List.map_map]
    exact hfree
  have hcreds : key ∉ b.creds.map Prod.fst := fun hm => hfree ((keys_creds_subset h).subset hm)
  refine ⟨b.write src p text key, key, ?_, ?_, ?_, ?_, ?_, ?_, ?_, ?_⟩
  · rw [addProfile, htext]
    simp only [hbase, Option.map_some, hkey]
  · rw [Backup.write, h.used, List.map_append]
    rfl
  · rw [List.map_append]
    exact List.nodup_append'.2 ⟨h.nodup, List.nodup_singleton _, List.disjoint_singleton.2 hfree⟩
  · intro w hw
    rcases List.mem_append.1 hw with hw | hw
    · obtain ⟨j, hj, hw⟩ := h.mangled w hw
      exact ⟨j, by rw [List.length_append]; omega, hw⟩
    · obtain rfl := List.mem_singleton.1 hw
      rw [List.length_map] at hturns
      exact ⟨k, by rw [List.length_append]; omega, hkey.symm⟩
  · intro d base hlast
    rw [List.lookup_append, List.map_append, List.find?_append, h.first d base hlast]
    cases hfirst : (written.map Prod.snd).find? (called d base) with
    | some q => rfl
    | none =>
      rw [← h.first d base hlast, lookup_eq_none_iff_not_mem] at hfirst
      have hiff := key_eq_iff hlast hfirst hshorter
      rw [hkey] at hiff
      by_cases hcalled : called d base p = true
      · simp [hcalled, hiff.2 hcalled]
      · simp [hcalled, List.lookup_cons, beq_false_of_ne fun he => hcalled (hiff.1 he)]
  · rw [Backup.write, putEntry_of_not_mem horig, h.origNames, List.map_append]
    rfl
  · rw [List.filterMap_append, ← h.creds, Backup.write]
    cases hc : src.credentials p with
    | none => simp [hc]
    | some c => simp [hc, putEntry_of_not_mem hcreds]
  · rw [Backup.write, h.entries, List.map_append]
    simp [entryName, htext]

theorem stored_of_some {p : Profile} (hp : (src.text p).isSome) (profiles : List Profile) :
    src.stored (p :: profiles) = p :: src.stored profiles := by
  unfold Sources.stored
  rw [List.filter_cons, if_pos hp]

theorem stored_of_none {p : Profile} (hp : src.text p = none) (profiles : List Profile) :
    src.stored (p :: profiles) = src.stored profiles := by
  unfold Sources.stored
  rw [List.filter_cons, hp]
  rfl

theorem addProfile_of_none {p : Profile} (hp : src.text p = none) (b : Backup) :
    addProfile src b p = some b := by
  rw [addProfile, hp]

/-- **The loop over the profiles ends**, with one key for each profile that has a stored config. -/
theorem foldlM_addProfile {b : Backup} {written : List (String × Profile)} (h : Written src b written)
    (profiles : List Profile) :
    ∃ b' added, profiles.foldlM (addProfile src) b = some b' ∧ Written src b' (written ++ added) ∧
      added.map Prod.snd = src.stored profiles := by
  induction profiles generalizing b written with
  | nil => exact ⟨b, [], rfl, by rwa [List.append_nil], rfl⟩
  | cons p profiles ih =>
    by_cases hp : (src.text p).isSome
    · obtain ⟨b₁, key, hadd, h₁⟩ := h.add hp
      obtain ⟨b', added, hfold, h', hadded⟩ := ih h₁
      refine ⟨b', (key, p) :: added, ?_, ?_, ?_⟩
      · rw [List.foldlM_cons, hadd]
        exact hfold
      · rwa [List.append_assoc] at h'
      · rw [List.map_cons, hadded, stored_of_some hp]
    · obtain ⟨b', added, hfold, h', hadded⟩ := ih h
      refine ⟨b', added, ?_, h', ?_⟩
      · rw [List.foldlM_cons, addProfile_of_none (Option.not_isSome_iff_eq_none.1 hp)]
        exact hfold
      · rw [hadded, stored_of_none (Option.not_isSome_iff_eq_none.1 hp)]

theorem addProfiles_written (src : Sources) (profiles : List Profile) :
    ∃ b written, addProfiles src profiles = some b ∧ Written src b written ∧
      written.map Prod.snd = src.stored profiles := by
  obtain ⟨b, added, hfold, h, hadded⟩ := foldlM_addProfile (written_nil src) profiles
  exact ⟨b, added, hfold, h, hadded⟩

theorem extension_mem (p : Profile) : src.extension p ∈ ["conf", "ovpn", "json", "link"] := by
  unfold Sources.extension
  cases p.protocol with
  | wireguard => simp
  | openvpn => simp
  | xray =>
    dsimp only
    split <;> simp
  | ikev2 => simp

theorem dot_not_mem_extension (p : Profile) : '.' ∉ (src.extension p).toList := by
  have hall : ∀ ext ∈ ["conf", "ovpn", "json", "link"], '.' ∉ ext.toList := by decide
  exact hall _ (extension_mem p)

/-- The key is the name of the entry up to its last dot. -/
theorem cutLast_entryName (w : String × Profile) :
    Text.cutLast '.' (entryName src w).toList = some (w.1.toList, (src.extension w.2).toList) := by
  unfold entryName
  rw [String.toList_append, String.toList_append, List.append_assoc]
  exact Text.cutLast_append (dot_not_mem_extension w.2) w.1.toList

/-- No two entries of profiles have one name. -/
theorem Written.nodup_names {b : Backup} {written : List (String × Profile)} (h : Written src b written) :
    (b.entries.map (·.name)).Nodup := by
  refine List.Nodup.of_map (fun name => (Text.cutLast '.' name.toList).map (·.1)) ?_
  have hkeys : (b.entries.map (·.name)).map (fun name => (Text.cutLast '.' name.toList).map (·.1))
      = (written.map Prod.fst).map fun key => some key.toList := by
    rw [h.entries]
    simp only [List.map_map]
    refine List.map_congr_left fun w _ => ?_
    simp only [Function.comp_apply, cutLast_entryName, Option.map_some]
  rw [hkeys]
  exact h.nodup.map fun s t he => String.toList_injective (Option.some.inj he)

/-- The entries of profiles are in directories. -/
theorem Written.slash_mem {b : Backup} {written : List (String × Profile)} (h : Written src b written)
    {e : ZipEntry} (he : e ∈ b.entries) : '/' ∈ e.name.toList := by
  rw [h.entries] at he
  obtain ⟨w, hw, rfl⟩ := List.mem_map.1 he
  obtain ⟨k, -, hk⟩ := h.mangled w hw
  simp [entryName, hk, entryKey]

/-- No entry of a profile has the name of the manifest's. -/
theorem Written.manifest_not_mem {b : Backup} {written : List (String × Profile)} (h : Written src b written)
    (m : JsonObject) : (manifestEntry m).name ∉ b.entries.map (·.name) := by
  intro hm
  obtain ⟨e, he, hname⟩ := List.mem_map.1 hm
  have hslash := h.slash_mem he
  rw [hname] at hslash
  have hmanifest : '/' ∉ "manifest.json".toList := by decide
  exact hmanifest hslash

/-- **The names of the entries of a backup.** The loop that renames ends for every profile; no two entries
    have one name, and none has that of the manifest; the original names are noted under one key for each
    profile that is written. -/
theorem entry_names_distinct (src : Sources) (profiles : List Profile) :
    ∃ (b : Backup) (written : List (String × Profile)), addProfiles src profiles = some b ∧
      written.map Prod.snd = src.stored profiles ∧
      b.entries.map (·.name) = written.map (entryName src) ∧
      (b.entries.map (·.name)).Nodup ∧
      (∀ m, (manifestEntry m).name ∉ b.entries.map (·.name)) ∧
      (written.map Prod.fst).Nodup ∧
      b.origNames = written.map fun w => (w.1, w.2.name) := by
  obtain ⟨b, written, hadd, h, hstored⟩ := addProfiles_written src profiles
  refine ⟨b, written, hadd, hstored, ?_, h.nodup_names, h.manifest_not_mem, h.nodup, h.origNames⟩
  rw [h.entries, List.map_map]
  rfl

end Written

/-! ## 4. The manifest is found again -/

section Manifest

variable {src : Sources} {doubles : Doubles} {b : Backup} {written : List (String × Profile)}

/-- The manifest that `exportAll` writes. -/
def writtenManifest (src : Sources) (profiles : List Profile) : Option JsonObject :=
  (addProfiles src profiles).map (manifest src profiles)

/-- What the stores accept: a custom config that can be read is one that was validated, the numbers of an
    IKEv2 profile are 32 bits wide, and a file that an earlier backup has left is the dump of a profile. -/
structure Sources.Sound (src : Sources) (doubles : Doubles) : Prop where
  custom : ∀ f ∈ src.state.xray.files, f.json = true → (Json.ofText doubles f.text).isSome = true →
    XrayConfig.isValidCustomJson doubles f.text = true
  inRange : ∀ r ∈ src.state.ikev2.rows, r.profile.InRange
  dumps : ∀ uuid text, src.dumps uuid = some text → ∃ certs q, Ikev2Profile.InRange q ∧
    text = Json.layOut (Json.indented 2) (.obj (ikev2Json certs q))

/-- The first holds after every run of the store. -/
theorem custom_of_run {newUuid : Nat → Uuid} {ops : List XrayOperation} {last : Uuid → Option String}
    (hrun : Machine.exec (XrayStore.watched newUuid doubles) (XrayStore.empty, fun _ => none) ops
      = some (src.state.xray, last)) :
    ∀ f ∈ src.state.xray.files, f.json = true → (Json.ofText doubles f.text).isSome = true →
      XrayConfig.isValidCustomJson doubles f.text = true :=
  fun f hf hjson _ => (XrayStore.files_admitted hrun f hf).2 hjson

/-- No entry is called like the manifest: the name of no IKEv2 profile is mangled to `manifest`, and the
    first of the Xray profiles whose names are is a link. -/
structure Unshadowed (src : Sources) (profiles : List Profile) : Prop where
  ikev2 : ∀ p ∈ src.stored profiles, p.protocol = .ikev2 → safeName p.name ≠ "manifest"
  xray : ∀ p, (src.stored profiles).find? (called .xray "manifest") = some p →
    src.xrayFile p.uuid true = none

theorem keys_manifest (profiles : List Profile) : (manifest src profiles b).map Prod.fst
    = ["version", "app", "favourites", "tileProfile", "names", "credentials"] := rfl

theorem plain_manifest (h : Written src b written) (profiles : List Profile) :
    (Json.obj (manifest src profiles b)).plain = true := by
  have hkeys : ∀ l : JsonObject, (l.map Prod.fst).Sublist (written.map Prod.fst) →
      (∀ m ∈ l, m.2.plain = true) → (Json.obj l).plain = true :=
    fun l hl hm => (Json.plain_obj_iff l).2 ⟨h.nodup.sublist hl, hm⟩
  refine (Json.plain_obj_iff _).2 ⟨?_, ?_⟩
  · rw [keys_manifest]
    decide
  simp only [manifest, List.forall_mem_cons]
  refine ⟨by decide, rfl, ?_, rfl, ?_, ?_, fun m hm => absurd hm List.not_mem_nil⟩
  · refine (Json.plain_arr_iff _).2 fun e he => ?_
    obtain ⟨p, -, rfl⟩ := List.mem_map.1 he
    rfl
  · refine hkeys _ ?_ fun m hm => ?_
    · rw [List.map_map, h.origNames]
      have hsub := (List.filter_sublist (p := fun n : String × String =>
        decide (((Text.cutLast '/' n.1.toList).map (·.2)).getD n.1.toList ≠ n.2.toList))
        (l := written.map fun w => (w.1, w.2.name))).map Prod.fst
      rwa [List.map_map] at hsub
    · obtain ⟨n, -, rfl⟩ := List.mem_map.1 hm
      rfl
  · refine hkeys _ ?_ fun m hm => ?_
    · rw [List.map_map]
      exact keys_creds_subset h
    · obtain ⟨c, -, rfl⟩ := List.mem_map.1 hm
      have hkeys : [("u", Json.str c.2.username), ("p", Json.str c.2.password)].map Prod.fst = ["u", "p"] :=
        rfl
      refine (Json.plain_obj_iff _).2 ⟨by rw [hkeys]; decide, ?_⟩
      simp [Json.plain]

/-- The entry of the manifest is read as the manifest. -/
theorem ofText_manifestEntry {m : JsonObject} (h : (Json.obj m).plain = true) :
    Json.ofText doubles (utf8String (manifestEntry m).bytes) = some m := by
  unfold manifestEntry
  rw [utf8String_toByteArray, ← Json.layOut_compact]
  exact Json.ofText_layOut doubles Json.compact h

theorem base_manifestEntry (m : JsonObject) : (manifestEntry m).base = "manifest.json".toList := by
  unfold ZipEntry.base ZipEntry.path
  have hname : (manifestEntry m).name = "manifest.json" := rfl
  rw [hname]
  decide

/-! ### The entries of profiles -/

theorem isSafe_of_mem_safeName {raw : String} {c : Char} (hc : c ∈ (safeName raw).toList) :
    isSafe c = true := by
  unfold safeName ifBlank at hc
  split at hc
  · revert hc
    revert c
    decide
  · rw [String.toList_ofList] at hc
    obtain ⟨a, -, rfl⟩ := List.mem_map.1 (List.mem_of_mem_take hc)
    split
    · assumption
    · rfl

theorem isSafe_extension (p : Profile) : ∀ c ∈ (src.extension p).toList, isSafe c = true := by
  have hall : ∀ ext ∈ ["conf", "ovpn", "json", "link"], ∀ c ∈ ext.toList, isSafe c = true := by decide
  exact hall _ (extension_mem p)

theorem isSafe_of_mem_underscored {raw : String} {k : Nat} {c : Char}
    (hc : c ∈ (underscored (safeName raw) k).toList) : isSafe c = true := by
  unfold underscored at hc
  rw [String.toList_append, String.toList_ofList, List.mem_append] at hc
  rcases hc with hc | hc
  · exact isSafe_of_mem_safeName hc
  · obtain rfl := List.eq_of_mem_replicate hc
    rfl

/-- The base of an entry is what stands behind its directory. -/
theorem base_entry {d : Protocol} {base ext : String} (hbase : ∀ c ∈ base.toList, isSafe c = true)
    (hext : ∀ c ∈ ext.toList, isSafe c = true) (bytes : List UInt8) :
    (⟨entryKey (dirName d) base ++ "." ++ ext, bytes⟩ : ZipEntry).base = base.toList ++ '.' :: ext.toList := by
  have hdir : ∀ c ∈ (dirName d).toList, isSafe c = true := by cases d <;> decide
  have hslash : ∀ {cs : List Char} {c : Char}, (∀ c ∈ cs, isSafe c = true) → isSafe c = false → c ∉ cs :=
    fun hcs hc hm => Bool.false_ne_true (hc.symm.trans (hcs _ hm))
  have hback : ∀ cs : List Char, (∀ c ∈ cs, isSafe c = true) →
      cs.map (fun c => if c = '\\' then '/' else c) = cs := by
    intro cs hcs
    refine (List.map_congr_left fun c hc => ?_).trans (List.map_id' cs)
    rw [if_neg]
    rintro rfl
    exact hslash hcs (by decide) hc
  have hpath : (⟨entryKey (dirName d) base ++ "." ++ ext, bytes⟩ : ZipEntry).path
      = (dirName d).toList ++ '/' :: (base.toList ++ '.' :: ext.toList) := by
    unfold ZipEntry.path entryKey
    simp [hback _ hdir, hback _ hbase, hback _ hext]
  have hnot : '/' ∉ base.toList ++ '.' :: ext.toList := by
    rw [List.mem_append, List.mem_cons, not_or, not_or]
    exact ⟨hslash hbase (by decide), by decide, hslash hext (by decide)⟩
  unfold ZipEntry.base
  rw [hpath, Text.cutLast_append hnot]
  rfl

/-- An entry is called like the manifest where its base is `manifest` and its extension `json`. -/
theorem base_eq_manifest_iff {base ext : String} (hext : '.' ∉ ext.toList) :
    base.toList ++ '.' :: ext.toList = "manifest.json".toList ↔ base = "manifest" ∧ ext = "json" := by
  constructor
  · intro h
    have hcut := Text.cutLast_append hext base.toList
    rw [h] at hcut
    have hmanifest : Text.cutLast '.' "manifest.json".toList = some ("manifest".toList, "json".toList) := by
      decide
    obtain ⟨hbase, hjson⟩ := Prod.mk.inj (Option.some.inj (hcut.symm.trans hmanifest))
    exact ⟨String.toList_injective hbase, String.toList_injective hjson⟩
  · rintro ⟨rfl, rfl⟩
    rfl

/-- A profile is written under a base that does not end in an underscore exactly where it is the first whose
    name is mangled to it. -/
theorem Written.mem_iff (h : Written src b written) {d : Protocol} {base : String}
    (hlast : base.toList.getLast? ≠ some '_') {p : Profile} :
    (entryKey (dirName d) base, p) ∈ written ↔ (written.map Prod.snd).find? (called d base) = some p := by
  rw [← h.first d base hlast]
  exact mem_iff_lookup h.nodup

/-- The entry of a profile that is called like the manifest. -/
theorem Written.base_eq_manifest_iff (h : Written src b written) {w : String × Profile} (hw : w ∈ written)
    (bytes : List UInt8) : (⟨entryName src w, bytes⟩ : ZipEntry).base = "manifest.json".toList ↔
      w.1 = entryKey (dirName w.2.protocol) "manifest" ∧ src.extension w.2 = "json" := by
  obtain ⟨k, -, hk⟩ := h.mangled w hw
  have hbase : (⟨entryName src w, bytes⟩ : ZipEntry).base
      = (underscored (safeName w.2.name) k).toList ++ '.' :: (src.extension w.2).toList := by
    unfold entryName
    rw [hk]
    exact base_entry (fun c => isSafe_of_mem_underscored) (isSafe_extension w.2) bytes
  rw [hbase, BackupManager.base_eq_manifest_iff (dot_not_mem_extension w.2), hk]
  refine and_congr_left' ⟨fun he => by rw [he], fun he => (entryKey_inj he).2⟩

/-- The extension is `json` for an IKEv2 profile, and for an Xray profile with such a file. -/
theorem extension_eq_json_iff (p : Profile) : src.extension p = "json" ↔
    p.protocol = .ikev2 ∨ p.protocol = .xray ∧ (src.xrayFile p.uuid true).isSome = true := by
  unfold Sources.extension
  cases p.protocol with
  | wireguard => simp
  | openvpn => simp
  | xray =>
    dsimp only
    split
    · rename_i hjson
      simp [hjson]
    · rename_i hjson
      simp [hjson]
  | ikev2 => simp

/-- **Some entry is called like the manifest** exactly where `Unshadowed` says so. -/
theorem Written.unshadowed_iff (h : Written src b written) {profiles : List Profile}
    (hstored : written.map Prod.snd = src.stored profiles) :
    Unshadowed src profiles ↔ ∀ e ∈ b.entries, e.base ≠ "manifest.json".toList := by
  have hlast : "manifest".toList.getLast? ≠ some '_' := by decide
  rw [h.entries]
  constructor
  · rintro ⟨hikev2, hxray⟩ e he hmanifest
    obtain ⟨w, hw, rfl⟩ := List.mem_map.1 he
    obtain ⟨hkey, hext⟩ := (h.base_eq_manifest_iff hw _).1 hmanifest
    have hfirst := (h.mem_iff hlast (d := w.2.protocol) (p := w.2)).1 (by rw [← hkey]; exact hw)
    rw [hstored] at hfirst
    rcases (extension_eq_json_iff w.2).1 hext with hd | ⟨hd, hjson⟩
    · exact hikev2 w.2 (List.mem_of_find?_eq_some hfirst) hd (called_iff.1 (List.find?_some hfirst)).2
    · rw [hd] at hfirst
      rw [hxray w.2 hfirst] at hjson
      cases hjson
  · intro hnone
    have hshadow : ∀ d p, (src.stored profiles).find? (called d "manifest") = some p →
        src.extension p ≠ "json" := by
      intro d p hfirst hext
      have hw := (h.mem_iff hlast (d := d) (p := p)).2 (by rw [hstored]; exact hfirst)
      refine hnone _ (List.mem_map_of_mem hw) ((h.base_eq_manifest_iff hw _).2 ⟨?_, hext⟩)
      rw [(called_iff.1 (List.find?_some hfirst)).1]
    refine ⟨fun p hp hd hname => ?_, fun p hfirst => ?_⟩
    · cases hfind : (src.stored profiles).find? (called .ikev2 "manifest") with
      | none => exact List.find?_eq_none.1 hfind p hp (called_iff.2 ⟨hd, hname⟩)
      | some q =>
        have hcalled := called_iff.1 (List.find?_some hfind)
        exact hshadow .ikev2 q hfind ((extension_eq_json_iff q).2 (.inl hcalled.1))
    · rw [← Option.not_isSome_iff_eq_none]
      intro hjson
      have hcalled := called_iff.1 (List.find?_some hfirst)
      exact hshadow .xray p hfirst ((extension_eq_json_iff p).2 (.inr ⟨hcalled.1, hjson⟩))

/-- The entry of a profile that is called like the manifest is not read as the manifest: an IKEv2 profile
    has a gateway, a custom config has outbounds. -/
theorem ofText_text_ne (hs : src.Sound doubles) {p : Profile} (hext : src.extension p = "json")
    {text : String} (htext : src.text p = some text) (profiles : List Profile) :
    Json.ofText doubles text ≠ some (manifest src profiles b) := by
  have hdump : ∀ certs q, Ikev2Profile.InRange q →
      Json.ofText doubles (Json.layOut (Json.indented 2) (.obj (ikev2Json certs q)))
        ≠ some (manifest src profiles b) := by
    intro certs q hq he
    rw [Json.ofText_layOut doubles _ (plain_ikev2Json hq), Option.some.injEq] at he
    have hgateway : (ikev2Json certs q).lookup "gateway" = some (.str q.gateway) := lookup_ikev2Json rfl
    rw [he] at hgateway
    exact absurd hgateway (by simp [manifest, List.lookup_cons])
  unfold Sources.text at htext
  rcases (extension_eq_json_iff p).1 hext with hd | ⟨hd, hjson⟩
  · rw [hd] at htext
    dsimp only at htext
    cases hprofile : ikev2Dump src.certs src.state.ikev2 p.uuid with
    | none =>
      rw [hprofile, Option.none_or] at htext
      obtain ⟨certs, q, hq, rfl⟩ := hs.dumps _ _ htext
      exact hdump certs q hq
    | some dump =>
      rw [hprofile, Option.some_or, Option.some.injEq] at htext
      unfold ikev2Dump Ikev2Store.profile at hprofile
      obtain ⟨q, hq, rfl⟩ := Option.map_eq_some_iff.1 hprofile
      obtain ⟨row, hrow, rfl⟩ := Option.map_eq_some_iff.1 hq
      rw [← htext]
      exact hdump _ _ (hs.inRange row (List.mem_of_find?_eq_some hrow))
  · rw [hd, hext] at htext
    dsimp only at htext
    rw [show ("json" == "json") = true from rfl] at htext
    obtain ⟨f, hf, rfl⟩ := Option.map_eq_some_iff.1 htext
    unfold Sources.xrayFile at hf
    have hflag := List.find?_some hf
    simp only [Bool.and_eq_true, beq_iff_eq] at hflag
    intro he
    have hvalid := hs.custom f (List.mem_of_find?_eq_some hf) hflag.2 (by rw [he]; rfl)
    unfold XrayConfig.isValidCustomJson at hvalid
    rw [he] at hvalid
    have hnone : (manifest src profiles b).optArray "outbounds" = none := by
      simp [JsonObject.optArray, manifest, List.lookup_cons]
    simp only [hnone] at hvalid
    exact absurd hvalid (by decide)

theorem length_le_two_mul (cs : List Char) : Text.length cs ≤ 2 * cs.length := by
  unfold Text.length Text.toUtf16
  induction cs with
  | nil => exact Nat.le_refl 0
  | cons c cs ih =>
    have hc : (Text.unitsOf c).length ≤ 2 := by
      unfold Text.unitsOf
      dsimp only
      split
      · exact Nat.le_succ 1
      · exact Nat.le_refl 2
    rw [List.flatMap_cons, List.length_append, List.length_cons]
    omega

theorem length_safeName_le (raw : String) : (safeName raw).toList.length ≤ 60 := by
  unfold safeName ifBlank
  split
  · decide
  · rw [String.toList_ofList, List.length_take]
    exact Nat.min_le_left _ _

/-- The name of an entry is longer than a mangled name by what the directory, the extension and the
    renaming add. -/
theorem Written.length_entryName_le (h : Written src b written) {w : String × Profile} (hw : w ∈ written) :
    (entryName src w).toList.length ≤ 75 + written.length := by
  obtain ⟨k, hk, hkey⟩ := h.mangled w hw
  have hbase := length_safeName_le w.2.name
  have hdir : (dirName w.2.protocol).toList.length ≤ 9 := by cases w.2.protocol <;> decide
  have hext : (src.extension w.2).toList.length ≤ 4 := by
    have hall : ∀ ext ∈ ["conf", "ovpn", "json", "link"], ext.toList.length ≤ 4 := by decide
    exact hall _ (extension_mem w.2)
  rw [entryName, hkey]
  simp only [entryKey, underscored, String.toList_append, String.toList_ofList, List.length_append,
    List.length_replicate]
  have hdot : ".".toList.length = 1 := by decide
  have hslash : "/".toList.length = 1 := by decide
  omega

/-- **A backup is written** wherever a profile has a stored config; with that many profiles no name is too
    long. -/
theorem exportAll_isSome {profiles : List Profile} (hsome : src.stored profiles ≠ [])
    (hlength : profiles.length ≤ 32000) : ∃ archive, exportAll src profiles = some archive := by
  obtain ⟨b, written, hadd, h, hstored⟩ := addProfiles_written src profiles
  have hwritten : written.length ≤ profiles.length := by
    rw [← List.length_map (f := Prod.snd), hstored]
    exact List.length_filter_le _ _
  have hentries : b.entries.isEmpty = false := by
    rw [h.entries, List.isEmpty_eq_false_iff]
    intro hnil
    rw [← hstored, List.map_eq_nil_iff.1 hnil] at hsome
    exact hsome rfl
  have hprofiles : profiles.isEmpty = false := by
    rw [List.isEmpty_eq_false_iff]
    rintro rfl
    exact hsome rfl
  have hzip : zipOutput (b.entries ++ [manifestEntry (manifest src profiles b)])
      = some (b.entries ++ [manifestEntry (manifest src profiles b)]) := by
    refine if_pos ⟨?_, fun e he => ?_⟩
    · rw [List.map_append]
      refine List.nodup_append'.2 ⟨h.nodup_names, List.nodup_singleton _, List.disjoint_singleton.2 ?_⟩
      exact h.manifest_not_mem _
    · refine Nat.le_trans (length_le_two_mul _) ?_
      rcases List.mem_append.1 he with he | he
      · rw [h.entries] at he
        obtain ⟨w, hw, rfl⟩ := List.mem_map.1 he
        have := h.length_entryName_le hw
        dsimp only
        omega
      · obtain rfl := List.mem_singleton.1 he
        show 2 * "manifest.json".toList.length ≤ 0xFFFF
        decide
  refine ⟨b.entries ++ [manifestEntry (manifest src profiles b)], ?_⟩
  unfold exportAll
  rw [hprofiles, if_neg Bool.false_ne_true, hadd]
  simp only [Option.bind_eq_bind, Option.bind_some, hentries]
  exact hzip

/-- What is in the archive. -/
theorem exportAll_eq_some {profiles : List Profile} {archive : List ZipEntry}
    (hexport : exportAll src profiles = some archive) (hadd : addProfiles src profiles = some b) :
    archive = b.entries ++ [manifestEntry (manifest src profiles b)] := by
  unfold exportAll zipOutput at hexport
  rw [hadd] at hexport
  simp only [Option.bind_eq_bind, Option.bind_some] at hexport
  split at hexport
  · cases hexport
  · split at hexport
    · cases hexport
    · split at hexport
      · exact (Option.some.inj hexport).symm
      · cases hexport

/-- An entry that is called like the manifest is read in its place. -/
theorem readManifest_ne (hs : src.Sound doubles) (h : Written src b written) {profiles : List Profile}
    (hstored : written.map Prod.snd = src.stored profiles) (hshadowed : ¬ Unshadowed src profiles)
    (m : JsonObject) :
    readManifest doubles (b.entries ++ [manifestEntry m]) ≠ some (manifest src profiles b) := by
  rw [h.unshadowed_iff hstored] at hshadowed
  rw [readManifest, List.find?_append]
  cases hfind : b.entries.find? fun e => e.base == "manifest.json".toList with
  | none => exact absurd (fun e he hbase => List.find?_eq_none.1 hfind e he (beq_iff_eq.2 hbase)) hshadowed
  | some e =>
    have he := List.mem_of_find?_eq_some hfind
    have hbase : e.base = "manifest.json".toList := by
      have htest := List.find?_some hfind
      exact beq_iff_eq.1 htest
    rw [h.entries] at he
    obtain ⟨w, hw, rfl⟩ := List.mem_map.1 he
    have hmem : w.2 ∈ src.stored profiles := by
      rw [← hstored]
      exact List.mem_map_of_mem hw
    obtain ⟨text, htext⟩ := Option.isSome_iff_exists.1 (List.mem_filter.1 hmem).2
    rw [Option.some_or]
    simp only [htext, Option.getD_some, utf8String_toByteArray]
    exact ofText_text_ne hs ((h.base_eq_manifest_iff hw _).1 hbase).2 htext profiles

/-- Where there is none, the manifest is read. -/
theorem readManifest_eq (h : Written src b written) {profiles : List Profile}
    (hnone : ∀ e ∈ b.entries, e.base ≠ "manifest.json".toList) :
    readManifest doubles (b.entries ++ [manifestEntry (manifest src profiles b)])
      = some (manifest src profiles b) := by
  have hfind : b.entries.find? (fun e => e.base == "manifest.json".toList) = none :=
    List.find?_eq_none.2 fun e he hbase => hnone e he (beq_iff_eq.1 hbase)
  rw [readManifest, List.find?_append, hfind, Option.none_or, List.find?_singleton, base_manifestEntry,
    beq_self_eq_true, if_pos rfl]
  exact ofText_manifestEntry (plain_manifest h profiles)

/-- **The manifest of a backup is read back exactly where no entry before it is called like it.** -/
theorem readManifest_exportAll (hs : src.Sound doubles) {profiles : List Profile} {archive : List ZipEntry}
    (hexport : exportAll src profiles = some archive) :
    readManifest doubles archive = writtenManifest src profiles ↔ Unshadowed src profiles := by
  obtain ⟨b, written, hadd, h, hstored⟩ := addProfiles_written src profiles
  have hmanifest : writtenManifest src profiles = some (manifest src profiles b) := by
    rw [writtenManifest, hadd]
    rfl
  rw [hmanifest, exportAll_eq_some hexport hadd]
  constructor
  · intro hread
    by_contra hshadowed
    exact readManifest_ne hs h hstored hshadowed _ hread
  · intro hunshadowed
    exact readManifest_eq h ((h.unshadowed_iff hstored).1 hunshadowed)

/-- A store with the IKEv2 profile `name`. -/
def sampleSources (name : String) : Sources where
  state := { VpnEngine.emptyState with
    ikev2 := ⟨[⟨({ sampleIkev2 with name := name } : Ikev2Profile).stored, Ikev2Profile.stored_stored _⟩], 1⟩ }
  certs := sampleCertificates
  dumps _ := none

/-- This profile in the list. -/
def sampleProfile (name : String) : Profile := ⟨sampleIkev2.uuid, name, .ikev2, false⟩

theorem sound_sampleSources (name : String) : (sampleSources name).Sound doubles where
  custom _ hf := absurd hf List.not_mem_nil
  inRange r hr := by
    obtain rfl := List.mem_singleton.1 hr
    exact of_decide_eq_true (p := Ikev2Profile.InRange sampleIkev2) (by decide)
  dumps _ _ h := by cases h

theorem stored_sampleSources (name : String) :
    (sampleSources name).stored [sampleProfile name] = [sampleProfile name] := rfl

theorem exportAll_sample (name : String) :
    ∃ archive, exportAll (sampleSources name) [sampleProfile name] = some archive := by
  have hlength : [sampleProfile name].length ≤ 32000 := by
    rw [List.length_singleton]
    decide
  refine exportAll_isSome ?_ hlength
  rw [stored_sampleSources]
  exact List.cons_ne_nil _ _

theorem readManifest_sample : ∃ archive,
    exportAll (sampleSources "office") [sampleProfile "office"] = some archive ∧
      readManifest VpnEngine.samplePlatform.doubles archive
        = writtenManifest (sampleSources "office") [sampleProfile "office"] := by
  obtain ⟨archive, hexport⟩ := exportAll_sample "office"
  refine ⟨archive, hexport, (readManifest_exportAll (sound_sampleSources "office") hexport).2 ⟨?_, ?_⟩⟩
  · intro p hp _
    rw [stored_sampleSources, List.mem_singleton] at hp
    subst hp
    decide
  · intro p hfirst
    rw [stored_sampleSources] at hfirst
    have hcalled := called_iff.1 (List.find?_some hfirst)
    have hp := List.mem_of_find?_eq_some hfirst
    rw [List.mem_singleton] at hp
    rw [hp] at hcalled
    cases hcalled.1

/-- An IKEv2 profile of the name `manifest`: its dump is taken for the manifest. -/
theorem readManifest_shadowed : ∃ archive,
    exportAll (sampleSources "manifest") [sampleProfile "manifest"] = some archive ∧
      readManifest VpnEngine.samplePlatform.doubles archive
        ≠ writtenManifest (sampleSources "manifest") [sampleProfile "manifest"] := by
  obtain ⟨archive, hexport⟩ := exportAll_sample "manifest"
  obtain ⟨b, written, hadd, h, hwritten⟩ :=
    addProfiles_written (sampleSources "manifest") [sampleProfile "manifest"]
  refine ⟨archive, hexport, ?_⟩
  rw [exportAll_eq_some hexport hadd, writtenManifest, hadd]
  refine readManifest_ne (sound_sampleSources "manifest") h hwritten (fun hunshadowed => ?_) _
  have hmem : sampleProfile "manifest" ∈ (sampleSources "manifest").stored [sampleProfile "manifest"] := by
    rw [stored_sampleSources]
    exact List.mem_singleton_self _
  exact hunshadowed.ikev2 _ hmem rfl (by decide)

end Manifest

end BackupManager

end SwiftVpn
