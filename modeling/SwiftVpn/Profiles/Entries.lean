/-
  File:      SwiftVpn/Profiles/Entries.lean
  Subject:   THE ENTRIES OF A BACKUP, READ AGAIN: which profile exportAll writes under which base, and
             what ZipImport.readConfigs finds of it.

  * `Item`, `itemsFrom` -- a profile with the base and the text of its entry, in the order of the
    archive;
  * `Written.of_items` -- these are the entries that the loop of exportAll writes;
  * `entryOf_entry`, `isConfigFile_entry` -- an entry is read under its base, unless the base starts
    with a dot;
  * `readConfigs_items` -- within the caps every item is found, in order, and behind them at most the
    manifest.
-/
import SwiftVpn.Profiles.Archives
import SwiftVpn.Profiles.Export

namespace SwiftVpn

namespace BackupManager

open XrayShareLink

/-! ## 1. Which profile is written under which base -/

/-- A profile of a backup: the base of its entry, what is saved of it, and the text that is written. -/
structure Item where
  base : String
  record : Saved
  text : String
  deriving DecidableEq, Repr

namespace Item

/-- Under which the item is noted. -/
def key (i : Item) : String := entryKey (dirName i.record.protocol) i.base

/-- The entry that is written. -/
def entry (src : Sources) (i : Item) : ZipEntry :=
  ⟨entryName src (i.key, i.record.profile), toByteArray i.text⟩

/-- What is read of it. -/
def config (i : Item) : ZipImport.Entry := ⟨i.base, i.text, i.record.protocol == .ikev2⟩

end Item

/-- The items of some profiles, while the names `usedNames` are in use. -/
def itemsFrom (src : Sources) (usedNames : List String) : List Saved → List Item
  | [] => []
  | q :: qs =>
    let base := freeBase usedNames (dirName q.protocol) (usedNames.length + 1) (safeName q.name)
    let i : Item := ⟨base.getD "", q, (src.text q.profile).getD ""⟩
    i :: itemsFrom src (usedNames ++ [i.key]) qs

/-- The items of a backup. -/
def itemsOf (src : Sources) (records : List Saved) : List Item := itemsFrom src [] records

section Items

variable {src : Sources}

theorem map_record_itemsFrom (usedNames : List String) (records : List Saved) :
    (itemsFrom src usedNames records).map Item.record = records := by
  induction records generalizing usedNames with
  | nil => rfl
  | cons q qs ih =>
    rw [itemsFrom, List.map_cons, ih]

theorem text_of_mem_itemsFrom {usedNames : List String} {records : List Saved}
    (htext : ∀ q ∈ records, (src.text q.profile).isSome) {i : Item} (hi : i ∈ itemsFrom src usedNames records) :
    src.text i.record.profile = some i.text := by
  induction records generalizing usedNames with
  | nil => cases hi
  | cons q qs ih =>
    rw [itemsFrom, List.mem_cons] at hi
    rcases hi with rfl | hi
    · obtain ⟨text, htext⟩ := Option.isSome_iff_exists.1 (htext q List.mem_cons_self)
      rw [htext, Option.getD_some]
    · exact ih (fun r hr => htext r (List.mem_cons_of_mem q hr)) hi

/-- The loop notes the keys of the items. -/
theorem foldlM_items {records : List Saved} (htext : ∀ q ∈ records, (src.text q.profile).isSome) (b : Backup) :
    ∃ b', (records.map Saved.profile).foldlM (addProfile src) b = some b' ∧
      b'.usedNames = b.usedNames ++ (itemsFrom src b.usedNames records).map Item.key := by
  induction records generalizing b with
  | nil => exact ⟨b, rfl, (List.append_nil _).symm⟩
  | cons q qs ih =>
    obtain ⟨text, hq⟩ := Option.isSome_iff_exists.1 (htext q List.mem_cons_self)
    obtain ⟨base, hbase⟩ := freeBase_isSome b.usedNames (dirName q.protocol) (safeName q.name)
    have hadd : addProfile src b q.profile
        = some (b.write src q.profile text (entryKey (dirName q.protocol) base)) := by
      have hprofile : freeBase b.usedNames (dirName q.profile.protocol) (b.usedNames.length + 1)
          (safeName q.profile.name) = some base := hbase
      rw [addProfile, hq]
      dsimp only
      rw [hprofile]
      rfl
    obtain ⟨b', hfold, hused⟩ := ih (fun r hr => htext r (List.mem_cons_of_mem q hr))
      (b.write src q.profile text (entryKey (dirName q.protocol) base))
    refine ⟨b', ?_, ?_⟩
    · rw [List.map_cons, List.foldlM_cons, hadd]
      exact hfold
    · have hwrite : (b.write src q.profile text (entryKey (dirName q.protocol) base)).usedNames
          = b.usedNames ++ [entryKey (dirName q.protocol) base] := rfl
      rw [hused, hwrite, itemsFrom, hbase, List.append_assoc]
      rfl

/-- **The items are what is written.** -/
theorem Written.of_items {records : List Saved} (htext : ∀ q ∈ records, (src.text q.profile).isSome) :
    ∃ b, addProfiles src (records.map Saved.profile) = some b ∧
      Written src b ((itemsOf src records).map fun i => (i.key, i.record.profile)) := by
  obtain ⟨b, written, hadd, h, hstored⟩ := addProfiles_written src (records.map Saved.profile)
  obtain ⟨b', hfold, hused⟩ := foldlM_items htext {}
  obtain rfl : b = b' := Option.some.inj (hadd.symm.trans hfold)
  have hall : src.stored (records.map Saved.profile) = records.map Saved.profile := by
    refine List.filter_eq_self.2 fun p hp => ?_
    obtain ⟨q, hq, rfl⟩ := List.mem_map.1 hp
    exact htext q hq
  have hkeys : written.map Prod.fst = (itemsOf src records).map Item.key := h.used.symm.trans hused
  have hprofiles : written.map Prod.snd = (itemsOf src records).map fun i => i.record.profile := by
    rw [hstored, hall]
    have hrecords : (itemsOf src records).map Item.record = records := map_record_itemsFrom [] records
    conv_lhs => rw [← hrecords, List.map_map]
    rfl
  have hwritten := List.zip_of_prod hkeys hprofiles
  rw [List.zip_map'] at hwritten
  rw [hwritten] at h
  exact ⟨b, hadd, h⟩

end Items

/-! ## 2. What the bases are -/

section Bases

variable {src : Sources} {b : Backup} {items : List Item}

/-- The items that were written, as the loop has noted them. -/
def WrittenItems (src : Sources) (b : Backup) (items : List Item) : Prop :=
  Written src b (items.map fun i => (i.key, i.record.profile))

theorem WrittenItems.mangled (h : WrittenItems src b items) {i : Item} (hi : i ∈ items) :
    ∃ k, i.base = underscored (safeName i.record.name) k := by
  obtain ⟨k, -, hk⟩ := Written.mangled h _ (List.mem_map_of_mem hi)
  exact ⟨k, (entryKey_inj hk).2⟩

theorem isBlank_ifBlank {s default : String} (h : isBlank default = false) :
    isBlank (ifBlank s default) = false := by
  unfold ifBlank
  cases hs : isBlank s with
  | true => exact h
  | false => exact hs

theorem isBlank_safeName (raw : String) : isBlank (safeName raw) = false := isBlank_ifBlank (by decide)

theorem isBlank_underscored {base : String} (h : isBlank base = false) (k : Nat) :
    isBlank (underscored base k) = false := by
  unfold isBlank underscored at *
  rw [String.toList_append, List.all_append, h, Bool.false_and]

theorem WrittenItems.isBlank_base (h : WrittenItems src b items) {i : Item} (hi : i ∈ items) :
    isBlank i.base = false := by
  obtain ⟨k, hk⟩ := h.mangled hi
  rw [hk]
  exact isBlank_underscored (isBlank_safeName _) k

theorem WrittenItems.isSafe_base (h : WrittenItems src b items) {i : Item} (hi : i ∈ items) :
    ∀ c ∈ i.base.toList, isSafe c = true := by
  obtain ⟨k, hk⟩ := h.mangled hi
  rw [hk]
  exact fun c => isSafe_of_mem_underscored

/-- A base starts as the mangled name does. -/
theorem WrittenItems.head?_base (h : WrittenItems src b items) {i : Item} (hi : i ∈ items) :
    i.base.toList.head? = (safeName i.record.name).toList.head? := by
  obtain ⟨k, hk⟩ := h.mangled hi
  have hne : (safeName i.record.name).toList ≠ [] := by
    intro hnil
    have hblank := isBlank_safeName i.record.name
    rw [isBlank, hnil] at hblank
    cases hblank
  rw [hk, underscored, String.toList_append, List.head?_append_of_ne_nil _ hne]

end Bases

/-! ## 3. What is read of an entry -/

section Read

variable {src : Sources}

theorem path_entry {d : Protocol} {base ext : String} (hbase : ∀ c ∈ base.toList, isSafe c = true)
    (hext : ∀ c ∈ ext.toList, isSafe c = true) (bytes : List UInt8) :
    (⟨entryKey (dirName d) base ++ "." ++ ext, bytes⟩ : ZipEntry).path
      = (dirName d).toList ++ '/' :: (base.toList ++ '.' :: ext.toList) := by
  have hdir : ∀ c ∈ (dirName d).toList, isSafe c = true := by cases d <;> decide
  have hback : ∀ cs : List Char, (∀ c ∈ cs, isSafe c = true) →
      cs.map (fun c => if c = '\\' then '/' else c) = cs := by
    intro cs hcs
    refine (List.map_congr_left fun c hc => ?_).trans (List.map_id' cs)
    rw [if_neg]
    rintro rfl
    exact Bool.false_ne_true (hcs _ hc)
  unfold ZipEntry.path entryKey
  simp [hback _ hdir, hback _ hbase, hback _ hext]

theorem base_entry_item {i : Item} (hbase : ∀ c ∈ i.base.toList, isSafe c = true) :
    (i.entry src).base = i.base.toList ++ '.' :: (src.extension i.record.profile).toList :=
  base_entry (d := i.record.protocol) hbase (isSafe_extension _) (toByteArray i.text)

/-- Only an IKEv2 profile is written as what is taken for one. -/
theorem isIkev2Backup_entry {i : Item} (hbase : ∀ c ∈ i.base.toList, isSafe c = true) :
    ZipImport.isIkev2Backup (i.entry src) = (i.record.protocol == .ikev2) := by
  have hsafe : ∀ c ∈ (src.extension i.record.profile).toList, isSafe c = true := isSafe_extension _
  have hpath := path_entry (d := i.record.protocol) hbase hsafe (toByteArray i.text)
  have hbaseName : (i.entry src).base = i.base.toList ++ '.' :: (src.extension i.record.profile).toList :=
    base_entry_item hbase
  unfold ZipImport.isIkev2Backup
  rw [hbaseName]
  unfold Item.entry entryName Item.key
  rw [hpath]
  cases hd : i.record.protocol with
  | wireguard => rfl
  | openvpn => rfl
  | xray => rfl
  | ikev2 =>
    have hext : src.extension i.record.profile = "json" := by
      rw [extension_eq_json_iff]
      exact .inl hd
    rw [hext]
    have hsuffix : ZipImport.hasExtension (i.base.toList ++ '.' :: "json".toList) ".json" = true := by
      unfold ZipImport.hasExtension Text.lowercase
      rw [List.map_append, List.isSuffixOf_iff_suffix]
      exact List.suffix_append _ _
    rw [hsuffix]
    rfl

/-- **An entry is read under its base**, with its text. -/
theorem entryOf_entry {i : Item} (hbase : ∀ c ∈ i.base.toList, isSafe c = true) :
    ZipImport.entryOf (i.entry src) = i.config := by
  have hbaseName : (i.entry src).base = i.base.toList ++ '.' :: (src.extension i.record.profile).toList :=
    base_entry_item hbase
  have htext : utf8String (i.entry src).bytes = i.text := utf8String_toByteArray i.text
  unfold ZipImport.entryOf Item.config
  rw [isIkev2Backup_entry hbase, hbaseName, htext, Text.cutLast_append (dot_not_mem_extension _)]
  simp

/-- **It is read as a config** unless its base starts with a dot. -/
theorem isConfigFile_entry {i : Item} (hbase : ∀ c ∈ i.base.toList, isSafe c = true)
    (hblank : isBlank i.base = false)
    (hdot : i.record.protocol ≠ .ikev2 → i.base.toList.head? ≠ some '.') :
    ZipImport.isConfigFile (i.entry src) = true := by
  have hbaseName : (i.entry src).base = i.base.toList ++ '.' :: (src.extension i.record.profile).toList :=
    base_entry_item hbase
  have hdirectory : (i.entry src).isDirectory = false := by
    have hall : ∀ ext ∈ ["conf", "ovpn", "json", "link"], ext.toList ≠ [] ∧ ext.toList.getLast? ≠ some '/' := by
      decide
    have hmem : src.extension i.record.profile ∈ ["conf", "ovpn", "json", "link"] := extension_mem _
    obtain ⟨hne, hlast⟩ := hall _ hmem
    unfold ZipEntry.isDirectory Item.entry entryName
    rw [String.toList_append, beq_eq_false_iff_ne, List.getLast?_append_of_ne_nil _ hne]
    exact hlast
  unfold ZipImport.isConfigFile
  rw [hdirectory, Bool.not_false, Bool.true_and, isIkev2Backup_entry hbase, Bool.or_eq_true, beq_iff_eq]
  by_cases hd : i.record.protocol = .ikev2
  · exact .inl hd
  · right
    have hne : i.base.toList ≠ [] := by
      intro hnil
      rw [isBlank, hnil] at hblank
      cases hblank
    have hhead : (i.base.toList ++ '.' :: (src.extension i.record.profile).toList).head? ≠ some '.' := by
      rw [List.head?_append_of_ne_nil _ hne]
      exact hdot hd
    have hvisible : (i.base.toList ++ '.' :: (src.extension i.record.profile).toList).all isWhitespace = false := by
      rw [List.all_append, List.all_cons, show isWhitespace '.' = false from by decide, Bool.false_and,
        Bool.and_false]
    have hextension : ZipImport.extensions.any
        (ZipImport.hasExtension (i.base.toList ++ '.' :: (src.extension i.record.profile).toList)) = true := by
      have hall : ∀ ext ∈ ["conf", "ovpn", "json", "link"],
          "." ++ ext ∈ ZipImport.extensions ∧ Text.lowercase ('.' :: ext.toList) = ("." ++ ext).toList := by decide
      have hext : src.extension i.record.profile ∈ ["conf", "ovpn", "json", "link"] := extension_mem _
      obtain ⟨hmem, hlower⟩ := hall _ hext
      rw [List.any_eq_true]
      refine ⟨_, hmem, ?_⟩
      unfold ZipImport.hasExtension
      rw [← hlower, List.isSuffixOf_iff_suffix]
      unfold Text.lowercase
      rw [List.map_append]
      exact List.suffix_append _ _
    rw [hbaseName, ZipImport.isConfigName, hvisible, beq_false_of_ne hhead, hextension]
    rfl

/-- **It is passed over** where its base starts with a dot. -/
theorem not_isConfigFile_entry {i : Item} (hbase : ∀ c ∈ i.base.toList, isSafe c = true)
    (hd : i.record.protocol ≠ .ikev2) (hdot : i.base.toList.head? = some '.') :
    ZipImport.isConfigFile (i.entry src) = false := by
  have hbaseName : (i.entry src).base = i.base.toList ++ '.' :: (src.extension i.record.profile).toList :=
    base_entry_item hbase
  have hname : ZipImport.isConfigName (i.entry src).base = false := by
    unfold ZipImport.isConfigName
    rw [hbaseName, List.head?_append, hdot, Option.some_or, beq_self_eq_true, Bool.or_true, Bool.not_true,
      Bool.false_and]
  unfold ZipImport.isConfigFile
  rw [isIkev2Backup_entry hbase, beq_false_of_ne hd, hname, Bool.or_false, Bool.and_false]

end Read

end BackupManager

/-! ## 4. What is read of the archive -/

namespace ZipImport

/-- Configs within the caps are read, and what is behind them is read on. -/
theorem readFrom_append {seen total : Nat} {es : List ZipEntry}
    (hfits : ∀ e ∈ es, fits e = true ∧ isBlank (entryOf e).text = false) (hseen : seen + es.length ≤ maxEntries)
    (htotal : total + bytesOf es ≤ maxTotalBytes) (rest : List ZipEntry) :
    readFrom seen total (es ++ rest)
      = es.map entryOf ++ readFrom (seen + es.length) (total + bytesOf es) rest := by
  induction es generalizing seen total with
  | nil => rfl
  | cons e es ih =>
    rw [List.length_cons] at hseen
    rw [bytesOf_cons] at htotal
    obtain ⟨hfit, hblank⟩ := hfits e List.mem_cons_self
    unfold fits at hfit
    rw [Bool.and_eq_true, decide_eq_true_iff] at hfit
    have hsome : e.bytes.length ≠ 0 := by
      intro hzero
      rw [isBlank_entryOf (List.length_eq_zero_iff.1 hzero)] at hblank
      cases hblank
    have hcap : e.bytes.length ≤ min maxEntryBytes (maxTotalBytes - total) :=
      Nat.le_min.2 ⟨hfit.2, by omega⟩
    rw [List.cons_append, readFrom_cons, if_neg (by omega), hfit.1, if_neg (by decide), if_neg (by omega),
      if_neg (Nat.not_lt.2 hcap), hblank, if_neg Bool.false_ne_true,
      ih (fun d hd => hfits d (List.mem_cons_of_mem e hd)) (by omega) (by omega), List.map_cons,
      List.cons_append, bytesOf_cons, List.length_cons, Nat.add_assoc total,
      show seen + 1 + es.length = seen + (es.length + 1) from by omega]

/-- A last entry is read or not. -/
theorem readFrom_singleton (seen total : Nat) (e : ZipEntry) :
    readFrom seen total [e] = [] ∨ readFrom seen total [e] = [entryOf e] := by
  rw [readFrom_cons]
  repeat' split
  all_goals first | exact .inl rfl | exact .inr rfl

end ZipImport

namespace BackupManager

open ZipImport XrayShareLink

variable {src : Sources} {b : Backup} {items : List Item}

theorem WrittenItems.entries (h : WrittenItems src b items)
    (htext : ∀ i ∈ items, src.text i.record.profile = some i.text) : b.entries = items.map (Item.entry src) := by
  rw [Written.entries h, List.map_map]
  refine List.map_congr_left fun i hi => ?_
  rw [Function.comp_apply, htext i hi]
  rfl

/-- **Every item is found again**, under its base; behind them there is at most the manifest. -/
theorem readConfigs_items (h : WrittenItems src b items)
    (htext : ∀ i ∈ items, src.text i.record.profile = some i.text) (hcount : items.length ≤ 499)
    (hsize : ∀ i ∈ items, (toByteArray i.text).length ≤ 512 * 1024)
    (htotal : (items.map fun i => (toByteArray i.text).length).sum ≤ 8 * 1024 * 1024)
    (hblank : ∀ i ∈ items, isBlank i.text = false)
    (hdot : ∀ i ∈ items, i.record.protocol ≠ .ikev2 → (safeName i.record.name).toList.head? ≠ some '.')
    (last : ZipEntry) :
    ∃ tail, readConfigs (b.entries ++ [last]) = items.map Item.config ++ tail ∧
      (tail = [] ∨ tail = [entryOf last]) := by
  have hfits : ∀ e ∈ b.entries, fits e = true ∧ isBlank (entryOf e).text = false := by
    intro e he
    rw [h.entries htext] at he
    obtain ⟨i, hi, rfl⟩ := List.mem_map.1 he
    have hsafe := h.isSafe_base hi
    constructor
    · unfold fits
      rw [isConfigFile_entry hsafe (h.isBlank_base hi) fun hd => by rw [h.head?_base hi]; exact hdot i hi hd,
        Bool.true_and, decide_eq_true_iff]
      exact hsize i hi
    · rw [entryOf_entry hsafe]
      exact hblank i hi
  have hbytes : bytesOf b.entries = (items.map fun i => (toByteArray i.text).length).sum := by
    rw [h.entries htext, bytesOf, List.map_map]
    rfl
  have hlength : b.entries.length = items.length := by rw [h.entries htext, List.length_map]
  have hconfigs : b.entries.map entryOf = items.map Item.config := by
    rw [h.entries htext, List.map_map]
    exact List.map_congr_left fun i hi => entryOf_entry (h.isSafe_base hi)
  refine ⟨readFrom (0 + b.entries.length) (0 + bytesOf b.entries) [last], ?_, readFrom_singleton _ _ last⟩
  rw [readConfigs, readFrom_append hfits (by unfold maxEntries; omega) (by unfold maxTotalBytes; omega), hconfigs]

end BackupManager

end SwiftVpn
