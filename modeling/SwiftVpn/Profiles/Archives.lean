/-
  File:      SwiftVpn/Profiles/Archives.lean
  Subject:   WHAT IS READ OF AN ARCHIVE: `ZipImport.readConfigs` over a stream that may fail, and its
             three caps.

  * `ZipStream` -- the stream as `ZipInputStream` gives it, an entry by its reads; it may fail in front
    of an entry or inside one;
  * `readEntries` -- the loop, with its accumulators; `readEntries_found`: it is `readFrom` of
    Profiles/Restore.lean over the entries that can be read;
  * `readFrom_sublist` -- what is returned are whole entries, in order and within the caps;
  * `readFrom_complete` -- within the caps, every config is returned.
-/
import SwiftVpn.Profiles.Restore

namespace SwiftVpn

/-! ## 1. The stream -/

/-- An archive while it is unpacked: its end, an exception of `nextEntry`, or an entry. An entry is read
    by and by, and its reads may end in an exception. -/
inductive ZipStream where
  | eof
  | fail
  | entry (name : String) (reads : List (List UInt8)) (fails : Bool) (rest : ZipStream)
  deriving Repr

/-- The entries in front of the failure. -/
def ZipStream.archive : ZipStream → List ZipEntry
  | .eof | .fail => []
  | .entry name reads fails rest => if fails then [] else ⟨name, reads.flatten⟩ :: rest.archive

namespace ZipImport

/-- How `readCapped` ends. -/
inductive Capped where
  | bytes (bs : List UInt8)
  | over
  | threw
  deriving DecidableEq, Repr

/-- `readCapped`, after `out` was read. -/
def readCapped (limit : Nat) (fails : Bool) (out : List UInt8) : List (List UInt8) → Capped
  | [] => if fails then .threw else .bytes out
  | buf :: reads =>
    if limit < out.length + buf.length then .over else readCapped limit fails (out ++ buf) reads

/-- The variables of `readConfigs`. -/
structure Reading where
  found : List Entry := []
  total : Nat := 0
  seen : Nat := 0
  deriving Repr

/-- What an entry is returned as. -/
def entryOf (e : ZipEntry) : Entry :=
  ⟨String.ofList (((Text.cutLast '.' e.base).map (·.1)).getD e.base), XrayShareLink.utf8String e.bytes,
    isIkev2Backup e⟩

/-- A file that is read. -/
def isConfigFile (e : ZipEntry) : Bool := !e.isDirectory && (isIkev2Backup e || isConfigName e.base)

/-- The loop of `readConfigs`, and whether it was left by an exception. -/
def readEntries (st : Reading) : ZipStream → Reading × Bool
  | .eof => (st, false)
  | .fail => (st, true)
  | .entry name reads fails rest =>
    let st := { st with seen := st.seen + 1 }
    if maxEntries < st.seen then (st, false)
    -- `closeEntry` reads what is left of the entry
    else if !isConfigFile ⟨name, []⟩ then if fails then (st, true) else readEntries st rest
    else if maxTotalBytes ≤ st.total then (st, false)
    else match readCapped (min maxEntryBytes (maxTotalBytes - st.total)) fails [] reads with
      | .threw => (st, true)
      | .over => if fails then (st, true) else readEntries st rest
      | .bytes bs =>
        let e := entryOf ⟨name, bs⟩
        readEntries { st with
          found := if isBlank e.text then st.found else st.found ++ [e]
          total := st.total + bs.length } rest

/-- `readConfigs` on a stream: what was found before an exception is returned as well. -/
def readStream (input : ZipStream) : List Entry := (readEntries {} input).1.found

/-- An entry is read whole or not at all. -/
theorem readCapped_eq {limit : Nat} {fails : Bool} {out : List UInt8} (h : out.length ≤ limit)
    (reads : List (List UInt8)) : readCapped limit fails out reads
      = if limit < out.length + reads.flatten.length then .over
        else if fails then .threw else .bytes (out ++ reads.flatten) := by
  induction reads generalizing out with
  | nil => simp [readCapped, Nat.not_lt.mpr h]
  | cons buf reads ih =>
    unfold readCapped
    by_cases hover : limit < out.length + buf.length
    · have hall : limit < out.length + (buf :: reads).flatten.length := by
        rw [List.flatten_cons, List.length_append]
        omega
      rw [if_pos hover, if_pos hall]
    · have hfits : (out ++ buf).length ≤ limit := by
        rw [List.length_append]
        omega
      rw [if_neg hover, ih hfits, List.flatten_cons, List.length_append, List.length_append,
        List.append_assoc, Nat.add_assoc]

/-- What is done with one entry. -/
theorem readFrom_cons (seen total : Nat) (e : ZipEntry) (es : List ZipEntry) :
    readFrom seen total (e :: es)
      = if maxEntries < seen + 1 then []
        else if !isConfigFile e then readFrom (seen + 1) total es
        else if maxTotalBytes ≤ total then []
        else if min maxEntryBytes (maxTotalBytes - total) < e.bytes.length then
          readFrom (seen + 1) total es
        else if isBlank (entryOf e).text then readFrom (seen + 1) (total + e.bytes.length) es
        else entryOf e :: readFrom (seen + 1) (total + e.bytes.length) es := by
  rw [readFrom]
  refine if_congr Iff.rfl rfl ?_
  unfold isConfigFile
  cases e.isDirectory with
  | true => rfl
  | false =>
    rw [if_neg Bool.false_ne_true, Bool.not_false, Bool.true_and, Bool.not_or]
    rfl

/-- **The loop returns what is read of the entries before the failure.** -/
theorem readEntries_found (st : Reading) (input : ZipStream) :
    (readEntries st input).1.found = st.found ++ readFrom st.seen st.total input.archive := by
  induction input generalizing st with
  | eof | fail => simp [readEntries, ZipStream.archive, readFrom]
  | entry name reads fails rest ih =>
    have hnone : ∀ found : List Entry, found = found ++ readFrom st.seen st.total [] := fun found => by
      rw [readFrom, List.append_nil]
    have hname : isConfigFile ⟨name, reads.flatten⟩ = isConfigFile ⟨name, []⟩ := rfl
    rw [readEntries, ZipStream.archive, readCapped_eq (Nat.zero_le _)]
    dsimp only
    rw [List.nil_append, List.length_nil, Nat.zero_add]
    cases fails with
    | true =>
      simp only [if_true]
      by_cases hseen : maxEntries < st.seen + 1
      · rw [if_pos hseen]
        exact hnone _
      · rw [if_neg hseen]
        by_cases hfile : (!isConfigFile ⟨name, []⟩) = true
        · rw [if_pos hfile]
          exact hnone _
        · rw [if_neg hfile]
          by_cases htotal : maxTotalBytes ≤ st.total
          · rw [if_pos htotal]
            exact hnone _
          · rw [if_neg htotal]
            split
            all_goals first | exact hnone _ | skip
            rename_i hbytes
            split at hbytes <;> cases hbytes
    | false =>
      simp only [Bool.false_eq_true, if_false]
      rw [readFrom_cons, hname]
      by_cases hseen : maxEntries < st.seen + 1
      · rw [if_pos hseen, if_pos hseen, List.append_nil]
      · rw [if_neg hseen, if_neg hseen]
        by_cases hfile : (!isConfigFile ⟨name, []⟩) = true
        · rw [if_pos hfile, if_pos hfile, ih]
        · rw [if_neg hfile, if_neg hfile]
          by_cases htotal : maxTotalBytes ≤ st.total
          · rw [if_pos htotal, if_pos htotal, List.append_nil]
          · rw [if_neg htotal, if_neg htotal]
            by_cases hover : min maxEntryBytes (maxTotalBytes - st.total) < reads.flatten.length
            · rw [if_pos hover, if_pos hover, ih]
            · rw [if_neg hover, if_neg hover, ih]
              cases isBlank (entryOf ⟨name, reads.flatten⟩).text with
              | true => rfl
              | false => simp only [Bool.false_eq_true, if_false, List.append_assoc, List.singleton_append]

/-! ## 2. Nothing but whole entries within the caps -/

/-- The bytes of some entries. -/
def bytesOf (es : List ZipEntry) : Nat := (es.map fun e => e.bytes.length).sum

@[simp] theorem bytesOf_nil : bytesOf [] = 0 := rfl

@[simp] theorem bytesOf_cons (e : ZipEntry) (es : List ZipEntry) :
    bytesOf (e :: es) = e.bytes.length + bytesOf es := by
  simp [bytesOf]

/-- **What is returned are whole entries**, in the order of the archive, and within the caps. -/
theorem readFrom_sublist (seen : Nat) {total : Nat} (es : List ZipEntry) (h : total ≤ maxTotalBytes) :
    ∃ kept : List ZipEntry, kept.Sublist (es.take (maxEntries - seen)) ∧
      readFrom seen total es = kept.map entryOf ∧
      (∀ e ∈ kept, isConfigFile e = true ∧ e.bytes.length ≤ maxEntryBytes) ∧
      total + bytesOf kept ≤ maxTotalBytes := by
  induction es generalizing seen total with
  | nil => exact ⟨[], List.nil_sublist _, rfl, by simp, h⟩
  | cons e es ih =>
    rw [readFrom_cons]
    split
    · exact ⟨[], List.nil_sublist _, rfl, by simp, h⟩
    · rename_i hseen
      have htake : (e :: es).take (maxEntries - seen) = e :: es.take (maxEntries - (seen + 1)) := by
        rw [show maxEntries - seen = maxEntries - (seen + 1) + 1 from by omega, List.take_succ_cons]
      rw [htake]
      split
      · obtain ⟨kept, hsub, heq, hkept, hbytes⟩ := ih (seen + 1) h
        exact ⟨kept, hsub.cons e, heq, hkept, hbytes⟩
      · rename_i hfile
        split
        · exact ⟨[], List.nil_sublist _, rfl, by simp, h⟩
        · split
          · obtain ⟨kept, hsub, heq, hkept, hbytes⟩ := ih (seen + 1) h
            exact ⟨kept, hsub.cons e, heq, hkept, hbytes⟩
          · rename_i htotal hover
            rw [Nat.not_lt, Nat.le_min] at hover
            have hnext : total + e.bytes.length ≤ maxTotalBytes := by omega
            obtain ⟨kept, hsub, heq, hkept, hbytes⟩ := ih (seen + 1) hnext
            split
            · exact ⟨kept, hsub.cons e, heq, hkept, by omega⟩
            · refine ⟨e :: kept, hsub.cons_cons e, by rw [heq, List.map_cons], ?_, ?_⟩
              · intro d hd
                rcases List.mem_cons.mp hd with rfl | hd
                · exact ⟨by simpa using hfile, hover.1⟩
                · exact hkept d hd
              · rw [bytesOf_cons]
                omega

theorem not_mem_path_backslash (e : ZipEntry) : '\\' ∉ e.path := by
  intro h
  obtain ⟨c, -, hc⟩ := List.mem_map.mp h
  split at hc
  · cases hc
  · rename_i hne
    exact hne hc

theorem mem_path_of_mem_base {e : ZipEntry} {c : Char} (h : c ∈ e.base) : c ∈ e.path := by
  unfold ZipEntry.base at h
  cases hcut : Text.cutLast '/' e.path with
  | none =>
    rw [hcut] at h
    exact h
  | some parts =>
    rw [hcut] at h
    rw [Text.cutLast_eq_some hcut]
    exact List.mem_append_right _ (List.mem_cons_of_mem _ h)

theorem not_mem_base_slash (e : ZipEntry) : '/' ∉ e.base := by
  unfold ZipEntry.base
  cases hcut : Text.cutLast '/' e.path with
  | none => exact Text.not_mem_of_cutLast_none hcut
  | some parts => exact Text.not_mem_of_cutLast hcut

/-- A label is no path. -/
theorem not_mem_label (e : ZipEntry) {c : Char} (h : c = '/' ∨ c = '\\') :
    c ∉ (entryOf e).name.toList := by
  have hbase : c ∉ e.base := by
    rcases h with rfl | rfl
    · exact not_mem_base_slash e
    · exact fun hc => not_mem_path_backslash e (mem_path_of_mem_base hc)
  unfold entryOf
  rw [String.toList_ofList]
  cases hcut : Text.cutLast '.' e.base with
  | none => exact hbase
  | some parts =>
    intro hc
    refine hbase ?_
    rw [Text.cutLast_eq_some hcut]
    exact List.mem_append_left _ hc

/-! ## 3. Every config within the caps -/

/-- A config of at most `maxEntryBytes`. -/
def fits (e : ZipEntry) : Bool := isConfigFile e && decide (e.bytes.length ≤ maxEntryBytes)

theorem length_le_bytesOf {e : ZipEntry} {es : List ZipEntry} (h : e ∈ es) :
    e.bytes.length ≤ bytesOf es := by
  induction es with
  | nil => cases h
  | cons d es ih =>
    rw [bytesOf_cons]
    rcases List.mem_cons.mp h with rfl | h
    · exact Nat.le_add_right _ _
    · exact Nat.le_add_left_of_le (ih h)

/-- An entry without bytes is blank. -/
theorem isBlank_entryOf {e : ZipEntry} (h : e.bytes = []) : isBlank (entryOf e).text = true := by
  have hnone : isBlank (XrayShareLink.utf8String []) = true := by decide
  unfold entryOf
  rw [h]
  exact hnone

/-- **Within the caps, every config that is not blank is returned.** -/
theorem readFrom_complete {seen total : Nat} {es : List ZipEntry} (hseen : seen + es.length ≤ maxEntries)
    (htotal : total + bytesOf (es.filter fits) ≤ maxTotalBytes) :
    readFrom seen total es
      = (es.filter fun e => fits e && !isBlank (entryOf e).text).map entryOf := by
  induction es generalizing seen total with
  | nil => rfl
  | cons e es ih =>
    rw [List.length_cons] at hseen
    have hskip : fits e = false → total + bytesOf (es.filter fits) ≤ maxTotalBytes ∧
        (e :: es).filter (fun e => fits e && !isBlank (entryOf e).text)
          = es.filter fun e => fits e && !isBlank (entryOf e).text := by
      intro hfits
      rw [List.filter_cons_of_neg (by rw [hfits]; nofun)] at htotal
      exact ⟨htotal, List.filter_cons_of_neg (by rw [hfits]; nofun)⟩
    rw [readFrom_cons, if_neg (by omega)]
    by_cases hfile : isConfigFile e = true
    · rw [hfile, if_neg (by decide)]
      by_cases hfull : maxTotalBytes ≤ total
      · -- what is left of the configs has no bytes
        have hempty : ∀ d ∈ e :: es, ¬ (fits d && !isBlank (entryOf d).text) = true := by
          intro d hd hkept
          rw [Bool.and_eq_true] at hkept
          have hle := length_le_bytesOf (List.mem_filter.mpr ⟨hd, hkept.1⟩)
          have hnone : d.bytes = [] := List.length_eq_zero_iff.mp (by omega)
          rw [isBlank_entryOf hnone] at hkept
          cases hkept.2
        rw [if_pos hfull, List.filter_eq_nil_iff.mpr hempty, List.map_nil]
      · rw [if_neg hfull]
        by_cases hsmall : e.bytes.length ≤ maxEntryBytes
        · have hfits : fits e = true := by
            unfold fits
            rw [hfile, decide_eq_true hsmall]
            rfl
          rw [List.filter_cons_of_pos hfits, bytesOf_cons] at htotal
          have hle : e.bytes.length ≤ min maxEntryBytes (maxTotalBytes - total) :=
            Nat.le_min.mpr ⟨hsmall, by omega⟩
          have hcount : seen + 1 + es.length ≤ maxEntries := by omega
          have hbytes : total + e.bytes.length + bytesOf (es.filter fits) ≤ maxTotalBytes := by omega
          rw [if_neg (Nat.not_lt.mpr hle), ih hcount hbytes]
          cases hblank : isBlank (entryOf e).text with
          | true =>
            rw [if_pos rfl, List.filter_cons_of_neg]
            rw [hblank, Bool.not_true, Bool.and_false]
            decide
          | false =>
            rw [if_neg Bool.false_ne_true, List.filter_cons_of_pos, List.map_cons]
            rw [hblank, hfits]
            rfl
        · have hover : min maxEntryBytes (maxTotalBytes - total) < e.bytes.length :=
            Nat.lt_of_le_of_lt (Nat.min_le_left _ _) (Nat.lt_of_not_le hsmall)
          have hfits : fits e = false := by
            unfold fits
            rw [decide_eq_false hsmall, Bool.and_false]
          rw [if_pos hover, ih (by omega) (hskip hfits).1, (hskip hfits).2]
    · have hfits : fits e = false := by
        unfold fits
        rw [Bool.eq_false_iff.mpr hfile]
        rfl
      rw [Bool.eq_false_iff.mpr hfile, if_pos (by decide), ih (by omega) (hskip hfits).1, (hskip hfits).2]

/-- A JSON document in the directory of the IKEv2 backups. -/
theorem isIkev2Backup_iff (e : ZipEntry) : isIkev2Backup e = true ↔
    "ikev2/".toList <+: e.path ∧ ".json".toList <:+ Text.lowercase e.base := by
  unfold isIkev2Backup hasExtension
  rw [Bool.and_eq_true, List.isPrefixOf_iff_prefix, List.isSuffixOf_iff_suffix]

/-- **An archive is read within its caps and within them completely.** Whatever the stream holds and
    wherever it fails, what is returned are whole files among its first entries, in their order, each
    and all of them within the caps, by a label that is no path. Where the number of entries and the
    bytes of the configs are within the caps, every config in front of the failure is among them. -/
theorem readStream_bounded (input : ZipStream) :
    (∃ kept : List ZipEntry, kept.Sublist (input.archive.take maxEntries) ∧
      readStream input = kept.map entryOf ∧ bytesOf kept ≤ maxTotalBytes ∧
      ∀ e ∈ kept, e.isDirectory = false ∧ e.bytes.length ≤ maxEntryBytes ∧
        '/' ∉ (entryOf e).name.toList ∧ '\\' ∉ (entryOf e).name.toList ∧
        ((entryOf e).isIkev2Backup = true →
          "ikev2/".toList <+: e.path ∧ ".json".toList <:+ Text.lowercase e.base)) ∧
    (input.archive.length ≤ maxEntries → bytesOf (input.archive.filter fits) ≤ maxTotalBytes →
      readStream input
        = (input.archive.filter fun e => fits e && !isBlank (entryOf e).text).map entryOf) := by
  have hread : readStream input = readFrom 0 0 input.archive :=
    (readEntries_found {} input).trans (List.nil_append _)
  rw [hread]
  refine ⟨?_, fun hseen htotal => readFrom_complete (by omega) (by omega)⟩
  obtain ⟨kept, hsub, heq, hkept, hbytes⟩ := readFrom_sublist 0 input.archive (Nat.zero_le _)
  refine ⟨kept, hsub, heq, by omega, fun e he => ?_⟩
  obtain ⟨hfile, hsmall⟩ := hkept e he
  unfold isConfigFile at hfile
  rw [Bool.and_eq_true, Bool.not_eq_true'] at hfile
  exact ⟨hfile.1, hsmall, not_mem_label e (.inl rfl), not_mem_label e (.inr rfl),
    (isIkev2Backup_iff e).mp⟩

end ZipImport

end SwiftVpn
