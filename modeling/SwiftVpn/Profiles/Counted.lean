/-
  File:      SwiftVpn/Profiles/Counted.lean
  Subject:   WHAT importZip REPORTS: the number that `VpnEngine.importZip` returns, beside the profiles
             that are there afterwards and were not before.

  * `newProfiles` -- the profiles of the list whose uuids were not in it;
  * `importZip_count_iff` -- a batch of links counts as nothing: the number is right exactly where no
    text that is handed to `importConfig` is a batch with a link that parses.
-/
import Mathlib.Algebra.Order.BigOperators.Group.List
import Mathlib.Algebra.Order.Group.Nat
import SwiftVpn.Profiles.Restore

namespace SwiftVpn

/-! ## 1. New profiles -/

/-- How many profiles of `s'` are not in `s`. -/
def newProfiles (pf : Platform) (s s' : AppState) : Nat :=
  (s'.profiles pf).countP fun p => decide (p.uuid ∉ (s.profiles pf).map (·.uuid))

/-- The uuids of the list, store by store. -/
theorem uuids_profiles (pf : Platform) (s : AppState) : (s.profiles pf).map (·.uuid)
    = s.openVpn.profiles.map (·.uuid) ++
      (s.wireGuard.files.filter fun f => pf.parseWireGuard f.text).map (·.uuid) ++
      (s.xray.files.filter fun f => XrayConfig.isCustomJson f.text ||
        (XrayShareLink.parse pf.doubles f.text).isSome).map (·.uuid) ++
      s.ikev2.rows.map (·.profile.uuid) := by
  unfold AppState.profiles WireGuardStore.profiles XrayStore.profiles
  simp only [List.map_append, List.map_map, Function.comp_def]

theorem mem_uuids_of_mem_profiles {pf : Platform} {s : AppState} {u : Uuid}
    (h : u ∈ (s.profiles pf).map (·.uuid)) : u ∈ s.uuids := by
  rw [uuids_profiles] at h
  unfold AppState.uuids XrayStore.uuids
  simp only [List.mem_append] at h ⊢
  have hfilter : ∀ {α : Type} {l : List α} {p : α → Bool} {f : α → Uuid},
      u ∈ (l.filter p).map f → u ∈ l.map f := fun hm =>
    (List.filter_sublist.map _).mem hm
  rcases h with ((h | h) | h) | h
  · simp [h]
  · simp [hfilter h]
  · simp [hfilter h]
  · simp [h]

namespace Grown

variable {pf : Platform} {s s' : AppState} {new : NewProfiles}

theorem length_uuids (new : NewProfiles) : new.uuids.length = new.size := by
  simp [NewProfiles.uuids, NewProfiles.size, Nat.add_assoc]

/-- The list grows by the new uuids. -/
theorem uuids_profiles_perm (h : Grown pf s s' new) :
    ((s'.profiles pf).map (·.uuid)).Perm ((s.profiles pf).map (·.uuid) ++ new.uuids) := by
  have hw : (new.wireGuard.filter fun f => pf.parseWireGuard f.text) = new.wireGuard :=
    List.filter_eq_self.2 h.wireGuard.parsed
  have hx : (new.xray.filter fun f =>
      XrayConfig.isCustomJson f.text || (XrayShareLink.parse pf.doubles f.text).isSome) = new.xray :=
    List.filter_eq_self.2 h.xray.parsed
  rw [uuids_profiles, uuids_profiles, h.openVpn.profiles, h.wireGuard.files, h.xray.files, h.ikev2.rows]
  unfold NewProfiles.uuids
  simp only [List.map_append, List.filter_append, hw, hx]
  refine List.perm_iff_count.mpr fun u => ?_
  simp only [List.count_append]
  omega

/-- **Every profile that was added is new, and no other is.** -/
theorem newProfiles_eq (h : Grown pf s s' new) (hf : s.Fresh pf) : newProfiles pf s s' = new.size := by
  have hmap : newProfiles pf s s' = ((s'.profiles pf).map (·.uuid)).countP
      fun u => decide (u ∉ (s.profiles pf).map (·.uuid)) := by
    rw [List.countP_map]
    rfl
  have hold : ((s.profiles pf).map (·.uuid)).countP
      (fun u => decide (u ∉ (s.profiles pf).map (·.uuid))) = 0 := by
    rw [List.countP_eq_zero]
    intro u hu
    simpa using hu
  have hnew : new.uuids.countP (fun u => decide (u ∉ (s.profiles pf).map (·.uuid)))
      = new.uuids.length := by
    rw [List.countP_eq_length]
    intro u hu
    exact decide_eq_true fun hm => h.not_mem hf hu (mem_uuids_of_mem_profiles hm)
  rw [hmap, h.uuids_profiles_perm.countP_eq, List.countP_append, hold, hnew, Nat.zero_add, length_uuids]

end Grown

/-! ## 2. The number -/

/-- Two sums, the terms of one below those of the other, agree where the terms do. -/
theorem sum_eq_sum_iff_of_le {α : Type} {f g : α → Nat} {l : List α} (h : ∀ a ∈ l, f a ≤ g a) :
    (l.map f).sum = (l.map g).sum ↔ ∀ a ∈ l, f a = g a := by
  induction l with
  | nil => simp
  | cons a l ih =>
    have htail : ∀ b ∈ l, f b ≤ g b := fun b hb => h b (List.mem_cons_of_mem a hb)
    have ha := h a List.mem_cons_self
    have hl : (l.map f).sum ≤ (l.map g).sum := List.sum_le_sum htail
    rw [List.map_cons, List.map_cons, List.sum_cons, List.sum_cons, List.forall_mem_cons]
    refine Iff.trans ?_ (and_congr_right fun _ => ih htail)
    omega

namespace VpnEngine

open XrayShareLink ZipImport

variable {pf : Platform}

/-- A batch is counted as nothing. -/
theorem returned_eq_profilesIn_iff (text : String) : returned pf text = profilesIn pf text ↔
    (1 < (extractLinks text).length → ∀ l ∈ extractLinks text, parse pf.doubles l = none) := by
  unfold returned
  by_cases hmany : 1 < (extractLinks text).length
  · have hbatch : profilesIn pf text
        = (extractLinks text).countP fun l => (parse pf.doubles l).isSome := if_pos hmany
    rw [if_neg (Nat.not_le.mpr hmany), hbatch, eq_comm, List.countP_eq_zero]
    simp only [Option.isSome_iff_ne_none, ne_eq, not_not]
    exact ⟨fun h _ => h, fun h => h hmany⟩
  · rw [if_pos (Nat.le_of_not_lt hmany)]
    exact ⟨fun _ h => absurd h hmany, fun _ => rfl⟩

theorem returned_le (text : String) : returned pf text ≤ profilesIn pf text := by
  unfold returned
  split
  · exact Nat.le_refl _
  · exact Nat.zero_le _

theorem counted_eq_stored_iff (e : Entry) : counted pf e = stored pf e ↔
    (e.isIkev2Backup = false → ∀ text ∈ handed e, 1 < (extractLinks text).length →
      ∀ l ∈ extractLinks text, parse pf.doubles l = none) := by
  unfold counted stored
  cases e.isIkev2Backup with
  | true =>
    rw [if_pos rfl, if_pos rfl]
    exact ⟨fun _ h => (by cases h), fun _ => rfl⟩
  | false =>
    rw [if_neg Bool.false_ne_true, if_neg Bool.false_ne_true,
      sum_eq_sum_iff_of_le fun text _ => returned_le text]
    simp only [returned_eq_profilesIn_iff, forall_const]

theorem counted_le (e : Entry) : counted pf e ≤ stored pf e := by
  unfold counted stored
  split
  · exact Nat.le_refl _
  · exact List.sum_le_sum fun text _ => returned_le text

/-- **The number is right exactly where no batch of links is handed on.** -/
theorem importZip_count_iff {s : AppState} (hf : s.Fresh pf) (archive : List ZipEntry) :
    (importZip pf s archive).2.1 = newProfiles pf s (importZip pf s archive).1 ↔
      ∀ e ∈ readConfigs archive, e.isIkev2Backup = false → ∀ text ∈ handed e,
        1 < (extractLinks text).length → ∀ l ∈ extractLinks text, parse pf.doubles l = none := by
  obtain ⟨⟨new, hgrown, hsize⟩, hcount⟩ := importZip_gains hf archive
  rw [hgrown.newProfiles_eq hf, hsize, hcount, sum_eq_sum_iff_of_le fun e _ => counted_le e]
  simp only [counted_eq_stored_iff]

/-- An archive of one text with two links, `gap` between them. -/
def twoLinks (gap : String) : List ZipEntry :=
  [⟨"a.txt", XrayShareLink.toByteArray ("trojan://p@h:1#a" ++ gap ++ "trojan://p@h:2#b")⟩]

theorem emptyState_fresh : emptyState.Fresh samplePlatform where
  injective := BackupManager.samplePlatform_injective
  unused p n _ hm := by
    have huuids : emptyState.uuids = [] := rfl
    rw [huuids] at hm
    cases hm

/-- One link a line. -/
theorem importZip_count_lines : (importZip samplePlatform emptyState (twoLinks "\n")).2.1
    = newProfiles samplePlatform emptyState (importZip samplePlatform emptyState (twoLinks "\n")).1 := by
  refine (importZip_count_iff emptyState_fresh _).mpr fun e he _ text htext hmany => ?_
  have hread : readConfigs (twoLinks "\n") = [⟨"a", "trojan://p@h:1#a\ntrojan://p@h:2#b", false⟩] := by
    decide +kernel
  have hhanded : handed ⟨"a", "trojan://p@h:1#a\ntrojan://p@h:2#b", false⟩
      = ["trojan://p@h:1#a", "trojan://p@h:2#b"] := by decide +kernel
  have hone : ∀ l ∈ ["trojan://p@h:1#a", "trojan://p@h:2#b"], (extractLinks l).length ≤ 1 := by
    decide +kernel
  rw [hread, List.mem_singleton] at he
  rw [he, hhanded] at htext
  exact absurd (hone text htext) (Nat.not_le_of_lt hmany)

/-- **Two links on one line** are stored and not counted: none is reported, two are there. -/
theorem importZip_uncounted :
    (importZip samplePlatform emptyState (twoLinks " ")).2.1
      ≠ newProfiles samplePlatform emptyState (importZip samplePlatform emptyState (twoLinks " ")).1 := by
  have hcount : (importZip samplePlatform emptyState (twoLinks " ")).2.1 = 0 ∧
      newProfiles samplePlatform emptyState (importZip samplePlatform emptyState (twoLinks " ")).1 = 2 := by
    decide +kernel
  rw [hcount.1, hcount.2]
  decide

end VpnEngine

end SwiftVpn
