/-
  File:      SwiftVpn/Profiles/Reimport.lean
  Subject:   THE ENTRIES OF A BACKUP, IMPORTED AGAIN: what importZip makes of the items, one after the
             other.

  * `Recognised` -- the looks at the content of a text lead to the importer of its protocol;
  * `arrivalsFrom` -- under which name each item is stored: its base, the name that stands in a link or
    in the document of an IKEv2 profile, for Xray made unique among the profiles that came before;
  * `Arrived` -- the invariant: the stores hold the items that came so far, in their order;
  * `importEntry_item` -- the step; `foldl_importEntry_items` -- all items.
-/
import SwiftVpn.Profiles.Entries

namespace SwiftVpn

open XrayShareLink

/-! ## 1. What is stored of an item -/

/-- What is saved of a profile, its uuid aside. -/
def Saved.anonymous (q : Saved) : Saved := { q with uuid := "" }

/-- What is saved of the profiles of one protocol. -/
def AppState.savedOf (pf : Platform) (s : AppState) : Protocol → List Saved
  | .openvpn => s.savedOpenVpn
  | .wireguard => s.savedWireGuard pf
  | .xray => s.savedXray pf
  | .ikev2 => s.savedIkev2

namespace BackupManager

/-- The text is one that its importer accepts. -/
def Accepts (pf : Platform) (text : String) : Protocol → Prop
  | .wireguard => pf.parseWireGuard text = true
  | .openvpn => (pf.parseOpenVpn text).isSome = true
  | .xray =>
    if XrayConfig.isCustomJson text then XrayConfig.isValidCustomJson pf.doubles (trim text) = true
    else (parse pf.doubles text).isSome = true
  | .ikev2 => (VpnEngine.ikev2Document pf text).isSome = true

/-- The looks at the content of a text lead to the importer of the protocol `d`. -/
structure Recognised (pf : Platform) (text : String) (d : Protocol) : Prop where
  batch : (extractLinks text).length ≤ 1
  lines : (VpnEngine.entryLinks text).length ≤ 1
  xray : looksLikeShareLink text = true ∨ XrayConfig.isCustomJson text = true ↔ d = .xray
  wireGuard : d = .wireguard → WireGuardStore.looksLikeWireGuard text = true ∨ pf.parseOpenVpn text = none
  openVpn : d = .openvpn → WireGuardStore.looksLikeWireGuard text = true → pf.parseWireGuard text = false

/-- The certificate of an IKEv2 profile gets its alias again. -/
def Reinstalled (pf : Platform) (certs : Certificates) (q : Ikev2Profile) : Prop :=
  ∀ der ∈ caCertDer certs q, ∀ installed ∈ pf.installCa der, installed = q.caAlias

/-- The item of an IKEv2 profile: what is saved of it, and the text of its dump. -/
structure IsDump (certs : Certificates) (i : Item) (q : Ikev2Profile) : Prop where
  content : i.record.content = .ikev2 { q with uuid := "", name := "" }
  name : i.record.name = q.name
  text : i.text = Json.layOut (Json.indented 2) (.obj (ikev2Json certs q))
  stored : q.stored = q
  inRange : q.InRange

/-- An item that is stored again by its own importer. -/
structure Ready (pf : Platform) (certs : Certificates) (i : Item) : Prop where
  base : isBlank i.base = false
  content : i.record.protocol ≠ .ikev2 → i.record.content = .text (some i.text)
  trimmed : i.record.protocol = .xray → trim i.text = i.text
  accepted : Accepts pf i.text i.record.protocol
  recognised : i.record.protocol ≠ .ikev2 → Recognised pf i.text i.record.protocol
  ikev2 : i.record.protocol = .ikev2 →
    isBlank i.record.name = false ∧ ∃ q, IsDump certs i q ∧ Reinstalled pf certs q

/-- The name that is wanted for an Xray profile: the one in its link goes before the base. -/
def wantedName (doubles : Doubles) (i : Item) : String :=
  if XrayConfig.isCustomJson i.text then i.base
  else ((parse doubles i.text).map fun o => ifBlank o.name i.base).getD i.base

/-- The name under which an item is stored, behind Xray profiles of the names `taken`. -/
def arrivalName (doubles : Doubles) (taken : List String) (i : Item) : String :=
  match i.record.protocol with
  | .wireguard => i.base
  | .openvpn => i.base
  | .xray => uniqueAgainst (wantedName doubles i) taken
  | .ikev2 => i.record.name

/-- The items with the names under which they are stored, one after the other. -/
def arrivalsFrom (doubles : Doubles) (taken : List String) : List Item → List (Item × String)
  | [] => []
  | i :: is =>
    let name := arrivalName doubles taken i
    (i, name) :: arrivalsFrom doubles (if i.record.protocol = .xray then taken ++ [name] else taken) is

/-- What is stored of an item under a name. -/
def arrived (pf : Platform) (a : Item × String) : Saved where
  uuid := ""
  protocol := a.1.record.protocol
  name := a.2
  content := a.1.record.content
  credentials := if a.1.record.protocol = .openvpn then (pf.parseOpenVpn a.1.text).getD {} else {}
  isFavourite := false

/-- The arrivals of one protocol. -/
def ofProtocol (d : Protocol) (arrivals : List (Item × String)) : List (Item × String) :=
  arrivals.filter fun a => a.1.record.protocol == d

theorem ofProtocol_concat (d : Protocol) (arrivals : List (Item × String)) (a : Item × String) :
    ofProtocol d (arrivals ++ [a])
      = ofProtocol d arrivals ++ if a.1.record.protocol = d then [a] else [] := by
  unfold ofProtocol
  rw [List.filter_append, List.filter_singleton]
  by_cases hd : a.1.record.protocol = d
  · rw [hd, beq_self_eq_true, if_pos rfl]
    rfl
  · rw [beq_false_of_ne hd, if_neg hd]
    rfl

/-- **The stores hold what has arrived**, in its order. -/
structure Arrived (pf : Platform) (s : AppState) (arrivals : List (Item × String)) : Prop where
  fresh : s.Fresh pf
  distinct : s.Distinct
  unstarred : ∀ p n, pf.newUuid p n ∉ s.favourites
  saved : ∀ d, (s.savedOf pf d).map Saved.anonymous = (ofProtocol d arrivals).map (arrived pf)
  plain : ∀ a ∈ arrivals, a.1.record.protocol = .wireguard ∨ a.1.record.protocol = .openvpn → a.2 = a.1.base

end BackupManager

/-! ## 2. What one importer adds -/

namespace AppState

variable {pf : Platform} {s : AppState}

/-- A new WireGuard file, in the list of what is saved. -/
theorem savedWireGuard_addFile {f : WireGuardFile} (hparsed : pf.parseWireGuard f.text = true)
    (hnew : f.uuid ∉ s.wireGuard.files.map (·.uuid)) (name : String) (n : Nat) :
    ({ s with wireGuard := s.wireGuard.addFile f name, lastBatchImport := n } : AppState).savedWireGuard pf
      = s.savedWireGuard pf ++
        [⟨f.uuid, .wireguard, name, .text (some f.text), {}, decide (f.uuid ∈ s.favourites)⟩] := by
  unfold savedWireGuard WireGuardStore.addFile
  dsimp only
  rw [List.filter_append, List.map_append, List.filter_singleton, hparsed]
  congr 1
  · refine List.map_congr_left fun g hg => ?_
    have hne : g.uuid ≠ f.uuid :=
      fun he => hnew (he ▸ List.mem_map_of_mem (List.mem_filter.1 hg).1)
    simp [WireGuardStore.name, setPref, hne]
  · simp [WireGuardStore.name, setPref]

/-- A new Xray file. -/
theorem savedXray_addFile {f : XrayFile}
    (hparsed : (XrayConfig.isCustomJson f.text || (parse pf.doubles f.text).isSome) = true)
    (hnew : f.uuid ∉ s.xray.uuids) (name : String) (n : Nat) :
    ({ s with xray := s.xray.addFile f name none, lastBatchImport := n } : AppState).savedXray pf
      = s.savedXray pf ++
        [⟨f.uuid, .xray, name, .text (some f.text), {}, decide (f.uuid ∈ s.favourites)⟩] := by
  unfold savedXray XrayStore.addFile
  dsimp only
  rw [List.filter_append, List.map_append, List.filter_singleton, hparsed]
  congr 1
  · refine List.map_congr_left fun g hg => ?_
    have hne : g.uuid ≠ f.uuid :=
      fun he => hnew (he ▸ List.mem_map_of_mem (List.mem_filter.1 hg).1)
    simp [XrayStore.name, setPref, hne]
  · simp [XrayStore.name, setPref]

/-- The names that the two importers look at are those of what is saved. -/
theorem names_wireGuard (pf : Platform) (s : AppState) :
    (s.wireGuard.profiles pf).map (·.name) = (s.savedWireGuard pf).map (·.name) := by
  unfold WireGuardStore.profiles savedWireGuard
  rw [List.map_map, List.map_map]
  rfl

theorem names_xray (pf : Platform) (s : AppState) :
    s.xray.profileNames pf.doubles = (s.savedXray pf).map (·.name) := by
  unfold XrayStore.profileNames savedXray
  rw [List.map_map]
  rfl

theorem names_openVpn (s : AppState) : s.openVpn.profiles.map (·.name) = s.savedOpenVpn.map (·.name) := by
  unfold savedOpenVpn
  rw [List.map_map]
  rfl

end AppState

namespace BackupManager

open VpnEngine

variable {pf : Platform} {certs : Certificates} {s : AppState} {arrivals : List (Item × String)} {i : Item}

/-- The names in use are those of the arrivals. -/
theorem Arrived.names (h : Arrived pf s arrivals) (d : Protocol) :
    (s.savedOf pf d).map (·.name) = (ofProtocol d arrivals).map (·.2) := by
  have hnames := congrArg (List.map Saved.name) (h.saved d)
  rw [List.map_map, List.map_map] at hnames
  exact hnames

/-- **One item more**, in the store of its protocol. -/
theorem Arrived.add (h : Arrived pf s arrivals) {s' : AppState} {new : NewProfiles} (hgrown : Grown pf s s' new)
    {q : Saved} {name : String} (hq : q.anonymous = arrived pf (i, name))
    (hsaved : s'.savedOf pf i.record.protocol = s.savedOf pf i.record.protocol ++ [q])
    (hother : ∀ d, d ≠ i.record.protocol → s'.savedOf pf d = s.savedOf pf d)
    (hplain : i.record.protocol = .wireguard ∨ i.record.protocol = .openvpn → name = i.base) :
    Arrived pf s' (arrivals ++ [(i, name)]) where
  fresh := hgrown.fresh h.fresh
  distinct := hgrown.distinct h.fresh h.distinct
  unstarred p n := by
    rw [hgrown.favourites]
    exact h.unstarred p n
  saved d := by
    rw [ofProtocol_concat, List.map_append]
    by_cases hd : i.record.protocol = d
    · subst hd
      rw [if_pos rfl, hsaved, List.map_append, h.saved, List.map_singleton, hq]
      rfl
    · rw [if_neg hd, hother d (Ne.symm hd), h.saved, List.map_nil, List.append_nil]
  plain a ha := by
    rcases List.mem_append.1 ha with ha | ha
    · exact h.plain a ha
    · obtain rfl := List.mem_singleton.1 ha
      exact hplain

/-- A custom config does not look like a link. -/
theorem not_looksLikeShareLink_of_isCustomJson {text : String} (h : XrayConfig.isCustomJson text = true) :
    looksLikeShareLink text = false := by
  obtain ⟨rest, hrest⟩ := XrayStore.toList_trim_of_isCustomJson h
  rw [Bool.eq_false_iff]
  intro hlooks
  obtain ⟨p, r, hs, hscheme⟩ := (looksLikeShareLink_iff text).1 hlooks
  obtain ⟨lit, hlit, hfold⟩ := hscheme
  have hall : ∀ lit ∈ linkSchemes, (lit.toList.map Text.foldCase).head? ≠ some '\x7b' ∧
      lit.toList ≠ [] := by decide
  obtain ⟨hhead, hne⟩ := hall lit hlit
  cases p with
  | nil =>
    rw [List.map_nil] at hfold
    exact hne (List.map_eq_nil_iff.1 hfold.symm)
  | cons c p =>
    rw [hrest, List.cons_append, List.cons.injEq] at hs
    rw [← hfold, List.map_cons, List.head?_cons, ← hs.1] at hhead
    exact hhead (by decide)

/-! ## 3. One item -/

section Texts

variable {text : String} (hbatch : (extractLinks text).length ≤ 1)

include hbatch

/-- A text that looks like neither goes to the two parsers. -/
theorem importConfig_parsers (hlooks : looksLikeShareLink text = false)
    (hjson : XrayConfig.isCustomJson text = false) (s : AppState) (name : String) :
    importConfig pf s text name = .of { s with lastBatchImport := 0 }
      (if WireGuardStore.looksLikeWireGuard text then
        (importWireGuard pf { s with lastBatchImport := 0 } text name <|>
          importOpenVpn pf { s with lastBatchImport := 0 } text name)
      else
        (importOpenVpn pf { s with lastBatchImport := 0 } text name <|>
          importWireGuard pf { s with lastBatchImport := 0 } text name)) := by
  unfold importConfig
  dsimp only
  rw [if_neg (Nat.not_lt.2 hbatch), hlooks, hjson, if_neg Bool.false_ne_true, if_neg Bool.false_ne_true]
  split <;> rfl

theorem importConfig_link (hlooks : looksLikeShareLink text = true) (s : AppState) (name : String) :
    importConfig pf s text name
      = .of { s with lastBatchImport := 0 } (importLink pf { s with lastBatchImport := 0 } text name) := by
  unfold importConfig
  dsimp only
  rw [if_neg (Nat.not_lt.2 hbatch), hlooks, if_pos rfl]

theorem importConfig_json (hjson : XrayConfig.isCustomJson text = true) (s : AppState) (name : String) :
    importConfig pf s text name
      = .of { s with lastBatchImport := 0 } (importCustomJson pf { s with lastBatchImport := 0 } text name) := by
  unfold importConfig
  dsimp only
  rw [if_neg (Nat.not_lt.2 hbatch), not_looksLikeShareLink_of_isCustomJson hjson, if_neg Bool.false_ne_true,
    hjson, if_pos rfl]

end Texts

theorem ifBlank_of_not {s : String} (h : isBlank s = false) (default : String) : ifBlank s default = s := by
  unfold ifBlank
  rw [h]
  rfl

/-- An entry of one profile is imported by `importConfig`. -/
theorem importEntry_of_lines (hd : i.record.protocol ≠ .ikev2) (hlines : (entryLinks i.text).length ≤ 1)
    (acc : AppState × Nat) : importEntry pf acc i.config = importCounted pf acc i.text i.base := by
  unfold importEntry Item.config
  dsimp only
  rw [beq_false_of_ne hd, if_neg Bool.false_ne_true, if_neg (Nat.not_lt.2 hlines)]

theorem importCounted_of_some {text name : String} {s s' : AppState} {p : Profile}
    (h : importConfig pf s text name = ⟨s', some p, none⟩) (n : Nat) :
    importCounted pf (s, n) text name = (s', n + 1) := by
  unfold importCounted
  rw [h]
  rfl

/-- A base that is not in use is the name of the profile. -/
theorem Arrived.base_not_mem (h : Arrived pf s arrivals) (hfree : ∀ a ∈ arrivals, a.1.key ≠ i.key)
    (hd : i.record.protocol = .wireguard ∨ i.record.protocol = .openvpn) :
    i.base ∉ (s.savedOf pf i.record.protocol).map (·.name) := by
  rw [h.names]
  intro hm
  obtain ⟨a, ha, hbase⟩ := List.mem_map.1 hm
  obtain ⟨hmem, hprotocol⟩ := List.mem_filter.1 ha
  rw [beq_iff_eq] at hprotocol
  refine hfree a hmem ?_
  rw [Item.key, Item.key, hprotocol, ← hbase, h.plain a hmem (hprotocol ▸ hd)]

/-- A uuid that is drawn next is new. -/
theorem Arrived.uuid_not_mem (h : Arrived pf s arrivals) (d : Protocol) : pf.newUuid d (s.drawn d) ∉ s.uuids :=
  h.fresh.unused d (s.drawn d) (Nat.le_refl _)

theorem Arrived.star (h : Arrived pf s arrivals) (d : Protocol) (n : Nat) :
    decide (pf.newUuid d n ∈ s.favourites) = false := decide_eq_false (h.unstarred d n)

/-- An item is stored under `name` in the store of its protocol, and counted. -/
structure Stores (pf : Platform) (s : AppState) (n : Nat) (i : Item) (name : String) (s' : AppState) : Prop where
  result : importEntry pf (s, n) i.config = (s', n + 1)
  saved : ∃ q : Saved, q.anonymous = arrived pf (i, name) ∧
    s'.savedOf pf i.record.protocol = s.savedOf pf i.record.protocol ++ [q]
  other : ∀ d, d ≠ i.record.protocol → s'.savedOf pf d = s.savedOf pf d

/-- What `importConfig` returns, read off the store of the protocol `d`. -/
theorem Stores.of_config {d : Protocol} {s' : AppState} {p : Profile} {q : Saved} {name : String}
    (hd : i.record.protocol = d) (hne : d ≠ .ikev2) (hlines : (entryLinks i.text).length ≤ 1)
    (hconfig : importConfig pf s i.text i.base = ⟨s', some p, none⟩)
    (hsaved : s'.savedOf pf d = s.savedOf pf d ++ [q]) (hother : ∀ e, e ≠ d → s'.savedOf pf e = s.savedOf pf e)
    (hq : q.anonymous = arrived pf (i, name)) (n : Nat) : Stores pf s n i name s' where
  result := (importEntry_of_lines (hd ▸ hne) hlines _).trans (importCounted_of_some hconfig n)
  saved := ⟨q, hq, by rw [hd]; exact hsaved⟩
  other := by rw [hd]; exact hother

section Step

variable (h : Arrived pf s arrivals) (hi : Ready pf certs i)

include h hi

theorem stores_wireGuard (hfree : ∀ a ∈ arrivals, a.1.key ≠ i.key) (hd : i.record.protocol = .wireguard)
    (n : Nat) : ∃ s', Stores pf s n i i.base s' := by
  have hne : i.record.protocol ≠ .ikev2 := by rw [hd]; decide
  have hrecognised := hi.recognised hne
  have hcontent := hi.content hne
  have haccepted := hi.accepted
  rw [hd] at hrecognised haccepted
  have hparsed : pf.parseWireGuard i.text = true := haccepted
  have hnot : ¬ (looksLikeShareLink i.text = true ∨ XrayConfig.isCustomJson i.text = true) :=
    fun hlooks => by cases hrecognised.xray.1 hlooks
  rw [not_or, Bool.not_eq_true, Bool.not_eq_true] at hnot
  have hname := h.base_not_mem hfree (.inl hd)
  rw [hd] at hname
  have hunique : uniqueAgainst (ifBlank i.base "wireguard") ((s.wireGuard.profiles pf).map (·.name)) = i.base := by
    rw [ifBlank_of_not hi.base, AppState.names_wireGuard]
    exact if_pos hname
  have himport : importWireGuard pf { s with lastBatchImport := 0 } i.text i.base
      = some ({ s with
          wireGuard := s.wireGuard.addFile ⟨pf.newUuid .wireguard s.wireGuard.drawn, i.text⟩ i.base
          lastBatchImport := 0 }, ⟨pf.newUuid .wireguard s.wireGuard.drawn, i.base, .wireguard, false⟩) := by
    unfold importWireGuard WireGuardStore.importText
    rw [hparsed]
    dsimp only
    rw [hunique]
    rfl
  have hconfig : importConfig pf s i.text i.base = ⟨{ s with
      wireGuard := s.wireGuard.addFile ⟨pf.newUuid .wireguard s.wireGuard.drawn, i.text⟩ i.base
      lastBatchImport := 0 }, some ⟨pf.newUuid .wireguard s.wireGuard.drawn, i.base, .wireguard, false⟩, none⟩ := by
    rw [importConfig_parsers hrecognised.batch hnot.1 hnot.2, himport]
    split
    · rfl
    · rename_i hsections
      have hopen := (hrecognised.wireGuard rfl).resolve_left hsections
      have hnone : importOpenVpn pf { s with lastBatchImport := 0 } i.text i.base = none := by
        unfold importOpenVpn ProfileManager.importText
        rw [hopen]
        rfl
      rw [hnone]
      rfl
  have hnew : pf.newUuid .wireguard s.wireGuard.drawn ∉ s.wireGuard.files.map (·.uuid) := by
    intro hm
    refine h.uuid_not_mem .wireguard ?_
    simp only [AppState.uuids, List.mem_append]
    exact .inl (.inl (.inr hm))
  have hsaved := AppState.savedWireGuard_addFile (s := s)
    (f := ⟨pf.newUuid .wireguard s.wireGuard.drawn, i.text⟩) hparsed hnew i.base 0
  refine ⟨_, Stores.of_config hd (by decide) hrecognised.lines hconfig hsaved (fun e he => ?_) ?_ n⟩
  · cases e with
    | wireguard => exact absurd rfl he
    | openvpn => rfl
    | xray => rfl
    | ikev2 => rfl
  · simp [Saved.anonymous, arrived, hd, hcontent, h.star .wireguard]

theorem stores_openVpn (hfree : ∀ a ∈ arrivals, a.1.key ≠ i.key) (hd : i.record.protocol = .openvpn)
    (n : Nat) : ∃ s', Stores pf s n i i.base s' := by
  have hne : i.record.protocol ≠ .ikev2 := by rw [hd]; decide
  have hrecognised := hi.recognised hne
  have hcontent := hi.content hne
  have haccepted := hi.accepted
  rw [hd] at hrecognised haccepted
  obtain ⟨c, hc⟩ := Option.isSome_iff_exists.1 (show (pf.parseOpenVpn i.text).isSome = true from haccepted)
  have hnot : ¬ (looksLikeShareLink i.text = true ∨ XrayConfig.isCustomJson i.text = true) :=
    fun hlooks => by cases hrecognised.xray.1 hlooks
  rw [not_or, Bool.not_eq_true, Bool.not_eq_true] at hnot
  have hname := h.base_not_mem hfree (.inr hd)
  rw [hd] at hname
  have hunique : uniqueAgainst (ifBlank i.base "profile") (s.openVpn.profiles.map (·.name)) = i.base := by
    rw [ifBlank_of_not hi.base, AppState.names_openVpn]
    exact if_pos hname
  have hmName : (⟨pf.newUuid .openvpn s.openVpn.drawn, i.base, c, some i.text⟩ : OpenVpnProfile).name = i.base := by
    have hempty : i.base.isEmpty = false := by
      rw [Bool.eq_false_iff]
      intro he
      have hblank := hi.base
      rw [String.isEmpty_iff.1 he] at hblank
      cases hblank
    unfold OpenVpnProfile.name
    rw [hempty]
    rfl
  have himport : importOpenVpn pf { s with lastBatchImport := 0 } i.text i.base
      = some ({ s with
          openVpn := ⟨s.openVpn.profiles ++ [⟨pf.newUuid .openvpn s.openVpn.drawn, i.base, c, some i.text⟩],
            s.openVpn.drawn + 1⟩
          lastBatchImport := 0 }, ⟨pf.newUuid .openvpn s.openVpn.drawn, i.base, .openvpn, false⟩) := by
    unfold importOpenVpn ProfileManager.importText
    rw [hc]
    dsimp only [Option.bind_eq_bind, Option.bind_some]
    rw [hunique, hmName]
    rfl
  have hconfig : importConfig pf s i.text i.base = ⟨{ s with
      openVpn := ⟨s.openVpn.profiles ++ [⟨pf.newUuid .openvpn s.openVpn.drawn, i.base, c, some i.text⟩],
        s.openVpn.drawn + 1⟩
      lastBatchImport := 0 }, some ⟨pf.newUuid .openvpn s.openVpn.drawn, i.base, .openvpn, false⟩, none⟩ := by
    rw [importConfig_parsers hrecognised.batch hnot.1 hnot.2, himport]
    split
    · rename_i hsections
      have hnone : importWireGuard pf { s with lastBatchImport := 0 } i.text i.base = none := by
        unfold importWireGuard WireGuardStore.importText
        rw [hrecognised.openVpn rfl hsections]
        rfl
      rw [hnone]
      rfl
    · rfl
  refine ⟨_, Stores.of_config hd (by decide) hrecognised.lines hconfig List.map_append (fun e he => ?_) ?_ n⟩
  · cases e with
    | wireguard => rfl
    | openvpn => exact absurd rfl he
    | xray => rfl
    | ikev2 => rfl
  · simp [Saved.anonymous, arrived, hd, hcontent, hc, hmName, h.star .openvpn]

theorem stores_xray (hd : i.record.protocol = .xray) (n : Nat) :
    ∃ s', Stores pf s n i (uniqueAgainst (wantedName pf.doubles i) ((ofProtocol .xray arrivals).map (·.2))) s' := by
  have hne : i.record.protocol ≠ .ikev2 := by rw [hd]; decide
  have hrecognised := hi.recognised hne
  have hcontent := hi.content hne
  have haccepted := hi.accepted
  rw [hd] at hrecognised haccepted
  have htrim := hi.trimmed hd
  have htaken : s.xray.profileNames pf.doubles = (ofProtocol .xray arrivals).map (·.2) :=
    (AppState.names_xray pf s).trans (h.names .xray)
  have hnew : pf.newUuid .xray s.xray.drawn ∉ s.xray.uuids := by
    intro hm
    refine h.uuid_not_mem .xray ?_
    simp only [AppState.uuids, List.mem_append]
    exact .inl (.inr hm)
  have hother : ∀ (store : XrayStore) (e : Protocol), e ≠ .xray →
      ({ s with xray := store, lastBatchImport := 0 } : AppState).savedOf pf e = s.savedOf pf e := by
    intro store e he
    cases e with
    | wireguard => rfl
    | openvpn => rfl
    | xray => exact absurd rfl he
    | ikev2 => rfl
  generalize hname : uniqueAgainst (wantedName pf.doubles i) ((ofProtocol .xray arrivals).map (·.2)) = name
  have hq : Saved.anonymous ⟨pf.newUuid .xray s.xray.drawn, .xray, name, .text (some i.text), {},
      decide (pf.newUuid .xray s.xray.drawn ∈ s.favourites)⟩ = arrived pf (i, name) := by
    simp [Saved.anonymous, arrived, hd, hcontent, h.star .xray]
  cases hjson : XrayConfig.isCustomJson i.text with
  | true =>
    rw [Accepts, hjson, if_pos rfl, htrim] at haccepted
    rw [wantedName, hjson, if_pos rfl] at hname
    have himport : importCustomJson pf { s with lastBatchImport := 0 } i.text i.base
        = some ({ s with
            xray := s.xray.addFile ⟨pf.newUuid .xray s.xray.drawn, true, i.text⟩ name none
            lastBatchImport := 0 }, ⟨pf.newUuid .xray s.xray.drawn, name, .xray, false⟩) := by
      unfold importCustomJson XrayStore.importCustomJson
      dsimp only
      rw [htrim, haccepted, ifBlank_of_not hi.base, htaken, hname]
      rfl
    have hconfig : importConfig pf s i.text i.base = _ := importConfig_json hrecognised.batch hjson s i.base
    rw [himport] at hconfig
    have hparsed : (XrayConfig.isCustomJson i.text || (parse pf.doubles i.text).isSome) = true := by
      rw [hjson, Bool.true_or]
    have hsaved := AppState.savedXray_addFile (s := s) (f := ⟨pf.newUuid .xray s.xray.drawn, true, i.text⟩)
      hparsed hnew name 0
    exact ⟨_, Stores.of_config hd (by decide) hrecognised.lines hconfig hsaved (hother _) hq n⟩
  | false =>
    rw [Accepts, hjson, if_neg Bool.false_ne_true] at haccepted
    obtain ⟨o, ho⟩ := Option.isSome_iff_exists.1 haccepted
    rw [wantedName, hjson, if_neg Bool.false_ne_true, ho, Option.map_some, Option.getD_some] at hname
    have hlooks : looksLikeShareLink i.text = true := by
      refine (hrecognised.xray.2 rfl).resolve_right ?_
      rw [hjson]
      exact Bool.false_ne_true
    have himport : importLink pf { s with lastBatchImport := 0 } i.text i.base
        = some ({ s with
            xray := s.xray.addFile ⟨pf.newUuid .xray s.xray.drawn, false, i.text⟩ name none
            lastBatchImport := 0 }, ⟨pf.newUuid .xray s.xray.drawn, name, .xray, false⟩) := by
      unfold importLink XrayStore.importLink
      dsimp only
      rw [htrim, ho]
      dsimp only [Option.bind_eq_bind, Option.bind_some]
      rw [ifBlank_of_not hi.base, Option.getD_none, htaken, hname]
      rfl
    have hconfig : importConfig pf s i.text i.base = _ := importConfig_link hrecognised.batch hlooks s i.base
    rw [himport] at hconfig
    have hparsed : (XrayConfig.isCustomJson i.text || (parse pf.doubles i.text).isSome) = true := by
      rw [ho]
      exact Bool.or_true _
    have hsaved := AppState.savedXray_addFile (s := s) (f := ⟨pf.newUuid .xray s.xray.drawn, false, i.text⟩)
      hparsed hnew name 0
    exact ⟨_, Stores.of_config hd (by decide) hrecognised.lines hconfig hsaved (hother _) hq n⟩

theorem stores_ikev2 (hd : i.record.protocol = .ikev2) (n : Nat) :
    ∃ s', Stores pf s n i i.record.name s' := by
  obtain ⟨hname, q, hdump, hca⟩ := hi.ikev2 hd
  have haccepted := hi.accepted
  rw [hd] at haccepted
  have hread : Json.ofText pf.doubles i.text = some (ikev2Json certs q) := by
    rw [hdump.text]
    exact Json.ofText_layOut pf.doubles _ (plain_ikev2Json hdump.inRange)
  have hdocument : ikev2Document pf i.text = some (ikev2Json certs q) := by
    obtain ⟨o, ho⟩ := Option.isSome_iff_exists.1 (show (ikev2Document pf i.text).isSome = true from haccepted)
    rw [ho]
    unfold ikev2Document at ho
    rw [hread] at ho
    dsimp only at ho
    split at ho
    · cases ho
    · exact ho.symm
  generalize huuid : pf.newUuid .ikev2 s.ikev2.drawn = uuid
  have hprofile : ikev2Profile pf (ikev2Json certs q) uuid = { q with uuid := uuid } :=
    ikev2Profile_ikev2Json pf (hdump.name ▸ hname) hdump.inRange hca uuid
  have hstored : Ikev2Profile.stored { q with uuid := uuid } = { q with uuid := uuid } :=
    congrArg (fun r : Ikev2Profile => { r with uuid := uuid }) hdump.stored
  have hnone : s.ikev2.profile uuid = none := by
    unfold Ikev2Store.profile
    rw [Option.map_eq_none_iff, List.find?_eq_none]
    intro r hr hbeq
    refine h.uuid_not_mem .ikev2 ?_
    simp only [AppState.uuids, List.mem_append]
    have hmem : r.profile.uuid ∈ s.ikev2.rows.map (·.profile.uuid) := List.mem_map_of_mem hr
    rw [beq_iff_eq.1 hbeq, ← huuid] at hmem
    exact .inr hmem
  have hsave : s.ikev2.save { q with uuid := uuid }
      = { s.ikev2 with rows := s.ikev2.rows ++ [⟨_, Ikev2Profile.stored_stored { q with uuid := uuid }⟩] } := by
    unfold Ikev2Store.save
    dsimp only
    rw [hnone]
    rfl
  have hresult : importEntry pf (s, n) i.config = ({ s with
      ikev2 := { rows := s.ikev2.rows ++ [⟨_, Ikev2Profile.stored_stored { q with uuid := uuid }⟩]
                 drawn := s.ikev2.drawn + 1 } }, n + 1) := by
    unfold importEntry Item.config
    dsimp only
    rw [hd, beq_self_eq_true, if_pos rfl, importIkev2Backup, hdocument]
    dsimp only
    rw [huuid, hprofile, hsave]
    rfl
  refine ⟨_, hresult, ⟨AppState.savedRow s.favourites { q with uuid := uuid }, ?_, ?_⟩, fun e he => ?_⟩
  · have hstar := h.star .ikev2 s.ikev2.drawn
    rw [huuid] at hstar
    simp [Saved.anonymous, AppState.savedRow, arrived, hd, hdump.content, hdump.name, hstar]
  · rw [hd]
    show List.map _ (s.ikev2.rows ++ [_]) = _
    rw [List.map_append, List.map_singleton]
    dsimp only
    rw [hstored]
    rfl
  · rw [hd] at he
    cases e with
    | wireguard => rfl
    | openvpn => rfl
    | xray => rfl
    | ikev2 => exact absurd rfl he

end Step

/-- The step lemma: **an item is stored once**, under the name of its arrival, and counted. -/
theorem importEntry_item (h : Arrived pf s arrivals) (hi : Ready pf certs i)
    (hfree : ∀ a ∈ arrivals, a.1.key ≠ i.key) (n : Nat) :
    ∃ s', importEntry pf (s, n) i.config = (s', n + 1) ∧
      Arrived pf s' (arrivals ++ [(i, arrivalName pf.doubles ((ofProtocol .xray arrivals).map (·.2)) i)]) := by
  have hstores : ∃ s', Stores pf s n i (arrivalName pf.doubles ((ofProtocol .xray arrivals).map (·.2)) i) s' := by
    cases hd : i.record.protocol with
    | wireguard =>
      rw [arrivalName, hd]
      exact stores_wireGuard h hi hfree hd n
    | openvpn =>
      rw [arrivalName, hd]
      exact stores_openVpn h hi hfree hd n
    | xray =>
      rw [arrivalName, hd]
      exact stores_xray h hi hd n
    | ikev2 =>
      rw [arrivalName, hd]
      exact stores_ikev2 h hi hd n
  obtain ⟨s', hstores⟩ := hstores
  obtain ⟨q, hq, hsaved⟩ := hstores.saved
  obtain ⟨⟨new, hgrown, -⟩, -⟩ := importEntry_gains (s, n) h.fresh i.config
  rw [hstores.result] at hgrown
  refine ⟨s', hstores.result, h.add hgrown hq hsaved hstores.other fun hd => ?_⟩
  unfold arrivalName
  rcases hd with hd | hd
  · rw [hd]
  · rw [hd]

/-- **All items**, one after the other. -/
theorem foldl_importEntry_items {items : List Item} (h : Arrived pf s arrivals)
    (hready : ∀ i ∈ items, Ready pf certs i) (hkeys : (arrivals.map (·.1.key) ++ items.map Item.key).Nodup)
    (n : Nat) : ∃ s', (items.map Item.config).foldl (importEntry pf) (s, n) = (s', n + items.length) ∧
      Arrived pf s' (arrivals ++ arrivalsFrom pf.doubles ((ofProtocol .xray arrivals).map (·.2)) items) := by
  induction items generalizing s arrivals n with
  | nil => exact ⟨s, rfl, by rwa [arrivalsFrom, List.append_nil]⟩
  | cons i items ih =>
    have hfree : ∀ a ∈ arrivals, a.1.key ≠ i.key := by
      intro a ha he
      refine (List.nodup_append.1 hkeys).2.2 _ (List.mem_map_of_mem ha) i.key ?_ he
      exact List.mem_cons_self
    obtain ⟨s₁, hstep, h₁⟩ := importEntry_item h (hready i List.mem_cons_self) hfree n
    have hkeys₁ : ((arrivals ++ [(i, arrivalName pf.doubles ((ofProtocol .xray arrivals).map (·.2)) i)]).map
        (·.1.key) ++ items.map Item.key).Nodup := by
      rwa [List.map_append, List.map_singleton, List.append_assoc, List.singleton_append]
    obtain ⟨s', hfold, h'⟩ := ih h₁ (fun j hj => hready j (List.mem_cons_of_mem i hj)) hkeys₁ (n + 1)
    refine ⟨s', ?_, ?_⟩
    · rw [List.map_cons, List.foldl_cons, hstep, hfold, List.length_cons]
      congr 1
      omega
    · rw [ofProtocol_concat, List.map_append, List.append_assoc] at h'
      rw [arrivalsFrom]
      by_cases hd : i.record.protocol = .xray
      · rw [if_pos hd] at h' ⊢
        exact h'
      · rw [if_neg hd, List.map_nil, List.append_nil] at h'
        rw [if_neg hd]
        exact h'

theorem count_ofProtocol (d : Protocol) (a : Item × String) (l : List (Item × String)) :
    (ofProtocol d l).count a = if a.1.record.protocol = d then l.count a else 0 := by
  unfold ofProtocol
  split
  · rename_i hd
    exact List.count_filter (beq_iff_eq.2 hd)
  · rename_i hd
    rw [List.count_eq_zero]
    exact fun hm => hd (beq_iff_eq.1 (List.mem_filter.1 hm).2)

/-- What is in the stores together is what has arrived. -/
theorem Arrived.saved_perm (h : Arrived pf s arrivals) :
    ((s.saved pf).map Saved.anonymous).Perm (arrivals.map (arrived pf)) := by
  have hsplit : (ofProtocol .openvpn arrivals ++ ofProtocol .wireguard arrivals ++ ofProtocol .xray arrivals ++
      ofProtocol .ikev2 arrivals).Perm arrivals := by
    rw [List.perm_iff_count]
    intro a
    simp only [List.count_append, count_ofProtocol]
    cases a.1.record.protocol <;> simp
  have hsaved : (s.saved pf).map Saved.anonymous
      = (ofProtocol .openvpn arrivals ++ ofProtocol .wireguard arrivals ++ ofProtocol .xray arrivals ++
          ofProtocol .ikev2 arrivals).map (arrived pf) := by
    simp only [List.map_append, ← h.saved]
    rw [← List.map_append, ← List.map_append, ← List.map_append]
    rfl
  rw [hsaved]
  exact hsplit.map _

end BackupManager

end SwiftVpn
