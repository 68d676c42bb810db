/-
  File:      SwiftVpn/Profiles/Files.lean
  Subject:   THE FILES OF AN XRAY PROFILE: what XrayStore.kt keeps on disk, reads back and overwrites.

  A directory is a set of files; the order of the list says nothing, as that of `listFiles` does not. A
  write truncates the file, or creates it, and then appends; it throws before it, or behind any number
  of bytes (`WriteFault`). A file that was cut in the middle of a character is read with U+FFFD there.

  * `XrayStore.link`, `rows` -- the text of a profile, of which the `.link` goes first, and the list with
    all it shows;
  * `XrayStore.saveLink` -- a profile overwritten in place, the other kind of file deleted;
  * `XrayOperation`, `perform` -- everything that changes the store, and what it writes;
  * `represented` -- after every run without faults each uuid has one file, of the kind of its text, and
    what is read is what was written last.
-/
import SwiftVpn.Lib.Machine
import SwiftVpn.Profiles.Import

namespace SwiftVpn

open Machine

/-! ## 1. What is read -/

/-- `summary`. -/
def XrayOutbound.summary (o : XrayOutbound) : String :=
  " · ".intercalate ([o.protocol] ++
    (if !isBlank o.stream.security && o.stream.security != "none" then [o.stream.security] else []) ++
    [o.stream.network])

/-- A row of the list, as XrayStore.kt makes it. -/
structure XrayRow where
  uuid : Uuid
  name : String
  server : String
  port : String
  authTypeLabel : String
  subscriptionId : Option String
  deriving DecidableEq, Repr

namespace XrayStore

/-- `fileFor` and `jsonFileFor`, if the file exists. -/
def fileOf (s : XrayStore) (uuid : Uuid) (json : Bool) : Option XrayFile :=
  s.files.find? fun f => f.uuid == uuid && f.json == json

/-- `storedFile`: the link goes first. -/
def storedFile (s : XrayStore) (uuid : Uuid) : Option XrayFile :=
  (s.fileOf uuid false).or (s.fileOf uuid true)

/-- `link`. -/
def link (s : XrayStore) (uuid : Uuid) : Option String := (s.storedFile uuid).map (·.text)

/-- `"$address:$port"` of the first server under `name`. -/
def endpointUnder (settings : JsonObject) (name : String) : Option String :=
  match settings.optArray name with
  | some (.obj server :: _) =>
    some (JsonObject.optString server "address" ++ ":" ++ JsonObject.optString server "port")
  | _ => none

/-- The endpoint and the protocol of the first outbound of a custom config. -/
def describeCustom (doubles : Doubles) (raw : String) : Option (String × String) := do
  let root ← Json.ofText doubles raw
  match root.optArray "outbounds" with
  | some (.obj first :: _) =>
    let settings := JsonObject.optObject first "settings"
    let addr := (settings.bind (endpointUnder · "vnext")).or (settings.bind (endpointUnder · "servers"))
    some (addr.getD "custom", JsonObject.optString first "protocol" "custom")
  | _ => none

/-- `describe`. -/
def describe (doubles : Doubles) (s : XrayStore) (uuid : Uuid) : Option (String × String) := do
  let raw ← s.link uuid
  if XrayConfig.isCustomJson raw then describeCustom doubles raw
  else (XrayShareLink.parse doubles raw).map fun o => (hostAndPort o.address o.port, o.summary)

/-- `toProfile`. -/
def toProfile (doubles : Doubles) (s : XrayStore) (f : XrayFile) : Option XrayRow :=
  if XrayConfig.isCustomJson f.text then
    let (remote, summary) := (s.describe doubles f.uuid).getD ("custom", "custom · json")
    some
      { uuid := f.uuid
        name := s.name f.uuid
        server := substringBeforeLast ':' remote
        port := ((Text.cutLast ':' remote.toList).map fun (_, r) => String.ofList r).getD ""
        authTypeLabel := summary
        subscriptionId := s.subs f.uuid }
  else
    (XrayShareLink.parse doubles f.text).map fun o =>
      { uuid := f.uuid
        name := s.name f.uuid
        server := o.address
        port := toString o.port
        authTypeLabel := o.summary
        subscriptionId := s.subs f.uuid }

/-- `profiles`, with all that a row shows. -/
def rows (doubles : Doubles) (s : XrayStore) : List XrayRow := s.files.filterMap (s.toProfile doubles)

end XrayStore

/-! ## 2. What is written -/

/-- Where a write throws: before it truncates, or behind a number of bytes. -/
inductive WriteFault where
  | opening
  | writing (bytes : Nat)
  deriving DecidableEq, Repr

/-- What is read of a text of which only so many bytes were written. -/
def writtenPart (text : String) (bytes : Nat) : String :=
  XrayShareLink.utf8String ((XrayShareLink.toByteArray text).take bytes)

/-- What a file holds after a write of `text` that threw, if it holds something else than before. -/
def WriteFault.left (text : String) : WriteFault → Option String
  | .opening => none
  | .writing bytes => some (writtenPart text bytes)

namespace XrayStore

/-- The file of a uuid and a kind, created or overwritten. -/
def writeFile (s : XrayStore) (f : XrayFile) : XrayStore :=
  { s with files := s.files.filter (fun g => !(g.uuid == f.uuid && g.json == f.json)) ++ [f] }

/-- `File.delete`. -/
def deleteFile (s : XrayStore) (uuid : Uuid) (json : Bool) : XrayStore :=
  { s with files := s.files.filter fun g => !(g.uuid == uuid && g.json == json) }

/-- The write of one kind of file and the deletion of the other. -/
def saveFile (s : XrayStore) (f : XrayFile) (fault : Option WriteFault) : XrayStore × Bool :=
  match fault with
  | none => ((s.writeFile f).deleteFile f.uuid !f.json, true)
  | some fault =>
    (match fault.left f.text with
      | some left => s.writeFile { f with text := left }
      | none => s, false)

/-- The texts that `saveLink` refuses. -/
def saveRejects (doubles : Doubles) (link : String) : Bool :=
  let trimmed := trim link
  if XrayConfig.isCustomJson trimmed then !XrayConfig.isValidCustomJson doubles trimmed
  else (XrayShareLink.parse doubles trimmed).isNone

/-- `saveLink`; the write throws as `fault` says. -/
def saveLink (doubles : Doubles) (s : XrayStore) (uuid : Uuid) (link : String)
    (fault : Option WriteFault) : XrayStore × Bool :=
  let trimmed := trim link
  if XrayConfig.isCustomJson trimmed then
    if !XrayConfig.isValidCustomJson doubles trimmed then (s, false)
    else s.saveFile ⟨uuid, true, trimmed⟩ fault
  else if (XrayShareLink.parse doubles trimmed).isNone then (s, false)
  else s.saveFile ⟨uuid, false, trimmed⟩ fault

end XrayStore

/-! ## 3. Everything that changes the store -/

/-- The calls, with their arguments. -/
inductive XrayOperation where
  | importLink (link preferredName : String) (subscriptionId : Option String)
      (takenNames : Option (List String))
  | importBatch (links : List String) (subscriptionId : Option String)
  | importCustomJson (jsonText preferredName : String) (subscriptionId : Option String)
  | saveLink (uuid : Uuid) (link : String)
  | rename (uuid : Uuid) (newName : String)
  | delete (uuid : Uuid)
  | deleteBySubscription (subscriptionId : String) (keepUuid : Option Uuid)
  deriving DecidableEq, Repr

namespace XrayStore

/-- Nothing stored. -/
def empty : XrayStore := ⟨[], fun _ => none, fun _ => none, 0⟩

section Operations

variable (newUuid : Nat → Uuid) (doubles : Doubles)

/-- The files of a batch, from the number of uuids drawn before. -/
def batchFiles : Nat → List String → List XrayFile
  | _, [] => []
  | drawn, link :: links =>
    if importable doubles link then ⟨newUuid drawn, false, trim link⟩ :: batchFiles (drawn + 1) links
    else batchFiles drawn links

/-- One call without a fault: the store after it, and the texts it has written. -/
def perform (s : XrayStore) : XrayOperation → Option (XrayStore × List (Uuid × String))
  | .importLink link preferredName sub taken =>
    match s.importLink newUuid doubles link preferredName sub taken with
    | some (s', _) => some (s', [(newUuid s.drawn, trim link)])
    | none => some (s, [])
  | .importBatch links sub =>
    some ((s.importBatch newUuid doubles links sub).1,
      (batchFiles newUuid doubles s.drawn links).map fun f => (f.uuid, f.text))
  | .importCustomJson jsonText preferredName sub =>
    match s.importCustomJson newUuid doubles jsonText preferredName sub with
    | some (s', _) => some (s', [(newUuid s.drawn, trim jsonText)])
    | none => some (s, [])
  | .saveLink uuid link =>
    let saved := s.saveLink doubles uuid link none
    some (saved.1, if saved.2 then [(uuid, trim link)] else [])
  | .rename uuid newName => some (s.rename uuid newName, [])
  | .delete uuid => some (s.delete uuid, [])
  | .deleteBySubscription id keep => some (s.deleteBySubscription id keep, [])

/-- The uuids that a call draws. -/
def drawnBy (s : XrayStore) (op : XrayOperation) : List Uuid :=
  match perform newUuid doubles s op with
  | some (s', _) => (List.range' s.drawn (s'.drawn - s.drawn)).map newUuid
  | none => []

/-- The uuids drawn are new, and `importCustomJson` gets only what its callers let through. -/
structure Admissible (s : XrayStore) (op : XrayOperation) : Prop where
  distinct : (drawnBy newUuid doubles s op).Nodup
  fresh : ∀ uuid ∈ drawnBy newUuid doubles s op, uuid ∉ s.uuids
  custom : ∀ text name sub, op = .importCustomJson text name sub → XrayConfig.isCustomJson text = true

end Operations

/-- The last text written under each uuid. -/
def record (last : Uuid → Option String) (writes : List (Uuid × String)) : Uuid → Option String :=
  writes.foldl (fun last w => setPref last w.1 (some w.2)) last

/-- The store watched by what is written. -/
def watched (newUuid : Nat → Uuid) (doubles : Doubles) :
    XrayStore × (Uuid → Option String) → XrayOperation → Option (XrayStore × (Uuid → Option String)) :=
  observed (perform newUuid doubles) fun _ _ writes last => record last writes

/-! ## 4. A text of one kind is none of the other -/

/-- Trimmed, a custom config starts with its brace. -/
theorem toList_trim_of_isCustomJson {text : String} (h : XrayConfig.isCustomJson text = true) :
    ∃ rest, (trim text).toList = '\x7b' :: rest := by
  have hbrace : isWhitespace '\x7b' = false := by decide
  unfold XrayConfig.isCustomJson at h
  obtain ⟨rest, hrest⟩ := List.head?_eq_some_iff.1 (beq_iff_eq.1 h)
  obtain ⟨r, hr⟩ :=
    XrayShareLink.trimChars_append (p := ['\x7b']) (by simp) (by simpa using hbrace) rest
  refine ⟨r, ?_⟩
  rw [trim, String.toList_ofList, ← List.singleton_append, ← hr, List.singleton_append]
  unfold trimChars
  rw [hrest, List.dropWhile_cons_of_neg (by simp [hbrace])]

/-- **What a parser reads is no custom config**: a brace is in front of no scheme, and decoding leaves
    it there. -/
theorem not_isCustomJson_of_parse {doubles : Doubles} {text : String}
    (h : (XrayShareLink.parse doubles text).isSome = true) : XrayConfig.isCustomJson text = false := by
  by_contra hc
  rw [Bool.not_eq_false] at hc
  obtain ⟨rest, hrest⟩ := toList_trim_of_isCustomJson hc
  obtain ⟨o, ho⟩ := Option.isSome_iff_exists.1 h
  have hstart : startsWithIgnoreCase (trim text) "\x7b" = true :=
    (XrayShareLink.startsWithIgnoreCase_iff _ _).2 ⟨['\x7b'], rest, hrest, rfl⟩
  obtain ⟨link, hlink, honce⟩ := XrayShareLink.parse_cases "\x7b" (by decide) hstart ho
  have hnone : XrayShareLink.parseOnce doubles link = none := by
    unfold XrayShareLink.parseOnce
    rw [XrayShareLink.skip hlink "vless://" (by decide) (by decide),
      XrayShareLink.skip hlink "vmess://" (by decide) (by decide),
      XrayShareLink.skip hlink "trojan://" (by decide) (by decide),
      XrayShareLink.skip hlink "ss://" (by decide) (by decide),
      XrayShareLink.skip hlink "hysteria2://" (by decide) (by decide),
      XrayShareLink.skip hlink "hy2://" (by decide) (by decide),
      XrayShareLink.skip hlink "socks://" (by decide) (by decide),
      XrayShareLink.skip hlink "http://" (by decide) (by decide)]
  rw [hnone] at honce
  cases honce

/-- A file that the list shows. -/
theorem toProfile_isSome (doubles : Doubles) (s : XrayStore) (f : XrayFile) :
    (s.toProfile doubles f).isSome
      = (XrayConfig.isCustomJson f.text || (XrayShareLink.parse doubles f.text).isSome) := by
  unfold toProfile
  cases hc : XrayConfig.isCustomJson f.text with
  | true => rfl
  | false =>
    rw [if_neg Bool.false_ne_true, Option.isSome_map, Bool.false_or]

/-- A row is that of its file. -/
theorem toProfile_uuid {doubles : Doubles} {s : XrayStore} {f : XrayFile} {row : XrayRow}
    (h : s.toProfile doubles f = some row) : row.uuid = f.uuid := by
  unfold toProfile at h
  split at h
  · cases h
    rfl
  · obtain ⟨o, -, rfl⟩ := Option.map_eq_some_iff.1 h
    rfl

/-- The rows of a store every file of which is shown are those of its files. -/
theorem rows_uuids {doubles : Doubles} {s : XrayStore}
    (h : ∀ f ∈ s.files, (s.toProfile doubles f).isSome = true) :
    (s.rows doubles).map (·.uuid) = s.uuids := by
  have hfiles : ∀ fs : List XrayFile, (∀ f ∈ fs, (s.toProfile doubles f).isSome = true) →
      (fs.filterMap (s.toProfile doubles)).map (·.uuid) = fs.map (·.uuid) := by
    intro fs
    induction fs with
    | nil => exact fun _ => rfl
    | cons f fs ih =>
      intro hfs
      obtain ⟨row, hrow⟩ := Option.isSome_iff_exists.1 (hfs f List.mem_cons_self)
      rw [List.filterMap_cons_some hrow, List.map_cons, List.map_cons, toProfile_uuid hrow,
        ih fun g hg => hfs g (List.mem_cons_of_mem f hg)]
  exact hfiles s.files h

/-! ## 5. What every call keeps -/

/-- The files of a store and the last texts written: one file for each uuid, of the kind of its text. -/
structure Sound (doubles : Doubles) (files : List XrayFile) (last : Uuid → Option String) : Prop where
  distinct : (files.map (·.uuid)).Nodup
  json : ∀ f ∈ files, f.json = XrayConfig.isCustomJson f.text
  parses : ∀ f ∈ files, f.json = false → (XrayShareLink.parse doubles f.text).isSome = true
  last : ∀ f ∈ files, last f.uuid = some f.text

section Step

variable {newUuid : Nat → Uuid} {doubles : Doubles} {files : List XrayFile}
  {last : Uuid → Option String}

theorem Sound.sublist (h : Sound doubles files last) {fewer : List XrayFile} (hsub : fewer.Sublist files) :
    Sound doubles fewer last where
  distinct := h.distinct.sublist (hsub.map _)
  json f hf := h.json f (hsub.subset hf)
  parses f hf := h.parses f (hsub.subset hf)
  last f hf := h.last f (hsub.subset hf)

/-- A file under a uuid that has none. -/
theorem Sound.add (h : Sound doubles files last) {f : XrayFile} (hnew : f.uuid ∉ files.map (·.uuid))
    (hjson : f.json = XrayConfig.isCustomJson f.text)
    (hparses : f.json = false → (XrayShareLink.parse doubles f.text).isSome = true) :
    Sound doubles (files ++ [f]) (setPref last f.uuid (some f.text)) where
  distinct := by
    rw [List.map_append, List.nodup_append]
    refine ⟨h.distinct, List.nodup_singleton _, ?_⟩
    intro u hu v hv huv
    rw [List.map_singleton, List.mem_singleton] at hv
    exact hnew (hv ▸ huv ▸ hu)
  json g hg := by
    rcases List.mem_append.1 hg with hg | hg
    · exact h.json g hg
    · rw [List.mem_singleton.1 hg]
      exact hjson
  parses g hg := by
    rcases List.mem_append.1 hg with hg | hg
    · exact h.parses g hg
    · rw [List.mem_singleton.1 hg]
      exact hparses
  last g hg := by
    unfold setPref
    rcases List.mem_append.1 hg with hg | hg
    · have hne : g.uuid ≠ f.uuid := fun e => hnew (e ▸ List.mem_map_of_mem hg)
      rw [if_neg hne]
      exact h.last g hg
    · rw [List.mem_singleton.1 hg, if_pos rfl]

/-- Files under uuids that have none and differ from each other. -/
theorem Sound.addAll (h : Sound doubles files last) {new : List XrayFile}
    (hnodup : (new.map (·.uuid)).Nodup) (hnew : ∀ uuid ∈ new.map (·.uuid), uuid ∉ files.map (·.uuid))
    (hjson : ∀ f ∈ new, f.json = XrayConfig.isCustomJson f.text)
    (hparses : ∀ f ∈ new, f.json = false → (XrayShareLink.parse doubles f.text).isSome = true) :
    Sound doubles (files ++ new) (record last (new.map fun f => (f.uuid, f.text))) := by
  induction new generalizing files last with
  | nil =>
    rw [List.append_nil]
    exact h
  | cons f new ih =>
    rw [List.map_cons, List.nodup_cons] at hnodup
    have hadd := h.add (hnew f.uuid List.mem_cons_self) (hjson f List.mem_cons_self)
      (hparses f List.mem_cons_self)
    have := ih hadd hnodup.2 ?_ (fun g hg => hjson g (List.mem_cons_of_mem f hg))
      (fun g hg => hparses g (List.mem_cons_of_mem f hg))
    · rw [List.append_assoc, List.singleton_append] at this
      exact this
    · intro uuid hu hm
      rw [List.map_append, List.mem_append, List.map_singleton, List.mem_singleton] at hm
      rcases hm with hm | rfl
      · exact hnew uuid (List.mem_cons_of_mem f.uuid hu) hm
      · exact hnodup.1 hu

/-! ### The files behind each call -/

theorem batchFiles_cons (drawn : Nat) (link : String) (links : List String) :
    batchFiles newUuid doubles drawn (link :: links)
      = if importable doubles link then
          ⟨newUuid drawn, false, trim link⟩ :: batchFiles newUuid doubles (drawn + 1) links
        else batchFiles newUuid doubles drawn links := rfl

theorem batchFiles_uuids (drawn : Nat) (links : List String) :
    (batchFiles newUuid doubles drawn links).map (·.uuid)
      = (List.range' drawn (batchFiles newUuid doubles drawn links).length).map newUuid := by
  induction links generalizing drawn with
  | nil => rfl
  | cons link links ih =>
    unfold batchFiles
    split
    · rw [List.map_cons, ih, List.length_cons, List.range'_succ, List.map_cons]
    · exact ih drawn

theorem importBatch_files (newUuid : Nat → Uuid) (doubles : Doubles) (s : XrayStore)
    (links : List String) (sub : Option String) :
    (s.importBatch newUuid doubles links sub).1.files
      = s.files ++ batchFiles newUuid doubles s.drawn links ∧
    (s.importBatch newUuid doubles links sub).1.drawn
      = s.drawn + (batchFiles newUuid doubles s.drawn links).length := by
  have hfold : ∀ acc : XrayStore × List String × Nat,
      (links.foldl (importNext newUuid doubles sub) acc).1.files
        = acc.1.files ++ batchFiles newUuid doubles acc.1.drawn links ∧
      (links.foldl (importNext newUuid doubles sub) acc).1.drawn
        = acc.1.drawn + (batchFiles newUuid doubles acc.1.drawn links).length := by
    induction links with
    | nil => exact fun acc => ⟨(List.append_nil _).symm, rfl⟩
    | cons link links ih =>
      intro acc
      rw [List.foldl_cons]
      obtain ⟨hfiles, hdrawn⟩ := ih (importNext newUuid doubles sub acc link)
      rw [hfiles, hdrawn, batchFiles_cons]
      cases hp : XrayShareLink.parse doubles (trim link) with
      | none =>
        have hi : importable doubles link = false := by rw [importable, hp]; rfl
        have hnext : importNext newUuid doubles sub acc link = acc := by
          unfold importNext
          rw [importLink_of_none hp]
        rw [hnext, hi, if_neg Bool.false_ne_true]
        exact ⟨rfl, rfl⟩
      | some o =>
        have hi : importable doubles link = true := by rw [importable, hp]; rfl
        obtain ⟨name, hname⟩ := importLink_of_some hp newUuid acc.1 "" sub (some acc.2.1)
        have hnext : (importNext newUuid doubles sub acc link).1
            = acc.1.addFile ⟨newUuid acc.1.drawn, false, trim link⟩ name sub := by
          unfold importNext
          rw [hname]
        rw [hnext, hi, if_pos rfl, List.length_cons]
        refine ⟨?_, ?_⟩
        · show (acc.1.files ++ [_]) ++ batchFiles newUuid doubles (acc.1.drawn + 1) links = _
          rw [List.append_assoc, List.singleton_append]
        · show acc.1.drawn + 1 + (batchFiles newUuid doubles (acc.1.drawn + 1) links).length = _
          rw [Nat.add_assoc, Nat.add_comm 1]
  exact hfold (s, s.profileNames doubles, 0)

theorem deleteBySubscription_sublist (s : XrayStore) (id : String) (keep : Option Uuid) :
    (s.deleteBySubscription id keep).files.Sublist s.files := by
  have hfold : ∀ (fs : List XrayFile) (s : XrayStore),
      (fs.foldl (sweepFile id keep) s).files.Sublist s.files := by
    intro fs
    induction fs with
    | nil => exact fun s => List.Sublist.refl _
    | cons f fs ih =>
      intro s
      refine (ih (sweepFile id keep s f)).trans ?_
      rcases sweepFile_cases id keep s f with ⟨-, he⟩ | ⟨-, -, he⟩ | ⟨-, -, he⟩
      · rw [he]
      · rw [he]
      · rw [he]
        exact List.filter_sublist
  exact hfold s.files s

/-- A save without a fault leaves one file of the uuid. -/
theorem saveFile_files (s : XrayStore) (f : XrayFile) :
    (s.saveFile f none).1.files = s.files.filter (fun g => g.uuid ≠ f.uuid) ++ [f] := by
  show ((s.files.filter fun g => !(g.uuid == f.uuid && g.json == f.json)) ++ [f]).filter
    (fun g => !(g.uuid == f.uuid && g.json == !f.json)) = _
  rw [List.filter_append, List.filter_filter]
  congr 1
  · refine List.filter_congr fun g _ => ?_
    by_cases hu : g.uuid = f.uuid
    · cases hg : g.json <;> cases hf : f.json <;> simp [hu]
    · simp [hu]
  · cases hf : f.json <;> simp [hf]

/-- A save is refused, or writes the file of the kind of its text. -/
theorem saveLink_eq (s : XrayStore) (uuid : Uuid) (link : String) (fault : Option WriteFault) :
    s.saveLink doubles uuid link fault
      = if saveRejects doubles link then (s, false)
        else s.saveFile ⟨uuid, XrayConfig.isCustomJson (trim link), trim link⟩ fault := by
  unfold saveLink saveRejects
  dsimp only
  by_cases hc : XrayConfig.isCustomJson (trim link) = true
  · rw [if_pos hc, if_pos hc, hc]
  · rw [if_neg hc, if_neg hc, Bool.eq_false_iff.2 hc]

/-- A custom config that is accepted is valid. -/
theorem custom_of_accepted {link : String} (h : saveRejects doubles link = false)
    (hc : XrayConfig.isCustomJson (trim link) = true) :
    XrayConfig.isValidCustomJson doubles (trim link) = true := by
  unfold saveRejects at h
  dsimp only at h
  rw [hc, if_pos rfl] at h
  simpa using h

/-- A link that is accepted is one that parses. -/
theorem parses_of_accepted {link : String} (h : saveRejects doubles link = false)
    (hc : XrayConfig.isCustomJson (trim link) = false) :
    (XrayShareLink.parse doubles (trim link)).isSome = true := by
  unfold saveRejects at h
  dsimp only at h
  rw [hc, if_neg Bool.false_ne_true] at h
  simpa using h

/-- A file that a call may write. -/
structure Admitted (doubles : Doubles) (op : XrayOperation) (f : XrayFile) : Prop where
  trimmed : trim f.text = f.text
  link : f.json = false → (XrayShareLink.parse doubles f.text).isSome = true
  custom : f.json = true → XrayConfig.isValidCustomJson doubles f.text = true
  json : f.json = true → XrayConfig.isCustomJson f.text = true ∨
    ∃ text name sub, op = .importCustomJson text name sub ∧ f.text = trim text

theorem Admitted.ofLink {op : XrayOperation} {uuid : Uuid} {link : String}
    (h : (XrayShareLink.parse doubles (trim link)).isSome = true) :
    Admitted doubles op ⟨uuid, false, trim link⟩ where
  trimmed := XrayShareLink.trim_trim link
  link _ := h
  custom hf := by cases hf
  json hf := by cases hf

theorem mem_batchFiles {op : XrayOperation} {drawn : Nat} {links : List String} {f : XrayFile}
    (h : f ∈ batchFiles newUuid doubles drawn links) : Admitted doubles op f := by
  induction links generalizing drawn with
  | nil => cases h
  | cons link links ih =>
    unfold batchFiles at h
    split at h
    · rename_i hi
      rcases List.mem_cons.1 h with rfl | h
      · exact .ofLink hi
      · exact ih h
    · exact ih h

/-- The uuids that are drawn are those that the store counts. -/
theorem drawnBy_of_perform {s s' : XrayStore} {op : XrayOperation} {writes : List (Uuid × String)}
    (hstep : perform newUuid doubles s op = some (s', writes)) :
    drawnBy newUuid doubles s op = (List.range' s.drawn (s'.drawn - s.drawn)).map newUuid := by
  unfold drawnBy
  rw [hstep]

theorem drawnBy_eq_nil {s s' : XrayStore} {op : XrayOperation} {writes : List (Uuid × String)}
    (hstep : perform newUuid doubles s op = some (s', writes)) (hdrawn : s'.drawn = s.drawn) :
    drawnBy newUuid doubles s op = [] := by
  rw [drawnBy_of_perform hstep, hdrawn, Nat.sub_self]
  rfl

theorem drawnBy_eq_singleton {s s' : XrayStore} {op : XrayOperation} {writes : List (Uuid × String)}
    (hstep : perform newUuid doubles s op = some (s', writes)) (hdrawn : s'.drawn = s.drawn + 1) :
    drawnBy newUuid doubles s op = [newUuid s.drawn] := by
  rw [drawnBy_of_perform hstep, hdrawn, Nat.add_sub_cancel_left]
  rfl

/-- **What a call can do**: some files stay, and those that are written are under the uuids that are drawn,
    or it is one, in place of those of its uuid. -/
theorem perform_cases {s s' : XrayStore} {op : XrayOperation} {writes : List (Uuid × String)}
    (hstep : perform newUuid doubles s op = some (s', writes)) :
    ∃ kept new : List XrayFile, kept.Sublist s.files ∧ s'.files = kept ++ new ∧
      writes = new.map (fun f => (f.uuid, f.text)) ∧ (∀ f ∈ new, Admitted doubles op f) ∧
      (new.map (·.uuid) = drawnBy newUuid doubles s op ∨ ∃ f, new = [f] ∧ ∀ g ∈ kept, g.uuid ≠ f.uuid) := by
  have hnone : ∀ kept : List XrayFile, kept.Sublist s.files → s'.files = kept → writes = [] →
      s'.drawn = s.drawn → ∃ kept new : List XrayFile, kept.Sublist s.files ∧ s'.files = kept ++ new ∧
        writes = new.map (fun f => (f.uuid, f.text)) ∧ (∀ f ∈ new, Admitted doubles op f) ∧
        (new.map (·.uuid) = drawnBy newUuid doubles s op ∨ ∃ f, new = [f] ∧ ∀ g ∈ kept, g.uuid ≠ f.uuid) := by
    intro kept hkept hfiles hwrites hdrawn
    exact ⟨kept, [], hkept, by rw [hfiles, List.append_nil], hwrites, fun f hf => absurd hf List.not_mem_nil,
      .inl (drawnBy_eq_nil hstep hdrawn).symm⟩
  cases op with
  | importLink link preferredName sub taken =>
    cases hp : XrayShareLink.parse doubles (trim link) with
    | none =>
      have he := hstep
      unfold perform at he
      simp only [importLink_of_none hp, Option.some.injEq, Prod.mk.injEq] at he
      obtain ⟨rfl, rfl⟩ := he
      exact hnone _ (List.Sublist.refl _) rfl rfl rfl
    | some o =>
      obtain ⟨name, hname⟩ := importLink_of_some hp newUuid s preferredName sub taken
      have he := hstep
      unfold perform at he
      simp only [hname, Option.some.injEq, Prod.mk.injEq] at he
      obtain ⟨rfl, rfl⟩ := he
      refine ⟨s.files, [⟨newUuid s.drawn, false, trim link⟩], List.Sublist.refl _, rfl, rfl, fun f hf => ?_,
        .inl (drawnBy_eq_singleton hstep rfl).symm⟩
      rw [List.mem_singleton.1 hf]
      exact .ofLink (by rw [hp]; rfl)
  | importBatch links sub =>
    have he := hstep
    unfold perform at he
    simp only [Option.some.injEq, Prod.mk.injEq] at he
    obtain ⟨rfl, rfl⟩ := he
    obtain ⟨hfiles, hdrawn⟩ := importBatch_files newUuid doubles s links sub
    refine ⟨s.files, batchFiles newUuid doubles s.drawn links, List.Sublist.refl _, hfiles, rfl,
      fun f hf => mem_batchFiles hf, .inl ?_⟩
    rw [drawnBy_of_perform hstep, hdrawn, Nat.add_sub_cancel_left, batchFiles_uuids]
  | importCustomJson jsonText preferredName sub =>
    cases hv : XrayConfig.isValidCustomJson doubles (trim jsonText) with
    | false =>
      have he := hstep
      unfold perform at he
      simp only [importCustomJson, hv, Bool.not_false, if_true, Option.some.injEq, Prod.mk.injEq] at he
      obtain ⟨rfl, rfl⟩ := he
      exact hnone _ (List.Sublist.refl _) rfl rfl rfl
    | true =>
      have he := hstep
      unfold perform at he
      simp only [importCustomJson, hv, Bool.not_true, Bool.false_eq_true, if_false,
        Option.some.injEq, Prod.mk.injEq] at he
      obtain ⟨rfl, rfl⟩ := he
      refine ⟨s.files, [⟨newUuid s.drawn, true, trim jsonText⟩], List.Sublist.refl _, rfl, rfl, fun f hf => ?_,
        .inl (drawnBy_eq_singleton hstep rfl).symm⟩
      rw [List.mem_singleton.1 hf]
      exact ⟨XrayShareLink.trim_trim jsonText, (fun hf => by cases hf), fun _ => hv,
        fun _ => .inr ⟨jsonText, preferredName, sub, rfl, rfl⟩⟩
  | saveLink uuid link =>
    have he := hstep
    unfold perform at he
    simp only [Option.some.injEq, Prod.mk.injEq] at he
    rw [saveLink_eq] at he
    cases hr : saveRejects doubles link with
    | true =>
      rw [hr] at he
      obtain ⟨rfl, rfl⟩ := he
      exact hnone _ (List.Sublist.refl _) rfl rfl rfl
    | false =>
      rw [hr, if_neg Bool.false_ne_true] at he
      obtain ⟨rfl, rfl⟩ := he
      refine ⟨_, [⟨uuid, XrayConfig.isCustomJson (trim link), trim link⟩], List.filter_sublist,
        saveFile_files s ⟨uuid, XrayConfig.isCustomJson (trim link), trim link⟩, rfl, fun f hf => ?_,
        .inr ⟨_, rfl, fun g hg => by simpa using (List.mem_filter.1 hg).2⟩⟩
      rw [List.mem_singleton.1 hf]
      exact ⟨XrayShareLink.trim_trim link, parses_of_accepted hr, custom_of_accepted hr, fun hc => .inl hc⟩
  | rename uuid newName =>
    have he := hstep
    unfold perform at he
    simp only [Option.some.injEq, Prod.mk.injEq] at he
    obtain ⟨rfl, rfl⟩ := he
    refine hnone s.files (List.Sublist.refl _) ?_ rfl ?_
    · unfold rename
      split <;> rfl
    · unfold rename
      split <;> rfl
  | delete uuid =>
    have he := hstep
    unfold perform at he
    simp only [Option.some.injEq, Prod.mk.injEq] at he
    obtain ⟨rfl, rfl⟩ := he
    exact hnone _ List.filter_sublist rfl rfl rfl
  | deleteBySubscription id keep =>
    have he := hstep
    unfold perform at he
    simp only [Option.some.injEq, Prod.mk.injEq] at he
    obtain ⟨rfl, rfl⟩ := he
    exact hnone _ (deleteBySubscription_sublist s id keep) rfl rfl (deleteBySubscription_spec s id keep).2.2.2

/-- The step lemma: **every call keeps the store sound.** -/
theorem perform_sound {s s' : XrayStore} {op : XrayOperation} {writes : List (Uuid × String)}
    (h : Sound doubles s.files last) (hop : Admissible newUuid doubles s op)
    (hstep : perform newUuid doubles s op = some (s', writes)) :
    Sound doubles s'.files (record last writes) := by
  obtain ⟨kept, new, hkept, hfiles, hwrites, hnew, hwhere⟩ := perform_cases hstep
  rw [hfiles, hwrites]
  have hdistinct : (new.map (·.uuid)).Nodup ∧ ∀ uuid ∈ new.map (·.uuid), uuid ∉ kept.map (·.uuid) := by
    rcases hwhere with hdrawn | ⟨f, rfl, hother⟩
    · rw [hdrawn]
      exact ⟨hop.distinct, fun uuid hu hm => hop.fresh uuid hu ((hkept.map _).subset hm)⟩
    · refine ⟨List.nodup_singleton _, fun uuid hu hm => ?_⟩
      obtain rfl := List.mem_singleton.1 hu
      obtain ⟨g, hg, he⟩ := List.mem_map.1 hm
      exact hother g hg he
  refine (h.sublist hkept).addAll hdistinct.1 hdistinct.2 (fun f hf => ?_) fun f hf => (hnew f hf).link
  cases hjson : f.json with
  | false => exact (not_isCustomJson_of_parse ((hnew f hf).link hjson)).symm
  | true =>
    rcases (hnew f hf).json hjson with hc | ⟨text, name, sub, rfl, htext⟩
    · exact hc.symm
    · rw [htext]
      exact (isCustomJson_trim (hop.custom _ _ _ rfl)).symm

/-- A file that is there after a call was there before, or was admitted. -/
theorem mem_perform {s s' : XrayStore} {op : XrayOperation} {writes : List (Uuid × String)}
    (hstep : perform newUuid doubles s op = some (s', writes)) {f : XrayFile} (hf : f ∈ s'.files) :
    f ∈ s.files ∨ Admitted doubles op f := by
  obtain ⟨kept, new, hkept, hfiles, -, hnew, -⟩ := perform_cases hstep
  rw [hfiles] at hf
  rcases List.mem_append.1 hf with hf | hf
  · exact .inl (hkept.subset hf)
  · exact .inr (hnew f hf)

/-- **After every run the texts are trimmed, and the custom configs are ones that were accepted.** -/
theorem files_admitted {ops : List XrayOperation} {s : XrayStore}
    (hrun : exec (watched newUuid doubles) (empty, fun _ => none) ops = some (s, last)) :
    ∀ f ∈ s.files, trim f.text = f.text ∧
      (f.json = true → XrayConfig.isValidCustomJson doubles f.text = true) := by
  refine exec_inv' (I := fun x => ∀ f ∈ x.1.files, trim f.text = f.text ∧
    (f.json = true → XrayConfig.isValidCustomJson doubles f.text = true)) ?_
    (fun f hf => absurd hf List.not_mem_nil) hrun
  intro x op x' hx hstep f hf
  obtain ⟨writes, hperform, -⟩ := observed_some hstep
  rcases mem_perform hperform hf with hold | hnew
  · exact hx f hold
  · exact ⟨hnew.trimmed, hnew.custom⟩

/-- A call is never refused as a step. -/
theorem exists_watched (newUuid : Nat → Uuid) (doubles : Doubles)
    (x : XrayStore × (Uuid → Option String)) (op : XrayOperation) :
    ∃ x', watched newUuid doubles x op = some x' := by
  have hperform : ∃ r, perform newUuid doubles x.1 op = some r := by
    cases op with
    | importLink link preferredName sub taken =>
      unfold perform
      dsimp only
      cases x.1.importLink newUuid doubles link preferredName sub taken <;> exact ⟨_, rfl⟩
    | importCustomJson jsonText preferredName sub =>
      unfold perform
      dsimp only
      cases x.1.importCustomJson newUuid doubles jsonText preferredName sub <;> exact ⟨_, rfl⟩
    | _ =>
      unfold perform
      exact ⟨_, rfl⟩
  obtain ⟨r, hr⟩ := hperform
  exact ⟨(r.1, record x.2 r.2), by simp only [watched, observed, hr]⟩

theorem exists_run (newUuid : Nat → Uuid) (doubles : Doubles)
    (x : XrayStore × (Uuid → Option String)) (ops : List XrayOperation) :
    ∃ x', exec (watched newUuid doubles) x ops = some x' := by
  induction ops generalizing x with
  | nil => exact ⟨x, rfl⟩
  | cons op ops ih =>
    obtain ⟨t, ht⟩ := exists_watched newUuid doubles x op
    obtain ⟨x', hx'⟩ := ih t
    exact ⟨x', exec_cons.2 ⟨t, ht, hx'⟩⟩

end Step

/-! ## 6. What the store shows -/

/-- One file for each uuid, of the kind of its text; every file is listed once; what is read under a
    uuid is what was written last. -/
structure Represented (doubles : Doubles) (s : XrayStore) (last : Uuid → Option String) : Prop where
  one : ∀ uuid, s.uuids.count uuid ≤ 1
  kind : ∀ f ∈ s.files, f.json = XrayConfig.isCustomJson f.text ∧
    (f.json = false → (XrayShareLink.parse doubles f.text).isSome = true)
  listed : ∀ uuid, ((s.rows doubles).map (·.uuid)).count uuid = if uuid ∈ s.uuids then 1 else 0
  text : ∀ uuid ∈ s.uuids, ∃ text, s.link uuid = some text ∧ last uuid = some text

/-- No two files have one path. -/
def Directory (s : XrayStore) : Prop := (s.files.map fun f => (f.uuid, f.json)).Nodup

theorem Directory.fileOf_eq_some {s : XrayStore} (h : s.Directory) {uuid : Uuid} {json : Bool}
    {f : XrayFile} :
    s.fileOf uuid json = some f ↔ f ∈ s.files ∧ f.uuid = uuid ∧ f.json = json := by
  unfold fileOf
  constructor
  · intro hf
    have hp := List.find?_some hf
    rw [Bool.and_eq_true, beq_iff_eq, beq_iff_eq] at hp
    exact ⟨List.mem_of_find?_eq_some hf, hp⟩
  · rintro ⟨hf, rfl, rfl⟩
    cases hg : s.files.find? fun g => g.uuid == f.uuid && g.json == f.json with
    | none =>
      have := List.find?_eq_none.1 hg f hf
      simp at this
    | some g =>
      have hp := List.find?_some hg
      rw [Bool.and_eq_true, beq_iff_eq, beq_iff_eq] at hp
      have hkey : (g.uuid, g.json) = (f.uuid, f.json) := by rw [hp.1, hp.2]
      rw [List.inj_on_of_nodup_map h (List.mem_of_find?_eq_some hg) hf hkey]

theorem directory_of_nodup {s : XrayStore} (h : s.uuids.Nodup) : s.Directory := by
  refine List.Nodup.of_map Prod.fst ?_
  rw [List.map_map]
  exact h

/-- With one file for each uuid, `storedFile` finds it whatever its kind. -/
theorem storedFile_of_mem {s : XrayStore} (h : s.uuids.Nodup) {f : XrayFile} (hf : f ∈ s.files) :
    s.storedFile f.uuid = some f := by
  have hfile : s.fileOf f.uuid f.json = some f :=
    (directory_of_nodup h).fileOf_eq_some.2 ⟨hf, rfl, rfl⟩
  unfold storedFile
  cases hj : f.json with
  | false =>
    rw [hj] at hfile
    rw [hfile]
    rfl
  | true =>
    have hnone : s.fileOf f.uuid false = none := by
      rw [Option.eq_none_iff_forall_ne_some]
      intro g hg
      obtain ⟨hm, hu, hgj⟩ := (directory_of_nodup h).fileOf_eq_some.1 hg
      rw [List.inj_on_of_nodup_map h hm hf hu, hj] at hgj
      cases hgj
    rw [hj] at hfile
    rw [hnone, hfile]
    rfl

/-- Every file of a sound store is shown. -/
theorem Sound.shown {doubles : Doubles} {s : XrayStore} {last : Uuid → Option String}
    (h : Sound doubles s.files last) {f : XrayFile} (hf : f ∈ s.files) :
    (s.toProfile doubles f).isSome = true := by
  rw [toProfile_isSome, ← h.json f hf]
  cases hj : f.json with
  | true => exact Bool.true_or _
  | false =>
    rw [Bool.false_or]
    exact h.parses f hf hj

theorem Sound.represents {doubles : Doubles} {s : XrayStore} {last : Uuid → Option String}
    (h : Sound doubles s.files last) : Represented doubles s last where
  one uuid := List.nodup_iff_count_le_one.1 h.distinct uuid
  kind f hf := ⟨h.json f hf, h.parses f hf⟩
  listed uuid := by
    rw [rows_uuids fun f hf => h.shown hf]
    split
    · rename_i hu
      exact List.count_eq_one_of_mem h.distinct hu
    · rename_i hu
      exact List.count_eq_zero_of_not_mem hu
  text uuid hu := by
    obtain ⟨f, hf, rfl⟩ := List.mem_map.1 hu
    refine ⟨f.text, ?_, h.last f hf⟩
    unfold link
    rw [storedFile_of_mem h.distinct hf]
    rfl

/-- A save draws no uuid. -/
theorem drawnBy_saveLink (newUuid : Nat → Uuid) (doubles : Doubles) (s : XrayStore) (uuid : Uuid)
    (link : String) : drawnBy newUuid doubles s (.saveLink uuid link) = [] := by
  have hdrawn : (s.saveLink doubles uuid link none).1.drawn = s.drawn := by
    rw [saveLink_eq]
    split <;> rfl
  exact drawnBy_eq_nil (by rfl) hdrawn

end XrayStore

end SwiftVpn
