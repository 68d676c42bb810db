/-
  File:      SwiftVpn/Xray/SubscriptionList.lean
  Subject:   THE LIST OF SUBSCRIPTIONS AS THE TEXT OF ONE PREFERENCE: `all` and `save` of
             XraySubscription.kt.

  Xray/Ownership.lean takes the list for a value that the jobs read and write back. What they read and
  write is a JSON text, and the text that is there at the start may be any.

  * `all`, `save` -- the reader, which takes the list for empty where anything is wrong with the text,
    and the writer; `Casts` are the casts of the JVM from a floating point text;
  * `Storable` -- the entries whose numbers are a `Long` and an `Int`; `storable_all`: those of every
    text; `all_save`: they are read back as they were saved;
  * `Disk`, `stepText` -- the world of Xray/Ownership.lean with the text in the place of the list;
  * `text_refines_list` -- every run over the text is a run over the list, and whatever can be run over
    the list can be run over the text;
  * `InOrder` -- the invariant of all runs, disturbed or not; `text_in_order` -- no id is twice in the
    text, and every entry was added.
-/
import SwiftVpn.Lib.JsonLayout
import SwiftVpn.Lib.Sections
import SwiftVpn.Xray.Editor
import SwiftVpn.Xray.Ownership

namespace SwiftVpn

namespace XraySubscriptionStore

/-! ## 1. The text -/

/-- `(long) Double.parseDouble(text)` and `(int) Double.parseDouble(text)`, of a text that is a number. -/
structure Casts where
  toLong : String → Option Int
  toInt : String → Option Int
  long : ∀ s n, toLong s = some n → -(2 ^ 63 : Int) ≤ n ∧ n < (2 ^ 63 : Int)
  int : ∀ s n, toInt s = some n → -(2 ^ 31 : Int) ≤ n ∧ n < (2 ^ 31 : Int)

/-- An entry of the array. -/
def readEntry (casts : Casts) (o : JsonObject) : Option Subscription := do
  let id ← o.getString "id"
  let url ← o.getString "url"
  return {
    id := id
    name := o.optString "name"
    url := url
    lastUpdated := o.optLong casts.toLong "lastUpdated"
    profileCount := o.optInt casts.toInt "profileCount" }

/-- `getJSONObject`, and the entry. -/
def readElement (casts : Casts) : Json → Option Subscription
  | .obj o => readEntry casts o
  | _ => none

/-- `all`, of the preference. -/
def all (doubles : Doubles) (casts : Casts) (raw : Option String) : List Subscription :=
  match raw with
  | none => []
  | some text => ((Json.arrayOfText doubles text).bind fun arr => arr.mapM (readElement casts)).getD []

/-- The object of an entry. -/
def entryJson (s : Subscription) : Json :=
  .obj <| JsonObject.put (JsonObject.put (JsonObject.put (JsonObject.put (JsonObject.put []
    "id" (.str s.id))
    "name" (.str s.name))
    "url" (.str s.url))
    "lastUpdated" (.int s.lastUpdated))
    "profileCount" (.int s.profileCount)

theorem entryJson_eq (s : Subscription) : entryJson s =
    .obj [("id", .str s.id), ("name", .str s.name), ("url", .str s.url),
      ("lastUpdated", .int s.lastUpdated), ("profileCount", .int s.profileCount)] := rfl

/-- `save`: the preference it writes. -/
def save (list : List Subscription) : Option String := some (Json.render (.arr (list.map entryJson)))

/-! ## 2. What was saved is read back -/

/-- The numbers of an entry are a `Long` and an `Int`. -/
structure Storable (s : Subscription) : Prop where
  lastUpdated : -(2 ^ 63 : Int) ≤ s.lastUpdated ∧ s.lastUpdated < (2 ^ 63 : Int)
  profileCount : -(2 ^ 31 : Int) ≤ s.profileCount ∧ s.profileCount < (2 ^ 31 : Int)

theorem plain_entryJson {s : Subscription} (h : Storable s) : (entryJson s).plain = true := by
  rw [entryJson_eq]
  refine (Json.plain_obj_iff _).2 ⟨by simp, fun m hm => ?_⟩
  simp only [List.mem_cons, List.not_mem_nil, or_false] at hm
  obtain ⟨hlo, hhi⟩ := h.profileCount
  rcases hm with rfl | rfl | rfl | rfl | rfl
  · rfl
  · rfl
  · rfl
  · exact decide_eq_true h.lastUpdated
  · exact decide_eq_true ⟨by omega, by omega⟩

theorem readElement_entryJson (casts : Casts) {s : Subscription} (h : Storable s) :
    readElement casts (entryJson s) = some s := by
  have hcount : s.profileCount.bmod 4294967296 = s.profileCount := by
    obtain ⟨hlo, hhi⟩ := h.profileCount
    exact Int.bmod_eq_of_le (by omega) (by omega)
  simp [readElement, entryJson_eq, readEntry, JsonObject.getString, JsonObject.optString, JsonObject.optLong,
    JsonObject.optInt, List.lookup_cons, Json.finite, Json.text, hcount]

theorem mapM_readElement (casts : Casts) {list : List Subscription} (h : ∀ s ∈ list, Storable s) :
    (list.map entryJson).mapM (readElement casts) = some list := by
  induction list with
  | nil => rfl
  | cons s list ih =>
    rw [List.map_cons, List.mapM_cons, readElement_entryJson casts (h s List.mem_cons_self),
      ih fun s hs => h s (List.mem_cons_of_mem _ hs)]
    rfl

/-- **A list is read back as it was saved.** -/
theorem all_save (doubles : Doubles) (casts : Casts) {list : List Subscription}
    (h : ∀ s ∈ list, Storable s) : all doubles casts (save list) = list := by
  have hplain : ∀ e ∈ list.map entryJson, e.plain = true := by
    intro e he
    obtain ⟨s, hs, rfl⟩ := List.mem_map.1 he
    exact plain_entryJson (h s hs)
  unfold all save
  dsimp only
  rw [Json.arrayOfText_render doubles hplain, Option.bind_some, mapM_readElement casts h, Option.getD_some]

/-- The number of a member that was read. -/
theorem long_of_readable {doubles : Doubles} {o : JsonObject} (h : ∀ m ∈ o, Json.Readable doubles m.2)
    {name : String} {n : Int} (hn : o.lookup name = some (.int n)) :
    -(2 ^ 63 : Int) ≤ n ∧ n < (2 ^ 63 : Int) := by
  obtain ⟨front, rest, rfl, -⟩ := List.lookup_eq_some_iff.1 hn
  exact (h (name, .int n) (List.mem_append_right front List.mem_cons_self)).parts.long n rfl

theorem getD_cast {cast : String → Option Int} {lo hi : Int}
    (h : ∀ s n, cast s = some n → lo ≤ n ∧ n < hi) (hzero : lo ≤ 0 ∧ 0 < hi) (s : String) :
    lo ≤ (cast s).getD 0 ∧ (cast s).getD 0 < hi := by
  cases hs : cast s with
  | none => exact hzero
  | some n => exact h s n hs

theorem storable_readEntry {doubles : Doubles} (casts : Casts) {o : JsonObject}
    (ho : ∀ m ∈ o, Json.Readable doubles m.2) {s : Subscription} (h : readEntry casts o = some s) :
    Storable s := by
  unfold readEntry at h
  obtain ⟨id, -, h⟩ := Option.bind_eq_some_iff.1 h
  obtain ⟨url, -, h⟩ := Option.bind_eq_some_iff.1 h
  cases h
  refine ⟨?_, ?_⟩
  · dsimp only
    unfold JsonObject.optLong
    split
    · rename_i n hn
      exact long_of_readable ho hn
    · exact getD_cast casts.long (by decide) _
    · exact getD_cast casts.long (by decide) _
    · decide
  · dsimp only
    unfold JsonObject.optInt
    split
    · rename_i n hn
      have hlo : -((2 ^ 32 : Nat) / 2 : Int) ≤ n.bmod (2 ^ 32) := Int.le_bmod (by omega)
      have hhi : n.bmod (2 ^ 32) < ((2 ^ 32 : Nat) + 1) / 2 := Int.bmod_lt (by omega)
      exact ⟨hlo, hhi⟩
    · exact getD_cast casts.int (by decide) _
    · exact getD_cast casts.int (by decide) _
    · decide

theorem storable_readElement {doubles : Doubles} (casts : Casts) {e : Json}
    (he : e = .hole ∨ Json.Readable doubles e) {s : Subscription} (h : readElement casts e = some s) :
    Storable s := by
  unfold readElement at h
  split at h
  · rename_i o
    rcases he with he | he
    · cases he
    · exact storable_readEntry casts (he.parts.members o rfl) h
  · cases h

/-- **The entries of every text can be stored.** -/
theorem storable_all (doubles : Doubles) (casts : Casts) (raw : Option String) :
    ∀ s ∈ all doubles casts raw, Storable s := by
  intro s hs
  unfold all at hs
  split at hs
  · cases hs
  · rename_i text
    cases harr : Json.arrayOfText doubles text with
    | none =>
      rw [harr] at hs
      cases hs
    | some es =>
      rw [harr, Option.bind_some] at hs
      cases hlist : es.mapM (readElement casts) with
      | none =>
        rw [hlist] at hs
        cases hs
      | some list =>
        rw [hlist] at hs
        obtain ⟨e, he, hread⟩ := Sections.exists_of_mapM hlist hs
        exact storable_readElement casts ((Json.arrayOfText_readable harr).parts.elements es rfl e he) hread

/-! ## 3. The jobs over the text -/

/-- The world of the jobs, with the preference in the place of the list. -/
structure Disk where
  store : XrayStore
  raw : Option String
  jobs : List Job
  first : List Subscription
  log : List Change

/-- The job `i` stands at `job`. -/
def Disk.at (d : Disk) (i : Nat) (job : Job) : Disk := { d with jobs := d.jobs.set i job }

/-- The id was in the list at the start, or was added since. -/
def Disk.known (d : Disk) (id : String) : Bool := (ids d.first).contains id || d.log.any (·.adds id)

/-- A new id: not known, and not about to be added. -/
def Disk.isNew (d : Disk) (id : String) : Bool :=
  !d.known id && d.jobs.all fun j => j.adding != some id

section Text

variable (newUuid : Nat → Uuid) (doubles : Doubles) (casts : Casts) (hostOf : String → String)

/-- The next access of the job `i`; the preference is read by `all` and written by `save`. -/
def accessText (d : Disk) (i : Nat) (fetched : Option String) (activeUuid : Option Uuid) (now : Int) :
    Job → Option Disk
  | .add sub => some (d.at i (.addWrite sub (all doubles casts d.raw)))
  | .addWrite sub read =>
    some { d.at i .done with raw := save (read ++ [sub]), log := d.log ++ [.added sub.id sub.name] }
  | .remove id => some (d.at i (.removeWrite id (all doubles casts d.raw)))
  | .removeWrite id read =>
    some { d.at i (.removeSweep id) with
           raw := save (read.filter (·.id ≠ id)), log := d.log ++ [.removed id] }
  | .removeSweep id =>
    some { d.at i .done with store := d.store.deleteBySubscription id activeUuid }
  | .rename id newName => some (d.at i (.renameWrite id newName (all doubles casts d.raw)))
  | .renameWrite id newName read =>
    some { d.at i .done with
           raw := save (renamed id newName read), log := d.log ++ [.renamed id (trim newName)] }
  | .fetch sub =>
    match fetched with
    | none => some (d.at i .done)
    | some body =>
      let links := parseLinks body
      some (d.at i (if links.isEmpty then .done else .replace sub links))
  | .replace sub links =>
    let (store, imported) := replaceProfiles newUuid doubles d.store sub.id activeUuid links
    some { d.at i (.count sub imported) with store := store }
  | .count sub imported => some (d.at i (.countWrite sub imported (all doubles casts d.raw)))
  | .countWrite sub imported read =>
    some { d.at i .done with raw := save (counted sub.id now imported read) }
  | .done => none

/-- One step, as in `step`. -/
def stepText (d : Disk) : Label → Option Disk
  | .add id name url =>
    match newSubscription hostOf id name url with
    | some sub => if d.isNew id then some { d with jobs := d.jobs ++ [.add sub] } else none
    | none => none
  | .remove id => if d.known id then some { d with jobs := d.jobs ++ [.remove id] } else none
  | .rename id newName =>
    if d.known id && !isBlank newName then
      some { d with jobs := d.jobs ++ [.rename id newName] }
    else none
  | .refresh id =>
    match (all doubles casts d.raw).find? (·.id == id) with
    | some sub => some { d with jobs := d.jobs ++ [.fetch sub] }
    | none => none
  | .run i fetched activeUuid now =>
    match d.jobs[i]? with
    | some job => accessText newUuid doubles casts d i fetched activeUuid now job
    | none => none

/-- What the jobs see of it. -/
def Disk.world (d : Disk) : World where
  store := d.store
  subs := all doubles casts d.raw
  jobs := d.jobs
  first := d.first
  log := d.log

end Text

/-- The clock is a `Long`, and a list has at most `Int.MAX_VALUE` elements. -/
def Label.Bounded : Label → Prop
  | .run _ fetched _ now =>
    (-(2 ^ 63 : Int) ≤ now ∧ now < (2 ^ 63 : Int)) ∧
      ∀ body ∈ fetched, (parseLinks body).length < 2 ^ 31
  | _ => True

/-- What a job is about to write can be stored. -/
def Job.Storable : Job → Prop
  | .add sub => XraySubscriptionStore.Storable sub
  | .addWrite sub read => XraySubscriptionStore.Storable sub ∧ ∀ s ∈ read, XraySubscriptionStore.Storable s
  | .removeWrite _ read | .renameWrite _ _ read => ∀ s ∈ read, XraySubscriptionStore.Storable s
  | .replace _ links => links.length < 2 ^ 31
  | .count _ imported => imported < 2 ^ 31
  | .countWrite _ imported read => imported < 2 ^ 31 ∧ ∀ s ∈ read, XraySubscriptionStore.Storable s
  | .remove _ | .removeSweep _ | .rename _ _ | .fetch _ | .done => True

/-- The invariant: what the jobs are about to write can be stored. -/
def Disk.Sound (d : Disk) : Prop := ∀ job ∈ d.jobs, job.Storable

/-! ## 4. The lists that are written -/

theorem storable_newSubscription {hostOf : String → String} {id name url : String} {sub : Subscription}
    (h : newSubscription hostOf id name url = some sub) : Storable sub := by
  unfold newSubscription at h
  dsimp only at h
  split at h
  · cases h
  · cases h
    have hzero : Storable { id := id, name := ifBlank (trim name) (hostOf (trim url)), url := trim url } :=
      ⟨⟨by simp, by simp⟩, ⟨by simp, by simp⟩⟩
    exact hzero

theorem storable_concat {read : List Subscription} {sub : Subscription} (hread : ∀ s ∈ read, Storable s)
    (hsub : Storable sub) : ∀ s ∈ read ++ [sub], Storable s := fun s hs =>
  (List.mem_append.1 hs).elim (hread s) fun hm => List.mem_singleton.1 hm ▸ hsub

theorem storable_renamed {read : List Subscription} (hread : ∀ s ∈ read, Storable s) (id newName : String) :
    ∀ s ∈ renamed id newName read, Storable s := by
  intro s hs
  obtain ⟨e, he, rfl⟩ := List.mem_map.1 hs
  have hentry := hread e he
  split
  · exact ⟨hentry.lastUpdated, hentry.profileCount⟩
  · exact hentry

theorem storable_counted {read : List Subscription} (hread : ∀ s ∈ read, Storable s) (id : String) {now : Int}
    (hnow : -(2 ^ 63 : Int) ≤ now ∧ now < (2 ^ 63 : Int)) {imported : Nat} (himported : imported < 2 ^ 31) :
    ∀ s ∈ counted id now imported read, Storable s := by
  intro s hs
  obtain ⟨e, he, rfl⟩ := List.mem_map.1 hs
  split
  · exact ⟨hnow, by dsimp only; omega⟩
  · exact hread e he

theorem replaceProfiles_le (newUuid : Nat → Uuid) (doubles : Doubles) (store : XrayStore) (id : String)
    (activeUuid : Option Uuid) (links : List String) :
    (replaceProfiles newUuid doubles store id activeUuid links).2 ≤ links.length := by
  obtain ⟨new, -, hcount, hlen⟩ := XrayStore.importBatch_spec newUuid doubles id
    (store.deleteBySubscription id activeUuid) links
  unfold replaceProfiles
  rw [hcount, hlen]
  exact List.countP_le_length

/-! ## 5. The refinement -/

section Refinement

variable (newUuid : Nat → Uuid) (doubles : Doubles) (casts : Casts) (hostOf : String → String)

theorem Disk.Sound.append {d : Disk} (h : d.Sound) {job : Job} (hjob : job.Storable) :
    ∀ j ∈ d.jobs ++ [job], j.Storable := fun j hj =>
  (List.mem_append.1 hj).elim (h j) fun hm => List.mem_singleton.1 hm ▸ hjob

theorem Disk.Sound.set {d : Disk} (h : d.Sound) (i : Nat) {job : Job} (hjob : job.Storable) :
    ∀ j ∈ d.jobs.set i job, j.Storable := fun j hj =>
  (List.mem_or_eq_of_mem_set hj).elim (h j) fun he => he ▸ hjob

/-- An access over the text is the access over the list, and what the jobs are about to write can still
    be stored. -/
theorem accessText_world {d : Disk} (h : d.Sound) {i : Nat} {job : Job} (hi : d.jobs[i]? = some job)
    {fetched : Option String} {activeUuid : Option Uuid} {now : Int}
    (hl : (Label.run i fetched activeUuid now).Bounded) :
    (accessText newUuid doubles casts d i fetched activeUuid now job).map (Disk.world doubles casts)
      = access newUuid doubles (d.world doubles casts) i fetched activeUuid now job ∧
    ∀ d' ∈ accessText newUuid doubles casts d i fetched activeUuid now job, d'.Sound := by
  have hjob := h job (List.mem_of_getElem? hi)
  have hall := storable_all doubles casts d.raw
  obtain ⟨hnow, hlinks⟩ := hl
  cases job with
  | add sub =>
    refine ⟨rfl, ?_⟩
    rintro _ ⟨⟩
    exact h.set i ⟨hjob, hall⟩
  | addWrite sub read =>
    have hsaved := all_save doubles casts (storable_concat hjob.2 hjob.1)
    refine ⟨?_, ?_⟩
    · simp only [accessText, access, Option.map_some, Disk.world, Disk.at, World.at, hsaved]
    · rintro _ ⟨⟩
      exact h.set i trivial
  | remove id =>
    refine ⟨rfl, ?_⟩
    rintro _ ⟨⟩
    exact h.set i hall
  | removeWrite id read =>
    have hsaved := all_save doubles casts fun s (hs : s ∈ read.filter (·.id ≠ id)) =>
      hjob s (List.mem_of_mem_filter hs)
    refine ⟨?_, ?_⟩
    · simp only [accessText, access, Option.map_some, Disk.world, Disk.at, World.at, hsaved]
    · rintro _ ⟨⟩
      exact h.set i trivial
  | removeSweep id =>
    refine ⟨rfl, ?_⟩
    rintro _ ⟨⟩
    exact h.set i trivial
  | rename id newName =>
    refine ⟨rfl, ?_⟩
    rintro _ ⟨⟩
    exact h.set i hall
  | renameWrite id newName read =>
    have hsaved := all_save doubles casts (storable_renamed hjob id newName)
    refine ⟨?_, ?_⟩
    · simp only [accessText, access, Option.map_some, Disk.world, Disk.at, World.at, hsaved]
    · rintro _ ⟨⟩
      exact h.set i trivial
  | fetch sub =>
    cases fetched with
    | none =>
      refine ⟨rfl, ?_⟩
      rintro _ ⟨⟩
      exact h.set i trivial
    | some body =>
      refine ⟨rfl, ?_⟩
      rintro _ ⟨⟩
      refine h.set i ?_
      split
      · trivial
      · exact hlinks body rfl
  | replace sub links =>
    have hle := replaceProfiles_le newUuid doubles d.store sub.id activeUuid links
    refine ⟨rfl, ?_⟩
    rintro _ ⟨⟩
    exact h.set i (Nat.lt_of_le_of_lt hle hjob)
  | count sub imported =>
    refine ⟨rfl, ?_⟩
    rintro _ ⟨⟩
    exact h.set i ⟨hjob, hall⟩
  | countWrite sub imported read =>
    have hsaved := all_save doubles casts (storable_counted hjob.2 sub.id hnow hjob.1)
    refine ⟨?_, ?_⟩
    · simp only [accessText, access, Option.map_some, Disk.world, Disk.at, World.at, hsaved]
    · rintro _ ⟨⟩
      exact h.set i trivial
  | done => exact ⟨rfl, fun d' hd => by cases hd⟩

/-- **A step over the text is the step over the list**, and what the jobs are about to write can still
    be stored. -/
theorem stepText_world {d : Disk} (h : d.Sound) {l : Label} (hl : l.Bounded) :
    (stepText newUuid doubles casts hostOf d l).map (Disk.world doubles casts)
      = step newUuid doubles hostOf (d.world doubles casts) l ∧
    ∀ d' ∈ stepText newUuid doubles casts hostOf d l, d'.Sound := by
  cases l with
  | add id name url =>
    cases hnew : newSubscription hostOf id name url with
    | none =>
      simp only [stepText, step, hnew]
      exact ⟨rfl, fun d' hd => by cases hd⟩
    | some sub =>
      simp only [stepText, step, hnew]
      have hisNew : (d.world doubles casts).isNew id = d.isNew id := rfl
      rw [hisNew]
      cases d.isNew id with
      | false => exact ⟨rfl, fun d' hd => by cases hd⟩
      | true =>
        refine ⟨rfl, ?_⟩
        rintro _ ⟨⟩
        exact h.append (storable_newSubscription hnew)
  | remove id =>
    have hknown : (d.world doubles casts).known id = d.known id := rfl
    simp only [stepText, step, hknown]
    cases d.known id with
    | false => exact ⟨rfl, fun d' hd => by cases hd⟩
    | true =>
      refine ⟨rfl, ?_⟩
      rintro _ ⟨⟩
      exact h.append trivial
  | rename id newName =>
    have hknown : (d.world doubles casts).known id = d.known id := rfl
    simp only [stepText, step, hknown]
    cases d.known id && !isBlank newName with
    | false => exact ⟨rfl, fun d' hd => by cases hd⟩
    | true =>
      refine ⟨rfl, ?_⟩
      rintro _ ⟨⟩
      exact h.append trivial
  | refresh id =>
    have hsubs : (d.world doubles casts).subs = all doubles casts d.raw := rfl
    simp only [stepText, step, hsubs]
    cases (all doubles casts d.raw).find? (·.id == id) with
    | none => exact ⟨rfl, fun d' hd => by cases hd⟩
    | some sub =>
      refine ⟨rfl, ?_⟩
      rintro _ ⟨⟩
      exact h.append trivial
  | run i fetched activeUuid now =>
    have hjobs : (d.world doubles casts).jobs = d.jobs := rfl
    simp only [stepText, step, hjobs]
    cases hi : d.jobs[i]? with
    | none => exact ⟨rfl, fun d' hd => by cases hd⟩
    | some job => exact accessText_world newUuid doubles casts h hi hl

/-- **Every run over the text is a run over the list**, and is possible where that one is, whatever the
    text at the start. -/
theorem text_refines_list {d : Disk} (hjobs : d.jobs = []) {ls : List Label}
    (hls : ∀ l ∈ ls, l.Bounded) :
    (Machine.exec (stepText newUuid doubles casts hostOf) d ls).map (Disk.world doubles casts)
      = Machine.exec (step newUuid doubles hostOf) (d.world doubles casts) ls := by
  have hsound : d.Sound := fun job hm => absurd (hjobs ▸ hm) List.not_mem_nil
  exact Machine.exec_map (fun s l hs hl => stepText_world newUuid doubles casts hostOf hs hl) hsound hls

end Refinement

/-- The casts of the samples, whose texts have no floating point number. -/
def sampleCasts : Casts where
  toLong _ := none
  toInt _ := none
  long _ _ h := by cases h
  int _ _ h := by cases h

/-- A text with one entry, written by hand: members in another order, and some that are missing. -/
def sampleDisk : Disk where
  store := sampleState.store
  raw := some "[ \x7b\"url\": 'https://h/sub', name = home; id => home\x7d ]"
  jobs := []
  first := [sampleSub]
  log := []

/-- The machine of the samples. -/
def sampleStepText : Disk → Label → Option Disk := stepText sampleUuid (fun _ => none) sampleCasts fun _ => "h"

theorem bounded_quietRun : ∀ l ∈ quietRun, l.Bounded := by
  have hlinks : parseLinks "trojan://p@h:2#b" = ["trojan://p@h:2#b"] := by decide +kernel
  have hgo : ∀ i, (go i).Bounded := by
    refine fun i => ⟨by decide, fun body hbody => ?_⟩
    cases hbody
    rw [hlinks]
    decide
  intro l hl
  simp only [quietRun, List.mem_cons, List.not_mem_nil, or_false] at hl
  rcases hl with rfl | rfl | rfl | rfl | rfl | rfl | rfl | rfl
  · trivial
  · trivial
  all_goals exact hgo _

theorem isSome_quietRun : (Machine.exec sampleStepText sampleDisk quietRun).isSome := by decide +kernel

theorem text_refines_list_quietRun :
    (Machine.exec sampleStepText sampleDisk quietRun).isSome ∧
    (Machine.exec sampleStepText sampleDisk quietRun).map (Disk.world (fun _ => none) sampleCasts)
      = Machine.exec sampleStep (sampleDisk.world (fun _ => none) sampleCasts) quietRun :=
  ⟨isSome_quietRun,
    text_refines_list sampleUuid (fun _ => none) sampleCasts (fun _ => "h") rfl bounded_quietRun⟩

/-! ## 6. What is in the list -/

/-- An entry that `add` makes: its URL is trimmed and has one of the two schemes, its name is not blank. -/
structure Proper (s : Subscription) : Prop where
  scheme : startsWithIgnoreCase s.url "http://" = true ∨ startsWithIgnoreCase s.url "https://" = true
  trimmed : trim s.url = s.url
  named : isBlank s.name = false

/-- A list of such entries, no two of one id, all of which are known. -/
structure Listed (known : String → Bool) (list : List Subscription) : Prop where
  distinct : (ids list).Nodup
  known : ∀ id ∈ ids list, known id = true
  proper : ∀ s ∈ list, Proper s

/-- The list that a job has read and is about to write back. -/
def Job.listRead : Job → Option (List Subscription)
  | .addWrite _ read | .removeWrite _ read | .renameWrite _ _ read | .countWrite _ _ read => some read
  | _ => none

/-- The entry that a job adds. -/
def Job.entry : Job → Option Subscription
  | .add sub | .addWrite sub _ => some sub
  | _ => none

/-- The name that a job gives. -/
def Job.newName : Job → Option String
  | .rename _ newName | .renameWrite _ newName _ => some newName
  | _ => none

/-- What a job has read and is to write is in order. -/
structure Job.InOrder (known : String → Bool) (job : Job) : Prop where
  listRead : ∀ read ∈ job.listRead, Listed known read
  entry : ∀ sub ∈ job.entry, Proper sub
  newName : ∀ name ∈ job.newName, isBlank name = false

/-- The invariant of all runs: the list is in order, and so is what the jobs have read and are to
    write. -/
structure InOrder (w : World) : Prop where
  list : Listed w.known w.subs
  each : ∀ job ∈ w.jobs, job.InOrder w.known
  jobs : JobsInv w.jobs w.known

section Lists

variable {known known' : String → Bool} {list : List Subscription}

theorem Listed.mono (h : Listed known list) (hknown : ∀ id, known id = true → known' id = true) :
    Listed known' list where
  distinct := h.distinct
  known id hid := hknown id (h.known id hid)
  proper := h.proper

/-- The new entry is not in a list that was read before it was written. -/
theorem Listed.concat (h : Listed known list) {sub : Subscription} (hnew : known sub.id = false)
    (hsub : Proper sub) : Listed (fun u => known u || sub.id == u) (list ++ [sub]) where
  distinct := by
    have hnot : sub.id ∉ ids list := fun hm => by
      rw [h.known sub.id hm] at hnew
      cases hnew
    unfold ids
    rw [List.map_append]
    refine h.distinct.append (List.nodup_singleton sub.id) fun id hid hid' => ?_
    rw [List.map_singleton, List.mem_singleton] at hid'
    exact hnot (hid' ▸ hid)
  known id hid := by
    unfold ids at hid
    rw [List.map_append, List.mem_append] at hid
    rcases hid with hid | hid
    · simp [h.known id hid]
    · simp [List.mem_singleton.1 hid]
  proper s hs := (List.mem_append.1 hs).elim (h.proper s) fun hm => List.mem_singleton.1 hm ▸ hsub

theorem Listed.filter (h : Listed known list) (id : String) : Listed known (list.filter (·.id ≠ id)) where
  distinct := h.distinct.sublist (List.Sublist.map _ List.filter_sublist)
  known u hu := h.known u ((List.Sublist.map Subscription.id List.filter_sublist).subset hu)
  proper s hs := h.proper s (List.mem_of_mem_filter hs)

/-- Entries that are rewritten one by one and keep their ids. -/
theorem Listed.map (h : Listed known list) {g : Subscription → Subscription} (hids : ids (list.map g) = ids list)
    (hg : ∀ s, Proper s → Proper (g s)) : Listed known (list.map g) where
  distinct := by
    rw [hids]
    exact h.distinct
  known id hid := h.known id (hids ▸ hid)
  proper s hs := by
    obtain ⟨e, he, rfl⟩ := List.mem_map.1 hs
    exact hg e (h.proper e he)

theorem Listed.renamed (h : Listed known list) (id : String) {newName : String}
    (hname : isBlank newName = false) : Listed known (renamed id newName list) := by
  refine h.map (ids_renamed id newName list) fun s hs => ?_
  split
  · exact ⟨hs.scheme, hs.trimmed, by rw [XraySettingsScreen.isBlank_trim, hname]⟩
  · exact hs

theorem Listed.counted (h : Listed known list) (id : String) (now imported : Int) :
    Listed known (counted id now imported list) := by
  refine h.map (ids_counted id now imported list) fun s hs => ?_
  split
  · exact ⟨hs.scheme, hs.trimmed, hs.named⟩
  · exact hs

theorem Job.InOrder.mono {job : Job} (h : job.InOrder known) (hknown : ∀ id, known id = true → known' id = true) :
    job.InOrder known' where
  listRead read hread := (h.listRead read hread).mono hknown
  entry := h.entry
  newName := h.newName

/-- A job that has read nothing and writes nothing new. -/
theorem Job.inOrder_of_none {job : Job} (hread : job.listRead = none) (hentry : job.entry = none)
    (hname : job.newName = none) : job.InOrder known where
  listRead read h := by rw [hread] at h; cases h
  entry sub h := by rw [hentry] at h; cases h
  newName name h := by rw [hname] at h; cases h

end Lists

section Always

variable {newUuid : Nat → Uuid} {doubles : Doubles} {hostOf : String → String} {w w' : World}

theorem InOrder.of_known {known : String → Bool} (hk : w.known = known) (hlist : Listed known w.subs)
    (heach : ∀ job ∈ w.jobs, job.InOrder known) (hjobs : JobsInv w.jobs known) : InOrder w := by
  subst hk
  exact ⟨hlist, heach, hjobs⟩

/-- The jobs, after one of them went on. -/
theorem InOrder.each_set (h : InOrder w) (i : Nat) {next : Job} (hnext : next.InOrder w.known) :
    ∀ job ∈ w.jobs.set i next, job.InOrder w.known := fun job hm =>
  (List.mem_or_eq_of_mem_set hm).elim (h.each job) fun he => he ▸ hnext

/-- A job that goes on without writing. -/
theorem InOrder.at (h : InOrder w) {i : Nat} {job : Job} (hi : w.jobs[i]? = some job) {next : Job}
    (hnext : next.InOrder w.known) (hadd : ∀ id, next.adding = some id → job.adding = some id)
    (habout : ∀ id, next.about = some id → job.about = some id) : InOrder (w.at i next) where
  list := h.list
  each := h.each_set i hnext
  jobs := h.jobs.set hi next hadd habout

/-- **One access of one job**, whatever was written since it read the list. -/
theorem inOrder_access (h : InOrder w) {i : Nat} {job : Job} (hi : w.jobs[i]? = some job)
    {fetched : Option String} {activeUuid : Option Uuid} {now : Int}
    (hs : access newUuid doubles w i fetched activeUuid now job = some w') : InOrder w' := by
  have hmem := List.mem_of_getElem? hi
  have hjob := h.each job hmem
  have hnone : ∀ {next : Job}, next.adding = none → ∀ id, next.adding = some id → job.adding = some id :=
    fun hn id he => by rw [hn] at he; cases he
  have hnone' : ∀ {next : Job}, next.about = none → ∀ id, next.about = some id → job.about = some id :=
    fun hn id he => by rw [hn] at he; cases he
  cases job with
  | add sub =>
    cases hs
    refine h.at hi ⟨?_, hjob.entry, hjob.newName⟩ (fun _ e => e) (fun _ e => e)
    rintro _ ⟨⟩
    exact h.list
  | addWrite sub read =>
    cases hs
    have hnew := h.jobs.new _ hmem sub.id rfl
    have hsub := hjob.entry sub rfl
    refine .of_known (known_of_log w (.added sub.id sub.name) rfl rfl)
      ((hjob.listRead read rfl).concat hnew hsub) (fun j hj => ?_) (h.jobs.set_done hi rfl)
    have hdone : Job.InOrder w.known .done := Job.inOrder_of_none rfl rfl rfl
    exact (h.each_set i hdone j hj).mono fun id hid => by rw [hid, Bool.true_or]
  | remove id =>
    cases hs
    refine h.at hi ⟨?_, hjob.entry, hjob.newName⟩ (fun _ e => e) (fun _ e => e)
    rintro _ ⟨⟩
    exact h.list
  | removeWrite id read =>
    cases hs
    exact .of_known (known_of_log_eq w (.removed id) rfl rfl fun _ => rfl) ((hjob.listRead read rfl).filter id)
      (h.each_set i (Job.inOrder_of_none rfl rfl rfl)) (h.jobs.set hi _ (hnone rfl) (hnone' rfl))
  | removeSweep id =>
    cases hs
    exact ⟨h.list, h.each_set i (Job.inOrder_of_none rfl rfl rfl),
      h.jobs.set hi _ (hnone rfl) (hnone' rfl)⟩
  | rename id newName =>
    cases hs
    refine h.at hi ⟨?_, hjob.entry, hjob.newName⟩ (fun _ e => e) (fun _ e => e)
    rintro _ ⟨⟩
    exact h.list
  | renameWrite id newName read =>
    cases hs
    exact .of_known (known_of_log_eq w (.renamed id (trim newName)) rfl rfl fun _ => rfl)
      ((hjob.listRead read rfl).renamed id (hjob.newName newName rfl))
      (h.each_set i (Job.inOrder_of_none rfl rfl rfl)) (h.jobs.set hi _ (hnone rfl) (hnone' rfl))
  | fetch sub =>
    cases fetched with
    | none =>
      cases hs
      exact h.at hi (Job.inOrder_of_none rfl rfl rfl) (hnone rfl) (hnone' rfl)
    | some body =>
      cases hs
      split
      · exact h.at hi (Job.inOrder_of_none rfl rfl rfl) (hnone rfl) (hnone' rfl)
      · exact h.at hi (Job.inOrder_of_none rfl rfl rfl) (hnone rfl) (hnone' rfl)
  | replace sub links =>
    cases hs
    exact ⟨h.list, h.each_set i (Job.inOrder_of_none rfl rfl rfl),
      h.jobs.set hi _ (hnone rfl) (hnone' rfl)⟩
  | count sub imported =>
    cases hs
    refine h.at hi ⟨?_, hjob.entry, hjob.newName⟩ (hnone rfl) (hnone' rfl)
    rintro _ ⟨⟩
    exact h.list
  | countWrite sub imported read =>
    cases hs
    exact ⟨(hjob.listRead read rfl).counted sub.id now imported, h.each_set i (Job.inOrder_of_none rfl rfl rfl),
      h.jobs.set hi _ (hnone rfl) (hnone' rfl)⟩
  | done => cases hs

/-- A job that starts. -/
theorem InOrder.append (h : InOrder w) {job : Job} (hjob : job.InOrder w.known)
    (hadd : ∀ id, job.adding = some id → w.isNew id = true)
    (habout : ∀ id, job.about = some id → w.known id = true) :
    InOrder { w with jobs := w.jobs ++ [job] } where
  list := h.list
  each j hj := (List.mem_append.1 hj).elim (h.each j) fun hm => List.mem_singleton.1 hm ▸ hjob
  jobs := by
    refine h.jobs.append (fun id hid => ?_) habout
    have hnew := hadd id hid
    rw [World.isNew, Bool.and_eq_true, Bool.not_eq_true', List.all_eq_true] at hnew
    exact ⟨hnew.1, fun j hj => by simpa using hnew.2 j hj⟩

/-- What `add` makes of its arguments. -/
theorem proper_newSubscription (hhost : ∀ url, isBlank (hostOf url) = false) {id name url : String}
    {sub : Subscription} (h : newSubscription hostOf id name url = some sub) : sub.id = id ∧ Proper sub := by
  unfold newSubscription at h
  dsimp only at h
  split at h
  · cases h
  · rename_i hscheme
    cases h
    refine ⟨rfl, ?_, XrayShareLink.trim_trim url, ?_⟩
    · dsimp only
      simp only [Bool.and_eq_true, Bool.not_eq_true', not_and, Bool.not_eq_false] at hscheme
      exact Decidable.or_iff_not_imp_left.2 fun hhttp => hscheme (by simpa using hhttp)
    · dsimp only
      unfold ifBlank
      split
      · exact hhost (trim url)
      · rename_i hname
        simpa using hname

/-- **Every step keeps the list in order.** -/
theorem inOrder_step (hhost : ∀ url, isBlank (hostOf url) = false) (h : InOrder w) {l : Label}
    (hs : step newUuid doubles hostOf w l = some w') : InOrder w' := by
  cases l with
  | add id name url =>
    simp only [step] at hs
    split at hs
    · rename_i sub hsub
      split at hs
      · rename_i hnew
        cases hs
        obtain ⟨hid, hproper⟩ := proper_newSubscription hhost hsub
        refine h.append ⟨?_, ?_, ?_⟩ ?_ ?_
        · rintro _ ⟨⟩
        · rintro _ ⟨⟩
          exact hproper
        · rintro _ ⟨⟩
        · rintro _ ⟨⟩
          rwa [hid]
        · rintro _ ⟨⟩
      · cases hs
    · cases hs
  | remove id =>
    simp only [step] at hs
    split at hs
    · rename_i hk
      cases hs
      refine h.append (Job.inOrder_of_none rfl rfl rfl) ?_ ?_
      · rintro _ ⟨⟩
      · rintro _ ⟨⟩
        exact hk
    · cases hs
  | rename id newName =>
    simp only [step] at hs
    split at hs
    · rename_i hk
      rw [Bool.and_eq_true, Bool.not_eq_true'] at hk
      cases hs
      refine h.append ⟨?_, ?_, ?_⟩ ?_ ?_
      · rintro _ ⟨⟩
      · rintro _ ⟨⟩
      · rintro _ ⟨⟩
        exact hk.2
      · rintro _ ⟨⟩
      · rintro _ ⟨⟩
        exact hk.1
    · cases hs
  | refresh id =>
    simp only [step] at hs
    split at hs
    · cases hs
      refine h.append (Job.inOrder_of_none rfl rfl rfl) ?_ ?_
      · rintro _ ⟨⟩
      · rintro _ ⟨⟩
    · cases hs
  | run i fetched activeUuid now =>
    simp only [step] at hs
    split at hs
    · rename_i job hi
      exact inOrder_access h hi hs
    · cases hs

end Always

/-- Before anything was started: the text that is there was written by runs like these, or there is none. -/
structure Disk.Started (doubles : Doubles) (casts : Casts) (d : Disk) : Prop where
  jobs : d.jobs = []
  first : d.first = all doubles casts d.raw
  distinct : (ids (all doubles casts d.raw)).Nodup
  proper : ∀ s ∈ all doubles casts d.raw, Proper s

theorem Disk.Started.inOrder {doubles : Doubles} {casts : Casts} {d : Disk} (h : d.Started doubles casts) :
    InOrder (d.world doubles casts) where
  list := by
    refine ⟨h.distinct, fun id hid => ?_, h.proper⟩
    have hfirst : id ∈ ids d.first := by
      rw [h.first]
      exact hid
    simp [World.known, Disk.world, hfirst]
  each job hm := by
    have hnil : (d.world doubles casts).jobs = [] := h.jobs
    rw [hnil] at hm
    cases hm
  jobs := by
    have hnil : (d.world doubles casts).jobs = [] := h.jobs
    rw [hnil]
    refine ⟨fun i j a b id ha => by simp at ha, fun job hm => absurd hm List.not_mem_nil,
      fun job hm => absurd hm List.not_mem_nil⟩

/-- **In every run, also where the jobs overwrite each other, the text reads back as a list in which no id
    is twice and every entry was added**: each has a trimmed URL of one of the two schemes, and a name. -/
theorem text_in_order (newUuid : Nat → Uuid) (doubles : Doubles) (casts : Casts) {hostOf : String → String}
    (hhost : ∀ url, isBlank (hostOf url) = false) {d d' : Disk} (hd : d.Started doubles casts)
    {ls : List Label} (hls : ∀ l ∈ ls, l.Bounded)
    (hrun : Machine.exec (stepText newUuid doubles casts hostOf) d ls = some d') :
    (ids (all doubles casts d'.raw)).Nodup ∧
      (∀ id ∈ ids (all doubles casts d'.raw), d'.known id = true) ∧
      ∀ s ∈ all doubles casts d'.raw, Proper s := by
  have hworld : Machine.exec (step newUuid doubles hostOf) (d.world doubles casts) ls
      = some (d'.world doubles casts) := by
    have hsound : d.Sound := fun job hm => absurd (hd.jobs ▸ hm) List.not_mem_nil
    rw [← Machine.exec_map (fun s l hs hl => stepText_world newUuid doubles casts hostOf hs hl) hsound hls, hrun]
    rfl
  have hinv : InOrder (d'.world doubles casts) :=
    Machine.exec_inv' (fun w l w' hI hs => inOrder_step hhost hI hs) hd.inOrder hworld
  exact ⟨hinv.list.distinct, hinv.list.known, hinv.list.proper⟩

theorem started_sampleDisk : sampleDisk.Started (fun _ => none) sampleCasts where
  jobs := rfl
  first := by decide +kernel
  distinct := by decide +kernel
  proper := by
    have hall : all (fun _ => none) sampleCasts sampleDisk.raw = [sampleSub] := by decide +kernel
    rw [hall]
    intro s hs
    rw [List.mem_singleton.1 hs]
    exact ⟨.inr (by decide +kernel), by decide +kernel, by decide +kernel⟩

theorem text_in_order_quietRun :
    ∃ d, Machine.exec sampleStepText sampleDisk quietRun = some d ∧
      (ids (all (fun _ => none) sampleCasts d.raw)).Nodup ∧
      (∀ id ∈ ids (all (fun _ => none) sampleCasts d.raw), d.known id = true) ∧
      ∀ s ∈ all (fun _ => none) sampleCasts d.raw, Proper s := by
  obtain ⟨d, hd⟩ := Option.isSome_iff_exists.1 isSome_quietRun
  have hhost : isBlank "h" = false := by decide +kernel
  exact ⟨d, hd, text_in_order sampleUuid (fun _ => none) sampleCasts (fun _ => hhost) started_sampleDisk
    bounded_quietRun hd⟩

end XraySubscriptionStore

end SwiftVpn
