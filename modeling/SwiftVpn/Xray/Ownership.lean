/-
  File:      SwiftVpn/Xray/Ownership.lean
  Subject:   SUBSCRIPTIONS UNDER INTERLEAVING.

  `add`, `remove`, `rename` and `refresh` run on threads of their own and share the profiles and the
  list of subscriptions, which each of them reads and writes back as a whole, without a lock. A job
  stands before its next access; a step of the world starts a job or takes one access of one job.

  * `step` -- the accesses: reading the list, writing it back, deleting the profiles of a subscription,
    replacing them;
  * `World.log` -- what was added, removed and renamed so far, in the order of the writes;
  * `Undisturbed` -- the condition on a step: the list is written back only if it still is what the job
    has read, and the profiles of a subscription are replaced only while it is in the list, or while
    its removal has yet to delete its profiles;
  * `ownership_at_rest` -- along it, whenever all jobs are done every owner is in the list, the list has
    what was added and not removed, and every entry has its last name;
  * `removed_while_fetching` -- a subscription that is removed during the fetch gets its profiles all
    the same.
-/
import SwiftVpn.Lib.Machine
import SwiftVpn.Xray.Store

namespace SwiftVpn

namespace XraySubscriptionStore

open XrayShareLink

/-! ## 1. Jobs -/

/-- Where an operation stands: before reading the list, before writing back what it read, or before
    its access to the profiles. -/
inductive Job where
  | add (sub : Subscription)
  | addWrite (sub : Subscription) (read : List Subscription)
  | remove (id : String)
  | removeWrite (id : String) (read : List Subscription)
  | removeSweep (id : String)
  | rename (id newName : String)
  | renameWrite (id newName : String) (read : List Subscription)
  | fetch (sub : Subscription)
  | replace (sub : Subscription) (links : List String)
  | count (sub : Subscription) (imported : Nat)
  | countWrite (sub : Subscription) (imported : Nat) (read : List Subscription)
  | done
  deriving DecidableEq, Repr

/-- A change of the list that was written. -/
inductive Change where
  | added (id name : String)
  | removed (id : String)
  | renamed (id name : String)
  deriving DecidableEq, Repr

/-- The profiles, the list, the jobs, and two records that nothing reads: the list at the start and the
    changes since. -/
structure World where
  store : XrayStore
  subs : List Subscription
  jobs : List Job
  first : List Subscription
  log : List Change

/-- What the user starts, and the next access of the job `i`: the body it gets, the profile in use and
    the time at that moment. -/
inductive Label where
  | add (id name url : String)
  | remove (id : String)
  | rename (id newName : String)
  | refresh (id : String)
  | run (i : Nat) (fetched : Option String) (activeUuid : Option Uuid) (now : Int)
  deriving DecidableEq, Repr

/-- The ids of a list. -/
def ids (list : List Subscription) : List String := list.map (·.id)

/-- The id of an entry that is still to be added. -/
def Job.adding : Job → Option String
  | .add sub => some sub.id
  | .addWrite sub _ => some sub.id
  | _ => none

/-- The id of an entry that is to be removed or renamed. -/
def Job.about : Job → Option String
  | .remove id => some id
  | .removeWrite id _ => some id
  | .rename id _ => some id
  | .renameWrite id _ _ => some id
  | _ => none

/-- The change adds the id. -/
def Change.adds (id : String) : Change → Bool
  | .added i _ => i == id
  | _ => false

/-- The id was in the list at the start, or was added since: what the screens can name. -/
def World.known (w : World) (id : String) : Bool := (ids w.first).contains id || w.log.any (·.adds id)

/-- A new id: not known, and not about to be added. -/
def World.isNew (w : World) (id : String) : Bool :=
  !w.known id && w.jobs.all fun j => j.adding != some id

/-! ## 2. Steps -/

section Step

variable (newUuid : Nat → Uuid) (doubles : Doubles) (hostOf : String → String)

/-- What `add` makes of its arguments; `hostOf` is the host of a URL, or `subscription`. -/
def newSubscription (id name url : String) : Option Subscription :=
  let trimmed := trim url
  if !startsWithIgnoreCase trimmed "http://" && !startsWithIgnoreCase trimmed "https://" then none
  else some { id := id, name := ifBlank (trim name) (hostOf trimmed), url := trimmed }

/-- The list with a subscription renamed. -/
def renamed (id newName : String) (list : List Subscription) : List Subscription :=
  list.map fun s => if s.id = id then { s with name := trim newName } else s

/-- The job `i` stands at `job`. -/
def World.at (w : World) (i : Nat) (job : Job) : World := { w with jobs := w.jobs.set i job }

/-- The next access of the job `i`. -/
def access (w : World) (i : Nat) (fetched : Option String) (activeUuid : Option Uuid) (now : Int) :
    Job → Option World
  | .add sub => some (w.at i (.addWrite sub w.subs))
  | .addWrite sub read =>
    some { w.at i .done with subs := read ++ [sub], log := w.log ++ [.added sub.id sub.name] }
  | .remove id => some (w.at i (.removeWrite id w.subs))
  | .removeWrite id read =>
    some { w.at i (.removeSweep id) with
           subs := read.filter (·.id ≠ id), log := w.log ++ [.removed id] }
  | .removeSweep id =>
    some { w.at i .done with store := w.store.deleteBySubscription id activeUuid }
  | .rename id newName => some (w.at i (.renameWrite id newName w.subs))
  | .renameWrite id newName read =>
    some { w.at i .done with
           subs := renamed id newName read, log := w.log ++ [.renamed id (trim newName)] }
  | .fetch sub =>
    match fetched with
    | none => some (w.at i .done)
    | some body =>
      let links := parseLinks body
      some (w.at i (if links.isEmpty then .done else .replace sub links))
  | .replace sub links =>
    let (store, imported) := replaceProfiles newUuid doubles w.store sub.id activeUuid links
    some { w.at i (.count sub imported) with store := store }
  | .count sub imported => some (w.at i (.countWrite sub imported w.subs))
  | .countWrite sub imported read =>
    some { w.at i .done with subs := counted sub.id now imported read }
  | .done => none

/-- One step. A new id differs from every other; the screens name what they were shown; a blank name
    renames nothing; a refresh starts from an entry of the list. -/
def step (w : World) : Label → Option World
  | .add id name url =>
    match newSubscription hostOf id name url with
    | some sub => if w.isNew id then some { w with jobs := w.jobs ++ [.add sub] } else none
    | none => none
  | .remove id => if w.known id then some { w with jobs := w.jobs ++ [.remove id] } else none
  | .rename id newName =>
    if w.known id && !isBlank newName then
      some { w with jobs := w.jobs ++ [.rename id newName] }
    else none
  | .refresh id =>
    match w.subs.find? (·.id == id) with
    | some sub => some { w with jobs := w.jobs ++ [.fetch sub] }
    | none => none
  | .run i fetched activeUuid now =>
    match w.jobs[i]? with
    | some job => access newUuid doubles w i fetched activeUuid now job
    | none => none

end Step

/-- The condition on the next access of a job. -/
def Job.undisturbed (w : World) : Job → Prop
  | .addWrite _ read => read = w.subs
  | .removeWrite _ read => read = w.subs
  | .renameWrite _ _ read => read = w.subs
  | .countWrite _ _ read => read = w.subs
  | .replace sub _ => sub.id ∈ ids w.subs ∨ Job.removeSweep sub.id ∈ w.jobs
  | _ => True

instance (w : World) : (job : Job) → Decidable (job.undisturbed w)
  | .addWrite _ read => inferInstanceAs (Decidable (read = w.subs))
  | .removeWrite _ read => inferInstanceAs (Decidable (read = w.subs))
  | .renameWrite _ _ read => inferInstanceAs (Decidable (read = w.subs))
  | .countWrite _ _ read => inferInstanceAs (Decidable (read = w.subs))
  | .replace _ _ => inferInstanceAs (Decidable (_ ∨ _))
  | .add _ | .remove _ | .removeSweep _ | .rename _ _ | .fetch _ | .count _ _ | .done => isTrue trivial

/-- The condition on a step. -/
def Undisturbed (w : World) : Label → Prop
  | .run i _ _ _ => ∀ job ∈ w.jobs[i]?, job.undisturbed w
  | _ => True

instance (w : World) : (l : Label) → Decidable (Undisturbed w l)
  | .run i _ _ _ => inferInstanceAs (Decidable (∀ job ∈ w.jobs[i]?, job.undisturbed w))
  | .add _ _ _ | .remove _ | .rename _ _ | .refresh _ => isTrue trivial

/-! ## 3. At rest -/

/-- The name that a change gives to the id. -/
def Change.names (id : String) : Change → Option String
  | .added i name => if i = id then some name else none
  | .renamed i name => if i = id then some name else none
  | .removed _ => none

/-- The last name that the changes gave to the id. -/
def lastName (log : List Change) (id : String) : Option String :=
  (log.filterMap (·.names id)).getLast?

/-- What is to hold whenever no job is under way. -/
structure AtRest (w : World) : Prop where
  owner : ∀ f ∈ w.store.files, ∀ id, w.store.subs f.uuid = some id → id ∈ ids w.subs
  kept : ∀ id, id ∈ ids w.subs ↔ w.known id = true ∧ Change.removed id ∉ w.log
  named : ∀ s ∈ w.subs, match lastName w.log s.id with
    | some name => s.name = name
    | none => ∃ e ∈ w.first, e.id = s.id ∧ e.name = s.name

/-! ## 4. The invariant -/

/-- What the jobs under way have in common: no two of them add the same id, the ids they add are new,
    the ids they remove or rename are known. -/
structure JobsInv (jobs : List Job) (known : String → Bool) : Prop where
  once : ∀ (i j : Nat) (job job' : Job) (id : String), jobs[i]? = some job → jobs[j]? = some job' →
    job.adding = some id → job'.adding = some id → i = j
  new : ∀ job ∈ jobs, ∀ id, job.adding = some id → known id = false
  about : ∀ job ∈ jobs, ∀ id, job.about = some id → known id = true

/-- What the list has in common with the changes. -/
structure ListInv (first subs : List Subscription) (log : List Change) (known : String → Bool) :
    Prop where
  kept : ∀ id, id ∈ ids subs ↔ known id = true ∧ Change.removed id ∉ log
  named : ∀ s ∈ subs, match lastName log s.id with
    | some name => s.name = name
    | none => ∃ e ∈ first, e.id = s.id ∧ e.name = s.name
  logged : ∀ id, Change.removed id ∈ log → known id = true

/-- Every owner is in the list, or its profiles are still to be deleted. -/
def Owners (store : XrayStore) (subs : List Subscription) (jobs : List Job) : Prop :=
  ∀ f ∈ store.files, ∀ id, store.subs f.uuid = some id → id ∈ ids subs ∨ Job.removeSweep id ∈ jobs

/-- The invariant of the undisturbed runs. -/
structure Inv (w : World) : Prop where
  owners : Owners w.store w.subs w.jobs
  list : ListInv w.first w.subs w.log w.known
  jobs : JobsInv w.jobs w.known

section Jobs

variable {jobs : List Job} {known : String → Bool}

/-- A job that starts. -/
theorem JobsInv.append (h : JobsInv jobs known) {job : Job}
    (hadd : ∀ id, job.adding = some id →
      known id = false ∧ ∀ j ∈ jobs, j.adding ≠ some id)
    (habout : ∀ id, job.about = some id → known id = true) : JobsInv (jobs ++ [job]) known where
  once i j a b id ha hb hai hbi := by
    rcases Machine.get_concat ha with ha' | ⟨hi, ea⟩ <;>
      rcases Machine.get_concat hb with hb' | ⟨hj, eb⟩
    · exact h.once i j a b id ha' hb' hai hbi
    · exact absurd hai ((hadd id (eb ▸ hbi)).2 a (List.mem_of_getElem? ha'))
    · exact absurd hbi ((hadd id (ea ▸ hai)).2 b (List.mem_of_getElem? hb'))
    · rw [hi, hj]
  new a ha id hai := by
    rcases List.mem_append.1 ha with ha | ha
    · exact h.new a ha id hai
    · rw [List.mem_singleton] at ha
      subst ha
      exact (hadd id hai).1
  about a ha id hai := by
    rcases List.mem_append.1 ha with ha | ha
    · exact h.about a ha id hai
    · rw [List.mem_singleton] at ha
      subst ha
      exact habout id hai

/-- A job that goes on with the same id, or with none. -/
theorem JobsInv.set (h : JobsInv jobs known) {i : Nat} {job : Job} (hi : jobs[i]? = some job)
    (next : Job) (hadd : ∀ id, next.adding = some id → job.adding = some id)
    (habout : ∀ id, next.about = some id → job.about = some id) :
    JobsInv (jobs.set i next) known where
  once j k a b id ha hb hai hbi := by
    rcases Machine.get_set hi ha with ⟨hj, ea⟩ | ⟨-, ha'⟩ <;>
      rcases Machine.get_set hi hb with ⟨hk, eb⟩ | ⟨-, hb'⟩
    · rw [hj, hk]
    · rw [hj]
      exact h.once i k job b id hi hb' (hadd id (ea ▸ hai)) hbi
    · rw [hk]
      exact h.once j i a job id ha' hi hai (hadd id (eb ▸ hbi))
    · exact h.once j k a b id ha' hb' hai hbi
  new a ha id hai := by
    rcases List.mem_or_eq_of_mem_set ha with ha | rfl
    · exact h.new a ha id hai
    · exact h.new job (List.mem_of_getElem? hi) id (hadd id hai)
  about a ha id hai := by
    rcases List.mem_or_eq_of_mem_set ha with ha | rfl
    · exact h.about a ha id hai
    · exact h.about job (List.mem_of_getElem? hi) id (habout id hai)

/-- The id of a job that adds becomes known when it is done, and no other job adds it. -/
theorem JobsInv.set_done (h : JobsInv jobs known) {i : Nat} {job : Job} {id : String}
    (hi : jobs[i]? = some job) (hadd : job.adding = some id) :
    JobsInv (jobs.set i .done) (fun u => known u || id == u) where
  once := (h.set hi .done (fun _ hu => by cases hu) (fun _ hu => by cases hu)).once
  new a ha u hau := by
    obtain ⟨j, hj⟩ := List.getElem?_of_mem ha
    rcases Machine.get_set hi hj with ⟨-, rfl⟩ | ⟨hne, hj⟩
    · cases hau
    · have hid : u ≠ id := by
        rintro rfl
        exact hne (h.once j i a job u hj hi hau hadd)
      simp [h.new a (List.mem_of_getElem? hj) u hau, Ne.symm hid]
  about a ha u hau := by
    obtain ⟨j, hj⟩ := List.getElem?_of_mem ha
    rcases Machine.get_set hi hj with ⟨-, rfl⟩ | ⟨-, hj⟩
    · cases hau
    · simp [h.about a (List.mem_of_getElem? hj) u hau]

end Jobs

section Lists

variable {first subs : List Subscription} {log : List Change} {known : String → Bool}

theorem lastName_append (log : List Change) (c : Change) (id : String) :
    lastName (log ++ [c]) id = (c.names id).or (lastName log id) := by
  unfold lastName
  rw [List.filterMap_append]
  cases hc : c.names id with
  | none => simp [hc]
  | some name => simp [hc]

/-- An entry that is not the one of the change keeps its name. -/
theorem lastName_append_of_none {c : Change} {id : String} (h : c.names id = none) :
    lastName (log ++ [c]) id = lastName log id := by
  rw [lastName_append, h, Option.none_or]

theorem ListInv.add (h : ListInv first subs log known) {sub : Subscription}
    (hnew : known sub.id = false) :
    ListInv first (subs ++ [sub]) (log ++ [.added sub.id sub.name])
      (fun u => known u || sub.id == u) where
  kept u := by
    have hlog : Change.removed sub.id ∉ log := by
      intro hr
      rw [h.logged _ hr] at hnew
      cases hnew
    by_cases hu : sub.id = u
    · subst hu
      simp [ids, hlog]
    · simpa [ids, hu, Ne.symm hu] using h.kept u
  named s hs := by
    rcases List.mem_append.1 hs with hs | hs
    · have hid : sub.id ≠ s.id := by
        intro e
        have hk := ((h.kept s.id).1 (List.mem_map_of_mem hs)).1
        rw [← e, hnew] at hk
        cases hk
      rw [lastName_append_of_none (by simp [Change.names, hid])]
      exact h.named s hs
    · rw [List.mem_singleton] at hs
      subst hs
      rw [lastName_append]
      simp [Change.names]
  logged u hu := by
    have hu' : Change.removed u ∈ log := by simpa using hu
    simp [h.logged u hu']

theorem ListInv.remove (h : ListInv first subs log known) {id : String} (hk : known id = true) :
    ListInv first (subs.filter (·.id ≠ id)) (log ++ [.removed id]) known where
  kept u := by
    by_cases hu : u = id
    · subst hu
      simp [ids]
    · have := h.kept u
      simp only [ids, List.mem_map] at this
      simp only [ids, List.mem_map, List.mem_filter, decide_eq_true_eq, List.mem_append,
        List.mem_singleton, Change.removed.injEq, hu, or_false]
      rw [← this]
      constructor
      · rintro ⟨s, ⟨hs, -⟩, e⟩
        exact ⟨s, hs, e⟩
      · rintro ⟨s, hs, e⟩
        exact ⟨s, ⟨hs, e ▸ hu⟩, e⟩
  named s hs := by
    rw [lastName_append_of_none rfl]
    exact h.named s (List.mem_of_mem_filter hs)
  logged u hu := by
    rcases List.mem_append.1 hu with hu | hu
    · exact h.logged u hu
    · rw [List.mem_singleton, Change.removed.injEq] at hu
      rwa [hu]

/-- Entries that are rewritten one by one keep their ids. -/
theorem ids_map {g : Subscription → Subscription} (hg : ∀ s, (g s).id = s.id)
    (list : List Subscription) : ids (list.map g) = ids list := by
  simp [ids, hg]

theorem ids_renamed (id newName : String) (list : List Subscription) :
    ids (renamed id newName list) = ids list :=
  ids_map (fun s => by split <;> rfl) list

theorem ids_counted (id : String) (now imported : Int) (list : List Subscription) :
    ids (counted id now imported list) = ids list :=
  ids_map (fun s => by split <;> rfl) list

theorem ListInv.rename (h : ListInv first subs log known) (id newName : String) :
    ListInv first (renamed id newName subs) (log ++ [.renamed id (trim newName)]) known where
  kept u := by
    rw [ids_renamed, h.kept]
    simp
  named s hs := by
    obtain ⟨e, he, rfl⟩ := List.mem_map.1 hs
    by_cases hid : e.id = id
    · subst hid
      rw [if_pos rfl, lastName_append]
      simp [Change.names]
    · rw [if_neg hid, lastName_append_of_none (by simp [Change.names, Ne.symm hid])]
      exact h.named e he
  logged u hu := h.logged u (by simpa using hu)

theorem ListInv.count (h : ListInv first subs log known) (id : String) (now imported : Int) :
    ListInv first (counted id now imported subs) log known where
  kept u := by rw [ids_counted, h.kept]
  named s hs := by
    obtain ⟨e, he, rfl⟩ := List.mem_map.1 hs
    have hname := h.named e he
    by_cases hid : e.id = id
    · rw [if_pos hid]
      exact hname
    · rw [if_neg hid]
      exact hname
  logged := h.logged

end Lists

/-! ## 5. What a step preserves -/

section Owners

variable {store : XrayStore} {subs subs' : List Subscription} {jobs jobs' : List Job}

theorem Owners.mono (h : Owners store subs jobs) (hids : ∀ id ∈ ids subs, id ∈ ids subs')
    (hjobs : ∀ id, Job.removeSweep id ∈ jobs → Job.removeSweep id ∈ jobs') :
    Owners store subs' jobs' := fun f hf id ho =>
  (h f hf id ho).imp (hids id) (hjobs id)

/-- A job that goes on does not take away a deletion that is not its own. -/
theorem mem_set_of_ne {i : Nat} {job next : Job} (hi : jobs[i]? = some job) {x : Job}
    (hx : x ∈ jobs) (hne : x ≠ job) : x ∈ jobs.set i next := by
  obtain ⟨j, hj⟩ := List.getElem?_of_mem hx
  have hij : i ≠ j := by
    rintro rfl
    exact hne (Option.some.inj (hj.symm.trans hi))
  exact List.mem_of_getElem? (i := j) (by rwa [List.getElem?_set_ne hij])

theorem Owners.set (h : Owners store subs jobs) {i : Nat} {job : Job} (hi : jobs[i]? = some job)
    (next : Job) (hids : ∀ id ∈ ids subs, id ∈ ids subs') (hne : ∀ id, Job.removeSweep id ≠ job) :
    Owners store subs' (jobs.set i next) :=
  h.mono hids fun id hm => mem_set_of_ne hi hm (hne id)

/-- After the deletion nobody is owned by the subscription. -/
theorem Owners.sweep (h : Owners store subs jobs) {i : Nat} {id : String}
    (hi : jobs[i]? = some (.removeSweep id)) (activeUuid : Option Uuid) :
    Owners (store.deleteBySubscription id activeUuid) subs (jobs.set i .done) := by
  obtain ⟨dsubs, -, dfiles, -⟩ := XrayStore.deleteBySubscription_spec store id activeUuid
  intro f hf u ho
  have hfile := ((dfiles f).1 hf).1
  rw [dsubs] at ho
  split at ho
  · cases ho
  · rename_i hc
    have hid : u ≠ id := by
      rintro rfl
      exact hc ⟨List.mem_map_of_mem hfile, ho⟩
    refine (h f hfile u ho).imp_right fun hm => mem_set_of_ne hi hm ?_
    rintro ⟨⟩
    exact hid rfl

/-- The new profiles are owned by a subscription in the list, or one whose profiles go. -/
theorem Owners.replace (h : Owners store subs jobs) {i : Nat} {sub : Subscription}
    {links : List String} (hi : jobs[i]? = some (.replace sub links))
    (hsub : sub.id ∈ ids subs ∨ Job.removeSweep sub.id ∈ jobs) (newUuid : Nat → Uuid)
    (doubles : Doubles) (activeUuid : Option Uuid) (next : Job) :
    Owners (replaceProfiles newUuid doubles store sub.id activeUuid links).1 subs
      (jobs.set i next) := by
  obtain ⟨dsubs, -, dfiles, -⟩ := XrayStore.deleteBySubscription_spec store sub.id activeUuid
  obtain ⟨new, himp, -, -⟩ := XrayStore.importBatch_spec newUuid doubles sub.id
    (store.deleteBySubscription sub.id activeUuid) links
  have hkeep : ∀ u, u ∈ ids subs ∨ Job.removeSweep u ∈ jobs →
      u ∈ ids subs ∨ Job.removeSweep u ∈ jobs.set i next :=
    fun u hu => hu.imp_right fun hm => mem_set_of_ne hi hm nofun
  intro f hf u ho
  unfold replaceProfiles at hf ho
  rw [himp.files, List.mem_append] at hf
  rw [himp.subs] at ho
  split at ho
  · cases ho
    exact hkeep _ hsub
  · rename_i hold
    rcases hf with hf | hf
    · have hfile := ((dfiles f).1 hf).1
      rw [dsubs] at ho
      split at ho
      · cases ho
      · exact hkeep u (h f hfile u ho)
    · exact absurd (List.mem_map_of_mem hf) hold

end Owners

section Steps

variable {newUuid : Nat → Uuid} {doubles : Doubles} {hostOf : String → String} {w w' : World}

/-- A job that goes on without writing. -/
theorem Inv.at (h : Inv w) {i : Nat} {job : Job} (hi : w.jobs[i]? = some job) (next : Job)
    (hadd : ∀ id, next.adding = some id → job.adding = some id)
    (habout : ∀ id, next.about = some id → job.about = some id)
    (hne : ∀ id, Job.removeSweep id ≠ job) : Inv (w.at i next) where
  owners := h.owners.set hi next (fun _ hm => hm) hne
  list := h.list
  jobs := h.jobs.set hi next hadd habout

theorem known_of_log (w : World) (c : Change) (hf : w'.first = w.first) (hl : w'.log = w.log ++ [c]) :
    w'.known = fun u => w.known u || c.adds u := by
  funext u
  simp [World.known, hf, hl, Bool.or_assoc]

theorem known_of_log_eq (w : World) (c : Change) (hf : w'.first = w.first)
    (hl : w'.log = w.log ++ [c]) (hc : ∀ u, c.adds u = false) : w'.known = w.known := by
  rw [known_of_log w c hf hl]
  funext u
  rw [hc, Bool.or_false]

theorem Inv.of_known {known : String → Bool} (hk : w.known = known)
    (howners : Owners w.store w.subs w.jobs) (hlist : ListInv w.first w.subs w.log known)
    (hjobs : JobsInv w.jobs known) : Inv w := by
  subst hk
  exact ⟨howners, hlist, hjobs⟩

/-- **One access of one job.** -/
theorem inv_access (h : Inv w) {i : Nat} {job : Job} (hi : w.jobs[i]? = some job)
    (hC : job.undisturbed w) {fetched : Option String} {activeUuid : Option Uuid} {now : Int}
    (hs : access newUuid doubles w i fetched activeUuid now job = some w') : Inv w' := by
  have hmem := List.mem_of_getElem? hi
  cases job with
  | add sub =>
    cases hs
    exact h.at hi _ (fun _ e => e) (fun _ e => e) nofun
  | addWrite sub read =>
    cases hs
    cases hC
    have hnew := h.jobs.new _ hmem sub.id rfl
    refine .of_known (known_of_log w (.added sub.id sub.name) rfl rfl) (h.owners.set hi .done (fun id hm => ?_) nofun)
      (h.list.add hnew) (h.jobs.set_done hi rfl)
    simp only [ids, List.map_append, List.mem_append] at hm ⊢
    exact .inl hm
  | remove id =>
    cases hs
    exact h.at hi _ (fun _ e => e) (fun _ e => e) nofun
  | removeWrite id read =>
    cases hs
    cases hC
    have hk := h.jobs.about _ hmem id rfl
    refine .of_known (known_of_log_eq w (.removed id) rfl rfl fun _ => rfl) (fun f hf u ho => ?_) (h.list.remove hk)
      (h.jobs.set hi _ (fun _ e => by cases e) (fun _ e => by cases e))
    -- the profiles of the removed subscription are the ones still to be deleted
    by_cases hu : u = id
    · subst hu
      exact .inr (List.mem_set (List.getElem?_eq_some_iff.1 hi).1 _)
    · refine (h.owners f hf u ho).imp (fun hm => ?_) fun hm => mem_set_of_ne hi hm nofun
      obtain ⟨s, hs, rfl⟩ := List.mem_map.1 hm
      exact List.mem_map_of_mem (List.mem_filter.2 ⟨hs, by simpa using hu⟩)
  | removeSweep id =>
    cases hs
    exact ⟨h.owners.sweep hi activeUuid, h.list, h.jobs.set hi .done (fun _ e => by cases e)
      (fun _ e => by cases e)⟩
  | rename id newName =>
    cases hs
    exact h.at hi _ (fun _ e => e) (fun _ e => e) nofun
  | renameWrite id newName read =>
    cases hs
    cases hC
    refine .of_known (known_of_log_eq w (.renamed id (trim newName)) rfl rfl fun _ => rfl)
      (h.owners.set hi .done (fun u hm => ?_) nofun) (h.list.rename id newName)
      (h.jobs.set hi _ (fun _ e => by cases e) (fun _ e => by cases e))
    rwa [ids_renamed]
  | fetch sub =>
    cases fetched with
    | none =>
      cases hs
      exact h.at hi _ (fun _ e => e) (fun _ e => e) nofun
    | some body =>
      cases hs
      refine h.at hi _ (fun _ e => ?_) (fun _ e => ?_) nofun
      · split at e <;> exact e
      · split at e <;> exact e
  | replace sub links =>
    cases hs
    exact ⟨h.owners.replace hi hC newUuid doubles activeUuid _, h.list,
      h.jobs.set hi _ (fun _ e => by cases e) (fun _ e => by cases e)⟩
  | count sub imported =>
    cases hs
    exact h.at hi _ (fun _ e => e) (fun _ e => e) nofun
  | countWrite sub imported read =>
    cases hs
    cases hC
    refine ⟨h.owners.set hi .done (fun u hm => ?_) nofun, h.list.count sub.id now imported,
      h.jobs.set hi _ (fun _ e => by cases e) (fun _ e => by cases e)⟩
    rwa [ids_counted]
  | done => cases hs

/-- A job that starts. -/
theorem Inv.append (h : Inv w) {job : Job}
    (hadd : ∀ id, job.adding = some id → w.isNew id = true)
    (habout : ∀ id, job.about = some id → w.known id = true) :
    Inv { w with jobs := w.jobs ++ [job] } where
  owners := h.owners.mono (fun _ hm => hm) fun _ hm => List.mem_append_left _ hm
  list := h.list
  jobs := by
    refine h.jobs.append (fun id hid => ?_) habout
    have hnew := hadd id hid
    rw [World.isNew, Bool.and_eq_true, Bool.not_eq_true', List.all_eq_true] at hnew
    exact ⟨hnew.1, fun j hj => by simpa using hnew.2 j hj⟩

/-- **Every undisturbed step keeps the invariant.** -/
theorem inv_step (h : Inv w) {l : Label} (hC : Undisturbed w l)
    (hs : step newUuid doubles hostOf w l = some w') : Inv w' := by
  cases l with
  | add id name url =>
    simp only [step] at hs
    split at hs
    · rename_i sub hsub
      split at hs
      · rename_i hnew
        cases hs
        have hid : sub.id = id := by
          unfold newSubscription at hsub
          dsimp only at hsub
          split at hsub
          · cases hsub
          · cases hsub
            rfl
        refine h.append (fun u hu => ?_) (fun u hu => by cases hu)
        cases hu
        rwa [hid]
      · cases hs
    · cases hs
  | remove id =>
    simp only [step] at hs
    split at hs
    · rename_i hk
      cases hs
      refine h.append (fun u hu => by cases hu) (fun u hu => ?_)
      cases hu
      exact hk
    · cases hs
  | rename id newName =>
    simp only [step] at hs
    split at hs
    · rename_i hk
      cases hs
      refine h.append (fun u hu => by cases hu) (fun u hu => ?_)
      cases hu
      exact (Bool.and_eq_true _ _ ▸ hk).1
    · cases hs
  | refresh id =>
    simp only [step] at hs
    split at hs
    · cases hs
      exact h.append (fun u hu => by cases hu) (fun u hu => by cases hu)
    · cases hs
  | run i fetched activeUuid now =>
    simp only [step] at hs
    split at hs
    · rename_i job hi
      exact inv_access h hi (hC job hi) hs
    · cases hs

end Steps

/-! ## 6. Runs -/

/-- A world before anything was started: every owner is in the list. -/
structure Started (w : World) : Prop where
  jobs : w.jobs = []
  first : w.first = w.subs
  log : w.log = []
  owner : ∀ f ∈ w.store.files, ∀ id, w.store.subs f.uuid = some id → id ∈ ids w.subs

theorem Started.inv {w : World} (h : Started w) : Inv w where
  owners f hf id ho := .inl (h.owner f hf id ho)
  list :=
    { kept := fun id => by simp [World.known, h.first, h.log]
      named := fun s hs => by
        have hlast : lastName w.log s.id = none := by
          rw [h.log]
          rfl
        rw [hlast, h.first]
        exact ⟨s, hs, rfl, rfl⟩
      logged := fun id hid => by
        rw [h.log] at hid
        cases hid }
  jobs :=
    { once := fun i j a b id ha => by simp [h.jobs] at ha
      new := fun a ha => by simp [h.jobs] at ha
      about := fun a ha => by simp [h.jobs] at ha }

/-- **In every undisturbed run, whenever all jobs are done, the owners of the profiles are in the list,
    and the list has what was added and not removed, under its last names.** -/
theorem ownership_at_rest (newUuid : Nat → Uuid) (doubles : Doubles) (hostOf : String → String)
    {w w' : World} {ls : List Label} (hw : Started w)
    (hC : Machine.Along (step newUuid doubles hostOf) Undisturbed w ls)
    (hrun : Machine.exec (step newUuid doubles hostOf) w ls = some w')
    (hdone : ∀ job ∈ w'.jobs, job = .done) : AtRest w' := by
  have hinv : Inv w' := Machine.exec_inv (fun _ _ _ hI hl hs => inv_step hI hl hs) hw.inv hC hrun
  refine ⟨fun f hf id ho => ?_, hinv.list.kept, hinv.list.named⟩
  rcases hinv.owners f hf id ho with hm | hm
  · exact hm
  · cases hdone _ hm

/-- The world of the samples. -/
def sampleWorld : World where
  store := sampleState.store
  subs := sampleState.subs
  jobs := []
  first := sampleState.subs
  log := []

theorem started_sampleWorld : Started sampleWorld := by
  refine ⟨rfl, rfl, rfl, fun f hf id ho => ?_⟩
  have hf' : f.uuid = sampleUuid 0 := by
    have : f = ⟨sampleUuid 0, false, "trojan://p@h:1#a"⟩ := by simpa [sampleWorld, sampleState] using hf
    rw [this]
  have hid : id = "home" := by
    simpa [sampleWorld, sampleState, hf', eq_comm] using ho
  rw [hid]
  decide

/-- The machine of the samples. -/
def sampleStep : World → Label → Option World := step sampleUuid (fun _ => none) (fun _ => "h")

/-- The next access of a job, with this body if it fetches. -/
def go (i : Nat) : Label := .run i (some "trojan://p@h:2#b") none 7

/-- One refresh, and beside its fetch a new subscription. -/
def quietRun : List Label :=
  [.refresh "home", .add "work" "office" "https://w/sub", go 1, go 1, go 0, go 0, go 0, go 0]

theorem ownership_quietRun : Machine.Along sampleStep Undisturbed sampleWorld quietRun ∧
    ∃ w, Machine.exec sampleStep sampleWorld quietRun = some w ∧ AtRest w := by
  have halong : Machine.Along sampleStep Undisturbed sampleWorld quietRun := by decide +kernel
  have hsome : (Machine.exec sampleStep sampleWorld quietRun).isSome = true := by decide +kernel
  have hdone : (Machine.exec sampleStep sampleWorld quietRun).all
      (fun w => w.jobs.all (· == .done)) = true := by decide +kernel
  obtain ⟨w, hw⟩ := Option.isSome_iff_exists.1 hsome
  rw [hw, Option.all_some] at hdone
  refine ⟨halong, w, hw, ownership_at_rest sampleUuid (fun _ => none) (fun _ => "h")
    started_sampleWorld halong hw fun job hj => ?_⟩
  simpa using List.all_eq_true.1 hdone job hj

/-- A refresh during whose fetch its subscription is removed. -/
def removedRun : List Label :=
  [.refresh "home", .remove "home", go 1, go 1, go 1, go 0, go 0, go 0, go 0]

/-- A refresh between whose reading and writing of the list a subscription is added. -/
def lostRun : List Label :=
  [.refresh "home", go 0, go 0, go 0, .add "work" "office" "https://w/sub", go 1, go 1, go 0]

/-- A removed subscription gets profiles again, and an added one gets lost. -/
theorem removed_while_fetching :
    (∃ w, Machine.exec sampleStep sampleWorld removedRun = some w ∧
      (∀ job ∈ w.jobs, job = .done) ∧ ¬ AtRest w) ∧
    ∃ w, Machine.exec sampleStep sampleWorld lostRun = some w ∧
      (∀ job ∈ w.jobs, job = .done) ∧ ¬ AtRest w := by
  have hremoved : (Machine.exec sampleStep sampleWorld removedRun).any (fun w =>
      w.jobs.all (· == .done) && (w.store.files.any fun f => w.store.subs f.uuid == some "home") &&
        !(ids w.subs).contains "home") = true := by decide +kernel
  have hlost : (Machine.exec sampleStep sampleWorld lostRun).any (fun w =>
      w.jobs.all (· == .done) && w.known "work" && !w.log.contains (.removed "work") &&
        !(ids w.subs).contains "work") = true := by decide +kernel
  rw [Option.any_eq_true] at hremoved hlost
  obtain ⟨w, hw, hb⟩ := hremoved
  obtain ⟨w', hw', hb'⟩ := hlost
  simp only [Bool.and_eq_true, Bool.not_eq_true', List.all_eq_true, List.any_eq_true, beq_iff_eq,
    List.contains_eq_mem, decide_eq_false_iff_not] at hb hb'
  obtain ⟨⟨hdone, f, hf, ho⟩, hid⟩ := hb
  obtain ⟨⟨⟨hdone', hknown⟩, hlog⟩, hid'⟩ := hb'
  exact ⟨⟨w, hw, hdone, fun h => hid (h.owner f hf _ ho)⟩,
    w', hw', hdone', fun h => hid' ((h.kept "work").2 ⟨hknown, hlog⟩)⟩

end XraySubscriptionStore

end SwiftVpn
