/-
  File:      SwiftVpn/Router/Usage.lean
  Subject:   THE USAGE HISTORY (UsageHistoryStore.kt): a bucket a day, and the sums of three windows.

  * `dayKey`, `readDays`, `add`, `totals` -- the store, on the text it keeps for every profile;
  * `dayKey_lt` -- the order of the keys is the order of the days;
  * `History` -- what is kept after a run of `add`: a bucket for every day of a call that is at most
    400 days old, with the sums of that day;
  * `usage_exact` -- **the totals are the sums over the calls**, and at most 401 buckets are kept.

  `Long` sums wrap around (`toLong`). The clock of a call is its day; the time zone is left out.
-/
import Mathlib.Algebra.BigOperators.Group.List.Basic
import Mathlib.Data.List.Nodup
import Mathlib.Data.List.Perm.Subperm
import SwiftVpn.Lib.Calendar
import SwiftVpn.Lib.JsonLayout
import SwiftVpn.Models

namespace SwiftVpn

open Calendar

/-! ## 1. The store -/

/-- A `Long` sum. -/
def toLong (n : Int) : Int := n.bmod (2 ^ 64)

namespace UsageHistoryStore

/-- `KEEP_DAYS`. -/
def keepDays : Nat := 400

/-- `Calendar.SATURDAY`. -/
def saturday : Nat := 7

structure Totals where
  dayIn : Int
  dayOut : Int
  weekIn : Int
  weekOut : Int
  monthIn : Int
  monthOut : Int
  deriving DecidableEq, Repr

/-- A bucket: the bytes in and out. -/
abbrev Bucket := Int × Int

/-- The buckets by their keys, in the order in which they were put. -/
abbrev Days := List (String × Bucket)

/-- The preferences: the text that is kept for a profile. -/
abbrev Prefs := Uuid → Option String

/-- `"%04d-%02d-%02d"`. -/
def dayKey (cal : Date) : String :=
  String.ofList (Text.padded 4 cal.year ++ '-' :: (Text.padded 2 cal.month ++ '-' :: Text.padded 2 cal.day))

/-- `optLong`, where `truncate` is `(long) Double.parseDouble`. -/
def optLong (truncate : String → Option Int) (arr : List Json) (i : Nat) : Int :=
  match arr[i]? with
  | some (.int n) => n
  | some (.double d) => (truncate d.valueText).getD 0
  | some (.str s) => (truncate s).getD 0
  | _ => 0

/-- The loop of `readDays`; its names are distinct. What is no array ends it. -/
def readMembers (truncate : String → Option Int) : JsonObject → Days
  | (k, .arr arr) :: o => (k, (optLong truncate arr 0, optLong truncate arr 1)) :: readMembers truncate o
  | _ => []

/-- `readDays`; an exception leaves what has been read. -/
def readDays (doubles : Doubles) (truncate : String → Option Int) (raw : Option String) : Days :=
  match raw with
  | none => []
  | some text =>
    if isBlank text then []
    else match Json.ofText doubles text with
      | some o => readMembers truncate o
      | none => []

/-- `days[key] = value`. -/
def put (days : Days) (key : String) (value : Bucket) : Days :=
  if days.any (·.1 == key) then days.map fun d => if d.1 == key then (key, value) else d
  else days ++ [(key, value)]

/-- The text that is kept of the buckets. -/
def written (days : Days) : String :=
  Json.render (.obj (days.foldl (fun o d => JsonObject.put o d.1 (.arr [.int d.2.1, .int d.2.2])) []))

/-- The buckets after `add`. -/
def added (days : Days) (now : Date) (dIn dOut : Int) : Days :=
  let key := dayKey now
  let cur := (days.lookup key).getD (0, 0)
  let days := put days key (toLong (cur.1 + dIn), toLong (cur.2 + dOut))
  let cutoff := dayKey (now.back keepDays)
  days.filter fun d => ¬ d.1 < cutoff

section Store

variable (doubles : Doubles) (truncate : String → Option Int)

/-- `add`. -/
def add (prefs : Prefs) (uuid : Uuid) (now : Date) (dIn dOut : Int) : Prefs :=
  if dIn ≤ 0 ∧ dOut ≤ 0 then prefs
  else Function.update prefs uuid
    (some (written (added (readDays doubles truncate (prefs uuid)) now dIn dOut)))

/-- One bucket of the loop of `totals`. -/
def count (todayKey weekStartKey monthPrefix : String) (t : Totals) (d : String × Bucket) : Totals :=
  let (k, v) := d
  let today := k == todayKey
  let week := !decide (k < weekStartKey)
  let month := monthPrefix.toList.isPrefixOf k.toList
  { dayIn := if today then toLong (t.dayIn + v.1) else t.dayIn
    dayOut := if today then toLong (t.dayOut + v.2) else t.dayOut
    weekIn := if week then toLong (t.weekIn + v.1) else t.weekIn
    weekOut := if week then toLong (t.weekOut + v.2) else t.weekOut
    monthIn := if month then toLong (t.monthIn + v.1) else t.monthIn
    monthOut := if month then toLong (t.monthOut + v.2) else t.monthOut }

/-- `totals`. -/
def totals (prefs : Prefs) (uuid : Uuid) (now : Date) : Totals :=
  let days := readDays doubles truncate (prefs uuid)
  let todayKey := dayKey now
  let weekStart := now.back ((now.dayOfWeek + 7 - saturday) % 7)
  let monthPrefix := String.ofList (todayKey.toList.take 7)
  days.foldl (count todayKey (dayKey weekStart) monthPrefix) ⟨0, 0, 0, 0, 0, 0⟩

/-- `remove`. -/
def remove (prefs : Prefs) (uuid : Uuid) : Prefs := Function.update prefs uuid none

end Store

/-! ## 2. The keys -/

/-- The years whose keys are of one width. -/
def InKeys (d : Date) : Prop := d.year < 10 ^ 4

theorem InKeys.of_le {d e : Date} (h : InKeys d) (hle : e ≤ d) : InKeys e := by
  rcases lt_or_eq_of_le hle with hlt | rfl
  · unfold InKeys at *
    rcases Date.lt_iff_before.mp hlt with hy | ⟨hy, -⟩
    · exact Nat.lt_trans hy h
    · rw [hy]
      exact h
  · exact h

theorem month_lt (d : Date) : d.month < 10 ^ 2 := Nat.lt_of_le_of_lt d.month_le (by omega)

theorem day_lt (d : Date) : d.day < 10 ^ 2 :=
  Nat.lt_of_le_of_lt (Nat.le_trans d.day_le (daysInMonth_le _ _)) (by omega)

/-- **The order of the keys is the order of the days.** -/
theorem dayKey_lt {d e : Date} (hd : InKeys d) (he : InKeys e) : dayKey d < dayKey e ↔ d < e := by
  have hyear : (Text.padded 4 d.year).length = (Text.padded 4 e.year).length := by
    rw [Text.length_padded (by omega) hd, Text.length_padded (by omega) he]
  have hmonth : (Text.padded 2 d.month).length = (Text.padded 2 e.month).length := by
    rw [Text.length_padded (by omega) (month_lt d), Text.length_padded (by omega) (month_lt e)]
  have hdash : ∀ xs ys : List Char, '-' :: xs < '-' :: ys ↔ xs < ys := by
    intro xs ys
    simp
  show (dayKey d).toList < (dayKey e).toList ↔ d < e
  simp only [dayKey, String.toList_ofList]
  rw [Text.append_lt_append hyear, hdash, Text.append_lt_append hmonth, hdash,
    Text.padded_lt (by omega) hd he, Text.padded_inj (by omega) hd he,
    Text.padded_lt (by omega) (month_lt d) (month_lt e),
    Text.padded_inj (by omega) (month_lt d) (month_lt e),
    Text.padded_lt (by omega) (day_lt d) (day_lt e), Date.lt_iff_before]
  rfl

theorem dayKey_inj {d e : Date} (hd : InKeys d) (he : InKeys e) : dayKey d = dayKey e ↔ d = e := by
  refine ⟨fun h => ?_, fun h => by rw [h]⟩
  rcases lt_trichotomy d e with hlt | he' | hlt
  · exact absurd ((dayKey_lt hd he).mpr hlt) (h ▸ String.lt_irrefl _)
  · exact he'
  · exact absurd ((dayKey_lt he hd).mpr hlt) (h ▸ String.lt_irrefl _)

/-- The part of the key that names the month. -/
def monthKey (d : Date) : List Char := Text.padded 4 d.year ++ '-' :: Text.padded 2 d.month

theorem toList_dayKey (d : Date) : (dayKey d).toList = monthKey d ++ '-' :: Text.padded 2 d.day := by
  simp [dayKey, monthKey]

theorem length_monthKey {d : Date} (h : InKeys d) : (monthKey d).length = 7 := by
  rw [monthKey, List.length_append, List.length_cons, Text.length_padded (by omega) h,
    Text.length_padded (by omega) (month_lt d)]

theorem monthKey_inj {d e : Date} (hd : InKeys d) (he : InKeys e) :
    monthKey d = monthKey e ↔ e.year = d.year ∧ e.month = d.month := by
  have hyear : (Text.padded 4 d.year).length = (Text.padded 4 e.year).length := by
    rw [Text.length_padded (by omega) hd, Text.length_padded (by omega) he]
  constructor
  · intro h
    obtain ⟨hy, hm⟩ := List.append_inj h hyear
    rw [Text.padded_inj (by omega) hd he] at hy
    have hm := (List.cons.inj hm).2
    rw [Text.padded_inj (by omega) (month_lt d) (month_lt e)] at hm
    exact ⟨hy.symm, hm.symm⟩
  · intro h
    rw [monthKey, monthKey, h.1, h.2]

/-- Two keys begin alike where the days are of one month. -/
theorem monthPrefix_iff {d e : Date} (hd : InKeys d) (he : InKeys e) :
    (String.ofList ((dayKey d).toList.take 7)).toList.isPrefixOf (dayKey e).toList = true ↔
      e.year = d.year ∧ e.month = d.month := by
  have htake : (dayKey d).toList.take 7 = monthKey d := by
    rw [toList_dayKey, ← length_monthKey hd, List.take_left]
  rw [htake, String.toList_ofList, toList_dayKey, List.isPrefixOf_iff_prefix, ← monthKey_inj hd he]
  constructor
  · intro h
    obtain ⟨rest, hrest⟩ := h
    exact (List.append_inj hrest (by rw [length_monthKey hd, length_monthKey he])).1
  · intro h
    rw [h]
    exact List.prefix_append _ _

/-! ## 3. What was written is read back -/

/-- A bucket holds `Long` values. -/
def IsLong (n : Int) : Prop := -(2 ^ 63 : Int) ≤ n ∧ n < (2 ^ 63 : Int)

theorem isLong_toLong (n : Int) : IsLong (toLong n) := by
  have hle : -((2 ^ 64 : Nat) / 2 : Int) ≤ n.bmod (2 ^ 64) := Int.le_bmod (by omega)
  have hlt : n.bmod (2 ^ 64) < ((2 ^ 64 : Nat) + 1) / 2 := Int.bmod_lt (by omega)
  exact ⟨hle, hlt⟩

theorem toLong_eq {n : Int} (h : IsLong n) : toLong n = n := by
  obtain ⟨hle, hlt⟩ := h
  exact Int.bmod_eq_of_le (by omega) (by omega)

@[simp] theorem toLong_add_left (a b : Int) : toLong (toLong a + b) = toLong (a + b) := Int.bmod_add_bmod

@[simp] theorem toLong_add_right (a b : Int) : toLong (a + toLong b) = toLong (a + b) := Int.add_bmod_bmod

@[simp] theorem toLong_zero : toLong 0 = 0 := rfl

/-- The document that is written, bucket by bucket. -/
def members (days : Days) : JsonObject := days.map fun d => (d.1, .arr [.int d.2.1, .int d.2.2])

theorem foldl_put_members {days : Days} {o : JsonObject}
    (hnodup : (days.map Prod.fst).Nodup) (hfresh : ∀ d ∈ days, o.lookup d.1 = none) :
    days.foldl (fun o d => JsonObject.put o d.1 (.arr [.int d.2.1, .int d.2.2])) o =
      o ++ members days := by
  induction days generalizing o with
  | nil => exact (List.append_nil o).symm
  | cons d days ih =>
    rw [List.map_cons, List.nodup_cons] at hnodup
    rw [List.foldl_cons, JsonObject.put_of_lookup_eq_none (hfresh d List.mem_cons_self), ih hnodup.2]
    · simp [members]
    · intro d' hd'
      refine Json.lookup_concat_eq_none (hfresh d' (List.mem_cons_of_mem d hd')) fun he => ?_
      exact hnodup.1 (List.mem_map.mpr ⟨d', hd', he⟩)

section Written

variable (doubles : Doubles) (truncate : String → Option Int)

theorem readMembers_members (days : Days) : readMembers truncate (members days) = days := by
  induction days with
  | nil => rfl
  | cons d days ih =>
    show _ :: readMembers truncate (members days) = _
    rw [ih]
    rfl

/-- **What was written is read back.** -/
theorem readDays_written {days : Days} (hnodup : (days.map Prod.fst).Nodup)
    (hlong : ∀ d ∈ days, IsLong d.2.1 ∧ IsLong d.2.2) :
    readDays doubles truncate (some (written days)) = days := by
  have hwritten : written days = Json.render (.obj (members days)) := by
    unfold written
    rw [foldl_put_members hnodup (fun _ _ => rfl)]
    rfl
  have hblank : isBlank (written days) = false := by
    have hbrace : isWhitespace '\x7b' = false := rfl
    rw [hwritten, isBlank, Json.render, String.toList_ofList, Json.renderChars]
    simp [hbrace]
  have hread : Json.ofText doubles (written days) = some (members days) := by
    rw [hwritten, ← Json.layOut_compact]
    refine Json.ofText_layOut doubles Json.compact ((Json.plain_obj_iff _).2 ⟨?_, fun m hm => ?_⟩)
    · rw [members, List.map_map]
      exact hnodup
    · obtain ⟨d, hd, rfl⟩ := List.mem_map.mp hm
      obtain ⟨hin, hout⟩ := hlong d hd
      refine (Json.plain_arr_iff _).2 fun e he => ?_
      simp only [List.mem_cons, List.not_mem_nil, or_false] at he
      rcases he with rfl | rfl
      · exact decide_eq_true hin
      · exact decide_eq_true hout
  simp only [readDays, hblank, hread, Bool.false_eq_true, if_false]
  exact readMembers_members truncate days

end Written

/-! ## 4. One more call -/

/-- A call of `add`. -/
structure UsageCall where
  uuid : Uuid
  day : Date
  dIn : Int
  dOut : Int
  deriving DecidableEq, Repr

/-- The sum over the calls on days in `p`. -/
def sumOver (p : Date → Prop) [DecidablePred p] (f : UsageCall → Int) (calls : List UsageCall) : Int :=
  ((calls.filter fun c => p c.day).map f).sum

theorem sumOver_cons (p : Date → Prop) [DecidablePred p] (f : UsageCall → Int) (c : UsageCall)
    (calls : List UsageCall) :
    sumOver p f (c :: calls) = (if p c.day then f c else 0) + sumOver p f calls := by
  by_cases hp : p c.day
  · simp [sumOver, hp]
  · simp [sumOver, hp]

theorem sumOver_concat (p : Date → Prop) [DecidablePred p] (f : UsageCall → Int)
    (calls : List UsageCall) (c : UsageCall) :
    sumOver p f (calls ++ [c]) = sumOver p f calls + if p c.day then f c else 0 := by
  induction calls with
  | nil =>
    rw [List.nil_append, sumOver_cons]
    exact Int.add_comm _ _
  | cons b calls ih => rw [List.cons_append, sumOver_cons, ih, sumOver_cons, Int.add_assoc]

theorem sumOver_eq_zero {p : Date → Prop} [DecidablePred p] (f : UsageCall → Int)
    {calls : List UsageCall} (h : ∀ c ∈ calls, ¬ p c.day) : sumOver p f calls = 0 := by
  have hnil : (calls.filter fun c => p c.day) = [] := by
    rw [List.filter_eq_nil_iff]
    intro c hc
    simpa using h c hc
  rw [sumOver, hnil]
  rfl

/-- The bucket of a day. -/
def bucket (calls : List UsageCall) (e : Date) : Bucket :=
  (toLong (sumOver (· = e) UsageCall.dIn calls), toLong (sumOver (· = e) UsageCall.dOut calls))

/-- The buckets of the days `ds`. -/
def buckets (calls : List UsageCall) (ds : List Date) : Days := ds.map fun e => (dayKey e, bucket calls e)

/-- The days whose buckets are kept: those of a call, unless a call was more than 400 days later. -/
structure History (calls : List UsageCall) (ds : List Date) : Prop where
  nodup : ds.Nodup
  mem : ∀ e, e ∈ ds ↔ (∃ c ∈ calls, c.day = e) ∧ ∀ c ∈ calls, c.day.back keepDays ≤ e

section Buckets

variable {calls : List UsageCall} {ds : List Date} {d : Date}

theorem lookup_buckets (hds : ∀ e ∈ ds, InKeys e) (hd : InKeys d) :
    (buckets calls ds).lookup (dayKey d) = if d ∈ ds then some (bucket calls d) else none := by
  induction ds with
  | nil => rfl
  | cons e ds ih =>
    have hrest := ih fun e he => hds e (List.mem_cons_of_mem _ he)
    show List.lookup (dayKey d) ((dayKey e, bucket calls e) :: buckets calls ds) = _
    rw [List.lookup_cons]
    by_cases hde : d = e
    · subst hde
      rw [beq_self_eq_true, if_pos List.mem_cons_self]
    · have hkey : dayKey d ≠ dayKey e := fun h =>
        hde ((dayKey_inj hd (hds e List.mem_cons_self)).mp h)
      rw [beq_false_of_ne hkey, hrest]
      simp only [List.mem_cons, hde, false_or]

/-- Putting the bucket of a day into those that are there. -/
theorem put_buckets (hds : ∀ e ∈ ds, InKeys e) (hd : InKeys d) {calls' : List UsageCall}
    (hother : ∀ e, e ≠ d → bucket calls' e = bucket calls e) :
    put (buckets calls ds) (dayKey d) (bucket calls' d) =
      buckets calls' (if d ∈ ds then ds else ds ++ [d]) := by
  have hkey : ∀ e ∈ ds, (dayKey e == dayKey d) = decide (e = d) := by
    intro e he
    rw [Bool.eq_iff_iff, beq_iff_eq, decide_eq_true_eq, dayKey_inj (hds e he) hd]
  have hany : (buckets calls ds).any (·.1 == dayKey d) = decide (d ∈ ds) := by
    rw [Bool.eq_iff_iff, List.any_eq_true, decide_eq_true_eq]
    constructor
    · intro h
      obtain ⟨b, hb, hbd⟩ := h
      obtain ⟨e, he, rfl⟩ := List.mem_map.mp hb
      rw [hkey e he, decide_eq_true_eq] at hbd
      exact hbd ▸ he
    · intro h
      exact ⟨_, List.mem_map.mpr ⟨d, h, rfl⟩, beq_self_eq_true _⟩
  unfold put
  rw [hany]
  by_cases hmem : d ∈ ds
  · simp only [hmem, decide_true, if_true, buckets, List.map_map]
    refine List.map_congr_left fun e he => ?_
    rw [Function.comp_apply, hkey e he]
    by_cases hed : e = d
    · subst hed
      simp
    · simp [hed, hother e hed]
  · have hsame : buckets calls ds = buckets calls' ds := by
      refine List.map_congr_left fun e he => ?_
      have hed : e ≠ d := fun h => hmem (h ▸ he)
      rw [hother e hed]
    simp only [hmem, decide_false, Bool.false_eq_true, if_false]
    rw [hsame, buckets, buckets, List.map_append]
    rfl

/-- A call adds to the bucket of its day. -/
theorem bucket_concat (calls : List UsageCall) (c : UsageCall) :
    bucket (calls ++ [c]) c.day =
      (toLong ((bucket calls c.day).1 + c.dIn), toLong ((bucket calls c.day).2 + c.dOut)) := by
  simp only [bucket, sumOver_concat, if_true, toLong_add_left]

theorem bucket_concat_of_ne {c : UsageCall} {e : Date} (h : e ≠ c.day) :
    bucket (calls ++ [c]) e = bucket calls e := by
  simp only [bucket, sumOver_concat, if_neg (Ne.symm h), Int.add_zero]

theorem back_le {k : Nat} (h : k < d.dayNumber) : d.back k ≤ d := by
  have hnumber := Date.dayNumber_back h
  rw [Date.le_iff]
  omega

theorem back_mono {e : Date} {k : Nat} (h : k < d.dayNumber) (hde : d ≤ e) : d.back k ≤ e.back k := by
  rw [Date.le_iff] at hde ⊢
  have hd := Date.dayNumber_back h
  have he := Date.dayNumber_back (Nat.lt_of_lt_of_le h hde)
  omega

/-- Pruning drops the buckets of the days before the cutoff. -/
theorem prune_buckets (hds : ∀ e ∈ ds, InKeys e) (hd : InKeys d) :
    ((buckets calls ds).filter fun b => ¬ b.1 < dayKey d) = buckets calls (ds.filter (d ≤ ·)) := by
  unfold buckets
  rw [List.filter_map]
  refine congrArg (List.map _) (List.filter_congr fun e he => ?_)
  rw [Function.comp_apply, decide_eq_decide, dayKey_lt (hds e he) hd, not_lt]

/-- The buckets of days of four digits are read back. -/
theorem readDays_buckets (doubles : Doubles) (truncate : String → Option Int) (hnodup : ds.Nodup)
    (hds : ∀ e ∈ ds, InKeys e) :
    readDays doubles truncate (some (written (buckets calls ds))) = buckets calls ds := by
  refine readDays_written doubles truncate ?_ fun b hb => ?_
  · rw [buckets, List.map_map]
    exact hnodup.map_on fun d hd e he h => (dayKey_inj (hds d hd) (hds e he)).mp h
  · obtain ⟨e, -, rfl⟩ := List.mem_map.mp hb
    exact ⟨isLong_toLong _, isLong_toLong _⟩

/-- What a call needs: keys of one width, 400 days behind it, and no earlier call on a later day. -/
structure Follows (calls : List UsageCall) (c : UsageCall) : Prop where
  keys : InKeys c.day
  past : ∀ b ∈ calls ++ [c], keepDays < b.day.dayNumber
  sorted : ∀ b ∈ calls, b.day ≤ c.day

/-- **One more call** keeps a bucket of every day that is at most 400 days old, and no other. -/
theorem added_buckets {c : UsageCall} (H : History calls ds) (h : Follows calls c) :
    ∃ ds', added (buckets calls ds) c.day c.dIn c.dOut = buckets (calls ++ [c]) ds' ∧
      History (calls ++ [c]) ds' := by
  have hday : ∀ e ∈ ds, ∃ b ∈ calls, b.day = e := fun e he => ((H.mem e).mp he).1
  have hds : ∀ e ∈ ds, InKeys e := by
    intro e he
    obtain ⟨b, hb, rfl⟩ := hday e he
    exact h.keys.of_le (h.sorted b hb)
  have hlast : keepDays < c.day.dayNumber := h.past c (List.mem_append_right _ List.mem_cons_self)
  have hcut : ∀ b ∈ calls, b.day.back keepDays ≤ c.day.back keepDays := fun b hb =>
    back_mono (h.past b (List.mem_append_left _ hb)) (h.sorted b hb)
  -- a day without a bucket has had no call
  have hcur : ((buckets calls ds).lookup (dayKey c.day)).getD (0, 0) = bucket calls c.day := by
    rw [lookup_buckets hds h.keys]
    split
    · rfl
    · rename_i hnot
      have hnone : ∀ b ∈ calls, ¬ b.day = c.day := fun b hb he => hnot ((H.mem c.day).mpr
        ⟨⟨b, hb, he⟩, fun b hb => le_trans (hcut b hb) (back_le hlast)⟩)
      rw [bucket, sumOver_eq_zero _ hnone, sumOver_eq_zero _ hnone]
      rfl
  have hother : ∀ e, e ≠ c.day → bucket (calls ++ [c]) e = bucket calls e := fun e he =>
    bucket_concat_of_ne he
  have hput := put_buckets hds h.keys hother
  refine ⟨(if c.day ∈ ds then ds else ds ++ [c.day]).filter (c.day.back keepDays ≤ ·), ?_, ?_, ?_⟩
  · unfold added
    simp only [hcur]
    rw [← bucket_concat, hput]
    refine prune_buckets (fun e he => ?_) (h.keys.of_le (back_le hlast))
    split at he
    · exact hds e he
    · rcases List.mem_append.mp he with he | he
      · exact hds e he
      · rw [List.mem_singleton.mp he]
        exact h.keys
  · have hnodup : (if c.day ∈ ds then ds else ds ++ [c.day]).Nodup := by
      split
      · exact H.nodup
      · rename_i hnot
        rw [List.nodup_append]
        refine ⟨H.nodup, List.nodup_singleton _, fun a ha b hb => ?_⟩
        rw [List.mem_singleton.mp hb]
        exact fun hab => hnot (hab ▸ ha)
    exact hnodup.filter _
  · intro e
    have hmem : e ∈ (if c.day ∈ ds then ds else ds ++ [c.day]) ↔ e ∈ ds ∨ e = c.day := by
      split
      · rename_i hc
        exact ⟨.inl, fun he => he.elim id fun he => he ▸ hc⟩
      · rw [List.mem_append, List.mem_singleton]
    rw [List.mem_filter, decide_eq_true_eq, hmem, H.mem]
    constructor
    · intro he
      obtain ⟨he, hle⟩ := he
      refine ⟨?_, fun b hb => ?_⟩
      · rcases he with ⟨⟨b, hb, hbe⟩, -⟩ | rfl
        · exact ⟨b, List.mem_append_left _ hb, hbe⟩
        · exact ⟨c, List.mem_append_right _ List.mem_cons_self, rfl⟩
      · rcases List.mem_append.mp hb with hb | hb
        · exact le_trans (hcut b hb) hle
        · rw [List.mem_singleton.mp hb]
          exact hle
    · intro he
      obtain ⟨⟨b, hb, hbe⟩, hall⟩ := he
      refine ⟨?_, hall c (List.mem_append_right _ List.mem_cons_self)⟩
      rcases List.mem_append.mp hb with hb | hb
      · exact .inl ⟨⟨b, hb, hbe⟩, fun a ha => hall a (List.mem_append_left _ ha)⟩
      · rw [List.mem_singleton.mp hb] at hbe
        exact .inr hbe.symm

end Buckets

/-! ## 5. A run of calls -/

section Runs

variable (doubles : Doubles) (truncate : String → Option Int)

/-- A run of `add`. -/
def addAll (prefs : Prefs) (calls : List UsageCall) : Prefs :=
  calls.foldl (fun prefs c => add doubles truncate prefs c.uuid c.day c.dIn c.dOut) prefs

/-- The calls for a profile. -/
def callsOf (uuid : Uuid) (calls : List UsageCall) : List UsageCall := calls.filter (·.uuid = uuid)

/-- The calls of the app: not negative, not both zero, in years of four digits, and for one profile
    on days that never go back. -/
structure Proper (uuid : Uuid) (calls : List UsageCall) : Prop where
  amounts : ∀ c ∈ callsOf uuid calls, 0 ≤ c.dIn ∧ 0 ≤ c.dOut ∧ ¬ (c.dIn = 0 ∧ c.dOut = 0)
  years : ∀ c ∈ callsOf uuid calls, 1000 ≤ c.day.year ∧ c.day.year ≤ 9999
  sorted : ((callsOf uuid calls).map UsageCall.day).Pairwise (· ≤ ·)

/-- What is kept for the profile is the history of its calls. -/
def Recorded (uuid : Uuid) (prefs : Prefs) (calls : List UsageCall) : Prop :=
  ∃ ds, readDays doubles truncate (prefs uuid) = buckets (callsOf uuid calls) ds ∧
    History (callsOf uuid calls) ds

theorem callsOf_concat (uuid : Uuid) (calls : List UsageCall) (c : UsageCall) :
    callsOf uuid (calls ++ [c]) = callsOf uuid calls ++ if c.uuid = uuid then [c] else [] := by
  by_cases hc : c.uuid = uuid
  · simp [callsOf, hc]
  · simp [callsOf, hc]

/-- A call for another profile leaves what is kept. -/
theorem add_of_ne {prefs : Prefs} {uuid other : Uuid} (h : other ≠ uuid) (now : Date) (dIn dOut : Int) :
    add doubles truncate prefs other now dIn dOut uuid = prefs uuid := by
  unfold add
  split
  · rfl
  · exact Function.update_of_ne (Ne.symm h) _ _

/-- A day of four digits has 400 days behind it. -/
theorem keepDays_lt {d : Date} (h : 1000 ≤ d.year) : keepDays < d.dayNumber := by
  have hlt : 365 * (999 - 1) < d.dayNumber := Date.lt_dayNumber_of_year h
  unfold keepDays
  omega

/-- The last of the calls for a profile follows the others. -/
theorem Proper.follows {uuid : Uuid} {calls : List UsageCall} {c : UsageCall}
    (h : Proper uuid (calls ++ [c])) (hc : c.uuid = uuid) : Follows (callsOf uuid calls) c := by
  obtain ⟨-, hyears, hsorted⟩ := h
  rw [callsOf_concat, if_pos hc] at hyears hsorted
  have hlast := hyears c (List.mem_append_right _ List.mem_cons_self)
  refine ⟨Nat.lt_of_le_of_lt hlast.2 (by omega), fun b hb => keepDays_lt (hyears b hb).1, fun b hb => ?_⟩
  rw [List.map_append, List.pairwise_append] at hsorted
  exact hsorted.2.2 b.day (List.mem_map_of_mem hb) c.day List.mem_cons_self

/-- The calls up to some point are proper, if all are. -/
theorem Proper.init {uuid : Uuid} {calls : List UsageCall} {c : UsageCall}
    (h : Proper uuid (calls ++ [c])) : Proper uuid calls := by
  have hmem : ∀ b ∈ callsOf uuid calls, b ∈ callsOf uuid (calls ++ [c]) := fun b hb => by
    rw [callsOf_concat]
    exact List.mem_append_left _ hb
  refine ⟨fun b hb => h.amounts b (hmem b hb), fun b hb => h.years b (hmem b hb), ?_⟩
  have hsorted := h.sorted
  rw [callsOf_concat, List.map_append, List.pairwise_append] at hsorted
  exact hsorted.1

/-- **What every call keeps**: the text of a profile is the history of its calls. -/
theorem recorded_addAll {prefs : Prefs} {uuid : Uuid} (h₀ : prefs uuid = none) {calls : List UsageCall}
    (h : Proper uuid calls) :
    Recorded doubles truncate uuid (addAll doubles truncate prefs calls) calls := by
  induction calls using List.reverseRecOn with
  | nil =>
    refine ⟨[], ?_, List.nodup_nil, fun e => ?_⟩
    · rw [addAll, List.foldl_nil, h₀]
      rfl
    · simp [callsOf]
  | append_singleton calls c ih =>
    obtain ⟨ds, hread, H⟩ := ih h.init
    rw [addAll, List.foldl_append, List.foldl_cons, List.foldl_nil]
    show Recorded doubles truncate uuid
      (add doubles truncate (addAll doubles truncate prefs calls) c.uuid c.day c.dIn c.dOut) _
    unfold Recorded
    by_cases hc : c.uuid = uuid
    · have hfollows := h.follows hc
      obtain ⟨ds', hadded, H'⟩ := added_buckets H hfollows
      have hds' : ∀ e ∈ ds', InKeys e := by
        intro e he
        obtain ⟨⟨b, hb, rfl⟩, -⟩ := (H'.mem e).mp he
        rcases List.mem_append.mp hb with hb | hb
        · exact hfollows.keys.of_le (hfollows.sorted b hb)
        · rw [List.mem_singleton.mp hb]
          exact hfollows.keys
      have hcalls : callsOf uuid (calls ++ [c]) = callsOf uuid calls ++ [c] := by
        rw [callsOf_concat, if_pos hc]
      have hmem : c ∈ callsOf uuid (calls ++ [c]) := by
        rw [hcalls]
        exact List.mem_append_right _ List.mem_cons_self
      obtain ⟨hin, hout, hboth⟩ := h.amounts c hmem
      have hsome : ¬ (c.dIn ≤ 0 ∧ c.dOut ≤ 0) := by omega
      rw [hcalls]
      refine ⟨ds', ?_, H'⟩
      unfold add
      rw [if_neg hsome, hc, Function.update_self, hread, hadded]
      exact readDays_buckets doubles truncate H'.nodup hds'
    · rw [add_of_ne doubles truncate hc, callsOf_concat, if_neg hc, List.append_nil]
      exact ⟨ds, hread, H⟩

end Runs

/-! ## 6. The windows -/

theorem toLong_step (p : Bool) (a v : Int) :
    (if p then toLong (toLong a + v) else toLong a) = toLong (a + if p then v else 0) := by
  cases p with
  | true => exact toLong_add_left a v
  | false => rw [if_neg Bool.false_ne_true, if_neg Bool.false_ne_true, Int.add_zero]

theorem toLong_sum {α : Type*} (l : List α) (f : α → Int) :
    toLong (l.map fun x => toLong (f x)).sum = toLong (l.map f).sum := by
  induction l with
  | nil => rfl
  | cons x l ih =>
    simp only [List.map_cons, List.sum_cons]
    rw [toLong_add_left, ← toLong_add_right, ih, toLong_add_right]

/-- The sum over the buckets whose keys are in `p`. -/
def sumKeys (p : String → Bool) (f : Bucket → Int) (days : Days) : Int :=
  ((days.filter fun d => p d.1).map fun d => f d.2).sum

theorem sumKeys_cons (p : String → Bool) (f : Bucket → Int) (d : String × Bucket) (days : Days) :
    sumKeys p f (d :: days) = (if p d.1 then f d.2 else 0) + sumKeys p f days := by
  cases hp : p d.1 with
  | true => simp [sumKeys, hp]
  | false => simp [sumKeys, hp]

/-- The loop of `totals` sums up six windows. -/
theorem foldl_count (todayKey weekStartKey monthPrefix : String) (days : Days) (a b c d e f : Int) :
    days.foldl (count todayKey weekStartKey monthPrefix)
        ⟨toLong a, toLong b, toLong c, toLong d, toLong e, toLong f⟩ =
      ⟨toLong (a + sumKeys (· == todayKey) Prod.fst days),
        toLong (b + sumKeys (· == todayKey) Prod.snd days),
        toLong (c + sumKeys (fun k => !decide (k < weekStartKey)) Prod.fst days),
        toLong (d + sumKeys (fun k => !decide (k < weekStartKey)) Prod.snd days),
        toLong (e + sumKeys (fun k => monthPrefix.toList.isPrefixOf k.toList) Prod.fst days),
        toLong (f + sumKeys (fun k => monthPrefix.toList.isPrefixOf k.toList) Prod.snd days)⟩ := by
  induction days generalizing a b c d e f with
  | nil => simp [sumKeys]
  | cons x days ih =>
    rw [List.foldl_cons, count]
    simp only [toLong_step]
    rw [ih]
    simp only [sumKeys_cons, Int.add_assoc]

section Windows

variable {calls : List UsageCall} {ds : List Date}

theorem sum_single {d : Date} (hnodup : ds.Nodup) (v : Int) :
    (ds.map fun e => if d = e then v else 0).sum = if d ∈ ds then v else 0 := by
  induction ds with
  | nil => rfl
  | cons e ds ih =>
    obtain ⟨hnot, hnodup⟩ := List.nodup_cons.mp hnodup
    rw [List.map_cons, List.sum_cons, ih hnodup]
    by_cases hde : d = e
    · subst hde
      simp [hnot]
    · simp [hde]

/-- A window of the calls is summed up day by day, if no day of it is missing. -/
theorem sum_days (q : Date → Prop) [DecidablePred q] (f : UsageCall → Int) (hnodup : ds.Nodup)
    (hall : ∀ c ∈ calls, q c.day → c.day ∈ ds) :
    ((ds.filter fun e => q e).map fun e => sumOver (· = e) f calls).sum = sumOver q f calls := by
  induction calls with
  | nil => simp [sumOver]
  | cons c calls ih =>
    have hrest := ih fun b hb => hall b (List.mem_cons_of_mem c hb)
    have hday : c.day ∈ ds.filter (fun e => q e) ↔ q c.day := by
      rw [List.mem_filter, decide_eq_true_eq]
      exact ⟨And.right, fun hq => ⟨hall c List.mem_cons_self hq, hq⟩⟩
    simp only [sumOver_cons]
    rw [List.sum_map_add, hrest, sum_single (hnodup.filter _)]
    simp only [hday]

theorem map_buckets (f : Bucket → Int) (ds : List Date) :
    ((buckets calls ds).map fun d => f d.2) = ds.map fun e => f (bucket calls e) := by
  rw [buckets, List.map_map]
  rfl

/-- A window of the buckets holds the sums of the calls in it. -/
theorem sumKeys_buckets {p : String → Bool} (q : Date → Prop) [DecidablePred q] (hnodup : ds.Nodup)
    (hp : ∀ e ∈ ds, p (dayKey e) = decide (q e)) (hall : ∀ c ∈ calls, q c.day → c.day ∈ ds) :
    toLong (sumKeys p Prod.fst (buckets calls ds)) = toLong (sumOver q UsageCall.dIn calls) ∧
      toLong (sumKeys p Prod.snd (buckets calls ds)) = toLong (sumOver q UsageCall.dOut calls) := by
  have hfilter : ((buckets calls ds).filter fun d => p d.1) = buckets calls (ds.filter fun e => q e) := by
    unfold buckets
    rw [List.filter_map]
    exact congrArg (List.map _) (List.filter_congr hp)
  unfold sumKeys
  rw [hfilter, map_buckets, map_buckets]
  constructor
  · exact (toLong_sum _ _).trans (congrArg toLong (sum_days q UsageCall.dIn hnodup hall))
  · exact (toLong_sum _ _).trans (congrArg toLong (sum_days q UsageCall.dOut hnodup hall))

end Windows

/-! ## 7. The totals -/

/-- The sums over the calls: on the day, from the Saturday `sat` up to and including the day, and in
    its month. -/
def windows (calls : List UsageCall) (now sat : Date) : Totals :=
  { dayIn := sumOver (· = now) UsageCall.dIn calls
    dayOut := sumOver (· = now) UsageCall.dOut calls
    weekIn := sumOver (fun e => sat ≤ e ∧ e ≤ now) UsageCall.dIn calls
    weekOut := sumOver (fun e => sat ≤ e ∧ e ≤ now) UsageCall.dOut calls
    monthIn := sumOver (fun e => e.year = now.year ∧ e.month = now.month) UsageCall.dIn calls
    monthOut := sumOver (fun e => e.year = now.year ∧ e.month = now.month) UsageCall.dOut calls }

/-- Every sum is a `Long`. -/
def Totals.Fits (t : Totals) : Prop :=
  (IsLong t.dayIn ∧ IsLong t.dayOut) ∧ (IsLong t.weekIn ∧ IsLong t.weekOut) ∧
    IsLong t.monthIn ∧ IsLong t.monthOut

section Exact

variable {calls : List UsageCall} {ds : List Date} {now sat : Date}

/-- A day of a call at most 400 days back is among those kept. -/
theorem History.recent (H : History calls ds) (hpast : ∀ c ∈ calls, keepDays < c.day.dayNumber)
    (hnow : ∀ c ∈ calls, c.day ≤ now) {c : UsageCall} (hc : c ∈ calls)
    (h : now.dayNumber ≤ c.day.dayNumber + keepDays) : c.day ∈ ds := by
  refine (H.mem c.day).mpr ⟨⟨c, hc, rfl⟩, fun b hb => ?_⟩
  have hback := Date.dayNumber_back (hpast b hb)
  have hle := hnow b hb
  rw [Date.le_iff] at hle ⊢
  omega

/-- **The totals of a history** are the sums over its calls. -/
theorem totals_buckets (H : History calls ds) (hpast : ∀ c ∈ calls, keepDays < c.day.dayNumber)
    (hnow : ∀ c ∈ calls, c.day ≤ now) (hkeys : InKeys now) (hsat : Date.Latest saturday sat now)
    (h400 : keepDays < now.dayNumber) :
    (buckets calls ds).foldl (count (dayKey now)
        (dayKey (now.back ((now.dayOfWeek + 7 - saturday) % 7)))
        (String.ofList ((dayKey now).toList.take 7))) ⟨0, 0, 0, 0, 0, 0⟩ =
      ⟨toLong (windows calls now sat).dayIn, toLong (windows calls now sat).dayOut,
        toLong (windows calls now sat).weekIn, toLong (windows calls now sat).weekOut,
        toLong (windows calls now sat).monthIn, toLong (windows calls now sat).monthOut⟩ := by
  have hle : ∀ e ∈ ds, e ≤ now := by
    intro e he
    obtain ⟨⟨c, hc, rfl⟩, -⟩ := (H.mem e).mp he
    exact hnow c hc
  have hds : ∀ e ∈ ds, InKeys e := fun e he => hkeys.of_le (hle e he)
  have hweek : now.back ((now.dayOfWeek + 7 - saturday) % 7) = sat :=
    Date.Latest.unique (Date.latest_back (by decide) (by decide) (by unfold keepDays at h400; omega)) hsat
  rw [hweek]
  have hfold := foldl_count (dayKey now) (dayKey sat) (String.ofList ((dayKey now).toList.take 7))
    (buckets calls ds) 0 0 0 0 0 0
  simp only [toLong_zero, Int.zero_add] at hfold
  rw [hfold]
  have hday := sumKeys_buckets (p := (· == dayKey now)) (· = now) H.nodup
    (fun e he => by rw [Bool.eq_iff_iff, beq_iff_eq, decide_eq_true_eq, dayKey_inj (hds e he) hkeys])
    (fun c hc he => H.recent hpast hnow hc (by rw [he]; omega))
  have hsaturday : now.dayNumber ≤ sat.dayNumber + keepDays := by
    have hback := Date.dayNumber_back (d := now) (k := (now.dayOfWeek + 7 - saturday) % 7)
      (by unfold keepDays at h400; omega)
    rw [hweek] at hback
    unfold keepDays
    omega
  have hweekSum := sumKeys_buckets (p := fun k => !decide (k < dayKey sat))
    (fun e => sat ≤ e ∧ e ≤ now) H.nodup
    (fun e he => by
      rw [Bool.eq_iff_iff, Bool.not_eq_true', decide_eq_false_iff_not, decide_eq_true_eq,
        dayKey_lt (hds e he) (hkeys.of_le hsat.le), not_lt]
      exact ⟨fun h => ⟨h, hle e he⟩, And.left⟩)
    (fun c hc he => H.recent hpast hnow hc (by
      have hge := he.1
      rw [Date.le_iff] at hge
      omega))
  have hmonth := sumKeys_buckets
    (p := fun k => (String.ofList ((dayKey now).toList.take 7)).toList.isPrefixOf k.toList)
    (fun e => e.year = now.year ∧ e.month = now.month) H.nodup
    (fun e he => by rw [Bool.eq_iff_iff, decide_eq_true_eq, monthPrefix_iff hkeys (hds e he)])
    (fun c hc he => H.recent hpast hnow hc (by
      have hlt := Date.dayNumber_lt_of_same_month he.1.symm he.2.symm
      unfold keepDays
      omega))
  simp only [hday, hweekSum, hmonth, windows]

end Exact

/-- There are at most 401 days from the cutoff to the last call. -/
theorem length_days_le {ds : List Date} {last : Date} (hnodup : ds.Nodup)
    (hpast : keepDays < last.dayNumber) (hds : ∀ e ∈ ds, last.back keepDays ≤ e ∧ e ≤ last) :
    ds.length ≤ keepDays + 1 := by
  have hback := Date.dayNumber_back hpast
  have hnumbers : (ds.map Date.dayNumber).Nodup := hnodup.map Date.dayNumber_injective
  have hsubset : ds.map Date.dayNumber ⊆ List.range' (last.dayNumber - keepDays) (keepDays + 1) := by
    intro n hn
    obtain ⟨e, he, rfl⟩ := List.mem_map.mp hn
    obtain ⟨hlo, hhi⟩ := hds e he
    rw [Date.le_iff] at hlo hhi
    rw [List.mem_range'_1]
    omega
  have hle := (hnumbers.subperm hsubset).length_le
  rw [List.length_map, List.length_range'] at hle
  exact hle

section Main

variable (doubles : Doubles) (truncate : String → Option Int)

/-- The keys of the buckets that are kept for a profile. -/
def keys (prefs : Prefs) (uuid : Uuid) : List String := (readDays doubles truncate (prefs uuid)).map Prod.fst

/-- The last call is on the latest day. -/
theorem Proper.le_last {uuid : Uuid} {calls : List UsageCall} (h : Proper uuid calls)
    {last : UsageCall} (hlast : last ∈ (callsOf uuid calls).getLast?) :
    ∀ c ∈ callsOf uuid calls, c.day ≤ last.day := by
  intro c hc
  have hsplit := List.dropLast_append_getLast? last hlast
  have hsorted := h.sorted
  rw [← hsplit] at hc hsorted
  rw [List.map_append, List.pairwise_append] at hsorted
  rcases List.mem_append.mp hc with hc | hc
  · exact hsorted.2.2 c.day (List.mem_map_of_mem hc) last.day List.mem_cons_self
  · rw [List.mem_singleton.mp hc]

/-- **The usage history is exact**: after a run of calls from an empty store, the totals on a day not
    before the last call for the profile are the sums of the amounts of the day, since the latest
    Saturday and of the month. Of the days with a call, those at most 400 days before the last one
    have a bucket, and no others; there are at most 401. -/
theorem usage_exact {prefs : Prefs} {uuid : Uuid} (h₀ : prefs uuid = none) {calls : List UsageCall}
    (h : Proper uuid calls) :
    (∀ now sat : Date, 1000 ≤ now.year → now.year ≤ 9999 → (∀ c ∈ callsOf uuid calls, c.day ≤ now) →
      Date.Latest saturday sat now → (windows (callsOf uuid calls) now sat).Fits →
      totals doubles truncate (addAll doubles truncate prefs calls) uuid now =
        windows (callsOf uuid calls) now sat) ∧
    (∀ last ∈ (callsOf uuid calls).getLast?, ∀ k,
      k ∈ keys doubles truncate (addAll doubles truncate prefs calls) uuid ↔
        ∃ c ∈ callsOf uuid calls, dayKey c.day = k ∧ last.day.back keepDays ≤ c.day) ∧
    (keys doubles truncate (addAll doubles truncate prefs calls) uuid).length ≤ keepDays + 1 := by
  obtain ⟨ds, hread, H⟩ := recorded_addAll doubles truncate h₀ h
  have hpast : ∀ c ∈ callsOf uuid calls, keepDays < c.day.dayNumber := fun c hc =>
    keepDays_lt (h.years c hc).1
  have hkeys : keys doubles truncate (addAll doubles truncate prefs calls) uuid = ds.map dayKey := by
    rw [keys, hread, buckets, List.map_map]
    rfl
  rw [hkeys]
  refine ⟨fun now sat hlo hhi hnow hsat hfits => ?_, fun last hlast k => ?_, ?_⟩
  · have htotals := totals_buckets H hpast hnow (Nat.lt_of_le_of_lt hhi (by omega)) hsat (keepDays_lt hlo)
    obtain ⟨⟨hdi, hdo⟩, ⟨hwi, hwo⟩, hmi, hmo⟩ := hfits
    unfold totals
    simp only [hread]
    rw [htotals, toLong_eq hdi, toLong_eq hdo, toLong_eq hwi, toLong_eq hwo, toLong_eq hmi,
      toLong_eq hmo]
  · have hle := h.le_last hlast
    have hmem : last ∈ callsOf uuid calls := List.mem_of_getLast? hlast
    rw [List.mem_map]
    constructor
    · intro hk
      obtain ⟨e, he, hek⟩ := hk
      obtain ⟨⟨c, hc, rfl⟩, hcut⟩ := (H.mem e).mp he
      exact ⟨c, hc, hek, hcut last hmem⟩
    · intro hk
      obtain ⟨c, hc, hck, hcut⟩ := hk
      refine ⟨c.day, (H.mem c.day).mpr ⟨⟨c, hc, rfl⟩, fun b hb => ?_⟩, hck⟩
      exact le_trans (back_mono (hpast b hb) (hle b hb)) hcut
  · rw [List.length_map]
    cases hlast : (callsOf uuid calls).getLast? with
    | none =>
      have hnil : ds = [] := by
        rw [List.eq_nil_iff_forall_not_mem]
        intro e he
        obtain ⟨⟨c, hc, -⟩, -⟩ := (H.mem e).mp he
        rw [List.getLast?_eq_none_iff.mp hlast] at hc
        cases hc
      rw [hnil]
      exact Nat.zero_le _
    | some last =>
      have hmem : last ∈ callsOf uuid calls := List.mem_of_getLast? hlast
      refine length_days_le H.nodup (hpast last hmem) fun e he => ?_
      obtain ⟨⟨c, hc, rfl⟩, hcut⟩ := (H.mem e).mp he
      exact ⟨hcut last hmem, h.le_last hlast c hc⟩

end Main

/-- Nothing has been kept yet. -/
def noPrefs : Prefs := fun _ => none

/-- A day of August 2026. -/
def august (day : Nat) (h : 1 ≤ day ∧ day ≤ 31 := by decide) : Date :=
  ⟨2026, 8, day, by decide, by decide, by decide, h.1, h.2⟩

/-- The Friday, the Saturday, the Sunday before and the Tuesday; the Sunday is another profile's. -/
def fourCalls : List UsageCall :=
  [⟨"wg1", august 14, 5, 1⟩, ⟨"wg1", august 15, 70, 20⟩,
    ⟨"xray1", august 9, 9, 9⟩, ⟨"wg1", august 18, 300, 0⟩]

theorem usage_exact_august :
    totals (fun _ => none) (fun _ => none)
        (addAll (fun _ => none) (fun _ => none) noPrefs fourCalls) "wg1" (august 18) =
      ⟨300, 0, 370, 20, 375, 21⟩ := by
  have hproper : Proper "wg1" fourCalls := by
    refine ⟨?_, ?_, ?_⟩
    · decide
    · decide
    · decide
  have hback : (august 18).back (((august 18).dayOfWeek + 7 - saturday) % 7) = august 15 := by decide
  have hsat := Date.latest_back (w := saturday) (d := august 18) (by decide) (by decide) (by decide)
  rw [hback] at hsat
  have hwindows : windows (callsOf "wg1" fourCalls) (august 18) (august 15) =
      ⟨300, 0, 370, 20, 375, 21⟩ := by decide
  have hempty : noPrefs "wg1" = none := rfl
  have hexact := (usage_exact (fun _ => none) (fun _ => none) hempty hproper).1 (august 18)
    (august 15) (by decide) (by decide) (by decide) hsat
  rw [hwindows] at hexact
  exact hexact (by unfold Totals.Fits IsLong; decide)

end UsageHistoryStore

end SwiftVpn
