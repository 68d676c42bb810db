/-
  File:      SwiftVpn/Lib/Calendar.lean
  Subject:   THE DAYS OF THE GREGORIAN CALENDAR.

  * `Date` -- a day of the calendar; one that does not exist cannot be written down;
  * `dayNumber` -- the number of the day, counted from the first day of year 1; the days are ordered
    by it, which is the order by year, month and day (`Date.lt_iff`);
  * `prev`, `back` -- the day before, and the day some days before (`dayNumber_back`);
  * `dayOfWeek` -- from Sunday (1) to Saturday (7), one further every day.

  The calendar is carried on into the time before it was introduced.
-/
import Mathlib.Algebra.Order.Ring.Int
import Mathlib.Order.Nat

namespace Calendar

/-! ## 1. Months and years -/

/-- A leap year. -/
def IsLeap (year : Nat) : Prop := year % 4 = 0 ∧ (year % 100 ≠ 0 ∨ year % 400 = 0)

instance : DecidablePred IsLeap := fun _ => inferInstanceAs (Decidable (_ ∧ _))

/-- The days of a month. -/
def daysInMonth (year month : Nat) : Nat :=
  if month = 2 then if IsLeap year then 29 else 28
  else if month = 4 ∨ month = 6 ∨ month = 9 ∨ month = 11 then 30
  else 31

/-- The days of a year. -/
def daysInYear (year : Nat) : Nat := if IsLeap year then 366 else 365

/-- The days before the year. -/
def daysBeforeYear (year : Nat) : Nat :=
  365 * (year - 1) + (year - 1) / 4 + (year - 1) / 400 - (year - 1) / 100

/-- The days of the year before the month. -/
def daysBeforeMonth (year : Nat) : Nat → Nat
  | 0 | 1 => 0
  | month + 2 => daysBeforeMonth year (month + 1) + daysInMonth year (month + 1)

theorem daysBeforeYear_succ {year : Nat} (h : 1 ≤ year) :
    daysBeforeYear (year + 1) = daysBeforeYear year + daysInYear year := by
  obtain ⟨y, rfl⟩ : ∃ y, year = y + 1 := ⟨year - 1, by omega⟩
  have hdiv : ∀ k, (y + 1) / k = y / k + if (y + 1) % k = 0 then 1 else 0 := by
    intro k
    rw [Nat.succ_div]
    simp only [Nat.dvd_iff_mod_eq_zero]
  have hcentury : y / 100 ≤ y / 4 := by omega
  simp only [daysBeforeYear, daysInYear, IsLeap, Nat.add_sub_cancel, hdiv]
  generalize y / 4 = a at hcentury ⊢
  generalize y / 100 = b at hcentury ⊢
  generalize y / 400 = c
  by_cases h4 : (y + 1) % 4 = 0
  · by_cases h100 : (y + 1) % 100 = 0
    · by_cases h400 : (y + 1) % 400 = 0
      · simp only [h4, h100, h400, if_true, and_self, or_true]
        omega
      · simp only [h4, h100, h400, if_true, if_false, ne_eq, not_true_eq_false, or_self, and_false]
        omega
    · have h400 : (y + 1) % 400 ≠ 0 := by omega
      simp only [h4, h100, h400, if_true, if_false, ne_eq, not_false_eq_true, or_false, and_self]
      omega
  · have h100 : (y + 1) % 100 ≠ 0 := by omega
    have h400 : (y + 1) % 400 ≠ 0 := by omega
    simp only [h4, h100, h400, if_false, false_and]
    omega

theorem daysBeforeYear_mono {a b : Nat} (ha : 1 ≤ a) (h : a ≤ b) :
    daysBeforeYear a ≤ daysBeforeYear b := by
  induction h with
  | refl => exact Nat.le_refl _
  | @step b hab ih =>
    rw [daysBeforeYear_succ (Nat.le_trans ha hab)]
    exact Nat.le_trans ih (Nat.le_add_right _ _)

theorem daysBeforeMonth_succ (year : Nat) {month : Nat} (h : 1 ≤ month) :
    daysBeforeMonth year (month + 1) = daysBeforeMonth year month + daysInMonth year month := by
  obtain ⟨m, rfl⟩ : ∃ m, month = m + 1 := ⟨month - 1, by omega⟩
  rfl

theorem daysBeforeMonth_mono (year : Nat) {a b : Nat} (ha : 1 ≤ a) (h : a ≤ b) :
    daysBeforeMonth year a ≤ daysBeforeMonth year b := by
  induction h with
  | refl => exact Nat.le_refl _
  | @step b hab ih =>
    rw [daysBeforeMonth_succ year (Nat.le_trans ha hab)]
    exact Nat.le_trans ih (Nat.le_add_right _ _)

/-- The twelve months make up the year. -/
theorem daysBeforeMonth_end (year : Nat) : daysBeforeMonth year 13 = daysInYear year := by
  by_cases hleap : IsLeap year
  · simp [daysBeforeMonth, daysInMonth, daysInYear, hleap]
  · simp [daysBeforeMonth, daysInMonth, daysInYear, hleap]

theorem daysInMonth_le (year month : Nat) : daysInMonth year month ≤ 31 := by
  unfold daysInMonth
  split
  · split <;> omega
  · split <;> omega

theorem daysInMonth_pos (year month : Nat) : 1 ≤ daysInMonth year month := by
  unfold daysInMonth
  split
  · split <;> omega
  · split <;> omega

/-! ## 2. Days -/

/-- A day of the calendar. -/
@[ext]
structure Date where
  year : Nat
  month : Nat
  day : Nat
  one_le_year : 1 ≤ year
  one_le_month : 1 ≤ month
  month_le : month ≤ 12
  one_le_day : 1 ≤ day
  day_le : day ≤ daysInMonth year month
  deriving DecidableEq, Repr

namespace Date

/-- The number of the day. -/
def dayNumber (d : Date) : Nat := daysBeforeYear d.year + daysBeforeMonth d.year d.month + d.day

/-- The day is in its year. -/
theorem dayNumber_le (d : Date) : d.dayNumber ≤ daysBeforeYear (d.year + 1) := by
  have hmonth : daysBeforeMonth d.year (d.month + 1) ≤ daysBeforeMonth d.year 13 :=
    daysBeforeMonth_mono d.year (Nat.le_succ_of_le d.one_le_month) (Nat.succ_le_succ d.month_le)
  rw [daysBeforeMonth_succ d.year d.one_le_month, daysBeforeMonth_end] at hmonth
  have hday := d.day_le
  rw [dayNumber, daysBeforeYear_succ d.one_le_year]
  omega

theorem lt_dayNumber (d : Date) : daysBeforeYear d.year < d.dayNumber := by
  have hday := d.one_le_day
  unfold dayNumber
  omega

/-- An earlier year. -/
theorem dayNumber_lt_of_year {d e : Date} (h : d.year < e.year) : d.dayNumber < e.dayNumber :=
  calc d.dayNumber ≤ daysBeforeYear (d.year + 1) := d.dayNumber_le
    _ ≤ daysBeforeYear e.year := daysBeforeYear_mono (Nat.le_succ_of_le d.one_le_year) h
    _ < e.dayNumber := e.lt_dayNumber

/-- An earlier month of the same year. -/
theorem dayNumber_lt_of_month {d e : Date} (hy : d.year = e.year) (h : d.month < e.month) :
    d.dayNumber < e.dayNumber := by
  have hmonth := daysBeforeMonth_mono d.year (Nat.le_succ_of_le d.one_le_month) h
  rw [daysBeforeMonth_succ d.year d.one_le_month] at hmonth
  have hday := d.day_le
  have hone := e.one_le_day
  unfold dayNumber
  rw [← hy]
  omega

/-- By year, month and day. -/
def before (d e : Date) : Prop :=
  d.year < e.year ∨ d.year = e.year ∧ (d.month < e.month ∨ d.month = e.month ∧ d.day < e.day)

theorem dayNumber_lt_of_before {d e : Date} (h : d.before e) : d.dayNumber < e.dayNumber := by
  rcases h with hy | ⟨hy, hm | ⟨hm, hd⟩⟩
  · exact dayNumber_lt_of_year hy
  · exact dayNumber_lt_of_month hy hm
  · unfold dayNumber
    rw [hy, hm]
    omega

theorem before_or_eq (d e : Date) : d.before e ∨ d = e ∨ e.before d := by
  unfold before
  rcases Nat.lt_trichotomy d.year e.year with hy | hy | hy
  · exact .inl (.inl hy)
  · rcases Nat.lt_trichotomy d.month e.month with hm | hm | hm
    · exact .inl (.inr ⟨hy, .inl hm⟩)
    · rcases Nat.lt_trichotomy d.day e.day with hd | hd | hd
      · exact .inl (.inr ⟨hy, .inr ⟨hm, hd⟩⟩)
      · exact .inr (.inl (Date.ext hy hm hd))
      · exact .inr (.inr (.inr ⟨hy.symm, .inr ⟨hm.symm, hd⟩⟩))
    · exact .inr (.inr (.inr ⟨hy.symm, .inl hm⟩))
  · exact .inr (.inr (.inl hy))

/-- No two days have the same number. -/
theorem dayNumber_injective : Function.Injective dayNumber := by
  intro d e h
  rcases before_or_eq d e with hb | he | hb
  · exact absurd h (Nat.ne_of_lt (dayNumber_lt_of_before hb))
  · exact he
  · exact absurd h.symm (Nat.ne_of_lt (dayNumber_lt_of_before hb))

/-- The days in their order. -/
instance : LinearOrder Date := LinearOrder.lift' dayNumber dayNumber_injective

theorem le_iff {d e : Date} : d ≤ e ↔ d.dayNumber ≤ e.dayNumber := Iff.rfl

theorem lt_iff {d e : Date} : d < e ↔ d.dayNumber < e.dayNumber := Iff.rfl

/-- The order is that by year, month and day. -/
theorem lt_iff_before {d e : Date} : d < e ↔ d.before e := by
  refine ⟨fun h => ?_, dayNumber_lt_of_before⟩
  rcases before_or_eq d e with hb | rfl | hb
  · exact hb
  · exact absurd h (lt_irrefl d)
  · exact absurd (dayNumber_lt_of_before hb) (Nat.lt_asymm h)

/-- Days of one month are less than 31 days apart. -/
theorem dayNumber_lt_of_same_month {d e : Date} (hy : d.year = e.year) (hm : d.month = e.month) :
    d.dayNumber < e.dayNumber + 31 := by
  have hle := Nat.le_trans d.day_le (daysInMonth_le d.year d.month)
  have hone := e.one_le_day
  unfold dayNumber
  rw [hy, hm]
  omega

/-! ## 3. The days before -/

/-- The day before. -/
def prev (d : Date) : Date :=
  if hday : 1 < d.day then
    ⟨d.year, d.month, d.day - 1, d.one_le_year, d.one_le_month, d.month_le, Nat.le_sub_one_of_lt hday,
      Nat.le_trans (Nat.sub_le _ _) d.day_le⟩
  else if hmonth : 1 < d.month then
    ⟨d.year, d.month - 1, daysInMonth d.year (d.month - 1), d.one_le_year, Nat.le_sub_one_of_lt hmonth,
      Nat.le_trans (Nat.sub_le _ _) d.month_le, daysInMonth_pos _ _, Nat.le_refl _⟩
  else if hyear : 1 < d.year then
    ⟨d.year - 1, 12, 31, Nat.le_sub_one_of_lt hyear, Nat.le_add_left _ _, Nat.le_refl _,
      Nat.le_add_left _ _, Nat.le_refl _⟩
  else d

/-- The day before has the number before, if there is one. -/
theorem dayNumber_prev {d : Date} (h : 1 < d.dayNumber) : d.prev.dayNumber + 1 = d.dayNumber := by
  have hone := d.one_le_day
  unfold prev
  split
  · simp only [dayNumber]
    omega
  · rename_i hday
    have hday : d.day = 1 := by omega
    split
    · rename_i hmonth
      have hsplit := daysBeforeMonth_succ d.year (Nat.le_sub_one_of_lt hmonth)
      rw [Nat.sub_add_cancel d.one_le_month] at hsplit
      simp only [dayNumber, hsplit, hday, Nat.add_assoc]
    · rename_i hmonth
      have hmonth : d.month = 1 := by
        have := d.one_le_month
        omega
      split
      · rename_i hyear
        have hsplit := daysBeforeYear_succ (Nat.le_sub_one_of_lt hyear)
        rw [Nat.sub_add_cancel d.one_le_year, ← daysBeforeMonth_end,
          daysBeforeMonth_succ _ (by omega : 1 ≤ 12)] at hsplit
        have hlast : daysInMonth (d.year - 1) 12 = 31 := rfl
        have hfirst : daysBeforeMonth d.year 1 = 0 := rfl
        simp only [dayNumber, hsplit, hday, hmonth, hlast, hfirst]
        omega
      · rename_i hyear
        have hyear : d.year = 1 := by
          have := d.one_le_year
          omega
        have hnumber : d.dayNumber = 1 := by
          simp only [dayNumber, hday, hmonth, hyear]
          rfl
        omega

/-- The day `k` days before. -/
def back (d : Date) : Nat → Date
  | 0 => d
  | k + 1 => (d.back k).prev

theorem dayNumber_back {d : Date} {k : Nat} (h : k < d.dayNumber) :
    (d.back k).dayNumber + k = d.dayNumber := by
  induction k with
  | zero => rfl
  | succ k ih =>
    have hk := ih (Nat.lt_of_succ_lt h)
    have hprev : (d.back k).prev.dayNumber + 1 = (d.back k).dayNumber := dayNumber_prev (by omega)
    show (d.back k).prev.dayNumber + (k + 1) = d.dayNumber
    omega

/-- A year and more lies behind a day of the second year. -/
theorem lt_dayNumber_of_year {d : Date} {k : Nat} (h : k < d.year) : 365 * (k - 1) < d.dayNumber := by
  have hyear := d.lt_dayNumber
  have hcentury : (d.year - 1) / 100 ≤ (d.year - 1) / 4 := by omega
  unfold daysBeforeYear at hyear
  omega

/-! ## 4. Weeks -/

/-- The day of the week, from Sunday (1) to Saturday (7). -/
def dayOfWeek (d : Date) : Nat := d.dayNumber % 7 + 1

/-- `s` is the latest day `w` of the week up to and including `d`. -/
structure Latest (w : Nat) (s d : Date) : Prop where
  day : s.dayOfWeek = w
  le : s ≤ d
  none : ∀ e, s < e → e ≤ d → e.dayOfWeek ≠ w

/-- There is only one. -/
theorem Latest.unique {w : Nat} {s s' d : Date} (h : Latest w s d) (h' : Latest w s' d) : s = s' := by
  rcases lt_trichotomy s s' with hlt | he | hlt
  · exact absurd h'.day (h.none s' hlt h'.le)
  · exact he
  · exact absurd h.day (h'.none s hlt h.le)

/-- It is found by the distance between the days of the week. -/
theorem latest_back {w : Nat} {d : Date} (hw : 1 ≤ w) (hw' : w ≤ 7) (h : 7 ≤ d.dayNumber) :
    Latest w (d.back ((d.dayOfWeek + 7 - w) % 7)) d := by
  obtain ⟨k, hk⟩ : ∃ k, (d.dayOfWeek + 7 - w) % 7 = k := ⟨_, rfl⟩
  rw [hk]
  have hnumber : (d.back k).dayNumber + k = d.dayNumber := dayNumber_back (by omega)
  unfold dayOfWeek at hk
  refine ⟨?_, ?_, fun e hlt hle => ?_⟩
  · unfold dayOfWeek
    omega
  · rw [le_iff]
    omega
  · rw [le_iff] at hle
    rw [lt_iff] at hlt
    unfold dayOfWeek
    omega

/-- The first of March 2000, a Wednesday, comes after the 29th of February. -/
example : prev ⟨2000, 3, 1, by decide, by decide, by decide, by decide, by decide⟩ =
      ⟨2000, 2, 29, by decide, by decide, by decide, by decide, by decide⟩ ∧
    dayOfWeek ⟨2000, 3, 1, by decide, by decide, by decide, by decide, by decide⟩ = 4 := by decide

end Date

end Calendar
