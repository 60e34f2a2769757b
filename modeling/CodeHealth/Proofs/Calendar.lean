import CodeHealth.Instant
import Mathlib.Tactic.IntervalCases
import Mathlib.Tactic.Linarith

/-!
Days and dates.

Four centuries have 146097 days. A day of them is split into centuries, groups of four years, years
and days of a year that starts in March, so that leap days come last. From this split the date of a
day is computed without a table, and its number of days is the day again.
-/

namespace CodeHealth.Proofs.Calendar

open CodeHealth.Instant

/-- A day of four centuries: centuries, groups of four years in the century, years in the group,
and days `k` of the year. A year has a day more if it is the last one of its group, but for the last
group of a century that is not the fourth. -/
structure Split (c q r k : ℤ) : Prop where
  century : 0 ≤ c ∧ c ≤ 3
  group : 0 ≤ q ∧ q ≤ 24
  year : 0 ≤ r ∧ r ≤ 3
  day : 0 ≤ k ∧ k ≤ 365
  leap : k = 365 → r = 3 ∧ (q = 24 → c = 3)

/-- The number of the day that is split. -/
def joined (c q r k : ℤ) : ℤ := 36524 * c + 1461 * q + 365 * r + k

lemma exists_split {n : ℤ} (h : 0 ≤ n) (hn : n < 146097) :
    ∃ c q r k, Split c q r k ∧ joined c q r k = n := by
  obtain ⟨c, hc⟩ : ∃ c, c = min (n / 36524) 3 := ⟨_, rfl⟩
  obtain ⟨m, hm⟩ : ∃ m, m = n - 36524 * c := ⟨_, rfl⟩
  have hcentury : 0 ≤ m ∧ m ≤ 36524 ∧ (m = 36524 → c = 3) := by omega
  obtain ⟨q, hq⟩ : ∃ q, q = m / 1461 := ⟨_, rfl⟩
  obtain ⟨l, hl⟩ : ∃ l, l = m - 1461 * q := ⟨_, rfl⟩
  obtain ⟨r, hr⟩ : ∃ r, r = min (l / 365) 3 := ⟨_, rfl⟩
  refine ⟨c, q, r, l - 365 * r, ⟨by omega, by omega, by omega, by omega, by omega⟩, ?_⟩
  rw [joined]
  omega

section

variable {c q r k : ℤ}

/-- **The year of a day** is found by division, once the leap days before it are left out. -/
theorem year_of_split (h : Split c q r k) {n : ℤ} (hn : n = joined c q r k) :
    (n - n / 1460 + n / 36524 - n / 146096) / 365 = 100 * c + 4 * q + r := by
  obtain ⟨hc, hq, hr, hk, hleap⟩ := h
  rw [joined] at hn
  -- a group of four years is a day longer than 1460 days, so the quotient may run ahead by one
  obtain ⟨e, he, hquot⟩ : ∃ e, (0 ≤ k - e ∧ k - e < 365) ∧ n / 1460 = 25 * c + q + e := by
    by_cases hover : 1460 ≤ 24 * c + q + 365 * r + k
    · exact ⟨1, by omega, by omega⟩
    · exact ⟨0, by omega, by omega⟩
  -- the last day of all is the only one behind its century
  have hlast : n / 36524 - n / 146096 = c := by
    by_cases hend : n = 146096
    · omega
    · have hin : 1461 * q + 365 * r + k < 36524 := by omega
      omega
  have hsum : n - n / 1460 + n / 36524 - n / 146096 = 365 * (100 * c + 4 * q + r) + (k - e) := by
    omega
  rw [hsum]
  omega

/-- The date of a day of a year that starts in March. -/
def dateInYear (y k : ℤ) : ℤ × ℕ × ℕ :=
  let m := (5 * k + 2) / 153
  let month := if m < 10 then m + 3 else m - 9
  (y + (if month ≤ 2 then 1 else 0), month.toNat, (k - (153 * m + 2) / 5 + 1).toNat)

def yearOf (era c q r : ℤ) : ℤ := 100 * c + 4 * q + r + era * 400

lemma dateOfDays_split (h : Split c q r k) {days era : ℤ}
    (hdays : days + 719468 = era * 146097 + joined c q r k) :
    dateOfDays days = dateInYear (yearOf era c q r) k := by
  have hera : (days + 719468) / 146097 = era ∧ (days + 719468) % 146097 = joined c q r k := by
    obtain ⟨hc, hq, hr, hk, hleap⟩ := h
    rw [joined] at hdays ⊢
    omega
  have hk : joined c q r k - (365 * (100 * c + 4 * q + r) + (100 * c + 4 * q + r) / 4 -
      (100 * c + 4 * q + r) / 100) = k := by
    obtain ⟨hc, hq, hr, -, -⟩ := h
    rw [joined]
    omega
  have hyear := year_of_split h rfl
  simp only [dateOfDays, hera.1, hera.2, hyear, hk, dateInYear, yearOf]

lemma isLeapYear_of_split (h : Split c q r k) (hk : k = 365) (era : ℤ) :
    isLeapYear (yearOf era c q r + 1) = true := by
  obtain ⟨hc, hq, -, -, hleap⟩ := h
  obtain ⟨hr, hlast⟩ := hleap hk
  have h4 : (yearOf era c q r + 1) % 4 = 0 := by
    rw [yearOf]
    omega
  have h100 : (yearOf era c q r + 1) % 100 ≠ 0 ∨ (yearOf era c q r + 1) % 400 = 0 := by
    rw [yearOf]
    omega
  simpa [isLeapYear, h4] using h100

/-- **A day of a year is a date of the calendar**, and the date is that day of the year. -/
theorem date_of_day {y y' : ℤ} {m d : ℕ} (hk : 0 ≤ k ∧ k ≤ 365)
    (hleap : k = 365 → isLeapYear (y' + 1) = true) (hdate : dateInYear y' k = (y, m, d)) :
    ((1 ≤ m ∧ m ≤ 12) ∧ 1 ≤ d ∧ d ≤ daysInMonth y m) ∧
      (if m ≤ 2 then y - 1 else y) = y' ∧
      ((153 * ((m + 9) % 12) + 2) / 5 + d - 1 : ℕ) = k := by
  obtain ⟨i, hi⟩ : ∃ i, i = (5 * k + 2) / 153 := ⟨_, rfl⟩
  have hrange : 0 ≤ i ∧ i ≤ 11 := by omega
  simp only [dateInYear, ← hi, Prod.mk.injEq] at hdate
  obtain ⟨rfl, rfl, rfl⟩ := hdate
  obtain ⟨hi0, hi11⟩ := hrange
  interval_cases i
  case «11» =>
    have hfeb : daysInMonth (y' + 1) 2 = if isLeapYear (y' + 1) then 29 else 28 := rfl
    by_cases hlast : k = 365
    · simp [hlast, hfeb, hleap hlast]
    · have hd : (k - 337 + 1).toNat ≤ 28 := by omega
      have hle : 28 ≤ daysInMonth (y' + 1) 2 := by
        rw [hfeb]
        split_ifs <;> decide
      simp
      omega
  all_goals
    simp [daysInMonth]
    omega

end

/-- **The date of a day is a date of the calendar**, and the number of days up to it is the day. -/
theorem dateOfDays_date {days y : ℤ} {m d : ℕ} (h : dateOfDays days = (y, m, d)) :
    ((1 ≤ m ∧ m ≤ 12) ∧ 1 ≤ d ∧ d ≤ daysInMonth y m) ∧ daysOfDate y m d = days := by
  obtain ⟨era, hera⟩ : ∃ era, era = (days + 719468) / 146097 := ⟨_, rfl⟩
  obtain ⟨n, hn⟩ : ∃ n, n = days + 719468 - era * 146097 := ⟨_, rfl⟩
  have hrange : 0 ≤ n ∧ n < 146097 := by omega
  obtain ⟨c, q, r, k, hsplit, hjoined⟩ := exists_split hrange.1 hrange.2
  rw [dateOfDays_split hsplit (by omega : days + 719468 = era * 146097 + joined c q r k)] at h
  obtain ⟨hdate, hyear, hday⟩ :=
    date_of_day hsplit.day (fun hk => isLeapYear_of_split hsplit hk era) h
  refine ⟨hdate, ?_⟩
  have hstart : yearOf era c q r / 400 = era ∧ yearOf era c q r % 400 = 100 * c + 4 * q + r := by
    obtain ⟨hc, hq, hr, -, -⟩ := hsplit
    rw [yearOf]
    omega
  have hleaps : (100 * c + 4 * q + r) * 365 + (100 * c + 4 * q + r) / 4 -
      (100 * c + 4 * q + r) / 100 = joined c q r 0 := by
    obtain ⟨hc, hq, hr, -, -⟩ := hsplit
    rw [joined]
    omega
  have hsum : joined c q r 0 + k = joined c q r k := by
    simp only [joined]
    omega
  simp only [daysOfDate, hyear, hstart.1, hstart.2, hleaps, hday, hsum]
  omega

end CodeHealth.Proofs.Calendar
