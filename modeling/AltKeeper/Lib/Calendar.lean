import Mathlib.Algebra.BigOperators.Intervals
import Mathlib.Algebra.Order.BigOperators.Group.Finset
import Mathlib.Tactic.IntervalCases

-- The proleptic Gregorian calendar, counted in days by its leap years and the lengths of its months.
namespace Calendar

-- Every fourth year, but of the centuries only every fourth.
abbrev Leap (year : Nat) : Prop := year % 4 = 0 ∧ (year % 100 = 0 → year % 400 = 0)

def month_length (year month : Nat) : Nat :=
  if month = 2 then if Leap year then 29 else 28
  else if month = 4 ∨ month = 6 ∨ month = 9 ∨ month = 11 then 30
  else 31

def year_length (year : Nat) : Nat := ∑ month ∈ Finset.Ico 1 13, month_length year month

@[ext]
structure Date where
  year : Nat
  month : Nat
  day : Nat
  month_pos : 1 ≤ month
  month_le : month ≤ 12
  day_pos : 1 ≤ day
  day_le : day ≤ month_length year month

@[ext]
structure Time extends Date where
  hour : Nat
  minute : Nat
  second : Nat
  hour_lt : hour < 24
  minute_lt : minute < 60
  second_lt : second < 60

-- The days from the first of January of `epoch`.
def days_since (epoch : Nat) (date : Date) : Nat :=
  ∑ year ∈ Finset.Ico epoch date.year, year_length year +
    ∑ month ∈ Finset.Ico 1 date.month, month_length date.year month + (date.day - 1)

def seconds_since (epoch : Nat) (time : Time) : Nat :=
  86400 * days_since epoch time.toDate + 3600 * time.hour + 60 * time.minute + time.second

section Lengths

theorem month_length_le (year month : Nat) : month_length year month ≤ 31 := by
  rw [month_length]
  split_ifs <;> decide

theorem february (year : Nat) : month_length year 2 = if Leap year then 29 else 28 := if_pos rfl

example : (month_length 1900 2, month_length 2000 2) = (28, 29) := by decide

theorem year_length_february (year : Nat) : year_length year = 337 + month_length year 2 := by
  simp [year_length, Finset.sum_Ico_succ_top, month_length]
  omega

-- From March on the days before a month are one quotient, whatever the year.
theorem sum_month_length (year : Nat) {months : Nat} (h : months < 10) :
    ∑ month ∈ Finset.Ico 1 (months + 3), month_length year month =
      31 + month_length year 2 + (153 * months + 2) / 5 := by
  induction months with
  | zero => rfl
  | succ months ih =>
      have hmonth : month_length year (months + 3) + (153 * months + 2) / 5 =
          (153 * (months + 1) + 2) / 5 := by
        have hlt : months < 9 := by omega
        clear ih h
        interval_cases months <;> rfl
      change ∑ month ∈ Finset.Ico 1 (months + 3 + 1), month_length year month = _
      rw [Finset.sum_Ico_succ_top (by omega), ih (by omega), ← hmonth]
      omega

end Lengths

section March

-- The days from the first of March of the year 0 to that of `year`.
def march_start (year : Nat) : Nat := 365 * year + year / 4 + year / 400 - year / 100

-- From one first of March to the next there are eleven months of 337 days, and a February.
theorem march_start_succ (year : Nat) :
    march_start (year + 1) = march_start year + 337 + month_length (year + 1) 2 := by
  have hstart : ∀ y, march_start y + y / 100 = 365 * y + y / 4 + y / 400 := fun y =>
    Nat.sub_add_cancel (by omega)
  have hthis := hstart year
  have hnext := hstart (year + 1)
  rw [Nat.succ_div, Nat.succ_div, Nat.succ_div] at hnext
  generalize march_start (year + 1) = next at hnext ⊢
  generalize march_start year = this at hthis ⊢
  rw [february]
  unfold Leap
  by_cases hfour : 4 ∣ year + 1
  · by_cases hcentury : 100 ∣ year + 1
    · by_cases hcycle : 400 ∣ year + 1
      · rw [if_pos hfour, if_pos hcentury, if_pos hcycle] at hnext
        rw [if_pos (by omega)]
        omega
      · rw [if_pos hfour, if_pos hcentury, if_neg hcycle] at hnext
        rw [if_neg (by omega)]
        omega
    · rw [if_pos hfour, if_neg hcentury, if_neg (by omega)] at hnext
      rw [if_pos (by omega)]
      omega
  · rw [if_neg hfour, if_neg (by omega), if_neg (by omega)] at hnext
    rw [if_neg (by omega)]
    omega

-- A day of the twelve months from March on, which end with the February of the next year.
structure MarchDay where
  year : Nat
  day : Nat
  day_lt : day < 337 + month_length (year + 1) 2

theorem MarchDay.day_le (date : MarchDay) : date.day ≤ 365 := by
  have h := date.day_lt
  rw [february] at h
  split_ifs at h <;> omega

-- The months from March on, by the quotient that inverts the one of their first days.
def MarchDay.months (date : MarchDay) : Nat := (5 * date.day + 2) / 153

theorem MarchDay.months_le (date : MarchDay) : date.months ≤ 11 := by
  have h := date.day_le
  unfold MarchDay.months
  omega

def MarchDay.date (date : MarchDay) : Date where
  year := if date.months < 10 then date.year else date.year + 1
  month := if date.months < 10 then date.months + 3 else date.months - 9
  day := date.day - (153 * date.months + 2) / 5 + 1
  month_pos := by split_ifs <;> omega
  month_le := by
    have h := date.months_le
    split_ifs <;> omega
  day_pos := Nat.le_add_left 1 _
  day_le := by
    have h := date.day_lt
    have hle := date.months_le
    have hday : date.months = (5 * date.day + 2) / 153 := rfl
    by_cases hmonths : date.months < 10
    · rw [if_pos hmonths, if_pos hmonths, month_length, if_neg (by omega)]
      split_ifs <;> omega
    · rw [if_neg hmonths, if_neg hmonths]
      by_cases hten : date.months = 10
      · rw [hten] at hday ⊢
        rw [month_length, if_neg (by decide), if_neg (by decide)]
        omega
      · have heleven : date.months = 11 := by omega
        rw [heleven] at hday ⊢
        change _ ≤ month_length (date.year + 1) 2
        omega

-- The years below one, with its January and February, make the years from March on.
theorem sum_years_march (year : Nat) :
    ∑ y ∈ Finset.Ico 0 year, year_length y + 31 + month_length year 2 = 60 + march_start year := by
  induction year with
  | zero => rfl
  | succ year ih =>
      rw [Finset.sum_Ico_succ_top (Nat.zero_le year), year_length_february, march_start_succ]
      omega

theorem days_since_march (date : MarchDay) :
    days_since 0 date.date = 60 + march_start date.year + date.day := by
  have hyears := sum_years_march date.year
  have hday : date.months = (5 * date.day + 2) / 153 := rfl
  have hle := date.months_le
  rw [days_since]
  by_cases hmonths : date.months < 10
  · simp only [MarchDay.date, if_pos hmonths]
    rw [sum_month_length date.year hmonths]
    omega
  · -- January and February are of the next year, 306 days after the first of March
    have hnext : ∑ y ∈ Finset.Ico 0 (date.year + 1), year_length y = 366 + march_start date.year := by
      rw [Finset.sum_Ico_succ_top (Nat.zero_le _), year_length_february]
      omega
    simp only [MarchDay.date, if_neg hmonths]
    rw [hnext]
    by_cases hten : date.months = 10
    · rw [hten] at hday ⊢
      change 366 + march_start date.year + 0 + _ = _
      omega
    · have heleven : date.months = 11 := by omega
      rw [heleven] at hday ⊢
      change 366 + march_start date.year + 31 + _ = _
      omega

end March

section Cycle

-- A day of a cycle of four hundred years from March on, by the centuries, the fours of years, the
-- years and the days before it. Only a leap year has a day 365.
structure CycleDay where
  centuries : Nat
  fours : Nat
  years : Nat
  day : Nat
  centuries_le : centuries ≤ 3
  fours_le : fours ≤ 24
  years_le : years ≤ 3
  day_le : day ≤ 365
  leap : day = 365 → years = 3 ∧ (fours = 24 → centuries = 3)

def CycleDay.number (cycle : CycleDay) : Nat :=
  36524 * cycle.centuries + 1461 * cycle.fours + 365 * cycle.years + cycle.day

def CycleDay.year (cycle : CycleDay) : Nat :=
  100 * cycle.centuries + 4 * cycle.fours + cycle.years

theorem CycleDay.number_lt (cycle : CycleDay) : cycle.number < 146097 := by
  obtain ⟨c, q, r, d, hc, hq, hr, hd, hleap⟩ := cycle
  simp only [CycleDay.number]
  omega

theorem CycleDay.year_lt (cycle : CycleDay) : cycle.year < 400 := by
  obtain ⟨c, q, r, d, hc, hq, hr, hd, hleap⟩ := cycle
  simp only [CycleDay.year]
  omega

-- Parts of one length, but for one day more at the end of the last.
theorem exists_part (size count : Nat) {n : Nat} (hsize : 0 < size) (hcount : 0 < count)
    (h : n ≤ size * count) :
    ∃ q r, q < count ∧ r ≤ size ∧ n = size * q + r ∧ (r = size → q + 1 = count) := by
  by_cases hlast : n = size * count
  · refine ⟨count - 1, size, by omega, Nat.le_refl size, ?_, fun _ => Nat.sub_add_cancel hcount⟩
    rw [hlast, ← Nat.mul_succ, Nat.succ_eq_add_one, Nat.sub_add_cancel hcount]
  · have hrest := Nat.mod_lt n hsize
    exact ⟨n / size, n % size, Nat.div_lt_of_lt_mul (by omega), by omega,
      (Nat.div_add_mod n size).symm, fun h => by omega⟩

theorem exists_cycleDay {n : Nat} (h : n < 146097) : ∃ cycle : CycleDay, cycle.number = n := by
  obtain ⟨c, m, hc, hm, hn, hlast⟩ := exists_part 36524 4 (by decide) (by decide)
    (Nat.le_of_lt_succ h)
  obtain ⟨k, hk⟩ : ∃ k, k = m % 1461 := ⟨_, rfl⟩
  obtain ⟨r, d, hr, hd, hyear, hleap⟩ := exists_part 365 4 (by decide) (by decide)
    (by omega : k ≤ 365 * 4)
  refine ⟨⟨c, m / 1461, r, d, by omega, by omega, by omega, hd, fun h365 => ⟨by omega, ?_⟩⟩, ?_⟩
  · omega
  · change 36524 * c + 1461 * (m / 1461) + 365 * r + d = n
    omega

-- The year of a day of the cycle by quotients: a day is taken off for every leap day before it.
theorem CycleDay.year_eq (cycle : CycleDay) :
    (cycle.number - cycle.number / 1460 + cycle.number / 36524 - cycle.number / 146096) / 365 =
      cycle.year := by
  obtain ⟨c, q, r, d, hc, hq, hr, hd, hleap⟩ := cycle
  simp only [CycleDay.number, CycleDay.year]
  -- the last day of the cycle counts as a century more
  have hcenturies : (36524 * c + 1461 * q + 365 * r + d) / 36524 =
      c + (36524 * c + 1461 * q + 365 * r + d) / 146096 := by
    obtain hrest | ⟨hrest, rfl⟩ : 1461 * q + 365 * r + d < 36524 ∨
        1461 * q + 365 * r + d = 36524 ∧ c = 3 := by omega
    · have hcentury : (36524 * c + 1461 * q + 365 * r + d) / 36524 = c := by omega
      have hcycle : (36524 * c + 1461 * q + 365 * r + d) / 146096 = 0 := by omega
      rw [hcentury, hcycle, Nat.add_zero]
    · omega
  -- a leap day counts from some day of its year on
  obtain ⟨e, he, hfours, hfirst, hlast⟩ : ∃ e ≤ 1,
      (36524 * c + 1461 * q + 365 * r + d) / 1460 = 25 * c + q + e ∧ (d = 0 → e = 0) ∧
        (d = 365 → e = 1) :=
    ⟨(24 * c + q + 365 * r + d) / 1460, by omega⟩
  rw [hfours, hcenturies]
  omega

theorem CycleDay.number_eq (cycle : CycleDay) :
    cycle.number = 365 * cycle.year + cycle.year / 4 - cycle.year / 100 + cycle.day := by
  obtain ⟨c, q, r, d, hc, hq, hr, hd, hleap⟩ := cycle
  simp only [CycleDay.number, CycleDay.year]
  omega

-- The cycles are all alike, so a day of one is a day of the calendar.
def CycleDay.march (era : Nat) (cycle : CycleDay) : MarchDay where
  year := 400 * era + cycle.year
  day := cycle.day
  day_lt := by
    obtain ⟨c, q, r, d, hc, hq, hr, hd, hleap⟩ := cycle
    simp only [CycleDay.year]
    rw [february]
    by_cases h365 : d = 365
    · have hlast := hleap h365
      rw [if_pos (by unfold Leap; omega)]
      omega
    · split_ifs <;> omega

theorem march_start_cycle (era : Nat) (cycle : CycleDay) :
    march_start (400 * era + cycle.year) + cycle.day = 146097 * era + cycle.number := by
  obtain ⟨c, q, r, d, hc, hq, hr, hd, hleap⟩ := cycle
  simp only [march_start, CycleDay.number, CycleDay.year]
  omega

end Cycle

section Epoch

-- The time so many seconds after the date begins.
def Date.after (date : Date) {seconds : Nat} (h : seconds < 86400) : Time where
  toDate := date
  hour := seconds / 3600
  minute := seconds % 3600 / 60
  second := seconds % 60
  hour_lt := by omega
  minute_lt := by omega
  second_lt := by omega

theorem seconds_since_after (epoch : Nat) (date : Date) {seconds : Nat} (h : seconds < 86400) :
    seconds_since epoch (date.after h) = 86400 * days_since epoch date + seconds := by
  simp only [seconds_since, Date.after]
  omega

theorem days_since_zero {epoch : Nat} {date : Date} (h : epoch ≤ date.year) :
    days_since 0 date = ∑ year ∈ Finset.Ico 0 epoch, year_length year + days_since epoch date := by
  rw [days_since, days_since, ← Finset.sum_Ico_consecutive year_length (Nat.zero_le epoch) h,
    Nat.add_assoc, Nat.add_assoc, Nat.add_assoc]

theorem days_since_lt (date : Date) :
    days_since 0 date < ∑ year ∈ Finset.Ico 0 (date.year + 1), year_length year := by
  have hday := date.day_pos
  have hlen := date.day_le
  have hmonths : ∑ month ∈ Finset.Ico 1 (date.month + 1), month_length date.year month ≤
      year_length date.year :=
    Finset.sum_le_sum_of_subset
      (Finset.Ico_subset_Ico_right (Nat.add_le_add_right date.month_le 1))
  rw [Finset.sum_Ico_succ_top date.month_pos] at hmonths
  rw [days_since, Finset.sum_Ico_succ_top (Nat.zero_le _)]
  omega

theorem epoch_le {epoch : Nat} {date : Date}
    (h : ∑ year ∈ Finset.Ico 0 epoch, year_length year ≤ days_since 0 date) : epoch ≤ date.year := by
  by_contra hnot
  have hyears : ∑ year ∈ Finset.Ico 0 (date.year + 1), year_length year ≤
      ∑ year ∈ Finset.Ico 0 epoch, year_length year :=
    Finset.sum_le_sum_of_subset (Finset.Ico_subset_Ico_right (Nat.lt_of_not_le hnot))
  have hlt := days_since_lt date
  omega

end Epoch

end Calendar
