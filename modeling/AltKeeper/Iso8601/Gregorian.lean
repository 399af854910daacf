import AltKeeper.Iso8601
import AltKeeper.Lib.Calendar

-- The date that is written is the one of the calendar, and no number overflows on the way to it.
namespace AltKeeper

open Calendar

namespace Apple

section Quotients

theorem yoe_eq (cycle : CycleDay) : yoe cycle.number = some (cycle.year : Int) := by
  have hyear := cycle.year_eq
  have hlt := cycle.number_lt
  generalize cycle.number = n at hyear hlt ⊢
  have hleap : I64.div n 1460 = some ((n / 1460 : Nat) : Int) :=
    I64.div_eq (by omega) (by omega) (by omega) (by omega)
  have hcentury : I64.div n 36524 = some ((n / 36524 : Nat) : Int) :=
    I64.div_eq (by omega) (by omega) (by omega) (by omega)
  have hcycle : I64.div n 146096 = some ((n / 146096 : Nat) : Int) :=
    I64.div_eq (by omega) (by omega) (by omega) (by omega)
  have hsub : I64.sub n (n / 1460 : Nat) = some ((n - n / 1460 : Nat) : Int) :=
    I64.sub_eq (by omega) (by omega)
  have hadd : I64.add (n - n / 1460 : Nat) (n / 36524 : Nat) =
      some ((n - n / 1460 + n / 36524 : Nat) : Int) :=
    I64.add_eq (by omega) (by omega)
  have hdays : I64.sub (n - n / 1460 + n / 36524 : Nat) (n / 146096 : Nat) =
      some ((n - n / 1460 + n / 36524 - n / 146096 : Nat) : Int) :=
    I64.sub_eq (by omega) (by omega)
  have hdiv : I64.div (n - n / 1460 + n / 36524 - n / 146096 : Nat) 365 = some (cycle.year : Int) :=
    I64.div_eq (by omega) (by omega) (by omega) (by omega)
  rw [yoe, I64.bind_eq hleap, I64.bind_eq hsub, I64.bind_eq hcentury, I64.bind_eq hadd,
    I64.bind_eq hcycle, I64.bind_eq hdays, hdiv]

theorem doy_eq (era : Nat) (cycle : CycleDay) :
    doy cycle.number cycle.year = some ((cycle.march era).day : Int) := by
  change _ = some (cycle.day : Int)
  have hday := cycle.number_eq
  have hlt := cycle.number_lt
  have hyear := cycle.year_lt
  generalize cycle.number = n at hday hlt ⊢
  generalize cycle.year = y at hday hyear ⊢
  have hmul : I64.mul 365 y = some ((365 * y : Nat) : Int) := I64.mul_eq (by omega) (by omega)
  have hleap : I64.div y 4 = some ((y / 4 : Nat) : Int) :=
    I64.div_eq (by omega) (by omega) (by omega) (by omega)
  have hadd : I64.add (365 * y : Nat) (y / 4 : Nat) = some ((365 * y + y / 4 : Nat) : Int) :=
    I64.add_eq (by omega) (by omega)
  have hcentury : I64.div y 100 = some ((y / 100 : Nat) : Int) :=
    I64.div_eq (by omega) (by omega) (by omega) (by omega)
  have hstart : I64.sub (365 * y + y / 4 : Nat) (y / 100 : Nat) =
      some ((365 * y + y / 4 - y / 100 : Nat) : Int) :=
    I64.sub_eq (by omega) (by omega)
  have hsub : I64.sub n (365 * y + y / 4 - y / 100 : Nat) = some (cycle.day : Int) :=
    I64.sub_eq (by omega) (by omega)
  rw [doy, I64.bind_eq hmul, I64.bind_eq hleap, I64.bind_eq hadd, I64.bind_eq hcentury,
    I64.bind_eq hstart, hsub]

theorem mp_eq (date : MarchDay) : mp date.day = some (date.months : Int) := by
  have hle := date.day_le
  have hmul : I64.mul 5 date.day = some ((5 * date.day : Nat) : Int) :=
    I64.mul_eq (by omega) (by omega)
  have hadd : I64.add (5 * date.day : Nat) 2 = some ((5 * date.day + 2 : Nat) : Int) :=
    I64.add_eq (by omega) (by omega)
  have hdiv : I64.div (5 * date.day + 2 : Nat) 153 = some (date.months : Int) :=
    I64.div_eq (by omega) (by omega) (by rw [MarchDay.months]; omega) (by rw [MarchDay.months]; omega)
  rw [mp, I64.bind_eq hmul, I64.bind_eq hadd, hdiv]

theorem day_eq (date : MarchDay) : day date.day date.months = some (date.date.day : Int) := by
  have hle := date.day_le
  have hmonths : date.months = (5 * date.day + 2) / 153 := rfl
  have hday : date.date.day = date.day - (153 * date.months + 2) / 5 + 1 := rfl
  generalize date.months = m at hmonths hday ⊢
  have hmul : I64.mul 153 m = some ((153 * m : Nat) : Int) := I64.mul_eq (by omega) (by omega)
  have hadd : I64.add (153 * m : Nat) 2 = some ((153 * m + 2 : Nat) : Int) :=
    I64.add_eq (by omega) (by omega)
  have hdiv : I64.div (153 * m + 2 : Nat) 5 = some (((153 * m + 2) / 5 : Nat) : Int) :=
    I64.div_eq (by omega) (by omega) (by omega) (by omega)
  have hsub : I64.sub date.day ((153 * m + 2) / 5 : Nat) =
      some ((date.day - (153 * m + 2) / 5 : Nat) : Int) :=
    I64.sub_eq (by omega) (by omega)
  have hnext : I64.add (date.day - (153 * m + 2) / 5 : Nat) 1 = some (date.date.day : Int) :=
    I64.add_eq (by omega) (by omega)
  rw [day, I64.bind_eq hmul, I64.bind_eq hadd, I64.bind_eq hdiv, I64.bind_eq hsub, hnext]

theorem month_eq (date : MarchDay) : month date.months = some (date.date.month : Int) := by
  have hle := date.months_le
  change _ = some ((if date.months < 10 then date.months + 3 else date.months - 9 : Nat) : Int)
  rw [month]
  by_cases hmonths : date.months < 10
  · rw [if_pos hmonths, if_pos (by omega)]
    exact I64.add_eq (by omega) (by omega)
  · rw [if_neg hmonths, if_neg (by omega)]
    exact I64.sub_eq (by omega) (by omega)

theorem turn_year_eq (date : MarchDay) (hyear : date.year < 2 ^ 62) :
    turn_year date.year date.date.month = some (date.date.year : Int) := by
  have hle := date.months_le
  have hmonth : date.date.month = if date.months < 10 then date.months + 3 else date.months - 9 := rfl
  have hnext : date.date.year = if date.months < 10 then date.year else date.year + 1 := rfl
  rw [turn_year]
  by_cases hmonths : date.months < 10
  · rw [if_pos hmonths] at hmonth hnext
    rw [if_neg (by omega), hnext]
  · rw [if_neg hmonths] at hmonth hnext
    rw [if_pos (by omega)]
    exact I64.add_eq (by omega) (by omega)

end Quotients

section Texts

def iso8601 (time : Time) : Str :=
  zero_padded 4 time.year ++ '-' :: zero_padded 2 time.month ++ '-' :: zero_padded 2 time.day ++
    'T' :: zero_padded 2 time.hour ++ ':' :: zero_padded 2 time.minute ++
    ':' :: zero_padded 2 time.second ++ ['Z']

theorem zero_padded_nat (width n : Nat) :
    zero_padded width n = (toString n).toList.leftpad width '0' := by
  rw [zero_padded, if_neg (by omega), Int.natAbs_natCast]
  rfl

theorem value_zero_padded (width n : Nat) : Nat.ofDigitChars 10 (zero_padded width n) 0 = n := by
  have hzeros : ∀ (count : Nat) (digits : Str),
      Nat.ofDigitChars 10 (List.replicate count '0' ++ digits) 0 = Nat.ofDigitChars 10 digits 0 := by
    intro count digits
    induction count with
    | zero => rfl
    | succ count ih =>
        rw [List.replicate_succ, List.cons_append, Nat.ofDigitChars_cons]
        exact ih
  rw [zero_padded_nat, List.leftpad, hzeros, Nat.toString_eq_repr, Nat.toList_repr,
    Nat.ofDigitChars_ten_toDigits]

theorem length_zero_padded {n : Nat} (h : n < 100) : (zero_padded 2 n).length = 2 := by
  have hall : ∀ n < 100, (zero_padded 2 (n : Nat)).length = 2 := by decide +kernel
  exact hall n h

-- A number of two digits at the end of a text, behind its separator.
theorem append_two_digits {xs ys : Str} {c : Char} {m n : Nat} (hm : m < 100) (hn : n < 100)
    (h : xs ++ c :: zero_padded 2 m = ys ++ c :: zero_padded 2 n) : xs = ys ∧ m = n := by
  have hlen : (c :: zero_padded 2 m).length = (c :: zero_padded 2 n).length := by
    rw [List.length_cons, List.length_cons, length_zero_padded hm, length_zero_padded hn]
  obtain ⟨hxs, hdigits⟩ := List.append_inj' h hlen
  have hvalue := congrArg (Nat.ofDigitChars 10 · 0) (List.cons.inj hdigits).2
  simp only [value_zero_padded] at hvalue
  exact ⟨hxs, hvalue⟩

-- The text tells the date and the time.
theorem iso8601_injective {time other : Time} (h : iso8601 time = iso8601 other) : time = other := by
  have hmonth : ∀ t : Time, t.month < 100 := fun t => Nat.lt_of_le_of_lt t.month_le (by decide)
  have hday : ∀ t : Time, t.day < 100 := fun t =>
    Nat.lt_of_le_of_lt (t.day_le.trans (month_length_le _ _)) (by decide)
  have hhour : ∀ t : Time, t.hour < 100 := fun t => t.hour_lt.trans (by decide)
  have hminute : ∀ t : Time, t.minute < 100 := fun t => t.minute_lt.trans (by decide)
  have hsecond : ∀ t : Time, t.second < 100 := fun t => t.second_lt.trans (by decide)
  obtain ⟨hz, -⟩ := List.append_inj' h rfl
  obtain ⟨hs, seconds⟩ := append_two_digits (hsecond time) (hsecond other) hz
  obtain ⟨hm, minutes⟩ := append_two_digits (hminute time) (hminute other) hs
  obtain ⟨hh, hours⟩ := append_two_digits (hhour time) (hhour other) hm
  obtain ⟨hd, days⟩ := append_two_digits (hday time) (hday other) hh
  obtain ⟨hy, months⟩ := append_two_digits (hmonth time) (hmonth other) hd
  have years := congrArg (Nat.ofDigitChars 10 · 0) hy
  simp only [value_zero_padded] at years
  exact Time.ext years months days hours minutes seconds

end Texts

section Gregorian

-- The days from the first of March of the year 0.
def march_days (epoch_secs : UInt64) : Nat := epoch_secs.toNat / 86400 + 719468

theorem march_days_lt (epoch_secs : UInt64) : march_days epoch_secs < 2 ^ 62 := by
  have hlt := epoch_secs.toNat_lt
  unfold march_days
  omega

theorem z_eq (epoch_secs : UInt64) :
    I64.add (I64.of_u64 (epoch_secs / 86400)) 719468 = some (march_days epoch_secs : Int) := by
  have hlt := epoch_secs.toNat_lt
  have hdiv : (epoch_secs / 86400).toNat = epoch_secs.toNat / 86400 := UInt64.toNat_div _ _
  rw [I64.of_u64_eq (by omega), hdiv, march_days]
  exact I64.add_eq (by omega) (by omega)

section Era

variable {z : Nat} (hz : z < 2 ^ 62)

include hz

theorem era_eq : I64.div_euclid z 146097 = some ((z / 146097 : Nat) : Int) ∧
    I64.rem_euclid z 146097 = some ((z % 146097 : Nat) : Int) :=
  ⟨I64.div_euclid_eq (by omega) (by omega) (by omega),
    I64.rem_euclid_eq (by omega) (by omega) (by omega)⟩

theorem march_year_eq (cycle : CycleDay) :
    (cycle.march (z / 146097)).year < 2 ^ 62 ∧
      I64.mul (z / 146097 : Nat) 400 = some ((400 * (z / 146097) : Nat) : Int) ∧
      I64.add cycle.year (400 * (z / 146097) : Nat) =
        some ((cycle.march (z / 146097)).year : Int) := by
  have hyear := cycle.year_lt
  change 400 * (z / 146097) + cycle.year < 2 ^ 62 ∧ _ ∧
    _ = some ((400 * (z / 146097) + cycle.year : Nat) : Int)
  generalize cycle.year = y at hyear ⊢
  exact ⟨by omega, I64.mul_eq (by omega) (by omega), I64.add_eq (by omega) (by omega)⟩

end Era

-- The numbers one after the other: none overflows, and they are those of the date.
theorem iso8601_utc_date {epoch_secs : UInt64} {cycle : CycleDay}
    (hcycle : cycle.number = march_days epoch_secs % 146097)
    (hrem : epoch_secs.toNat % 86400 < 86400) :
    iso8601_utc epoch_secs =
      some (iso8601 ((cycle.march (march_days epoch_secs / 146097)).date.after hrem)) := by
  have hz := march_days_lt epoch_secs
  obtain ⟨hera, hdoe⟩ := era_eq hz
  obtain ⟨hsmall, hmul, hyear⟩ := march_year_eq hz cycle
  have hdoy := doy_eq (march_days epoch_secs / 146097) cycle
  rw [← hcycle] at hdoe
  generalize cycle.march (march_days epoch_secs / 146097) = date at hsmall hyear hdoy ⊢
  dsimp only [iso8601_utc]
  rw [I64.bind_eq (z_eq epoch_secs), I64.bind_eq hera, I64.bind_eq hdoe, I64.bind_eq (yoe_eq cycle),
    I64.bind_eq hmul, I64.bind_eq hyear, I64.bind_eq hdoy, I64.bind_eq (mp_eq date),
    I64.bind_eq (day_eq date), I64.bind_eq (month_eq date), I64.bind_eq (turn_year_eq date hsmall)]
  rfl

-- The days before 1970, from the first of March of the year 0 and from the first of January.
theorem days_before_1970 : ∑ year ∈ Finset.Ico 0 1970, year_length year = 719468 + 60 := by
  have h := sum_years_march 1970
  rw [february, if_neg (by decide), march_start] at h
  omega

-- The day that the code computes is the one that is so many days after the first of 1970.
theorem days_since_1970 {z : Nat} {cycle : CycleDay} (hz : 719468 ≤ z)
    (hcycle : cycle.number = z % 146097) :
    1970 ≤ (cycle.march (z / 146097)).date.year ∧
      719468 + days_since 1970 (cycle.march (z / 146097)).date = z := by
  have hzero : days_since 0 (cycle.march (z / 146097)).date = z + 60 := by
    have hstart := march_start_cycle (z / 146097) cycle
    rw [hcycle, Nat.div_add_mod] at hstart
    rw [days_since_march]
    change 60 + march_start (400 * (z / 146097) + cycle.year) + cycle.day = z + 60
    omega
  have hepoch : 1970 ≤ (cycle.march (z / 146097)).date.year :=
    epoch_le (by rw [days_before_1970, hzero]; omega)
  have hsince := days_since_zero hepoch
  rw [hzero, days_before_1970] at hsince
  exact ⟨hepoch, by omega⟩

-- What is written is a date and a time of the Gregorian calendar, and the seconds from 1970 to it are
-- the ones that were given.
theorem iso8601_utc_gregorian (epoch_secs : UInt64) :
    ∃ time : Time, iso8601_utc epoch_secs = some (iso8601 time) ∧ 1970 ≤ time.year ∧
      seconds_since 1970 time = epoch_secs.toNat ∧
      ∀ other : Time, iso8601_utc epoch_secs = some (iso8601 other) → other = time := by
  obtain ⟨cycle, hcycle⟩ := exists_cycleDay (Nat.mod_lt (march_days epoch_secs) (by decide : 0 < 146097))
  have hrem : epoch_secs.toNat % 86400 < 86400 := Nat.mod_lt _ (by decide)
  have hdate := iso8601_utc_date hcycle hrem
  have hlow : 719468 ≤ march_days epoch_secs := Nat.le_add_left _ _
  obtain ⟨hepoch, hdays⟩ := days_since_1970 hlow hcycle
  have hday : march_days epoch_secs = epoch_secs.toNat / 86400 + 719468 := rfl
  refine ⟨_, hdate, hepoch, ?_, ?_⟩
  · rw [seconds_since_after]
    omega
  · intro other hother
    rw [hdate, Option.some.injEq] at hother
    exact (iso8601_injective hother).symm

def bisestile : Time where
  year := 2000
  month := 2
  day := 29
  month_pos := by decide
  month_le := by decide
  day_pos := by decide
  day_le := by decide
  hour := 0
  minute := 0
  second := 0
  hour_lt := by decide
  minute_lt := by decide
  second_lt := by decide

theorem iso8601_utc_bisestile : seconds_since 1970 bisestile = 951782400 := by
  obtain ⟨time, htext, hyear, hseconds, honly⟩ := iso8601_utc_gregorian 951782400
  rw [honly bisestile (by decide), hseconds]
  rfl

end Gregorian

end Apple

end AltKeeper
