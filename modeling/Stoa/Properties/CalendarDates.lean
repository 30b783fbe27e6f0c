import Stoa.Core.Util

/-! `epochToRfc2822_spec`: for every 64-bit number of seconds no operation overflows, no table is
left, and the printed fields are those of the Gregorian date at that instant. -/
namespace Stoa

def isLeap (year : Int) : Bool := year % 4 = 0 ∧ (year % 100 ≠ 0 ∨ year % 400 = 0)

def daysInMonth (year month : Int) : Int :=
  if month = 2 then if isLeap year then 29 else 28 else if month ∈ [4, 6, 9, 11] then 30 else 31

/-- The days before a year, counted from the year 1. -/
def daysBeforeYear (year : Int) : Int :=
  365 * (year - 1) + (year - 1) / 4 - (year - 1) / 100 + (year - 1) / 400

theorem daysBeforeYear_succ (year : Int) :
    daysBeforeYear (year + 1) = daysBeforeYear year + if isLeap year then 366 else 365 := by
  simp only [daysBeforeYear, isLeap, decide_eq_true_eq]
  split <;> omega

namespace CivilDate

structure Valid (date : CivilDate) : Prop where
  month : 1 ≤ date.month ∧ date.month ≤ 12
  day : 1 ≤ date.day ∧ date.day ≤ daysInMonth date.year date.month

/-- The days since 1970-01-01. -/
def dayNumber (date : CivilDate) : Int :=
  daysBeforeYear date.year - daysBeforeYear 1970 +
    (List.range (date.month - 1).toNat).foldl (fun n m => n + daysInMonth date.year (m + 1)) 0 + date.day - 1

end CivilDate

def eraOf (z : Int) : Int := (if z ≥ 0 then z else z - 146096).tdiv 146097

def yearOfEra (doe : Int) : Int :=
  (doe - doe.tdiv 1460 + doe.tdiv 36524 - doe.tdiv 146096).tdiv 365

theorem eraOf_eq (z : Int) : eraOf z = z / 146097 := by
  unfold eraOf
  split
  · next nonneg => exact Int.tdiv_eq_ediv_of_nonneg nonneg
  · have negated : z - 146096 = -(146096 - z) := by omega
    rw [negated, Int.neg_tdiv, Int.tdiv_eq_ediv_of_nonneg (by omega)]
    omega

/-- Centuries, groups of four years and single years, which start in March. -/
theorem exists_parts {doe : Int} (within : 0 ≤ doe ∧ doe < 146097) :
    ∃ c q s doy : Int, (0 ≤ c ∧ c ≤ 3) ∧ (0 ≤ q ∧ q ≤ 24) ∧ (0 ≤ s ∧ s ≤ 3) ∧ (0 ≤ doy ∧ doy ≤ 365) ∧
      (doy = 365 → s = 3 ∧ (q = 24 → c = 3)) ∧ doe = 36524 * c + 1461 * q + 365 * s + doy := by
  obtain ⟨c, r, century, rest, split⟩ : ∃ c r : Int, (0 ≤ c ∧ c ≤ 3) ∧ (0 ≤ r ∧ r ≤ 36524) ∧
      doe = 36524 * c + r ∧ (r = 36524 → c = 3) :=
    ⟨min (doe / 36524) 3, doe - 36524 * min (doe / 36524) 3, by omega, by omega, by omega, by omega⟩
  exact ⟨c, r / 1461, min (r % 1461 / 365) 3, r % 1461 - 365 * min (r % 1461 / 365) 3, century,
    by omega, by omega, by omega, by omega, by omega⟩

theorem yearOfEra_eq {c q s doy doe : Int} (century : 0 ≤ c ∧ c ≤ 3) (group : 0 ≤ q ∧ q ≤ 24)
    (single : 0 ≤ s ∧ s ≤ 3) (day : 0 ≤ doy ∧ doy ≤ 365) (leap : doy = 365 → s = 3 ∧ (q = 24 → c = 3))
    (parts : doe = 36524 * c + 1461 * q + 365 * s + doy) : yearOfEra doe = 100 * c + 4 * q + s := by
  have fourths : doe / 1460 = 25 * c + q + if 24 * c + q + 365 * s + doy < 1460 then 0 else 1 := by
    split <;> omega
  have centuries : doe / 36524 - doe / 146096 = c := by
    -- The last day of an era would begin a fifth century.
    by_cases last : doe = 146096
    · omega
    · have short : doe / 146096 = 0 := by omega
      omega
  have nonneg : 0 ≤ doe := by omega
  rw [yearOfEra, Int.tdiv_eq_ediv_of_nonneg nonneg, Int.tdiv_eq_ediv_of_nonneg nonneg,
    Int.tdiv_eq_ediv_of_nonneg nonneg, Int.tdiv_eq_ediv_of_nonneg (by split at fourths <;> omega)]
  split at fourths <;> omega

/-- The date of a day of the year that starts in March. -/
def ofYearDay (year doy : Int) : CivilDate :=
  let mp := (5 * doy + 2).tdiv 153
  let d := doy - (153 * mp + 2).tdiv 5 + 1
  let m := if mp < 10 then mp + 3 else mp - 9
  ⟨if m ≤ 2 then year + 1 else year, m, d⟩

theorem ofYearDay_spec {year doy : Int} (day : 0 ≤ doy ∧ doy ≤ 365)
    (leap : doy = 365 → isLeap (year + 1) = true) :
    (ofYearDay year doy).Valid ∧ (ofYearDay year doy).dayNumber =
      daysBeforeYear (year + 1) - 306 + doy - daysBeforeYear 1970 := by
  have next := daysBeforeYear_succ year
  obtain ⟨mp, month⟩ : ∃ mp, (5 * doy + 2).tdiv 153 = mp := ⟨_, rfl⟩
  have bounds : 153 * mp ≤ 5 * doy + 2 ∧ 5 * doy + 2 < 153 * mp + 153 := by
    rw [Int.tdiv_eq_ediv_of_nonneg (by omega)] at month
    omega
  have months : mp = 0 ∨ mp = 1 ∨ mp = 2 ∨ mp = 3 ∨ mp = 4 ∨ mp = 5 ∨ mp = 6 ∨ mp = 7 ∨ mp = 8 ∨
      mp = 9 ∨ mp = 10 ∨ mp = 11 := by omega
  unfold ofYearDay
  rw [month]
  rcases months with rfl | rfl | rfl | rfl | rfl | rfl | rfl | rfl | rfl | rfl | rfl | rfl
  all_goals
    refine ⟨⟨by simp, ?_⟩, ?_⟩
    · simp [daysInMonth]
      grind
    · simp [CivilDate.dayNumber, daysInMonth, List.range_succ]
      grind

/-- The era, the year in it and the day in that year, all from March on. -/
structure MarchDate (days era yoe doy : Int) : Prop where
  year : 0 ≤ yoe ∧ yoe ≤ 399
  day : 0 ≤ doy ∧ doy ≤ 365
  leap : doy = 365 → isLeap (yoe + era * 400 + 1) = true
  era_eq : eraOf (days + 719468) = era
  days_eq : days + 719468 = era * 146097 + (365 * yoe + yoe / 4 - yoe / 100 + doy)
  year_eq : yearOfEra (days + 719468 - era * 146097) = yoe

theorem exists_marchDate (days : Int) : ∃ era yoe doy, MarchDate days era yoe doy := by
  obtain ⟨doe, rest⟩ : ∃ doe, days + 719468 - (days + 719468) / 146097 * 146097 = doe := ⟨_, rfl⟩
  obtain ⟨c, q, s, doy, century, group, single, day, leap, parts⟩ :=
    @exists_parts doe (by omega)
  have fourth : (100 * c + 4 * q + s) / 4 = 25 * c + q := by omega
  have hundredth : (100 * c + 4 * q + s) / 100 = c := by omega
  refine ⟨(days + 719468) / 146097, 100 * c + 4 * q + s, doy, by omega, day, ?_, eraOf_eq _, by omega, ?_⟩
  · intro last
    have := leap last
    simp only [isLeap, decide_eq_true_eq]
    omega
  · rw [rest, yearOfEra_eq century group single day leap parts]

theorem MarchDate.doy_eq {days era yoe doy : Int} (march : MarchDate days era yoe doy) :
    days + 719468 - era * 146097 - (365 * yoe + yoe.tdiv 4 - yoe.tdiv 100) = doy := by
  obtain ⟨year, -, -, -, days_eq, -⟩ := march
  rw [Int.tdiv_eq_ediv_of_nonneg year.1, Int.tdiv_eq_ediv_of_nonneg year.1]
  omega

theorem MarchDate.civilDate_eq {days era yoe doy : Int} (march : MarchDate days era yoe doy) :
    civilDate days = ofYearDay (yoe + era * 400) doy := by
  have steps : civilDate days =
      let doe := days + 719468 - eraOf (days + 719468) * 146097
      let yoe := yearOfEra doe
      ofYearDay (yoe + eraOf (days + 719468) * 400)
        (doe - (365 * yoe + yoe.tdiv 4 - yoe.tdiv 100)) := rfl
  simp only [steps, march.era_eq, march.year_eq, march.doy_eq]

theorem civilDate_spec (days : Int) : (civilDate days).Valid ∧ (civilDate days).dayNumber = days := by
  obtain ⟨era, yoe, doy, march⟩ := exists_marchDate days
  obtain ⟨valid, number⟩ := ofYearDay_spec march.day march.leap
  rw [march.civilDate_eq]
  refine ⟨valid, ?_⟩
  have := march.days_eq
  have := march.year
  rw [number]
  simp only [daysBeforeYear]
  omega

abbrev InI64 (x : Int) : Prop := -0x8000000000000000 ≤ x ∧ x < 0x8000000000000000

/-- Every 64-bit value computed on the way, in the order of the operations. -/
def intermediates (secs : Int) : List Int :=
  let days := secs / 86400
  let z := days + 719468
  let era := eraOf z
  let doe := z - era * 146097
  let yoe := yearOfEra doe
  let doy := doe - (365 * yoe + yoe.tdiv 4 - yoe.tdiv 100)
  let mp := (5 * doy + 2).tdiv 153
  let dayStart := (153 * mp + 2).tdiv 5
  [days, secs % 86400, days.tmod 7, days.tmod 7 + 7, (days.tmod 7 + 7).tmod 7, z, z - 146096, era,
    era * 146097, doe, doe.tdiv 1460, doe - doe.tdiv 1460, doe.tdiv 36524,
    doe - doe.tdiv 1460 + doe.tdiv 36524, doe.tdiv 146096,
    doe - doe.tdiv 1460 + doe.tdiv 36524 - doe.tdiv 146096, yoe, era * 400, yoe + era * 400, 365 * yoe,
    yoe.tdiv 4, 365 * yoe + yoe.tdiv 4, yoe.tdiv 100, 365 * yoe + yoe.tdiv 4 - yoe.tdiv 100, doy, 5 * doy,
    5 * doy + 2, mp, 153 * mp, 153 * mp + 2, dayStart, doy - dayStart, doy - dayStart + 1, mp + 3, mp - 9,
    (ofYearDay yoe doy).month - 1, yoe + era * 400 + 1]

theorem inI64_intermediates {secs : Int} (i64 : InI64 secs) : ∀ x ∈ intermediates secs, InI64 x := by
  obtain ⟨era, yoe, doy, march⟩ := exists_marchDate (secs / 86400)
  have month := (ofYearDay_spec march.day march.leap).1.month
  have rest := march.doy_eq
  obtain ⟨year, day, -, era_eq, days_eq, year_eq⟩ := march
  obtain ⟨lower, upper⟩ := i64
  have weekday : -7 < (secs / 86400).tmod 7 ∧ (secs / 86400).tmod 7 < 7 :=
    ⟨Int.lt_tmod_of_pos _ (by decide), Int.tmod_lt_of_pos _ (by decide)⟩
  have nonneg : 0 ≤ secs / 86400 + 719468 - era * 146097 := by omega
  simp only [intermediates, era_eq, year_eq, rest, ofYearDay]
  rw [Int.tdiv_eq_ediv_of_nonneg (show 0 ≤ 5 * doy + 2 by omega),
    Int.tdiv_eq_ediv_of_nonneg (show 0 ≤ 153 * ((5 * doy + 2) / 153) + 2 by omega),
    Int.tmod_eq_emod_of_nonneg (show 0 ≤ (secs / 86400).tmod 7 + 7 by omega)]
  simp only [Int.tdiv_eq_ediv_of_nonneg nonneg, Int.tdiv_eq_ediv_of_nonneg year.1, List.forall_mem_cons,
    InI64, List.not_mem_nil, false_implies, implies_true, and_true]
  and_intros
  all_goals omega

/-- The index into `dayNames`. -/
def weekdayIndex (secs : Int) : Int := ((secs / 86400).tmod 7 + 7).tmod 7

def weekdays : List String := ["Sun", "Mon", "Tue", "Wed", "Thu", "Fri", "Sat"]

theorem weekdayIndex_eq (secs : Int) : weekdayIndex secs = secs / 86400 % 7 := by
  have lower := Int.lt_tmod_of_pos (secs / 86400) (show (0 : Int) < 7 by decide)
  have parts := Int.mul_tdiv_add_tmod (secs / 86400) 7
  rw [weekdayIndex, Int.tmod_eq_emod_of_nonneg (by omega)]
  omega

theorem weekday_name (secs : Int) : ∃ name, dayNames[(weekdayIndex secs).toNat]? = some name ∧
    weekdays[((4 + secs / 86400) % 7).toNat]? = some name := by
  rw [weekdayIndex_eq, Int.add_emod]
  obtain ⟨day, named⟩ : ∃ day, secs / 86400 % 7 = day := ⟨_, rfl⟩
  have days : day = 0 ∨ day = 1 ∨ day = 2 ∨ day = 3 ∨ day = 4 ∨ day = 5 ∨ day = 6 := by omega
  rw [named]
  rcases days with rfl | rfl | rfl | rfl | rfl | rfl | rfl <;> exact ⟨_, rfl, rfl⟩

/-- The fields are those of the date at `secs`, and the text is made of them. -/
theorem epochToRfc2822_spec {secs : Int} (i64 : InI64 secs) :
    (∀ x ∈ intermediates secs, InI64 x) ∧ (0 ≤ weekdayIndex secs ∧ weekdayIndex secs < 7) ∧
    ∃ (date : CivilDate) (hour min sec : Int) (weekday month : String),
      date.Valid ∧ (0 ≤ hour ∧ hour < 24) ∧ (0 ≤ min ∧ min < 60) ∧ (0 ≤ sec ∧ sec < 60) ∧
      ((date.dayNumber * 24 + hour) * 60 + min) * 60 + sec = secs ∧
      dayNames[(weekdayIndex secs).toNat]? = some weekday ∧
      weekdays[((4 + secs / 86400) % 7).toNat]? = some weekday ∧
      monthNames[(date.month - 1).toNat]? = some month ∧
      epochToRfc2822 secs = weekday ++ ", " ++ twoDigits date.day ++ " " ++ month ++ " " ++
        toString date.year ++ " " ++ twoDigits hour ++ ":" ++ twoDigits min ++ ":" ++ twoDigits sec ++
        " +0000" := by
  refine ⟨inI64_intermediates i64, by rw [weekdayIndex_eq]; omega, ?_⟩
  obtain ⟨valid, number⟩ := civilDate_spec (secs / 86400)
  obtain ⟨weekday, index, calendar⟩ := weekday_name secs
  have month : ((civilDate (secs / 86400)).month - 1).toNat < monthNames.length := by
    have := valid.month
    show _ < 12
    omega
  refine ⟨civilDate (secs / 86400), secs % 86400 / 3600, secs % 86400 / 60 % 60, secs % 86400 % 60, weekday,
    monthNames[((civilDate (secs / 86400)).month - 1).toNat], valid, by omega, by omega, by omega, ?_, index,
    calendar, List.getElem?_eq_getElem month, ?_⟩
  · rw [number]
    omega
  · have named : dayNames.getD (weekdayIndex secs).toNat "" = weekday := by
      rw [List.getD_eq_getElem?_getD, index, Option.getD_some]
    have printed : monthNames.getD ((civilDate (secs / 86400)).month - 1).toNat "" =
        monthNames[((civilDate (secs / 86400)).month - 1).toNat] := by
      rw [List.getD_eq_getElem?_getD, List.getElem?_eq_getElem month, Option.getD_some]
    rw [← named, ← printed]
    rfl

theorem epochToRfc2822_before_epoch : InI64 (-1) ∧ weekdayIndex (-1) < 7 :=
  have i64 : InI64 (-1) := by decide
  ⟨i64, (epochToRfc2822_spec i64).2.1.2⟩

end Stoa
