import Mathlib.Data.Int.Notation
import Mathlib.Data.Nat.Notation

/-!
# The civil calendar

A day is the number of days since the first of January 1970. Years count from the
first of March, so that a leap day is the last day of its year.

## Main results

- `sameMonth_iff`: two days are in one month exactly if the same day comes before it.
- `civil_inj`: a day is determined by its year, month and day of the month.
- `civil_lt`: days are in the order of year, month and day.
-/

namespace Foundation

/-- The year, month and day of the month of a day. -/
def civil (day : ℤ) : ℤ × ℤ × ℤ :=
  let z := day + 719468
  let era := z / 146097
  let dayOfEra := z % 146097
  let yearOfEra := (dayOfEra - dayOfEra / 1460 + dayOfEra / 36524 - dayOfEra / 146096) / 365
  let dayOfYear := dayOfEra - (365 * yearOfEra + yearOfEra / 4 - yearOfEra / 100)
  let fromMarch := (5 * dayOfYear + 2) / 153
  let month := if fromMarch < 10 then fromMarch + 3 else fromMarch - 9
  (yearOfEra + era * 400 + (if month ≤ 2 then 1 else 0), month,
    dayOfYear - (153 * fromMarch + 2) / 5 + 1)

/-- The day of its month. -/
def dayOfMonth (day : ℤ) : ℤ := (civil day).2.2

/-- The last digits of a number, `n` of them. -/
def digits (n : ℕ) (value : ℕ) : String :=
  let text := toString value
  String.ofList (List.replicate (n - text.length) '0') ++ text

/-- The first ten characters of the ISO text of a day. -/
def isoDay (day : ℤ) : String :=
  let (year, month, day) := civil day
  let years :=
    if 0 ≤ year ∧ year ≤ 9999 then digits 4 year.natAbs
    else (if year < 0 then "-" else "+") ++ digits 6 year.natAbs
  String.ofList ((years ++ "-" ++ digits 2 month.natAbs ++ "-" ++ digits 2 day.natAbs).toList.take 10)

/-- The leap day of 2024. -/
example : isoDay 19782 = "2024-02-29" := by decide +kernel

/-! ## Months -/

/-- The two days have their year and their month in common. -/
def SameMonth (a b : ℤ) : Prop := (civil a).1 = (civil b).1 ∧ (civil a).2.1 = (civil b).2.1

instance (a b : ℤ) : Decidable (SameMonth a b) :=
  inferInstanceAs (Decidable ((civil a).1 = (civil b).1 ∧ (civil a).2.1 = (civil b).2.1))

/-- The last day before a month, `fromMarch` months after March of the year. -/
def dayBeforeMonth (year fromMarch : ℤ) : ℤ :=
  365 * year + year / 4 - year / 100 + year / 400 + (153 * fromMarch + 2) / 5 - 719469

/-- Years are longer than the months of a year are apart. -/
theorem dayBeforeMonth_inj {year year' fromMarch fromMarch' : ℤ} (h0 : 0 ≤ fromMarch)
    (h11 : fromMarch ≤ 11) (h0' : 0 ≤ fromMarch') (h11' : fromMarch' ≤ 11)
    (h : dayBeforeMonth year fromMarch = dayBeforeMonth year' fromMarch') :
    year = year' ∧ fromMarch = fromMarch' := by
  unfold dayBeforeMonth at h
  rcases Int.lt_trichotomy year year' with hlt | rfl | hgt
  · omega
  · omega
  · omega

/-- The day of the year, within an era of four centuries. -/
theorem dayOfYear_bounds {dayOfEra year : ℤ} (h0 : 0 ≤ dayOfEra) (hera : dayOfEra < 146097)
    (hyear : year =
      (dayOfEra - dayOfEra / 1460 + dayOfEra / 36524 - dayOfEra / 146096) / 365) :
    0 ≤ dayOfEra - (365 * year + year / 4 - year / 100) ∧
      dayOfEra - (365 * year + year / 4 - year / 100) ≤ 365 := by
  by_cases hlast : dayOfEra = 146096
  · omega
  · -- the century is known, and the four years to within one
    have hcentury : dayOfEra / 36524 = 0 ∨ dayOfEra / 36524 = 1 ∨ dayOfEra / 36524 = 2 ∨
        dayOfEra / 36524 = 3 := by
      omega
    have hhundred : year / 100 = dayOfEra / 36524 := by
      obtain h | h | h | h := hcentury
      · omega
      · omega
      · omega
      · omega
    have hfour : dayOfEra / 1460 - 1 ≤ year / 4 ∧ year / 4 ≤ dayOfEra / 1460 := by
      obtain h | h | h | h := hcentury
      · omega
      · omega
      · omega
      · omega
    omega

/-- A day of four centuries comes before the next year begins. -/
theorem dayOfEra_lt_next {dayOfEra year : ℤ} (h0 : 0 ≤ dayOfEra) (hera : dayOfEra < 146097)
    (hyear : year =
      (dayOfEra - dayOfEra / 1460 + dayOfEra / 36524 - dayOfEra / 146096) / 365) :
    dayOfEra < 365 * (year + 1) + (year + 1) / 4 - (year + 1) / 100 + (year + 1) / 400 := by
  by_cases hlast : dayOfEra = 146096
  · omega
  · have hcentury : dayOfEra / 36524 = 0 ∨ dayOfEra / 36524 = 1 ∨ dayOfEra / 36524 = 2 ∨
        dayOfEra / 36524 = 3 := by
      omega
    have hera' : dayOfEra / 146096 = 0 := by omega
    have hhundred : year / 100 = dayOfEra / 36524 := by
      obtain h | h | h | h := hcentury
      · omega
      · omega
      · omega
      · omega
    by_cases hend : (year + 1) % 100 = 0
    · -- the last year of a century ends with the century
      have hnext : year = 100 * (dayOfEra / 36524) + 99 := by omega
      obtain h | h | h | h := hcentury
      · omega
      · omega
      · omega
      · omega
    · have hsame : (year + 1) / 100 = dayOfEra / 36524 := by omega
      have hfour : dayOfEra / 1460 ≤ (year + 1) / 4 := by
        have hle : dayOfEra - dayOfEra / 1460 + dayOfEra / 36524 ≤ 365 * year + 364 := by omega
        obtain h | h | h | h := hcentury
        · omega
        · omega
        · omega
        · omega
      have hnone : 0 ≤ (year + 1) / 400 := by omega
      omega

/-- The last day of the month, `fromMarch` months after March of the year. -/
def lastOfMonth (year fromMarch : ℤ) : ℤ :=
  if fromMarch < 11 then dayBeforeMonth year (fromMarch + 1) else dayBeforeMonth (year + 1) 0

/-- What `civil` computes, by the last day before the month. -/
theorem civil_spec (day : ℤ) :
    ∃ year fromMarch, 0 ≤ fromMarch ∧ fromMarch ≤ 11 ∧
      day = dayBeforeMonth year fromMarch + dayOfMonth day ∧
      (civil day).1 = year + (if fromMarch < 10 then 0 else 1) ∧
      (civil day).2.1 = (if fromMarch < 10 then fromMarch + 3 else fromMarch - 9) ∧
      1 ≤ dayOfMonth day ∧ day ≤ lastOfMonth year fromMarch := by
  have h0 : 0 ≤ (day + 719468) % 146097 := Int.emod_nonneg _ (by decide)
  have hera : (day + 719468) % 146097 < 146097 := Int.emod_lt_of_pos _ (by decide)
  have hday : day + 719468 =
      (day + 719468) / 146097 * 146097 + (day + 719468) % 146097 := by
    omega
  simp only [dayOfMonth, civil]
  generalize (day + 719468) / 146097 = era at *
  generalize (day + 719468) % 146097 = dayOfEra at *
  generalize hyear : (dayOfEra - dayOfEra / 1460 + dayOfEra / 36524 - dayOfEra / 146096) / 365 =
    year
  have hyears : 0 ≤ year ∧ year ≤ 399 := by omega
  obtain ⟨hlow, hhigh⟩ := dayOfYear_bounds h0 hera hyear.symm
  have hnext := dayOfEra_lt_next h0 hera hyear.symm
  refine ⟨year + era * 400, (5 * (dayOfEra - (365 * year + year / 4 - year / 100)) + 2) / 153, ?_,
    ?_, ?_, ?_, rfl, ?_, ?_⟩
  · omega
  · omega
  · have hfour : (year + era * 400) / 4 = year / 4 + era * 100 := by omega
    have hhundred : (year + era * 400) / 100 = year / 100 + era * 4 := by omega
    have hera : (year + era * 400) / 400 = era := by omega
    rw [dayBeforeMonth, hfour, hhundred, hera]
    omega
  · congr 1
    by_cases hmonth : (5 * (dayOfEra - (365 * year + year / 4 - year / 100)) + 2) / 153 < 10
    · rw [if_pos hmonth, if_pos hmonth, if_neg (by omega)]
    · rw [if_neg hmonth, if_neg hmonth, if_pos (by omega)]
  · omega
  · have hfour : (year + era * 400) / 4 = year / 4 + era * 100 := by omega
    have hhundred : (year + era * 400) / 100 = year / 100 + era * 4 := by omega
    have hera : (year + era * 400) / 400 = era := by omega
    rw [lastOfMonth]
    split
    · rw [dayBeforeMonth, hfour, hhundred, hera]
      omega
    · have hfour' : (year + era * 400 + 1) / 4 = (year + 1) / 4 + era * 100 := by omega
      have hhundred' : (year + era * 400 + 1) / 100 = (year + 1) / 100 + era * 4 := by omega
      have hera' : (year + era * 400 + 1) / 400 = (year + 1) / 400 + era := by omega
      rw [dayBeforeMonth, hfour', hhundred', hera']
      omega

/-- Two days are in one month exactly if the same day comes before it. -/
theorem sameMonth_iff {a b : ℤ} : SameMonth a b ↔ a - dayOfMonth a = b - dayOfMonth b := by
  obtain ⟨year, fromMarch, h0, h11, ha, hyear, hmonth, -⟩ := civil_spec a
  obtain ⟨year', fromMarch', h0', h11', hb, hyear', hmonth', -⟩ := civil_spec b
  have hbefore : a - dayOfMonth a = b - dayOfMonth b ↔
      dayBeforeMonth year fromMarch = dayBeforeMonth year' fromMarch' := by
    omega
  rw [SameMonth, hyear, hyear', hmonth, hmonth', hbefore]
  constructor
  · rintro ⟨hyears, hmonths⟩
    have hfrom : fromMarch = fromMarch' := by omega
    have hsame : year = year' := by
      rw [hfrom] at hyears
      omega
    rw [hsame, hfrom]
  · intro h
    obtain ⟨rfl, rfl⟩ := dayBeforeMonth_inj h0 h11 h0' h11' h
    exact ⟨rfl, rfl⟩

/-- A day is determined by its year, month and day of the month. -/
theorem civil_inj {a b : ℤ} : civil a = civil b ↔ a = b := by
  refine ⟨fun h => ?_, fun h => h ▸ rfl⟩
  have hmonth : SameMonth a b := ⟨congrArg (·.1) h, congrArg (·.2.1) h⟩
  have hday : dayOfMonth a = dayOfMonth b := congrArg (·.2.2) h
  rw [sameMonth_iff] at hmonth
  omega

/-! ## The order of days -/

theorem dayBeforeMonth_le {year year' fromMarch fromMarch' : ℤ} (h11 : fromMarch ≤ 11)
    (h0' : 0 ≤ fromMarch') (h : year < year' ∨ year = year' ∧ fromMarch ≤ fromMarch') :
    dayBeforeMonth year fromMarch ≤ dayBeforeMonth year' fromMarch' := by
  unfold dayBeforeMonth
  obtain hlt | ⟨rfl, hle⟩ := h
  · omega
  · omega

/-- A month ends before a later month begins. -/
theorem lastOfMonth_le {year year' fromMarch fromMarch' : ℤ} (h11 : fromMarch ≤ 11)
    (h0' : 0 ≤ fromMarch') (h : year < year' ∨ year = year' ∧ fromMarch < fromMarch')
    (h11' : fromMarch' ≤ 11) :
    lastOfMonth year fromMarch ≤ dayBeforeMonth year' fromMarch' := by
  rw [lastOfMonth]
  split
  · exact dayBeforeMonth_le (by omega) h0' (by omega)
  · exact dayBeforeMonth_le (by omega) h0' (by omega)

/-- Days are in the order of their months, and those of one month in the order of its days. -/
theorem civil_lt {a b : ℤ} (h : a < b) :
    (civil a).1 < (civil b).1 ∨ (civil a).1 = (civil b).1 ∧
      ((civil a).2.1 < (civil b).2.1 ∨ (civil a).2.1 = (civil b).2.1 ∧
        (civil a).2.2 < (civil b).2.2) := by
  obtain ⟨year, fromMarch, h0, h11, ha, hyear, hmonth, hfirst, hlast⟩ := civil_spec a
  obtain ⟨year', fromMarch', h0', h11', hb, hyear', hmonth', hfirst', hlast'⟩ := civil_spec b
  have hnot : ¬ (year' < year ∨ year' = year ∧ fromMarch' < fromMarch) := by
    intro hlater
    have hle := lastOfMonth_le h11' h0 hlater h11
    omega
  have hsame : year = year' ∧ fromMarch = fromMarch' → (civil a).2.2 < (civil b).2.2 := by
    rintro ⟨rfl, rfl⟩
    change dayOfMonth a < dayOfMonth b
    omega
  rw [hyear, hyear', hmonth, hmonth']
  by_cases heq : year = year' ∧ fromMarch = fromMarch'
  · have hday := hsame heq
    obtain ⟨rfl, rfl⟩ := heq
    exact .inr ⟨rfl, .inr ⟨rfl, hday⟩⟩
  · have hlt : year < year' ∨ year = year' ∧ fromMarch < fromMarch' := by omega
    by_cases hm : fromMarch < 10
    · by_cases hm' : fromMarch' < 10
      · simp only [hm, hm', if_true]
        omega
      · simp only [hm, hm', if_true, if_false]
        omega
    · by_cases hm' : fromMarch' < 10
      · simp only [hm, hm', if_true, if_false]
        omega
      · simp only [hm, hm', if_false]
        omega

end Foundation
