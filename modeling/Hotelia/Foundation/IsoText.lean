import Hotelia.Foundation.Calendar
import Hotelia.Foundation.Decimals
import Hotelia.Foundation.Readers
import Mathlib.Data.Int.Order.Basic
import Mathlib.Data.String.Basic

/-!
# The text of an instant

An instant is a number of milliseconds since 1970. Its text has the year, the month, the day and
the time of the day, each with so many digits, so that up to the year 9999 texts are in the order
of the instants. The instant can be read off the text.

## Main definitions

- `isoText` — the text of an instant
- `readIso` — the instant of a text

## Main results

- `isoText_lt_iff`, `isoText_inj`: texts are in the order of the instants.
- `readIso_isoText`: an instant is read back.
-/

namespace Foundation

/-- The first millisecond of the year 10000. -/
def lastIso : ℤ := 253402300800000

/-- The years from 0 to 9999 have four digits, and all others a sign and six. -/
def yearText (year : ℤ) : List Char :=
  if 0 ≤ year ∧ year ≤ 9999 then padded 4 year.toNat
  else (if year < 0 then '-' else '+') :: padded 6 year.natAbs

/-- The letters of a date and of a time of the day. -/
def isoLetters (date : ℤ × ℤ × ℤ) (ms : ℕ) : List Char :=
  yearText date.1 ++ '-' :: (padded 2 date.2.1.toNat ++ '-' :: (padded 2 date.2.2.toNat ++ 'T' ::
    (padded 2 (ms / 3600000) ++ ':' :: (padded 2 (ms / 60000 % 60) ++ ':' ::
      (padded 2 (ms / 1000 % 60) ++ '.' :: (padded 3 (ms % 1000) ++ ['Z']))))))

/-- `YYYY-MM-DDTHH:mm:ss.sssZ`. -/
def isoText (t : ℤ) : String :=
  String.ofList (isoLetters (civil (t / 86400000)) (t % 86400000).toNat)

/-! ## The order of texts -/

section Order

/-- The dates of the years from 1970 to 9999. -/
structure ShortDate (date : ℤ × ℤ × ℤ) : Prop where
  year : 1970 ≤ date.1 ∧ date.1 ≤ 9999
  month : 1 ≤ date.2.1 ∧ date.2.1 ≤ 12
  day : 1 ≤ date.2.2 ∧ date.2.2 ≤ 31

theorem civil_first : civil 0 = (1970, 1, 1) := by decide

theorem civil_last : civil 2932896 = (9999, 12, 31) := by decide

theorem shortDate_civil (day : ℤ) (h0 : 0 ≤ day) (hlast : day < 2932897) :
    ShortDate (civil day) := by
  obtain ⟨year, fromMarch, hm0, hm11, hday, -, hmonth, hfirst, hend⟩ := civil_spec day
  refine ⟨⟨?_, ?_⟩, ?_, hfirst, ?_⟩
  · by_cases hz : day = 0
    · rw [hz, civil_first]
    · have hlt := civil_lt (a := 0) (b := day) (by omega)
      rw [civil_first] at hlt
      dsimp only at hlt
      omega
  · by_cases hz : day = 2932896
    · rw [hz, civil_last]
    · have hlt := civil_lt (a := day) (b := 2932896) (by omega)
      rw [civil_last] at hlt
      dsimp only at hlt
      omega
  · rw [hmonth]
    split
    · omega
    · omega
  · change dayOfMonth day ≤ 31
    rw [lastOfMonth] at hend
    split at hend
    · rw [dayBeforeMonth] at hday hend
      omega
    · rw [dayBeforeMonth] at hday hend
      omega

theorem yearText_lt_iff {year year' : ℤ} {x y : List Char} (h : 0 ≤ year ∧ year ≤ 9999)
    (h' : 0 ≤ year' ∧ year' ≤ 9999) :
    yearText year ++ '-' :: x < yearText year' ++ '-' :: y ↔ year < year' ∨ year = year' ∧ x < y := by
  rw [yearText, yearText, if_pos h, if_pos h', padded_append_lt_iff (by omega) (by omega)]
  have hlt : year.toNat < year'.toNat ↔ year < year' := by omega
  have heq : year.toNat = year'.toNat ↔ year = year' := by omega
  rw [hlt, heq]

/-- Letters are in the order of the dates, and of the times of one day. -/
theorem isoLetters_lt_iff {date date' : ℤ × ℤ × ℤ} {ms ms' : ℕ} (h : ShortDate date)
    (h' : ShortDate date') (hms : ms < 86400000) (hms' : ms' < 86400000) :
    isoLetters date ms < isoLetters date' ms' ↔
      date.1 < date'.1 ∨ date.1 = date'.1 ∧ (date.2.1 < date'.2.1 ∨ date.2.1 = date'.2.1 ∧
        (date.2.2 < date'.2.2 ∨ date.2.2 = date'.2.2 ∧ ms < ms')) := by
  obtain ⟨hyear, hmonth, hday⟩ := h
  obtain ⟨hyear', hmonth', hday'⟩ := h'
  rw [isoLetters, isoLetters, yearText_lt_iff (by omega) (by omega),
    padded_append_lt_iff (by omega) (by omega), padded_append_lt_iff (by omega) (by omega),
    padded_append_lt_iff (by omega) (by omega), padded_append_lt_iff (by omega) (by omega),
    padded_append_lt_iff (by omega) (by omega), padded_append_lt_iff (by omega) (by omega)]
  have hend : ¬ ([] : List Char) < [] := List.not_lt_nil []
  simp only [hend, and_false, or_false]
  omega

theorem isoText_lt_iff {t u : ℤ} (ht : 0 ≤ t ∧ t < lastIso) (hu : 0 ≤ u ∧ u < lastIso) :
    isoText t < isoText u ↔ t < u := by
  rw [lastIso] at ht hu
  have hdate := shortDate_civil (t / 86400000) (by omega) (by omega)
  have hdate' := shortDate_civil (u / 86400000) (by omega) (by omega)
  rw [isoText, isoText, String.lt_iff_toList_lt, String.toList_ofList, String.toList_ofList,
    isoLetters_lt_iff hdate hdate' (by omega) (by omega)]
  rcases Int.lt_trichotomy (t / 86400000) (u / 86400000) with hlt | heq | hgt
  · have hcivil := civil_lt hlt
    omega
  · rw [heq]
    omega
  · have hcivil := civil_lt hgt
    omega

theorem isoText_inj {t u : ℤ} (ht : 0 ≤ t ∧ t < lastIso) (hu : 0 ≤ u ∧ u < lastIso) :
    isoText t = isoText u ↔ t = u := by
  refine ⟨fun h => ?_, fun h => h ▸ rfl⟩
  have hlt := isoText_lt_iff ht hu
  have hgt := isoText_lt_iff hu ht
  rw [h] at hlt hgt
  have hnot : ¬ isoText u < isoText u := lt_irrefl _
  rw [iff_false_left hnot] at hlt hgt
  omega

theorem isoText_le_iff {t u : ℤ} (ht : 0 ≤ t ∧ t < lastIso) (hu : 0 ≤ u ∧ u < lastIso) :
    isoText t ≤ isoText u ↔ t ≤ u := by
  rw [← not_lt, isoText_lt_iff hu ht, not_lt]

end Order

/-! ## Reading -/

section Reading

/-- The day of a date. -/
def dayOfDate (year month day : ℤ) : ℤ :=
  if month ≤ 2 then dayBeforeMonth (year - 1) (month + 9) + day
  else dayBeforeMonth year (month - 3) + day

/-- `n` digits and the letter behind them. -/
def readPadded (n : ℕ) (sep : Char) : Reader Char ℕ := fun text =>
  if (text.take n).all (fun c => '0' ≤ c && c ≤ '9') && text[n]? = some sep then
    some (decimalValue (text.take n), text.drop (n + 1))
  else none

/-- The instant of a text with a year of four digits. -/
def readIso (text : String) : Option ℤ := do
  let (year, rest) ← readPadded 4 '-' text.toList
  let (month, rest) ← readPadded 2 '-' rest
  let (day, rest) ← readPadded 2 'T' rest
  let (hours, rest) ← readPadded 2 ':' rest
  let (minutes, rest) ← readPadded 2 ':' rest
  let (seconds, rest) ← readPadded 2 '.' rest
  let (ms, rest) ← readPadded 3 'Z' rest
  if rest = [] then
    some (dayOfDate year month day * 86400000 +
      (((hours * 60 + minutes) * 60 + seconds) * 1000 + ms : ℕ))
  else none

/-- The day is told by its date. -/
theorem dayOfDate_civil (day : ℤ) :
    dayOfDate (civil day).1 (civil day).2.1 (civil day).2.2 = day := by
  obtain ⟨year, fromMarch, h0, h11, hday, hyear, hmonth, -⟩ := civil_spec day
  change dayOfDate (civil day).1 (civil day).2.1 (dayOfMonth day) = day
  rw [dayOfDate, hyear, hmonth]
  by_cases hm : fromMarch < 10
  · have hlate : ¬ fromMarch + 3 ≤ 2 := by omega
    rw [if_pos hm, if_pos hm, if_neg hlate, Int.add_zero, Int.add_sub_cancel]
    exact hday.symm
  · have hearly : fromMarch - 9 ≤ 2 := by omega
    rw [if_neg hm, if_neg hm, if_pos hearly, Int.add_sub_cancel, Int.sub_add_cancel]
    exact hday.symm

theorem isDigit_decimalDigit {d : ℕ} (h : d < 10) :
    (decide ('0' ≤ decimalDigit d) && decide (decimalDigit d ≤ '9')) = true := by
  revert d
  decide

theorem all_padded (n v : ℕ) : (padded n v).all (fun c => '0' ≤ c && c ≤ '9') = true := by
  induction n generalizing v with
  | zero => rfl
  | succ n ih =>
    rw [padded, List.all_append, ih, Bool.true_and, List.all_cons, List.all_nil, Bool.and_true]
    exact isDigit_decimalDigit (Nat.mod_lt v (by omega))

theorem readPadded_padded {n v : ℕ} (h : v < 10 ^ n) (sep : Char) (rest : List Char) :
    readPadded n sep (padded n v ++ sep :: rest) = some (v, rest) := by
  have htake : (padded n v ++ sep :: rest).take n = padded n v := by
    rw [List.take_append_of_le_length (by simp)]
    exact List.take_of_length_le (by simp)
  have hget : (padded n v ++ sep :: rest)[n]? = some sep := by
    rw [List.getElem?_append_right (by simp)]
    simp
  have hdrop : (padded n v ++ sep :: rest).drop (n + 1) = rest := by
    rw [List.drop_append]
    simp
  rw [readPadded, htake, hget, hdrop, all_padded, decimalValue_padded h]
  simp

/-- An instant is read off its text. -/
theorem readIso_isoText {t : ℤ} (h : 0 ≤ t ∧ t < lastIso) : readIso (isoText t) = some t := by
  rw [lastIso] at h
  obtain ⟨hyear, hmonth, hday⟩ := shortDate_civil (t / 86400000) (by omega) (by omega)
  have hback := dayOfDate_civil (t / 86400000)
  have hms : (t % 86400000).toNat < 86400000 := by omega
  have htime : (t % 86400000).toNat = (t % 86400000) := by omega
  rw [readIso, isoText, String.toList_ofList, isoLetters, yearText, if_pos (by omega),
    readPadded_padded (by omega)]
  generalize civil (t / 86400000) = date at *
  generalize (t % 86400000).toNat = ms at *
  simp only [Option.bind_eq_bind, Option.bind_some]
  rw [readPadded_padded (by omega), Option.bind_some, readPadded_padded (by omega), Option.bind_some,
    readPadded_padded (by omega), Option.bind_some, readPadded_padded (by omega), Option.bind_some,
    readPadded_padded (by omega), Option.bind_some, readPadded_padded (by omega), Option.bind_some,
    if_pos rfl]
  have hparts : ((ms / 3600000 * 60 + ms / 60000 % 60) * 60 + ms / 1000 % 60) * 1000 + ms % 1000 =
      ms := by
    omega
  have hdate : ((date.1.toNat : ℕ) : ℤ) = date.1 ∧ ((date.2.1.toNat : ℕ) : ℤ) = date.2.1 ∧
      ((date.2.2.toNat : ℕ) : ℤ) = date.2.2 := by
    omega
  rw [hdate.1, hdate.2.1, hdate.2.2, hback, hparts]
  congr 1
  omega

end Reading

end Foundation
