import Mathlib.Data.List.Lex
import Mathlib.Order.Lattice
import Mathlib.Tactic.Linarith

/-! # Instants as RFC 3339 text

The text of an instant in UTC, as `to_rfc3339` writes it: the Gregorian date and the time of day in fixed widths,
the fraction of a second in as many of nothing, three, six and nine digits as it needs, and the offset. The sign of
the offset sorts before every digit and before the point of a fraction, so up to the year 9999 the texts of two
instants are ordered as the instants are, whatever the widths of their fractions. A later year is written with a
sign of its own, and sorts before all of them.
-/

namespace RyuRooms.Foundation.Rfc3339

/-- The digits of a number below `10 ^ width`. -/
def digits : ℕ → ℕ → List Char
  | 0, _ => []
  | width + 1, n => digits width (n / 10) ++ [Nat.digitChar (n % 10)]

/-- The leap years up to a year. -/
def leapYears (year : ℕ) : ℕ := year / 4 - year / 100 + year / 400

/-- The days from the epoch to the first of a year. -/
def yearStart (year : ℕ) : ℕ := 365 * (year - 1970) + leapYears (year - 1) - leapYears 1969

/-- The year of a day since the epoch; the average length of a year misses it by one at most. -/
def yearOf (days : ℕ) : ℕ :=
  let guess := 1970 + days * 400 / 146097
  if days < yearStart guess then guess - 1 else if yearStart (guess + 1) ≤ days then guess + 1 else guess

def isLeap (year : ℕ) : Bool := year % 4 == 0 && (year % 100 != 0 || year % 400 == 0)

/-- The days of a year before each of its months. -/
def monthStarts (year : ℕ) : List ℕ :=
  let leap := if isLeap year then 1 else 0
  [0, 31, 59 + leap, 90 + leap, 120 + leap, 151 + leap, 181 + leap, 212 + leap, 243 + leap, 273 + leap, 304 + leap,
    334 + leap]

/-- The month of a day of a year. -/
def monthOf (year day : ℕ) : ℕ := (monthStarts year).countP (· ≤ day)

/-- The date of a day since the epoch. -/
def dateText (days : ℕ) : List Char :=
  let year := yearOf days
  let day := days - yearStart year
  let month := monthOf year day
  let start := (monthStarts year).getD (month - 1) 0
  (if year ≤ 9999 then digits 4 year else '+' :: Nat.toDigits 10 year) ++
    '-' :: digits 2 month ++ '-' :: digits 2 (day - start + 1)

/-- The time of a second of a day. -/
def timeText (second : ℕ) : List Char :=
  digits 2 (second / 3600) ++ ':' :: digits 2 (second / 60 % 60) ++ ':' :: digits 2 (second % 60)

/-- The fraction of a second, in nanoseconds, as short as it can be in groups of three digits. -/
def fractionText (nanos : ℕ) : List Char :=
  if nanos = 0 then []
  else if nanos % 1000000 = 0 then '.' :: digits 3 (nanos / 1000000)
  else if nanos % 1000 = 0 then '.' :: digits 6 (nanos / 1000)
  else '.' :: digits 9 nanos

/-- The characters of an instant, in nanoseconds since the epoch. -/
def chars (instant : ℕ) : List Char :=
  let second := instant / 1000000000
  dateText (second / 86400) ++ 'T' :: timeText (second % 86400) ++ fractionText (instant % 1000000000) ++
    ['+', '0', '0', ':', '0', '0']

/-- `DateTime::to_rfc3339`, of an instant in UTC. -/
def toRfc3339 (instant : ℕ) : String := String.ofList (chars instant)

/-- The first instant of the year 10000. -/
def YEAR_10000 : ℕ := 253402300800 * 1000000000

section Digits

theorem length_digits (width n : ℕ) : (digits width n).length = width := by
  induction width generalizing n with
  | zero => rfl
  | succ width ih => simp [digits, ih]

theorem digitChar_lt : ∀ small < 10, ∀ large < 10, small < large → Nat.digitChar small < Nat.digitChar large := by
  decide

/-- Every digit sorts after the sign of the offset. -/
theorem sign_lt_digitChar : ∀ n < 10, '+' < Nat.digitChar n := by decide

/-- Texts that differ within a common length are ordered there. -/
theorem append_lt_append {first second : List Char} (same : first.length = second.length) (before : first < second)
    (left right : List Char) : first ++ left < second ++ right := by
  induction first generalizing second with
  | nil =>
    obtain rfl := List.length_eq_zero_iff.mp same.symm
    exact absurd before (List.lt_irrefl _)
  | cons c first ih =>
    obtain _ | ⟨d, second⟩ := second
    · cases same
    · rw [List.cons_append, List.cons_append, List.cons_lt_cons_iff]
      rcases List.cons_lt_cons_iff.mp before with head | ⟨head, tail⟩
      · exact .inl head
      · exact .inr ⟨head, ih (Nat.succ.inj same) tail⟩

theorem digits_lt {width small large : ℕ} (before : small < large) (fits : large < 10 ^ width) :
    digits width small < digits width large := by
  induction width generalizing small large with
  | zero => omega
  | succ width ih =>
    rw [Nat.pow_succ] at fits
    rw [digits, digits]
    rcases lt_or_eq_of_le (Nat.div_le_div_right before.le : small / 10 ≤ large / 10) with head | head
    · exact append_lt_append (by rw [length_digits, length_digits]) (ih head (by omega)) _ _
    · rw [head]
      exact List.append_left_lt (.rel (digitChar_lt _ (by omega) _ (by omega) (by omega)))

/-- The first digits of a number are those of its quotient. -/
theorem digits_add (width more n : ℕ) :
    digits (width + more) n = digits width (n / 10 ^ more) ++ digits more (n % 10 ^ more) := by
  induction more generalizing n with
  | zero => simp [digits]
  | succ more ih =>
    have quotient : n / 10 / 10 ^ more = n / 10 ^ (more + 1) := by
      rw [Nat.div_div_eq_div_mul, Nat.pow_succ, Nat.mul_comm]
    have rest : n / 10 % 10 ^ more = n % 10 ^ (more + 1) / 10 := by
      rw [Nat.pow_succ, Nat.mul_comm, Nat.mod_mul_right_div_self]
    have last : n % 10 = n % 10 ^ (more + 1) % 10 := by
      rw [Nat.mod_mod_of_dvd _ (Dvd.intro_left _ (Nat.pow_succ ..).symm)]
    rw [← Nat.add_assoc, digits, ih, quotient, rest, digits, List.append_assoc, last]

end Digits

section Dates

/-- Of four hundred years ninety-seven are leap years, up to what the last years miss. -/
theorem leapYears_bounds (year : ℕ) :
    400 * leapYears year ≤ 97 * year + 700 ∧ 97 * year ≤ 400 * leapYears year + 700 := by
  rw [leapYears]
  omega

theorem leapYears_succ (year : ℕ) : leapYears (year + 1) = leapYears year + if isLeap (year + 1) then 1 else 0 := by
  have centuries : year / 100 ≤ year / 4 := Nat.div_le_div_left (by decide) (by decide)
  have leap : isLeap (year + 1) ↔ 4 ∣ year + 1 ∧ (100 ∣ year + 1 → 400 ∣ year + 1) := by
    simp [isLeap, Nat.dvd_iff_mod_eq_zero, imp_iff_not_or]
  simp only [leapYears, leap, Nat.succ_div]
  by_cases century : 100 ∣ year + 1
  · have fourth : 4 ∣ year + 1 := Nat.dvd_trans (by decide) century
    simp only [century, fourth, if_true, true_and, forall_const]
    omega
  · have ordinary : ¬ 400 ∣ year + 1 := fun last => century (Nat.dvd_trans (by decide) last)
    simp only [century, ordinary, if_false, false_imp_iff, and_true]
    omega

theorem leapYears_mono : Monotone leapYears := by
  refine monotone_nat_of_le_succ fun year => ?_
  rw [leapYears_succ]
  exact Nat.le_add_right _ _

/-- The days of a year. -/
theorem yearStart_succ {year : ℕ} (dated : 1970 ≤ year) :
    yearStart (year + 1) = yearStart year + if isLeap year then 366 else 365 := by
  obtain ⟨year, rfl⟩ := Nat.exists_eq_add_of_le' dated
  have later := @leapYears_mono 1969 (year + 1969) (Nat.le_add_left _ _)
  have leap := leapYears_succ (year + 1969)
  rw [yearStart, yearStart, Nat.add_sub_cancel, Nat.add_succ_sub_one, leap]
  split <;> omega

theorem yearStart_bounds {year : ℕ} (dated : 1970 ≤ year) :
    400 * yearStart year + 190800 ≤ 146000 * (year - 1970) + 97 * year + 700 ∧
      146000 * (year - 1970) + 97 * year ≤ 400 * yearStart year + 191600 := by
  have bounds := leapYears_bounds (year - 1)
  have later := @leapYears_mono 1969 (year - 1) (by omega)
  have epoch : leapYears 1969 = 477 := rfl
  rw [yearStart]
  omega

theorem yearStart_mono : Monotone yearStart := by
  intro first second before
  have := @leapYears_mono (first - 1) (second - 1) (by omega)
  rw [yearStart, yearStart]
  omega

/-- A day lies in its year. -/
theorem yearOf_spec (days : ℕ) :
    1970 ≤ yearOf days ∧ yearStart (yearOf days) ≤ days ∧ days < yearStart (yearOf days + 1) := by
  have guess := Nat.div_add_mod (days * 400) 146097
  have rest := Nat.mod_lt (days * 400) (show 0 < 146097 by decide)
  unfold yearOf
  dsimp only
  generalize days * 400 / 146097 = years at guess ⊢
  have here := @yearStart_bounds (1970 + years) (by omega)
  split
  · next early =>
    obtain _ | years := years
    · exact absurd early (Nat.not_lt_zero _)
    · have before := @yearStart_bounds (1970 + years) (by omega)
      refine ⟨by omega, ?_, early⟩
      rw [show 1970 + (years + 1) - 1 = 1970 + years by omega]
      omega
  · next reached =>
    split
    · next late =>
      have later := @yearStart_bounds (1970 + years + 1 + 1) (by omega)
      exact ⟨by omega, late, by omega⟩
    · next within => exact ⟨by omega, by omega, by omega⟩

/-- Years do not run backwards. -/
theorem yearOf_le {first second : ℕ} (before : first ≤ second) : yearOf first ≤ yearOf second := by
  obtain ⟨-, start, -⟩ := yearOf_spec first
  obtain ⟨-, -, finish⟩ := yearOf_spec second
  by_contra later
  have := yearStart_mono (show yearOf second + 1 ≤ yearOf first by omega)
  omega

theorem yearOf_le_9999 {days : ℕ} (early : days < 2932897) : yearOf days ≤ 9999 := by
  by_contra late
  have := @yearStart_mono 10000 (yearOf days) (by omega)
  have reached : yearStart 10000 = 2932897 := by decide
  obtain ⟨-, start, -⟩ := yearOf_spec days
  omega

theorem dayOfYear_lt (days : ℕ) : days - yearStart (yearOf days) < if isLeap (yearOf days) then 366 else 365 := by
  obtain ⟨dated, start, finish⟩ := yearOf_spec days
  rw [yearStart_succ dated] at finish
  exact Nat.sub_lt_left_of_lt_add start finish

theorem monthOf_le {year first second : ℕ} (before : first ≤ second) : monthOf year first ≤ monthOf year second :=
  List.countP_mono_left fun start _ reached => by
    simp only [decide_eq_true_eq] at reached ⊢
    omega

theorem monthOf_lt (year day : ℕ) : monthOf year day < 13 := Nat.lt_succ_of_le List.countP_le_length

/-- The month of a day of a year has it, and no month has a hundred days. -/
theorem monthOf_spec (year : ℕ) {day : ℕ} (within : day < if isLeap year then 366 else 365) :
    1 ≤ monthOf year day ∧ (monthStarts year).getD (monthOf year day - 1) 0 ≤ day ∧
      day < (monthStarts year ++ [if isLeap year then 366 else 365]).getD (monthOf year day) 0 ∧
      day - (monthStarts year).getD (monthOf year day - 1) 0 + 1 < 100 := by
  have known : ∀ calendar ∈ [(monthStarts 1970, 365), (monthStarts 1972, 366)], (List.range calendar.2).all fun day =>
      let month := calendar.1.countP (· ≤ day)
      1 ≤ month && calendar.1.getD (month - 1) 0 ≤ day && day < (calendar.1 ++ [calendar.2]).getD month 0 &&
        day - calendar.1.getD (month - 1) 0 + 1 < 100 := by
    decide +kernel
  have calendar : (monthStarts year, if isLeap year then 366 else 365) ∈
      [(monthStarts 1970, 365), (monthStarts 1972, 366)] := by
    cases leap : isLeap year with
    | false => exact List.mem_cons.mpr (.inl (by simp [monthStarts, leap]; decide))
    | true => exact List.mem_cons_of_mem _ (List.mem_singleton.mpr (by simp [monthStarts, leap]; decide))
  simpa [monthOf, and_assoc] using List.all_eq_true.mp (known _ calendar) day (List.mem_range.mpr within)

theorem length_dateText {days : ℕ} (early : days < 2932897) : (dateText days).length = 10 := by
  simp [dateText, yearOf_le_9999 early, length_digits]

/-- Dates are ordered as their texts are. -/
theorem dateText_lt {first second : ℕ} (before : first < second) (early : second < 2932897) :
    dateText first < dateText second := by
  have firstYear := yearOf_le_9999 (before.trans early)
  have secondYear := yearOf_le_9999 early
  have widths (width left right : ℕ) : (digits width left).length = (digits width right).length := by
    rw [length_digits, length_digits]
  simp only [dateText, if_pos firstYear, if_pos secondYear, List.append_assoc, List.cons_append]
  rcases lt_or_eq_of_le (yearOf_le before.le) with year | year
  · have fits : yearOf second < 10 ^ 4 := secondYear.trans_lt (by decide)
    exact append_lt_append (widths ..) (digits_lt year fits) _ _
  · obtain ⟨-, start, -⟩ := yearOf_spec first
    rw [year] at start ⊢
    refine List.append_left_lt (List.cons_lt_cons_iff.mpr (.inr ⟨rfl, ?_⟩))
    have within := dayOfYear_lt second
    have day : first - yearStart (yearOf second) < second - yearStart (yearOf second) := by omega
    rcases lt_or_eq_of_le (@monthOf_le (yearOf second) _ _ day.le) with month | month
    · exact append_lt_append (widths ..) (digits_lt month ((monthOf_lt _ _).trans (by decide))) _ _
    · rw [month]
      refine List.append_left_lt (List.cons_lt_cons_iff.mpr (.inr ⟨rfl, digits_lt ?_ (monthOf_spec _ within).2.2.2⟩))
      have reached := (monthOf_spec (yearOf second) (day.trans within)).2.1
      rw [month] at reached
      omega

end Dates

section Times

theorem length_timeText (second : ℕ) : (timeText second).length = 8 := by simp [timeText, length_digits]

theorem timeText_lt {first second : ℕ} (before : first < second) (within : second < 86400) :
    timeText first < timeText second := by
  have widths (left right : ℕ) : (digits 2 left).length = (digits 2 right).length := by
    rw [length_digits, length_digits]
  simp only [timeText, List.append_assoc, List.cons_append]
  rcases lt_or_eq_of_le (Nat.div_le_div_right before.le : first / 3600 ≤ second / 3600) with hour | hour
  · exact append_lt_append (widths ..) (digits_lt hour (by omega)) _ _
  · rw [hour]
    refine List.append_left_lt (List.cons_lt_cons_iff.mpr (.inr ⟨rfl, ?_⟩))
    rcases lt_or_eq_of_le (show first / 60 % 60 ≤ second / 60 % 60 by omega) with minute | minute
    · exact append_lt_append (widths ..) (digits_lt minute (by omega)) _ _
    · rw [minute]
      exact List.append_left_lt (List.cons_lt_cons_iff.mpr (.inr ⟨rfl, digits_lt (by omega) (by omega)⟩))

/-- A fraction that ends sooner sorts before those that it starts. -/
theorem shorter_lt {width more small large : ℕ} (before : small ≤ large / 10 ^ more) (longer : 0 < more)
    (fits : large < 10 ^ (width + more)) (left right : List Char) :
    digits width small ++ '+' :: left < digits (width + more) large ++ right := by
  rw [digits_add, List.append_assoc]
  rcases lt_or_eq_of_le before with head | rfl
  · refine append_lt_append (by rw [length_digits, length_digits]) (digits_lt head ?_) _ _
    rw [Nat.div_lt_iff_lt_mul (by positivity), ← Nat.pow_add]
    exact fits
  · refine List.append_left_lt ?_
    obtain _ | more := more
    · cases longer
    · rw [show more + 1 = 1 + more from Nat.add_comm .., digits_add, digits, digits, List.append_assoc]
      exact .rel (sign_lt_digitChar _ (Nat.mod_lt _ (by decide)))

/-- A fraction that goes on sorts before those that are larger where they end. -/
theorem longer_lt {width more small large : ℕ} (before : small / 10 ^ more < large) (fits : large < 10 ^ width)
    (left right : List Char) : digits (width + more) small ++ left < digits width large ++ right := by
  rw [digits_add, List.append_assoc]
  exact append_lt_append (by rw [length_digits, length_digits]) (digits_lt before fits) _ _

/-- Fractions in any of the widths that hold them are ordered as their texts with an offset are. -/
theorem fraction_lt {first second left right : ℕ} (before : first < second) (within : second < 10 ^ 9)
    (leftFits : left ≤ 9) (rightFits : right ≤ 9) (leftWhole : 10 ^ (9 - left) ∣ first)
    (rightWhole : 10 ^ (9 - right) ∣ second) (offset : List Char) :
    digits left (first / 10 ^ (9 - left)) ++ '+' :: offset <
      digits right (second / 10 ^ (9 - right)) ++ '+' :: offset := by
  have fits (width : ℕ) (small : width ≤ 9) : second / 10 ^ (9 - width) < 10 ^ width := by
    rw [Nat.div_lt_iff_lt_mul (by positivity), ← Nat.pow_add, Nat.add_sub_cancel' small]
    exact within
  rcases lt_trichotomy left right with shorter | rfl | longer
  · obtain ⟨more, rfl⟩ := Nat.exists_eq_add_of_lt shorter
    have width : 9 - (left + (more + 1)) + (more + 1) = 9 - left := by omega
    refine @shorter_lt left (more + 1) _ _ ?_ more.succ_pos (fits _ rightFits) _ _
    rw [Nat.div_div_eq_div_mul, ← Nat.pow_add, width]
    exact Nat.div_le_div_right before.le
  · exact append_lt_append (by rw [length_digits, length_digits])
      (digits_lt (Nat.div_lt_div_of_lt_of_dvd rightWhole before) (fits _ leftFits)) _ _
  · obtain ⟨more, rfl⟩ := Nat.exists_eq_add_of_lt longer
    have width : 9 - (right + more + 1) + (more + 1) = 9 - right := by omega
    refine @longer_lt right (more + 1) _ _ ?_ (fits _ rightFits) _ _
    rw [Nat.div_div_eq_div_mul, ← Nat.pow_add, width]
    exact Nat.div_lt_div_of_lt_of_dvd rightWhole before

/-- A fraction that is written is written in a width that holds it. -/
theorem fractionText_eq {nanos : ℕ} (some : nanos ≠ 0) :
    ∃ width ≤ 9, 10 ^ (9 - width) ∣ nanos ∧ fractionText nanos = '.' :: digits width (nanos / 10 ^ (9 - width)) := by
  rw [fractionText, if_neg some]
  split
  · next millis => exact ⟨3, by decide, Nat.dvd_of_mod_eq_zero millis, rfl⟩
  · split
    · next micros => exact ⟨6, by decide, Nat.dvd_of_mod_eq_zero micros, rfl⟩
    · exact ⟨9, le_rfl, one_dvd _, by simp⟩

/-- Fractions of a second are ordered as their texts with an offset are, whatever their widths. -/
theorem fractionText_lt {first second : ℕ} (before : first < second) (within : second < 10 ^ 9)
    (offset : List Char) : fractionText first ++ '+' :: offset < fractionText second ++ '+' :: offset := by
  obtain ⟨right, rightFits, rightWhole, secondText⟩ := fractionText_eq (Nat.ne_zero_of_lt before)
  rw [secondText]
  by_cases none : first = 0
  · rw [none, fractionText, if_pos rfl]
    exact .rel (by decide)
  · obtain ⟨left, leftFits, leftWhole, firstText⟩ := fractionText_eq none
    rw [firstText]
    refine List.cons_lt_cons_iff.mpr (.inr ⟨rfl, ?_⟩)
    exact fraction_lt before within leftFits rightFits leftWhole rightWhole offset

end Times

section Instants

/-- Up to the year 9999, instants are ordered as their texts are. -/
theorem chars_lt {first second : ℕ} (before : first < second) (early : second < YEAR_10000) :
    chars first < chars second := by
  have days : second / 1000000000 / 86400 < 2932897 := by
    rw [YEAR_10000] at early
    omega
  simp only [chars, List.append_assoc, List.cons_append]
  rcases lt_or_eq_of_le (show first / 1000000000 / 86400 ≤ second / 1000000000 / 86400 by omega) with day | day
  · exact append_lt_append (by rw [length_dateText days, length_dateText (day.trans days)]) (dateText_lt day days) _ _
  · rw [day]
    refine List.append_left_lt (List.cons_lt_cons_iff.mpr (.inr ⟨rfl, ?_⟩))
    rcases lt_or_eq_of_le (show first / 1000000000 % 86400 ≤ second / 1000000000 % 86400 by omega) with time | time
    · exact append_lt_append (by rw [length_timeText, length_timeText]) (timeText_lt time (by omega)) _ _
    · rw [time]
      exact List.append_left_lt (fractionText_lt (by omega) (Nat.mod_lt _ (by decide)) _)

/-- Up to the year 9999, texts are ordered as their instants are. -/
theorem toRfc3339_lt_iff {first second : ℕ} (firstEarly : first < YEAR_10000) (secondEarly : second < YEAR_10000) :
    toRfc3339 first < toRfc3339 second ↔ first < second := by
  have ordered {left right : ℕ} (before : left < right) (early : right < YEAR_10000) :
      toRfc3339 left < toRfc3339 right := by
    rw [String.lt_iff, toRfc3339, toRfc3339, String.toList_ofList, String.toList_ofList]
    exact chars_lt before early
  refine ⟨fun textual => ?_, fun before => ordered before secondEarly⟩
  by_contra later
  rcases eq_or_lt_of_le (not_lt.mp later) with rfl | after
  · exact absurd (String.lt_iff.mp textual) (List.lt_irrefl _)
  · exact absurd (String.lt_iff.mp textual) (List.lt_asymm (String.lt_iff.mp (ordered after firstEarly)))

end Instants

end RyuRooms.Foundation.Rfc3339
