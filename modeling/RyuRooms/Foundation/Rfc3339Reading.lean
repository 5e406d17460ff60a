import Mathlib.Data.List.GetD
import RyuRooms.Foundation.Rfc3339

/-! # Reading instants from RFC 3339 text

The grammar of RFC 3339, read from the left: a date with a year of four digits, a time of day, a fraction of any
number of digits of which nine count, and an offset. The text of an instant up to the year 9999 is read back as the
instant. The text of a later one begins with a sign, and no timestamp does.
-/

namespace RyuRooms.Foundation.Rfc3339

section Readers

/-- The number that so many digits continue, and what follows them. -/
def number : ℕ → ℕ → List Char → Option (ℕ × List Char)
  | 0, before, text => some (before, text)
  | _ + 1, _, [] => none
  | width + 1, before, c :: text =>
    if c.isDigit then number width (10 * before + (c.toNat - '0'.toNat)) text else none

/-- What follows one of the allowed characters. -/
def expect (allowed : List Char) : List Char → Option (List Char)
  | [] => none
  | c :: text => if allowed.contains c then some text else none

/-- The days from the epoch to a date, where there is one. -/
def daysOf (year month day : ℕ) : Option ℕ :=
  let starts := monthStarts year ++ [yearStart (year + 1) - yearStart year]
  let start := starts.getD (month - 1) 0
  if 1970 ≤ year ∧ 1 ≤ month ∧ month ≤ 12 ∧ 1 ≤ day ∧ start + day ≤ starts.getD month 0 then
    some (yearStart year + start + (day - 1))
  else none

/-- The days from the epoch to the date that a text starts with. -/
def date (text : List Char) : Option (ℕ × List Char) := do
  let (year, text) ← number 4 0 text
  let text ← expect ['-'] text
  let (month, text) ← number 2 0 text
  let text ← expect ['-'] text
  let (day, text) ← number 2 0 text
  let days ← daysOf year month day
  return (days, text)

/-- The second of a day; a minute may end with a leap second. -/
def time (text : List Char) : Option (ℕ × List Char) := do
  let (hour, text) ← number 2 0 text
  let text ← expect [':'] text
  let (minute, text) ← number 2 0 text
  let text ← expect [':'] text
  let (second, text) ← number 2 0 text
  if hour < 24 ∧ minute < 60 ∧ second ≤ 60 then some (3600 * hour + 60 * minute + second, text) else none

/-- The nanoseconds of a fraction, if there is one; what its digits say beyond the ninth is dropped. -/
def fraction (text : List Char) : Option (ℕ × List Char) :=
  match expect ['.'] text with
  | none => some (0, text)
  | some text =>
    let width := min 9 (text.takeWhile (·.isDigit)).length
    if width = 0 then none
    else (number width 0 text).map fun (read, rest) => (read * 10 ^ (9 - width), rest.dropWhile (·.isDigit))

/-- The seconds of an offset without its sign, which ends the text. -/
def shift (text : List Char) : Option ℕ := do
  let (hour, text) ← number 2 0 text
  let text ← expect [':'] text
  let (minute, text) ← number 2 0 text
  if hour < 24 ∧ minute < 60 ∧ text = [] then some (3600 * hour + 60 * minute) else none

/-- The seconds by which a local time is ahead of UTC, and those by which it is behind. -/
def offset : List Char → Option (ℕ × ℕ)
  | [] => none
  | c :: text =>
    if c = '+' then (shift text).map fun seconds => (seconds, 0)
    else if c = '-' then (shift text).map fun seconds => (0, seconds)
    else if (c = 'Z' ∨ c = 'z') ∧ text = [] then some (0, 0)
    else none

/-- The instant of a timestamp from the epoch on, in nanoseconds. -/
def parse (text : List Char) : Option ℕ := do
  let (days, text) ← date text
  let text ← expect ['T', 't', ' '] text
  let (second, text) ← time text
  let (nanos, text) ← fraction text
  let (ahead, behind) ← offset text
  let seconds := 86400 * days + second + behind
  if ahead ≤ seconds then some (1000000000 * (seconds - ahead) + nanos) else none

end Readers

section Digits

theorem digitChar_value : ∀ n < 10, (Nat.digitChar n).isDigit ∧ (Nat.digitChar n).toNat - '0'.toNat = n := by decide

/-- Digits are read one part after the other. -/
theorem number_add (width more before : ℕ) (text : List Char) : number (width + more) before text =
    (number width before text).bind fun (read, rest) => number more read rest := by
  induction width generalizing before text with
  | zero => rw [Nat.zero_add, number, Option.bind_some]
  | succ width ih =>
    rw [Nat.add_right_comm]
    cases text with
    | nil => rfl
    | cons c text =>
      rw [number, number]
      split
      · exact ih ..
      · rfl

/-- The digits of a number are read on behind another one. -/
theorem number_digits_behind {width n : ℕ} (fits : n < 10 ^ width) (before : ℕ) (rest : List Char) :
    number width before (digits width n ++ rest) = some (before * 10 ^ width + n, rest) := by
  induction width generalizing n rest with
  | zero =>
    obtain rfl : n = 0 := by simpa using fits
    simp [number, digits]
  | succ width ih =>
    have small : n / 10 < 10 ^ width := by
      rw [Nat.pow_succ] at fits
      omega
    obtain ⟨isDigit, value⟩ := digitChar_value (n % 10) (Nat.mod_lt _ (by decide))
    have whole : 10 * (before * 10 ^ width + n / 10) + n % 10 = before * 10 ^ (width + 1) + n := by
      rw [Nat.pow_succ, ← Nat.mul_assoc]
      omega
    rw [digits, List.append_assoc, number_add, ih small]
    simp only [Option.bind_some, List.singleton_append, number, isDigit, value, whole, if_true]

/-- The digits of a number are read back. -/
theorem number_digits {width n : ℕ} (fits : n < 10 ^ width) (rest : List Char) :
    number width 0 (digits width n ++ rest) = some (n, rest) := by
  rw [number_digits_behind fits, Nat.zero_mul, Nat.zero_add]

@[simp] theorem expect_cons {allowed : List Char} {c : Char} (text : List Char) :
    expect allowed (c :: text) = if c ∈ allowed then some text else none := by
  simp [expect]

theorem isDigit_of_mem_digits {width n : ℕ} {c : Char} (member : c ∈ digits width n) : c.isDigit := by
  induction width generalizing n with
  | zero => cases member
  | succ width ih =>
    rcases List.mem_append.mp member with first | last
    · exact ih first
    · rw [List.mem_singleton.mp last]
      exact (digitChar_value _ (Nat.mod_lt _ (by decide))).1

end Digits

section Dates

/-- A day of a year is read back from its month and its day in the month. -/
theorem daysOf_monthOf {year day : ℕ} (dated : 1970 ≤ year)
    (within : day < if isLeap year then 366 else 365) :
    daysOf year (monthOf year day) (day - (monthStarts year).getD (monthOf year day - 1) 0 + 1) =
      some (yearStart year + day) := by
  obtain ⟨named, reached, inside, -⟩ := monthOf_spec year within
  have month := monthOf_lt year day
  have first : (monthStarts year ++ [if isLeap year then 366 else 365]).getD (monthOf year day - 1) 0 =
      (monthStarts year).getD (monthOf year day - 1) 0 :=
    List.getD_append _ _ _ _ (show monthOf year day - 1 < 12 by omega)
  simp only [daysOf, yearStart_succ dated, Nat.add_sub_cancel_left, first]
  rw [if_pos ⟨dated, named, by omega, by omega, by omega⟩]
  exact congrArg some (by omega)

/-- A date up to the year 9999 is read back. -/
theorem date_dateText {days : ℕ} (early : days < 2932897) (rest : List Char) :
    date (dateText days ++ rest) = some (days, rest) := by
  have year := yearOf_le_9999 early
  obtain ⟨dated, started, -⟩ := yearOf_spec days
  obtain ⟨-, -, -, small⟩ := monthOf_spec (yearOf days) (dayOfYear_lt days)
  have month := monthOf_lt (yearOf days) (days - yearStart (yearOf days))
  have calendar := daysOf_monthOf dated (dayOfYear_lt days)
  rw [Nat.add_sub_cancel' started] at calendar
  simp only [dateText, if_pos year, List.append_assoc, List.cons_append, date]
  rw [number_digits (year.trans_lt (by decide))]
  simp only [Option.bind_eq_bind, Option.bind_some, expect_cons, List.mem_singleton, if_true]
  rw [number_digits (month.trans (by decide))]
  simp only [Option.bind_some, expect_cons, List.mem_singleton, if_true]
  rw [number_digits (by exact small)]
  simp only [Option.bind_some, calendar]
  rfl

end Dates

section Times

theorem time_timeText {second : ℕ} (within : second < 86400) (rest : List Char) :
    time (timeText second ++ rest) = some (second, rest) := by
  simp only [timeText, List.append_assoc, List.cons_append, time]
  rw [number_digits (by omega)]
  simp only [Option.bind_eq_bind, Option.bind_some, expect_cons, List.mem_singleton, if_true]
  rw [number_digits (by omega)]
  simp only [Option.bind_some, expect_cons, List.mem_singleton, if_true]
  rw [number_digits (by omega)]
  simp only [Option.bind_some]
  rw [if_pos ⟨by omega, by omega, by omega⟩]
  congr 2
  omega

/-- A fraction in any width that holds it is read back. -/
theorem fraction_digits {width nanos : ℕ} (some : 0 < width) (small : width ≤ 9) (within : nanos < 10 ^ 9)
    (whole : 10 ^ (9 - width) ∣ nanos) (rest : List Char) :
    fraction ('.' :: (digits width (nanos / 10 ^ (9 - width)) ++ '+' :: rest)) = .some (nanos, '+' :: rest) := by
  have fits : nanos / 10 ^ (9 - width) < 10 ^ width := by
    rw [Nat.div_lt_iff_lt_mul (by positivity), ← Nat.pow_add, Nat.add_sub_cancel' small]
    exact within
  have stops : ('+' :: rest).takeWhile (·.isDigit) = [] := List.takeWhile_cons_of_neg (by decide)
  have taken : (digits width (nanos / 10 ^ (9 - width)) ++ '+' :: rest).takeWhile (·.isDigit) =
      digits width (nanos / 10 ^ (9 - width)) := by
    rw [List.takeWhile_append_of_pos fun _ => isDigit_of_mem_digits, stops, List.append_nil]
  simp only [fraction, expect_cons, List.mem_singleton, if_true, taken, length_digits, Nat.min_eq_right small]
  rw [if_neg some.ne', number_digits fits, Option.map_some, Nat.div_mul_cancel whole,
    List.dropWhile_cons_of_neg (by decide)]

theorem fraction_fractionText {nanos : ℕ} (within : nanos < 1000000000) (rest : List Char) :
    fraction (fractionText nanos ++ '+' :: rest) = some (nanos, '+' :: rest) := by
  by_cases none : nanos = 0
  · rw [none, fractionText, if_pos rfl, List.nil_append, fraction, expect_cons, if_neg (by decide)]
  · obtain ⟨width, small, whole, written⟩ := fractionText_eq none
    have positive : 0 < width := by
      by_contra zero
      obtain rfl : width = 0 := by omega
      exact none (Nat.eq_zero_of_dvd_of_lt whole within)
    rw [written]
    exact fraction_digits positive small within whole rest

end Times

section Instants

/-- From the year 10000 on a text begins with a sign. -/
theorem head_of_late {instant : ℕ} (late : YEAR_10000 ≤ instant) : (chars instant).head? = some '+' := by
  have year : ¬ yearOf (instant / 1000000000 / 86400) ≤ 9999 := by
    intro early
    obtain ⟨-, -, finish⟩ := yearOf_spec (instant / 1000000000 / 86400)
    have := @yearStart_mono (yearOf (instant / 1000000000 / 86400) + 1) 10000 (by omega)
    have reached : yearStart 10000 = 2932897 := by decide
    rw [YEAR_10000] at late
    omega
  simp only [chars, dateText, if_neg year, List.cons_append, List.head?_cons]

/-- The text of an instant is a timestamp up to the year 9999, and then it is read back. -/
theorem parse_chars (instant : ℕ) : parse (chars instant) = if instant < YEAR_10000 then some instant else none := by
  split
  · next early =>
    have days : instant / 1000000000 / 86400 < 2932897 := by
      rw [YEAR_10000] at early
      omega
    simp only [chars, List.append_assoc, List.cons_append, parse]
    rw [date_dateText days]
    simp only [Option.bind_eq_bind, Option.bind_some, expect_cons, List.mem_cons_self, if_true]
    rw [time_timeText (Nat.mod_lt _ (by decide))]
    simp only [Option.bind_some]
    rw [fraction_fractionText (Nat.mod_lt _ (by decide))]
    have utc : offset ['+', '0', '0', ':', '0', '0'] = some (0, 0) := by decide
    simp only [Option.bind_some, utc, Nat.zero_le, if_true]
    congr 1
    omega
  · next late =>
    obtain ⟨rest, text⟩ := List.head?_eq_some_iff.mp (head_of_late (not_lt.mp late))
    rw [text]
    rfl

end Instants

end RyuRooms.Foundation.Rfc3339
