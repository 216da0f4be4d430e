/-
  Civil dates and times, their fixed-width text, and the time line.

  A `Date` is a day of the Gregorian calendar with a year of four digits, and a `DateTime` adds
  a time of day. `basic` is the basic format, YYYYMMDD and YYYYMMDDTHHMMSS.

  A point of the time line (`Instant`) is a number of minutes and a second within the minute, in
  that order. A minute may so have a leap second, and clocks that differ by whole minutes are
  shifts of each other.

  The text is compared character by character and the points of the time line by their
  numbers; `DateTime.basic_lt_iff` says that it is the same order, over the ends of months and
  years.
-/
import Mathlib

namespace Civil

open Finset

/-! ## The calendar -/

def isLeap (year : Nat) : Bool := year % 4 = 0 && (year % 100 ≠ 0 || year % 400 = 0)

def daysInYear (year : Nat) : Nat := if isLeap year then 366 else 365

def daysInMonth (year month : Nat) : Nat :=
  if month = 2 then if isLeap year then 29 else 28
  else if month = 4 ∨ month = 6 ∨ month = 9 ∨ month = 11 then 30
  else 31

/-- A day of the calendar. -/
structure Date where
  year : Nat
  month : Nat
  day : Nat
  year_lt : year < 10000
  month_pos : 0 < month
  month_le : month ≤ 12
  day_pos : 0 < day
  day_le : day ≤ daysInMonth year month

/-- The days before this one: of the years before, of the months before, and of the month. -/
def Date.number (d : Date) : Nat :=
  ∑ y ∈ range d.year, daysInYear y + ∑ m ∈ range (d.month - 1), daysInMonth d.year (m + 1) +
    (d.day - 1)

/-- A day and a time of it. A minute with a leap second has a second 60. -/
structure DateTime extends Date where
  hour : Nat
  minute : Nat
  second : Nat
  hour_lt : hour < 24
  minute_lt : minute < 60
  second_le : second ≤ 60

/-- A point of the time line: the minute and the second in it. -/
abbrev Instant := ℤ ×ₗ ℕ

/-- The minutes before a time of day. -/
def DateTime.minutes (t : DateTime) : Nat := t.number * 1440 + t.hour * 60 + t.minute

/-- The point of the time line that a clock shows which is `offset` minutes ahead. -/
def DateTime.instant (t : DateTime) (offset : ℤ) : Instant := toLex (t.minutes - offset, t.second)

/-- The beginning of a day. -/
def Date.midnight (d : Date) : DateTime :=
  { d with hour := 0, minute := 0, second := 0, hour_lt := by decide, minute_lt := by decide
           second_le := by decide }

theorem sum_range_add_le (f : Nat → Nat) {m n : Nat} (h : m < n) :
    ∑ i ∈ range m, f i + f m ≤ ∑ i ∈ range n, f i := by
  rw [← sum_range_succ]
  exact sum_le_sum_of_subset (range_mono h)

theorem sum_daysInMonth (year : Nat) :
    ∑ m ∈ range 12, daysInMonth year (m + 1) = daysInYear year := by
  unfold daysInYear
  cases h : isLeap year <;> simp [sum_range_succ, daysInMonth, h]

section

variable (d d' : Date)

/-- The day lies in its month. -/
theorem Date.number_lt_month :
    d.number < ∑ y ∈ range d.year, daysInYear y +
      (∑ m ∈ range (d.month - 1), daysInMonth d.year (m + 1) + daysInMonth d.year d.month) := by
  have hday := d.day_le
  have hpos := d.day_pos
  unfold Date.number
  omega

/-- The day lies in its year. -/
theorem Date.number_lt_year :
    d.number < ∑ y ∈ range d.year, daysInYear y + daysInYear d.year := by
  have hmonth := d.month_le
  have hpos := d.month_pos
  have hsum := sum_range_add_le (fun m => daysInMonth d.year (m + 1))
    (show d.month - 1 < 12 by omega)
  rw [sum_daysInMonth, Nat.sub_add_cancel hpos] at hsum
  have hnumber := d.number_lt_month
  omega

variable {d d'}

theorem Date.number_lt_of_year (h : d.year < d'.year) : d.number < d'.number := by
  have hsum := sum_range_add_le daysInYear h
  have hnumber := d.number_lt_year
  unfold Date.number at hnumber ⊢
  omega

theorem Date.number_lt_of_month (hy : d.year = d'.year) (h : d.month < d'.month) :
    d.number < d'.number := by
  have hpos := d.month_pos
  have hsum := sum_range_add_le (fun m => daysInMonth d.year (m + 1))
    (show d.month - 1 < d'.month - 1 by omega)
  rw [Nat.sub_add_cancel hpos] at hsum
  have hnumber := d.number_lt_month
  unfold Date.number at hnumber ⊢
  rw [← hy]
  omega

theorem Date.number_lt_of_day (hy : d.year = d'.year) (hm : d.month = d'.month)
    (h : d.day < d'.day) : d.number < d'.number := by
  have hpos := d.day_pos
  unfold Date.number
  rw [← hy, ← hm]
  omega

end

/-! ## Digits -/

/-- The last `width` decimal digits of a number. -/
def digits : (width n : Nat) → List Char
  | 0, _ => []
  | width + 1, n => digits width (n / 10) ++ [Nat.digitChar (n % 10)]

theorem digits_length (width n : Nat) : (digits width n).length = width := by
  induction width generalizing n with
  | zero => rfl
  | succ width ih => rw [digits, List.length_append, ih, List.length_singleton]

/-- Two orders that agree on two elements agree on their equality. -/
theorem eq_iff_of_lt_iff {α β : Type} [LinearOrder α] [LinearOrder β] {a b : α} {c d : β}
    (h : a < b ↔ c < d) (h' : b < a ↔ d < c) : a = b ↔ c = d := by
  rcases lt_trichotomy a b with hlt | heq | hgt
  · exact iff_of_false hlt.ne (h.mp hlt).ne
  · refine iff_of_true heq (eq_of_le_of_ge (not_lt.mp ?_) (not_lt.mp ?_))
    · exact h'.not.mp (heq ▸ lt_irrefl _)
    · exact h.not.mp (heq ▸ lt_irrefl _)
  · exact iff_of_false hgt.ne' (h'.mp hgt).ne'

/-- Lists with beginnings of one length compare by these first. -/
theorem append_lt_append_iff {α : Type} [LT α] {a b c d : List α} (h : a.length = b.length) :
    a ++ c < b ++ d ↔ a < b ∨ a = b ∧ c < d := by
  induction a generalizing b with
  | nil =>
    obtain rfl := List.length_eq_zero_iff.mp h.symm
    simp
  | cons x a ih =>
    cases b with
    | nil => cases h
    | cons y b =>
      rw [List.cons_append, List.cons_append, List.cons_lt_cons_iff, List.cons_lt_cons_iff,
        ih (Nat.succ.inj h), List.cons.injEq]
      tauto

theorem digitChar_lt_iff {a b : Nat} (ha : a < 10) (hb : b < 10) :
    [Nat.digitChar a] < [Nat.digitChar b] ↔ a < b := by
  have h : ∀ a b : Fin 10, [Nat.digitChar a] < [Nat.digitChar b] ↔ a < b := by decide
  exact h ⟨a, ha⟩ ⟨b, hb⟩

/-- Digits of one width compare as the numbers do. -/
theorem digits_lt_iff {width a b : Nat} (ha : a < 10 ^ width) (hb : b < 10 ^ width) :
    digits width a < digits width b ↔ a < b := by
  induction width generalizing a b with
  | zero =>
    rw [pow_zero, Nat.lt_one_iff] at ha hb
    rw [ha, hb]
    exact iff_of_false (lt_irrefl _) (lt_irrefl _)
  | succ width ih =>
    rw [pow_succ] at ha hb
    have ha' : a / 10 < 10 ^ width := by omega
    have hb' : b / 10 < 10 ^ width := by omega
    have heq := eq_iff_of_lt_iff (ih ha' hb') (ih hb' ha')
    rw [digits, digits, append_lt_append_iff (by rw [digits_length, digits_length]), ih ha' hb',
      heq, digitChar_lt_iff (Nat.mod_lt _ (by decide)) (Nat.mod_lt _ (by decide))]
    omega

theorem digits_inj {width a b : Nat} (ha : a < 10 ^ width) (hb : b < 10 ^ width) :
    digits width a = digits width b ↔ a = b :=
  eq_iff_of_lt_iff (digits_lt_iff ha hb) (digits_lt_iff hb ha)

/-! ## The basic format -/

/-- YYYYMMDD. -/
def Date.basic (d : Date) : List Char := digits 4 d.year ++ (digits 2 d.month ++ digits 2 d.day)

/-- HHMMSS. -/
def DateTime.basicTime (t : DateTime) : List Char :=
  digits 2 t.hour ++ (digits 2 t.minute ++ digits 2 t.second)

/-- YYYYMMDDTHHMMSS. -/
def DateTime.basic (t : DateTime) : List Char := t.toDate.basic ++ 'T' :: t.basicTime

section

variable {d d' : Date}

theorem Date.basic_length (d : Date) : d.basic.length = 8 := by
  simp [Date.basic, digits_length]

theorem Date.digits_bounds (d : Date) : d.year < 10 ^ 4 ∧ d.month < 10 ^ 2 ∧ d.day < 10 ^ 2 := by
  have hmonth := d.month_le
  have hday := d.day_le
  have hlong : daysInMonth d.year d.month ≤ 31 := by
    unfold daysInMonth
    split_ifs <;> decide
  exact ⟨d.year_lt, by omega, by omega⟩

theorem Date.number_of_basic_lt (h : d.basic < d'.basic) : d.number < d'.number := by
  obtain ⟨hy, hm, hd⟩ := d.digits_bounds
  obtain ⟨hy', hm', hd'⟩ := d'.digits_bounds
  unfold Date.basic at h
  rw [append_lt_append_iff (by simp [digits_length]), append_lt_append_iff
    (by simp [digits_length]), digits_lt_iff hy hy', digits_inj hy hy', digits_lt_iff hm hm',
    digits_inj hm hm', digits_lt_iff hd hd'] at h
  rcases h with h | ⟨hyear, h | ⟨hmonth, h⟩⟩
  · exact Date.number_lt_of_year h
  · exact Date.number_lt_of_month hyear h
  · exact Date.number_lt_of_day hyear hmonth h

theorem Date.number_of_basic_eq (h : d.basic = d'.basic) : d.number = d'.number := by
  obtain ⟨hy, hm, hd⟩ := d.digits_bounds
  obtain ⟨hy', hm', hd'⟩ := d'.digits_bounds
  unfold Date.basic at h
  obtain ⟨hyear, h⟩ := List.append_inj h (by simp [digits_length])
  obtain ⟨hmonth, hday⟩ := List.append_inj h (by simp [digits_length])
  rw [digits_inj hy hy'] at hyear
  rw [digits_inj hm hm'] at hmonth
  rw [digits_inj hd hd'] at hday
  unfold Date.number
  rw [hyear, hmonth, hday]

/-- Dates compare as text as they follow one another. -/
theorem Date.basic_lt_iff : d.basic < d'.basic ↔ d.number < d'.number := by
  refine ⟨Date.number_of_basic_lt, fun h => ?_⟩
  rcases lt_trichotomy d.basic d'.basic with hlt | heq | hgt
  · exact hlt
  · exact absurd (Date.number_of_basic_eq heq) h.ne
  · exact absurd (Date.number_of_basic_lt hgt) h.not_gt

theorem Date.basic_inj : d.basic = d'.basic ↔ d.number = d'.number :=
  eq_iff_of_lt_iff Date.basic_lt_iff Date.basic_lt_iff

end

section

variable {t t' : DateTime}

theorem DateTime.basicTime_lt_iff : t.basicTime < t'.basicTime ↔
    t.hour < t'.hour ∨ t.hour = t'.hour ∧
      (t.minute < t'.minute ∨ t.minute = t'.minute ∧ t.second < t'.second) := by
  have bounds : ∀ t : DateTime, t.hour < 10 ^ 2 ∧ t.minute < 10 ^ 2 ∧ t.second < 10 ^ 2 := by
    intro t
    have := t.hour_lt
    have := t.minute_lt
    have := t.second_le
    exact ⟨by omega, by omega, by omega⟩
  obtain ⟨hh, hm, hs⟩ := bounds t
  obtain ⟨hh', hm', hs'⟩ := bounds t'
  unfold DateTime.basicTime
  rw [append_lt_append_iff (by simp [digits_length]), append_lt_append_iff
    (by simp [digits_length]), digits_lt_iff hh hh', digits_inj hh hh', digits_lt_iff hm hm',
    digits_inj hm hm', digits_lt_iff hs hs']

/-- **Text order is time order.** Times of one clock compare, character by character, as the
    points of the time line that they name. -/
theorem DateTime.basic_lt_iff (offset : ℤ) :
    t.basic < t'.basic ↔ t.instant offset < t'.instant offset := by
  have hhour := t.hour_lt
  have hminute := t.minute_lt
  have hhour' := t'.hour_lt
  have hminute' := t'.minute_lt
  unfold DateTime.basic DateTime.instant DateTime.minutes
  rw [append_lt_append_iff (by rw [Date.basic_length, Date.basic_length]),
    List.cons_lt_cons_iff, Date.basic_lt_iff, Date.basic_inj, DateTime.basicTime_lt_iff,
    Prod.Lex.toLex_lt_toLex]
  simp only [lt_irrefl, false_or, true_and]
  omega

theorem DateTime.basic_inj (offset : ℤ) :
    t.basic = t'.basic ↔ t.instant offset = t'.instant offset :=
  eq_iff_of_lt_iff (DateTime.basic_lt_iff offset) (DateTime.basic_lt_iff offset)

end

end Civil
