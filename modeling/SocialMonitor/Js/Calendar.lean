import SocialMonitor.Js.Decimal

/-!
# The calendar

The dates of the calendar in UTC, the numbers of their days since the epoch and
the text `YYYY-MM-DD`.
-/

namespace Js

def msPerDay : ℤ := 86400000

def isLeap (year : ℕ) : Bool := year % 4 = 0 && (year % 100 ≠ 0 || year % 400 = 0)

def daysInMonth (year month : ℕ) : ℕ :=
  if month = 2 then if isLeap year then 29 else 28
  else if month = 4 ∨ month = 6 ∨ month = 9 ∨ month = 11 then 30 else 31

def daysInYear (year : ℕ) : ℕ := if isLeap year then 366 else 365

/-- `DayFromYear`. -/
def dayFromYear (year : ℤ) : ℤ :=
  365 * (year - 1970) + (year - 1969) / 4 - (year - 1901) / 100 + (year - 1601) / 400

/-- The days of the first months of a year. -/
def daysThrough (year : ℕ) : ℕ → ℕ
  | 0 => 0
  | month + 1 => daysThrough year month + daysInMonth year (month + 1)

structure CalendarDate where
  year : ℕ
  month : ℕ
  day : ℕ
  month_mem : 1 ≤ month ∧ month ≤ 12
  day_mem : 1 ≤ day ∧ day ≤ daysInMonth year month

namespace CalendarDate

instance : LT CalendarDate :=
  ⟨fun a b => a.year < b.year ∨ a.year = b.year ∧
    (a.month < b.month ∨ a.month = b.month ∧ a.day < b.day)⟩

instance : LE CalendarDate := ⟨fun a b => ¬ b < a⟩

/-- `MakeDay`. -/
def dayNumber (d : CalendarDate) : ℤ :=
  dayFromYear d.year + daysThrough d.year (d.month - 1) + (d.day - 1)

/-- The first instant of the day. -/
def start (d : CalendarDate) : ℤ := d.dayNumber * msPerDay

def Contains (d : CalendarDate) (t : ℤ) : Prop := d.start ≤ t ∧ t < d.start + msPerDay

end CalendarDate

/-- `String(n).padStart(width, "0")`. -/
def padded (width n : ℕ) : List Char :=
  List.replicate (width - (digits n).length) '0' ++ digits n

def CalendarDate.text (d : CalendarDate) : String :=
  String.ofList (padded 4 d.year ++ '-' :: (padded 2 d.month ++ '-' :: padded 2 d.day))

def calendarDate? (year month day : ℕ) : Option CalendarDate :=
  if h : (1 ≤ month ∧ month ≤ 12) ∧ 1 ≤ day ∧ day ≤ daysInMonth year month then
    some ⟨year, month, day, h.1, h.2⟩
  else none

/-- A text of the form `YYYY-MM-DD` that names a date. -/
def isoDate? (s : String) : Option CalendarDate :=
  let year := s.toList.take 4
  let month := (s.toList.drop 5).take 2
  let day := s.toList.drop 8
  if s.toList = year ++ '-' :: (month ++ '-' :: day) ∧ day.length = 2 ∧
      (year ++ (month ++ day)).all Char.isDigit then
    calendarDate? (ofDigits year) (ofDigits month) (ofDigits day)
  else none

/-! ## Years and months -/

theorem dayFromYear_succ (year : ℕ) :
    dayFromYear (year + 1 : ℕ) = dayFromYear year + daysInYear year := by
  unfold dayFromYear daysInYear
  by_cases hleap : isLeap year = true
  · rw [if_pos hleap]
    simp only [isLeap, Bool.and_eq_true, Bool.or_eq_true, decide_eq_true_eq] at hleap
    omega
  · rw [if_neg hleap]
    simp only [isLeap, Bool.and_eq_true, Bool.or_eq_true, decide_eq_true_eq] at hleap
    omega

theorem dayFromYear_mono : Monotone fun year : ℕ => dayFromYear year := by
  apply monotone_nat_of_le_succ
  intro year
  rw [dayFromYear_succ]
  omega

theorem daysThrough_mono (year : ℕ) : Monotone (daysThrough year) :=
  monotone_nat_of_le_succ fun _ => Nat.le_add_right _ _

theorem daysThrough_twelve (year : ℕ) : daysThrough year 12 = daysInYear year := by
  unfold daysInYear
  cases hleap : isLeap year <;> simp [daysThrough, daysInMonth, hleap]

namespace CalendarDate

variable {a b d : CalendarDate}

theorem daysThrough_month (d : CalendarDate) : daysThrough d.year d.month =
    daysThrough d.year (d.month - 1) + daysInMonth d.year d.month := by
  obtain ⟨m, hm⟩ := Nat.exists_eq_add_of_le' d.month_mem.1
  rw [hm]
  rfl

theorem dayFromYear_le (d : CalendarDate) : dayFromYear d.year ≤ d.dayNumber := by
  have hday := d.day_mem.1
  unfold dayNumber
  omega

theorem lt_dayFromYear (d : CalendarDate) : d.dayNumber < dayFromYear (d.year + 1 : ℕ) := by
  have hday := d.day_mem.2
  have hmonth := d.daysThrough_month
  have hyear := daysThrough_mono d.year d.month_mem.2
  rw [daysThrough_twelve] at hyear
  rw [dayFromYear_succ]
  unfold dayNumber
  omega

/-! ## The order of the dates is that of their days -/

theorem dayNumber_lt (h : a < b) : a.dayNumber < b.dayNumber := by
  rcases h with hyear | ⟨hyear, hmonth | ⟨hmonth, hday⟩⟩
  · calc
      a.dayNumber < dayFromYear (a.year + 1 : ℕ) := a.lt_dayFromYear
      _ ≤ dayFromYear b.year := dayFromYear_mono hyear
      _ ≤ b.dayNumber := b.dayFromYear_le
  · have hthrough := a.daysThrough_month
    have hmono := daysThrough_mono a.year (Nat.le_sub_one_of_lt hmonth)
    have ha := a.day_mem.2
    have hb := b.day_mem.1
    unfold dayNumber
    rw [← hyear]
    omega
  · unfold dayNumber
    rw [hyear, hmonth]
    omega

theorem le_iff : a ≤ b ↔ a.dayNumber ≤ b.dayNumber := by
  constructor
  · intro hle
    by_cases hlt : a < b
    · exact (dayNumber_lt hlt).le
    · -- Neither comes before the other.
      have hsame : a.year = b.year ∧ a.month = b.month ∧ a.day = b.day := by
        have hle' : ¬ (b.year < a.year ∨ b.year = a.year ∧
          (b.month < a.month ∨ b.month = a.month ∧ b.day < a.day)) := hle
        have hlt' : ¬ (a.year < b.year ∨ a.year = b.year ∧
          (a.month < b.month ∨ a.month = b.month ∧ a.day < b.day)) := hlt
        omega
      obtain ⟨hyear, hmonth, hday⟩ := hsame
      unfold dayNumber
      rw [hyear, hmonth, hday]
  · intro hle hlt
    exact absurd (dayNumber_lt hlt) (not_lt.mpr hle)

theorem exists_next (d : CalendarDate) : ∃ e : CalendarDate, e.dayNumber = d.dayNumber + 1 := by
  have hthrough := d.daysThrough_month
  by_cases hday : d.day < daysInMonth d.year d.month
  · refine ⟨⟨d.year, d.month, d.day + 1, d.month_mem, Nat.le_add_left _ _, hday⟩, ?_⟩
    simp only [dayNumber]
    omega
  · have hlast : d.day = daysInMonth d.year d.month := le_antisymm d.day_mem.2 (not_lt.mp hday)
    have hpos : ∀ year month, 1 ≤ daysInMonth year month := by
      intro year month
      unfold daysInMonth
      split_ifs <;> norm_num
    by_cases hmonth : d.month < 12
    · refine ⟨⟨d.year, d.month + 1, 1, ⟨Nat.le_add_left _ _, hmonth⟩, le_rfl, hpos _ _⟩, ?_⟩
      simp only [dayNumber, Nat.add_sub_cancel]
      omega
    · have hdecember : d.month = 12 := le_antisymm d.month_mem.2 (not_lt.mp hmonth)
      refine ⟨⟨d.year + 1, 1, 1, by norm_num, le_rfl, hpos _ _⟩, ?_⟩
      have htwelve := daysThrough_twelve d.year
      have hnone : daysThrough (d.year + 1) (1 - 1) = 0 := rfl
      rw [hdecember] at hthrough hlast
      simp only [dayNumber, dayFromYear_succ, hdecember, hnone]
      omega

theorem exists_later (d : CalendarDate) (n : ℕ) :
    ∃ e : CalendarDate, e.dayNumber = d.dayNumber + n := by
  induction n with
  | zero => exact ⟨d, by simp⟩
  | succ n ih =>
      obtain ⟨e, he⟩ := ih
      obtain ⟨f, hf⟩ := e.exists_next
      exact ⟨f, by rw [hf, he]; push_cast; ring⟩

/-- An instant lies on one of the days between two dates exactly if it lies
between the start of the first one and the end of the last one. -/
theorem exists_contains_iff (a b : CalendarDate) (t : ℤ) :
    (∃ d, a ≤ d ∧ d ≤ b ∧ d.Contains t) ↔ a.start ≤ t ∧ t < b.start + msPerDay := by
  constructor
  · rintro ⟨d, had, hdb, hstart, hend⟩
    rw [le_iff] at had hdb
    unfold start msPerDay at *
    constructor <;> linarith
  · rintro ⟨hstart, hend⟩
    have hmod := Int.emod_nonneg t (b := msPerDay) (by decide)
    have hlt := Int.emod_lt_of_pos t (b := msPerDay) (by decide)
    have hdiv := Int.mul_ediv_add_emod t msPerDay
    have hday : a.dayNumber ≤ t / msPerDay := by
      unfold start msPerDay at *
      omega
    obtain ⟨n, hn⟩ := Int.eq_ofNat_of_zero_le (sub_nonneg.mpr hday)
    obtain ⟨d, hd⟩ := a.exists_later n
    have hnumber : d.dayNumber = t / msPerDay := by omega
    refine ⟨d, le_iff.mpr (by omega), le_iff.mpr ?_, ?_⟩
    · unfold start msPerDay at *
      omega
    · unfold Contains start
      rw [hnumber]
      unfold msPerDay at *
      omega

end CalendarDate

/-! ## The text of a date -/

theorem length_padded (width n : ℕ) (hwidth : 0 < width) (h : n < 10 ^ width) :
    (padded width n).length = width := by
  have hdigits : (digits n).length ≤ width := Nat.toDigits_length 10 n width hwidth h
  rw [padded, List.length_append, List.length_replicate]
  omega

theorem ofDigits_padded (width n : ℕ) : ofDigits (padded width n) = n := by
  rw [padded, ofDigits_zeros_append, ofDigits_digits]

theorem all_isDigit_padded (width n : ℕ) : (padded width n).all Char.isDigit = true := by
  rw [padded, List.all_append, Bool.and_eq_true, List.all_replicate]
  refine ⟨by split_ifs <;> decide, List.all_eq_true.mpr fun c hc => digits_isDigit hc⟩

theorem daysInMonth_le (year month : ℕ) : daysInMonth year month ≤ 31 := by
  unfold daysInMonth
  split_ifs <;> norm_num

/-- A text of three numbers is taken apart. -/
theorem isoDate?_parts {s : String} {year month day : List Char}
    (hs : s.toList = year ++ '-' :: (month ++ '-' :: day)) (hyear : year.length = 4)
    (hmonth : month.length = 2) (hday : day.length = 2)
    (hdigits : (year ++ (month ++ day)).all Char.isDigit = true) :
    isoDate? s = calendarDate? (ofDigits year) (ofDigits month) (ofDigits day) := by
  have htake : s.toList.take 4 = year := by
    rw [hs]
    exact List.take_left' hyear
  have hdrop : s.toList.drop 5 = month ++ '-' :: day := by
    rw [hs, List.append_cons]
    exact List.drop_left' (by rw [List.length_append, hyear]; rfl)
  have hrest : s.toList.drop 8 = day := by
    rw [← List.drop_drop (i := 3) (j := 5), hdrop, List.append_cons]
    exact List.drop_left' (by rw [List.length_append, hmonth]; rfl)
  simp only [isoDate?, htake, hdrop, hrest, List.take_left' hmonth]
  exact if_pos ⟨hs, hday, hdigits⟩

theorem CalendarDate.isoDate?_text {d : CalendarDate} (h : d.year ≤ 9999) :
    isoDate? d.text = some d := by
  have hmonth : d.month < 10 ^ 2 := by
    have := d.month_mem.2
    omega
  have hday : d.day < 10 ^ 2 := by
    have := d.day_mem.2.trans (daysInMonth_le _ _)
    omega
  have htext : d.text.toList =
      padded 4 d.year ++ '-' :: (padded 2 d.month ++ '-' :: padded 2 d.day) := String.toList_ofList
  rw [isoDate?_parts htext (length_padded 4 _ (by decide) (by omega))
    (length_padded 2 _ (by decide) hmonth) (length_padded 2 _ (by decide) hday)
    (by simp only [List.all_append, all_isDigit_padded, Bool.and_self])]
  simp only [ofDigits_padded]
  exact dif_pos ⟨d.month_mem, d.day_mem⟩

example : (isoDate? "2026-09-03").map CalendarDate.start = some 1788393600000 := by decide

end Js
