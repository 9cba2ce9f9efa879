import Mathlib.Tactic.IntervalCases
import ProtoSchema.Instant

/-! # The calendar

Counting days and naming them are inverse to each other. A day of an era is found by its century,
the group of four years in it, the year of the group and the day of the year; only the last year of
a group has a leap day, and the last group of a century has none unless the era ends with it.
-/

namespace ProtoSchema.Date

/-- Day `n` of an era is day `s` of year `r` of group `q` of century `c`. -/
structure DayOfEra (n c q r s : Nat) : Prop where
  sum : n = 36524 * c + 1461 * q + 365 * r + s
  century : c < 4
  group : q < 25
  year : r < 4
  day : s < 365 ∨ (s = 365 ∧ r = 3 ∧ (q < 24 ∨ c = 3))

theorem exists_dayOfEra {n : Nat} (h : n < daysPerEra) : ∃ c q r s, DayOfEra n c q r s := by
  unfold daysPerEra at h
  obtain ⟨c, hc⟩ : ∃ c, c = min (n / 36524) 3 := ⟨_, rfl⟩
  obtain ⟨q, hq⟩ : ∃ q, q = (n - 36524 * c) / 1461 := ⟨_, rfl⟩
  obtain ⟨r, hr⟩ : ∃ r, r = min ((n - 36524 * c - 1461 * q) / 365) 3 := ⟨_, rfl⟩
  refine ⟨c, q, r, n - 36524 * c - 1461 * q - 365 * r, ?_, ?_, ?_, ?_, ?_⟩ <;> omega

namespace DayOfEra

variable {n c q r s : Nat}

theorem daysBeforeYear_eq (h : DayOfEra n c q r s) :
    daysBeforeYear (100 * c + 4 * q + r) = 36524 * c + 1461 * q + 365 * r := by
  obtain ⟨-, hc, hq, hr, -⟩ := h
  unfold daysBeforeYear
  omega

theorem yearOfDay_eq (h : DayOfEra n c q r s) : yearOfDay n = 100 * c + 4 * q + r := by
  obtain ⟨hn, hc, hq, hr, hs⟩ := h
  have h₁ : n / 36524 = c ∨ n / 36524 = c + 1 := by omega
  have h₂ : n / 1460 = 25 * c + q ∨ n / 1460 = 25 * c + q + 1 := by omega
  unfold yearOfDay
  interval_cases c <;> omega

theorem dayOfYear_eq (h : DayOfEra n c q r s) : n - daysBeforeYear (100 * c + 4 * q + r) = s := by
  rw [h.daysBeforeYear_eq, h.sum]
  omega

end DayOfEra

/-- The month of a day of the year, counted from March, and what is left of the day. -/
theorem monthOfDay {s : Nat} (h : s ≤ 365) :
    (5 * s + 2) / 153 < 12 ∧ daysBeforeMonth ((5 * s + 2) / 153) ≤ s := by
  unfold daysBeforeMonth
  omega

/-- A date spelled out: January and February belong to the year that began in the March before. -/
theorem ofDays_eq {n : Int} {c q r s : Nat}
    (h : DayOfEra ((n + epochDay) % daysPerEra).toNat c q r s) :
    ofDays n =
      let m := (5 * s + 2) / 153
      let year := (n + epochDay) / daysPerEra * 400 + ((100 * c + 4 * q + r : Nat) : Int)
      if m < 10 then ⟨year, m + 3, s - daysBeforeMonth m + 1⟩
      else ⟨year + 1, m - 9, s - daysBeforeMonth m + 1⟩ := by
  have hday := h.day
  have hm := (monthOfDay (show s ≤ 365 by omega)).1
  simp only [ofDays, h.yearOfDay_eq, h.dayOfYear_eq]
  by_cases hlt : (5 * s + 2) / 153 < 10
  · simp only [if_pos hlt, if_neg (show ¬ (5 * s + 2) / 153 + 3 ≤ 2 by omega)]
  · simp only [if_neg hlt, if_pos (show (5 * s + 2) / 153 - 9 ≤ 2 by omega)]

theorem exists_ofDays (n : Int) :
    ∃ c q r s, DayOfEra ((n + epochDay) % daysPerEra).toNat c q r s :=
  exists_dayOfEra (by unfold daysPerEra; omega)

theorem toDays_ofDays (n : Int) : (ofDays n).toDays = n := by
  obtain ⟨c, q, r, s, h⟩ := exists_ofDays n
  have hbefore := h.daysBeforeYear_eq
  rw [ofDays_eq h]
  obtain ⟨hsum, hc, hq, hr, hday⟩ := h
  obtain ⟨hm, hle⟩ := monthOfDay (show s ≤ 365 by omega)
  have hyear (e : Int) (y : Nat) (hy : y < 400) :
      (e * 400 + y) / 400 = e ∧ ((e * 400 + y) % 400).toNat = y := by
    omega
  obtain ⟨hera, hin⟩ := hyear ((n + epochDay) / daysPerEra) (100 * c + 4 * q + r) (by omega)
  have hdiv := Int.mul_ediv_add_emod (n + epochDay) daysPerEra
  by_cases hlt : (5 * s + 2) / 153 < 10
  · simp only [if_pos hlt, toDays, if_neg (show ¬ (5 * s + 2) / 153 + 3 ≤ 2 by omega), hera, hin,
      hbefore, show ((5 * s + 2) / 153 + 3 + 9) % 12 = (5 * s + 2) / 153 by omega]
    unfold daysPerEra at *
    omega
  · simp only [if_neg hlt, toDays, if_pos (show (5 * s + 2) / 153 - 9 ≤ 2 by omega),
      add_sub_cancel_right, hera, hin, hbefore,
      show ((5 * s + 2) / 153 - 9 + 9) % 12 = (5 * s + 2) / 153 by omega]
    unfold daysPerEra at *
    omega

/-- A leap day ends a year in front of a leap year. -/
theorem DayOfEra.isLeapYear {n c q r s : Nat} (h : DayOfEra n c q r s) (hs : s = 365) (era : Int) :
    Date.isLeapYear (era * 400 + ((100 * c + 4 * q + r : Nat) : Int) + 1) = true := by
  obtain ⟨-, hc, hq, hr, hday⟩ := h
  simp only [Date.isLeapYear, Bool.and_eq_true, Bool.or_eq_true, decide_eq_true_eq]
  omega

theorem lengthOfMonth {s m : Nat} (h : s ≤ 365) (hm : m = (5 * s + 2) / 153) :
    s - daysBeforeMonth m + 1 ≤
      if m = 11 then if s = 365 then 29 else 28
      else if m = 1 ∨ m = 3 ∨ m = 6 ∨ m = 8 then 30 else 31 := by
  have hlt := (monthOfDay h).1
  rw [← hm] at hlt
  unfold daysBeforeMonth
  split_ifs <;> omega

theorem daysInMonth_le (year : Int) (month : Nat) : daysInMonth year month ≤ 31 := by
  unfold daysInMonth
  split_ifs <;> omega

theorem day_ofDays (n : Int) :
    (1 ≤ (ofDays n).month ∧ (ofDays n).month ≤ 12) ∧ 1 ≤ (ofDays n).day ∧
      (ofDays n).day ≤ daysInMonth (ofDays n).year (ofDays n).month := by
  obtain ⟨c, q, r, s, h⟩ := exists_ofDays n
  have hday := h.day
  obtain ⟨m, hm⟩ : ∃ m, m = (5 * s + 2) / 153 := ⟨_, rfl⟩
  have hlt := (monthOfDay (show s ≤ 365 by omega)).1
  have hlen := lengthOfMonth (show s ≤ 365 by omega) hm
  rw [ofDays_eq h]
  rw [← hm] at hlt ⊢
  by_cases hten : m < 10
  · simp only [if_pos hten]
    refine ⟨by omega, by omega, le_trans hlen ?_⟩
    simp only [daysInMonth, Bool.or_eq_true, decide_eq_true_eq]
    split_ifs <;> omega
  · simp only [if_neg hten]
    refine ⟨by omega, by omega, le_trans hlen ?_⟩
    have hleap := fun hs => h.isLeapYear hs ((n + epochDay) / daysPerEra)
    simp only [daysInMonth, Bool.or_eq_true, decide_eq_true_eq]
    split_ifs with h₃ h₄ h₅ h₆ h₇ <;> first | omega | exact absurd (hleap h₄) h₆

theorem isValid_ofDays {n : Int} (h₁ : minYear ≤ (ofDays n).year) (h₂ : (ofDays n).year ≤ maxYear) :
    (ofDays n).isValid = true := by
  obtain ⟨⟨hm, hm'⟩, hd, hd'⟩ := day_ofDays n
  simp only [isValid, Bool.and_eq_true, decide_eq_true_eq]
  exact ⟨⟨⟨⟨⟨h₁, h₂⟩, hm⟩, hm'⟩, hd⟩, hd'⟩

theorem year_ofDays (n : Int) :
    (n + epochDay) / daysPerEra * 400 ≤ (ofDays n).year ∧
      (ofDays n).year ≤ (n + epochDay) / daysPerEra * 400 + 400 := by
  obtain ⟨c, q, r, s, h⟩ := exists_ofDays n
  rw [ofDays_eq h]
  obtain ⟨-, hc, hq, hr, -⟩ := h
  dsimp only
  split <;> dsimp only <;> omega

end ProtoSchema.Date
