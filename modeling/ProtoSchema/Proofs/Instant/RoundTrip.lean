import ProtoSchema.Proofs.Instant.Calendar
import ProtoSchema.Proofs.Instant.Numerals

/-! # Instants read back

The text of an instant is in the strict notation, which is tried first. What is below a millisecond
is lost, all else comes back, the leap second included.
-/

namespace ProtoSchema.Instant

def year (t : Instant) : Int := (Date.ofDays (t.seconds / secondsPerDay)).year

open Scan

/-- What is written for a clock behind its year. -/
def Clock.tailText (c : Clock) : List Char :=
  '-' :: (padded 2 c.date.month ++ '-' :: (padded 2 c.date.day
    ++ 'T' :: (padded 2 c.hour ++ ':' :: (padded 2 c.minute ++ ':' :: (padded 2 c.second
      ++ '.' :: padded 3 (c.nanos / 1000000))))))

theorem Clock.head?_tailText (c : Clock) : c.tailText.head? = some '-' := rfl

/-- The parts of a clock but its year are in their ranges, and it shows whole milliseconds. -/
structure Clock.InRange (c : Clock) : Prop where
  month : 1 ≤ c.date.month ∧ c.date.month ≤ 12
  day : 1 ≤ c.date.day ∧ c.date.day ≤ 31
  hour : c.hour ≤ 23
  minute : c.minute ≤ 59
  second : c.second ≤ 60
  nanos : c.nanos < nanosPerSecond ∧ c.nanos % 1000000 = 0

def Clock.parts (c : Clock) (h : c.InRange) : Clock.Parts where
  month := .ofNat c.date.month (by decide) (by have := h.month; omega)
  day := .ofNat c.date.day (by decide) (by have := h.day; omega)
  hour := .ofNat c.hour (by decide) (by have := h.hour; omega)
  minute := .ofNat c.minute (by decide) (by have := h.minute; omega)
  second := .ofNat c.second (by decide) (by have := h.second; omega)
  fraction := padded 3 (c.nanos / 1000000)
  isDigit_fraction := isDigit_padded

theorem nanosOf_millis {n : Nat} (h : n < 1000) : nanosOf (padded 3 n) = n * 1000000 := by
  rw [nanosOf, ofDigits_padded, length_padded (by decide) h, nanosPerSecond]
  omega

theorem Clock.millis_lt {c : Clock} (h : c.InRange) : c.nanos / 1000000 < 1000 := by
  have hnanos := h.nanos.1
  unfold nanosPerSecond at hnanos
  omega

theorem Clock.chars_parts {c : Clock} (h : c.InRange) : (c.parts h).chars = c.tailText := by
  have hne : (c.parts h).fraction ≠ [] :=
    List.ne_nil_of_length_eq_add_one (length_padded (by decide) (c.millis_lt h))
  rw [Parts.chars, Parts.fractionText, if_neg hne]
  rfl

theorem Clock.clock_parts {c : Clock} (h : c.InRange) : (c.parts h).clock c.date.year = c := by
  have hnanos : nanosOf (padded 3 (c.nanos / 1000000)) = c.nanos := by
    have := h.nanos.2
    rw [nanosOf_millis (c.millis_lt h)]
    omega
  simp only [Parts.clock, parts, Numeral.value_ofNat, hnanos]

theorem Clock.inRange_parts {c : Clock} (h : c.InRange) : (c.parts h).InRange := by
  constructor <;> simp only [parts, Numeral.value_ofNat]
  · exact h.month
  · exact h.day
  · exact h.hour
  · exact h.minute
  · exact h.second

theorem Clock.scan_text {s : Clock.Spelling} (hs : s.TakesNumerals) {c : Clock} (h : c.InRange)
    {year rest : List Char}
    (hyear : s.year (year ++ (c.tailText ++ rest)) = .ok (c.date.year, c.tailText ++ rest))
    (hr : ∀ x ∈ rest.head?, x.isDigit = false ∧ x ≠ '.') :
    Clock.scan s (year ++ (c.tailText ++ rest)) = .ok (c, rest) := by
  rw [← c.chars_parts h] at hyear ⊢
  exact (hs.scan_parts_eq_ok _ hyear hr).2 ⟨c.inRange_parts h, (c.clock_parts h).symm, rfl⟩

theorem Clock.year_padded {y : Int} (h : 0 ≤ y ∧ y ≤ 9999) (rest : List Char) :
    Clock.strict.year (padded 4 y.toNat ++ rest) = .ok (y, rest) := by
  have hyear := takesNumerals_strict.year (.ofNat y.toNat (by decide) (by omega)) rest
  rwa [Numeral.value_ofNat, show ((y.toNat : Nat) : Int) = y by omega] at hyear

/-- The clock that shows an instant in UTC; in a leap second it shows second 60. -/
def clock (t : Instant) : Clock where
  date := Date.ofDays (t.seconds / secondsPerDay)
  hour := (t.seconds % secondsPerDay).toNat / 3600
  minute := (t.seconds % secondsPerDay).toNat / 60 % 60
  second := (t.seconds % secondsPerDay).toNat % 60 + t.nanos / nanosPerSecond
  nanos := t.nanos % nanosPerSecond / 1000000 * 1000000

variable {t : Instant}

theorem formatChars_eq (t : Instant) :
    t.formatChars = yearText t.year ++ (t.clock.tailText ++ ['Z']) := by
  have hn : t.nanos % nanosPerSecond / 1000000 * 1000000 / 1000000 =
      t.nanos % nanosPerSecond / 1000000 :=
    Nat.mul_div_cancel _ (by decide)
  simp [formatChars, dateText, timeText, Clock.tailText, clock, year, hn]

theorem yearText_of_fourDigits {y : Int} (h : 0 ≤ y ∧ y ≤ 9999) :
    yearText y = padded 4 y.toNat := by
  rw [yearText, if_neg (by omega), if_pos h.2]

theorem valid_iff :
    t.isValid = true ↔ (minSeconds ≤ t.seconds ∧ t.seconds ≤ maxSeconds) ∧
      t.nanos < 2 * nanosPerSecond ∧ (t.nanos < nanosPerSecond ∨ t.seconds % 60 = 59) := by
  simp [isValid, and_assoc]

theorem isValid_date (hy : 0 ≤ t.year ∧ t.year ≤ 9999) : t.clock.date.isValid = true := by
  unfold year at hy
  refine Date.isValid_ofDays ?_ ?_ <;> simp only [Date.minYear, Date.maxYear] <;> omega

theorem clock_inRange (hv : t.isValid = true) : t.clock.InRange := by
  obtain ⟨hm, hd, hd'⟩ := Date.day_ofDays (t.seconds / secondsPerDay)
  obtain ⟨-, hn, hleap⟩ := valid_iff.1 hv
  unfold nanosPerSecond at hn hleap
  refine ⟨hm, ⟨hd, hd'.trans (Date.daysInMonth_le _ _)⟩, ?_, ?_, ?_, ?_⟩ <;>
    simp only [clock, secondsPerDay, nanosPerSecond] <;> omega

theorem toInstant_clock (hv : t.isValid = true) (hy : 0 ≤ t.year ∧ t.year ≤ 9999) :
    t.clock.toInstant 0 = .ok t.truncate := by
  obtain ⟨⟨hmin, hmax⟩, hn, hleap⟩ := valid_iff.1 hv
  have hdays : t.clock.date.toDays = t.seconds / secondsPerDay := Date.toDays_ofDays _
  have hseconds : t.clock.date.toDays * secondsPerDay
      + (t.clock.hour * 3600 + t.clock.minute * 60 + min t.clock.second 59 : Nat) - 0 =
        t.seconds := by
    rw [hdays]
    simp only [clock, secondsPerDay]
    unfold nanosPerSecond at *
    omega
  have hnanos : t.clock.nanos + (if t.clock.second = 60 then nanosPerSecond else 0)
      = t.nanos / 1000000 * 1000000 := by
    have hsecond : t.clock.second = (t.seconds % 86400).toNat % 60 + t.nanos / 1000000000 := rfl
    have hclock : t.clock.nanos = t.nanos % 1000000000 / 1000000 * 1000000 := rfl
    clear hseconds hdays hmin hmax
    unfold nanosPerSecond at *
    rcases lt_or_ge t.nanos 1000000000 with hlt | hge
    · rw [if_neg (by omega), hclock, Nat.mod_eq_of_lt hlt, Nat.add_zero]
    · rw [if_pos (by omega), hclock]
      omega
  rw [Clock.toInstant, if_neg (by simp [isValid_date hy, secondsPerDay])]
  simp only [hseconds, hnanos]
  rw [if_neg (by simp; omega), truncate]

/-- An instant comes back from its text up to the millisecond. -/
theorem read_format (hv : t.isValid = true) (hy : 0 ≤ t.year ∧ t.year ≤ 9999) :
    read t.format = .ok t.truncate := by
  have hscan : Clock.scan Clock.strict t.formatChars = .ok (t.clock, ['Z']) := by
    rw [formatChars_eq, yearText_of_fourDigits hy]
    exact Clock.scan_text Clock.takesNumerals_strict (clock_inRange hv) (Clock.year_padded hy _)
      (by simp)
  have hzone : strictZone ['Z'] = .ok (0, []) := rfl
  have hstrict : readWith Clock.strict strictZone t.formatChars = .ok t.truncate := by
    rw [readWith, bind_of_ok hscan, bind_of_ok hzone]
    exact toInstant_clock hv hy
  simp [read, format, readChars, hstrict]

theorem truncate_eq_self (h : t.nanos % 1000000 = 0) : t.truncate = t := by
  have hn : t.nanos / 1000000 * 1000000 = t.nanos := by omega
  simp [truncate, hn]

end ProtoSchema.Instant
