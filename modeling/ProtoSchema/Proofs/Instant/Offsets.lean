import ProtoSchema.Proofs.Instant.Accepted

/-! # Offsets

A date and a time of day may stand alone, in front of a `Z`, or in front of an offset with or without
a colon. No notation takes all of these: the strict one takes the `Z` and the colon, the loose ones
the rest. Whether the date and the time exist decides for all of them at once, and the offset moves
the instant that they denote in UTC.
-/

namespace ProtoSchema

/-- The days of four-digit years are far from the ends of the calendar. -/
theorem Date.toDays_bounds {d : Date} (hyear : 0 ≤ d.year ∧ d.year ≤ 9999) (hday : d.day ≤ 31) :
    -1000000 ≤ d.toDays ∧ d.toDays ≤ 4000000 := by
  have hinYear : daysBeforeMonth ((d.month + 9) % 12) ≤ 337 := by
    unfold daysBeforeMonth
    omega
  have hbounds (y : Int) (hy : -1 ≤ y ∧ y ≤ 9999) :
      -1 ≤ y / 400 ∧ y / 400 ≤ 24 ∧ daysBeforeYear (y % 400).toNat ≤ 145731 := by
    unfold daysBeforeYear
    omega
  simp only [toDays, epochDay, daysPerEra]
  split
  · have := hbounds (d.year - 1) (by omega)
    omega
  · have := hbounds d.year (by omega)
    omega

namespace Instant

/-- The instant that is a number of seconds before another. -/
def earlier (t : Instant) (seconds : Int) : Instant := ⟨t.seconds - seconds, t.nanos⟩

theorem earlier_zero (t : Instant) : t.earlier 0 = t := by
  simp [earlier]

/-- A sign as it is written; the last one is the minus sign of mathematics. -/
inductive Sign where
  | plus
  | hyphen
  | minus

namespace Sign

def char : Sign → Char
  | plus => '+'
  | hyphen => '-'
  | minus => '−'

def value : Sign → Int
  | plus => 1
  | hyphen => -1
  | minus => -1

end Sign

/-- An offset from UTC of less than a day. -/
structure Offset where
  sign : Sign
  hours : Fin 24
  minutes : Fin 60

namespace Offset

def seconds (o : Offset) : Int := o.sign.value * (o.hours * 3600 + o.minutes * 60 : Nat)

/-- The offset with something between its hours and its minutes. -/
def chars (o : Offset) (between : List Char) : List Char :=
  o.sign.char :: (padded 2 o.hours ++ (between ++ padded 2 o.minutes))

theorem natAbs_seconds_lt (o : Offset) : o.seconds.natAbs < secondsPerDay := by
  have hh := o.hours.isLt
  have hm := o.minutes.isLt
  have hsign : o.sign.value.natAbs = 1 := by cases o.sign <;> rfl
  rw [seconds, Int.natAbs_mul, hsign, secondsPerDay, Int.natAbs_natCast]
  omega

end Offset

inductive Zone where
  | none
  | utc
  | colon (o : Offset)
  | plain (o : Offset)

namespace Zone

def chars : Zone → List Char
  | none => []
  | utc => ['Z']
  | colon o => o.chars [':']
  | plain o => o.chars []

def seconds : Zone → Int
  | none => 0
  | utc => 0
  | colon o => o.seconds
  | plain o => o.seconds

/-- No zone is mistaken for more of the fraction. -/
theorem head?_chars (z : Zone) : ∀ c ∈ z.chars.head?, c.isDigit = false ∧ c ≠ '.' := by
  have hsign (s : Sign) : s.char.isDigit = false ∧ s.char ≠ '.' := by cases s <;> decide
  cases z with
  | none => simp [chars]
  | utc => simp [chars]
  | colon o => simpa [chars, Offset.chars] using hsign o.sign
  | plain o => simpa [chars, Offset.chars] using hsign o.sign

end Zone

namespace Scan

theorem two_le_byteLength (a b : Char) (rest : List Char) : 2 ≤ byteLength (a :: b :: rest) := by
  have ha := a.utf8Size_pos
  have hb := b.utf8Size_pos
  have hsum : byteLength (a :: b :: rest) = a.utf8Size + (b.utf8Size + byteLength rest) := by
    simp [byteLength, String.ofList_cons]
  omega

theorem twoDigits_padded {n : Nat} (h : n < 10 ^ 2) (rest : List Char) :
    twoDigits (padded 2 n ++ rest) = .ok ((n / 10, n % 10), rest) := by
  obtain ⟨a, b, hab, ha, hb, hvalue⟩ := (Numeral.ofNat n (by decide) h : Numeral 2).exists_pair
  change padded 2 n = _ at hab
  rw [Numeral.value_ofNat] at hvalue
  have hb' := Text.digitValue_lt hb
  have hdiv : n / 10 = Text.digitValue a := by omega
  have hmod : n % 10 = Text.digitValue b := by omega
  have hlen := two_le_byteLength a b rest
  simp only [twoDigits, hab, List.cons_append, List.nil_append, ha, hb, Bool.and_self, if_true]
  rw [if_neg (by omega), hdiv, hmod]

theorem sign_char (s : Sign) (cs : List Char) : sign (s.char :: cs) = .ok (s.value, cs) := by
  cases s <;> rfl

theorem zone_chars {between : Scan Unit} {o : Offset} {cs : List Char}
    (h : between (cs ++ padded 2 o.minutes) = .ok ((), padded 2 o.minutes)) :
    zone between (o.chars cs) = .ok (o.seconds, []) := by
  have hh := twoDigits_padded (n := o.hours) (by omega) (cs ++ padded 2 o.minutes)
  have hm := twoDigits_padded (n := o.minutes) (by omega) []
  rw [List.append_nil] at hm
  rw [zone, Offset.chars, bind_of_ok (sign_char ..), bind_of_ok hh]
  dsimp only
  rw [bind_of_ok h, bind_of_ok hm]
  dsimp only
  rw [if_neg (by omega), Offset.seconds, Nat.div_add_mod', Nat.div_add_mod']
  rfl

theorem zone_of_error {between : Scan Unit} {o : Offset} {cs : List Char} {fault : Fault}
    (h : between (cs ++ padded 2 o.minutes) = .error fault) :
    zone between (o.chars cs) = .error fault := by
  have hh := twoDigits_padded (n := o.hours) (by omega) (cs ++ padded 2 o.minutes)
  rw [zone, Offset.chars, bind_of_ok (sign_char ..), bind_of_ok hh]
  dsimp only
  rw [bind_of_error h]

end Scan

open Scan

theorem strictZone_chars (o : Offset) (cs : List Char) :
    strictZone (o.chars cs) = zone (literal ':') (o.chars cs) := by
  rw [Offset.chars]
  cases o.sign <;> rfl

theorem strictZone_colon (o : Offset) : strictZone (o.chars [':']) = .ok (o.seconds, []) := by
  rw [strictZone_chars]
  exact zone_chars (literal_cons ..)

theorem strictZone_plain (o : Offset) : ∃ fault, strictZone (o.chars []) = .error fault := by
  obtain ⟨c, cs, hcs, hc⟩ :=
    Numeral.exists_cons (.ofNat o.minutes (by decide) (by omega) : Numeral 2)
  have hne : c ≠ ':' := by
    rintro rfl
    cases hc
  have hliteral : literal ':' ([] ++ padded 2 o.minutes) = .error .invalid := by
    rw [List.nil_append, show padded 2 o.minutes = c :: cs from hcs]
    simp [literal, hne]
  exact ⟨_, (strictZone_chars o []).trans (zone_of_error hliteral)⟩

theorem looseZone_plain (o : Offset) : looseZone (o.chars []) = .ok (o.seconds, []) := by
  have hskip : skipWhile Text.isBlank (o.chars []) = .ok ((), o.chars []) := by
    rw [Offset.chars]
    cases o.sign <;> rfl
  have hdigit (c : Char) (hc : c.isDigit = true) : (decide (c = ':') || Text.isBlank c) = false := by
    rw [Text.isBlank_of_isDigit hc, Bool.or_false, decide_eq_false_iff_not]
    rintro rfl
    cases hc
  rw [looseZone, bind_of_ok hskip]
  apply zone_chars
  have hskip := skipWhile_numeral hdigit
    (Numeral.ofNat o.minutes (by decide) (by omega) : Numeral 2) []
  rwa [List.append_nil] at hskip

/-- A date and a time of day as they are written. -/
structure Body extends Clock.Parts where
  year : Numeral 4

namespace Body

variable {b : Body} {s : Clock.Spelling} {zone : Scan Int} {rest : List Char} {t : Instant}

def chars (b : Body) : List Char := b.year.digits ++ b.toParts.chars

def text (b : Body) (z : Zone) : String := String.ofList (b.chars ++ z.chars)

def date (b : Body) : Date := ⟨b.year.value, b.month.value, b.day.value⟩

/-- The date is in the calendar and the time in the day; a minute may end with a leap second. -/
structure Exists (b : Body) : Prop where
  month : 1 ≤ b.month.value ∧ b.month.value ≤ 12
  day : 1 ≤ b.day.value ∧ b.day.value ≤ Date.daysInMonth b.year.value b.month.value
  hour : b.hour.value ≤ 23
  minute : b.minute.value ≤ 59
  second : b.second.value ≤ 60

/-- The instant at which a clock in UTC shows the date and the time. A leap second counts as the
second before it, and a second more of nanoseconds. -/
def instant (b : Body) : Instant where
  seconds := b.date.toDays * secondsPerDay +
    (b.hour.value * 3600 + b.minute.value * 60 + min b.second.value 59 : Nat)
  nanos := nanosOf b.fraction + if b.second.value = 60 then nanosPerSecond else 0

theorem isValid_date_iff (b : Body) :
    b.date.isValid = true ↔ (1 ≤ b.month.value ∧ b.month.value ≤ 12) ∧
      1 ≤ b.day.value ∧ b.day.value ≤ Date.daysInMonth b.year.value b.month.value := by
  have hyear := b.year.value_lt
  simp only [Date.isValid, Bool.and_eq_true, decide_eq_true_eq]
  dsimp only [date, Date.minYear, Date.maxYear]
  constructor
  · rintro ⟨⟨⟨⟨-, hmonth⟩, hmonth'⟩, hday⟩, hday'⟩
    exact ⟨⟨hmonth, hmonth'⟩, hday, hday'⟩
  · rintro ⟨⟨hmonth, hmonth'⟩, hday, hday'⟩
    exact ⟨⟨⟨⟨⟨by omega, by omega⟩, hmonth⟩, hmonth'⟩, hday⟩, hday'⟩

theorem exists_iff (b : Body) : b.Exists ↔ b.toParts.InRange ∧ b.date.isValid = true := by
  rw [isValid_date_iff]
  constructor
  · rintro ⟨hmonth, hday, hhour, hminute, hsecond⟩
    have hlast := hday.2.trans (Date.daysInMonth_le _ _)
    exact ⟨⟨hmonth, ⟨hday.1, hlast⟩, hhour, hminute, hsecond⟩, hmonth, hday⟩
  · rintro ⟨⟨hmonth, -, hhour, hminute, hsecond⟩, -, hday⟩
    exact ⟨hmonth, hday, hhour, hminute, hsecond⟩

theorem toInstant_clock (h : b.Exists) {zone : Int} (hz : zone.natAbs < secondsPerDay) :
    (b.clock b.year.value).toInstant zone = .ok (b.instant.earlier zone) := by
  obtain ⟨hrange, hvalid⟩ := b.exists_iff.1 h
  have hyear := b.year.value_lt
  obtain ⟨hmin, hmax⟩ : -1000000 ≤ b.date.toDays ∧ b.date.toDays ≤ 4000000 :=
    Date.toDays_bounds ⟨by simp [date], by simp only [date]; omega⟩ hrange.day.2
  have hdate : (b.clock b.year.value).date = b.date := rfl
  have hseconds : minSeconds ≤ b.instant.seconds - zone ∧ b.instant.seconds - zone ≤ maxSeconds := by
    have := hrange.hour
    have := hrange.minute
    simp only [instant, minSeconds, maxSeconds, secondsPerDay] at *
    omega
  have hday : ¬ (!b.date.isValid || decide ((secondsPerDay : Int) ≤ zone.natAbs)) = true := by
    simp only [hvalid, Bool.not_true, Bool.false_or, decide_eq_true_eq, not_le]
    omega
  rw [Clock.toInstant, hdate, if_neg hday]
  apply if_neg
  simp only [Bool.or_eq_true, decide_eq_true_eq, not_or, not_lt]
  exact hseconds

theorem isValid_date_of_toInstant {zone : Int}
    (h : (b.clock b.year.value).toInstant zone = .ok t) : b.date.isValid = true := by
  unfold Clock.toInstant at h
  split at h
  · cases h
  · next hvalid =>
    simp only [Bool.or_eq_true, not_or, Bool.not_eq_true', Bool.not_eq_false] at hvalid
    exact hvalid.1

variable (hs : s.TakesNumerals) (hr : ∀ c ∈ rest.head?, c.isDigit = false ∧ c ≠ '.')

include hs hr

theorem scan_eq_ok {c : Clock} {more : List Char} :
    Clock.scan s (b.chars ++ rest) = .ok (c, more) ↔
      b.toParts.InRange ∧ c = b.clock b.year.value ∧ more = rest := by
  rw [chars, List.append_assoc]
  exact hs.scan_parts_eq_ok b.toParts (hs.year b.year _) hr

theorem readWith_of_zone (h : b.Exists) {z : Int} (hz : zone rest = .ok (z, []))
    (hday : z.natAbs < secondsPerDay) :
    readWith s zone (b.chars ++ rest) = .ok (b.instant.earlier z) := by
  have hscan := (scan_eq_ok hs hr).2 ⟨(b.exists_iff.1 h).1, rfl, rfl⟩
  rw [readWith, bind_of_ok hscan, bind_of_ok hz]
  exact toInstant_clock h hday

theorem readWith_of_zone_error (h : b.Exists) {fault : Fault} (hz : zone rest = .error fault) :
    readWith s zone (b.chars ++ rest) = .error fault := by
  have hscan := (scan_eq_ok hs hr).2 ⟨(b.exists_iff.1 h).1, rfl, rfl⟩
  rw [readWith, bind_of_ok hscan, bind_of_error hz]
  rfl

theorem exists_of_readWith (h : readWith s zone (b.chars ++ rest) = .ok t) : b.Exists := by
  obtain ⟨c, z, more, hc, -, ht⟩ := readWith_eq_ok h
  obtain ⟨hrange, rfl, -⟩ := (scan_eq_ok hs hr).1 hc
  exact b.exists_iff.2 ⟨hrange, isValid_date_of_toInstant ht⟩

omit hs hr

theorem exists_of_readChars {z : Zone} (h : readChars (b.chars ++ z.chars) = .ok t) :
    b.Exists := by
  rcases readWith_of_readChars h with h | h | h
  · exact exists_of_readWith Clock.takesNumerals_strict z.head?_chars h
  · exact exists_of_readWith Clock.takesNumerals_loose z.head?_chars h
  · exact exists_of_readWith Clock.takesNumerals_loose z.head?_chars h

/-- Each way to write a zone is taken by one of the notations and refused by those before it. -/
theorem readChars_of_exists (h : b.Exists) (z : Zone) :
    readChars (b.chars ++ z.chars) = .ok (b.instant.earlier z.seconds) := by
  have hr := z.head?_chars
  cases z with
  | none =>
    have hstrict := readWith_of_zone_error Clock.takesNumerals_strict hr h
      (show strictZone [] = .error .short from rfl)
    have hloose := readWith_of_zone_error Clock.takesNumerals_loose hr h
      (show looseZone [] = .error .short from rfl)
    have hbare := readWith_of_zone Clock.takesNumerals_loose hr h
      (show (pure 0 : Scan Int) [] = .ok (0, []) from rfl) (by decide)
    simp only [readChars, hstrict, hloose, hbare]
    rfl
  | utc =>
    have hstrict := readWith_of_zone Clock.takesNumerals_strict hr h
      (show strictZone ['Z'] = .ok (0, []) from rfl) (by decide)
    simp only [readChars, hstrict]
    rfl
  | colon o =>
    have hstrict := readWith_of_zone Clock.takesNumerals_strict hr h (strictZone_colon o)
      o.natAbs_seconds_lt
    simp only [readChars, hstrict]
    rfl
  | plain o =>
    obtain ⟨fault, hzone⟩ := strictZone_plain o
    have hstrict := readWith_of_zone_error Clock.takesNumerals_strict hr h hzone
    have hloose := readWith_of_zone Clock.takesNumerals_loose hr h (looseZone_plain o)
      o.natAbs_seconds_lt
    simp only [readChars, hstrict, hloose]
    rfl

theorem read_text (h : b.Exists) (z : Zone) :
    read (b.text z) = .ok (b.instant.earlier z.seconds) := by
  rw [read, text, String.toList_ofList]
  exact readChars_of_exists h z

theorem read_text_of_not_exists (h : ¬ b.Exists) (z : Zone) :
    ∃ fault, read (b.text z) = .error fault := by
  cases hread : read (b.text z) with
  | ok t =>
    rw [read, text, String.toList_ofList] at hread
    exact absurd (exists_of_readChars hread) h
  | error fault => exact ⟨fault, rfl⟩

end Body

/-- Whatever zone is written behind a date and a time, they are accepted if they exist. Without a zone
they are in UTC, as with a `Z`, and an offset is subtracted, with or without a colon in it. -/
theorem read_text_zones (b : Body) (o : Offset) :
    (b.Exists ∧ read (b.text .none) = .ok b.instant ∧ read (b.text .utc) = .ok b.instant ∧
        read (b.text (.colon o)) = .ok (b.instant.earlier o.seconds) ∧
        read (b.text (.plain o)) = .ok (b.instant.earlier o.seconds)) ∨
      (¬ b.Exists ∧ ∀ z ∈ [Zone.none, .utc, .colon o, .plain o],
        ∃ fault, read (b.text z) = .error fault) := by
  by_cases h : b.Exists
  · have hutc : b.instant.earlier 0 = b.instant := earlier_zero _
    left
    refine ⟨h, ?_, ?_, Body.read_text h _, Body.read_text h _⟩
    · exact (Body.read_text h .none).trans (congrArg _ hutc)
    · exact (Body.read_text h .utc).trans (congrArg _ hutc)
  · right
    exact ⟨h, fun z _ => Body.read_text_of_not_exists h z⟩

end Instant

end ProtoSchema
