import ProtoSchema.Proofs.Instant.RoundTrip

/-! # Accepted texts

Whatever text is accepted, the instant it denotes is in the calendar. Its own text is read back if its
year in UTC has four digits. A year outside that range is written with a sign, which only the loose
notations take, and these do not take the `Z` at the end.
-/

namespace ProtoSchema

namespace Instant

namespace Scan

variable {α β : Type} {cs rest : List Char}

theorem bind_eq_ok {x : Scan α} {f : α → Scan β} {b : β} (h : (x >>= f) cs = .ok (b, rest)) :
    ∃ a more, x cs = .ok (a, more) ∧ f a more = .ok (b, rest) := by
  cases hx : x cs with
  | error fault =>
    simp [bind, StateT.bind, Except.bind, hx] at h
  | ok r => exact ⟨r.1, r.2, rfl, (bind_of_ok hx).symm.trans h⟩

theorem pure_eq_ok {a b : α} (h : (pure a : Scan α) cs = .ok (b, rest)) : b = a := by
  cases h
  rfl

theorem within_eq_ok {x : Scan Nat} {low high n : Nat}
    (h : (x >>= within low high) cs = .ok (n, rest)) : low ≤ n ∧ n ≤ high := by
  obtain ⟨m, more, -, h⟩ := bind_eq_ok h
  unfold within at h
  split at h
  · next hm =>
    cases h
    exact hm
  · cases h

theorem digits_eq_ok {least most : Nat} {ds : List Char}
    (h : digits least most cs = .ok (ds, rest)) :
    ds.length ≤ most ∧ ∀ d ∈ ds, d.isDigit = true := by
  simp only [digits] at h
  split at h
  · cases h
  · split at h
    · cases h
    · cases h
      constructor
      · exact (List.takeWhile_sublist _).length_le.trans (List.length_take_le _ _)
      · exact fun d hd => List.mem_takeWhile_imp hd

theorem fraction_eq_ok {n : Nat} (h : fraction cs = .ok (n, rest)) : n < nanosPerSecond := by
  unfold fraction at h
  split at h
  · obtain ⟨ds, more, hdigits, h⟩ := bind_eq_ok h
    obtain ⟨-, last, -, h⟩ := bind_eq_ok h
    obtain rfl := pure_eq_ok h
    obtain ⟨hlen, hds⟩ := digits_eq_ok hdigits
    calc Text.ofDigits 10 ds * 10 ^ (9 - ds.length)
        < 10 ^ ds.length * 10 ^ (9 - ds.length) :=
          Nat.mul_lt_mul_of_pos_right (Text.ofDigits_lt hds) (by positivity)
      _ = nanosPerSecond := by
          rw [← pow_add, Nat.add_sub_cancel' hlen]
          rfl
  · cases h
    decide

theorem zone_eq_ok {between : Scan Unit} {z : Int} (h : zone between cs = .ok (z, rest)) :
    60 ∣ z := by
  obtain ⟨s, cs₁, -, h⟩ := bind_eq_ok h
  obtain ⟨⟨a, b⟩, cs₂, -, h⟩ := bind_eq_ok h
  obtain ⟨-, cs₃, -, h⟩ := bind_eq_ok h
  obtain ⟨⟨c, d⟩, cs₄, -, h⟩ := bind_eq_ok h
  dsimp only at h
  split at h
  · cases h
  · obtain rfl := pure_eq_ok h
    apply Dvd.dvd.mul_left
    push_cast
    omega

end Scan

open Scan

/-- The time of day that a clock shows exists, a second 60 included. -/
structure Clock.Possible (c : Clock) : Prop where
  minute : c.minute ≤ 59
  second : c.second ≤ 60
  nanos : c.nanos < nanosPerSecond

theorem Clock.possible_of_scan {s : Clock.Spelling} {c : Clock} {cs rest : List Char}
    (h : Clock.scan s cs = .ok (c, rest)) : c.Possible := by
  obtain ⟨year, cs₁, -, h⟩ := Scan.bind_eq_ok h
  obtain ⟨-, cs₂, -, h⟩ := Scan.bind_eq_ok h
  obtain ⟨month, cs₃, -, h⟩ := Scan.bind_eq_ok h
  obtain ⟨-, cs₄, -, h⟩ := Scan.bind_eq_ok h
  obtain ⟨day, cs₅, -, h⟩ := Scan.bind_eq_ok h
  obtain ⟨-, cs₆, -, h⟩ := Scan.bind_eq_ok h
  obtain ⟨hour, cs₇, -, h⟩ := Scan.bind_eq_ok h
  obtain ⟨-, cs₈, -, h⟩ := Scan.bind_eq_ok h
  obtain ⟨minute, cs₉, hminute, h⟩ := Scan.bind_eq_ok h
  obtain ⟨-, cs₁₀, -, h⟩ := Scan.bind_eq_ok h
  obtain ⟨second, cs₁₁, hsecond, h⟩ := Scan.bind_eq_ok h
  obtain ⟨nanos, cs₁₂, hnanos, h⟩ := Scan.bind_eq_ok h
  obtain rfl := Scan.pure_eq_ok h
  exact ⟨(within_eq_ok hminute).2, (within_eq_ok hsecond).2, fraction_eq_ok hnanos⟩

variable {t : Instant}

theorem isValid_of_toInstant {c : Clock} {zone : Int} (hc : c.Possible) (hz : 60 ∣ zone)
    (h : c.toInstant zone = .ok t) : t.isValid = true := by
  obtain ⟨hminute, hsecond, hnanos⟩ := hc
  unfold Clock.toInstant at h
  split at h
  · cases h
  · dsimp only at h
    split at h
    · cases h
    · next hrange =>
      cases h
      simp only [Bool.or_eq_true, decide_eq_true_eq, not_or, not_lt] at hrange
      rw [valid_iff]
      refine ⟨hrange, ?_, ?_⟩
      · dsimp only
        split <;> omega
      · dsimp only
        split
        · next hleap =>
          right
          simp only [hleap, secondsPerDay]
          omega
        · left
          omega

theorem readWith_eq_ok {s : Clock.Spelling} {zone : Scan Int} {cs : List Char}
    (h : readWith s zone cs = .ok t) :
    ∃ c z more, Clock.scan s cs = .ok (c, more) ∧ zone more = .ok (z, []) ∧
      c.toInstant z = .ok t := by
  cases hscan : (do return (← Clock.scan s, ← zone) : Scan (Clock × Int)) cs with
  | error fault =>
    rw [readWith, hscan] at h
    cases h
  | ok r =>
    obtain ⟨⟨clock, offset⟩, rest⟩ := r
    rw [readWith, hscan] at h
    change (if rest.isEmpty then clock.toInstant offset else .error .long) = .ok t at h
    obtain ⟨c, cs₁, hclock, hscan⟩ := Scan.bind_eq_ok hscan
    obtain ⟨z, cs₂, hz, hscan⟩ := Scan.bind_eq_ok hscan
    cases hscan
    split at h
    · next hempty =>
      obtain rfl := List.isEmpty_iff.1 hempty
      exact ⟨_, _, _, hclock, hz, h⟩
    · cases h

theorem isValid_of_readWith {s : Clock.Spelling} {zone : Scan Int} {cs : List Char}
    (hzone : ∀ {cs z rest}, zone cs = .ok (z, rest) → 60 ∣ z)
    (h : readWith s zone cs = .ok t) : t.isValid = true := by
  obtain ⟨c, z, more, hclock, hz, h⟩ := readWith_eq_ok h
  exact isValid_of_toInstant (Clock.possible_of_scan hclock) (hzone hz) h

theorem readWith_of_readChars {cs : List Char} (h : readChars cs = .ok t) :
    readWith Clock.strict strictZone cs = .ok t ∨ readWith Clock.loose looseZone cs = .ok t ∨
      readWith Clock.loose (pure 0) cs = .ok t := by
  unfold readChars at h
  split at h
  · next hread =>
    cases h
    exact .inl hread
  · split at h
    · next hread =>
      cases h
      exact .inr (.inl hread)
    · split at h
      · next hread =>
        cases h
        exact .inr (.inr hread)
      · cases h

theorem isValid_of_read {text : String} (h : read text = .ok t) : t.isValid = true := by
  have hstrict : ∀ {cs z rest}, strictZone cs = .ok (z, rest) → 60 ∣ z := by
    intro cs z rest hz
    unfold strictZone at hz
    split at hz
    · cases hz
      exact dvd_zero 60
    · cases hz
      exact dvd_zero 60
    · exact zone_eq_ok hz
  have hloose : ∀ {cs z rest}, looseZone cs = .ok (z, rest) → 60 ∣ z := by
    intro cs z rest hz
    obtain ⟨-, more, -, hz⟩ := Scan.bind_eq_ok hz
    exact zone_eq_ok hz
  have hnone : ∀ {cs z rest}, (pure 0 : Scan Int) cs = .ok (z, rest) → 60 ∣ z := by
    intro cs z rest hz
    obtain rfl := Scan.pure_eq_ok hz
    exact dvd_zero 60
  rcases readWith_of_readChars h with h | h | h
  · exact isValid_of_readWith hstrict h
  · exact isValid_of_readWith hloose h
  · exact isValid_of_readWith hnone h

theorem number_all {n : Nat} {rest : List Char} (hr : ∀ c ∈ rest.head?, c.isDigit = false) :
    number 1 (padded 4 n ++ rest).length (padded 4 n ++ rest) = .ok (n, rest) := by
  have hlen : 1 ≤ (padded 4 n).length := by
    simp only [padded, List.length_append, List.length_replicate]
    omega
  have hdigits : digits 1 (padded 4 n ++ rest).length (padded 4 n ++ rest) =
      .ok (padded 4 n, rest) :=
    digits_append isDigit_padded hlen (by simp) (.inr hr)
  rw [number, bind_of_ok hdigits, ofDigits_padded]
  rfl

theorem bounded_of_ok {x : Scan Int} {cs rest : List Char} {y : Int} (hx : x cs = .ok (y, rest))
    (hy : -2147483648 ≤ y ∧ y ≤ 2147483647) :
    (do
      let year ← x
      if -2147483648 ≤ year ∧ year ≤ 2147483647 then return year else fail .range : Scan Int) cs =
      .ok (y, rest) := by
  rw [bind_of_ok hx, if_pos hy]
  rfl

theorem Clock.looseYear_signed {y : Int} (hy : ¬ (0 ≤ y ∧ y ≤ 9999))
    (hmin : -2147483648 ≤ y) (hmax : y ≤ 2147483647) {rest : List Char}
    (hr : ∀ c ∈ rest.head?, c.isDigit = false) :
    Clock.loose.year (yearText y ++ rest) = .ok (y, rest) := by
  change looseYear _ = _
  rw [yearText, looseYear]
  split
  · next hneg =>
    have hvalue : -((y.natAbs : Nat) : Int) = y := by omega
    have hnumber : (do return -(← number 1 (padded 4 y.natAbs ++ rest).length : Nat) : Scan Int)
        (padded 4 y.natAbs ++ rest) = .ok (y, rest) := by
      rw [bind_of_ok (number_all hr), hvalue]
      rfl
    rw [List.cons_append, bind_of_ok (skipWhile_cons rfl _)]
    exact bounded_of_ok hnumber ⟨hmin, hmax⟩
  · have hvalue : ((y.toNat : Nat) : Int) = y := by omega
    have hnumber : (do return (← number 1 (padded 4 y.toNat ++ rest).length : Nat) : Scan Int)
        (padded 4 y.toNat ++ rest) = .ok (y, rest) := by
      rw [bind_of_ok (number_all hr), hvalue]
      rfl
    rw [if_neg (by omega), List.cons_append, bind_of_ok (skipWhile_cons rfl _)]
    exact bounded_of_ok hnumber ⟨hmin, hmax⟩

theorem exists_sign_of_yearText {y : Int} (hy : ¬ (0 ≤ y ∧ y ≤ 9999)) :
    ∃ c cs, yearText y = c :: cs ∧ c.isDigit = false := by
  rw [yearText]
  split
  · exact ⟨'-', _, rfl, rfl⟩
  · rw [if_neg (by omega)]
    exact ⟨'+', _, rfl, rfl⟩

theorem readWith_strict_of_sign {c : Char} (hc : c.isDigit = false) (cs : List Char) :
    ∃ fault, readWith Clock.strict strictZone (c :: cs) = .error fault := by
  obtain ⟨fault, hdigits⟩ : ∃ fault, digits 4 4 (c :: cs) = .error fault := by
    simp only [digits, List.take_succ_cons, List.takeWhile_cons, hc, Bool.false_eq_true, if_false]
    split
    · exact ⟨_, rfl⟩
    · exact ⟨_, rfl⟩
  have hyear : Clock.strict.year (c :: cs) = .error fault :=
    bind_of_error (bind_of_error hdigits)
  have hscan : Clock.scan Clock.strict (c :: cs) = .error fault := bind_of_error hyear
  refine ⟨fault, ?_⟩
  rw [readWith, bind_of_error hscan]
  rfl

theorem year_bounds (hv : t.isValid = true) : -2147483648 ≤ t.year ∧ t.year ≤ 2147483647 := by
  obtain ⟨⟨hmin, hmax⟩, -⟩ := valid_iff.1 hv
  have hyear := Date.year_ofDays (t.seconds / secondsPerDay)
  simp only [year, secondsPerDay, Date.epochDay, Date.daysPerEra, minSeconds, maxSeconds] at *
  omega

theorem scan_formatChars_loose (hv : t.isValid = true) (hy : ¬ (0 ≤ t.year ∧ t.year ≤ 9999)) :
    Clock.scan Clock.loose t.formatChars = .ok (t.clock, ['Z']) := by
  obtain ⟨hmin, hmax⟩ := year_bounds hv
  have hyear : Clock.loose.year (yearText t.year ++ (t.clock.tailText ++ ['Z'])) =
      .ok (t.clock.date.year, t.clock.tailText ++ ['Z']) :=
    Clock.looseYear_signed hy hmin hmax (by simp [Clock.head?_tailText])
  rw [formatChars_eq]
  exact Clock.scan_text Clock.takesNumerals_loose (clock_inRange hv) hyear (by simp)

/-- A text with a signed year is not read back: both loose notations stop in front of its `Z`. -/
theorem read_format_signed (hv : t.isValid = true) (hy : ¬ (0 ≤ t.year ∧ t.year ≤ 9999)) :
    read t.format = .error .invalid := by
  have hscan := scan_formatChars_loose hv hy
  have hzone : looseZone ['Z'] = .error .invalid := rfl
  have hnone : (pure 0 : Scan Int) ['Z'] = .ok (0, ['Z']) := rfl
  have hloose : readWith Clock.loose looseZone t.formatChars = .error .invalid := by
    rw [readWith, bind_of_ok hscan, bind_of_error hzone]
    rfl
  have hbare : readWith Clock.loose (pure 0) t.formatChars = .error .long := by
    rw [readWith, bind_of_ok hscan, bind_of_ok hnone]
    rfl
  obtain ⟨fault, hstrict⟩ : ∃ fault,
      readWith Clock.strict strictZone t.formatChars = .error fault := by
    obtain ⟨c, cs, hsign, hc⟩ := exists_sign_of_yearText hy
    rw [formatChars_eq, hsign]
    exact readWith_strict_of_sign hc _
  simp [read, format, readChars, hstrict, hloose, hbare]

/-- An instant that was read comes back from its own text up to the millisecond, if its year in UTC
has four digits and no sign. Otherwise its own text is refused. -/
theorem read_format_of_read {text : String} (h : read text = .ok t) :
    (read t.format = .ok t.truncate ↔ 0 ≤ t.year ∧ t.year ≤ 9999) ∧
      (¬ (0 ≤ t.year ∧ t.year ≤ 9999) → read t.format = .error .invalid) := by
  have hv := isValid_of_read h
  refine ⟨⟨fun hread => ?_, read_format hv⟩, read_format_signed hv⟩
  by_contra hy
  rw [read_format_signed hv hy] at hread
  cases hread

/-- The offset moves the last hour of the year -1 into the year 0. -/
theorem read_format_yearZero :
    read "-0001-12-31T23:30:00.9876-0100" = .ok ⟨-62167217400, 987600000⟩ ∧
      read (format ⟨-62167217400, 987600000⟩) = .ok ⟨-62167217400, 987000000⟩ := by
  have hread : read "-0001-12-31T23:30:00.9876-0100" = .ok ⟨-62167217400, 987600000⟩ := rfl
  exact ⟨hread, (read_format_of_read hread).1.2 (by decide)⟩

/-- The offset moves the last second of the year 9999 into the year 10000. -/
theorem read_format_yearTenThousand :
    read "9999-12-31T23:59:59-01:00" = .ok ⟨253402304399, 0⟩ ∧
      format ⟨253402304399, 0⟩ = "+10000-01-01T00:59:59.000Z" ∧
      read (format ⟨253402304399, 0⟩) ≠ .ok (truncate ⟨253402304399, 0⟩) := by
  refine ⟨rfl, rfl, ?_⟩
  rw [read_format_signed (by decide) (by decide)]
  simp

end Instant

end ProtoSchema
