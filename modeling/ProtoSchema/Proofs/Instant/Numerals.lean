import Mathlib.Data.List.Basic
import ProtoSchema.Instant.Reader
import ProtoSchema.Proofs.Text.Digits

/-! # Written clocks

Both spellings of a clock take numbers of a fixed width, and any number of digits of a second. What a
clock shows is then known from its parts alone, and which of them is out of its range.
-/

namespace ProtoSchema.Instant

theorem length_padded {width n : Nat} (hw : 0 < width) (h : n < 10 ^ width) :
    (padded width n).length = width := by
  have := (Nat.length_toDigits_le_iff (by decide) hw).2 h
  simp only [padded, List.length_append, List.length_replicate]
  omega

theorem isDigit_padded {width n : Nat} : ∀ c ∈ padded width n, c.isDigit = true := by
  intro c hc
  rcases List.mem_append.1 hc with hc | hc
  · rw [List.eq_of_mem_replicate hc]; rfl
  · exact isDigit_toDigits c hc

theorem ofDigits_padded (width n : Nat) : Text.ofDigits 10 (padded width n) = n := by
  rw [padded, Text.ofDigits_append, Text.ofDigits_replicate_zero,
    Text.ofDigits_toDigits (by decide) (by decide)]
  simp

/-- A number as it is written, with leading zeros up to a width. -/
structure Numeral (width : Nat) where
  digits : List Char
  isDigit : ∀ c ∈ digits, c.isDigit = true
  length_digits : digits.length = width

namespace Numeral

variable {width : Nat}

def value (n : Numeral width) : Nat := Text.ofDigits 10 n.digits

theorem value_lt (n : Numeral width) : n.value < 10 ^ width := by
  have h := Text.ofDigits_lt n.isDigit
  rwa [n.length_digits] at h

def ofNat (n : Nat) (hw : 0 < width) (h : n < 10 ^ width) : Numeral width where
  digits := padded width n
  isDigit := isDigit_padded
  length_digits := length_padded hw h

theorem value_ofNat (n : Nat) (hw : 0 < width) (h : n < 10 ^ width) : (ofNat n hw h).value = n :=
  ofDigits_padded width n

theorem exists_cons (n : Numeral (width + 1)) :
    ∃ c cs, n.digits = c :: cs ∧ c.isDigit = true := by
  obtain ⟨c, cs, hcs⟩ := List.exists_cons_of_length_eq_add_one n.length_digits
  exact ⟨c, cs, hcs, n.isDigit c (by rw [hcs]; exact List.mem_cons_self)⟩

theorem exists_pair (n : Numeral 2) :
    ∃ a b, n.digits = [a, b] ∧ a.isDigit = true ∧ b.isDigit = true ∧
      n.value = Text.digitValue a * 10 + Text.digitValue b := by
  obtain ⟨a, b, hab⟩ := List.length_eq_two.1 n.length_digits
  have hd := n.isDigit
  rw [hab] at hd
  refine ⟨a, b, hab, hd a (by simp), hd b (by simp), ?_⟩
  simp [value, hab, Text.ofDigits]

end Numeral

/-- The nanoseconds that the digits of a fraction of a second denote, without what is below one. -/
def nanosOf (ds : List Char) : Nat :=
  Text.ofDigits 10 ds * nanosPerSecond / 10 ^ ds.length

/-- Digits past the ninth do not count. -/
theorem nanosOf_eq {ds : List Char} (h : ∀ c ∈ ds, c.isDigit = true) :
    nanosOf ds = Text.ofDigits 10 (ds.take 9) * 10 ^ (9 - (ds.take 9).length) := by
  have hbillion : nanosPerSecond = 10 ^ 9 := rfl
  rw [nanosOf, hbillion]
  rcases Nat.le_total ds.length 9 with hlen | hlen
  · rw [List.take_of_length_le hlen]
    apply Nat.div_eq_of_eq_mul_left (Nat.pow_pos (by decide))
    rw [Nat.mul_assoc, ← Nat.pow_add, Nat.sub_add_cancel hlen]
  · have htake : (ds.take 9).length = 9 := List.length_take_of_le hlen
    have hlow : Text.ofDigits 10 (ds.drop 9) < 10 ^ (ds.drop 9).length :=
      Text.ofDigits_lt fun c hc => h c (List.mem_of_mem_drop hc)
    have hsum : ds.length = (ds.drop 9).length + 9 := by
      rw [List.length_drop]
      omega
    conv_lhs => rw [← List.take_append_drop 9 ds]
    rw [Text.ofDigits_append, List.take_append_drop, hsum, Nat.pow_add,
      Nat.mul_div_mul_right _ _ (by decide : 0 < 10 ^ 9), Nat.mul_comm,
      Nat.mul_add_div (Nat.pow_pos (by decide)), Nat.div_eq_of_lt hlow, htake]
    simp

namespace Scan

variable {α β : Type} {cs rest : List Char}

theorem bind_of_ok {x : Scan α} {f : α → Scan β} {a : α} (h : x cs = .ok (a, rest)) :
    (x >>= f) cs = f a rest := by
  simp [bind, StateT.bind, Except.bind, h]

theorem bind_of_error {x : Scan α} {f : α → Scan β} {fault : Fault} (h : x cs = .error fault) :
    (x >>= f) cs = .error fault := by
  simp [bind, StateT.bind, Except.bind, h]

theorem digits_append {least most : Nat} {ds : List Char} (hd : ∀ c ∈ ds, c.isDigit = true)
    (hleast : least ≤ ds.length) (hmost : ds.length ≤ most)
    (hr : ds.length = most ∨ ∀ c ∈ rest.head?, c.isDigit = false) :
    digits least most (ds ++ rest) = .ok (ds, rest) := by
  have htake : ((ds ++ rest).take most).takeWhile Char.isDigit = ds := by
    rcases hr with rfl | hr
    · simpa using List.takeWhile_eq_self_iff.2 hd
    · rw [List.take_append, List.take_of_length_le hmost, List.takeWhile_append_of_pos hd]
      cases rest with
      | nil => simp
      | cons c rest => cases most - ds.length <;> simp [hr c rfl]
  simp only [digits, htake]
  rw [if_neg (by simp; omega), if_neg (by omega), List.drop_left]

theorem number_numeral {least width : Nat} (n : Numeral width) (hleast : least ≤ width)
    (rest : List Char) : number least width (n.digits ++ rest) = .ok (n.value, rest) := by
  have hlen := n.length_digits
  have hd : digits least width (n.digits ++ rest) = .ok (n.digits, rest) :=
    digits_append n.isDigit (by omega) hlen.le (.inl hlen)
  rw [number, bind_of_ok hd]
  rfl

theorem literal_cons (c : Char) (cs : List Char) : literal c (c :: cs) = .ok ((), cs) := by
  simp [literal]

theorem skipWhile_cons {p : Char → Bool} {c : Char} (h : p c = false) (cs : List Char) :
    skipWhile p (c :: cs) = .ok ((), c :: cs) := by
  rw [skipWhile, List.dropWhile_cons_of_neg (by simp [h])]

theorem skipWhile_numeral {width : Nat} {p : Char → Bool}
    (hp : ∀ c : Char, c.isDigit = true → p c = false) (n : Numeral (width + 1))
    (rest : List Char) : skipWhile p (n.digits ++ rest) = .ok ((), n.digits ++ rest) := by
  obtain ⟨c, cs, hcs, hc⟩ := n.exists_cons
  rw [hcs]
  exact skipWhile_cons (hp c hc) _

/-- A fraction ends at the first thing that is no digit, however many digits it has. -/
theorem fraction_append {ds : List Char} (hd : ∀ c ∈ ds, c.isDigit = true) (hne : ds ≠ [])
    (hr : ∀ c ∈ rest.head?, c.isDigit = false) :
    fraction ('.' :: (ds ++ rest)) = .ok (nanosOf ds, rest) := by
  have hlen : 1 ≤ ds.length := List.length_pos_iff.2 hne
  have htake : ∀ c ∈ ds.take 9, c.isDigit = true := fun c hc => hd c (List.mem_of_mem_take hc)
  have hmost : (ds.take 9).length = min 9 ds.length := List.length_take
  have hstop : (ds.take 9).length = 9 ∨ ∀ c ∈ (ds.drop 9 ++ rest).head?, c.isDigit = false := by
    rcases Nat.le_total 9 ds.length with h | h
    · left
      omega
    · right
      rwa [List.drop_of_length_le h]
  have hdigits : digits 1 9 (ds ++ rest) = .ok (ds.take 9, ds.drop 9 ++ rest) := by
    conv_lhs => rw [← List.take_append_drop 9 ds, List.append_assoc]
    exact digits_append htake (by omega) (by omega) hstop
  have hskip : skipWhile Char.isDigit (ds.drop 9 ++ rest) = .ok ((), rest) := by
    rw [skipWhile, dropWhile_append_of_stop hr,
      List.dropWhile_eq_nil_iff.2 fun c hc => hd c (List.mem_of_mem_drop hc)]
    rfl
  simp only [fraction]
  rw [bind_of_ok hdigits, bind_of_ok hskip, nanosOf_eq hd]
  rfl

theorem fraction_of_head (hr : ∀ c ∈ rest.head?, c ≠ '.') : fraction rest = .ok (0, rest) := by
  unfold fraction
  split
  · exact absurd rfl (hr '.' rfl)
  · rfl

end Scan

open Scan

namespace Clock

/-- What is written for a clock behind its year. No digits of a second stand for no fraction. -/
structure Parts where
  month : Numeral 2
  day : Numeral 2
  hour : Numeral 2
  minute : Numeral 2
  second : Numeral 2
  fraction : List Char
  isDigit_fraction : ∀ c ∈ fraction, c.isDigit = true

namespace Parts

def fractionText (p : Parts) : List Char := if p.fraction = [] then [] else '.' :: p.fraction

def chars (p : Parts) : List Char :=
  '-' :: (p.month.digits ++ '-' :: (p.day.digits ++ 'T' :: (p.hour.digits ++
    ':' :: (p.minute.digits ++ ':' :: (p.second.digits ++ p.fractionText)))))

/-- The clock that shows the parts in a year. -/
def clock (p : Parts) (year : Int) : Clock where
  date := ⟨year, p.month.value, p.day.value⟩
  hour := p.hour.value
  minute := p.minute.value
  second := p.second.value
  nanos := nanosOf p.fraction

/-- Each part is in the range that holds whatever the others are. -/
structure InRange (p : Parts) : Prop where
  month : 1 ≤ p.month.value ∧ p.month.value ≤ 12
  day : 1 ≤ p.day.value ∧ p.day.value ≤ 31
  hour : p.hour.value ≤ 23
  minute : p.minute.value ≤ 59
  second : p.second.value ≤ 60

theorem fraction_fractionText (p : Parts) {rest : List Char}
    (hr : ∀ c ∈ rest.head?, c.isDigit = false ∧ c ≠ '.') :
    Scan.fraction (p.fractionText ++ rest) = .ok (nanosOf p.fraction, rest) := by
  rw [fractionText]
  split
  · next hnil =>
    rw [hnil]
    exact fraction_of_head fun c hc => (hr c hc).2
  · next hne => exact fraction_append p.isDigit_fraction hne fun c hc => (hr c hc).1

end Parts

/-- The spelling takes numbers of the usual widths, and a `T` between date and time. -/
structure Spelling.TakesNumerals (s : Spelling) : Prop where
  year : ∀ (n : Numeral 4) (rest : List Char), s.year (n.digits ++ rest) = .ok (n.value, rest)
  pair : ∀ (n : Numeral 2) (rest : List Char), s.pair (n.digits ++ rest) = .ok (n.value, rest)
  divider : ∀ rest, s.divider ('T' :: rest) = .ok ((), rest)

theorem takesNumerals_strict : strict.TakesNumerals where
  year n rest := by
    rw [show strict.year = (do return (← number 4 4 : Nat) : Scan Int) from rfl,
      bind_of_ok (number_numeral n le_rfl rest)]
    rfl
  pair n rest := number_numeral n le_rfl rest
  divider _ := rfl

theorem looseYear_numeral (n : Numeral 4) (rest : List Char) :
    looseYear (n.digits ++ rest) = .ok (n.value, rest) := by
  have hvalue := n.value_lt
  have hnumber : (do return (← number 1 4 : Nat) : Scan Int) (n.digits ++ rest) =
      .ok ((n.value : Int), rest) := by
    rw [bind_of_ok (number_numeral n (by decide) rest)]
    rfl
  obtain ⟨c, cs, hcs, hc⟩ := n.exists_cons
  rw [looseYear, bind_of_ok (skipWhile_numeral (fun _ => Text.isBlank_of_isDigit) n rest)]
  rw [hcs] at hnumber ⊢
  have hmatch : ∀ {x : Scan Int}, x (c :: cs ++ rest) = .ok ((n.value : Int), rest) →
      (x >>= fun year =>
        if -2147483648 ≤ year ∧ year ≤ 2147483647 then pure year else fail .range)
          (c :: cs ++ rest) = .ok ((n.value : Int), rest) := by
    intro x hx
    rw [bind_of_ok hx, if_pos (by omega)]
    rfl
  apply hmatch
  rw [List.cons_append] at hnumber ⊢
  split
  · next heq =>
    cases heq
    cases hc
  · next heq =>
    cases heq
    cases hc
  · exact hnumber

theorem takesNumerals_loose : loose.TakesNumerals where
  year := looseYear_numeral
  pair n rest := by
    rw [show loose.pair = (do skipWhile Text.isBlank; number 1 2) from rfl,
      bind_of_ok (skipWhile_numeral (fun _ => Text.isBlank_of_isDigit) n rest)]
    exact number_numeral n (by decide) rest
  divider _ := rfl

namespace Spelling.TakesNumerals

variable {s : Spelling} {β : Type}

theorem bind_within (hs : s.TakesNumerals) (low high : Nat) (n : Numeral 2) (rest : List Char)
    (f : Nat → Scan β) :
    ((s.pair >>= within low high) >>= f) (n.digits ++ rest) =
      if low ≤ n.value ∧ n.value ≤ high then f n.value rest else .error .range := by
  have hpair : (s.pair >>= within low high) (n.digits ++ rest) = within low high n.value rest :=
    bind_of_ok (hs.pair n rest)
  rw [within] at hpair
  split at hpair
  · next h =>
    rw [if_pos h]
    exact bind_of_ok hpair
  · next h =>
    rw [if_neg h]
    exact bind_of_error hpair

/-- Behind any text that is read as a year, the parts decide whether a clock is read, and which. -/
theorem scan_parts_eq_ok (hs : s.TakesNumerals) (p : Parts) {year rest more : List Char} {y : Int}
    {c : Clock} (hyear : s.year (year ++ (p.chars ++ rest)) = .ok (y, p.chars ++ rest))
    (hr : ∀ x ∈ rest.head?, x.isDigit = false ∧ x ≠ '.') :
    scan s (year ++ (p.chars ++ rest)) = .ok (c, more) ↔
      p.InRange ∧ c = p.clock y ∧ more = rest := by
  rw [scan, bind_of_ok hyear]
  simp only [Parts.chars, List.append_assoc, List.cons_append]
  rw [bind_of_ok (literal_cons ..), hs.bind_within, bind_of_ok (literal_cons ..), hs.bind_within,
    bind_of_ok (hs.divider _), hs.bind_within, bind_of_ok (literal_cons ..), hs.bind_within,
    bind_of_ok (literal_cons ..), hs.bind_within, bind_of_ok (p.fraction_fractionText hr)]
  split_ifs with hmonth hday hhour hminute hsecond
  · constructor
    · rintro ⟨⟩
      exact ⟨⟨hmonth, hday, hhour.2, hminute.2, hsecond.2⟩, rfl, rfl⟩
    · rintro ⟨-, rfl, rfl⟩
      rfl
  all_goals
    constructor
    · intro h
      cases h
    · rintro ⟨⟨hmonth', hday', hhour', hminute', hsecond'⟩, -⟩
      omega

end Spelling.TakesNumerals

end Clock

end ProtoSchema.Instant
