import Mathlib.Algebra.Order.Field.Power
import ProtoSchema.Proofs.Value.Leaf

/-! # Integers of 64 bits from numbers

A number stands for a rational, and a scalar of 64 bits takes it if that rational is an integer in its
range. A double is first brought to the integers of its own sign, though, so one that lies beyond an
end that the range shares with these is taken for that end.
-/

namespace ProtoSchema

namespace Decimal

def Magnitude.toRat? : Magnitude → Option ℚ
  | finite m e => some (m * 2 ^ e)
  | infinite => none

def Binary.toRat? (b : Binary) : Option ℚ :=
  b.magnitude.toRat?.map fun q => if b.negative then -q else q

theorem Magnitude.nonneg_of_toRat? {m : Magnitude} {q : ℚ} (h : m.toRat? = some q) : 0 ≤ q := by
  cases m with
  | finite m e =>
    cases h
    positivity
  | infinite => cases h

theorem mul_zpow_neg_eq_iff {m n k : Nat} : (m : ℚ) * 2 ^ (-(k : Int)) = n ↔ m = n * twoTo k := by
  rw [zpow_neg, zpow_natCast, ← div_eq_mul_inv, div_eq_iff (by positivity)]
  exact_mod_cast Iff.rfl

theorem Magnitude.nat?_eq_some_iff {m : Magnitude} {n : Nat} :
    m.nat? = some n ↔ m.toRat? = some (n : ℚ) := by
  cases m with
  | infinite => simp [nat?, toRat?]
  | finite m e =>
    simp only [nat?, toRat?, Option.some.injEq]
    obtain ⟨k, rfl | rfl⟩ := e.eq_nat_or_neg
    · rw [if_pos (Int.natCast_nonneg k), Int.toNat_natCast, zpow_natCast, Option.some.injEq]
      exact_mod_cast Iff.rfl
    · rw [mul_zpow_neg_eq_iff, neg_neg, Int.toNat_natCast]
      split
      · obtain rfl : k = 0 := by omega
        simp [twoTo]
      · have hpos : 0 < twoTo k := Nat.two_pow_pos k
        constructor
        · intro h
          split at h
          · next hdvd =>
            cases h
            exact (Nat.div_mul_cancel (Nat.dvd_of_mod_eq_zero hdvd)).symm
          · cases h
        · rintro rfl
          rw [if_pos (Nat.mul_mod_left ..), Nat.mul_div_cancel _ hpos]

theorem Binary.int?_eq_map (b : Binary) :
    b.int? = b.magnitude.nat?.map fun n : Nat => if b.negative then -(n : Int) else (n : Int) := by
  unfold int?
  cases b.magnitude.nat? <;> rfl

theorem Binary.int?_eq_some_iff {b : Binary} {n : Int} :
    b.int? = some n ↔ b.toRat? = some (n : ℚ) := by
  simp only [int?_eq_map, toRat?, Option.map_eq_some_iff, Magnitude.nat?_eq_some_iff]
  constructor
  · rintro ⟨k, hk, rfl⟩
    refine ⟨k, hk, ?_⟩
    split <;> simp
  · rintro ⟨q, hq, hn⟩
    have hnonneg := Magnitude.nonneg_of_toRat? hq
    obtain rfl : q = (n.natAbs : ℚ) := by
      rw [Nat.cast_natAbs, Int.cast_abs, ← hn]
      split <;> simp [abs_of_nonneg hnonneg]
    refine ⟨n.natAbs, hq, ?_⟩
    apply Int.cast_injective (α := ℚ)
    rw [← hn]
    split <;> simp

end Decimal

namespace IntegerRange

/-- The integers of 64 bits to which a double of the sign of `n` is brought. -/
def ofSign (n : Int) : IntegerRange := if n < 0 then signed64 else unsigned64

/-- Beyond an end that the range has in common with the integers of that sign. -/
def Overshot (r : IntegerRange) (n : Int) : Prop :=
  r = signed64 ∧ n < signed64.least ∨ r = unsigned64 ∧ unsigned64.greatest < n

instance (r : IntegerRange) (n : Int) : Decidable (r.Overshot n) :=
  inferInstanceAs (Decidable (_ ∧ _ ∨ _ ∧ _))

variable {r : IntegerRange} {n : Int}

theorem contains_iff : r.contains n = true ↔ r.least ≤ n ∧ n ≤ r.greatest := by
  simp [contains]

theorem clamp_eq_self (h : r.contains n = true) : r.clamp n = n := by
  rw [contains_iff] at h
  rw [clamp, min_eq_left h.2, max_eq_right h.1]

theorem contains_of_not_overshot (hr : r = signed64 ∨ r = unsigned64) (h : ¬ r.Overshot n)
    (hc : r.contains ((ofSign n).clamp n) = true) : r.contains n = true := by
  rw [contains_iff] at hc ⊢
  unfold ofSign at hc
  rcases hr with rfl | rfl <;> split at hc <;>
    simp [Overshot, clamp, signed64, unsigned64] at h hc ⊢ <;> omega

theorem ofSign_contains (hr : r = signed64 ∨ r = unsigned64) (h : r.contains n = true) :
    (ofSign n).contains n = true := by
  rw [contains_iff] at h ⊢
  unfold ofSign
  rcases hr with rfl | rfl <;> split <;> simp only [signed64, unsigned64] at * <;> omega

theorem clamp_of_overshot (h : r.Overshot n) :
    (ofSign n).clamp n = r.clamp n ∧ r.contains (r.clamp n) = true ∧ r.contains n = false := by
  rw [contains_iff, ← Bool.not_eq_true, contains_iff, ofSign]
  rcases h with ⟨rfl, h⟩ | ⟨rfl, h⟩
  · simp only [signed64] at h
    rw [if_pos (by omega)]
    refine ⟨rfl, ?_, ?_⟩ <;> simp only [clamp, signed64] <;> omega
  · simp only [unsigned64] at h
    rw [if_neg (by omega)]
    refine ⟨rfl, ?_, ?_⟩ <;> simp only [clamp, unsigned64] <;> omega

end IntegerRange

namespace Json

def Number.toRat? : Number → Option ℚ
  | unsigned n => some n
  | negative n => some (-n)
  | double x => x.toRat?

def Number.found : Number → Found
  | unsigned n => .integer n
  | negative n => .integer (-n)
  | double x => .double x

/-- A double that is taken for an end of the range beyond which it lies. -/
def Number.Overshoots (r : IntegerRange) : Number → Prop
  | double x => ∃ n : Int, x.toRat? = some (n : ℚ) ∧ r.Overshot n
  | _ => False

theorem found_number {literal : String} {num : Number} (h : Number.ofLiteral? literal = some num) :
    (Json.number literal).found = .ok num.found := by
  rw [found, h]
  cases num <;> rfl

end Json

namespace Found

variable {r : IntegerRange} {num : Json.Number} {n m : Int}

theorem inRange_eq_ok_iff : inRange r n = .ok m ↔ n = m ∧ r.contains m = true := by
  unfold inRange
  split
  · next h =>
    rw [Except.ok.injEq]
    exact ⟨fun hm => ⟨hm, hm ▸ h⟩, fun hm => hm.1⟩
  · next h =>
    constructor
    · intro hm
      cases hm
    · rintro ⟨rfl, hc⟩
      exact absurd hc h

theorem toInteger64_double {x : Decimal.Binary} (h : x.toRat? = some (n : ℚ)) :
    (double x).toInteger64 r = inRange r ((IntegerRange.ofSign n).clamp n) := by
  rw [toInteger64, Decimal.Binary.int?_eq_some_iff.2 h, IntegerRange.ofSign]
  dsimp only
  split <;> rfl

theorem exists_of_toInteger64_double {x : Decimal.Binary} (h : (double x).toInteger64 r = .ok m) :
    ∃ n : Int, x.toRat? = some (n : ℚ) := by
  cases hx : x.int? with
  | none =>
    rw [toInteger64, hx] at h
    cases h
  | some n => exact ⟨n, Decimal.Binary.int?_eq_some_iff.1 hx⟩

theorem toInteger64_eq_ok_iff (hr : r = .signed64 ∨ r = .unsigned64) (hno : ¬ num.Overshoots r) :
    num.found.toInteger64 r = .ok m ↔
      num.toRat? = some (m : ℚ) ∧ r.contains m = true := by
  cases num with
  | unsigned k | negative k =>
    rw [Json.Number.found, toInteger64, inRange_eq_ok_iff, Json.Number.toRat?, Option.some.injEq]
    norm_cast
  | double x =>
    rw [Json.Number.found, Json.Number.toRat?]
    constructor
    · intro h
      obtain ⟨n, hn⟩ := exists_of_toInteger64_double h
      rw [toInteger64_double hn, inRange_eq_ok_iff] at h
      obtain ⟨rfl, hc⟩ := h
      have hmem := IntegerRange.contains_of_not_overshot hr (fun ho => hno ⟨n, hn, ho⟩) hc
      rw [IntegerRange.clamp_eq_self (IntegerRange.ofSign_contains hr hmem)]
      exact ⟨hn, hmem⟩
    · rintro ⟨hm, hc⟩
      rw [toInteger64_double hm, inRange_eq_ok_iff,
        IntegerRange.clamp_eq_self (IntegerRange.ofSign_contains hr hc)]
      exact ⟨rfl, hc⟩

/-- A double that overshoots is taken for an integer that it is not. -/
theorem toInteger64_of_overshoots (h : num.Overshoots r) :
    ∃ n : Int, num.toRat? = some (n : ℚ) ∧ r.contains n = false ∧
      num.found.toInteger64 r = .ok (r.clamp n) := by
  cases num with
  | unsigned k | negative k => exact h.elim
  | double x =>
    obtain ⟨n, hn, ho⟩ := h
    obtain ⟨hclamp, hc, hout⟩ := IntegerRange.clamp_of_overshot ho
    refine ⟨n, hn, hout, ?_⟩
    rw [Json.Number.found, toInteger64_double hn, hclamp, inRange_eq_ok_iff]
    exact ⟨rfl, hc⟩

end Found

namespace Scalar

variable {s : Scalar}

theorem ofFound_of_int64 (hs : s.jsonForm? = some .int64) (f : Found) :
    s.ofFound f = (f.toInteger64 s.range64).map .int := by
  cases s <;> first | rfl | cases hs

theorem range64_cases (s : Scalar) : s.range64 = .signed64 ∨ s.range64 = .unsigned64 := by
  cases s <;> simp [range64]

/-- An integer of 64 bits is read from a number exactly or not at all, unless the number is a double
that overshoots the range. -/
theorem ofFound_number (hs : s.jsonForm? = some .int64) (num : Json.Number) :
    (∀ literal inside, Json.Number.ofLiteral? literal = some num →
      (ValueType.scalar s).readLeaf inside (.number literal) =
        (s.ofFound num.found).mapError .misfit) ∧
    (¬ num.Overshoots s.range64 → ∀ v, s.ofFound num.found = .ok v ↔
      ∃ n : Int, v = .int n ∧ num.toRat? = some (n : ℚ) ∧ s.range64.contains n = true) ∧
    (num.Overshoots s.range64 → ∃ n : Int, num.toRat? = some (n : ℚ) ∧
      s.range64.contains n = false ∧ s.ofFound num.found = .ok (.int (s.range64.clamp n))) := by
  refine ⟨fun literal inside h => ?_, fun hno v => ?_, fun ho => ?_⟩
  · exact ValueType.readLeaf_scalar rfl (Json.found_number h) s inside
  · rw [ofFound_of_int64 hs]
    constructor
    · intro h
      cases hread : num.found.toInteger64 s.range64 with
      | error fault =>
        rw [hread] at h
        cases h
      | ok n =>
        rw [hread] at h
        cases h
        exact ⟨n, rfl, (Found.toInteger64_eq_ok_iff s.range64_cases hno).1 hread⟩
    · rintro ⟨n, rfl, hn⟩
      rw [(Found.toInteger64_eq_ok_iff s.range64_cases hno).2 hn]
      rfl
  · obtain ⟨n, hn, hout, hread⟩ := Found.toInteger64_of_overshoots ho
    refine ⟨n, hn, hout, ?_⟩
    rw [ofFound_of_int64 hs, hread]
    rfl

/-- The double of `1e19` is between the greatest signed and the greatest unsigned integer. -/
theorem ofFound_number_tenToNineteen :
    Scalar.uint64.ofFound (.double ⟨false, .finite 4882812500000000 11⟩) =
      .ok (.int 10000000000000000000) := by
  have hrat : (Json.Number.double ⟨false, .finite 4882812500000000 11⟩).toRat? =
      some ((10000000000000000000 : Int) : ℚ) := by
    norm_num [Json.Number.toRat?, Decimal.Binary.toRat?, Decimal.Magnitude.toRat?]
  have hno : ¬ (Json.Number.double ⟨false, .finite 4882812500000000 11⟩).Overshoots
      Scalar.uint64.range64 := by
    rintro ⟨n, hn, ho⟩
    rw [show n = 10000000000000000000 by exact_mod_cast Option.some.inj (hn.symm.trans hrat)] at ho
    exact absurd ho (by decide)
  exact ((ofFound_number rfl _).2.1 hno _).2 ⟨_, rfl, hrat, rfl⟩

/-- The double of `1e20` is taken for the greatest unsigned integer. -/
theorem readLeaf_tenToTwenty :
    (Json.Number.ofLiteral? "1e20").bind Json.Number.toRat? = some (10 ^ 20) ∧
      (ValueType.scalar .uint64).readLeaf none (.number "1e20") =
        .ok (.int 18446744073709551615) := by
  have hnum : Json.Number.ofLiteral? "1e20" =
    some (.double ⟨false, .finite 6103515625000000 14⟩) := by rfl
  refine ⟨?_, by rfl⟩
  rw [hnum]
  norm_num [Json.Number.toRat?, Decimal.Binary.toRat?, Decimal.Magnitude.toRat?]

end Scalar

end ProtoSchema
