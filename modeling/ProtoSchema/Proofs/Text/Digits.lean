import Mathlib.Data.List.Induction
import Mathlib.Data.List.TakeWhile
import Mathlib.Tactic.Ring
import ProtoSchema.IntegerText
import ProtoSchema.Json
import ProtoSchema.Text.Digit

/-! # Numbers as digits

Writing a number in some base and reading its digits gives the number back. The readers of integers
differ in what they check on the way: a range, a width, or how much fits 64 bits.
-/

namespace ProtoSchema

section Runs

variable {α : Type} {p : α → Bool} {xs rest : List α}

theorem takeWhile_append_of_stop (h : ∀ x ∈ rest.head?, p x = false) :
    (xs ++ rest).takeWhile p = xs.takeWhile p := by
  induction xs with
  | nil => cases rest with
    | nil => rfl
    | cons x rest => simp [h x rfl]
  | cons x xs ih => simp only [List.cons_append, List.takeWhile_cons, ih]

theorem dropWhile_append_of_stop (h : ∀ x ∈ rest.head?, p x = false) :
    (xs ++ rest).dropWhile p = xs.dropWhile p ++ rest := by
  induction xs with
  | nil => cases rest with
    | nil => rfl
    | cons x rest => simp [h x rfl]
  | cons x xs ih =>
    simp only [List.cons_append, List.dropWhile_cons, ih]
    split <;> rfl

end Runs

/-- What holds of the characters of ASCII can be found out one by one. -/
theorem forall_ascii {P : Char → Prop} (h : ∀ n < 0x80, P (Char.ofNat n)) :
    ∀ c : Char, c.toNat < 0x80 → P c := by
  intro c hc
  have hP := h c.toNat hc
  rwa [Char.ofNat_toNat] at hP

namespace Text

theorem digitValue_digitChar {n : Nat} (h : n < 16) : digitValue n.digitChar = n := by
  revert n
  decide

theorem isHexDigit_digitChar {n : Nat} (h : n < 16) : isHexDigit n.digitChar = true := by
  revert n
  decide

theorem ofDigits_concat (base : Nat) (ds : List Char) (c : Char) :
    ofDigits base (ds ++ [c]) = ofDigits base ds * base + digitValue c := by
  simp [ofDigits]

theorem ofDigits_append (base : Nat) (ds es : List Char) :
    ofDigits base (ds ++ es) = ofDigits base ds * base ^ es.length + ofDigits base es := by
  induction es using List.reverseRecOn with
  | nil => simp [ofDigits]
  | append_singleton es c ih =>
    rw [← List.append_assoc, ofDigits_concat, ih, ofDigits_concat, List.length_append,
      List.length_singleton]
    ring

theorem ofDigits_singleton (base : Nat) (c : Char) : ofDigits base [c] = digitValue c := by
  simp [ofDigits]

theorem ofDigits_replicate_zero (base n : Nat) : ofDigits base (List.replicate n '0') = 0 := by
  induction n with
  | zero => rfl
  | succ n ih =>
    rw [List.replicate_succ', ofDigits_concat, ih]
    simp [digitValue]

theorem ofDigits_toDigits {base : Nat} (h : 1 < base) (h' : base ≤ 16) (n : Nat) :
    ofDigits base (Nat.toDigits base n) = n := by
  induction n using Nat.strongRecOn with
  | ind n ih =>
    rw [Nat.toDigits_eq_if h]
    split
    · rw [ofDigits_singleton, digitValue_digitChar (by omega)]
    · have hlt : n / base < n := Nat.div_lt_self (by omega) h
      have hmod : n % base < base := Nat.mod_lt n (by omega)
      rw [ofDigits_concat, ih _ hlt, digitValue_digitChar (by omega)]
      exact Nat.div_add_mod' n base

theorem isHexDigit_of_mem_toDigits {n : Nat} {c : Char} (h : c ∈ Nat.toDigits 16 n) :
    isHexDigit c = true := by
  induction n using Nat.strongRecOn with
  | ind n ih =>
    rw [Nat.toDigits_eq_if (by decide)] at h
    split at h
    · obtain rfl := List.mem_singleton.1 h
      exact isHexDigit_digitChar ‹_›
    · rcases List.mem_append.1 h with h | h
      · exact ih _ (by omega) h
      · obtain rfl := List.mem_singleton.1 h
        exact isHexDigit_digitChar (Nat.mod_lt n (by decide))

theorem toNat_of_isDigit {c : Char} (h : c.isDigit = true) : 48 ≤ c.toNat ∧ c.toNat ≤ 57 := by
  simpa [Char.isDigit, Char.le_def, UInt32.le_iff_toNat_le] using h

theorem digitValue_lt {c : Char} (h : c.isDigit = true) : digitValue c < 10 := by
  have hc := toNat_of_isDigit h
  rw [digitValue, if_pos h]
  have hzero : '0'.toNat = 48 := rfl
  omega

theorem ofDigits_lt {ds : List Char} (h : ∀ d ∈ ds, d.isDigit = true) :
    ofDigits 10 ds < 10 ^ ds.length := by
  induction ds using List.reverseRecOn with
  | nil => simp [ofDigits]
  | append_singleton ds d ih =>
    have hds := ih fun x hx => h x (List.mem_append_left _ hx)
    have hd := digitValue_lt (h d (by simp))
    rw [ofDigits_concat, List.length_append, List.length_singleton, pow_succ]
    omega

theorem isBlank_of_isDigit {c : Char} (h : c.isDigit = true) : isBlank c = false := by
  have hc := toNat_of_isDigit h
  simp [isBlank, inRanges, blankRanges]
  omega

theorem trim_eq_self {cs : List Char} (h : ∀ c ∈ cs, isBlank c = false) : trim cs = cs := by
  have hdrop (ds : List Char) (hd : ∀ c ∈ ds, isBlank c = false) : ds.dropWhile isBlank = ds := by
    cases ds with
    | nil => rfl
    | cons d ds => simp [hd d List.mem_cons_self]
  rw [trim, hdrop cs h, hdrop _ fun c hc => h c (List.mem_reverse.1 hc), List.reverse_reverse]

end Text

theorem toList_toString_of_nonneg {n : Int} (h : 0 ≤ n) :
    (toString n).toList = Nat.toDigits 10 n.natAbs := by
  rw [Int.toString_eq_repr, Int.repr_eq_if, if_pos h, Nat.toList_repr]
  congr 1
  omega

theorem toList_toString_of_neg {n : Int} (h : n < 0) :
    (toString n).toList = '-' :: Nat.toDigits 10 n.natAbs := by
  rw [Int.toString_eq_repr, Int.repr_eq_if, if_neg (by omega)]
  have habs : (-n).toNat = n.natAbs := by omega
  simp [habs]

theorem isDigit_toDigits {n : Nat} : ∀ c ∈ Nat.toDigits 10 n, c.isDigit = true :=
  fun _ hc => Nat.isDigit_of_mem_toDigits (by decide) (by decide) hc

theorem le_ofDigitChars (ds : List Char) (n : Nat) : n ≤ Nat.ofDigitChars 10 ds n := by
  induction ds generalizing n with
  | nil => simp
  | cons d ds ih =>
    rw [Nat.ofDigitChars_cons]
    exact le_trans (by omega) (ih _)

namespace IntegerRange

/-- All numbers met on the way lie between zero and the result. -/
theorem readDigits_eq {r : IntegerRange} {sign : Int} (hs : sign = 1 ∨ sign = -1)
    (hz : r.contains 0 = true) {ds : List Char} (hd : ∀ c ∈ ds, c.isDigit = true) {n : Nat}
    (hr : r.contains (sign * Nat.ofDigitChars 10 ds n) = true) :
    r.readDigits sign (sign * n) ds = .ok (sign * Nat.ofDigitChars 10 ds n) := by
  induction ds generalizing n with
  | nil => simp [readDigits]
  | cons d ds ih =>
    rw [Nat.ofDigitChars_cons] at hr ⊢
    have hle := le_ofDigitChars ds (10 * n + (d.toNat - '0'.toNat))
    have hnext : sign * n * 10 + sign * (d.toNat - '0'.toNat : Nat)
        = sign * ((10 * n + (d.toNat - '0'.toNat) : Nat) : Int) := by
      push_cast
      ring
    simp only [contains, Bool.and_eq_true, decide_eq_true_eq] at hz hr
    simp only [readDigits, hd d List.mem_cons_self, Bool.not_true, Bool.false_eq_true, if_false,
      hnext]
    rw [if_neg (by rcases hs with rfl | rfl <;> omega),
      if_neg (by rcases hs with rfl | rfl <;> omega)]
    exact ih (fun c hc => hd c (List.mem_cons_of_mem _ hc)) (by simpa [contains] using hr)

theorem readChars_toString {r : IntegerRange} (hz : r.contains 0 = true) {n : Int}
    (hn : r.contains n = true) : r.readChars (toString n).toList = .ok n := by
  have hv : Nat.ofDigitChars 10 (Nat.toDigits 10 n.natAbs) 0 = n.natAbs :=
    Nat.ofDigitChars_ten_toDigits
  obtain ⟨d, ds, hds⟩ := List.exists_cons_of_ne_nil (Nat.toDigits_ne_nil (n := n.natAbs) (b := 10))
  rcases lt_or_ge n 0 with hneg | hpos
  · have hleast : r.least < 0 := by
      simp only [contains, Bool.and_eq_true, decide_eq_true_eq] at hn
      omega
    have heq : (-1 : Int) * n.natAbs = n := by omega
    have h := readDigits_eq (r := r) (n := 0) (.inr rfl) hz isDigit_toDigits (by rwa [hv, heq])
    rw [hv, heq, hds] at h
    rw [toList_toString_of_neg hneg, hds]
    simpa [readChars, hleast] using h
  · have heq : (1 : Int) * n.natAbs = n := by omega
    have h := readDigits_eq (r := r) (n := 0) (.inl rfl) hz isDigit_toDigits (by rwa [hv, heq])
    have hd : d.isDigit = true := isDigit_toDigits d (hds ▸ List.mem_cons_self)
    have hplus : d ≠ '+' := by rintro rfl; simp at hd
    have hminus : d ≠ '-' := by rintro rfl; simp at hd
    rw [hv, heq, hds] at h
    rw [toList_toString_of_nonneg hpos, hds, readChars]
    · simpa using h
    all_goals simp [hplus, hminus]

theorem read_toString {r : IntegerRange} (hz : r.contains 0 = true) {n : Int}
    (hn : r.contains n = true) : r.read (toString n) = .ok n := by
  have hblank : ∀ c ∈ (toString n).toList, Text.isBlank c = false := by
    intro c hc
    rcases lt_or_ge n 0 with hneg | hpos
    · rw [toList_toString_of_neg hneg] at hc
      rcases List.mem_cons.1 hc with rfl | hc
      · decide
      · exact Text.isBlank_of_isDigit (isDigit_toDigits c hc)
    · rw [toList_toString_of_nonneg hpos] at hc
      exact Text.isBlank_of_isDigit (isDigit_toDigits c hc)
  rw [read, Text.trim_eq_self hblank, readChars_toString hz hn]

end IntegerRange

namespace Json

namespace Literal

theorem accumulate_eq {ds : List Char} {n : Nat} (h : Nat.ofDigitChars 10 ds n ≤ maxUnsigned) :
    accumulate n ds = (Nat.ofDigitChars 10 ds n, 0) := by
  induction ds generalizing n with
  | nil => simp [accumulate]
  | cons d ds ih =>
    rw [Nat.ofDigitChars_cons] at h ⊢
    have hle := le_ofDigitChars ds (10 * n + (d.toNat - '0'.toNat))
    rw [accumulate, Nat.mul_comm n 10, if_neg (by omega), ih h]

theorem eq_of_accumulate {ds : List Char} {n k : Nat} (h : accumulate n ds = (k, 0)) :
    k = Nat.ofDigitChars 10 ds n := by
  induction ds generalizing n with
  | nil => simpa [accumulate, eq_comm] using h
  | cons d ds ih =>
    rw [accumulate, Nat.mul_comm n 10] at h
    split at h
    · simp at h
    · rw [Nat.ofDigitChars_cons]
      exact ih h

theorem accumulate_toDigits {n : Nat} (h : n ≤ maxUnsigned) :
    accumulate 0 (Nat.toDigits 10 n) = (n, 0) := by
  have hv : Nat.ofDigitChars 10 (Nat.toDigits 10 n) 0 = n := Nat.ofDigitChars_ten_toDigits
  rw [accumulate_eq (by rwa [hv]), hv]

theorem ofChars_toString (n : Int) :
    ofChars (toString n).toList = ⟨n < 0, Nat.toDigits 10 n.natAbs, none, none⟩ := by
  have htake : (Nat.toDigits 10 n.natAbs).takeWhile Char.isDigit = Nat.toDigits 10 n.natAbs :=
    List.takeWhile_eq_self_iff.2 isDigit_toDigits
  have hdrop : (Nat.toDigits 10 n.natAbs).dropWhile Char.isDigit = [] :=
    List.dropWhile_eq_nil_iff.2 isDigit_toDigits
  rcases lt_or_ge n 0 with hneg | hpos
  · rw [toList_toString_of_neg hneg]
    simp [ofChars, htake, hdrop, hneg]
  · obtain ⟨d, ds, hds⟩ :=
      List.exists_cons_of_ne_nil (Nat.toDigits_ne_nil (n := n.natAbs) (b := 10))
    have hd : d.isDigit = true := isDigit_toDigits d (hds ▸ List.mem_cons_self)
    have hminus : d ≠ '-' := by rintro rfl; simp at hd
    have hhead : (Nat.toDigits 10 n.natAbs).head? ≠ some '-' := by simp [hds, hminus]
    rw [toList_toString_of_nonneg hpos]
    simp [ofChars, htake, hdrop, hhead, hpos]

end Literal

namespace Number

theorem ofLiteral?_toString_of_nonneg {n : Int} (h : 0 ≤ n) (hn : n ≤ Literal.maxUnsigned) :
    ofLiteral? (toString n) = some (.unsigned n.natAbs) := by
  rw [ofLiteral?, Literal.ofChars_toString, Literal.number?, Literal.accumulate_toDigits (by omega)]
  simp [h]

theorem ofLiteral?_toString_of_neg {n : Int} (h : n < 0) (hn : -(Literal.maxNegative : Int) ≤ n) :
    ofLiteral? (toString n) = some (.negative n.natAbs) := by
  have hle : n.natAbs ≤ Literal.maxNegative := by omega
  have hmax : Literal.maxNegative ≤ Literal.maxUnsigned := by decide
  rw [ofLiteral?, Literal.ofChars_toString, Literal.number?, Literal.accumulate_toDigits (by omega)]
  simp [h, hle]
  omega

end Number

end Json

end ProtoSchema
