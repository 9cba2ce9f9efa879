import ProtoSchema.Proofs.Json.RoundTrip

/-! # Numerals

A numeral is split where it ends. The decimal text of an integer is a numeral, and so is every text
without blanks that is read as a number.
-/

namespace ProtoSchema.Json.Reader

variable {cs a b : List Char}

theorem digits?_split (h : digits? cs = some (a, b)) : a ++ b = cs := by
  unfold digits? at h
  split at h
  · simp at h
  · cases h
    exact List.takeWhile_append_dropWhile

theorem integer?_split (h : integer? cs = some (a, b)) : a ++ b = cs := by
  unfold integer? at h
  split at h
  · split at h
    · simp at h
    · cases h
      rfl
  · exact digits?_split h

theorem fraction?_split (h : fraction? cs = some (a, b)) : a ++ b = cs := by
  unfold fraction? at h
  split at h
  · obtain ⟨⟨a', b'⟩, hd, heq⟩ := Option.map_eq_some_iff.1 h
    cases heq
    simp [digits?_split hd]
  · cases h
    rfl

theorem exponent?_split (h : exponent? cs = some (a, b)) : a ++ b = cs := by
  unfold exponent? at h
  split at h
  · split at h
    · split at h
      · split at h
        all_goals
          obtain ⟨⟨a', b'⟩, hd, heq⟩ := Option.map_eq_some_iff.1 h
          cases heq
          simp [digits?_split hd]
      · simp at h
    · cases h
      rfl
  · cases h
    rfl

theorem unsigned?_split (h : unsigned? cs = some (a, b)) : a ++ b = cs := by
  simp only [unsigned?, Option.bind_eq_bind, Option.bind_eq_some_iff] at h
  obtain ⟨⟨i, cs₁⟩, hi, ⟨f, cs₂⟩, hf, ⟨e, cs₃⟩, he, heq⟩ := h
  cases heq
  simp [exponent?_split he, fraction?_split hf, integer?_split hi]

theorem number?_split (h : number? cs = some (a, b)) : a ++ b = cs := by
  unfold number? at h
  split at h
  · obtain ⟨⟨a', b'⟩, hu, heq⟩ := Option.map_eq_some_iff.1 h
    cases heq
    simp [unsigned?_split hu]
  · exact unsigned?_split h

theorem head_toDigits {n : Nat} (h : n ≠ 0) : (Nat.toDigits 10 n).head? ≠ some '0' := by
  induction n using Nat.strongRecOn with
  | ind n ih =>
    rw [Nat.toDigits_eq_if (by decide)]
    split
    · next hn =>
      have hsmall : ∀ n < 10, n ≠ 0 → [n.digitChar].head? ≠ some '0' := by decide
      exact hsmall n hn h
    · next hn =>
      rw [List.head?_append, Option.or_of_isSome (by simp)]
      exact ih (n / 10) (by omega) (by omega)

theorem integer?_toDigits (n : Nat) :
    integer? (Nat.toDigits 10 n) = some (Nat.toDigits 10 n, []) := by
  have hdigits : digits? (Nat.toDigits 10 n) = some (Nat.toDigits 10 n, []) := by
    unfold digits?
    rw [List.takeWhile_eq_self_iff.2 isDigit_toDigits, List.dropWhile_eq_nil_iff.2 isDigit_toDigits]
    split
    · next h => exact absurd h Nat.toDigits_ne_nil
    · rfl
  by_cases hn : n = 0
  · subst hn
    rfl
  · have hhead := head_toDigits hn
    cases hds : Nat.toDigits 10 n with
    | nil => exact absurd hds Nat.toDigits_ne_nil
    | cons d ds =>
      rw [hds] at hhead hdigits
      rw [integer?_of_ne (by simpa using hhead), hdigits]

theorem unsigned?_toDigits (n : Nat) :
    unsigned? (Nat.toDigits 10 n) = some (Nat.toDigits 10 n, []) := by
  simp [unsigned?, integer?_toDigits, fraction?, exponent?]

theorem number?_toString (n : Int) :
    number? (toString n).toList = some ((toString n).toList, []) := by
  rcases lt_or_ge n 0 with hn | hn
  · rw [toList_toString_of_neg hn]
    simp [number?, unsigned?_toDigits]
  · rw [toList_toString_of_nonneg hn, number?, unsigned?_toDigits]
    intro ds hds
    have hdigit : '-'.isDigit = true :=
      isDigit_toDigits '-' (hds ▸ List.mem_cons_self : '-' ∈ Nat.toDigits 10 n.natAbs)
    simp at hdigit

/-- A text without blanks that is read as a number to its end is a numeral. -/
theorem number?_of_ofText {literal : String} (hs : ∀ c ∈ cs, isSpace c = false)
    (h : Document.ofText (String.ofList cs) = ⟨.number literal, true⟩) :
    number? cs = some (cs, []) ∧ literal = String.ofList cs := by
  have hskip (ds : List Char) (hd : ∀ c ∈ ds, isSpace c = false) : skipSpace ds = ds := by
    cases ds with
    | nil => rfl
    | cons d ds => exact skipSpace_cons (hd d (by simp)) ds
  simp only [Document.ofText, String.toList_ofList, Document.mk.injEq, Option.any_eq_true,
    List.isEmpty_iff] at h
  obtain ⟨hvalue, rest, hrest, hend⟩ := h
  have hatom : atom cs = (.number literal, some rest) := by
    have hv : value (2 * cs.length + 2) cs = (.number literal, some rest) := Prod.ext hvalue hrest
    rw [value, hskip cs hs] at hv
    split at hv
    · cases hv
    · split at hv <;> cases hv
    · split at hv <;> cases hv
    · split at hv <;> cases hv
    · exact hv
  have hnumber : ∃ a, number? cs = some (a, rest) ∧ literal = String.ofList a := by
    unfold atom at hatom
    split at hatom
    · cases hatom
    · cases hatom
    · cases hatom
    · split at hatom
      · next a b hab =>
        cases hatom
        exact ⟨a, hab, rfl⟩
      · cases hatom
  obtain ⟨a, ha, rfl⟩ := hnumber
  have hsplit := number?_split ha
  rw [hskip rest fun c hc => hs c (by simp [← hsplit, hc])] at hend
  subst hend
  rw [List.append_nil] at hsplit
  subst hsplit
  exact ⟨ha, rfl⟩

end ProtoSchema.Json.Reader
