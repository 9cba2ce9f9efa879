import ProtoSchema.Naming
import ProtoSchema.Proofs.Text.Digits

/-! # JSON names

A JSON name has no underscore, so it is its own JSON name. Different names may have the same JSON
name, but a name without capitals in which a small letter follows each underscore can be read back.
-/

namespace ProtoSchema

namespace Text

/-- No member of the run is moved to the given code point. -/
def Shift.misses (n : Nat) (s : Shift) : Bool :=
  (n : Int) < s.run.first + s.offset || (s.run.last : Int) + s.offset < n

theorem Shift.ne_of_misses {n m : Nat} {s : Shift} (h : s.misses n = true) (hn : 0 < n)
    (hm : s.run.contains m = true) : (m + s.offset).toNat ≠ n := by
  simp only [Shift.misses, Stepped.contains, Bool.or_eq_true, Bool.and_eq_true,
    decide_eq_true_eq] at h hm
  omega

theorem ofNat_eq_underscore {n : Nat} (h : Char.ofNat n = '_') : n = '_'.toNat := by
  by_cases hn : n.isValidChar
  · rw [← h, Char.ofNat, dif_pos hn]
    rfl
  · rw [Char.ofNat, dif_neg hn] at h
    exact absurd h (by decide)

theorem underscore_not_mem_upperChar {c : Char} (h : c ≠ '_') : '_' ∉ upperChar c := by
  rw [upperChar]
  split
  · next hascii =>
    have hall : ∀ c : Char, c.toNat < 0x80 → c ≠ '_' → '_' ≠ c.toUpper :=
      forall_ascii (by decide +kernel)
    exact fun hmem => hall c hascii h (List.mem_singleton.1 hmem)
  -- Beyond ASCII the tables decide, and no entry of them leads to an underscore.
  · rw [mapCase]
    split
    · next codes hcodes =>
      have hall : ∀ e ∈ upperExpansions, '_'.toNat ∉ e.2 := by decide +kernel
      intro hmem
      obtain ⟨n, hn, heq⟩ := List.mem_map.1 hmem
      obtain ⟨before, after, hentry, -⟩ := List.lookup_eq_some_iff.1 hcodes
      refine hall (c.toNat, codes) ?_ (ofNat_eq_underscore heq ▸ hn)
      rw [hentry]
      exact List.mem_append_right _ List.mem_cons_self
    split
    · next s hs =>
      have hall : ∀ s ∈ upperShifts, s.misses '_'.toNat = true := by decide +kernel
      intro hmem
      have hcontains : s.run.contains c.toNat = true :=
        List.find?_some (p := fun s : Shift => s.run.contains c.toNat) hs
      exact Shift.ne_of_misses (hall s (List.mem_of_find?_eq_some hs)) (by decide) hcontains
        (ofNat_eq_underscore (List.mem_singleton.1 hmem).symm)
    · exact fun hmem => h (List.mem_singleton.1 hmem).symm

theorem upperChar_of_isLower {c : Char} (h : c.isLower = true) :
    ∃ u : Char, upperChar c = [u] ∧ u.isUpper = true ∧ u.toLower = c := by
  have hascii : c.toNat < 0x80 := by
    delta Char.isLower at h
    simp only [Bool.and_eq_true, decide_eq_true_eq] at h
    exact Nat.lt_of_le_of_lt h.2 (by decide)
  have hall : ∀ c : Char, c.toNat < 0x80 → c.isLower = true →
      c.toUpper.isUpper = true ∧ c.toUpper.toLower = c := forall_ascii (by decide +kernel)
  exact ⟨c.toUpper, by rw [upperChar, if_pos hascii], hall c hascii h⟩

end Text

namespace Naming

open Text

theorem underscore_not_mem_camelFrom (raise : Bool) (cs : List Char) :
    '_' ∉ camelFrom raise cs := by
  fun_induction camelFrom raise cs with
  | case1 => simp
  | case2 _ _ ih => exact ih
  | case3 c cs hc ih =>
    rw [List.mem_append, not_or]
    exact ⟨underscore_not_mem_upperChar hc, ih⟩
  | case4 _ c cs hc _ ih =>
    rw [List.mem_cons, not_or]
    exact ⟨Ne.symm hc, ih⟩

theorem camelFrom_of_not_mem {cs : List Char} (h : '_' ∉ cs) : camelFrom false cs = cs := by
  induction cs with
  | nil => rfl
  | cons c cs ih =>
    obtain ⟨hc, hcs⟩ := not_or.1 (List.mem_cons.not.1 h)
    rw [camelFrom, if_neg (Ne.symm hc), ih hcs]
    rfl

theorem jsonName_jsonName (name : String) : jsonName (jsonName name) = jsonName name := by
  have hnone := underscore_not_mem_camelFrom false name.toList
  rw [jsonName, jsonName, String.toList_ofList, camelFrom_of_not_mem hnone]

/-- No capitals, and a small letter behind each underscore. -/
def isSnake : List Char → Bool
  | [] => true
  | c :: cs => (if c = '_' then cs.head?.any (·.isLower) else !c.isUpper) && isSnake cs

/-- A capital as it stood in the name: an underscore and the small letter. -/
def unraise (c : Char) : List Char := if c.isUpper then ['_', c.toLower] else [c]

theorem flatMap_unraise_camelFrom : ∀ {cs : List Char}, isSnake cs = true →
    (camelFrom false cs).flatMap unraise = cs
  | [], _ => rfl
  | c :: cs, h => by
    rw [isSnake, Bool.and_eq_true] at h
    obtain ⟨hc, hcs⟩ := h
    by_cases hu : c = '_'
    · subst hu
      match cs, hc, hcs with
      | d :: ds, hd, hcs =>
        have hlower : d.isLower = true := by simpa using hd
        have hne : d ≠ '_' := by
          rintro rfl
          exact absurd hlower (by decide)
        rw [isSnake, Bool.and_eq_true] at hcs
        obtain ⟨u, hupper, hcapital, rfl⟩ := upperChar_of_isLower hlower
        rw [camelFrom, if_pos rfl, camelFrom, if_neg hne, if_pos rfl, hupper, List.flatMap_append,
          flatMap_unraise_camelFrom hcs.2]
        simp [unraise, hcapital]
    · have hcapital : c.isUpper = false := by simpa [hu] using hc
      rw [camelFrom, if_neg hu]
      simp [unraise, hcapital, flatMap_unraise_camelFrom hcs]

theorem jsonName_injective {s t : String} (hs : isSnake s.toList = true)
    (ht : isSnake t.toList = true) (h : jsonName s = jsonName t) : s = t := by
  have hchars : camelFrom false s.toList = camelFrom false t.toList := String.ofList_injective h
  rw [← String.toList_inj, ← flatMap_unraise_camelFrom hs, hchars, flatMap_unraise_camelFrom ht]

end Naming

end ProtoSchema
