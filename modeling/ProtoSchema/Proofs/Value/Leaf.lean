import ProtoSchema.Proofs.Base64.RoundTrip
import ProtoSchema.Proofs.Json.Numeral
import ProtoSchema.Proofs.Results
import ProtoSchema.Proofs.Value.Typing

/-! # Values without parts

Every value without parts comes back from its JSON form, which is never taken for an absent value.
-/

namespace ProtoSchema

/-- The values of an enum are told apart by their names. -/
def ValueType.Coherent : ValueType → Prop
  | .enum e => (e.values.map (·.1.name)).Nodup
  | _ => True

instance (t : ValueType) : Decidable t.Coherent :=
  match t with
  | .scalar _ => .isTrue trivial
  | .enum e => inferInstanceAs (Decidable (e.values.map (·.1.name)).Nodup)
  | .message _ => .isTrue trivial

/-- What the JSON form of a value without parts has to be. -/
structure ValueType.Carries (t : ValueType) (j : Json) (v : Value) : Prop where
  hasText : j.HasText
  plain : j.hasParts = false
  read : ∀ inside, t.readLeaf inside j = .ok v
  present : ∀ label, (Slot.mk label t).isAbsence j = false

namespace ValueType

variable {j : Json} {f : Found}

theorem readLeaf_congr {t : ValueType} (hp : j.hasParts = false)
    (inside inside' : Option Interior) : t.readLeaf inside j = t.readLeaf inside' j := by
  simp [readLeaf, hp]

theorem readLeaf_scalar (hp : j.hasParts = false) (hf : j.found = .ok f) (s : Scalar)
    (inside : Option Interior) :
    (scalar s).readLeaf inside j = (s.ofFound f).mapError .misfit := by
  simp [readLeaf, hp, hf, bind, Except.bind]

theorem readLeaf_enum (hp : j.hasParts = false) (hf : j.found = .ok f) (e : EnumPlan)
    (inside : Option Interior) :
    (enum e).readLeaf inside j = ((f.toEnum e).map .enum).mapError .misfit := by
  simp [readLeaf, hp, hf, bind, Except.bind]

theorem Carries.of_found {t : ValueType} {v : Value} (ht : j.HasText)
    (hp : j.hasParts = false) (hn : j.isNull = false) (he : t = .scalar .timestamp → j ≠ .text "")
    (hr : ∀ inside, t.readLeaf inside j = .ok v) : t.Carries j v := by
  refine ⟨ht, hp, hr, fun label => ?_⟩
  simp only [Slot.isAbsence, hn, Bool.and_false, Bool.false_or]
  split
  · refine Bool.eq_false_iff.2 fun hempty => he rfl ?_
    rw [String.isEmpty_iff.1 hempty, Json.text]
  · rfl

end ValueType

namespace ValueType

theorem Carries.text {s : Scalar} {text : String} {v : Value} (he : s = .timestamp → text ≠ "")
    (hv : s.ofFound (.string text) = .ok v) : (scalar s).Carries (.text text) v := by
  refine .of_found rfl rfl rfl ?_ fun inside => ?_
  · intro hs
    cases hs
    simpa [Json.text] using he rfl
  · rw [readLeaf_scalar rfl rfl, hv]
    rfl

theorem carries_bytes (bs : List UInt8) :
    (scalar .bytes).Carries (.text (Base64.encode bs)) (.bytes bs) := by
  refine .text nofun ?_
  simp [Scalar.ofFound, Found.toBytes, Found.toText, Base64.decode_encode, bind, Except.bind,
    Except.mapError, Except.map]

theorem carries_instant {t : Instant} (h : t.InMillis) :
    (scalar .timestamp).Carries (.text t.format) (.instant t) := by
  have hne : t.format ≠ "" := by
    intro hempty
    have hchars : t.formatChars = [] := by
      rw [← String.toList_ofList (l := t.formatChars),
        show String.ofList t.formatChars = "" from hempty]
      rfl
    simp [Instant.formatChars_eq] at hchars
  refine .text (fun _ => hne) ?_
  have hread : Instant.read t.format = .ok t := by
    rw [Instant.read_format h.valid h.year, Instant.truncate_eq_self h.millis]
  simp [Scalar.ofFound, Found.toInstant, Found.toText, hne, hread, bind, Except.bind,
    Except.mapError, Except.map]

end ValueType

theorem Json.found_integer {n : Int} (hmin : IntegerRange.signed64.least ≤ n)
    (hmax : n ≤ IntegerRange.unsigned64.greatest) : (Json.integer n).found = .ok (.integer n) := by
  simp only [IntegerRange.signed64, IntegerRange.unsigned64] at hmin hmax
  rcases lt_or_ge n 0 with hn | hn
  · have hlit := Number.ofLiteral?_toString_of_neg hn (by simp only [Literal.maxNegative]; omega)
    simp only [integer, found, hlit]
    congr 2
    omega
  · have hlit := Number.ofLiteral?_toString_of_nonneg hn (by simp only [Literal.maxUnsigned]; omega)
    simp only [integer, found, hlit]
    congr 2
    omega

namespace ValueType

theorem carries_integer {s : Scalar} {r : IntegerRange} {n : Int} (hs : s.integers? = some r)
    (hn : r.contains n = true) : (scalar s).Carries ((scalar s).leaf (.int n)) (.int n) := by
  have hbounds := hn
  simp only [IntegerRange.contains, Bool.and_eq_true, decide_eq_true_eq] at hbounds
  by_cases hq : s.isQuoted = true
  · rw [show (scalar s).leaf (.int n) = .text (toString n) by simp [leaf, hq]]
    have hread : r.read (toString n) = .ok n := by
      refine IntegerRange.read_toString ?_ hn
      cases s <;> cases hs <;> rfl
    refine .text ?_ ?_
    · rintro rfl
      cases hs
    · cases s <;> cases hs <;> cases hq <;>
        simp only [Scalar.ofFound, Scalar.range64, Found.toInteger64, hread, Except.mapError,
          Except.map]
  · rw [show (scalar s).leaf (.int n) = .integer n by simp [leaf, hq]]
    have hfound : (Json.integer n).found = .ok (.integer n) := by
      refine Json.found_integer ?_ ?_ <;> cases s <;> cases hs <;>
        simp only [IntegerRange.signed32, IntegerRange.unsigned32, IntegerRange.signed64,
          IntegerRange.unsigned64] at hbounds ⊢ <;> omega
    refine .of_found (Json.Reader.number?_toString n) rfl rfl (fun _ h => by cases h)
      fun inside => ?_
    rw [readLeaf_scalar rfl hfound]
    cases s <;> cases hs <;> simp [Scalar.isQuoted, Scalar.jsonForm?] at hq <;>
      simp [Scalar.ofFound, Found.toInteger, hn, Except.mapError, Except.map]

end ValueType

namespace Decimal

open Json.Reader (isSpace)

theorem isSpace_toDigits {c : Char} {n : Nat} (h : c ∈ Nat.toDigits 10 n) : isSpace c = false :=
  Json.Reader.isSpace_of_isDigit (isDigit_toDigits c h)

theorem isSpace_positional (d : Digits) : ∀ c ∈ positional d true, isSpace c = false := by
  intro c hc
  simp only [positional, if_true] at hc
  split_ifs at hc
  · simp only [List.cons_append, List.mem_cons, List.mem_append, List.mem_replicate] at hc
    rcases hc with rfl | rfl | ⟨-, rfl⟩ | hc
    · rfl
    · rfl
    · rfl
    · exact isSpace_toDigits hc
  · simp only [List.mem_append, List.mem_cons, List.mem_replicate, List.not_mem_nil, or_false] at hc
    rcases hc with (hc | ⟨-, rfl⟩) | rfl | rfl
    · exact isSpace_toDigits hc
    · rfl
    · rfl
    · rfl
  · simp only [List.mem_append, List.mem_cons] at hc
    rcases hc with hc | rfl | hc
    · exact isSpace_toDigits (List.mem_of_mem_take hc)
    · rfl
    · exact isSpace_toDigits (List.mem_of_mem_drop hc)

theorem isSpace_scientific (d : Digits) : ∀ c ∈ scientific d, isSpace c = false := by
  intro c hc
  simp only [scientific, List.mem_append, List.mem_cons] at hc
  rcases hc with hc | rfl | rfl | hc
  · have hchars : c = '.' ∨ c ∈ d.chars := by
      split at hc <;> simp_all
      tauto
    rcases hchars with rfl | hc
    · rfl
    · exact isSpace_toDigits hc
  · rfl
  · split <;> rfl
  · exact isSpace_toDigits hc

theorem Layout.isSpace_text? {l : Layout} {x : Binary} {cs : List Char} (h : l.text? x = some cs) :
    ∀ c ∈ cs, isSpace c = false := by
  simp only [text?] at h
  split at h
  · cases h
  · intro c hc
    obtain ⟨d, hd⟩ : ∃ d, c = '-' ∨ c ∈ positional d true ∨ c ∈ scientific d := by
      split_ifs at h <;> cases h
      · exact ⟨_, (List.mem_cons.1 hc).imp_right .inl⟩
      · exact ⟨_, (List.mem_cons.1 hc).imp_right .inr⟩
      · exact ⟨_, .inr (.inl hc)⟩
      · exact ⟨_, .inr (.inr hc)⟩
    rcases hd with rfl | hd | hd
    · rfl
    · exact isSpace_positional d c hd
    · exact isSpace_scientific d c hd

end Decimal

namespace ValueType

theorem exists_number_of_readLeaf {s : Scalar} {inside : Option Interior} {x : Decimal.Binary}
    (h : (scalar s).readLeaf inside j = .ok (.number x)) : ∃ literal, j = .number literal := by
  have hfound : ∃ f, j.found = .ok f ∧ s.ofFound f = .ok (.number x) := by
    unfold readLeaf at h
    split at h
    · cases h
    · cases hf : j.found with
      | error e => simp [hf, bind, Except.bind] at h
      | ok f =>
        refine ⟨f, rfl, ?_⟩
        cases hv : s.ofFound f <;> simp_all [bind, Except.bind, Except.mapError]
  obtain ⟨f, hf, hv⟩ := hfound
  have hbinary : ∃ format expected y, f.toBinary format expected = .ok y := by
    cases s
    case double =>
      refine ⟨.double, .double, x, ?_⟩
      cases hb : f.toBinary .double .double <;> simp_all [Scalar.ofFound, Except.map]
    case float =>
      refine ⟨.single, .single, x, ?_⟩
      cases hb : f.toBinary .single .single <;> simp_all [Scalar.ofFound, Except.map]
    all_goals
      simp only [Scalar.ofFound, Except.map] at hv
      split at hv <;> cases hv
  obtain ⟨format, expected, y, hy⟩ := hbinary
  cases j with
  | number literal => exact ⟨literal, rfl⟩
  | string text =>
    cases text <;> cases hf
    cases hy
  | _ => cases hf <;> cases hy

end ValueType

theorem Catalog.readText_eq_ok {text : String} {one : Json → Except ReadFault Value} {v : Value} :
    readText text one = .ok v ↔
      one (Json.Document.ofText text).value = .ok v ∧
        (Json.Document.ofText text).complete = true := by
  simp only [readText]
  cases hv : one (Json.Document.ofText text).value <;>
    cases hc : (Json.Document.ofText text).complete <;>
    simp [bind, Except.bind, pure, Except.pure]

theorem Catalog.read_scalar (c : Catalog) (room : Nat) (access : Access) (s : Scalar) (j : Json) :
    ∃ inside, c.read room access (.one (.scalar s)) j = (ValueType.scalar s).readLeaf inside j := by
  cases room with
  | zero => exact ⟨none, rfl⟩
  | succ room => exact ⟨some ⟨room, c.read room⟩, rfl⟩

namespace ValueType

theorem carries_number {s : Scalar} {x : Decimal.Binary} (h : x.ReadsBack s) :
    (scalar s).Carries ((scalar s).leaf (.number x)) (.number x) := by
  obtain ⟨hread, hcomplete⟩ := Catalog.readText_eq_ok.1 h
  obtain ⟨inside, hleaf⟩ := Catalog.read_scalar {} Catalog.maxDepth .streamed s
    (Json.Document.ofText (Catalog.encode {} (.scalar s) (.number x))).value
  rw [hleaf] at hread
  obtain ⟨literal, hliteral⟩ := exists_number_of_readLeaf hread
  have hdocument : Json.Document.ofText (Catalog.encode {} (.scalar s) (.number x)) =
      ⟨.number literal, true⟩ := by rw [← hliteral, ← hcomplete]
  rw [hliteral] at hread
  have hwrite : Catalog.encode {} (.scalar s) (.number x) =
      ((scalar s).leaf (.number x)).toText := by
    simp [Catalog.encode, Catalog.write]
  rw [hwrite] at hdocument
  simp only [leaf, Json.binary] at hdocument ⊢
  cases htext : s.layout.text? x with
  | none =>
    rw [htext] at hdocument
    have hnull : Json.null.HasText := by simp [Json.HasText]
    rw [Json.Document.ofText_toText hnull] at hdocument
    cases hdocument
  | some cs =>
    rw [htext] at hdocument
    simp only [Json.toText, Json.render, String.toList_ofList] at hdocument
    obtain ⟨hnumber, rfl⟩ :=
      Json.Reader.number?_of_ofText (Decimal.Layout.isSpace_text? htext) hdocument
    exact .of_found (by simpa [Json.HasText] using hnumber) rfl rfl (fun _ h => by cases h)
      fun inside' => (readLeaf_congr rfl inside' inside).trans hread

end ValueType

theorem EnumPlan.ofName?_of_mem {e : EnumPlan} (h : (e.values.map (·.1.name)).Nodup)
    {v : EnumValue × String} (hv : v ∈ e.values) : e.ofName? v.1.name = some v :=
  find?_of_nodup_map h hv

namespace ValueType

theorem carries_enum {e : EnumPlan} {n : Int} (he : (enum e).Coherent)
    (hn : (e.ofNumber? n).isSome = true) :
    (enum e).Carries ((enum e).leaf (.enum n)) (.enum n) := by
  obtain ⟨value, hvalue⟩ := Option.isSome_iff_exists.1 hn
  have hmem : value ∈ e.values := List.mem_of_find?_eq_some hvalue
  have hnumber : value.1.number = n := by simpa using List.find?_some hvalue
  have hname : e.ofName? value.1.name = some value := EnumPlan.ofName?_of_mem he hmem
  rw [show (enum e).leaf (.enum n) = .text value.1.name by simp [leaf, hvalue]]
  refine .of_found rfl rfl rfl nofun fun inside => ?_
  rw [readLeaf_enum rfl rfl]
  simp [Found.toEnum, hname, hnumber, Except.map, Except.mapError]

theorem Admits.carries {t : ValueType} {v : Value} (h : t.Admits v) (ht : t.Coherent) :
    t.Carries (t.leaf v) v := by
  cases h with
  | integer hs hn => exact carries_integer hs hn
  | number hx => exact carries_number hx
  | bool b => exact .of_found trivial rfl rfl nofun fun _ => rfl
  | text s => exact .text nofun rfl
  | bytes bs => exact carries_bytes bs
  | instant hm => exact carries_instant hm
  | enum hn => exact carries_enum ht hn

theorem Carries.isReadable {t : ValueType} {v : Value} (h : t.Carries j v) (room : Nat) :
    j.isReadable room = true := by
  have hread := h.read none
  cases j with
  | array items closed => cases h.plain
  | object entries closed => cases h.plain
  | number literal =>
    cases hl : Json.Number.ofLiteral? literal with
    | none => simp [readLeaf, Json.hasParts, Json.found, hl, bind, Except.bind] at hread
    | some x => simp [Json.isReadable, hl]
  | string text => exact h.hasText
  | cut => exact absurd h.hasText id
  | bare => exact absurd h.hasText id
  | _ => rfl

end ValueType

end ProtoSchema
