import ProtoSchema.Proofs.Plan.EnumTables

/-! # Enums in JSON

A value of an enum is written as its name and read from its name or its number. An integer that does
not fit 64 bits is no integer for the reader any more, so no declared number is taken for it.
-/

namespace ProtoSchema

namespace Json

/-- A text of a value, with whatever blanks and escapes. -/
def Spelled (j : Json) (text : String) : Prop := Document.ofText text = ⟨j, true⟩

theorem HasText.spelled {j : Json} (h : j.HasText) : j.Spelled j.toText := Document.ofText_toText h

theorem hasText_integer (n : Int) : (integer n).HasText := Reader.number?_toString n

/-- The text of an integer is found as that integer, or not as an integer. -/
theorem found_integer_cases (n : Int) :
    (integer n).found = .ok (.integer n) ∨ (∃ x, (integer n).found = .ok (.double x)) ∨
      (integer n).found = .error .malformed := by
  have hvalue : Nat.ofDigitChars 10 (Nat.toDigits 10 n.natAbs) 0 = n.natAbs :=
    Nat.ofDigitChars_ten_toDigits
  simp only [integer, found, Number.ofLiteral?, Literal.ofChars_toString, Literal.number?]
  cases hacc : Literal.accumulate 0 (Nat.toDigits 10 n.natAbs) with
  | mk k skipped =>
    cases skipped with
    | zero =>
      obtain rfl := (Literal.eq_of_accumulate hacc).trans hvalue
      split_ifs with hpos
      · have habs : (n.natAbs : Int) = n := by
          simp only [Bool.not_eq_true', decide_eq_false_iff_not] at hpos
          omega
        exact .inl (congrArg (Except.ok ∘ Found.integer) habs)
      · by_cases hfits : 0 < n.natAbs ∧ n.natAbs ≤ Literal.maxNegative
        · have habs : -(n.natAbs : Int) = n := by
            simp only [Bool.not_eq_true', decide_eq_false_iff_not] at hpos
            omega
          simp only [if_pos hfits]
          exact .inl (congrArg (Except.ok ∘ Found.integer) habs)
        · simp only [if_neg hfits]
          exact .inr (.inl ⟨_, rfl⟩)
    | succ skipped =>
      cases Literal.double? ⟨n < 0, Nat.toDigits 10 n.natAbs, none, none⟩ with
      | none => exact .inr (.inr rfl)
      | some x => exact .inr (.inl ⟨x, rfl⟩)

end Json

namespace Catalog

variable {c : Catalog} {p : EnumPlan} {j : Json} {text : String}

theorem decode_enum (hj : j.Spelled text) (hp : j.hasParts = false) {f : Found}
    (hf : j.found = .ok f) :
    c.decode (.enum p) text = ((f.toEnum p).map .enum).mapError .misfit := by
  have hread : c.read maxDepth .streamed (.one (.enum p)) j =
      ((f.toEnum p).map .enum).mapError .misfit :=
    ValueType.readLeaf_enum hp hf p _
  rw [decode, readText, hj, hread]
  cases (f.toEnum p) <;> rfl

theorem decode_enum_of_error (hj : j.Spelled text) (hp : j.hasParts = false) {fault : ReadFault}
    (hf : j.found = .error fault) : c.decode (.enum p) text = .error fault := by
  have hread (inside : Option Interior) : (ValueType.enum p).readLeaf inside j = .error fault := by
    simp [ValueType.readLeaf, hp, hf, bind, Except.bind]
  have hread : c.read maxDepth .streamed (.one (.enum p)) j = .error fault := hread _
  rw [decode, readText, hj, hread]
  rfl

end Catalog

namespace EnumPlan

variable {e : Enum} {p : EnumPlan} {c : Catalog}

/-- The value of an enum is read from its name and from its number, and written as its name. Nothing
else is read but null, as the default. -/
structure JsonInverse (c : Catalog) (e : Enum) (p : EnumPlan) : Prop where
  name : ∀ v ∈ e.values, ∀ text, (Json.text v.name).Spelled text →
    c.decode (.enum p) text = .ok (.enum v.number)
  number : ∀ v ∈ e.values, ∀ text, (Json.integer v.number).Spelled text →
    c.decode (.enum p) text = .ok (.enum v.number)
  null : ∀ text, Json.null.Spelled text → c.decode (.enum p) text = .ok (.enum 0)
  undeclaredName : ∀ name, (∀ v ∈ e.values, v.name ≠ name) → ∀ text,
    (Json.text name).Spelled text → ∃ fault, c.decode (.enum p) text = .error fault
  undeclaredNumber : ∀ n, (∀ v ∈ e.values, v.number ≠ n) ∨ IntegerRange.signed32.contains n = false →
    ∀ text, (Json.integer n).Spelled text → ∃ fault, c.decode (.enum p) text = .error fault
  written : ∀ v ∈ e.values, c.encode (.enum p) (.enum v.number) = (Json.text v.name).toText
  readBack : ∀ v ∈ e.values,
    c.decode (.enum p) (c.encode (.enum p) (.enum v.number)) = .ok (.enum v.number)

section

variable (h : e.WellFormed) (hvalues : p.values.map (·.1) = e.values)

include h hvalues

theorem decode_name {v : EnumValue} (hv : v ∈ e.values) {text : String}
    (htext : (Json.text v.name).Spelled text) :
    c.decode (.enum p) text = .ok (.enum v.number) := by
  rw [← hvalues] at hv
  obtain ⟨w, hw, rfl⟩ := List.mem_map.1 hv
  rw [Catalog.decode_enum htext rfl rfl]
  simp [Found.toEnum, ofName?_name h hvalues hw, Except.map, Except.mapError]

theorem decode_number {v : EnumValue} (hv : v ∈ e.values)
    (hrange : IntegerRange.signed32.contains v.number = true) {text : String}
    (htext : (Json.integer v.number).Spelled text) :
    c.decode (.enum p) text = .ok (.enum v.number) := by
  have hfound : (Json.integer v.number).found = .ok (.integer v.number) := by
    simp only [IntegerRange.contains, Bool.and_eq_true, decide_eq_true_eq] at hrange
    apply Json.found_integer
    · exact (show IntegerRange.signed64.least ≤ IntegerRange.signed32.least by decide).trans hrange.1
    · exact hrange.2.trans (by decide)
  rw [← hvalues] at hv
  obtain ⟨w, hw, rfl⟩ := List.mem_map.1 hv
  rw [Catalog.decode_enum htext rfl hfound]
  simp [Found.toEnum, Option.guard, hrange, ofNumber?_number h hvalues hw, Except.map,
    Except.mapError]

theorem encode_value {v : EnumValue} (hv : v ∈ e.values) :
    c.encode (.enum p) (.enum v.number) = (Json.text v.name).toText := by
  rw [← hvalues] at hv
  obtain ⟨w, hw, rfl⟩ := List.mem_map.1 hv
  simp [Catalog.encode, Catalog.write, ValueType.leaf, ofNumber?_number h hvalues hw]

omit h

theorem toEnum_integer_of_undeclared {n : Int}
    (hn : (∀ v ∈ e.values, v.number ≠ n) ∨ IntegerRange.signed32.contains n = false) :
    (Found.integer n).toEnum p = .error (.enumNumber n) := by
  have hnone : (Option.guard IntegerRange.signed32.contains n).bind p.ofNumber? = none := by
    rcases hn with hn | hn
    · rw [Option.bind_eq_none_iff]
      intro m hm
      obtain ⟨rfl, -⟩ := Option.guard_eq_some_iff.1 hm
      exact (ofNumber?_eq_none_iff hvalues).2 hn
    · simp [Option.guard, hn]
  simp [Found.toEnum, hnone]

theorem exists_decode_number_error {n : Int}
    (hn : (∀ v ∈ e.values, v.number ≠ n) ∨ IntegerRange.signed32.contains n = false)
    {text : String} (htext : (Json.integer n).Spelled text) :
    ∃ fault, c.decode (.enum p) text = .error fault := by
  rcases Json.found_integer_cases n with hf | ⟨x, hf⟩ | hf
  · rw [Catalog.decode_enum htext rfl hf, toEnum_integer_of_undeclared hvalues hn]
    exact ⟨_, rfl⟩
  · rw [Catalog.decode_enum htext rfl hf]
    simp [Found.toEnum, Found.wrong, Except.map, Except.mapError]
  · exact ⟨_, Catalog.decode_enum_of_error htext rfl hf⟩

end

theorem jsonInverse (c : Catalog) (h : e.WellFormed) (hvalues : p.values.map (·.1) = e.values)
    (hrange : ∀ v ∈ e.values, IntegerRange.signed32.contains v.number = true) :
    p.JsonInverse c e where
  name v hv text htext := decode_name h hvalues hv htext
  number v hv text htext := decode_number h hvalues hv (hrange v hv) htext
  null text htext := Catalog.decode_enum htext rfl rfl
  undeclaredName name hname text htext := by
    rw [Catalog.decode_enum htext rfl rfl]
    simp [Found.toEnum, (ofName?_eq_none_iff hvalues).2 hname, Except.map, Except.mapError]
  undeclaredNumber n hn text htext := exists_decode_number_error hvalues hn htext
  written v hv := encode_value h hvalues hv
  readBack v hv := by
    rw [encode_value h hvalues hv]
    exact decode_name h hvalues hv (Json.HasText.spelled rfl)

/-- The tables that are written for an accepted enum are inverse to each other, one value is the
default, and its JSON form is read and written as the tables say. Its numbers have 32 bits, as the
grammar has it. -/
theorem tables_of_check {path : String} (h : e.check path = .ok ())
    (hrange : ∀ v ∈ e.values, IntegerRange.signed32.contains v.number = true) (fullName : String)
    (c : Catalog) :
    Source.EmitsTables (ofEnum fullName e) ∧ (ofEnum fullName e).TablesInverse e ∧
      (ofEnum fullName e).OneDefault ∧ (ofEnum fullName e).JsonInverse c e := by
  have hwell := Enum.check_eq_ok.1 h
  have hvalues := values_ofEnum fullName e
  refine ⟨Source.emitsTables _, ?_, ?_, ?_⟩
  · exact tablesInverse hwell hvalues
  · exact oneDefault hwell hvalues
  · exact jsonInverse c hwell hvalues hrange

/-- An enum with the least and the greatest number there is, and not the zero in front. -/
def level : Enum where
  name := "Level"
  position := ⟨1, 1⟩
  values := [⟨"LEVEL_LOWEST", -2147483648, false⟩, ⟨"LEVEL_MIDDLE", 0, false⟩,
    ⟨"LEVEL_HIGHEST", 2147483647, true⟩]

/-- The least number is read as the value that has it, and one more than the greatest is refused. -/
theorem tables_of_check_level :
    level.check "Level" = .ok () ∧
      (∀ v ∈ level.values, IntegerRange.signed32.contains v.number = true) ∧
      (ofEnum "Level" level).TablesInverse level ∧
      Catalog.decode {} (.enum (ofEnum "Level" level)) (Json.integer (-2147483648)).toText =
        .ok (.enum (-2147483648)) ∧
      ∃ fault, Catalog.decode {} (.enum (ofEnum "Level" level)) (Json.integer 2147483648).toText =
        .error fault := by
  have hcheck : level.check "Level" = .ok () := by decide
  have hrange : ∀ v ∈ level.values, IntegerRange.signed32.contains v.number = true := by decide
  obtain ⟨-, htables, -, hjson⟩ := tables_of_check hcheck hrange "Level" {}
  refine ⟨hcheck, hrange, htables, ?_, ?_⟩
  · exact hjson.number ⟨"LEVEL_LOWEST", -2147483648, false⟩ (by decide) _
      (Json.hasText_integer _).spelled
  · exact hjson.undeclaredNumber 2147483648 (.inr (by decide)) _ (Json.hasText_integer _).spelled

end EnumPlan

end ProtoSchema
