import ProtoSchema.Proofs.Plan.Places
import ProtoSchema.Proofs.Schema.Checks
import ProtoSchema.Proofs.Value.Leaf

/-! # Tables of an enum

An enum is written with a table from its variants to their names, one from names to variants, and the
same for numbers. A match takes the first arm that fits, so what the tables say of each other rests on
distinct names and numbers. Everything else about names and numbers goes through these tables.
-/

namespace ProtoSchema

theorem lookup_map_pair {α κ β : Type} [BEq κ] [LawfulBEq κ] (f : α → κ) (g : α → β) (k : κ)
    (as : List α) : (as.map fun a => (f a, g a)).lookup k = (as.find? (f · == k)).map g := by
  induction as with
  | nil => rfl
  | cons a as ih =>
    rw [List.map_cons, List.lookup_cons, List.find?_cons, BEq.comm, ih]
    cases f a == k <;> rfl

namespace EnumPlan

variable {p : EnumPlan} {v : EnumValue × String} {x name : String} {n : Int}

def names (p : EnumPlan) : List (String × String) := p.values.map fun v => (v.2, v.1.name)

def byName (p : EnumPlan) : List (String × String) := p.values.map fun v => (v.1.name, v.2)

def numbers (p : EnumPlan) : List (String × Int) := p.values.map fun v => (v.2, v.1.number)

def byNumber (p : EnumPlan) : List (Int × String) := p.values.map fun v => (v.1.number, v.2)

theorem lookup_byName (p : EnumPlan) (name : String) :
    p.byName.lookup name = (p.ofName? name).map (·.2) :=
  lookup_map_pair _ _ _ _

theorem lookup_byNumber (p : EnumPlan) (n : Int) :
    p.byNumber.lookup n = (p.ofNumber? n).map (·.2) :=
  lookup_map_pair _ _ _ _

theorem exists_of_names (h : p.names.lookup x = some name) :
    ∃ v ∈ p.values, v.2 = x ∧ v.1.name = name := by
  rw [names, lookup_map_pair, Option.map_eq_some_iff] at h
  obtain ⟨v, hv, hname⟩ := h
  exact ⟨v, List.mem_of_find?_eq_some hv, by simpa using List.find?_some hv, hname⟩

theorem exists_of_numbers (h : p.numbers.lookup x = some n) :
    ∃ v ∈ p.values, v.2 = x ∧ v.1.number = n := by
  rw [numbers, lookup_map_pair, Option.map_eq_some_iff] at h
  obtain ⟨v, hv, hnumber⟩ := h
  exact ⟨v, List.mem_of_find?_eq_some hv, by simpa using List.find?_some hv, hnumber⟩

theorem values_ofEnum (fullName : String) (e : Enum) :
    (ofEnum fullName e).values.map (·.1) = e.values := by
  have hlength : (variants e).length = e.values.length := by
    simp only [variants]
    split
    · exact List.length_map _
    · exact List.length_map _
  exact List.map_fst_zip hlength.ge

/-- What distinct names and numbers make of the tables. -/
structure TablesInverse (e : Enum) (p : EnumPlan) : Prop where
  values : p.values.map (·.1) = e.values
  fromName : ∀ v ∈ p.values, p.ofName? v.1.name = some v ∧ p.byName.lookup v.1.name = some v.2
  fromNumber : ∀ v ∈ p.values,
    p.ofNumber? v.1.number = some v ∧ p.byNumber.lookup v.1.number = some v.2
  fromName_name : ∀ x name, p.names.lookup x = some name → p.byName.lookup name = some x
  fromNumber_number : ∀ x n, p.numbers.lookup x = some n → p.byNumber.lookup n = some x
  name_fromName : (p.values.map (·.2)).Nodup →
    ∀ name x, p.byName.lookup name = some x → p.names.lookup x = some name
  number_fromNumber : (p.values.map (·.2)).Nodup →
    ∀ n x, p.byNumber.lookup n = some x → p.numbers.lookup x = some n
  undeclaredName : ∀ name, p.byName.lookup name = none ↔ ∀ v ∈ e.values, v.name ≠ name
  undeclaredNumber : ∀ n, p.byNumber.lookup n = none ↔ ∀ v ∈ e.values, v.number ≠ n
  tryFrom : ∀ v ∈ p.values, p.tryOfNumber v.1.number = .ok v
  tryFrom_undeclared : ∀ n, p.tryOfNumber n = .error n ↔ ∀ v ∈ e.values, v.number ≠ n

theorem ofName?_eq_none_iff {e : Enum} (hvalues : p.values.map (·.1) = e.values) :
    p.ofName? name = none ↔ ∀ v ∈ e.values, v.name ≠ name := by
  rw [← hvalues, List.forall_mem_map, ofName?, List.find?_eq_none]
  simp

theorem ofNumber?_eq_none_iff {e : Enum} (hvalues : p.values.map (·.1) = e.values) :
    p.ofNumber? n = none ↔ ∀ v ∈ e.values, v.number ≠ n := by
  rw [← hvalues, List.forall_mem_map, ofNumber?, List.find?_eq_none]
  simp

section

variable {e : Enum} (h : e.WellFormed) (hvalues : p.values.map (·.1) = e.values)

include h hvalues

theorem ofName?_name (hv : v ∈ p.values) : p.ofName? v.1.name = some v := by
  have hnames := h.names
  rw [← hvalues, List.map_map] at hnames
  exact ofName?_of_mem hnames hv

theorem ofNumber?_number (hv : v ∈ p.values) : p.ofNumber? v.1.number = some v := by
  have hnumbers := h.numbers
  rw [← hvalues, List.map_map] at hnumbers
  exact find?_of_nodup_map hnumbers hv

theorem lookup_byName_name (hv : v ∈ p.values) : p.byName.lookup v.1.name = some v.2 := by
  rw [lookup_byName, ofName?_name h hvalues hv]
  rfl

theorem lookup_byNumber_number (hv : v ∈ p.values) : p.byNumber.lookup v.1.number = some v.2 := by
  rw [lookup_byNumber, ofNumber?_number h hvalues hv]
  rfl

theorem tablesInverse : p.TablesInverse e where
  values := hvalues
  fromName v hv := ⟨ofName?_name h hvalues hv, lookup_byName_name h hvalues hv⟩
  fromNumber v hv := ⟨ofNumber?_number h hvalues hv, lookup_byNumber_number h hvalues hv⟩
  fromName_name x name hx := by
    obtain ⟨v, hv, rfl, rfl⟩ := exists_of_names hx
    exact lookup_byName_name h hvalues hv
  fromNumber_number x n hx := by
    obtain ⟨v, hv, rfl, rfl⟩ := exists_of_numbers hx
    exact lookup_byNumber_number h hvalues hv
  name_fromName hvariants name x hx := by
    rw [lookup_byName, Option.map_eq_some_iff] at hx
    obtain ⟨v, hv, rfl⟩ := hx
    have hname : v.1.name = name := by simpa using List.find?_some hv
    rw [names, lookup_map_pair, find?_of_nodup_map hvariants (List.mem_of_find?_eq_some hv),
      Option.map_some, hname]
  number_fromNumber hvariants n x hx := by
    rw [lookup_byNumber, Option.map_eq_some_iff] at hx
    obtain ⟨v, hv, rfl⟩ := hx
    have hnumber : v.1.number = n := by simpa using List.find?_some hv
    rw [numbers, lookup_map_pair, find?_of_nodup_map hvariants (List.mem_of_find?_eq_some hv),
      Option.map_some, hnumber]
  undeclaredName name := by
    rw [lookup_byName, Option.map_eq_none_iff, ofName?_eq_none_iff hvalues]
  undeclaredNumber n := by
    rw [lookup_byNumber, Option.map_eq_none_iff, ofNumber?_eq_none_iff hvalues]
  tryFrom v hv := by
    rw [tryOfNumber, ofNumber?_number h hvalues hv]
    rfl
  tryFrom_undeclared n := by
    rw [← ofNumber?_eq_none_iff hvalues, tryOfNumber]
    cases p.ofNumber? n <;> simp

end

/-- One value is the default, and it is the only one that is written as such. -/
structure OneDefault (p : EnumPlan) : Prop where
  default : ∃ v ∈ p.values, v.1.number = 0 ∧ p.default? = some v ∧
    ∀ w ∈ p.values, w.1.number = 0 → w = v
  marked : ∀ v ∈ p.values, Source.line "#[default]" ∈ Source.enumVariant v ↔ v.1.number = 0
  once : (p.values.flatMap Source.enumVariant).count (Source.line "#[default]") = 1

/-- The line of a variant ends in a comma, so it is no attribute. -/
theorem variant_ne_default (v : EnumValue × String) :
    Source.line "#[default]" ≠ Source.line s!"{v.2} = {v.1.number}," := by
  intro h
  have hcomma : (s!"{v.2} = {v.1.number},").toList.getLast? = some ',' := by
    rw [String.toList_append, List.getLast?_append]
    rfl
  have htext : "#[default]" = s!"{v.2} = {v.1.number}," := congrArg Line.text h
  rw [← htext] at hcomma
  exact absurd hcomma (by decide)

theorem count_enumVariant (v : EnumValue × String) :
    (Source.enumVariant v).count (Source.line "#[default]") = if v.1.number = 0 then 1 else 0 := by
  have hdeprecated : Source.line "#[default]" ∉
      if v.1.deprecated then [Source.line "#[deprecated]"] else [] := by
    split <;> decide
  have hvariant : Source.line "#[default]" ∉ [Source.line s!"{v.2} = {v.1.number},"] := by
    rw [List.mem_singleton]
    exact variant_ne_default v
  rw [Source.enumVariant, List.count_append, List.count_append, List.count_eq_zero.2 hdeprecated,
    List.count_eq_zero.2 hvariant]
  split <;> rfl

theorem oneDefault {e : Enum} (h : e.WellFormed) (hvalues : p.values.map (·.1) = e.values) :
    p.OneDefault where
  default := by
    have hzero := h.zero
    rw [← hvalues, List.countP_map] at hzero
    obtain ⟨v, hv, hnumber⟩ := List.countP_pos_iff.1 (hzero ▸ Nat.one_pos)
    have hnumber : v.1.number = 0 := by simpa using hnumber
    have hdefault : p.default? = some v := by
      rw [default?, ← hnumber]
      exact ofNumber?_number h hvalues hv
    refine ⟨v, hv, hnumber, hdefault, fun w hw hwzero => ?_⟩
    have hsame := ofNumber?_number h hvalues hw
    rw [hwzero] at hsame
    exact Option.some.inj (hsame.symm.trans hdefault)
  marked v _ := by
    rw [← List.count_pos_iff, count_enumVariant]
    split <;> simp_all
  once := by
    have hcount (vs : List (EnumValue × String)) :
        (vs.flatMap Source.enumVariant).count (Source.line "#[default]") =
          vs.countP (·.1.number = 0) := by
      induction vs with
      | nil => rfl
      | cons v vs ih =>
        rw [List.flatMap_cons, List.count_append, count_enumVariant, ih, List.countP_cons, add_comm]
        simp
    have hzero := h.zero
    rw [← hvalues, List.countP_map] at hzero
    rw [hcount]
    exact hzero

end EnumPlan

namespace Source

/-- A block that is written for an enum holds functions with the given heads and code. -/
def HasFunctions (p : EnumPlan) (block : String) (functions : List (String × List Line)) : Prop :=
  ∃ body, Stands (braces block body) [] (enum p) ∧
    ∀ f ∈ functions, Stands (braces f.1 f.2) [] body

def someVariant (p : EnumPlan) (variant : String) : String :=
  s!"::core::option::Option::Some({p.ident}::{variant})"

/-- The tables of an enum are written with one line for each arm, and all other functions on names and
numbers ask them. -/
structure EmitsTables (p : EnumPlan) : Prop where
  numbers : Stands (braces s!"pub enum {p.ident}" (p.values.flatMap enumVariant)) [] (enum p)
  names : HasFunctions p s!"impl {p.ident}"
    [("pub fn as_str_name(&self) -> &'static str", braces "match self"
        (p.names.map fun a => line s!"{p.ident}::{a.1} => \"{a.2}\",")),
      ("pub fn from_str_name(name: &str) -> ::core::option::Option<Self>", braces "match name"
        ((p.byName.map fun a => line s!"\"{a.1}\" => {someVariant p a.2},")
          ++ [line "_ => ::core::option::Option::None,"]))]
  values : HasFunctions p s!"impl ::brine_proto::ProtoEnum for {p.ident}"
    [("fn number(&self) -> i32", [line "*self as i32"]),
      ("fn from_number(number: i32) -> ::core::option::Option<Self>", braces "match number"
        ((p.byNumber.map fun a => line s!"{a.1} => {someVariant p a.2},")
          ++ [line "_ => ::core::option::Option::None,"])),
      ("fn name(&self) -> &'static str", [line "self.as_str_name()"]),
      ("fn from_name(name: &str) -> ::core::option::Option<Self>",
        [line "Self::from_str_name(name)"])]
  into : HasFunctions p s!"impl ::core::convert::From<{p.ident}> for i32"
    [(s!"fn from(value: {p.ident}) -> i32", [line "value as i32"])]
  tryFrom : HasFunctions p s!"impl ::core::convert::TryFrom<i32> for {p.ident}"
    [("fn try_from(number: i32) -> ::core::result::Result<Self, Self::Error>",
      [line ("<Self as ::brine_proto::ProtoEnum>::from_number(number)"
        ++ ".ok_or(::brine_proto::UnknownEnumValue(number))")])]

theorem HasFunctions.intro {p : EnumPlan} {block : String} {functions : List (String × List Line)}
    {body : List Line} (hblock : Stands (braces block body) [] (enum p))
    (hfunctions : ∀ f ∈ functions, Stands (braces f.1 f.2) [] body) :
    HasFunctions p block functions := ⟨body, hblock, hfunctions⟩

theorem stands_last (before item : List Line) : Stands item [] (before ++ item) :=
  (stands_self item).append_left before

theorem emitsTables (p : EnumPlan) : EmitsTables p where
  numbers := stands_enum p
  names := by
    apply HasFunctions.intro
    · unfold enum
      iterate 11 apply Stands.append_right
      exact stands_last _ _
    · rw [List.forall_mem_cons, List.forall_mem_singleton, EnumPlan.names, EnumPlan.byName,
        List.map_map, List.map_map]
      constructor
      · iterate 2 apply Stands.append_right
        exact stands_last _ _
      · exact stands_last _ _
  values := by
    apply HasFunctions.intro
    · unfold enum
      iterate 9 apply Stands.append_right
      exact stands_last _ _
    · rw [List.forall_mem_cons, List.forall_mem_cons, List.forall_mem_cons,
        List.forall_mem_singleton, EnumPlan.byNumber, List.map_map]
      refine ⟨?_, ?_, ?_, stands_last _ _⟩
      · iterate 6 apply Stands.append_right
        exact stands_self _
      · iterate 4 apply Stands.append_right
        exact stands_last _ _
      · iterate 2 apply Stands.append_right
        exact stands_last _ _
  into := by
    apply HasFunctions.intro
    · unfold enum
      iterate 7 apply Stands.append_right
      exact stands_last _ _
    · rw [List.forall_mem_singleton]
      exact stands_self _
  tryFrom := by
    apply HasFunctions.intro
    · unfold enum
      iterate 5 apply Stands.append_right
      exact stands_last _ _
    · rw [List.forall_mem_singleton]
      exact stands_last _ _

end Source

end ProtoSchema
