import Mathlib.Data.List.Forall2
import ProtoSchema.Proofs.Instant.RoundTrip
import ProtoSchema.Value.Writer

/-! # Values of a type

The values that a type of a catalog has and that JSON carries without loss: instants are in whole
milliseconds of a year with four digits, and binary numbers come back from their own text. Two
values agree if they are equal up to the sign of zeros.
-/

namespace ProtoSchema

def Scalar.integers? : Scalar → Option IntegerRange
  | .int32 | .sint32 | .sfixed32 => some .signed32
  | .uint32 | .fixed32 => some .unsigned32
  | .int64 | .sint64 | .sfixed64 => some .signed64
  | .uint64 | .fixed64 => some .unsigned64
  | _ => none

/-- A number comes back from its own text, so it is finite. -/
def Decimal.Binary.ReadsBack (s : Scalar) (x : Decimal.Binary) : Prop :=
  Catalog.decode {} (.scalar s) (Catalog.encode {} (.scalar s) (.number x)) = .ok (.number x)

/-- An instant in whole milliseconds of a year with four digits. -/
structure Instant.InMillis (t : Instant) : Prop where
  valid : t.isValid = true
  millis : t.nanos % 1000000 = 0
  year : 0 ≤ t.year ∧ t.year ≤ 9999

inductive ValueType.Admits : ValueType → Value → Prop
  | integer {s : Scalar} {r : IntegerRange} {n : Int} (hs : s.integers? = some r)
      (hn : r.contains n = true) : Admits (.scalar s) (.int n)
  | number {s : Scalar} {x : Decimal.Binary} (hx : x.ReadsBack s) : Admits (.scalar s) (.number x)
  | bool (b : Bool) : Admits (.scalar .bool) (.bool b)
  | text (s : String) : Admits (.scalar .string) (.text s)
  | bytes (bs : List UInt8) : Admits (.scalar .bytes) (.bytes bs)
  | instant {t : Instant} (ht : t.InMillis) : Admits (.scalar .timestamp) (.instant t)
  | enum {e : EnumPlan} {n : Int} (hn : (e.ofNumber? n).isSome = true) : Admits (.enum e) (.enum n)

namespace Catalog

mutual

inductive HasType (c : Catalog) : ValueType → Value → Prop
  | leaf {t : ValueType} {v : Value} (h : t.Admits v) : HasType c t v
  | record {name : String} {m : MessageType} {vs ps : List Value} (hm : c.message? name = some m)
      (hf : List.Forall₂ (fun f v => HasSlot c f.slot v) m.fields vs)
      (hp : List.Forall₂ (HasPick c) m.oneofs ps) : HasType c (.message name) (.record vs ps)

inductive HasSlot (c : Catalog) : Slot → Value → Prop
  | absent {s : Slot} (h : s.isNullable = true) : HasSlot c s .absent
  | list {s : Slot} {vs : List Value} (hl : s.label = .repeated)
      (h : ∀ v ∈ vs, HasType c s.type v) : HasSlot c s (.list vs)
  | one {s : Slot} {v : Value} (hl : s.label ≠ .repeated) (h : HasType c s.type v) : HasSlot c s v

inductive HasPick (c : Catalog) : OneofType → Value → Prop
  | absent {o : OneofType} : HasPick c o .absent
  | member {o : OneofType} {f : FieldType} {name : String} {v : Value} (hn : o.named? name = some f)
      (h : HasType c f.slot.type v) : HasPick c o (.member name v)

end

end Catalog

namespace Value

mutual

/-- No number inside a value is a negative zero. -/
def NoNegativeZero : Value → Prop
  | number x => x.magnitude.isZero = true → x.negative = false
  | list vs => AllNoNegativeZero vs
  | member _ v => NoNegativeZero v
  | record vs ps => AllNoNegativeZero vs ∧ AllNoNegativeZero ps
  | _ => True

def AllNoNegativeZero : List Value → Prop
  | [] => True
  | v :: vs => NoNegativeZero v ∧ AllNoNegativeZero vs

end

mutual

theorem same_refl : (v : Value) → v.same v = true
  | number x => by simp [same, Decimal.Binary.same]
  | int _ | bool _ | text _ | bytes _ | instant _ | enum _ => by simp [same]
  | absent => rfl
  | list vs => sameAll_refl vs
  | member _ v => by simp [same, same_refl v]
  | record vs ps => by simp [same, sameAll_refl vs, sameAll_refl ps]

theorem sameAll_refl : (vs : List Value) → sameAll vs vs = true
  | [] => rfl
  | v :: vs => by simp [sameAll, same_refl v, sameAll_refl vs]

end

end Value

namespace Decimal.Binary

theorem same_comm (x y : Binary) : x.same y = y.same x := by
  by_cases h : x.magnitude = y.magnitude
  · simp [same, h, eq_comm]
  · simp [same, h, Ne.symm h]

theorem eq_of_same {x y : Binary} (h : x.same y = true)
    (hx : x.magnitude.isZero = true → x.negative = false)
    (hy : y.magnitude.isZero = true → y.negative = false) : x = y := by
  simp only [same, Bool.and_eq_true, Bool.or_eq_true, decide_eq_true_eq] at h
  obtain ⟨hm, hn⟩ := h
  have hneg : x.negative = y.negative := by
    rcases hn with hn | hz
    · exact hn
    · rw [hx hz, hy (hm ▸ hz)]
  cases x
  cases y
  simp_all

end Decimal.Binary

namespace Value

mutual

theorem same_comm : (v w : Value) → v.same w = w.same v
  | number x, w => by cases w <;> simp [same, x.same_comm]
  | int _, w | bool _, w | text _, w | bytes _, w | instant _, w | enum _, w | absent, w => by
    cases w <;> simp [same, eq_comm]
  | list vs, w => by
    cases w <;> simp [same]
    exact sameAll_comm vs _
  | member m v, w => by
    cases w <;> simp [same]
    rw [same_comm v, decide_eq_decide.2 eq_comm]
  | record vs ps, w => by
    cases w <;> simp [same]
    rw [sameAll_comm vs, sameAll_comm ps]

theorem sameAll_comm : (vs ws : List Value) → sameAll vs ws = sameAll ws vs
  | [], ws => by cases ws <;> rfl
  | v :: vs, [] => rfl
  | v :: vs, w :: ws => by rw [sameAll, sameAll, same_comm v w, sameAll_comm vs ws]

end

mutual

theorem eq_of_same : (v w : Value) → v.same w = true → v.NoNegativeZero → w.NoNegativeZero → v = w
  | number x, w, h, hv, hw => by
    cases w <;> simp [same] at h
    rw [Decimal.Binary.eq_of_same h hv hw]
  | int _, w, h, _, _ | bool _, w, h, _, _ | text _, w, h, _, _ | bytes _, w, h, _, _
  | instant _, w, h, _, _ | enum _, w, h, _, _ | absent, w, h, _, _ => by
    cases w <;> simp_all [same]
  | list vs, w, h, hv, hw => by
    cases w <;> simp [same] at h
    rw [eq_of_sameAll vs _ h hv hw]
  | member m v, w, h, hv, hw => by
    cases w <;> simp [same] at h
    rw [h.1, eq_of_same v _ h.2 hv hw]
  | record vs ps, w, h, hv, hw => by
    cases w <;> simp [same] at h
    rw [eq_of_sameAll vs _ h.1 hv.1 hw.1, eq_of_sameAll ps _ h.2 hv.2 hw.2]

theorem eq_of_sameAll : (vs ws : List Value) → sameAll vs ws = true → AllNoNegativeZero vs →
    AllNoNegativeZero ws → vs = ws
  | [], ws, h, _, _ => by cases ws <;> simp [sameAll] at h ⊢
  | v :: vs, [], h, _, _ => by simp [sameAll] at h
  | v :: vs, w :: ws, h, hv, hw => by
    simp only [sameAll, Bool.and_eq_true] at h
    rw [eq_of_same v w h.1 hv.1 hw.1, eq_of_sameAll vs ws h.2 hv.2 hw.2]

end

/-- The first value is the second up to the signs of its zeros. -/
structure Agrees (w v : Value) : Prop where
  same : w.same v = true
  eq : v.NoNegativeZero → w = v

theorem Agrees.refl (v : Value) : v.Agrees v := ⟨v.same_refl, fun _ => rfl⟩

theorem Agrees.of_same {v w : Value} (h : v.same w = true) (hw : w.NoNegativeZero) : w.Agrees v :=
  ⟨by rw [same_comm, h], fun hv => (eq_of_same v w h hv hw).symm⟩

theorem Agrees.member {v w : Value} (name : String) (h : w.Agrees v) :
    (Value.member name w).Agrees (.member name v) :=
  ⟨by simp [Value.same, h.same], fun hv => by rw [h.eq hv]⟩

theorem sameAll_of_agrees {vs ws : List Value} (h : List.Forall₂ Agrees ws vs) :
    sameAll ws vs = true := by
  induction h with
  | nil => rfl
  | cons h _ ih => simp [sameAll, h.same, ih]

theorem eq_of_agrees {vs ws : List Value} (h : List.Forall₂ Agrees ws vs)
    (hv : AllNoNegativeZero vs) : ws = vs := by
  induction h with
  | nil => rfl
  | cons h _ ih => rw [h.eq hv.1, ih hv.2]

theorem Agrees.list {vs ws : List Value} (h : List.Forall₂ Agrees ws vs) :
    (Value.list ws).Agrees (.list vs) :=
  ⟨sameAll_of_agrees h, fun hv => by rw [eq_of_agrees h hv]⟩

theorem Agrees.record {vs ws ps qs : List Value} (h : List.Forall₂ Agrees ws vs)
    (hp : List.Forall₂ Agrees qs ps) : (Value.record ws qs).Agrees (.record vs ps) :=
  ⟨by simp [Value.same, sameAll_of_agrees h, sameAll_of_agrees hp],
    fun hv => by rw [eq_of_agrees h hv.1, eq_of_agrees hp hv.2]⟩

end Value

theorem Slot.noNegativeZero_default (s : Slot) : s.default.NoNegativeZero := by
  rcases s with ⟨label, type⟩
  cases label <;> try trivial
  rcases type with s | e | name
  · cases s <;> simp [default, ValueType.zero, Scalar.zero, Value.NoNegativeZero,
      Decimal.Binary.zero]
  · trivial
  · trivial

end ProtoSchema
