import ProtoSchema.Proofs.Value.RoundTrip

/-! # Values with a JSON form of their own

Integers of 64 bits, bytes and instants are written as text. They come back from it alone, as
optional values and in lists. Only an instant loses something, the part below a millisecond, and
what is left of it has the same text.
-/

namespace ProtoSchema

namespace Instant

variable {t : Instant}

theorem format_truncate (t : Instant) : t.truncate.format = t.format := by
  have hsecond : t.nanos / 1000000 * 1000000 / 1000000000 = t.nanos / 1000000000 := by omega
  have hmillis : t.nanos / 1000000 * 1000000 % 1000000000 / 1000000 =
      t.nanos % 1000000000 / 1000000 := by omega
  simp only [format, formatChars, timeText, truncate, nanosPerSecond, hsecond, hmillis]

theorem isValid_truncate (h : t.isValid = true) : t.truncate.isValid = true := by
  rw [valid_iff] at h ⊢
  obtain ⟨hseconds, hnanos, hleap⟩ := h
  have hle : t.truncate.nanos ≤ t.nanos := Nat.div_mul_le_self t.nanos 1000000
  exact ⟨hseconds, hle.trans_lt hnanos, hleap.imp_left hle.trans_lt⟩

theorem inMillis_truncate (hv : t.isValid = true) (hy : 0 ≤ t.year ∧ t.year ≤ 9999) :
    t.truncate.InMillis :=
  ⟨isValid_truncate hv, Nat.mul_mod_left _ _, hy⟩

end Instant

namespace Catalog

variable {c : Catalog} {s : Scalar}

theorem decodeSlot_toText {slot : Slot} {j : Json} {v : Value} (hj : j.HasText)
    (h : slot.read (c.read maxDepth .streamed) j = .ok v) : c.decodeSlot slot j.toText = .ok v := by
  rw [decodeSlot, readText_eq_ok, Json.Document.ofText_toText hj]
  exact ⟨h, rfl⟩

theorem read_of_carries {j : Json} {v : Value} (h : (ValueType.scalar s).Carries j v) (room : Nat) :
    c.read room .streamed (.one (.scalar s)) j = .ok v := by
  obtain ⟨inside, hread⟩ := c.read_scalar room .streamed s j
  rw [hread, h.read inside]

theorem decodeSlot_one {label : Label} (hl : label ≠ .repeated) {j : Json} {v : Value}
    (h : (ValueType.scalar s).Carries j v) : c.decodeSlot ⟨label, .scalar s⟩ j.toText = .ok v := by
  have hshape : (Slot.mk label (.scalar s)).shape = .one (.scalar s) := if_neg hl
  apply decodeSlot_toText h.hasText
  rw [Slot.read, h.present label, hshape, if_neg Bool.false_ne_true]
  exact read_of_carries h maxDepth

theorem decodeSlot_absent (c : Catalog) (s : Scalar) :
    c.decodeSlot ⟨.optional, .scalar s⟩ Json.null.toText = .ok .absent :=
  decodeSlot_toText trivial rfl

theorem decodeSlot_list {js : List Json} {vs : List Value}
    (h : List.Forall₂ (ValueType.scalar s).Carries js vs) :
    c.decodeSlot ⟨.repeated, .scalar s⟩ (Json.list js).toText = .ok (.list vs) := by
  have hitems : Json.ItemsHaveText js ∧
      js.mapM (c.read (maxDepth - 1) .streamed (.one (.scalar s))) = .ok vs := by
    induction h with
    | nil => exact ⟨trivial, rfl⟩
    | @cons j v js vs hj _ ih =>
      refine ⟨⟨hj.hasText, ih.1⟩, ?_⟩
      rw [List.mapM_cons, read_of_carries hj, ih.2]
      rfl
  have htext : (Json.list js).HasText := ⟨rfl, hitems.1⟩
  apply decodeSlot_toText htext
  have hread : c.read maxDepth .streamed (.list (.scalar s)) (Json.list js) = (do
      let vs ← js.mapM (c.read (maxDepth - 1) .streamed (.one (.scalar s)))
      .ok (.list vs)) := rfl
  rw [Slot.read, if_neg (by simp [Slot.isAbsence, Slot.isNullable])]
  exact hread.trans (by rw [hitems.2]; rfl)

/-- The text of `v` in a slot is read as `w`, and `w` has the same text. -/
structure Returns (c : Catalog) (slot : Slot) (v w : Value) : Prop where
  decode : c.decodeSlot slot (c.encode slot.type v) = .ok w
  encode : c.encode slot.type w = c.encode slot.type v

/-- Whatever satisfies `P` comes back as what `keep` leaves of it: alone, as something that may be
missing, and in a list, in order. `value` makes values of a scalar. -/
structure Survives {α : Type} (c : Catalog) (s : Scalar) (value : α → Value) (keep : α → α)
    (P : α → Prop) : Prop where
  plain : ∀ x, P x → c.Returns ⟨.implicit, .scalar s⟩ (value x) (value (keep x))
  optional : ∀ x : Option α, (∀ y ∈ x, P y) → c.Returns ⟨.optional, .scalar s⟩
    ((x.map value).getD .absent) (((x.map keep).map value).getD .absent)
  repeated : ∀ xs : List α, (∀ x ∈ xs, P x) → c.Returns ⟨.repeated, .scalar s⟩
    (.list (xs.map value)) (.list ((xs.map keep).map value))

theorem survives_of_carries {α : Type} {value : α → Value} {keep : α → α} {P : α → Prop}
    (form : α → Json) (hwrite : ∀ x, c.write (.scalar s) (value x) = form x)
    (hkeep : ∀ x, form (keep x) = form x)
    (h : ∀ x, P x → (ValueType.scalar s).Carries (form x) (value (keep x))) :
    c.Survives s value keep P := by
  have hsame (x : α) : c.encode (.scalar s) (value (keep x)) = c.encode (.scalar s) (value x) := by
    rw [encode, encode, hwrite, hwrite, hkeep]
  have htext (x : α) : c.encode (.scalar s) (value x) = (form x).toText := by rw [encode, hwrite]
  refine ⟨fun x hx => ⟨?_, hsame x⟩, fun x hx => ?_, fun xs hxs => ?_⟩
  · rw [htext]
    exact decodeSlot_one (by decide) (h x hx)
  · cases x with
    | none =>
      refine ⟨?_, rfl⟩
      rw [Option.map_none, Option.map_none, Option.getD_none, encode, write_absent]
      exact decodeSlot_absent c s
    | some x =>
      refine ⟨?_, hsame x⟩
      rw [Option.map_some, Option.getD_some, htext]
      exact decodeSlot_one (by decide) (h x (hx x rfl))
  · have hforms : (xs.map value).map (c.write (.scalar s)) = xs.map form := by simp [hwrite]
    have hkept : ((xs.map keep).map value).map (c.write (.scalar s)) = xs.map form := by
      simp [hwrite, hkeep]
    constructor
    · rw [encode, write_list, hforms]
      apply decodeSlot_list
      rw [List.map_map, List.forall₂_map_left_iff, List.forall₂_map_right_iff, List.forall₂_same]
      exact fun x hx => h x (hxs x hx)
    · rw [encode, encode, write_list, write_list, hforms, hkept]

/-- Integers of 64 bits and bytes come back as they are, and an instant of a year with four digits
without the part below a millisecond. What comes back is written like what it comes from. -/
theorem forms_survive (c : Catalog) :
    (∀ s, s.jsonForm? = some .int64 →
      c.Survives s .int id fun n => s.range64.contains n = true) ∧
    c.Survives .bytes .bytes id (fun _ => True) ∧
    c.Survives .timestamp .instant Instant.truncate fun t =>
      t.isValid = true ∧ 0 ≤ t.year ∧ t.year ≤ 9999 := by
  refine ⟨fun s hs => ?_, ?_, ?_⟩
  · have hrange : s.integers? = some s.range64 := by cases s <;> cases hs <;> rfl
    apply survives_of_carries (fun n => (ValueType.scalar s).leaf (.int n))
    · exact fun n => by simp [write]
    · exact fun _ => rfl
    · exact fun n hn => ValueType.carries_integer hrange hn
  · apply survives_of_carries fun bs => .text (Base64.encode bs)
    · exact fun bs => by simp [write, ValueType.leaf]
    · exact fun _ => rfl
    · exact fun bs _ => ValueType.carries_bytes bs
  · apply survives_of_carries fun t => .text t.format
    · exact fun t => by simp [write, ValueType.leaf]
    · exact fun t => by rw [Instant.format_truncate]
    · rintro t ⟨hv, hy⟩
      rw [← Instant.format_truncate]
      exact ValueType.carries_instant (Instant.inMillis_truncate hv hy)

/-- A leap second and the nanosecond before 1970, in a list. -/
theorem forms_survive_instants :
    (∀ t ∈ [Instant.mk 1483228799 1999999999, ⟨-1, 999999999⟩],
      t.isValid = true ∧ 0 ≤ t.year ∧ t.year ≤ 9999) ∧
    Catalog.decodeSlot {} ⟨.repeated, .scalar .timestamp⟩
      (Catalog.encode {} (.scalar .timestamp)
        (.list [.instant ⟨1483228799, 1999999999⟩, .instant ⟨-1, 999999999⟩])) =
      .ok (.list [.instant ⟨1483228799, 1999000000⟩, .instant ⟨-1, 999000000⟩]) := by
  have hvalid : ∀ t ∈ [Instant.mk 1483228799 1999999999, ⟨-1, 999999999⟩],
      t.isValid = true ∧ 0 ≤ t.year ∧ t.year ≤ 9999 := by decide
  exact ⟨hvalid, ((forms_survive {}).2.2.repeated _ hvalid).decode⟩

end Catalog

end ProtoSchema
