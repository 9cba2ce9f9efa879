import ProtoSchema.Proofs.Value.Record

/-! # Values and their JSON texts

A value of a type comes back from its JSON text, up to the sign of zeros. The induction is on the
room that is left for arrays and objects.
-/

namespace ProtoSchema

namespace Catalog

variable {c : Catalog} {t : ValueType} {v : Value}

theorem write_of_admits (h : t.Admits v) : c.write t v = t.leaf v := by
  cases h <;> simp [write]

theorem write_absent (c : Catalog) (t : ValueType) : c.write t .absent = .null := by
  cases t <;> simp [write, ValueType.leaf]

theorem write_list (c : Catalog) (t : ValueType) (vs : List Value) :
    c.write t (.list vs) = .list (vs.map (c.write t)) := by
  rw [write]
  congr 1
  induction vs with
  | nil => rfl
  | cons v vs ih => rw [writeAll, ih, List.map_cons]

theorem write_record {name : String} {m : MessageType} (hm : c.message? name = some m)
    (vs ps : List Value) : c.write (.message name) (.record vs ps) =
      .record (c.writeFields m.fields vs ++ c.writePicks m.oneofs ps) := by
  simp [write, hm]

theorem forall₂_writeFields {R : FieldType → Value → Prop} {P : Json → Prop} {fs : List FieldType}
    {vs : List Value} (h : List.Forall₂ R fs vs) (hes : ∀ e ∈ c.writeFields fs vs, P e.2) :
    List.Forall₂ (fun f v => f ∈ fs ∧ R f v ∧ (f.slot.omits v = false → P (c.write f.slot.type v)))
      fs vs := by
  induction h with
  | nil => exact .nil
  | @cons f v fs vs hv _ ih =>
    rw [writeFields] at hes
    have hrest : ∀ e ∈ c.writeFields fs vs, P e.2 := by
      split at hes
      · exact hes
      · exact fun e he => hes e (List.mem_cons_of_mem _ he)
    refine .cons ⟨List.mem_cons_self, hv, fun ho => ?_⟩ ((ih hrest).imp fun g w hg =>
      ⟨List.mem_cons_of_mem f hg.1, hg.2⟩)
    rw [if_neg (by simp [ho])] at hes
    exact hes _ List.mem_cons_self

theorem forall₂_writePicks {R : OneofType → Value → Prop} {P : Json → Prop} {os : List OneofType}
    {ps : List Value} (h : List.Forall₂ R os ps) (hes : ∀ e ∈ c.writePicks os ps, P e.2) :
    List.Forall₂ (fun o p => o ∈ os ∧ R o p ∧ ∀ name f v, p = .member name v →
      o.named? name = some f → P (c.write f.slot.type v)) os ps := by
  induction h with
  | nil => exact .nil
  | @cons o p os ps hp _ ih =>
    rw [writePicks_cons] at hes
    obtain ⟨hentry, hrest⟩ := List.forall_mem_append.1 hes
    refine .cons ⟨List.mem_cons_self, hp, ?_⟩ ((ih hrest).imp fun o' p hp =>
      ⟨List.mem_cons_of_mem o hp.1, hp.2⟩)
    rintro name f v rfl hn
    rw [pickEntry_member hn] at hentry
    exact hentry _ List.mem_cons_self

/-- Every value of a type fits where its arrays and objects have room. -/
def FitsWithin (c : Catalog) (room : Nat) : Prop :=
  ∀ {t : ValueType} {v : Value}, c.HasType t v → t.Coherent → (c.write t v).depth ≤ room →
    (c.write t v).Fits room

theorem fits_slot {s : Slot} {room : Nat} (ih : ∀ r ≤ room, c.FitsWithin r) (h : c.HasSlot s v)
    (hs : s.type.Coherent) (hd : (c.write s.type v).depth ≤ room) :
    (c.write s.type v).Fits room := by
  cases h with
  | absent _ =>
    rw [write_absent]
    exact ⟨trivial, rfl⟩
  | list _ h =>
    rw [write_list] at hd ⊢
    obtain ⟨room, rfl⟩ : ∃ r, room = r + 1 := by
      refine Nat.exists_eq_succ_of_ne_zero fun hz => ?_
      simp [hz, Json.list, Json.depth] at hd
    refine .list fun j hj => ?_
    have hdj := (Json.depth_lt_list hj).trans_le hd
    obtain ⟨v, hv, rfl⟩ := List.mem_map.1 hj
    exact ih room (Nat.le_succ room) (h v hv) hs (Nat.lt_succ_iff.1 hdj)
  | one _ h => exact ih room le_rfl h hs hd

theorem fitsWithin (hc : c.Coherent) (room : Nat) : c.FitsWithin room := by
  induction room using Nat.strongRecOn with
  | ind room ih =>
    intro t v h ht hd
    cases h with
    | leaf h =>
      rw [write_of_admits h]
      exact ⟨(h.carries ht).hasText, (h.carries ht).isReadable room⟩
    | @record name m vs ps hm hf hp =>
      rw [write_record hm] at hd ⊢
      obtain ⟨room, rfl⟩ : ∃ r, room = r + 1 := by
        refine Nat.exists_eq_succ_of_ne_zero fun hz => ?_
        simp [hz, Json.record, Json.depth] at hd
      refine .record fun e he => ?_
      have hde := Nat.lt_succ_iff.1 ((Json.depth_lt_record he).trans_le hd)
      have htypes := (hc.message? hm).types
      rcases List.mem_append.1 he with he | he
      · obtain ⟨f, v, hmem, hv, -, rfl⟩ := mem_writeFields hf he
        exact fits_slot (fun r hr => ih r (Nat.lt_succ_of_le hr)) hv
          (htypes f (List.mem_append_left _ hmem)) hde
      · obtain ⟨o, f, name, v, ho, hv, hn, rfl⟩ := mem_writePicks hp he
        have hmem : f ∈ m.parts := List.mem_append_right _
          (List.mem_flatMap.2 ⟨o, ho, (OneofType.member_of_named? hn).1⟩)
        cases hv with
        | member hn' hv =>
          obtain rfl : _ = f := Option.some.inj (hn'.symm.trans hn)
          exact ih room (Nat.lt_succ_self room) hv (htypes _ hmem) hde

theorem mapM_restores {one : Json → Except ReadFault Value} {vs : List Value}
    (h : ∀ v ∈ vs, Restores one (c.write t v) v) :
    ∃ ws, (vs.map (c.write t)).mapM one = .ok ws ∧ List.Forall₂ Value.Agrees ws vs := by
  induction vs with
  | nil => exact ⟨[], rfl, .nil⟩
  | cons v vs ih =>
    obtain ⟨⟨w, hw, hv⟩, hvs⟩ := List.forall_mem_cons.1 h
    obtain ⟨ws, hws, hagree⟩ := ih hvs
    exact ⟨w :: ws, by simp [hw, hws, bind, Except.bind, pure, Except.pure], .cons hv hagree⟩

/-- Every value of a type comes back where its arrays and objects have room. -/
def RestoresWithin (c : Catalog) (room : Nat) : Prop :=
  ∀ {t : ValueType} {v : Value}, c.HasType t v → t.Coherent → (c.write t v).depth ≤ room →
    ∀ access, Restores (c.read room access (.one t)) (c.write t v) v

theorem restores_list {room : Nat} {access : Access} {vs : List Value}
    (h : ∀ v ∈ vs, Restores (c.read room access (.one t)) (c.write t v) v) :
    Restores (c.read (room + 1) access (.list t)) (c.write t (.list vs)) (.list vs) := by
  obtain ⟨ws, hws, hagree⟩ := mapM_restores h
  refine ⟨.list ws, ?_, .list hagree⟩
  simp [write_list, Json.list, read, readWith, Interior.enter, hws, bind, Except.bind]

theorem isAbsence_write (hv : c.HasType t v) (ht : t.Coherent) (label : Label) :
    (Slot.mk label t).isAbsence (c.write t v) = false := by
  cases hv with
  | leaf h =>
    rw [write_of_admits h]
    exact (h.carries ht).present label
  | record hm _ _ =>
    rw [write_record hm]
    cases label <;> rfl

theorem restores_slot {s : Slot} {room : Nat} (ih : ∀ r ≤ room, c.RestoresWithin r)
    (h : c.HasSlot s v) (hs : s.type.Coherent) (hd : (c.write s.type v).depth ≤ room)
    (access : Access) : Restores (s.read (c.read room access)) (c.write s.type v) v := by
  cases h with
  | absent h =>
    refine ⟨.absent, ?_, .refl _⟩
    simp [write_absent, Slot.read, Slot.isAbsence, h, Json.isNull]
  | @list _ vs hl h =>
    have hshape : s.shape = .list s.type := if_pos hl
    obtain ⟨label, type⟩ := s
    obtain rfl : label = .repeated := hl
    have habsence : (Slot.mk .repeated type).isAbsence (c.write type (.list vs)) = false := rfl
    obtain ⟨room, rfl⟩ : ∃ r, room = r + 1 := by
      refine Nat.exists_eq_succ_of_ne_zero fun hz => ?_
      simp [hz, write_list, Json.list, Json.depth] at hd
    rw [write_list] at hd
    have hlist := restores_list fun v hv => ih room (Nat.le_succ room) (h v hv) hs
      (Nat.lt_succ_iff.1 ((Json.depth_lt_list (List.mem_map_of_mem hv)).trans_le hd)) access
    simpa only [Restores, Slot.read, habsence, hshape, Bool.false_eq_true, if_false] using hlist
  | one hl h =>
    have hshape : s.shape = .one s.type := if_neg hl
    have habsence := isAbsence_write h hs s.label
    have hone := ih room le_rfl h hs hd access
    simpa only [Restores, Slot.read, habsence, hshape, Bool.false_eq_true, if_false] using hone

theorem restores_leaf (h : t.Admits v) (ht : t.Coherent) (room : Nat) (access : Access) :
    Restores (c.read room access (.one t)) (c.write t v) v := by
  have hread (inside : Option Interior) :
      c.readWith inside access (.one t) (t.leaf v) = t.readLeaf inside (t.leaf v) := by
    cases h <;> rfl
  refine ⟨v, ?_, .refl v⟩
  rw [write_of_admits h]
  cases room with
  | zero => exact (hread none).trans ((h.carries ht).read none)
  | succ room => exact (hread _).trans ((h.carries ht).read _)

theorem restoresWithin (hc : c.Coherent) (room : Nat) : c.RestoresWithin room := by
  induction room using Nat.strongRecOn with
  | ind room ih =>
    intro t v h ht hd access
    cases h with
    | leaf h => exact restores_leaf h ht room access
    | @record name m vs ps hm hf hp =>
      rw [write_record hm] at hd ⊢
      obtain ⟨room, rfl⟩ : ∃ r, room = r + 1 := by
        refine Nat.exists_eq_succ_of_ne_zero fun hz => ?_
        simp [hz, Json.record, Json.depth] at hd
      have hcm := hc.message? hm
      have hdepth : ∀ e ∈ c.writeFields m.fields vs ++ c.writePicks m.oneofs ps, e.2.depth ≤ room :=
        fun e he => Nat.lt_succ_iff.1 ((Json.depth_lt_record he).trans_le hd)
      obtain ⟨hdf, hdp⟩ := List.forall_mem_append.1 hdepth
      have hmember {o : OneofType} {name : String} {f : FieldType} (ho : o ∈ m.oneofs)
          (hn : o.named? name = some f) : f.slot.type.Coherent :=
        hcm.types f (List.mem_append_right _
          (List.mem_flatMap.2 ⟨o, ho, (OneofType.member_of_named? hn).1⟩))
      have hfields : List.Forall₂ (fun f v => f.slot.omits v = false →
          Restores (f.slot.read (c.read room access)) (c.write f.slot.type v) v) m.fields vs := by
        refine (forall₂_writeFields (P := fun j => j.depth ≤ room) hf hdf).imp ?_
        rintro f v ⟨hmem, hslot, hwritten⟩ ho
        exact restores_slot (fun r hr => ih r (Nat.lt_succ_of_le hr)) hslot
          (hcm.types f (List.mem_append_left _ hmem)) (hwritten ho) access
      have hpicks : List.Forall₂ (OneofType.Restored c (c.read room .kept)) m.oneofs ps := by
        refine (forall₂_writePicks (P := fun j => j.depth ≤ room) hp hdp).imp ?_
        rintro o p ⟨ho, hpick, hwritten⟩
        cases hpick with
        | absent => exact .absent
        | member hn hv =>
          have hd := hwritten _ _ _ rfl hn
          have hfits := fitsWithin hc room hv (hmember ho hn) hd
          exact .member hn (ih room (Nat.lt_succ_self room) hv (hmember ho hn) hd .kept)
            (Json.isWhole_of_isReadable _ hfits.readable)
      have hreadable : ∀ e ∈ c.writePicks m.oneofs ps, e.2.isReadable room = true := by
        intro e he
        obtain ⟨o, f, name, v, ho, hpick, hn, rfl⟩ := mem_writePicks hp he
        cases hpick with
        | member hn' hv =>
          obtain rfl : _ = f := Option.some.inj (hn'.symm.trans hn)
          exact (fitsWithin hc room hv (hmember ho hn) (hdp _ he)).readable
      obtain ⟨w, hread, hagree⟩ : Restores (m.read (some ⟨room, c.read room⟩) access) _ _ :=
        MessageType.restores_record hcm hfields hpicks hreadable
      exact ⟨w, by simpa only [read, readWith, hm] using hread, hagree⟩

/-- A value comes back from its text, up to the sign of zeros, if it does not nest too deep. -/
theorem decode_encode_of_coherent (hc : c.Coherent) (ht : t.Coherent) (hv : c.HasType t v)
    (hd : (c.write t v).depth ≤ maxDepth) :
    ∃ w, c.decode t (c.encode t v) = .ok w ∧ w.Agrees v := by
  obtain ⟨w, hread, hw⟩ := restoresWithin hc maxDepth hv ht hd .streamed
  have hdocument : Json.Document.ofText (c.encode t v) = ⟨c.write t v, true⟩ :=
    Json.Document.ofText_toText (fitsWithin hc maxDepth hv ht hd).hasText
  exact ⟨w, readText_eq_ok.2 (by rw [hdocument]; exact ⟨hread, rfl⟩), hw⟩

end Catalog

end ProtoSchema
