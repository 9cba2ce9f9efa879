import ProtoSchema.Proofs.Results
import ProtoSchema.Proofs.Value.RoundTrip

/-! # What an object says

Entries are read one after the other, but what they say does not depend on their order: every field
takes the value of its only entry, or its default if it has none, and so does every oneof. An object
can be read just if its fields and oneofs can and all other entries may be skipped.
-/

namespace ProtoSchema

/-- The entries with a key that passes a test. -/
def entriesWith (p : String → Bool) (es : List (Option String × Json)) :
    List (Option String × Json) := es.filter fun e => e.1.any p

/-- Every entry has a key, and one that is not accepted has a value that may be skipped. -/
def Passable (accepts : String → Bool) (skips : Json → Bool) (es : List (Option String × Json)) :
    Prop := ∀ e ∈ es, ∃ key, e.1 = some key ∧ (accepts key = true ∨ skips e.2 = true)

section Keys

variable {p : String → Bool} {skips : Json → Bool} {key : String} {j : Json}
  {es : List (Option String × Json)}

theorem entriesWith_cons_pos (h : p key = true) :
    entriesWith p ((some key, j) :: es) = (some key, j) :: entriesWith p es :=
  List.filter_cons_of_pos h

theorem entriesWith_cons_neg (h : p key = false) :
    entriesWith p ((some key, j) :: es) = entriesWith p es :=
  List.filter_cons_of_neg (by simp [h])

theorem passable_cons : Passable p skips ((some key, j) :: es) ↔
    (p key = true ∨ skips j = true) ∧ Passable p skips es := by
  simp [Passable]

theorem not_passable_cons : ¬ Passable p skips ((none, j) :: es) := by simp [Passable]

end Keys

namespace Members

variable {α : Type} {oneof : String} {accepts : String → Bool}
  {decode : String → Json → Except ReadFault α}

theorem readAfter_eq_ok {first : Option (String × α)} {es : List (Option String × Json)}
    {r : Option α} : readAfter oneof accepts decode first es = .ok r ↔
      Passable accepts Json.isWhole es ∧
        (entriesWith accepts es = [] ∧ r = first.map (·.2) ∨
          first = none ∧ ∃ key j a, entriesWith accepts es = [(some key, j)] ∧ j.isBare = false ∧
            decode key j = .ok a ∧ r = some a) := by
  induction es generalizing first with
  | nil =>
    have hpass : Passable accepts Json.isWhole [] := fun e he => nomatch he
    have hnone : entriesWith accepts [] = [] := rfl
    rw [readAfter]
    grind
  | cons e es ih =>
    obtain ⟨key?, j⟩ := e
    cases key? with
    | none => simp [readAfter, not_passable_cons]
    | some key =>
      rw [passable_cons]
      cases hk : accepts key with
      | true =>
        rw [entriesWith_cons_pos hk]
        cases first with
        | some a => simp [readAfter, hk]
        | none =>
          cases hb : j.isBare with
          | true => simp [readAfter, hk, hb]
          | false =>
            cases hd : decode key j with
            | error e => simp [readAfter, hk, hb, hd, bind, Except.bind]
            | ok a =>
              have hnext : readAfter oneof accepts decode none ((some key, j) :: es) =
                  readAfter oneof accepts decode (some (key, a)) es := by
                simp [readAfter, hk, hb, hd, bind, Except.bind]
              rw [hnext, ih]
              grind
      | false =>
        rw [entriesWith_cons_neg hk]
        cases hw : j.isWhole <;> cases first <;> simp [readAfter, hk, hw, ih]

end Members

namespace OneofType

variable {o : OneofType} {one : Shape → Json → Except ReadFault Value}
  {es : List (Option String × Json)} {p : Value}

def accepts (o : OneofType) (key : String) : Bool := (o.member? key).isSome

/-- What a oneof holds after some entries: the member that the only one of its own names. -/
def Takes (o : OneofType) (one : Shape → Json → Except ReadFault Value)
    (es : List (Option String × Json)) (p : Value) : Prop :=
  entriesWith o.accepts es = [] ∧ p = .absent ∨
    ∃ key j f v, entriesWith o.accepts es = [(some key, j)] ∧ o.member? key = some f ∧
      one (.one f.slot.type) j = .ok v ∧ p = .member f.name v

theorem readMember_eq_ok {key : String} {j : Json} : o.readMember one key j = .ok p ↔
    ∃ f v, o.member? key = some f ∧ one (.one f.slot.type) j = .ok v ∧ p = .member f.name v := by
  cases hf : o.member? key with
  | none => simp [readMember, hf]
  | some f => cases hj : one (.one f.slot.type) j <;> simp [readMember, hf, hj, Except.map, eq_comm]

theorem read_eq_ok (h : ∀ e ∈ es, e.1.isSome = true ∧ e.2.isWhole = true) :
    o.read one es = .ok p ↔ o.Takes one es p := by
  have hpass : Passable o.accepts Json.isWhole es := fun e he =>
    (Option.isSome_iff_exists.1 (h e he).1).imp fun key hkey => ⟨hkey, .inr (h e he).2⟩
  have hbare {key : String} {j : Json} (hkey : entriesWith o.accepts es = [(some key, j)]) :
      j.isBare = false := by
    have hmem : (some key, j) ∈ es := List.mem_of_mem_filter (hkey ▸ List.mem_singleton_self _)
    exact Json.isBare_of_isWhole (h _ hmem).2
  have hread : o.read one es = .ok p ↔
      ∃ pick, Members.read o.name o.accepts (o.readMember one) es = .ok pick ∧
        pick.getD .absent = p := by
    simp only [OneofType.read, bind_eq_ok, pure, Except.pure, Except.ok.injEq]
    rfl
  rw [hread]
  simp only [Members.read, Members.readAfter_eq_ok, hpass, true_and, Option.map_none,
    readMember_eq_ok]
  constructor
  · rintro ⟨pick, ⟨hnone, rfl⟩ | ⟨key, j, a, hkey, -, ⟨f, v, hf, hv, rfl⟩, rfl⟩, rfl⟩
    · exact .inl ⟨hnone, rfl⟩
    · exact .inr ⟨key, j, f, v, hkey, hf, hv, rfl⟩
  · rintro (⟨hnone, rfl⟩ | ⟨key, j, f, v, hkey, hf, hv, rfl⟩)
    · exact ⟨none, .inl ⟨hnone, rfl⟩, rfl⟩
    · exact ⟨_, .inr ⟨key, j, _, hkey, hbare hkey, ⟨f, v, hf, hv, rfl⟩, rfl⟩, rfl⟩

end OneofType

/-- What a field holds after some entries: what it held before them, or the value of the only one
of its own. -/
def FieldType.Takes (f : FieldType) (one : Shape → Json → Except ReadFault Value)
    (before : Option Value) (es : List (Option String × Json)) (v : Value) : Prop :=
  entriesWith f.accepts es = [] ∧ v = before.getD f.slot.default ∨
    before = none ∧ ∃ e, entriesWith f.accepts es = [e] ∧ f.slot.read one e.2 = .ok v

namespace FieldType

variable {f : FieldType} {one : Shape → Json → Except ReadFault Value} {before : Option Value}
  {key : String} {j : Json} {es : List (Option String × Json)} {v : Value}

theorem takes_cons_pos (h : f.accepts key = true) :
    f.Takes one before ((some key, j) :: es) v ↔
      before = none ∧ ∃ w, f.slot.read one j = .ok w ∧ f.Takes one (some w) es v := by
  rw [Takes, entriesWith_cons_pos h]
  constructor
  · rintro (⟨hnil, -⟩ | ⟨hbefore, e, he, hv⟩)
    · cases hnil
    · obtain ⟨rfl, hnil⟩ := List.cons.inj he
      exact ⟨hbefore, v, hv, .inl ⟨hnil, rfl⟩⟩
  · rintro ⟨hbefore, w, hw, ⟨hnil, rfl⟩ | ⟨hsome, -⟩⟩
    · exact .inr ⟨hbefore, _, by rw [hnil], hw⟩
    · cases hsome

theorem takes_cons_neg (h : f.accepts key = false) :
    f.Takes one before ((some key, j) :: es) v ↔ f.Takes one before es v := by
  rw [Takes, entriesWith_cons_neg h, Takes]

end FieldType

namespace MessageType

variable {m : MessageType} {one : Shape → Json → Except ReadFault Value} {other : Json → Bool}
  {es : List (Option String × Json)} {vs : List Value}

def accepts (m : MessageType) (key : String) : Bool := (m.field? key).isSome

theorem accepts_false_of_field? {key : String} (h : m.field? key = none) {f : FieldType}
    (hf : f ∈ m.fields) : f.accepts key = false := by
  simpa using List.find?_eq_none.1 h f hf

theorem Coherent.accepts_false (hm : m.Coherent) {f g : FieldType} (hf : f ∈ m.parts)
    (hg : g ∈ m.parts) (hne : g ≠ f) {key : String} (hk : f.accepts key = true) :
    g.accepts key = false :=
  (hm.apart.forall hf hg hne.symm).accepts hk

theorem Coherent.member? (hm : m.Coherent) {o : OneofType} (ho : o ∈ m.oneofs) {f : FieldType}
    (hf : f ∈ o.members) {key : String} (hk : f.accepts key = true) : o.member? key = some f := by
  have hmembers := (List.pairwise_flatMap.1 (List.pairwise_append.1 hm.apart).2.1).1
  exact FieldType.find?_accepts (hmembers o ho) hf hk

theorem any_eq_isSome_lookup (seen : List (String × Value)) (name : String) :
    seen.any (·.1 == name) = (seen.lookup name).isSome := by
  induction seen with
  | nil => rfl
  | cons p seen ih =>
    rw [List.any_cons, List.lookup_cons, ih, Bool.beq_comm]
    cases name == p.1 <;> rfl

theorem readEntries_eq_ok (hm : m.Coherent) {seen : List (String × Value)} :
    (∃ out, m.readEntries one other seen es = .ok out ∧ m.arrange out = vs) ↔
      Passable m.accepts other es ∧
        List.Forall₂ (fun f v => f.Takes one (seen.lookup f.name) es v) m.fields vs := by
  induction es generalizing seen with
  | nil =>
    have hpass : Passable m.accepts other [] := fun e he => nomatch he
    have htakes (f : FieldType) (v : Value) : f.Takes one (seen.lookup f.name) [] v ↔
        v = (seen.lookup f.name).getD f.slot.default := by
      simp [FieldType.Takes, entriesWith]
    simp only [readEntries, hpass, htakes, forall₂_eq_map, arrange]
    simp
  | cons e es ih =>
    obtain ⟨key?, j⟩ := e
    cases key? with
    | none => simp [readEntries, not_passable_cons]
    | some key =>
      rw [passable_cons]
      cases hkey : m.field? key with
      | none =>
        rw [forall₂_congr_mem fun f hf v =>
          FieldType.takes_cons_neg (accepts_false_of_field? hkey hf)]
        cases ho : other j <;> simp [readEntries, hkey, ho, ih, accepts]
      | some f =>
        have hf : f ∈ m.fields := List.mem_of_find?_eq_some hkey
        have hfk : f.accepts key = true := by simpa using List.find?_some hkey
        have hown (h : List.Forall₂ (fun g v =>
            g.Takes one (seen.lookup g.name) ((some key, j) :: es) v) m.fields vs) :
            seen.lookup f.name = none ∧ ∃ w, f.slot.read one j = .ok w := by
          obtain ⟨v, -, hv⟩ := exists_right_of_forall₂ h hf
          obtain ⟨hnew, w, hw, -⟩ := (FieldType.takes_cons_pos hfk).1 hv
          exact ⟨hnew, w, hw⟩
        have hany := any_eq_isSome_lookup seen f.name
        cases hnew : seen.lookup f.name with
        | some w =>
          rw [hnew] at hany hown
          simp only [readEntries, hkey, hany]
          grind
        | none =>
          rw [hnew] at hany
          cases hread : f.slot.read one j with
          | error e =>
            simp only [readEntries, hkey, hany, hread, bind, Except.bind]
            grind
          | ok w =>
            have hrest (g : FieldType) (hg : g ∈ m.fields) (v : Value) :
                g.Takes one (((f.name, w) :: seen).lookup g.name) es v ↔
                  g.Takes one (seen.lookup g.name) ((some key, j) :: es) v := by
              by_cases hgf : g = f
              · subst hgf
                simp [FieldType.takes_cons_pos hfk, hnew, hread]
              · have hapart := (List.pairwise_append.1 hm.apart).1.forall hf hg (Ne.symm hgf)
                rw [FieldType.takes_cons_neg (hapart.accepts hfk),
                  lookup_cons_of_ne hapart.name_ne.symm]
            rw [← forall₂_congr_mem hrest]
            have hstep : m.readEntries one other seen ((some key, j) :: es) =
                m.readEntries one other ((f.name, w) :: seen) es := by
              simp [readEntries, hkey, hany, hread, bind, Except.bind]
            simp [hstep, ih, accepts, hkey]

/-- Whether a value can be skipped. A message with oneofs keeps what its fields do not read. -/
def skips (m : MessageType) (room : Nat) (j : Json) : Bool :=
  if m.oneofs.isEmpty then j.isWhole else j.isReadable room

structure Gives (m : MessageType) (inside : Interior) (access : Access)
    (es : List (Option String × Json)) (vs ps : List Value) : Prop where
  passable : Passable m.accepts (m.skips inside.room) es
  fields : List.Forall₂ (fun f v => f.Takes (inside.read access) none es v) m.fields vs
  oneofs : List.Forall₂ (fun o p => o.Takes (inside.read .kept) es p) m.oneofs ps

theorem Coherent.accepts_member (hm : m.Coherent) {o : OneofType} (ho : o ∈ m.oneofs) {key : String}
    (hk : o.accepts key = true) : m.field? key = none := by
  obtain ⟨f, hf⟩ := Option.isSome_iff_exists.1 hk
  have hfk : f.accepts key = true := by simpa using List.find?_some hf
  exact hm.field?_member ho (List.mem_of_find?_eq_some hf) hfk

theorem entriesWith_otherEntries (hm : m.Coherent) {o : OneofType} (ho : o ∈ m.oneofs) :
    entriesWith o.accepts (m.otherEntries es) = entriesWith o.accepts es := by
  rw [entriesWith, otherEntries, List.filter_filter, entriesWith]
  apply List.filter_congr
  rintro ⟨key?, j⟩ -
  cases key? with
  | none => rfl
  | some key =>
    cases hk : o.accepts key with
    | false => simp [hk]
    | true => simp [hk, hm.accepts_member ho hk]

theorem read_otherEntries_eq_ok (hm : m.Coherent) {room : Nat}
    (h : Passable m.accepts (m.skips room) es) {o : OneofType} (ho : o ∈ m.oneofs) (p : Value) :
    o.read one (m.otherEntries es) = .ok p ↔ o.Takes one es p := by
  have hothers : ∀ e ∈ m.otherEntries es, e.1.isSome = true ∧ e.2.isWhole = true := by
    intro e he
    obtain ⟨hmem, hnone⟩ := List.mem_filter.1 he
    obtain ⟨key, hkey, hskip⟩ := h e hmem
    simp only [hkey, Option.all_some, Option.isNone_iff_eq_none] at hnone
    have hreadable : e.2.isReadable room = true := by
      simpa [accepts, hnone, skips, List.ne_nil_of_mem ho] using hskip
    exact ⟨by simp [hkey], Json.isWhole_of_isReadable _ hreadable⟩
  rw [OneofType.read_eq_ok hothers, OneofType.Takes, entriesWith_otherEntries hm ho,
    OneofType.Takes]

theorem readObject_eq_ok (hm : m.Coherent) {inside : Interior} {access : Access} {closed : Bool}
    {v : Value} : m.readObject inside access es closed = .ok v ↔
      closed = true ∧ ∃ vs ps, m.Gives inside access es vs ps ∧ v = .record vs ps := by
  have hobject : m.readObject inside access es closed = .ok v ↔ closed = true ∧
      ∃ vs ps, (∃ out, m.readEntries (inside.read access) (m.skips inside.room) [] es = .ok out ∧
        m.arrange out = vs) ∧
      m.oneofs.mapM (fun o => o.read (inside.read .kept) (m.otherEntries es)) = .ok ps ∧
      v = .record vs ps := by
    simp only [readObject, bind_eq_ok]
    cases closed with
    | false => simp
    | true =>
      simp only [Bool.not_true, Bool.false_eq_true, if_false, bind_eq_ok, pure, Except.pure,
        Except.ok.injEq, true_and]
      constructor
      · rintro ⟨out, hout, ps, hps, rfl⟩
        exact ⟨_, ps, ⟨out, hout, rfl⟩, hps, rfl⟩
      · rintro ⟨vs, ps, ⟨out, hout, rfl⟩, hps, rfl⟩
        exact ⟨out, hout, ps, hps, rfl⟩
  rw [hobject]
  simp only [readEntries_eq_ok hm, mapM_eq_ok, List.lookup_nil]
  constructor
  · rintro ⟨hclosed, vs, ps, ⟨hpass, hfields⟩, honeofs, rfl⟩
    rw [forall₂_congr_mem fun o ho p => read_otherEntries_eq_ok hm hpass ho p] at honeofs
    exact ⟨hclosed, vs, ps, ⟨hpass, hfields, honeofs⟩, rfl⟩
  · rintro ⟨hclosed, vs, ps, ⟨hpass, hfields, honeofs⟩, rfl⟩
    rw [← forall₂_congr_mem fun o ho p => read_otherEntries_eq_ok hm hpass ho p] at honeofs
    exact ⟨hclosed, vs, ps, ⟨hpass, hfields⟩, honeofs, rfl⟩

theorem readArray_eq_ok {inside : Interior} {access : Access} {items : List Json} {closed : Bool}
    {v : Value} : m.readArray inside access items closed = .ok v ↔
      closed = true ∧ ∃ vs, readItems (inside.read access) m.fields items = .ok (vs, []) ∧
        v = .record vs [] := by
  have hend (rest : List Json) : checkEnd access m.fields.length items rest closed = .ok () ↔
      rest = [] ∧ closed = true := by
    cases rest <;> cases closed <;> cases access <;> simp [checkEnd]
  simp only [readArray, bind_eq_ok, pure, Except.pure, Except.ok.injEq, Prod.exists, hend]
  constructor
  · rintro ⟨vs, rest, hitems, -, ⟨rfl, hclosed⟩, rfl⟩
    exact ⟨hclosed, vs, hitems, rfl⟩
  · rintro ⟨hclosed, vs, hitems, rfl⟩
    exact ⟨vs, [], hitems, (), ⟨rfl, hclosed⟩, rfl⟩

end MessageType

theorem forall₂_of_readItems {one : Shape → Json → Except ReadFault Value} {fs : List FieldType}
    {js rest : List Json} {vs : List Value} (h : readItems one fs js = .ok (vs, rest)) :
    List.Forall₂ (fun f v => v = f.slot.default ∨ ∃ j, f.slot.read one j = .ok v) fs vs := by
  induction fs generalizing js vs with
  | nil =>
    obtain ⟨rfl, -⟩ : [] = vs ∧ js = rest := by simpa [readItems] using h
    exact .nil
  | cons f fs ih =>
    cases js with
    | nil =>
      obtain ⟨rfl, -⟩ := Prod.mk.inj (Except.ok.inj h)
      rw [List.forall₂_map_right_iff, List.forall₂_same]
      exact fun g _ => .inl rfl
    | cons j js =>
      simp only [readItems, bind_eq_ok, Prod.exists, pure, Except.pure, Except.ok.injEq,
        Prod.mk.injEq] at h
      obtain ⟨v, hv, ws, rest, hrest, rfl, rfl⟩ := h
      exact .cons (.inr ⟨j, hv⟩) (ih hrest)

theorem Json.mismatch_ne_ok {α : Type} (j : Json) (expected : Expected) (a : α) :
    j.mismatch expected ≠ .ok a := by
  cases hj : j.found <;> simp [mismatch, hj, bind, Except.bind]

namespace Catalog

variable {c : Catalog} {name : String} {m : MessageType} {room : Nat} {access : Access} {v : Value}

/-- A message is read from an object, or from the array of its fields if it has no oneof. -/
theorem read_message_eq_ok (hc : c.Coherent) (hm : c.message? name = some m) {j : Json} :
    c.read (room + 1) access (.one (.message name)) j = .ok v ↔
      (∃ es vs ps, j = .object es true ∧ m.Gives ⟨room, c.read room⟩ access es vs ps ∧
        v = .record vs ps) ∨
      m.oneofs = [] ∧ ∃ items vs, j = .array items true ∧
        readItems (c.read room access) m.fields items = .ok (vs, []) ∧ v = .record vs [] := by
  have hread : c.read (room + 1) access (.one (.message name)) j =
      m.read (some ⟨room, c.read room⟩) access j := by simp only [read, readWith, hm]
  rw [hread]
  cases j with
  | object es closed =>
    have hobject : m.read (some ⟨room, c.read room⟩) access (.object es closed) =
        m.readObject ⟨room, c.read room⟩ access es closed := rfl
    rw [hobject, MessageType.readObject_eq_ok (hc.message? hm)]
    grind
  | array items closed =>
    cases ho : m.oneofs with
    | nil =>
      have harray : m.read (some ⟨room, c.read room⟩) access (.array items closed) =
          m.readArray ⟨room, c.read room⟩ access items closed := by simp [MessageType.read, ho]; rfl
      rw [harray, MessageType.readArray_eq_ok]
      grind
    | cons o os =>
      simp [MessageType.read, ho, Json.mismatch_ne_ok]
  | _ => simp [MessageType.read, Json.mismatch_ne_ok]

theorem read_message_zero (hm : c.message? name = some m) {j : Json} :
    c.read 0 access (.one (.message name)) j ≠ .ok v := by
  have hread : c.read 0 access (.one (.message name)) j = m.read none access j := by
    simp only [read, readWith, hm]
  rw [hread]
  cases j with
  | object es closed => simp [MessageType.read, Interior.enter, bind, Except.bind]
  | array items closed =>
    cases ho : m.oneofs <;>
      simp [MessageType.read, ho, Interior.enter, bind, Except.bind, Json.mismatch_ne_ok]
  | _ => simp [MessageType.read, Json.mismatch_ne_ok]

theorem read_list_eq_ok {t : ValueType} {j : Json} :
    c.read (room + 1) access (.list t) j = .ok v ↔ ∃ items vs, j = .array items true ∧
      List.Forall₂ (fun i v => c.read room access (.one t) i = .ok v) items vs ∧ v = .list vs := by
  cases j with
  | array items closed =>
    have hread : c.read (room + 1) access (.list t) (.array items closed) = (do
        let vs ← items.mapM (c.read room access (.one t))
        if closed then .ok (.list vs) else .error .malformed) := rfl
    rw [hread, bind_eq_ok]
    simp only [mapM_eq_ok]
    cases closed with
    | false => simp
    | true => simp [eq_comm (a := v)]
  | _ => simp [read, readWith, Json.mismatch_ne_ok]

/-- The parts of a message that is read: a field has its default or was read from some value. -/
theorem exists_parts_of_read (hc : c.Coherent) (hm : c.message? name = some m) {j : Json}
    (h : c.read (room + 1) access (.one (.message name)) j = .ok v) :
    ∃ vs ps, v = .record vs ps ∧
      List.Forall₂ (fun f v => v = f.slot.default ∨
        ∃ j, f.slot.read (c.read room access) j = .ok v) m.fields vs ∧
      List.Forall₂ (fun o p => ∃ es, o.Takes (c.read room .kept) es p) m.oneofs ps := by
  rcases (read_message_eq_ok hc hm).1 h with
    ⟨es, vs, ps, -, hgives, rfl⟩ | ⟨ho, items, vs, -, hitems, rfl⟩
  · refine ⟨vs, ps, rfl, hgives.fields.imp fun f v hv => ?_, hgives.oneofs.imp fun o p hp => ⟨es, hp⟩⟩
    rcases hv with ⟨-, rfl⟩ | ⟨-, e, -, hread⟩
    · exact .inl rfl
    · exact .inr ⟨e.2, hread⟩
  · rw [ho]
    exact ⟨vs, [], rfl, forall₂_of_readItems hitems, .nil⟩

end Catalog

theorem ValueType.isWhole_leaf (t : ValueType) (v : Value) : (t.leaf v).isWhole = true := by
  unfold leaf
  split <;> try rfl
  · split <;> rfl
  · unfold Json.binary
    split <;> rfl
  · next e n => cases e.ofNumber? n <;> rfl

theorem Json.isWhole_record {es : List (String × Json)} (h : ∀ e ∈ es, e.2.isWhole = true) :
    (Json.record es).isWhole = true := by
  have hentries : wholeEntries (es.map fun e => (some e.1, e.2)) = true := by
    induction es with
    | nil => rfl
    | cons e es ih =>
      obtain ⟨he, hes⟩ := List.forall_mem_cons.1 h
      simp [wholeEntries, he, ih hes]
  simp [Json.record, isWhole, hentries]

namespace Catalog

mutual

theorem isWhole_write (c : Catalog) : (t : ValueType) → (v : Value) → (c.write t v).isWhole = true
  | t, .list vs => by simp [write, Json.list, Json.isWhole, wholeItems_writeAll c t vs]
  | .message name, .record vs ps => by
    cases hm : c.message? name with
    | none => simp [write, hm, Json.isWhole]
    | some m =>
      rw [write, hm]
      apply Json.isWhole_record
      exact List.forall_mem_append.2 ⟨isWhole_writeFields c m.fields vs,
        isWhole_writePicks c m.oneofs ps⟩
  | .scalar _, .record _ _ | .enum _, .record _ _ => by simp [write, Json.isWhole]
  | t, .int _ | t, .number _ | t, .bool _ | t, .text _ | t, .bytes _ | t, .instant _ | t, .enum _
  | t, .absent | t, .member _ _ => by simp [write, t.isWhole_leaf]

theorem wholeItems_writeAll (c : Catalog) (t : ValueType) :
    (vs : List Value) → Json.wholeItems (c.writeAll t vs) = true
  | [] => rfl
  | v :: vs => by simp [writeAll, Json.wholeItems, isWhole_write c t v, wholeItems_writeAll c t vs]

theorem isWhole_writeFields (c : Catalog) : (fs : List FieldType) → (vs : List Value) →
    ∀ e ∈ c.writeFields fs vs, e.2.isWhole = true
  | f :: fs, v :: vs => by
    rw [writeFields]
    split
    · exact isWhole_writeFields c fs vs
    · exact List.forall_mem_cons.2 ⟨isWhole_write c f.slot.type v, isWhole_writeFields c fs vs⟩
  | [], _ | _ :: _, [] => by simp [writeFields]

theorem isWhole_writePicks (c : Catalog) : (os : List OneofType) → (ps : List Value) →
    ∀ e ∈ c.writePicks os ps, e.2.isWhole = true
  | o :: os, .member name v :: ps => by
    rw [writePicks]
    split
    · next f _ =>
      exact List.forall_mem_cons.2 ⟨isWhole_write c f.slot.type v, isWhole_writePicks c os ps⟩
    · exact isWhole_writePicks c os ps
  | _ :: os, .int _ :: ps | _ :: os, .number _ :: ps | _ :: os, .bool _ :: ps
  | _ :: os, .text _ :: ps | _ :: os, .bytes _ :: ps | _ :: os, .instant _ :: ps
  | _ :: os, .enum _ :: ps | _ :: os, .absent :: ps | _ :: os, .list _ :: ps
  | _ :: os, .record _ _ :: ps => by
    rw [writePicks]
    · exact isWhole_writePicks c os ps
    · simp
  | [], _ | _ :: _, [] => by simp [writePicks]

end

end Catalog

end ProtoSchema
