import ProtoSchema.Proofs.Value.Entries

/-! # One member or none

A oneof is read in one pass over the entries of its object, which remembers the first member and stops
at a second. What the pass says depends on the entries with accepted keys alone: none of them, the only
one, or the first two. Hence the oneofs of a message do not see each other.
-/

namespace ProtoSchema

def WholeValues (es : List (String × Json)) : Prop := ∀ e ∈ es, e.2.isWhole = true

namespace Members

variable {α : Type} {oneof : String} {accepts : String → Bool}
  {decode : String → Json → Except ReadFault α} {es : List (String × Json)}

/-- The entries with an accepted key, in their order. -/
def own (accepts : String → Bool) (es : List (String × Json)) : List (String × Json) :=
  es.filter fun e => accepts e.1

/-- What stands behind a first member: nothing, or a second one that is an error. -/
def alone (oneof key : String) (a : α) : List (String × Json) → Except ReadFault (Option α)
  | [] => .ok (some a)
  | e :: _ => .error (.misfit (.severalMembers oneof key e.1))

/-- What the entries with accepted keys say. The first value is read before a second key is seen. -/
def pick (oneof : String) (decode : String → Json → Except ReadFault α) :
    List (String × Json) → Except ReadFault (Option α)
  | [] => .ok none
  | e :: rest => do alone oneof e.1 (← decode e.1 e.2) rest

theorem own_cons_pos {e : String × Json} (h : accepts e.1 = true) :
    own accepts (e :: es) = e :: own accepts es :=
  List.filter_cons_of_pos h

theorem own_cons_neg {e : String × Json} (h : accepts e.1 = false) :
    own accepts (e :: es) = own accepts es :=
  List.filter_cons_of_neg (by simp [h])

theorem readAfter_some (h : WholeValues es) (key : String) (a : α) :
    readAfter oneof accepts decode (some (key, a)) (asEntries es) =
      alone oneof key a (own accepts es) := by
  induction es with
  | nil => rfl
  | cons e es ih =>
    obtain ⟨hwhole, hes⟩ := List.forall_mem_cons.1 h
    change readAfter oneof accepts decode _ ((some e.1, e.2) :: asEntries es) = _
    cases hkey : accepts e.1 with
    | true =>
      rw [own_cons_pos hkey]
      simp [readAfter, hkey, alone]
    | false =>
      rw [own_cons_neg hkey, ← ih hes]
      simp [readAfter, hkey, hwhole]

theorem read_asEntries (h : WholeValues es) :
    read oneof accepts decode (asEntries es) = pick oneof decode (own accepts es) := by
  rw [read]
  induction es with
  | nil => rfl
  | cons e es ih =>
    obtain ⟨hwhole, hes⟩ := List.forall_mem_cons.1 h
    change readAfter oneof accepts decode none ((some e.1, e.2) :: asEntries es) = _
    cases hkey : accepts e.1 with
    | true =>
      rw [own_cons_pos hkey]
      simp [readAfter, hkey, Json.isBare_of_isWhole hwhole, pick, readAfter_some hes]
    | false =>
      rw [own_cons_neg hkey, ← ih hes]
      simp [readAfter, hkey, hwhole]

theorem pick_singleton {e : String × Json} :
    pick oneof decode [e] = (decode e.1 e.2).map some := by
  cases h : decode e.1 e.2 <;> simp [pick, alone, h, bind, Except.bind, Except.map]

theorem exists_pick_eq_error (oneof : String) (decode : String → Json → Except ReadFault α)
    (e e' : String × Json) (rest : List (String × Json)) :
    ∃ fault, pick oneof decode (e :: e' :: rest) = .error fault := by
  cases h : decode e.1 e.2 <;> simp [pick, alone, h, bind, Except.bind]

theorem pick_eq_none : pick oneof decode es = .ok none ↔ es = [] := by
  rcases es with _ | ⟨e, _ | ⟨e', rest⟩⟩
  · simp [pick]
  · rw [pick_singleton]
    cases decode e.1 e.2 <;> simp [Except.map]
  · obtain ⟨fault, h⟩ := exists_pick_eq_error oneof decode e e' rest
    simp [h]

theorem pick_eq_some {a : α} :
    pick oneof decode es = .ok (some a) ↔ ∃ e, es = [e] ∧ decode e.1 e.2 = .ok a := by
  rcases es with _ | ⟨e, _ | ⟨e', rest⟩⟩
  · simp [pick]
  · rw [pick_singleton]
    cases h : decode e.1 e.2 <;> simp [Except.map, h]
  · obtain ⟨fault, h⟩ := exists_pick_eq_error oneof decode e e' rest
    simp [h]

theorem exists_pick_error_iff : (∃ fault, pick oneof decode es = .error fault) ↔
    2 ≤ es.length ∨ ∃ e fault, es = [e] ∧ decode e.1 e.2 = .error fault := by
  rcases es with _ | ⟨e, _ | ⟨e', rest⟩⟩
  · simp [pick]
  · rw [pick_singleton]
    cases h : decode e.1 e.2 <;> simp [Except.map, h]
  · simp [exists_pick_eq_error]

end Members

open Members

namespace OneofType

def Apart (o o' : OneofType) : Prop := ∀ key, o.accepts key = true → o'.accepts key = false

theorem Apart.symm {o o' : OneofType} (h : o.Apart o') : o'.Apart o := by
  intro key hk
  cases hkey : o.accepts key with
  | false => rfl
  | true => rw [← hk, h key hkey]

instance : Std.Symm Apart := ⟨fun _ _ => Apart.symm⟩

theorem read_asEntries_congr {o : OneofType} {one : Shape → Json → Except ReadFault Value}
    {es es' : List (String × Json)} (h : WholeValues es) (h' : WholeValues es')
    (hown : own o.accepts es = own o.accepts es') :
    o.read one (asEntries es) = o.read one (asEntries es') := by
  have hread : Members.read o.name o.accepts (o.readMember one) (asEntries es) =
      Members.read o.name o.accepts (o.readMember one) (asEntries es') := by
    rw [read_asEntries h, read_asEntries h', hown]
  exact congrArg (· >>= fun pick => pure (pick.getD .absent)) hread

end OneofType

namespace MessageType

variable {m : MessageType} {es es' : List (String × Json)}

/-- No key of a oneof belongs to a plain field or to another oneof. -/
structure KeysApart (m : MessageType) : Prop where
  plain : ∀ o ∈ m.oneofs, ∀ key, o.accepts key = true → m.accepts key = false
  oneofs : m.oneofs.Pairwise OneofType.Apart

theorem Coherent.keysApart (hm : m.Coherent) : m.KeysApart where
  plain o ho key hk := by simp [accepts, hm.accepts_member ho hk]
  oneofs := by
    have hapart := (List.pairwise_flatMap.1 (List.pairwise_append.1 hm.apart).2.1).2
    apply hapart.imp
    intro o o' h key hk
    obtain ⟨f, hf⟩ := Option.isSome_iff_exists.1 hk
    have hfk : f.accepts key = true := by simpa using List.find?_some hf
    have hnone : o'.member? key = none := by
      apply List.find?_eq_none.2
      intro g hg
      simp [(h f (List.mem_of_find?_eq_some hf) g hg).accepts hfk]
    simp [OneofType.accepts, hnone]

theorem otherEntries_asEntries (m : MessageType) (es : List (String × Json)) :
    m.otherEntries (asEntries es) = asEntries (own (fun key => !m.accepts key) es) := by
  rw [otherEntries, asEntries, List.filter_map]
  apply congrArg
  apply List.filter_congr
  intro e _
  simp [accepts]

theorem own_own {p q : String → Bool} (h : ∀ key, p key = true → q key = true) :
    own p (own q es) = own p es := by
  rw [own, own, List.filter_filter, own]
  apply List.filter_congr
  intro e _
  cases hp : p e.1 with
  | false => rfl
  | true => simp [h e.1 hp]

theorem KeysApart.own_others (hm : m.KeysApart) {o : OneofType} (ho : o ∈ m.oneofs) :
    own o.accepts (own (fun key => !m.accepts key) es) = own o.accepts es :=
  own_own fun key hk => by simp [hm.plain o ho key hk]

/-- Reads a message when each oneof is shown its own entries only. -/
def readApart (m : MessageType) (inside : Interior) (access : Access) (es : List (String × Json)) :
    Except ReadFault Value := do
  let seen ← m.readEntries (inside.read access) (m.skips inside.room) [] (asEntries es)
  let picks ← m.oneofs.mapM fun o => o.read (inside.read .kept) (asEntries (own o.accepts es))
  return .record (m.arrange seen) picks

theorem passable_of_readEntries {one : Shape → Json → Except ReadFault Value} {other : Json → Bool}
    {seen out : List (String × Value)} {es : List (Option String × Json)}
    (h : m.readEntries one other seen es = .ok out) : Passable m.accepts other es := by
  induction es generalizing seen with
  | nil => exact fun e he => nomatch he
  | cons e es ih =>
    obtain ⟨key?, j⟩ := e
    cases key? with
    | none => cases h
    | some key =>
      rw [passable_cons]
      cases hkey : m.field? key with
      | none =>
        simp only [readEntries, hkey] at h
        split at h
        · next hother => exact ⟨.inr hother, ih h⟩
        · cases h
      | some f =>
        simp only [readEntries, hkey] at h
        split at h
        · cases h
        · obtain ⟨v, -, h⟩ := bind_eq_ok.1 h
          exact ⟨.inl (by simp [accepts, hkey]), ih h⟩

theorem wholeValues_others {room : Nat} (h : Passable m.accepts (m.skips room) (asEntries es))
    {o : OneofType} (ho : o ∈ m.oneofs) : WholeValues (own (fun key => !m.accepts key) es) := by
  intro e he
  obtain ⟨hmem, hnot⟩ := List.mem_filter.1 he
  obtain ⟨key, hkey, hskip⟩ := h (some e.1, e.2) (List.mem_map_of_mem hmem)
  cases hkey
  have hnot : m.accepts e.1 = false := by simpa using hnot
  have hreadable : e.2.isReadable room = true := by
    simpa [skips, List.ne_nil_of_mem ho, hnot] using hskip
  exact Json.isWhole_of_isReadable _ hreadable

theorem readObject_asEntries (hm : m.KeysApart) (inside : Interior) (access : Access)
    (es : List (String × Json)) :
    m.readObject inside access (asEntries es) true = m.readApart inside access es := by
  have hobject : m.readObject inside access (asEntries es) true = (do
      let seen ← m.readEntries (inside.read access) (m.skips inside.room) [] (asEntries es)
      let picks ← m.oneofs.mapM fun o => o.read (inside.read .kept) (m.otherEntries (asEntries es))
      return .record (m.arrange seen) picks) := rfl
  rw [hobject, readApart]
  cases hseen : m.readEntries (inside.read access) (m.skips inside.room) [] (asEntries es) with
  | error fault => rfl
  | ok seen =>
    have hpass := passable_of_readEntries hseen
    have hpicks : m.oneofs.mapM (fun o => o.read (inside.read .kept) (m.otherEntries (asEntries es))) =
        m.oneofs.mapM fun o => o.read (inside.read .kept) (asEntries (own o.accepts es)) := by
      apply mapM_congr_mem
      intro o ho
      have hwhole := wholeValues_others hpass ho
      rw [otherEntries_asEntries, ← hm.own_others ho]
      apply OneofType.read_asEntries_congr hwhole
      · exact fun e he => hwhole e (List.mem_of_mem_filter he)
      · exact (own_own fun _ h => h).symm
    rw [hpicks]

theorem KeysApart.read_otherEntries (hm : m.KeysApart) {o o' : OneofType} (ho : o ∈ m.oneofs)
    (ho' : o' ∈ m.oneofs) (hne : o ≠ o') (h : WholeValues es) (h' : WholeValues es')
    (hsame : own (fun key => !o'.accepts key) es' = own (fun key => !o'.accepts key) es)
    (one : Shape → Json → Except ReadFault Value) :
    o.read one (m.otherEntries (asEntries es')) = o.read one (m.otherEntries (asEntries es)) := by
  have hapart : o.Apart o' := hm.oneofs.forall ho ho' hne
  have hown (es : List (String × Json)) :
      own o.accepts (own (fun key => !o'.accepts key) es) = own o.accepts es :=
    own_own fun key hk => by simp [hapart key hk]
  rw [otherEntries_asEntries, otherEntries_asEntries]
  apply OneofType.read_asEntries_congr
  · exact fun e he => h' e (List.mem_of_mem_filter he)
  · exact fun e he => h e (List.mem_of_mem_filter he)
  · rw [hm.own_others ho, hm.own_others ho, ← hown es', hsame, hown]

end MessageType

/-- A oneof is absent if no entry has a key of its own, set if just one has and its value can be read,
and an error otherwise. Entries with other keys do not matter. So a message is read as if each of its
oneofs saw its own entries only, and entries of one oneof do not matter to another. -/
theorem read_own_entries {α : Type} (oneof : String) (accepts : String → Bool)
    (decode : String → Json → Except ReadFault α) (es : List (String × Json)) (h : WholeValues es)
    (m : MessageType) (hm : m.KeysApart) (inside : Interior) (access : Access) :
    (Members.read oneof accepts decode (asEntries es) = .ok none ↔ own accepts es = []) ∧
      (∀ a, Members.read oneof accepts decode (asEntries es) = .ok (some a) ↔
        ∃ e, own accepts es = [e] ∧ decode e.1 e.2 = .ok a) ∧
      ((∃ fault, Members.read oneof accepts decode (asEntries es) = .error fault) ↔
        2 ≤ (own accepts es).length ∨
          ∃ e fault, own accepts es = [e] ∧ decode e.1 e.2 = .error fault) ∧
      (∀ es', WholeValues es' → own accepts es' = own accepts es →
        Members.read oneof accepts decode (asEntries es') =
          Members.read oneof accepts decode (asEntries es)) ∧
      m.readObject inside access (asEntries es) true = m.readApart inside access es ∧
      (∀ o ∈ m.oneofs, ∀ o' ∈ m.oneofs, o ≠ o' → ∀ es', WholeValues es' →
        own (fun key => !o'.accepts key) es' = own (fun key => !o'.accepts key) es →
        o.read (inside.read .kept) (m.otherEntries (asEntries es')) =
          o.read (inside.read .kept) (m.otherEntries (asEntries es))) := by
  rw [read_asEntries h]
  refine ⟨pick_eq_none, fun _ => pick_eq_some, exists_pick_error_iff, ?_, ?_, ?_⟩
  · intro es' h' hown
    rw [read_asEntries h', hown]
  · exact MessageType.readObject_asEntries hm inside access es
  · intro o ho o' ho' hne es' h' hsame
    exact hm.read_otherEntries ho ho' hne h h' hsame _

namespace Parcel

def weight : OneofType :=
  ⟨"weight", [⟨"in_grams", 2, ⟨.implicit, .scalar .int32⟩⟩,
    ⟨"in_pounds", 3, ⟨.implicit, .scalar .int32⟩⟩]⟩

def address : OneofType :=
  ⟨"address", [⟨"to_street", 4, ⟨.implicit, .scalar .string⟩⟩,
    ⟨"to_box", 5, ⟨.implicit, .scalar .int32⟩⟩]⟩

/-- A parcel has a weight in one of two units, and one of two addresses. -/
def message : MessageType where
  name := "Parcel"
  fields := [⟨"id", 1, ⟨.implicit, .scalar .string⟩⟩]
  oneofs := [weight, address]

theorem keysApart_message : message.KeysApart := by
  have hapart : message.parts.Pairwise FieldType.Apart := by decide +kernel
  have htypes : ∀ f ∈ message.parts, f.slot.type.Coherent := by decide +kernel
  exact MessageType.Coherent.keysApart ⟨hapart, htypes⟩

/-- The weight is given twice, under both of its keys, with the address in between. -/
def entries : List (String × Json) :=
  [("id", .string (some "p")), ("note", .list []), ("inGrams", .number "5"),
    ("to_box", .number "7"), ("in_grams", .number "6")]

def inside : Interior := ⟨0, Catalog.read {} 0⟩

theorem wholeValues_entries : WholeValues entries := by
  simp [WholeValues, entries, Json.isWhole, Json.list, Json.wholeItems]

/-- The address is read, but the weight is refused. -/
theorem read_own_entries_parcel :
    WholeValues entries ∧ message.KeysApart ∧
      Members.read "address" address.accepts (address.readMember (inside.read .kept))
        (asEntries entries) = .ok (some (.member "to_box" (.int 7))) ∧
      (∃ fault, Members.read "weight" weight.accepts (weight.readMember (inside.read .kept))
        (asEntries entries) = .error fault) ∧
      message.readObject inside .streamed (asEntries entries) true =
        message.readApart inside .streamed entries := by
  obtain ⟨-, hsome, -, -, hobject, -⟩ := read_own_entries "address" address.accepts
    (address.readMember (inside.read .kept)) entries wholeValues_entries message keysApart_message
    inside .streamed
  obtain ⟨-, -, herror, -⟩ := read_own_entries "weight" weight.accepts
    (weight.readMember (inside.read .kept)) entries wholeValues_entries message keysApart_message
    inside .streamed
  refine ⟨wholeValues_entries, keysApart_message, ?_, ?_, hobject⟩
  · exact (hsome _).2 ⟨("to_box", .number "7"), rfl, rfl⟩
  · exact herror.2 (.inl (by decide +kernel))

end Parcel

end ProtoSchema
