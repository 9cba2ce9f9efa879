import ProtoSchema.Proofs.Results
import ProtoSchema.Schema.WellFormed

/-! # What the checks decide

Each check of a schema passes exactly if a condition holds that does not speak of the order in which
things are looked at. A check of a message is one of its own fields, oneofs and type names, and then
of the types inside it.
-/

namespace ProtoSchema

section Fresh

variable {α : Type}

/-- The elements are distinct, and none of them was seen before. -/
def Fresh (seen as : List α) : Prop := as.Nodup ∧ ∀ a ∈ as, a ∉ seen

theorem fresh_nil (seen : List α) : Fresh seen [] := by
  simp [Fresh]

theorem fresh_cons {seen as : List α} {a : α} :
    Fresh seen (a :: as) ↔ a ∉ seen ∧ Fresh (a :: seen) as := by
  constructor
  · rintro ⟨hnodup, hnew⟩
    obtain ⟨ha, has⟩ := List.nodup_cons.1 hnodup
    refine ⟨hnew a List.mem_cons_self, has, ?_⟩
    rintro b hb hmem
    rcases List.mem_cons.1 hmem with rfl | hmem
    · exact ha hb
    · exact hnew b (List.mem_cons_of_mem a hb) hmem
  · rintro ⟨ha, has, hnew⟩
    constructor
    · exact List.nodup_cons.2 ⟨fun hmem => hnew a hmem List.mem_cons_self, has⟩
    · rintro b hb hmem
      rcases List.mem_cons.1 hb with rfl | hb
      · exact ha hmem
      · exact hnew b hb (List.mem_cons_of_mem a hmem)

theorem fresh_nil_iff {as : List α} : Fresh [] as ↔ as.Nodup := by
  simp [Fresh]

theorem checkDistinct_eq_ok [DecidableEq α] {defect : α → Defect} {seen as : List α} :
    checkDistinct defect seen as = .ok () ↔ Fresh seen as := by
  induction as generalizing seen with
  | nil => simp [checkDistinct, fresh_nil]
  | cons a as ih => rw [checkDistinct, fresh_cons, guard_eq_ok, ih]

end Fresh

theorem checkTypeNames_eq_ok {scope : String} {ms : List Message} {es : List Enum} :
    checkTypeNames scope ms es = .ok () ↔ (ms.map (·.name) ++ es.map (·.name)).Nodup :=
  checkDistinct_eq_ok.trans fresh_nil_iff

namespace Field

def IsNumber (n : Int) : Prop := 1 ≤ n ∧ n ≤ 536870911 ∧ ¬ (19000 ≤ n ∧ n ≤ 19999)

theorem check_eq_ok {path : String} {names : List String} {numbers : List Int} {f : Field} :
    f.check path names numbers = .ok () ↔
      f.name ∉ names ∧ f.number ∉ numbers ∧ IsNumber f.number := by
  have hrange : (¬ (f.number ≤ 0 || Defect.maxFieldNumber < f.number) = true ∧
      ¬ isReservedNumber f.number = true) ↔ IsNumber f.number := by
    have hmax : Defect.maxFieldNumber = 536870911 := rfl
    simp only [IsNumber, isReservedNumber, Bool.or_eq_true, decide_eq_true_eq, Bool.and_eq_true]
    omega
  rw [check, guard_eq_ok, guard_eq_ok, guard_eq_ok, guard_eq_ok, ← hrange]
  simp only [and_true]

theorem checkAll_eq_ok {path : String} {names : List String} {numbers : List Int}
    {fs : List Field} :
    checkAll path names numbers fs = .ok () ↔
      Fresh names (fs.map (·.name)) ∧ Fresh numbers (fs.map (·.number)) ∧
        ∀ f ∈ fs, IsNumber f.number := by
  induction fs generalizing names numbers with
  | nil => simp [checkAll, fresh_nil]
  | cons f fs ih =>
    rw [checkAll, seq_eq_ok, check_eq_ok, ih, List.map_cons, List.map_cons, fresh_cons, fresh_cons,
      List.forall_mem_cons]
    tauto

end Field

namespace Enum

/-- An enum has distinct names and numbers, and one of the numbers is zero. -/
structure WellFormed (e : Enum) : Prop where
  ne_nil : e.values ≠ []
  zero : e.values.countP (·.number = 0) = 1
  names : (e.values.map (·.name)).Nodup
  numbers : (e.values.map (·.number)).Nodup

theorem checkValues_eq_ok {path : String} {names : List String} {numbers : List Int}
    {vs : List EnumValue} :
    checkValues path names numbers vs = .ok () ↔
      Fresh names (vs.map (·.name)) ∧ Fresh numbers (vs.map (·.number)) := by
  induction vs generalizing names numbers with
  | nil => simp [checkValues, fresh_nil]
  | cons v vs ih =>
    rw [checkValues, List.map_cons, List.map_cons, fresh_cons, fresh_cons]
    rw [guard_eq_ok, guard_eq_ok, ih]
    tauto

theorem check_eq_ok {path : String} {e : Enum} : e.check path = .ok () ↔ e.WellFormed := by
  rw [check, guard_eq_ok, guard_eq_ok, checkValues_eq_ok, fresh_nil_iff, fresh_nil_iff,
    List.isEmpty_iff, zeros, not_not]
  constructor
  · rintro ⟨hne, hzero, hnames, hnumbers⟩
    exact ⟨hne, hzero, hnames, hnumbers⟩
  · rintro ⟨hne, hzero, hnames, hnumbers⟩
    exact ⟨hne, hzero, hnames, hnumbers⟩

theorem checkAll_eq_ok {pathOf : String → String} {es : List Enum} :
    checkAll pathOf es = .ok () ↔ ∀ e ∈ es, e.WellFormed := by
  induction es with
  | nil => simp [checkAll]
  | cons e es ih => rw [checkAll, seq_eq_ok, check_eq_ok, ih, List.forall_mem_cons]

end Enum

namespace Message

/-- What is asked of a message apart from the types inside it. -/
structure WellFormed (m : Message) : Prop where
  fieldNames : (m.allFields.map (·.name)).Nodup
  fieldNumbers : (m.allFields.map (·.number)).Nodup
  numbers : ∀ f ∈ m.allFields, Field.IsNumber f.number
  oneofNames : (m.oneofs.map (·.name)).Nodup
  typeNames : (m.messages.map (·.name) ++ m.enums.map (·.name)).Nodup

theorem check_eq_ok {path : String} {m : Message} :
    m.check path = .ok () ↔ m.WellFormed ∧ checkAll (path ++ "." ++ ·) m.messages = .ok () ∧
      ∀ e ∈ m.enums, e.WellFormed := by
  cases m with
  | mk name position fields oneofs messages enums =>
    rw [check, seq_eq_ok, seq_eq_ok, seq_eq_ok, seq_eq_ok, Field.checkAll_eq_ok,
      checkDistinct_eq_ok, checkTypeNames_eq_ok, Enum.checkAll_eq_ok, fresh_nil_iff, fresh_nil_iff,
      fresh_nil_iff]
    constructor
    · rintro ⟨⟨hnames, hnumbers, hrange⟩, honeofs, htypes, hmessages, henums⟩
      exact ⟨⟨hnames, hnumbers, hrange, honeofs, htypes⟩, hmessages, henums⟩
    · rintro ⟨⟨hnames, hnumbers, hrange, honeofs, htypes⟩, hmessages, henums⟩
      exact ⟨⟨hnames, hnumbers, hrange⟩, honeofs, htypes, hmessages, henums⟩

theorem checkAll_eq_ok {pathOf : String → String} {ms : List Message} :
    checkAll pathOf ms = .ok () ↔ ∀ m ∈ ms, m.check (pathOf m.name) = .ok () := by
  induction ms with
  | nil => simp [checkAll]
  | cons m ms ih => rw [checkAll, seq_eq_ok, ih, List.forall_mem_cons]

end Message

theorem Service.check_eq_ok {v : Service} : v.check = .ok () ↔ (v.rpcs.map (·.name)).Nodup :=
  checkDistinct_eq_ok.trans fresh_nil_iff

theorem Schema.check_eq_ok {s : Schema} :
    s.check = .ok () ↔ (s.messages.map (·.name) ++ s.enums.map (·.name)).Nodup ∧
      Message.checkAll id s.messages = .ok () ∧ (∀ e ∈ s.enums, e.WellFormed) ∧
        ∀ v ∈ s.services, (v.rpcs.map (·.name)).Nodup := by
  have hservices : ∀ vs : List Service, vs.forM Service.check = .ok () ↔
      ∀ v ∈ vs, (v.rpcs.map (·.name)).Nodup := by
    intro vs
    induction vs with
    | nil => simp [pure, Except.pure]
    | cons v vs ih =>
      rw [List.forM, seq_eq_ok, Service.check_eq_ok, ih, List.forall_mem_cons]
  rw [check, seq_eq_ok, seq_eq_ok, seq_eq_ok, checkTypeNames_eq_ok, Enum.checkAll_eq_ok, hservices]

end ProtoSchema
