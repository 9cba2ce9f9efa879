import ProtoSchema.Error
import ProtoSchema.Proofs.TypeRef.Lookup

/-! # Well-formed schemas

A schema is well formed if its own names are distinct and every message and enum that it declares, at
any depth, is well formed. The check of a schema decides this.
-/

namespace ProtoSchema

def TypeDef.WellFormed : TypeDef → Prop
  | message m => m.WellFormed
  | enum e => e.WellFormed

theorem Declared.wellFormed {ms : List Message} {es : List Enum} {path : List String} {d : TypeDef}
    {pathOf : String → String} (h : Declared ms es path d)
    (hms : Message.checkAll pathOf ms = .ok ()) (hes : ∀ e ∈ es, e.WellFormed) : d.WellFormed := by
  induction h generalizing pathOf with
  | message hm => exact (Message.check_eq_ok.1 (Message.checkAll_eq_ok.1 hms _ hm)).1
  | enum he => exact hes _ he
  | inner hm _ ih =>
    obtain ⟨-, hmessages, henums⟩ := Message.check_eq_ok.1 (Message.checkAll_eq_ok.1 hms _ hm)
    exact ih hmessages henums

mutual

theorem Message.check_of_declared : ∀ (m : Message) (path : String),
    (∀ p d, Declared [m] [] p d → d.WellFormed) → m.check path = .ok ()
  | ⟨name, position, fields, oneofs, messages, enums⟩, path, h => by
    have hinner : ∀ p d, Declared messages enums p d → d.WellFormed := fun p d hd =>
      h _ d (.inner (List.mem_singleton_self _) hd)
    apply Message.check_eq_ok.2
    refine ⟨h _ _ (.message (List.mem_singleton_self _)), ?_, ?_⟩
    · apply Message.checkAll_of_declared messages
      exact fun p d hd => hinner p d (hd.mono (List.Subset.refl _) (List.nil_subset _))
    · exact fun e he => hinner _ _ (.enum he)

theorem Message.checkAll_of_declared : ∀ (ms : List Message) (pathOf : String → String),
    (∀ p d, Declared ms [] p d → d.WellFormed) → Message.checkAll pathOf ms = .ok ()
  | [], pathOf, _ => by rw [Message.checkAll]
  | m :: ms, pathOf, h => by
    rw [Message.checkAll, seq_eq_ok]
    constructor
    · apply Message.check_of_declared m
      exact fun p d hd => h p d (hd.mono (by simp) (List.Subset.refl _))
    · apply Message.checkAll_of_declared ms
      exact fun p d hd => h p d (hd.mono (List.subset_cons_self m ms) (List.Subset.refl _))

end

namespace Schema

variable {s : Schema}

/-- Type names are distinct in the file, rpc names in each service, and all types are well formed. -/
structure WellFormed (s : Schema) : Prop where
  typeNames : (s.messages.map (·.name) ++ s.enums.map (·.name)).Nodup
  types : ∀ path d, s.Declares path d → d.WellFormed
  rpcNames : ∀ v ∈ s.services, (v.rpcs.map (·.name)).Nodup

theorem wellFormed_iff : s.WellFormed ↔ s.check = .ok () := by
  rw [check_eq_ok]
  constructor
  · rintro ⟨hnames, htypes, hrpcs⟩
    refine ⟨hnames, ?_, fun e he => htypes _ _ (.enum he), hrpcs⟩
    apply Message.checkAll_of_declared
    exact fun p d hd => htypes p d (hd.mono (List.Subset.refl _) (List.nil_subset _))
  · rintro ⟨hnames, hmessages, henums, hrpcs⟩
    exact ⟨hnames, fun path d hd => Declared.wellFormed hd hmessages henums, hrpcs⟩

theorem exists_error_iff : (∃ d, s.check = .error d) ↔ ¬ s.WellFormed := by
  rw [wellFormed_iff]
  cases s.check <;> simp

theorem compile_of_read {text : String} (h : read text = .ok s) :
    compile text = (s.check.mapError .defect).map fun _ => s := by
  simp only [compile, h, bind, Except.bind]
  cases s.check <;> rfl

/-- The check passes the well-formed schemas and finds a defect in all others. So a text that can be
read compiles to its schema, or the error is a defect of that schema. -/
theorem check_decides_wellFormed (s : Schema) :
    (s.check = .ok () ↔ s.WellFormed) ∧ ((∃ d, s.check = .error d) ↔ ¬ s.WellFormed) ∧
      ∀ text, read text = .ok s →
        (compile text = .ok s ↔ s.WellFormed) ∧
          ((∃ d, compile text = .error (.defect d)) ↔ ¬ s.WellFormed) := by
  refine ⟨wellFormed_iff.symm, exists_error_iff, fun text htext => ?_⟩
  rw [compile_of_read htext, wellFormed_iff]
  cases s.check with
  | error d => simp [Except.mapError, Except.map]
  | ok u => simp [Except.mapError, Except.map]

def withoutZero : Schema where
  messages := [⟨"A", ⟨1, 9⟩, [], [], [⟨"B", ⟨1, 21⟩, [], [],
    [], [⟨"E", ⟨1, 30⟩, [⟨"X", 1, false⟩]⟩]⟩], []⟩]

theorem check_decides_withoutZero :
    ¬ withoutZero.WellFormed ∧ ∃ d, compile
      "message A \x7b message B \x7b enum E \x7b X = 1; \x7d \x7d \x7d" = .error (.defect d) := by
  have hread : read "message A \x7b message B \x7b enum E \x7b X = 1; \x7d \x7d \x7d" =
      .ok withoutZero := by decide +kernel
  have hnot : ¬ withoutZero.WellFormed :=
    (check_decides_wellFormed withoutZero).2.1.1 ⟨.zeroCount "A.B.E" 0, by decide +kernel⟩
  exact ⟨hnot, ((check_decides_wellFormed withoutZero).2.2 _ hread).2.2 hnot⟩

end Schema

end ProtoSchema
