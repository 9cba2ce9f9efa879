import ProtoSchema.Proofs.Plan.Distinct

/-! # The first free name of a oneof

While the enum of a oneof or its `Case` twin would have the name of a type nested in the message, the
name gets another `Oneof`. The search itself has no bound. It ends because the names it tries grow,
and it ends at the first one that is free.
-/

namespace ProtoSchema.OneofPlan

open Naming (typeIdent)

variable {taken : List String} {name result : String} {m : Message} {j k : Nat}

/-- A name with `Oneof` behind it, `k` times. -/
def lengthened (name : String) (k : Nat) : String :=
  name ++ String.join (List.replicate k "Oneof")

/-- A run of the search, from a name to a free one, in which `k` names turn out to be taken. -/
inductive Settles (taken : List String) : Nat → String → String → Prop where
  | free {name : String} : isTaken taken name = false → Settles taken 0 name name
  | again {k : Nat} {name result : String} : isTaken taken name = true →
      Settles taken k (name ++ "Oneof") result → Settles taken (k + 1) name result

theorem lengthened_zero (name : String) : lengthened name 0 = name := by
  simp [lengthened]

theorem lengthened_append (name : String) (k : Nat) :
    lengthened (name ++ "Oneof") k = lengthened name (k + 1) := by
  rw [lengthened, lengthened, List.replicate_succ, String.join_cons, String.append_assoc]

/-- A run goes through the lengthened names in order and stops at the first that is free. -/
theorem settles_iff : Settles taken k name result ↔ result = lengthened name k ∧
    isTaken taken result = false ∧ ∀ j < k, isTaken taken (lengthened name j) = true := by
  induction k generalizing name with
  | zero =>
    rw [lengthened_zero]
    constructor
    · rintro (hfree | _)
      exact ⟨rfl, hfree, fun j hj => absurd hj (Nat.not_lt_zero j)⟩
    · rintro ⟨rfl, hfree, -⟩
      exact .free hfree
  | succ k ih =>
    have hsplit : (∀ j < k + 1, isTaken taken (lengthened name j) = true) ↔
        isTaken taken name = true ∧
          ∀ j < k, isTaken taken (lengthened (name ++ "Oneof") j) = true := by
      simp only [Nat.forall_lt_succ_left, lengthened_zero, lengthened_append]
    rw [hsplit, ← lengthened_append]
    constructor
    · rintro (_ | ⟨htaken, hrest⟩)
      obtain ⟨hresult, hfree, hall⟩ := ih.1 hrest
      exact ⟨hresult, hfree, htaken, hall⟩
    · rintro ⟨hresult, hfree, htaken, hall⟩
      exact .again htaken (ih.2 ⟨hresult, hfree, hall⟩)

theorem Settles.unique {result' : String} (h : Settles taken k name result)
    (h' : Settles taken j name result') : j = k ∧ result' = result := by
  induction h generalizing j with
  | free hfree =>
    cases h' with
    | free => exact ⟨rfl, rfl⟩
    | again htaken => simp [hfree] at htaken
  | again htaken _ ih =>
    cases h' with
    | free hfree => simp [htaken] at hfree
    | again _ hrest =>
      obtain ⟨rfl, rfl⟩ := ih hrest
      exact ⟨rfl, rfl⟩

theorem exists_settles {rounds : Nat} (h : isTaken taken (freshName taken rounds name) = false) :
    ∃ k ≤ rounds, Settles taken k name (freshName taken rounds name) := by
  induction rounds generalizing name with
  | zero => exact ⟨0, Nat.le_refl 0, .free h⟩
  | succ rounds ih =>
    rw [freshName] at h ⊢
    split at h
    · next htaken =>
      obtain ⟨k, hk, hrest⟩ := ih h
      rw [if_pos htaken]
      exact ⟨k + 1, Nat.succ_le_succ hk, .again htaken hrest⟩
    · next hfree =>
      rw [if_neg hfree]
      exact ⟨0, Nat.zero_le _, .free h⟩

/-- Neither the name nor its `Case` twin is the identifier of a message or enum nested in `m`. -/
def IsFree (m : Message) (name : String) : Prop :=
  (∀ n ∈ m.messages, typeIdent n.name ≠ name ∧ typeIdent n.name ≠ name ++ "Case") ∧
    ∀ e ∈ m.enums, typeIdent e.name ≠ name ∧ typeIdent e.name ≠ name ++ "Case"

theorem isTaken_takenBy : isTaken (takenBy m) name = false ↔ IsFree m name := by
  simp only [isTaken, takenBy, IsFree, Bool.or_eq_false_iff, decide_eq_false_iff_not,
    List.mem_append, List.mem_map, not_or, not_exists, not_and]
  constructor
  · rintro ⟨⟨hmessages, henums⟩, hmessages', henums'⟩
    exact ⟨fun n hn => ⟨hmessages n hn, hmessages' n hn⟩, fun e he => ⟨henums e he, henums' e he⟩⟩
  · rintro ⟨hmessages, henums⟩
    exact ⟨⟨fun n hn => (hmessages n hn).1, fun e he => (henums e he).1⟩,
      fun n hn => (hmessages n hn).2, fun e he => (henums e he).2⟩

theorem Settles.isLeast (h : Settles (takenBy m) k name result) :
    IsLeast {j | IsFree m (lengthened name j)} k := by
  obtain ⟨rfl, hfree, htaken⟩ := settles_iff.1 h
  refine ⟨isTaken_takenBy.1 hfree, fun j hj => ?_⟩
  by_contra hlt
  have htrue := htaken j (Nat.not_le.1 hlt)
  rw [isTaken_takenBy.2 hj] at htrue
  cases htrue

/-- The enum of a oneof is named by the first free name. The search for it ends in every message: it
has just one run, with no more rounds than there are nested types, and that run ends at the oneof's
own type identifier with the least number of `Oneof`s behind it that makes the name and its `Case`
twin free. -/
theorem identOf_isLeast (m : Message) (o : Oneof) :
    ∃ k ≤ m.messages.length + m.enums.length,
      (∀ j result, Settles (takenBy m) j (typeIdent o.name) result ↔
        j = k ∧ result = identOf m o) ∧
      identOf m o = typeIdent o.name ++ String.join (List.replicate k "Oneof") ∧
      IsLeast {j | IsFree m (typeIdent o.name ++ String.join (List.replicate j "Oneof"))} k := by
  have hfree : isTaken (takenBy m) (identOf m o) = false := by
    simpa [isTaken] using identOf_not_mem m o
  obtain ⟨k, hk, hrun⟩ := exists_settles hfree
  refine ⟨k, ?_, fun j result => ⟨hrun.unique, ?_⟩, (settles_iff.1 hrun).1, hrun.isLeast⟩
  · simpa [takenBy] using hk
  · rintro ⟨rfl, rfl⟩
    exact hrun

/-- A nested message takes the first name, and a nested enum the `Case` twin of the second. -/
example : identOf ⟨"Event", ⟨1, 9⟩, [], [⟨"payload", []⟩], [⟨"Payload", ⟨2, 9⟩, [], [], [], []⟩],
    [⟨"PAYLOAD_oneof_case", ⟨3, 6⟩, []⟩]⟩ ⟨"payload", []⟩ = "PayloadOneofOneof" := by
  decide

end ProtoSchema.OneofPlan
