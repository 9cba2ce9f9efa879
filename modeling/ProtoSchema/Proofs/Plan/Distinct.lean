import Mathlib.Data.List.Count
import ProtoSchema.Proofs.Plan.Contents

/-! # Distinct names in a module

A module is clear if its types, its modules and the names inside its blocks are distinct, and what
is inside its messages is clear. Some names are chosen with the others in mind: the enum of a oneof
never takes the name of a type beside it, and the methods of a client are always distinct.
-/

namespace ProtoSchema

open Naming (typeIdent moduleIdent)

/-- The methods of a client differ from each other and from those that every client has. -/
structure ServicePlan.Clear (v : ServicePlan) : Prop where
  methods : (v.rpcs.map (·.method)).Nodup
  own : Plan.clientMethods.Disjoint (v.rpcs.map (·.method))

namespace Source

/-- The types of a module. A oneof has an enum and its `Case` twin. -/
def typeNames (oneofs types clients : List String) : List String :=
  (oneofs.flatMap fun ident => [ident, ident ++ "Case"]) ++ types ++ clients

theorem namesOf_append (p : BlockKind → Bool) (bs cs : List Block) :
    namesOf p (bs ++ cs) = namesOf p bs ++ namesOf p cs := by
  simp [namesOf]

theorem namesOf_flatMap {α : Type} (p : BlockKind → Bool) (f : α → List Block) (xs : List α) :
    namesOf p (xs.flatMap f) = xs.flatMap fun x => namesOf p (f x) := by
  induction xs with
  | nil => rfl
  | cons x xs ih => rw [List.flatMap_cons, namesOf_append, ih, List.flatMap_cons]

variable {os : List OneofPlan} {ms : List MessagePlan} {es : List EnumPlan} {vs : List ServicePlan}

theorem types_levelBlocks : namesOf BlockKind.isType (levelBlocks os ms es vs) =
    typeNames (os.map (·.ident)) (ms.map (typeIdent ·.name) ++ es.map (·.ident))
      (vs.map (·.client)) := by
  have ho (o : OneofPlan) : namesOf BlockKind.isType o.blocks = [o.ident, o.ident ++ "Case"] := rfl
  have hm (m : MessagePlan) : namesOf BlockKind.isType m.blocks = [typeIdent m.name] := by
    rw [MessagePlan.blocks]
    split <;> split <;> rfl
  have he (e : EnumPlan) : namesOf BlockKind.isType e.blocks = [e.ident] := rfl
  have hv (v : ServicePlan) : namesOf BlockKind.isType v.blocks = [v.client] := by
    rw [ServicePlan.blocks]
    split <;> rfl
  simp [levelBlocks, typeNames, namesOf_append, namesOf_flatMap, ho, hm, he, hv,
    List.map_eq_flatMap, List.flatMap_assoc]

theorem modules_levelBlocks : namesOf (· = .module) (levelBlocks os ms es vs) =
    (ms.filter (·.hasModule)).map (moduleIdent ·.name) := by
  have ho (o : OneofPlan) : namesOf (· = .module) o.blocks = [] := rfl
  have hm (m : MessagePlan) : namesOf (· = .module) m.blocks =
      if m.hasModule then [moduleIdent m.name] else [] := by
    rw [MessagePlan.blocks]
    split <;> split <;> rfl
  have he (e : EnumPlan) : namesOf (· = .module) e.blocks = [] := rfl
  have hv (v : ServicePlan) : namesOf (· = .module) v.blocks = [] := by
    rw [ServicePlan.blocks]
    split <;> rfl
  have hfilter : (ms.flatMap fun m => if m.hasModule then [moduleIdent m.name] else []) =
      (ms.filter (·.hasModule)).map (moduleIdent ·.name) := by
    induction ms with
    | nil => rfl
    | cons m ms ih => cases h : m.hasModule <;> simp [h, ih]
  have hnil {α : Type} (xs : List α) : xs.flatMap (fun _ => ([] : List String)) = [] :=
    List.flatMap_eq_nil_iff.2 fun _ _ => rfl
  simp [levelBlocks, namesOf_append, namesOf_flatMap, ho, hm, he, hv, hfilter, hnil]

theorem forall_mem_levelBlocks {P : Block → Prop} : (∀ b ∈ levelBlocks os ms es vs, P b) ↔
    (∀ o ∈ os, ∀ b ∈ o.blocks, P b) ∧ (∀ m ∈ ms, ∀ b ∈ m.blocks, P b) ∧
      (∀ e ∈ es, ∀ b ∈ e.blocks, P b) ∧ ∀ v ∈ vs, ∀ b ∈ v.blocks, P b := by
  simp only [levelBlocks, List.forall_mem_append, List.forall_mem_flatMap, and_assoc]

theorem names_levelBlocks : (∀ b ∈ levelBlocks os ms es vs, b.names.Nodup) ↔
    (∀ o ∈ os, o.oneof.variants.Nodup) ∧ (∀ m ∈ ms, m.fieldNames.Nodup ∧ m.accessors.Nodup) ∧
      (∀ e ∈ es, (e.values.map (·.2)).Nodup) ∧ ∀ v ∈ vs, (v.rpcs.map (·.method)).Nodup := by
  have ho (o : OneofPlan) : (∀ b ∈ o.blocks, b.names.Nodup) ↔ o.oneof.variants.Nodup := by
    simp [OneofPlan.blocks]
  have hm (m : MessagePlan) : (∀ b ∈ m.blocks, b.names.Nodup) ↔
      m.fieldNames.Nodup ∧ m.accessors.Nodup := by
    rw [MessagePlan.blocks]
    split <;> split <;> simp_all [MessagePlan.accessors]
  have he (e : EnumPlan) : (∀ b ∈ e.blocks, b.names.Nodup) ↔ (e.values.map (·.2)).Nodup := by
    simp [EnumPlan.blocks]
  have hv (v : ServicePlan) : (∀ b ∈ v.blocks, b.names.Nodup) ↔ (v.rpcs.map (·.method)).Nodup := by
    rw [ServicePlan.blocks]
    split <;> simp_all [Plan.clientMethods]
  simp only [forall_mem_levelBlocks, ho, hm, he, hv]

theorem inside_levelBlocks {P : List Line → Prop} :
    (∀ b ∈ levelBlocks os ms es vs, b.kind = .module → P b.inside) ↔
      ∀ m ∈ ms, m.hasModule = true → P (level m.oneofs m.messages m.enums []) := by
  have ho (o : OneofPlan) : ∀ b ∈ o.blocks, b.kind = .module → P b.inside := by
    simp [OneofPlan.blocks]
  have hm (m : MessagePlan) : (∀ b ∈ m.blocks, b.kind = .module → P b.inside) ↔
      (m.hasModule = true → P (level m.oneofs m.messages m.enums [])) := by
    rw [MessagePlan.blocks]
    split <;> split <;> simp_all
  have he (e : EnumPlan) : ∀ b ∈ e.blocks, b.kind = .module → P b.inside := by
    simp [EnumPlan.blocks]
  have hv (v : ServicePlan) : ∀ b ∈ v.blocks, b.kind = .module → P b.inside := by
    rw [ServicePlan.blocks]
    split <;> simp
  rw [forall_mem_levelBlocks]
  refine ⟨fun h m hmem => (hm m).1 (h.2.1 m hmem), fun h => ?_⟩
  exact ⟨fun o _ => ho o, fun m hmem => (hm m).2 (h m hmem), fun e _ => he e, fun v _ => hv v⟩

theorem clients_levelBlocks : ∀ b ∈ levelBlocks os ms es vs,
    (b.kind = .clientMethods → ∃ v ∈ vs, b.name = v.client ∧ b.names = Plan.clientMethods) ∧
      (b.kind = .transportMethods →
        ∃ v ∈ vs, b.name = v.client ∧ b.names = v.rpcs.map (·.method)) := by
  rw [forall_mem_levelBlocks]
  refine ⟨by simp [OneofPlan.blocks], fun m _ => ?_, by simp [EnumPlan.blocks], fun v hv => ?_⟩
  · rw [MessagePlan.blocks]
    split <;> split <;> simp
  · have hclient : ∃ w ∈ vs, v.client = w.client := ⟨v, hv, rfl⟩
    have hmethods : ∃ w ∈ vs, v.client = w.client ∧
      v.rpcs.map (·.method) = w.rpcs.map (·.method) := ⟨v, hv, rfl, rfl⟩
    rw [ServicePlan.blocks]
    split
    · simp [hclient]
    · simp [hclient, hmethods]

theorem distinct_levelBlocks (hvs : ∀ v ∈ vs, v.Clear) : Distinct (levelBlocks os ms es vs) ↔
    (typeNames (os.map (·.ident)) (ms.map (typeIdent ·.name) ++ es.map (·.ident))
      (vs.map (·.client))).Nodup ∧
    ((ms.filter (·.hasModule)).map (moduleIdent ·.name)).Nodup ∧
    (∀ o ∈ os, o.oneof.variants.Nodup) ∧ (∀ m ∈ ms, m.fieldNames.Nodup ∧ m.accessors.Nodup) ∧
    ∀ e ∈ es, (e.values.map (·.2)).Nodup := by
  constructor
  · rintro ⟨htypes, hmodules, hnames, -⟩
    obtain ⟨hos, hms, hes, -⟩ := names_levelBlocks.1 hnames
    exact ⟨types_levelBlocks ▸ htypes, modules_levelBlocks ▸ hmodules, hos, hms, hes⟩
  · rintro ⟨htypes, hmodules, hos, hms, hes⟩
    refine ⟨types_levelBlocks ▸ htypes, modules_levelBlocks ▸ hmodules,
      names_levelBlocks.2 ⟨hos, hms, hes, fun v hv => (hvs v hv).methods⟩, ?_⟩
    intro b hb c hc hbk hck hname
    obtain ⟨v, hv, hvname, hvnames⟩ := (clients_levelBlocks b hb).1 hbk
    obtain ⟨w, hw, hwname, hwnames⟩ := (clients_levelBlocks c hc).2 hck
    have hclients : (vs.map (·.client)).Nodup := (List.nodup_append.1 htypes).2.1
    obtain rfl : v = w := List.inj_on_of_nodup_map hclients hv hw (by rw [← hvname, hname, hwname])
    rw [hvnames, hwnames]
    exact (hvs v hv).own

/-- What makes the code of a message clear: its own fields and methods, and its module. -/
structure ClearMessage (m : MessagePlan) : Prop where
  fields : m.fieldNames.Nodup
  methods : m.accessors.Nodup
  inside : Clear (level m.oneofs m.messages m.enums [])

theorem clear_nil : Clear [] := by
  refine ⟨⟨?_, ?_, ?_, ?_⟩, ?_⟩ <;> simp [outline, sections, namesOf]

theorem clear_level_iff (hos : ∀ o ∈ os, o.Plain) (hms : ∀ m ∈ ms, m.Plain)
    (hes : ∀ e ∈ es, e.Plain) (hvs : ∀ v ∈ vs, v.Plain) (hclients : ∀ v ∈ vs, v.Clear) :
    Clear (level os ms es vs) ↔
      (typeNames (os.map (·.ident)) (ms.map (typeIdent ·.name) ++ es.map (·.ident))
        (vs.map (·.client))).Nodup ∧
      ((ms.filter (·.hasModule)).map (moduleIdent ·.name)).Nodup ∧
      (∀ o ∈ os, o.oneof.variants.Nodup) ∧ (∀ e ∈ es, (e.values.map (·.2)).Nodup) ∧
      ∀ m ∈ ms, ClearMessage m := by
  rw [clear_iff, (outlines_level hos hms hes hvs).outline_eq, distinct_levelBlocks hclients,
    inside_levelBlocks]
  constructor
  · rintro ⟨⟨htypes, hmodules, hos, hms, hes⟩, hinside⟩
    refine ⟨htypes, hmodules, hos, hes, fun m hm => ⟨(hms m hm).1, (hms m hm).2, ?_⟩⟩
    cases hmodule : m.hasModule with
    | true => exact hinside m hm hmodule
    | false =>
      have hnil : level m.oneofs m.messages m.enums [] = [] := by
        simp only [MessagePlan.hasModule, Bool.not_eq_false', Bool.and_eq_true,
          List.isEmpty_iff] at hmodule
        obtain ⟨⟨honeofs, hmessages⟩, henums⟩ := hmodule
        rw [honeofs, hmessages, henums]
        rfl
      rw [hnil]
      exact clear_nil
  · rintro ⟨htypes, hmodules, hos, hes, hms⟩
    exact ⟨⟨htypes, hmodules, hos, fun m hm => ⟨(hms m hm).fields, (hms m hm).methods⟩, hes⟩,
      fun m hm _ => (hms m hm).inside⟩

end Source

theorem countP_lt_countP {α : Type} {p q : α → Bool} {xs : List α} {x : α}
    (h : ∀ y ∈ xs, q y = true → p y = true) (hx : x ∈ xs) (hp : p x = true) (hq : q x = false) :
    xs.countP q < xs.countP p := by
  have hfilter : xs.countP q = (xs.filter p).countP q := by
    rw [List.countP_filter]
    exact List.countP_congr fun y hy => by simpa using h y hy
  rw [hfilter, List.countP_eq_length_filter (p := p)]
  exact List.countP_lt_length_iff.2 ⟨x, List.mem_filter.2 ⟨hx, hp⟩, hq⟩

namespace OneofPlan

/-- Each round uses up a name that is not shorter than the one that is tried. -/
theorem isTaken_freshName {taken : List String} {rounds : Nat} {name : String}
    (h : taken.countP (name.length ≤ ·.length) ≤ rounds) :
    isTaken taken (freshName taken rounds name) = false := by
  induction rounds generalizing name with
  | zero =>
    rw [Nat.le_zero, List.countP_eq_zero] at h
    have hself : name ∉ taken := fun hmem => h name hmem (by simp)
    have hcase : name ++ "Case" ∉ taken := fun hmem => h _ hmem (by simp)
    simp [freshName, isTaken, hself, hcase]
  | succ rounds ih =>
    rw [freshName]
    split
    · next htaken =>
      apply ih
      have hused : ∃ used ∈ taken, name.length ≤ used.length ∧ used.length < name.length + 5 := by
        simp only [isTaken, Bool.or_eq_true, decide_eq_true_eq] at htaken
        rcases htaken with hmem | hmem
        · exact ⟨name, hmem, by omega, by omega⟩
        · refine ⟨name ++ "Case", hmem, by simp, ?_⟩
          rw [String.length_append]
          exact Nat.add_lt_add_left (by decide) _
      obtain ⟨used, hmem, hle, hlt⟩ := hused
      have hcount : taken.countP ((name ++ "Oneof").length ≤ ·.length) <
          taken.countP (name.length ≤ ·.length) := by
        rw [String.length_append]
        refine countP_lt_countP (fun x _ hx => ?_) hmem (decide_eq_true hle) (decide_eq_false ?_)
        · exact decide_eq_true (le_trans (Nat.le_add_right _ _) (of_decide_eq_true hx))
        · exact Nat.not_le.2 hlt
      omega
    · next hfree => simpa using hfree

theorem isPlain_freshName {taken : List String} {rounds : Nat} {name : String}
    (h : IsPlain name.toList) : IsPlain (freshName taken rounds name).toList := by
  induction rounds generalizing name with
  | zero => exact h
  | succ rounds ih =>
    rw [freshName]
    split
    · exact ih (Source.isPlain_append h (List.all_eq_true.1 rfl))
    · exact h

theorem identOf_not_mem (m : Message) (o : Oneof) :
    identOf m o ∉ takenBy m ∧ identOf m o ++ "Case" ∉ takenBy m := by
  have h : isTaken (takenBy m) (identOf m o) = false := isTaken_freshName List.countP_le_length
  simpa [isTaken] using h

end OneofPlan

namespace Plan

theorem isPlain_rpcIdent {name : String} (h : IsPlain name.toList) :
    IsPlain (rpcIdent name).toList := by
  rw [rpcIdent]
  split
  · exact Source.isPlain_append (Naming.isPlain_fieldIdent h) (List.all_eq_true.1 rfl)
  · exact Naming.isPlain_fieldIdent h

theorem rpcIdent_not_mem (name : String) : rpcIdent name ∉ clientMethods := by
  rw [rpcIdent]
  split
  · next h =>
    simp only [clientMethods, List.mem_cons, List.not_mem_nil, or_false] at h
    rcases h with h | h | h <;> rw [h] <;> decide
  · next h => exact h

theorem nodup_of_checkMethods {service : String} {seen : List (String × String)} {rs : List Rpc}
    (h : checkMethods service seen rs = .ok ()) : (rs.map (rpcIdent ·.name)).Nodup ∧
      (rs.map (rpcIdent ·.name)).Disjoint (seen.map (·.1)) := by
  induction rs generalizing seen with
  | nil => simp
  | cons r rs ih =>
    rw [checkMethods] at h
    split at h
    · cases h
    · next hnone =>
      obtain ⟨hnodup, hdisjoint⟩ := ih h
      rw [List.map_cons, List.disjoint_cons_right] at hdisjoint
      rw [List.map_cons, List.nodup_cons, List.disjoint_cons_left]
      refine ⟨⟨hdisjoint.1, hnodup⟩, ?_, hdisjoint.2⟩
      intro hmem
      obtain ⟨x, hx, heq⟩ := List.mem_map.1 hmem
      have hne := List.lookup_eq_none_iff.1 hnone x hx
      simp [heq] at hne

end Plan

end ProtoSchema
