import ProtoSchema.Proofs.Schema.Checks
import ProtoSchema.TypeRef

/-! # Looking up types

A file declares types at paths of names. The list of its types and the lookup by path both follow
the declarations, and where type names are distinct in every scope a path leads to one type only.
-/

namespace ProtoSchema

/-- A type that is declared at the given path below messages and enums. -/
inductive Declared : List Message → List Enum → List String → TypeDef → Prop
  | message {ms : List Message} {es : List Enum} {m : Message} (hm : m ∈ ms) :
      Declared ms es [m.name] (.message m)
  | enum {ms : List Message} {es : List Enum} {e : Enum} (he : e ∈ es) :
      Declared ms es [e.name] (.enum e)
  | inner {ms : List Message} {es : List Enum} {m : Message} {path : List String} {d : TypeDef}
      (hm : m ∈ ms) (h : Declared m.messages m.enums path d) : Declared ms es (m.name :: path) d

namespace Declared

variable {ms ms' : List Message} {es es' : List Enum} {path : List String} {d : TypeDef}

theorem ne_nil (h : Declared ms es path d) : path ≠ [] := by
  cases h <;> simp

theorem getLast? (h : Declared ms es path d) : path.getLast? = some d.name := by
  induction h with
  | message _ => rfl
  | enum _ => rfl
  | inner _ h ih =>
    obtain ⟨name, rest, rfl⟩ := List.exists_cons_of_ne_nil h.ne_nil
    rwa [List.getLast?_cons_cons]

theorem exists_cons (h : Declared ms es path d) :
    ∃ name rest, path = name :: rest ∧ name ∈ ms.map (·.name) ++ es.map (·.name) := by
  cases h with
  | message hm => exact ⟨_, _, rfl, List.mem_append_left _ (List.mem_map_of_mem hm)⟩
  | enum he => exact ⟨_, _, rfl, List.mem_append_right _ (List.mem_map_of_mem he)⟩
  | inner hm _ => exact ⟨_, _, rfl, List.mem_append_left _ (List.mem_map_of_mem hm)⟩

theorem mono (h : Declared ms es path d) (hm : ms ⊆ ms') (he : es ⊆ es') :
    Declared ms' es' path d := by
  cases h with
  | message hmem => exact .message (hm hmem)
  | enum hmem => exact .enum (he hmem)
  | inner hmem h => exact .inner (hm hmem) h

theorem append {m : Message} {rest : List String} (h : Declared ms es path (.message m))
    (hd : Declared m.messages m.enums rest d) : Declared ms es (path ++ rest) d := by
  generalize hm : TypeDef.message m = x at h
  induction h with
  | message hmem =>
    cases hm
    exact .inner hmem hd
  | enum => cases hm
  | inner hmem _ ih => exact .inner hmem (ih hm)

end Declared

mutual

theorem declared_of_mem_walkMessage : ∀ (m : Message) (scope : List String) {path : List String}
    {d : TypeDef}, (path, d) ∈ walkMessage scope m →
    ∃ inner, path = scope ++ inner ∧ Declared [m] [] inner d
  | ⟨name, position, fields, oneofs, messages, enums⟩, scope, path, d, h => by
    rw [walkMessage, List.mem_cons, List.mem_append] at h
    rcases h with h | h | h
    · obtain ⟨rfl, rfl⟩ := Prod.mk.inj h
      exact ⟨[name], rfl, .message (List.mem_singleton_self _)⟩
    · obtain ⟨inner, rfl, hd⟩ := declared_of_mem_walkMessages messages _ h
      refine ⟨name :: inner, by simp, .inner (List.mem_singleton_self _) ?_⟩
      exact hd.mono (List.Subset.refl _) (List.nil_subset _)
    · obtain ⟨e, he, heq⟩ := List.mem_map.1 h
      obtain ⟨rfl, rfl⟩ := Prod.mk.inj heq
      exact ⟨[name, e.name], by simp, .inner (List.mem_singleton_self _) (.enum he)⟩

theorem declared_of_mem_walkMessages : ∀ (ms : List Message) (scope : List String)
    {path : List String} {d : TypeDef}, (path, d) ∈ walkMessages scope ms →
    ∃ inner, path = scope ++ inner ∧ Declared ms [] inner d
  | [], scope, path, d, h => by simp [walkMessages] at h
  | m :: ms, scope, path, d, h => by
    rw [walkMessages, List.mem_append] at h
    rcases h with h | h
    · obtain ⟨inner, rfl, hd⟩ := declared_of_mem_walkMessage m scope h
      exact ⟨inner, rfl, hd.mono (by simp) (List.Subset.refl _)⟩
    · obtain ⟨inner, rfl, hd⟩ := declared_of_mem_walkMessages ms scope h
      exact ⟨inner, rfl, hd.mono (List.subset_cons_self _ _) (List.Subset.refl _)⟩

end

theorem mem_walkMessages {scope : List String} {ms : List Message} {m : Message}
    {t : List String × TypeDef} (hm : m ∈ ms) (h : t ∈ walkMessage scope m) :
    t ∈ walkMessages scope ms := by
  induction ms with
  | nil => simp at hm
  | cons n ms ih =>
    rw [walkMessages, List.mem_append]
    rcases List.mem_cons.1 hm with rfl | hm
    · exact Or.inl h
    · exact Or.inr (ih hm)

theorem Declared.mem_walk {ms : List Message} {es : List Enum} {path : List String} {d : TypeDef}
    (h : Declared ms es path d) (scope : List String) :
    (scope ++ path, d) ∈ walkMessages scope ms ++ walkEnums scope es := by
  induction h generalizing scope with
  | @message ms es m hm =>
    refine List.mem_append_left _ (mem_walkMessages hm ?_)
    cases m
    simp [walkMessage]
  | @enum ms es e he => exact List.mem_append_right _ (List.mem_map.2 ⟨e, he, rfl⟩)
  | @inner ms es m path d hm _ ih =>
    refine List.mem_append_left _ (mem_walkMessages hm ?_)
    have hpath : scope ++ m.name :: path = scope ++ [m.name] ++ path := by simp
    rw [hpath]
    cases m
    exact List.mem_cons_of_mem _ (ih _)

namespace Schema

/-- The type that a schema declares at the given path. -/
def Declares (s : Schema) (path : List String) (d : TypeDef) : Prop :=
  Declared s.messages s.enums path d

theorem mem_types {s : Schema} {path : List String} {d : TypeDef} :
    (path, d) ∈ s.types ↔ s.Declares path d := by
  constructor
  · intro h
    rcases List.mem_append.1 h with h | h
    · obtain ⟨inner, rfl, hd⟩ := declared_of_mem_walkMessages _ _ h
      exact hd.mono (List.Subset.refl _) (List.nil_subset _)
    · obtain ⟨e, he, heq⟩ := List.mem_map.1 h
      obtain ⟨rfl, rfl⟩ := Prod.mk.inj heq
      exact .enum he
  · exact fun h => h.mem_walk []

end Schema

theorem declared_of_findType {ms : List Message} {es : List Enum} {path : List String} {d : TypeDef}
    (h : findType ms es path = some d) : Declared ms es path d := by
  fun_induction findType ms es path with
  | case1 => cases h
  | case2 ms es name e he =>
    cases h
    have hname : e.name = name := by simpa using List.find?_some he
    rw [← hname]
    exact .enum (List.mem_of_find?_eq_some he)
  | case3 ms es name he =>
    obtain ⟨m, hm, rfl⟩ := Option.map_eq_some_iff.1 h
    have hname : m.name = name := by simpa using List.find?_some hm
    rw [← hname]
    exact .message (List.mem_of_find?_eq_some hm)
  | case4 ms es name rest hrest m hm ih =>
    have hname : m.name = name := by simpa using List.find?_some hm
    rw [← hname]
    exact .inner (List.mem_of_find?_eq_some hm) (ih h)
  | case5 => cases h

/-- In every scope, messages and enums have different names. -/
inductive TypeNames : List Message → List Enum → Prop
  | mk {ms : List Message} {es : List Enum} (names : (ms.map (·.name) ++ es.map (·.name)).Nodup)
      (inner : ∀ m ∈ ms, TypeNames m.messages m.enums) : TypeNames ms es

theorem Declared.findType {ms : List Message} {es : List Enum} {path : List String} {d : TypeDef}
    (h : Declared ms es path d) (hn : TypeNames ms es) :
    ProtoSchema.findType ms es path = some d := by
  induction h with
  | @message ms es m hm =>
    obtain ⟨hnames, -⟩ := hn
    obtain ⟨hms, -, hdisjoint⟩ := List.nodup_append.1 hnames
    have hnone : es.find? (·.name == m.name) = none := by
      rw [List.find?_eq_none]
      intro e he heq
      have hname : e.name = m.name := by simpa using heq
      exact hdisjoint _ (List.mem_map_of_mem hm) _ (List.mem_map_of_mem he) hname.symm
    rw [ProtoSchema.findType, hnone]
    dsimp only
    rw [find?_of_nodup_map hms hm]
    rfl
  | @enum ms es e he =>
    obtain ⟨hnames, -⟩ := hn
    rw [ProtoSchema.findType, find?_of_nodup_map (List.nodup_append.1 hnames).2.1 he]
  | @inner ms es m path d hm hinner ih =>
    obtain ⟨hnames, hscopes⟩ := hn
    rw [ProtoSchema.findType, find?_of_nodup_map (List.nodup_append.1 hnames).1 hm]
    · exact ih (hscopes m hm)
    · exact fun heq => hinner.ne_nil heq

theorem pairwise_walk {ms : List Message} {es : List Enum} {scope : List String}
    (hnames : (ms.map (·.name) ++ es.map (·.name)).Nodup)
    (hms : (walkMessages scope ms).Pairwise fun x y => ¬ y.1 <+: x.1) :
    (walkMessages scope ms ++ walkEnums scope es).Pairwise fun x y => ¬ y.1 <+: x.1 := by
  obtain ⟨-, hes, hdisjoint⟩ := List.nodup_append.1 hnames
  rw [List.pairwise_append]
  refine ⟨hms, ?_, ?_⟩
  · refine List.pairwise_map.2 ((List.pairwise_map.1 hes).imp fun hne hprefix => hne ?_)
    simpa [List.prefix_append_right_inj, eq_comm] using hprefix
  · rintro ⟨p, d⟩ hp ⟨q, d'⟩ hq hprefix
    obtain ⟨inner, rfl, hd⟩ := declared_of_mem_walkMessages ms scope hp
    obtain ⟨name, rest, rfl, hname⟩ := hd.exists_cons
    obtain ⟨e, he, heq⟩ := List.mem_map.1 hq
    obtain ⟨rfl, -⟩ := Prod.mk.inj heq
    obtain ⟨rfl, -⟩ := List.cons_prefix_cons.1 ((List.prefix_append_right_inj scope).1 hprefix)
    exact hdisjoint _ (by simpa using hname) _ (List.mem_map_of_mem he) rfl

mutual

theorem pairwise_walkMessage : ∀ (m : Message) (scope : List String),
    TypeNames m.messages m.enums →
    (walkMessage scope m).Pairwise fun x y => ¬ y.1 <+: x.1
  | ⟨name, position, fields, oneofs, messages, enums⟩, scope, ⟨hnames, hinner⟩ => by
    have hms := (List.nodup_append.1 hnames).1
    rw [walkMessage, List.pairwise_cons]
    refine ⟨?_, pairwise_walk hnames (pairwise_walkMessages messages _ hms hinner)⟩
    rintro ⟨path, d⟩ hwalk hprefix
    have hpath : ∃ inner, path = scope ++ [name] ++ inner ∧ inner ≠ [] := by
      rcases List.mem_append.1 hwalk with hwalk | hwalk
      · obtain ⟨inner, rfl, hd⟩ := declared_of_mem_walkMessages messages _ hwalk
        exact ⟨inner, rfl, hd.ne_nil⟩
      · obtain ⟨e, -, he⟩ := List.mem_map.1 hwalk
        exact ⟨[e.name], (Prod.mk.inj he).1.symm, by simp⟩
    obtain ⟨inner, rfl, hne⟩ := hpath
    have hlength : (scope ++ [name] ++ inner).length ≤ (scope ++ [name]).length :=
      hprefix.length_le
    rw [List.length_append] at hlength
    exact hne (List.length_eq_zero_iff.1 (by omega))

theorem pairwise_walkMessages : ∀ (ms : List Message) (scope : List String),
    (ms.map (·.name)).Nodup → (∀ m ∈ ms, TypeNames m.messages m.enums) →
    (walkMessages scope ms).Pairwise fun x y => ¬ y.1 <+: x.1
  | [], _, _, _ => by
    rw [walkMessages]
    exact .nil
  | m :: ms, scope, hnames, hinner => by
    obtain ⟨hfirst, hrest⟩ := List.nodup_cons.1 hnames
    obtain ⟨hm, hms⟩ := List.forall_mem_cons.1 hinner
    rw [walkMessages, List.pairwise_append]
    refine ⟨pairwise_walkMessage m scope hm, pairwise_walkMessages ms scope hrest hms, ?_⟩
    rintro ⟨p, d⟩ hp ⟨q, d'⟩ hq hprefix
    obtain ⟨inner, rfl, hd⟩ := declared_of_mem_walkMessage m scope hp
    obtain ⟨inner', rfl, hd'⟩ := declared_of_mem_walkMessages ms scope hq
    obtain ⟨name, rest, rfl, hname⟩ := hd.exists_cons
    obtain ⟨name', rest', rfl, hname'⟩ := hd'.exists_cons
    obtain ⟨rfl, -⟩ := List.cons_prefix_cons.1 ((List.prefix_append_right_inj scope).1 hprefix)
    obtain rfl : name' = m.name := by simpa using hname
    exact hfirst (by simpa using hname')

end

mutual

theorem Message.typeNames : ∀ (m : Message) {path : String}, m.check path = .ok () →
    TypeNames m.messages m.enums
  | ⟨_, _, fields, oneofs, messages, enums⟩, path, h => by
    obtain ⟨hm, hmessages, -⟩ := Message.check_eq_ok.1 h
    exact .mk hm.typeNames (Message.typeNames_of_mem messages hmessages)

theorem Message.typeNames_of_mem : ∀ (ms : List Message) {pathOf : String → String},
    checkAll pathOf ms = .ok () → ∀ m ∈ ms, TypeNames m.messages m.enums
  | [], _, _ => by simp
  | m :: ms, pathOf, h => by
    obtain ⟨hm, hms⟩ := List.forall_mem_cons.1 (Message.checkAll_eq_ok.1 h)
    rw [List.forall_mem_cons]
    exact ⟨Message.typeNames m hm, Message.typeNames_of_mem ms (Message.checkAll_eq_ok.2 hms)⟩

end

namespace Schema

theorem typeNames {s : Schema} (h : s.check = .ok ()) : TypeNames s.messages s.enums := by
  obtain ⟨hnames, hmessages, -⟩ := check_eq_ok.1 h
  exact .mk hnames (Message.typeNames_of_mem _ hmessages)

theorem pairwise_types {s : Schema} (h : s.check = .ok ()) :
    s.types.Pairwise fun x y => ¬ y.1 <+: x.1 := by
  obtain ⟨hnames, hinner⟩ := typeNames h
  exact pairwise_walk hnames (pairwise_walkMessages _ _ (List.nodup_append.1 hnames).1 hinner)

theorem nodup_types {s : Schema} (h : s.check = .ok ()) : (s.types.map Prod.fst).Nodup := by
  refine List.pairwise_map.2 ((pairwise_types h).imp fun {x y} hnot heq => hnot ?_)
  exact heq ▸ List.prefix_rfl

theorem Declares.unique {s : Schema} {path : List String} {d d' : TypeDef} (hs : s.check = .ok ())
    (h : s.Declares path d) (h' : s.Declares path d') : d = d' := by
  have hfind := Declared.findType h (typeNames hs)
  rw [Declared.findType h' (typeNames hs)] at hfind
  exact (Option.some.inj hfind).symm

theorem le_of_isPrefix {s : Schema} (hs : s.check = .ok ()) {i j : Nat} {x y : List String × TypeDef}
    (hi : s.types[i]? = some x) (hj : s.types[j]? = some y) (h : x.1 <+: y.1) : i ≤ j := by
  refine Nat.le_of_not_lt fun hlt => ?_
  obtain ⟨hlti, rfl⟩ := List.getElem?_eq_some_iff.1 hi
  obtain ⟨hltj, rfl⟩ := List.getElem?_eq_some_iff.1 hj
  exact List.pairwise_iff_getElem.1 (pairwise_types hs) j i hltj hlti hlt h

theorem declares_iff_listed_once {s : Schema} (hs : s.check = .ok ()) {path : List String}
    {d : TypeDef} : s.Declares path d ↔ ∃! i : Nat, s.types[i]? = some (path, d) := by
  constructor
  · intro h
    obtain ⟨i, hi⟩ := List.mem_iff_getElem?.1 (mem_types.2 h)
    refine ⟨i, hi, fun j hj => ?_⟩
    exact Nat.le_antisymm (le_of_isPrefix hs hj hi List.prefix_rfl)
      (le_of_isPrefix hs hi hj List.prefix_rfl)
  · rintro ⟨i, hi, -⟩
    exact mem_types.1 (List.mem_of_getElem? hi)

/-- The lookup by path finds what the list of types has. The list has every type once, and every
message before the types inside it. -/
theorem find?_iff_mem_types {s : Schema} (hs : s.check = .ok ()) :
    (∀ path d, s.find? path = some d ↔ (path, d) ∈ s.types) ∧
    (s.types.map Prod.fst).Nodup ∧
    (∀ path d, s.Declares path d ↔ ∃! i : Nat, s.types[i]? = some (path, d)) ∧
    ∀ (i : Nat) path m, s.types[i]? = some (path, .message m) →
      ∀ inner d, Declared m.messages m.enums inner d →
        ∃ j : Nat, i < j ∧ s.types[j]? = some (path ++ inner, d) := by
  refine ⟨fun path d => ?_, nodup_types hs, fun path d => declares_iff_listed_once hs, ?_⟩
  · rw [mem_types]
    exact ⟨declared_of_findType, fun h => Declared.findType h (typeNames hs)⟩
  · intro i path m hi inner d hd
    have hpath : s.Declares path (.message m) := mem_types.1 (List.mem_of_getElem? hi)
    obtain ⟨j, hj⟩ := List.mem_iff_getElem?.1 (mem_types.2 (hpath.append hd))
    have hle := le_of_isPrefix hs hi hj (List.prefix_append _ _)
    refine ⟨j, Nat.lt_of_le_of_ne hle fun heq => hd.ne_nil ?_, hj⟩
    rw [heq, hj] at hi
    simpa using congrArg Prod.fst (Option.some.inj hi)

/-- Two messages with a type of the same name inside, and an enum. -/
theorem find?_iff_mem_types_nested :
    let status (p : Position) : Enum := ⟨"Status", p, [⟨"NONE", 0, false⟩]⟩
    let leaf : Message := ⟨"Leaf", ⟨2, 11⟩, [], [], [], [status ⟨3, 10⟩]⟩
    let s : Schema := { messages := [⟨"A", ⟨1, 9⟩, [], [], [leaf], [status ⟨5, 8⟩]⟩,
                          ⟨"B", ⟨7, 9⟩, [], [], [], [status ⟨8, 8⟩]⟩]
                        enums := [status ⟨10, 6⟩] }
    s.check = .ok () ∧
      s.types.map Prod.fst = [["A"], ["A", "Leaf"], ["A", "Leaf", "Status"], ["A", "Status"], ["B"],
        ["B", "Status"], ["Status"]] ∧
      s.find? ["A", "Leaf", "Status"] = some (.enum (status ⟨3, 10⟩)) := by
  intro status leaf s
  have hs : s.check = .ok () := rfl
  exact ⟨hs, rfl, ((find?_iff_mem_types hs).1 _ _).2 (List.mem_of_getElem? (i := 2) rfl)⟩

end Schema

end ProtoSchema
