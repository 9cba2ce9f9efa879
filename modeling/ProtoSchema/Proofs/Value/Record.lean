import Mathlib.Data.List.Pairwise
import ProtoSchema.Proofs.Value.Leaf

/-! # Messages and their JSON objects

A message comes back from its object if its parts come back from their entries. The plain fields of
a message and the members of its oneofs are found by key, so no two of them may share one.
-/

namespace ProtoSchema

namespace Json

mutual

def depth : Json → Nat
  | array items _ => itemsDepth items + 1
  | object entries _ => entriesDepth entries + 1
  | _ => 0

def itemsDepth : List Json → Nat
  | [] => 0
  | j :: js => max j.depth (itemsDepth js)

def entriesDepth : List (Option String × Json) → Nat
  | [] => 0
  | (_, j) :: es => max j.depth (entriesDepth es)

end

theorem depth_lt_list {j : Json} {js : List Json} (h : j ∈ js) : j.depth < (list js).depth := by
  simp only [list, depth, Nat.lt_succ_iff]
  induction js with
  | nil => cases h
  | cons k js ih =>
    rcases List.mem_cons.1 h with rfl | h
    · exact le_max_left _ _
    · exact le_max_of_le_right (ih h)

theorem depth_lt_record {e : String × Json} {es : List (String × Json)} (h : e ∈ es) :
    e.2.depth < (record es).depth := by
  simp only [record, depth, Nat.lt_succ_iff]
  induction es with
  | nil => cases h
  | cons k es ih =>
    rcases List.mem_cons.1 h with rfl | h
    · exact le_max_left _ _
    · exact le_max_of_le_right (ih h)

/-- A tree that its text gives back and that can be kept where the given room is left. -/
structure Fits (room : Nat) (j : Json) : Prop where
  hasText : j.HasText
  readable : j.isReadable room = true

theorem Fits.list {room : Nat} {js : List Json} (h : ∀ j ∈ js, j.Fits room) :
    (Json.list js).Fits (room + 1) := by
  have hitems : ItemsHaveText js ∧ readableItems room js = true := by
    induction js with
    | nil => exact ⟨trivial, rfl⟩
    | cons j js ih =>
      obtain ⟨hj, hjs⟩ := List.forall_mem_cons.1 h
      obtain ⟨htext, hread⟩ := ih hjs
      exact ⟨⟨hj.hasText, htext⟩, by simp [readableItems, hj.readable, hread]⟩
  exact ⟨⟨rfl, hitems.1⟩, by simp [Json.list, isReadable, hitems.2]⟩

theorem Fits.record {room : Nat} {es : List (String × Json)} (h : ∀ e ∈ es, e.2.Fits room) :
    (Json.record es).Fits (room + 1) := by
  have hentries : EntriesHaveText (es.map fun e => (some e.1, e.2)) ∧
      readableEntries room (es.map fun e => (some e.1, e.2)) = true := by
    induction es with
    | nil => exact ⟨trivial, rfl⟩
    | cons e es ih =>
      obtain ⟨he, hes⟩ := List.forall_mem_cons.1 h
      obtain ⟨htext, hread⟩ := ih hes
      exact ⟨⟨rfl, he.hasText, htext⟩, by simp [readableEntries, he.readable, hread]⟩
  exact ⟨⟨rfl, hentries.1⟩, by simp [Json.record, isReadable, hentries.2]⟩

mutual

theorem isWhole_of_isReadable : (j : Json) → ∀ {room : Nat}, j.isReadable room = true →
    j.isWhole = true
  | array items closed, room, h => by
    simp only [isReadable, Bool.and_eq_true] at h
    simp [isWhole, h.1.2, wholeItems_of_readableItems items h.2]
  | object entries closed, room, h => by
    simp only [isReadable, Bool.and_eq_true] at h
    simp [isWhole, h.1.2, wholeEntries_of_readableEntries entries h.2]
  | null, _, _ | bool _, _, _ | number _, _, _ | string _, _, _ => rfl

theorem wholeItems_of_readableItems : (js : List Json) → ∀ {room : Nat},
    readableItems room js = true → wholeItems js = true
  | [], _, _ => rfl
  | j :: js, room, h => by
    simp only [readableItems, Bool.and_eq_true] at h
    simp [wholeItems, isWhole_of_isReadable j h.1, wholeItems_of_readableItems js h.2]

theorem wholeEntries_of_readableEntries : (es : List (Option String × Json)) → ∀ {room : Nat},
    readableEntries room es = true → wholeEntries es = true
  | [], _, _ => rfl
  | (key, j) :: es, room, h => by
    simp only [readableEntries, Bool.and_eq_true] at h
    simp [wholeEntries, isWhole_of_isReadable j h.1.2, wholeEntries_of_readableEntries es h.2]

end

theorem isBare_of_isWhole {j : Json} (h : j.isWhole = true) : j.isBare = false := by
  cases j
  case bare => simp [isWhole] at h
  all_goals rfl

end Json

namespace FieldType

def Apart (f g : FieldType) : Prop := g.accepts f.jsonName = false ∧ g.accepts f.name = false

instance (f g : FieldType) : Decidable (f.Apart g) := inferInstanceAs (Decidable (_ ∧ _))

theorem Apart.accepts {f g : FieldType} (h : f.Apart g) {key : String} (hk : f.accepts key = true) :
    g.accepts key = false := by
  simp only [FieldType.accepts, Bool.or_eq_true, beq_iff_eq] at hk
  rcases hk with rfl | rfl
  · exact h.1
  · exact h.2

theorem Apart.symm {f g : FieldType} (h : f.Apart g) : g.Apart f := by
  simp only [Apart, FieldType.accepts, Bool.or_eq_false_iff, beq_eq_false_iff_ne] at h ⊢
  exact ⟨⟨h.1.1.symm, h.2.1.symm⟩, h.1.2.symm, h.2.2.symm⟩

instance : Std.Symm Apart := ⟨fun _ _ => Apart.symm⟩

theorem Apart.name_ne {f g : FieldType} (h : f.Apart g) : f.name ≠ g.name := by
  intro heq
  simpa [FieldType.accepts, heq] using h.2

theorem accepts_jsonName (f : FieldType) : f.accepts f.jsonName = true := by simp [accepts]

theorem find?_accepts {f : FieldType} {fs : List FieldType} (hs : fs.Pairwise Apart) (hf : f ∈ fs)
    {key : String} (hk : f.accepts key = true) : fs.find? (·.accepts key) = some f := by
  refine find?_eq_some_of_unique hf hk fun g hg hgk => ?_
  by_contra hne
  have hapart := hs.forall hg hf hne
  simp [hapart.accepts hgk] at hk

end FieldType

namespace MessageType

/-- The plain fields of a message and the members of its oneofs. -/
def parts (m : MessageType) : List FieldType := m.fields ++ m.oneofs.flatMap (·.members)

/-- No two parts share a key, and enums can be told from their names. -/
structure Coherent (m : MessageType) : Prop where
  apart : m.parts.Pairwise FieldType.Apart
  types : ∀ f ∈ m.parts, f.slot.type.Coherent

variable {m : MessageType} {f : FieldType} {key : String}

theorem Coherent.field? (h : m.Coherent) (hf : f ∈ m.fields) (hk : f.accepts key = true) :
    m.field? key = some f :=
  FieldType.find?_accepts (List.pairwise_append.1 h.apart).1 hf hk

theorem Coherent.field?_member (h : m.Coherent) {o : OneofType} (ho : o ∈ m.oneofs)
    (hf : f ∈ o.members) (hk : f.accepts key = true) : m.field? key = none := by
  refine List.find?_eq_none.2 fun g hg hgk => ?_
  have hapart := (List.pairwise_append.1 h.apart).2.2 g hg f (List.mem_flatMap.2 ⟨o, ho, hf⟩)
  simp [hapart.accepts hgk] at hk

end MessageType

def Catalog.Coherent (c : Catalog) : Prop := ∀ p ∈ c.messages, p.2.Coherent

theorem Catalog.Coherent.message? {c : Catalog} (h : c.Coherent) {name : String} {m : MessageType}
    (hm : c.message? name = some m) : m.Coherent := by
  obtain ⟨before, after, hsplit, -⟩ := List.lookup_eq_some_iff.1 hm
  exact h (name, m) (by simp [hsplit])

/-- Reading gives a value back, up to the sign of zeros. -/
def Restores (read : Json → Except ReadFault Value) (j : Json) (v : Value) : Prop :=
  ∃ w, read j = .ok w ∧ w.Agrees v

/-- The entries of an object as they are read. -/
def asEntries (es : List (String × Json)) : List (Option String × Json) :=
  es.map fun e => (some e.1, e.2)

namespace Catalog

variable {c : Catalog} {e : String × Json}

theorem mem_writeFields {R : FieldType → Value → Prop} {fs : List FieldType} {vs : List Value}
    (h : List.Forall₂ R fs vs) (he : e ∈ c.writeFields fs vs) :
    ∃ f v, f ∈ fs ∧ R f v ∧ f.slot.omits v = false ∧ e = (f.jsonName, c.write f.slot.type v) := by
  induction h with
  | nil => cases he
  | @cons f v fs vs hv _ ih =>
    have hrest (he : e ∈ c.writeFields fs vs) : ∃ g v, g ∈ f :: fs ∧ R g v ∧
        g.slot.omits v = false ∧ e = (g.jsonName, c.write g.slot.type v) := by
      obtain ⟨g, w, hg, hrest⟩ := ih he
      exact ⟨g, w, List.mem_cons_of_mem f hg, hrest⟩
    rw [writeFields] at he
    split at he
    · exact hrest he
    · next ho =>
      rcases List.mem_cons.1 he with rfl | he
      · exact ⟨f, v, List.mem_cons_self, hv, by simpa using ho, rfl⟩
      · exact hrest he

/-- The entry of a oneof, if a member is set. -/
def pickEntry (c : Catalog) (o : OneofType) : Value → List (String × Json)
  | .member name v => (o.named? name).toList.map fun f => (f.jsonName, c.write f.slot.type v)
  | _ => []

theorem pickEntry_member {o : OneofType} {f : FieldType} {name : String}
    (hn : o.named? name = some f) (v : Value) :
    c.pickEntry o (.member name v) = [(f.jsonName, c.write f.slot.type v)] := by
  simp [pickEntry, hn]

theorem writePicks_cons (c : Catalog) (o : OneofType) (os : List OneofType) (p : Value)
    (ps : List Value) :
    c.writePicks (o :: os) (p :: ps) = c.pickEntry o p ++ c.writePicks os ps := by
  cases p with
  | member name v => cases hn : o.named? name <;> simp [writePicks, pickEntry, hn]
  | _ => simp [writePicks, pickEntry]

theorem mem_writePicks {R : OneofType → Value → Prop} {os : List OneofType} {ps : List Value}
    (h : List.Forall₂ R os ps) (he : e ∈ c.writePicks os ps) :
    ∃ o f name v, o ∈ os ∧ R o (.member name v) ∧ o.named? name = some f ∧
      e = (f.jsonName, c.write f.slot.type v) := by
  induction h with
  | nil => cases he
  | @cons o p os ps hp _ ih =>
    rw [writePicks_cons] at he
    rcases List.mem_append.1 he with he | he
    · cases p with
      | member name v =>
        obtain ⟨f, hf, rfl⟩ := List.mem_map.1 he
        exact ⟨o, f, name, v, List.mem_cons_self, hp, Option.mem_toList.1 hf, rfl⟩
      | _ => cases he
    · obtain ⟨o', f, name, v, ho, hrest⟩ := ih he
      exact ⟨o', f, name, v, List.mem_cons_of_mem o ho, hrest⟩

end Catalog

theorem lookup_cons_of_ne {a key : String} (h : a ≠ key) {v : Value} (vs : List (String × Value)) :
    ((key, v) :: vs).lookup a = vs.lookup a := by
  rw [List.lookup_cons, beq_eq_false_iff_ne.2 h]

namespace MessageType

variable {m : MessageType} {one : Shape → Json → Except ReadFault Value} {other : Json → Bool}

theorem readEntries_field (hm : m.Coherent) {f : FieldType} (hf : f ∈ m.fields) {j : Json}
    {w : Value} (hw : f.slot.read one j = .ok w) {seen : List (String × Value)}
    (hseen : seen.lookup f.name = none) (rest : List (Option String × Json)) :
    m.readEntries one other seen ((some f.jsonName, j) :: rest) =
      m.readEntries one other ((f.name, w) :: seen) rest := by
  have hnew : seen.any (·.1 == f.name) = false := by
    refine List.any_eq_false.2 fun p hp heq => ?_
    exact bne_iff_ne.1 (List.lookup_eq_none_iff.1 hseen p hp) (beq_iff_eq.1 heq).symm
  simp [readEntries, hm.field? hf f.accepts_jsonName, hnew, hw, bind, Except.bind]

/-- The entries written for fields put values in front of what has been seen; a field that was left
out gets its default. -/
theorem readEntries_writeFields (hm : m.Coherent) (other : Json → Bool) {c : Catalog}
    {fs : List FieldType} {vs : List Value} (hfs : fs ⊆ m.fields)
    (hapart : fs.Pairwise FieldType.Apart)
    (h : List.Forall₂ (fun f v => f.slot.omits v = false →
      Restores (f.slot.read one) (c.write f.slot.type v) v) fs vs)
    (seen : List (String × Value)) (hseen : ∀ f ∈ fs, seen.lookup f.name = none)
    (rest : List (Option String × Json)) :
    ∃ seen', m.readEntries one other seen (asEntries (c.writeFields fs vs) ++ rest) =
        m.readEntries one other seen' rest ∧
      (∀ name, (∀ f ∈ fs, f.name ≠ name) → seen'.lookup name = seen.lookup name) ∧
      List.Forall₂ Value.Agrees (fs.map fun f => (seen'.lookup f.name).getD f.slot.default) vs := by
  induction h generalizing seen with
  | nil => exact ⟨seen, rfl, fun _ _ => rfl, .nil⟩
  | @cons f v fs vs hv _ ih =>
    obtain ⟨hfirst, hrest⟩ := List.pairwise_cons.1 hapart
    obtain ⟨hf, hfs⟩ := List.cons_subset.1 hfs
    obtain ⟨hsf, hsfs⟩ := List.forall_mem_cons.1 hseen
    have hnames : ∀ g ∈ fs, g.name ≠ f.name := fun g hg => (hfirst g hg).name_ne.symm
    rw [Catalog.writeFields]
    split
    · next ho =>
      obtain ⟨seen', hread, hkept, hvalues⟩ := ih hfs hrest seen hsfs
      refine ⟨seen', hread, fun name hn => hkept name (List.forall_mem_cons.1 hn).2, ?_⟩
      refine .cons ?_ hvalues
      beta_reduce
      rw [hkept f.name hnames, hsf]
      simp only [Slot.omits, Bool.and_eq_true] at ho
      exact .of_same ho.2 f.slot.noNegativeZero_default
    · next ho =>
      obtain ⟨w, hw, hagrees⟩ := hv (by simpa using ho)
      have hsfs' : ∀ g ∈ fs, ((f.name, w) :: seen).lookup g.name = none := by
        intro g hg
        rw [lookup_cons_of_ne (hnames g hg), hsfs g hg]
      obtain ⟨seen', hread, hkept, hvalues⟩ := ih hfs hrest _ hsfs'
      refine ⟨seen', ?_, fun name hn => ?_, .cons ?_ hvalues⟩
      · rw [← hread]
        exact readEntries_field hm hf hw hsf _
      · obtain ⟨hname, hn⟩ := List.forall_mem_cons.1 hn
        rw [hkept name hn, lookup_cons_of_ne hname.symm]
      · beta_reduce
        rw [hkept f.name hnames]
        simpa using hagrees

theorem readEntries_others {es : List (String × Json)} (seen : List (String × Value))
    (h : ∀ e ∈ es, m.field? e.1 = none ∧ other e.2 = true) :
    m.readEntries one other seen (asEntries es) = .ok seen := by
  induction es with
  | nil => rfl
  | cons e es ih =>
    obtain ⟨⟨hkey, hother⟩, hes⟩ := List.forall_mem_cons.1 h
    simpa [asEntries, readEntries, hkey, hother] using ih hes

end MessageType

theorem Members.readAfter_skip {α : Type} {oneof : String} {accepts : String → Bool}
    {decode : String → Json → Except ReadFault α} {first : Option (String × α)}
    {es : List (String × Json)} (h : ∀ e ∈ es, accepts e.1 = false ∧ e.2.isWhole = true)
    (rest : List (Option String × Json)) :
    readAfter oneof accepts decode first (asEntries es ++ rest) =
      readAfter oneof accepts decode first rest := by
  induction es with
  | nil => rfl
  | cons e es ih =>
    obtain ⟨⟨hkey, hwhole⟩, hes⟩ := List.forall_mem_cons.1 h
    simpa [asEntries, readAfter, hkey, hwhole] using ih hes

theorem asEntries_append (es es' : List (String × Json)) :
    asEntries (es ++ es') = asEntries es ++ asEntries es' := List.map_append

namespace OneofType

variable {c : Catalog} {one : Shape → Json → Except ReadFault Value} {o : OneofType}

/-- What a oneof holds comes back from the entry that is written for it. -/
inductive Restored (c : Catalog) (one : Shape → Json → Except ReadFault Value) (o : OneofType) :
    Value → Prop
  | absent : Restored c one o .absent
  | member {f : FieldType} {name : String} {v : Value} (hn : o.named? name = some f)
      (hr : Restores (one (.one f.slot.type)) (c.write f.slot.type v) v)
      (hw : (c.write f.slot.type v).isWhole = true) : Restored c one o (.member name v)

def Skips (o : OneofType) (es : List (String × Json)) : Prop :=
  ∀ e ∈ es, o.member? e.1 = none ∧ e.2.isWhole = true

theorem Skips.accepts {es : List (String × Json)} (h : o.Skips es) :
    ∀ e ∈ es, (o.member? e.1).isSome = false ∧ e.2.isWhole = true :=
  fun e he => ⟨by simp [(h e he).1], (h e he).2⟩

theorem member_of_named? {name : String} {f : FieldType} (h : o.named? name = some f) :
    f ∈ o.members ∧ f.name = name :=
  ⟨List.mem_of_find?_eq_some h, by simpa using List.find?_some h⟩

theorem read_skips {es : List (String × Json)} (h : o.Skips es) :
    o.read one (asEntries es) = .ok .absent := by
  have hskip : Members.readAfter o.name (fun key => (o.member? key).isSome) (o.readMember one) none
      (asEntries es ++ []) = .ok none := Members.readAfter_skip h.accepts []
  rw [List.append_nil] at hskip
  simp [OneofType.read, Members.read, hskip, bind, Except.bind, pure, Except.pure]

theorem read_entry {f : FieldType} (hs : o.members.Pairwise FieldType.Apart) (hf : f ∈ o.members)
    {j : Json} {w : Value} (hw : one (.one f.slot.type) j = .ok w) (hj : j.isWhole = true)
    {before after : List (String × Json)} (hb : o.Skips before) (ha : o.Skips after) :
    o.read one (asEntries (before ++ (f.jsonName, j) :: after)) = .ok (.member f.name w) := by
  have hmember : o.member? f.jsonName = some f := FieldType.find?_accepts hs hf f.accepts_jsonName
  have hbare := Json.isBare_of_isWhole hj
  have hskip (first : Option (String × Value)) :
      Members.readAfter o.name (fun key => (o.member? key).isSome) (o.readMember one) first
        (asEntries after ++ []) = .ok (first.map (·.2)) := Members.readAfter_skip ha.accepts []
  rw [List.append_nil] at hskip
  have hentry : asEntries ((f.jsonName, j) :: after) =
      (some f.jsonName, j) :: asEntries after := rfl
  rw [OneofType.read, Members.read, asEntries_append, Members.readAfter_skip hb.accepts, hentry,
    Members.readAfter]
  simp [hmember, hbare, readMember, hw, hskip, bind, Except.bind, pure, Except.pure, Except.map]

theorem member?_eq_none {g : FieldType} (h : ∀ f ∈ o.members, f.Apart g) :
    o.member? g.jsonName = none := by
  refine List.find?_eq_none.2 fun f hf hk => ?_
  simpa [(h f hf).accepts hk] using g.accepts_jsonName

theorem skips_writePicks {os : List OneofType} {ps : List Value}
    (hapart : ∀ f ∈ o.members, ∀ g ∈ os.flatMap (·.members), f.Apart g)
    (h : List.Forall₂ (Restored c one) os ps) : o.Skips (c.writePicks os ps) := by
  intro e he
  obtain ⟨o', f, name, v, ho', hpick, hf, rfl⟩ := Catalog.mem_writePicks h he
  have hmem : f ∈ os.flatMap (·.members) := List.mem_flatMap.2 ⟨o', ho', (member_of_named? hf).1⟩
  refine ⟨member?_eq_none fun g hg => hapart g hg f hmem, ?_⟩
  cases hpick with
  | member hn _ hw =>
    obtain rfl : _ = f := Option.some.inj (hn.symm.trans hf)
    exact hw

theorem mapM_read_writePicks {os : List OneofType} {ps : List Value}
    (hapart : (os.flatMap (·.members)).Pairwise FieldType.Apart)
    (h : List.Forall₂ (Restored c one) os ps) (before : List (String × Json))
    (hb : ∀ o ∈ os, o.Skips before) :
    ∃ ws, os.mapM (fun o => o.read one (asEntries (before ++ c.writePicks os ps))) = .ok ws ∧
      List.Forall₂ Value.Agrees ws ps := by
  induction h generalizing before with
  | nil => exact ⟨[], rfl, .nil⟩
  | @cons o p os ps hp hps ih =>
    obtain ⟨hs, hrest, hcross⟩ := List.pairwise_append.1 (List.flatMap_cons ▸ hapart)
    obtain ⟨hbo, hbos⟩ := List.forall_mem_cons.1 hb
    have hafter : o.Skips (c.writePicks os ps) := skips_writePicks hcross hps
    cases hp with
    | absent =>
      have hwrite : c.writePicks (o :: os) (.absent :: ps) = c.writePicks os ps :=
        c.writePicks_cons o os .absent ps
      have hskips : o.Skips (before ++ c.writePicks os ps) := List.forall_mem_append.2 ⟨hbo, hafter⟩
      obtain ⟨ws, hws, hagree⟩ := ih hrest before hbos
      refine ⟨.absent :: ws, ?_, .cons (.refl _) hagree⟩
      simp [hwrite, read_skips hskips, hws, bind, Except.bind, pure, Except.pure]
    | @member f name v hn hr hw =>
      obtain ⟨hf, rfl⟩ := member_of_named? hn
      obtain ⟨w, hread, hw'⟩ := hr
      have hwrite : c.writePicks (o :: os) (.member f.name v :: ps) =
          (f.jsonName, c.write f.slot.type v) :: c.writePicks os ps := by
        rw [Catalog.writePicks_cons, Catalog.pickEntry_member hn, List.singleton_append]
      have hbefore : ∀ o' ∈ os, o'.Skips (before ++ [(f.jsonName, c.write f.slot.type v)]) := by
        intro o' ho'
        refine List.forall_mem_append.2 ⟨hbos o' ho', List.forall_mem_singleton.2 ⟨?_, hw⟩⟩
        exact member?_eq_none fun g hg =>
          (hcross f hf g (List.mem_flatMap.2 ⟨o', ho', hg⟩)).symm
      obtain ⟨ws, hws, hagree⟩ := ih hrest _ hbefore
      rw [List.append_assoc, List.singleton_append] at hws
      refine ⟨.member f.name w :: ws, ?_, .cons (hw'.member _) hagree⟩
      simp [hwrite, read_entry hs hf hread hw hbo hafter, hws, bind, Except.bind, pure, Except.pure]

end OneofType

namespace MessageType

variable {c : Catalog} {m : MessageType} {vs ps : List Value}

theorem otherEntries_write (hm : m.Coherent) {R : FieldType → Value → Prop}
    {S : OneofType → Value → Prop} (hf : List.Forall₂ R m.fields vs)
    (hp : List.Forall₂ S m.oneofs ps) :
    m.otherEntries (asEntries (c.writeFields m.fields vs ++ c.writePicks m.oneofs ps)) =
      asEntries (c.writePicks m.oneofs ps) := by
  have hfields : ∀ e ∈ c.writeFields m.fields vs, (m.field? e.1).isNone = false := by
    intro e he
    obtain ⟨f, v, hmem, -, -, rfl⟩ := Catalog.mem_writeFields hf he
    simp [hm.field? hmem f.accepts_jsonName]
  have hpicks : ∀ e ∈ c.writePicks m.oneofs ps, (m.field? e.1).isNone = true := by
    intro e he
    obtain ⟨o, f, name, v, ho, -, hn, rfl⟩ := Catalog.mem_writePicks hp he
    simp [hm.field?_member ho (OneofType.member_of_named? hn).1 f.accepts_jsonName]
  rw [otherEntries, asEntries_append, List.filter_append]
  have hnone : (asEntries (c.writeFields m.fields vs)).filter
      (fun e => e.1.all fun key => (m.field? key).isNone) = [] := by
    refine List.filter_eq_nil_iff.2 fun e he => ?_
    obtain ⟨e', he', rfl⟩ := List.mem_map.1 he
    simp [hfields e' he']
  have hall : (asEntries (c.writePicks m.oneofs ps)).filter
      (fun e => e.1.all fun key => (m.field? key).isNone) =
        asEntries (c.writePicks m.oneofs ps) := by
    refine List.filter_eq_self.2 fun e he => ?_
    obtain ⟨e', he', rfl⟩ := List.mem_map.1 he
    simpa using hpicks e' he'
  rw [hnone, hall, List.nil_append]

theorem restores_record (hm : m.Coherent) {inside : Interior} {access : Access}
    (hf : List.Forall₂ (fun f v => f.slot.omits v = false →
      Restores (f.slot.read (inside.read access)) (c.write f.slot.type v) v) m.fields vs)
    (hp : List.Forall₂ (OneofType.Restored c (inside.read .kept)) m.oneofs ps)
    (hr : ∀ e ∈ c.writePicks m.oneofs ps, e.2.isReadable inside.room = true) :
    Restores (m.read (some inside) access)
      (.record (c.writeFields m.fields vs ++ c.writePicks m.oneofs ps)) (.record vs ps) := by
  have hapart := List.pairwise_append.1 hm.apart
  have hother : ∀ e ∈ c.writePicks m.oneofs ps, m.field? e.1 = none ∧
      (if m.oneofs.isEmpty then e.2.isWhole else e.2.isReadable inside.room) = true := by
    intro e he
    obtain ⟨o, f, name, v, ho, -, hn, rfl⟩ := Catalog.mem_writePicks hp he
    refine ⟨hm.field?_member ho (OneofType.member_of_named? hn).1 f.accepts_jsonName, ?_⟩
    rw [if_neg (by simpa using List.ne_nil_of_mem ho)]
    exact hr _ he
  obtain ⟨seen, hread, -, hfields⟩ := readEntries_writeFields hm
    (fun j => if m.oneofs.isEmpty then j.isWhole else j.isReadable inside.room)
    (List.Subset.refl _) hapart.1 hf [] (fun _ _ => rfl) (asEntries (c.writePicks m.oneofs ps))
  rw [readEntries_others seen hother, ← asEntries_append] at hread
  obtain ⟨ws, hws, hpicks⟩ := OneofType.mapM_read_writePicks hapart.2.1 hp []
    (fun _ _ _ he => nomatch he)
  rw [List.nil_append] at hws
  refine ⟨.record (m.arrange seen) ws, ?_, .record hfields hpicks⟩
  have hobject : Json.record (c.writeFields m.fields vs ++ c.writePicks m.oneofs ps) =
      .object (asEntries (c.writeFields m.fields vs ++ c.writePicks m.oneofs ps)) true := rfl
  rw [hobject, MessageType.read]
  simp only [Interior.enter, readObject, otherEntries_write hm hf hp, hread, hws, bind, Except.bind,
    pure, Except.pure, Bool.not_true, Bool.false_eq_true, if_false]

end MessageType

end ProtoSchema
