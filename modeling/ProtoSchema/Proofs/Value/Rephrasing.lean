import ProtoSchema.Proofs.Catalog.Hdlctrl
import ProtoSchema.Proofs.Value.Entries

/-! # Other ways to write a message

The objects of messages can be written in many ways. Entries may change places, a part may be named
in either of its two ways, and an entry that no part reads may come or go if its value is simple.
None of this changes what is read, however deep the object lies.
-/

namespace ProtoSchema

def Json.isSimple : Json → Bool
  | null | bool _ | string (some _) => true
  | _ => false

theorem Json.isReadable_of_isSimple {j : Json} (h : j.isSimple = true) (room : Nat) :
    j.isReadable room = true := by
  cases j
  case string text => cases text <;> simp_all [isSimple, isReadable]
  all_goals simp_all [isSimple, isReadable]

namespace Catalog

/-- Two ways to write a value of the given shape. The objects in which they differ stand for
messages, and are reached through fields, members of oneofs and items of lists. -/
inductive Alike (c : Catalog) : Shape → Json → Json → Prop
  | refl {s : Shape} {j : Json} : Alike c s j j
  | symm {s : Shape} {j k : Json} (h : Alike c s j k) : Alike c s k j
  | trans {s : Shape} {j k l : Json} (h : Alike c s j k) (h' : Alike c s k l) : Alike c s j l
  /-- Entries change places. -/
  | reorder {name : String} {m : MessageType} (hm : c.message? name = some m)
      {es es' : List (Option String × Json)} {closed : Bool} (h : es.Perm es') :
      Alike c (.one (.message name)) (.object es closed) (.object es' closed)
  /-- A field has another of its keys, and its value is written in another way. -/
  | field {name : String} {m : MessageType} (hm : c.message? name = some m) {f : FieldType}
      (hf : f ∈ m.fields) {key key' : String} (hk : f.accepts key = true)
      (hk' : f.accepts key' = true) {es : List (Option String × Json)} {closed : Bool} {j j' : Json}
      (h : Alike c f.slot.shape j j') :
      Alike c (.one (.message name)) (.object ((some key, j) :: es) closed)
        (.object ((some key', j') :: es) closed)
  /-- A member of a oneof has another of its keys, and its value is written in another way. -/
  | member {name : String} {m : MessageType} (hm : c.message? name = some m) {o : OneofType}
      (ho : o ∈ m.oneofs) {f : FieldType} (hf : f ∈ o.members) {key key' : String}
      (hk : f.accepts key = true) (hk' : f.accepts key' = true)
      {es : List (Option String × Json)} {closed : Bool} {j j' : Json}
      (h : Alike c (.one f.slot.type) j j') :
      Alike c (.one (.message name)) (.object ((some key, j) :: es) closed)
        (.object ((some key', j') :: es) closed)
  /-- There is one more entry, with a key of no part. -/
  | insert {name : String} {m : MessageType} (hm : c.message? name = some m) {key : String}
      (hk : ∀ f ∈ m.parts, f.accepts key = false) {es : List (Option String × Json)} {closed : Bool}
      {j : Json} (hj : j.isSimple = true) :
      Alike c (.one (.message name)) (.object es closed) (.object ((some key, j) :: es) closed)
  /-- An item of a list is written in another way. -/
  | item {t : ValueType} {before after : List Json} {closed : Bool} {j j' : Json}
      (h : Alike c (.one t) j j') :
      Alike c (.list t) (.array (before ++ j :: after) closed) (.array (before ++ j' :: after) closed)
  /-- A field is written in another way where an array stands for its message. -/
  | position {name : String} {m : MessageType} (hm : c.message? name = some m) {f : FieldType}
      {before after : List Json} (hf : m.fields[before.length]? = some f) {closed : Bool}
      {j j' : Json} (h : Alike c f.slot.shape j j') :
      Alike c (.one (.message name)) (.array (before ++ j :: after) closed)
        (.array (before ++ j' :: after) closed)

end Catalog

section Entries

variable {p : String → Bool} {skips : Json → Bool} {es es' : List (Option String × Json)}

theorem entriesWith_eq_nil_of_perm (h : es.Perm es') :
    entriesWith p es = [] ↔ entriesWith p es' = [] := by
  have hperm : (entriesWith p es).Perm (entriesWith p es') := h.filter _
  rw [← List.perm_nil, ← List.perm_nil]
  exact ⟨hperm.symm.trans, hperm.trans⟩

theorem entriesWith_eq_singleton_of_perm (h : es.Perm es') {e : Option String × Json} :
    entriesWith p es = [e] ↔ entriesWith p es' = [e] := by
  have hperm : (entriesWith p es).Perm (entriesWith p es') := h.filter _
  rw [← List.perm_singleton, ← List.perm_singleton]
  exact ⟨hperm.symm.trans, hperm.trans⟩

end Entries

namespace OneofType

variable {o : OneofType} {one : Shape → Json → Except ReadFault Value} {key : String} {j : Json}
  {es : List (Option String × Json)} {p : Value}

theorem takes_cons_pos {f : FieldType} (h : o.member? key = some f) :
    o.Takes one ((some key, j) :: es) p ↔ entriesWith o.accepts es = [] ∧
      ∃ v, one (.one f.slot.type) j = .ok v ∧ p = .member f.name v := by
  have hk : o.accepts key = true := by simp [accepts, h]
  rw [Takes, entriesWith_cons_pos hk]
  constructor
  · rintro (⟨hnil, -⟩ | ⟨key, j, g, v, he, hg, hv, rfl⟩)
    · cases hnil
    · simp only [List.cons.injEq, Prod.mk.injEq, Option.some.injEq] at he
      obtain ⟨⟨rfl, rfl⟩, hnil⟩ := he
      obtain rfl : f = g := Option.some.inj (h.symm.trans hg)
      exact ⟨hnil, v, hv, rfl⟩
  · rintro ⟨hnil, v, hv, rfl⟩
    exact .inr ⟨key, j, f, v, by rw [hnil], h, hv, rfl⟩

theorem takes_cons_neg (h : o.member? key = none) :
    o.Takes one ((some key, j) :: es) p ↔ o.Takes one es p := by
  have hk : o.accepts key = false := by simp [accepts, h]
  rw [Takes, entriesWith_cons_neg hk, Takes]

end OneofType

namespace MessageType

variable {m : MessageType} {inside : Interior} {access : Access}
  {es es' : List (Option String × Json)} {vs ps : List Value}

theorem gives_congr
    (hpass : Passable m.accepts (m.skips inside.room) es ↔
      Passable m.accepts (m.skips inside.room) es')
    (hfields : ∀ f ∈ m.fields, ∀ v, f.Takes (inside.read access) none es v ↔
      f.Takes (inside.read access) none es' v)
    (honeofs : ∀ o ∈ m.oneofs, ∀ p, o.Takes (inside.read .kept) es p ↔
      o.Takes (inside.read .kept) es' p) :
    m.Gives inside access es vs ps ↔ m.Gives inside access es' vs ps := by
  constructor
  · rintro ⟨hp, hf, ho⟩
    exact ⟨hpass.1 hp, (forall₂_congr_mem hfields).1 hf, (forall₂_congr_mem honeofs).1 ho⟩
  · rintro ⟨hp, hf, ho⟩
    exact ⟨hpass.2 hp, (forall₂_congr_mem hfields).2 hf, (forall₂_congr_mem honeofs).2 ho⟩

theorem gives_perm (h : es.Perm es') :
    m.Gives inside access es vs ps ↔ m.Gives inside access es' vs ps := by
  apply gives_congr
  · simp only [Passable, h.mem_iff]
  · intro f _ v
    simp only [FieldType.Takes, entriesWith_eq_nil_of_perm h, entriesWith_eq_singleton_of_perm h]
  · intro o _ p
    simp only [OneofType.Takes, entriesWith_eq_nil_of_perm h, entriesWith_eq_singleton_of_perm h]

theorem member_mem_parts {o : OneofType} (ho : o ∈ m.oneofs) {f : FieldType} (hf : f ∈ o.members) :
    f ∈ m.parts := List.mem_append_right _ (List.mem_flatMap.2 ⟨o, ho, hf⟩)

theorem field_mem_parts {f : FieldType} (hf : f ∈ m.fields) : f ∈ m.parts :=
  List.mem_append_left _ hf

/-- A key of one part is read by no oneof that the part is not a member of. -/
theorem Coherent.member?_eq_none (hm : m.Coherent) {o : OneofType} (ho : o ∈ m.oneofs)
    {f : FieldType} (hf : f ∈ m.parts) (hnot : f ∉ o.members) {key : String}
    (hk : f.accepts key = true) : o.member? key = none := by
  refine List.find?_eq_none.2 fun g hg hgk => ?_
  have hne : g ≠ f := fun heq => hnot (heq ▸ hg)
  simp [hm.accepts_false hf (member_mem_parts ho hg) hne hk] at hgk

theorem Coherent.not_mem_members (hm : m.Coherent) {o : OneofType} (ho : o ∈ m.oneofs)
    {f : FieldType} (hf : f ∈ m.fields) : f ∉ o.members := by
  intro hmem
  have hapart := (List.pairwise_append.1 hm.apart).2.2 f hf f (List.mem_flatMap.2 ⟨o, ho, hmem⟩)
  exact hapart.name_ne rfl

theorem gives_field (hm : m.Coherent) {f : FieldType} (hf : f ∈ m.fields) {key key' : String}
    (hk : f.accepts key = true) (hk' : f.accepts key' = true) {j j' : Json}
    (hread : ∀ v, f.slot.read (inside.read access) j = .ok v ↔
      f.slot.read (inside.read access) j' = .ok v) :
    m.Gives inside access ((some key, j) :: es) vs ps ↔
      m.Gives inside access ((some key', j') :: es) vs ps := by
  apply gives_congr
  · simp [passable_cons, accepts, hm.field? hf hk, hm.field? hf hk']
  · intro g hg v
    by_cases hgf : g = f
    · subst hgf
      simp only [FieldType.takes_cons_pos hk, FieldType.takes_cons_pos hk', hread]
    · have hne {key : String} (hk : f.accepts key = true) : g.accepts key = false :=
        hm.accepts_false (field_mem_parts hf) (field_mem_parts hg) hgf hk
      rw [FieldType.takes_cons_neg (hne hk), FieldType.takes_cons_neg (hne hk')]
  · intro o ho p
    have hnone {key : String} (hk : f.accepts key = true) : o.member? key = none :=
      hm.member?_eq_none ho (field_mem_parts hf) (hm.not_mem_members ho hf) hk
    rw [OneofType.takes_cons_neg (hnone hk), OneofType.takes_cons_neg (hnone hk')]

theorem gives_member (hm : m.Coherent) {o : OneofType} (ho : o ∈ m.oneofs) {f : FieldType}
    (hf : f ∈ o.members) {key key' : String} (hk : f.accepts key = true)
    (hk' : f.accepts key' = true) {j j' : Json}
    (hskip : j.isReadable inside.room = j'.isReadable inside.room)
    (hread : ∀ v, inside.read .kept (.one f.slot.type) j = .ok v ↔
      inside.read .kept (.one f.slot.type) j' = .ok v) :
    m.Gives inside access ((some key, j) :: es) vs ps ↔
      m.Gives inside access ((some key', j') :: es) vs ps := by
  have hfield {key : String} (hk : f.accepts key = true) : m.field? key = none :=
    hm.field?_member ho hf hk
  apply gives_congr
  · simp [passable_cons, accepts, hfield hk, hfield hk', skips, List.ne_nil_of_mem ho, hskip]
  · intro g hg v
    rw [FieldType.takes_cons_neg (accepts_false_of_field? (hfield hk) hg),
      FieldType.takes_cons_neg (accepts_false_of_field? (hfield hk') hg)]
  · intro o' ho' p
    by_cases hf' : f ∈ o'.members
    · simp only [OneofType.takes_cons_pos (hm.member? ho' hf' hk),
        OneofType.takes_cons_pos (hm.member? ho' hf' hk'), hread]
    · have hnone {key : String} (hk : f.accepts key = true) : o'.member? key = none :=
        hm.member?_eq_none ho' (member_mem_parts ho hf) hf' hk
      rw [OneofType.takes_cons_neg (hnone hk), OneofType.takes_cons_neg (hnone hk')]

theorem gives_insert {key : String} (hk : ∀ f ∈ m.parts, f.accepts key = false) {j : Json}
    (hj : j.isSimple = true) :
    m.Gives inside access es vs ps ↔ m.Gives inside access ((some key, j) :: es) vs ps := by
  have hreadable := Json.isReadable_of_isSimple hj inside.room
  have hskip : m.skips inside.room j = true := by
    simp [skips, hreadable, Json.isWhole_of_isReadable j hreadable]
  apply gives_congr
  · simp [passable_cons, hskip]
  · intro f hf v
    rw [FieldType.takes_cons_neg (hk f (field_mem_parts hf))]
  · intro o ho p
    have hnone : o.member? key = none :=
      List.find?_eq_none.2 fun g hg => by simp [hk g (member_mem_parts ho hg)]
    rw [OneofType.takes_cons_neg hnone]

end MessageType

theorem readItems_replace {one : Shape → Json → Except ReadFault Value} {f : FieldType}
    {j j' : Json} (h : ∀ v, f.slot.read one j = .ok v ↔ f.slot.read one j' = .ok v)
    {fs : List FieldType} {before after : List Json} (hf : fs[before.length]? = some f)
    {r : List Value × List Json} :
    readItems one fs (before ++ j :: after) = .ok r ↔
      readItems one fs (before ++ j' :: after) = .ok r := by
  induction before generalizing fs r with
  | nil =>
    cases fs with
    | nil => cases hf
    | cons g fs =>
      obtain rfl : g = f := by simpa using hf
      simp only [List.nil_append, readItems, bind_eq_ok, h]
  | cons k before ih =>
    cases fs with
    | nil => cases hf
    | cons g fs =>
      have hf' : fs[before.length]? = some f := by simpa using hf
      simp only [List.cons_append, readItems, bind_eq_ok, ih hf']

namespace Json

theorem readableItems_eq_all (room : Nat) (js : List Json) :
    readableItems room js = js.all (isReadable room) := by
  induction js with
  | nil => rfl
  | cons j js ih => rw [readableItems, ih, List.all_cons]

theorem readableEntries_eq_all (room : Nat) (es : List (Option String × Json)) :
    readableEntries room es = es.all fun e => e.1.isSome && e.2.isReadable room := by
  induction es with
  | nil => rfl
  | cons e es ih => rw [readableEntries, ih, List.all_cons]

end Json

namespace Catalog.Alike

variable {c : Catalog} {s : Shape} {j k : Json}

theorem eq_or_hasParts (h : c.Alike s j k) : j = k ∨ j.hasParts = true ∧ k.hasParts = true := by
  induction h with
  | refl => exact .inl rfl
  | symm _ ih => exact ih.imp Eq.symm And.symm
  | trans _ _ ih ih' => grind
  | reorder | field | member | insert | item | position => exact .inr ⟨rfl, rfl⟩

theorem isAbsence_eq (h : c.Alike s j k) (slot : Slot) : slot.isAbsence j = slot.isAbsence k := by
  have habsence {j : Json} (hj : j.hasParts = true) : slot.isAbsence j = false := by
    obtain ⟨label, type⟩ := slot
    cases j
    case array | object => simp [Slot.isAbsence, Json.isNull]
    all_goals cases hj
  rcases h.eq_or_hasParts with rfl | ⟨hj, hk⟩
  · rfl
  · rw [habsence hj, habsence hk]

theorem isReadable_eq (h : c.Alike s j k) (room : Nat) : j.isReadable room = k.isReadable room := by
  induction h generalizing room with
  | refl => rfl
  | symm _ ih => exact (ih room).symm
  | trans _ _ ih ih' => exact (ih room).trans (ih' room)
  | reorder _ h => simp only [Json.isReadable, Json.readableEntries_eq_all, h.all_eq]
  | field _ _ _ _ _ ih | member _ _ _ _ _ _ ih =>
    simp only [Json.isReadable, Json.readableEntries, ih, Option.isSome_some]
  | insert _ _ hj =>
    simp [Json.isReadable, Json.readableEntries, Json.isReadable_of_isSimple hj]
  | item _ ih | position _ _ _ ih =>
    simp only [Json.isReadable, Json.readableItems_eq_all, List.all_append, List.all_cons, ih]

end Catalog.Alike

namespace Catalog

variable {c : Catalog} {name : String} {m : MessageType} {room : Nat} {access : Access} {v : Value}

theorem read_object_congr (hc : c.Coherent) (hm : c.message? name = some m)
    {es es' : List (Option String × Json)} {closed : Bool}
    (h : ∀ room vs ps, m.Gives ⟨room, c.read room⟩ access es vs ps ↔
      m.Gives ⟨room, c.read room⟩ access es' vs ps) :
    c.read room access (.one (.message name)) (.object es closed) = .ok v ↔
      c.read room access (.one (.message name)) (.object es' closed) = .ok v := by
  cases room with
  | zero => simp [read_message_zero hm]
  | succ room =>
    rw [read_message_eq_ok hc hm, read_message_eq_ok hc hm]
    simp [h]

theorem read_slot_congr {slot : Slot} {j k : Json} (h : c.Alike slot.shape j k)
    (hread : ∀ v, c.read room access slot.shape j = .ok v ↔ c.read room access slot.shape k = .ok v) :
    slot.read (c.read room access) j = .ok v ↔ slot.read (c.read room access) k = .ok v := by
  rw [Slot.read, Slot.read, h.isAbsence_eq slot]
  split
  · rfl
  · exact hread v

/-- Two ways to write a value are read alike. The induction is on how the one is made of the other;
room and access are those of the place where the objects stand. -/
theorem Alike.read_iff (hc : c.Coherent) {s : Shape} {j k : Json} (h : c.Alike s j k) (room : Nat)
    (access : Access) (v : Value) :
    c.read room access s j = .ok v ↔ c.read room access s k = .ok v := by
  induction h generalizing room access v with
  | refl => rfl
  | symm _ ih => exact (ih room access v).symm
  | trans _ _ ih ih' => exact (ih room access v).trans (ih' room access v)
  | reorder hm h =>
    apply read_object_congr hc hm
    intro room vs ps
    exact MessageType.gives_perm h
  | field hm hf hk hk' h ih =>
    apply read_object_congr hc hm
    intro room vs ps
    apply MessageType.gives_field (hc.message? hm) hf hk hk'
    intro v
    exact read_slot_congr h fun v => ih room access v
  | member hm ho hf hk hk' h ih =>
    apply read_object_congr hc hm
    intro room vs ps
    apply MessageType.gives_member (hc.message? hm) ho hf hk hk' (h.isReadable_eq room)
    intro v
    exact ih room .kept v
  | insert hm hk hj =>
    apply read_object_congr hc hm
    intro room vs ps
    exact MessageType.gives_insert hk hj
  | @item t before after closed j j' h ih =>
    cases room with
    | zero => rfl
    | succ room =>
      have hitems (vs : List Value) :
          List.Forall₂ (fun i v => c.read room access (.one t) i = .ok v) (before ++ j :: after) vs ↔
            List.Forall₂ (fun i v => c.read room access (.one t) i = .ok v)
              (before ++ j' :: after) vs := forall₂_replace fun v => ih room access v
      rw [read_list_eq_ok, read_list_eq_ok]
      grind
  | @position name m hm f before after hf closed j j' h ih =>
    cases room with
    | zero => simp [read_message_zero hm]
    | succ room =>
      have hitems (r : List Value × List Json) :
          readItems (c.read room access) m.fields (before ++ j :: after) = .ok r ↔
            readItems (c.read room access) m.fields (before ++ j' :: after) = .ok r :=
        readItems_replace (fun v => read_slot_congr h fun v => ih room access v) hf
      rw [read_message_eq_ok hc hm, read_message_eq_ok hc hm]
      grind

end Catalog

namespace Hdlctrl

/-- A message is read from every other way to write it. -/
theorem decode_of_alike {name text text' : String} {v : Value}
    (hv : catalog.decode (.message name) text = .ok v)
    (h : catalog.Alike (.one (.message name)) (Json.Document.ofText text).value
      (Json.Document.ofText text').value)
    (hcomplete : (Json.Document.ofText text').complete = true) :
    catalog.decode (.message name) text' = .ok v := by
  obtain ⟨hread, -⟩ := Catalog.readText_eq_ok.1 hv
  apply Catalog.readText_eq_ok.2
  exact ⟨(h.read_iff coherent_catalog _ _ _).1 hread, hcomplete⟩

def hostObject : Json :=
  .record [("accountId", .text "a"),
    ("remote", .record [("address", .text "x"), ("port", .number "7")])]

/-- The same host. Both objects have other entries and another order. -/
def hostRephrased : Json :=
  .record [("id_", .null), ("remote", .record [("name", .text "port"), ("port", .number "7"),
    ("address", .text "x")]), ("account_id", .text "a")]

theorem alike_hostRephrased : catalog.Alike (.one Host.type) hostObject hostRephrased := by
  have hremote : catalog.Alike (.one (.message "controller.HeadlessHost.Remote"))
      (.record [("address", .text "x"), ("port", .number "7")])
      (.record [("name", .text "port"), ("port", .number "7"), ("address", .text "x")]) :=
    .trans (.reorder rfl (.swap _ _ _)) (.insert rfl (by decide +kernel) rfl)
  have hname : catalog.Alike (.one Host.type) hostObject (.record [("account_id", .text "a"),
      ("remote", .record [("address", .text "x"), ("port", .number "7")])]) :=
    .field rfl (f := .optional "account_id" 4 .string) (by simp [headlessHost]) (by decide +kernel)
      (by decide +kernel) .refl
  have hmember : catalog.Alike (.one Host.type)
      (.record [("remote", .record [("address", .text "x"), ("port", .number "7")]),
        ("account_id", .text "a")])
      (.record [("remote", .record [("name", .text "port"), ("port", .number "7"),
        ("address", .text "x")]), ("account_id", .text "a")]) :=
    .member rfl (o := instanceMembers) (by simp [headlessHost])
      (f := .single "remote" 12 (.message "controller.HeadlessHost.Remote"))
      (by simp [instanceMembers]) (by decide +kernel) (by decide +kernel) hremote
  exact hname.trans (.trans (.reorder rfl (.swap _ _ _))
    (hmember.trans (.insert rfl (by decide +kernel) rfl)))

theorem hasText_hosts : hostObject.HasText ∧ hostRephrased.HasText := by
  have hport : (Json.number "7").HasText := show Json.Reader.number? _ = _ by decide
  exact ⟨⟨rfl, rfl, rfl, rfl, ⟨rfl, rfl, rfl, rfl, hport, trivial⟩, trivial⟩,
    ⟨rfl, rfl, trivial, rfl, ⟨rfl, rfl, rfl, rfl, hport, rfl, rfl, trivial⟩, rfl, rfl, trivial⟩⟩

theorem decode_hostRephrased :
    ∃ v, catalog.decode Host.type hostObject.toText = .ok v ∧
      catalog.Alike (.one Host.type) (Json.Document.ofText hostObject.toText).value
        (Json.Document.ofText hostRephrased.toText).value ∧
      (Json.Document.ofText hostRephrased.toText).complete = true ∧
      catalog.decode Host.type hostRephrased.toText = .ok v := by
  obtain ⟨htext, htext'⟩ := hasText_hosts
  have hdocument := Json.Document.ofText_toText htext
  have hdocument' := Json.Document.ofText_toText htext'
  obtain ⟨v, hread⟩ : ∃ v, catalog.read Catalog.maxDepth .streamed (.one Host.type) hostObject =
    .ok v := ⟨_, rfl⟩
  have hv : catalog.decode Host.type hostObject.toText = .ok v :=
    Catalog.readText_eq_ok.2 (by rw [hdocument]; exact ⟨hread, rfl⟩)
  have halike : catalog.Alike (.one Host.type) (Json.Document.ofText hostObject.toText).value
      (Json.Document.ofText hostRephrased.toText).value := by
    rw [hdocument, hdocument']
    exact alike_hostRephrased
  have hcomplete : (Json.Document.ofText hostRephrased.toText).complete = true := by
    rw [hdocument']
  exact ⟨v, hv, halike, hcomplete, decode_of_alike hv halike hcomplete⟩

end Hdlctrl

end ProtoSchema
