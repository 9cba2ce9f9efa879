import ProtoSchema.Proofs.Catalog.Hdlctrl
import ProtoSchema.Proofs.Value.Entries
import ProtoSchema.Value.Steps

/-! # Where a host lives

A host holds at most one member of its oneof, whatever was set, cleared and loaded before. The
getters, the case, its number and the JSON object all show the same member.
-/

namespace ProtoSchema

theorem ValueType.exists_found_of_readLeaf {s : Scalar} {inside : Option Interior} {j : Json}
    {v : Value} (h : (scalar s).readLeaf inside j = .ok v) :
    ∃ f, j.found = .ok f ∧ s.ofFound f = .ok v := by
  rw [readLeaf] at h
  split at h
  · cases h
  · obtain ⟨f, hf, h⟩ := bind_eq_ok.1 h
    refine ⟨f, hf, ?_⟩
    cases hv : s.ofFound f <;> simp_all [Except.mapError]

namespace Catalog

variable {c : Catalog} {room : Nat} {access : Access} {j : Json} {v : Value}

theorem exists_text_of_read (h : c.read room access (.one .string) j = .ok v) :
    ∃ s, v = .text s := by
  obtain ⟨inside, hread⟩ := c.read_scalar room access .string j
  obtain ⟨f, -, hv⟩ := ValueType.exists_found_of_readLeaf (hread ▸ h)
  cases f <;> simp_all [Scalar.ofFound, Found.toText, Found.wrong, Except.map, eq_comm]

theorem exists_int_of_read (h : c.read room access (.one .int32) j = .ok v) :
    ∃ n, v = .int n ∧ IntegerRange.signed32.contains n = true := by
  obtain ⟨inside, hread⟩ := c.read_scalar room access .int32 j
  obtain ⟨f, -, hv⟩ := ValueType.exists_found_of_readLeaf (hread ▸ h)
  cases f with
  | integer n =>
    cases hn : IntegerRange.signed32.contains n with
    | false => simp [Scalar.ofFound, Found.toInteger, hn, Except.map] at hv
    | true =>
      simp only [Scalar.ofFound, Found.toInteger, hn, Except.map, if_true, Except.ok.injEq] at hv
      exact ⟨n, hv.symm, hn⟩
  | _ => simp [Scalar.ofFound, Found.toInteger, Found.wrong, Except.map] at hv

theorem exists_of_mem_writeFields {fs : List FieldType} {vs : List Value} {e : String × Json}
    (he : e ∈ c.writeFields fs vs) : ∃ f ∈ fs, e.1 = f.jsonName := by
  induction fs generalizing vs with
  | nil => simp [writeFields] at he
  | cons f fs ih =>
    cases vs with
    | nil => simp [writeFields] at he
    | cons v vs =>
      rw [writeFields] at he
      split at he
      · obtain ⟨g, hg, hkey⟩ := ih he
        exact ⟨g, List.mem_cons_of_mem f hg, hkey⟩
      · rcases List.mem_cons.1 he with rfl | he
        · exact ⟨f, List.mem_cons_self, rfl⟩
        · obtain ⟨g, hg, hkey⟩ := ih he
          exact ⟨g, List.mem_cons_of_mem f hg, hkey⟩

end Catalog

namespace Hdlctrl.Host

theorem message?_host : catalog.message? "controller.HeadlessHost" = some headlessHost := rfl

theorem message?_remote : catalog.message? "controller.HeadlessHost.Remote" = some remote := rfl

inductive Instance where
  | containerId (s : String)
  | pid (n : Int)
  | remote (address : String) (port : Int)
deriving DecidableEq, Repr

namespace Instance

def member : Instance → FieldType
  | containerId _ => .single "container_id" 10 .string
  | pid _ => .single "pid" 11 .int32
  | remote _ _ => .single "remote" 12 (.message "controller.HeadlessHost.Remote")

def value : Instance → Value
  | containerId s => .text s
  | pid n => .int n
  | remote address port => .record [.text address, .int port] []

def step : Instance → Step
  | containerId s => .setContainerId s
  | pid n => .setPid n
  | remote address port => .setRemote address port

/-- Its integers have 32 bits. -/
def IsTyped : Instance → Prop
  | containerId _ => True
  | pid n | remote _ n => IntegerRange.signed32.contains n = true

def containerId? : Instance → Option String
  | containerId s => some s
  | _ => none

def pid? : Instance → Option Int
  | pid n => some n
  | _ => none

def remote? : Instance → Option (String × Int)
  | remote address port => some (address, port)
  | _ => none

def pick (x : Option Instance) : Value := x.elim .absent fun y => .member y.member.name y.value

theorem member_mem (x : Instance) : x.member ∈ instanceMembers.members := by
  cases x <;> simp [member, instanceMembers]

theorem member?_jsonName (x : Instance) :
    instanceMembers.member? x.member.jsonName = some x.member :=
  (coherent_catalog.message? message?_host).member? List.mem_cons_self x.member_mem
    x.member.accepts_jsonName

theorem hasType {x : Instance} (hx : x.IsTyped) : catalog.HasType x.member.slot.type x.value := by
  cases x with
  | containerId s => exact .leaf (.text s)
  | pid n => exact .leaf (.integer rfl hx)
  | remote address port =>
    exact .record rfl (.cons (.one (by decide) (.leaf (.text address)))
      (.cons (.one (by decide) (.leaf (.integer rfl hx))) .nil)) .nil

theorem read_write {x : Instance} (hx : x.IsTyped) (room : Nat) (access : Access) :
    catalog.read (room + 1) access (.one x.member.slot.type)
      (catalog.write x.member.slot.type x.value) = .ok x.value := by
  have htype : x.member.slot.type.Coherent := by cases x <;> trivial
  have hdepth : (catalog.write x.member.slot.type x.value).depth ≤ 1 := by
    cases x with
    | containerId s => exact Nat.zero_le 1
    | pid n => exact Nat.zero_le 1
    | remote address port =>
      change (Json.record (catalog.writeFields Hdlctrl.remote.fields [.text address, .int port] ++
        [])).depth ≤ 1
      simp only [Hdlctrl.remote, Catalog.writeFields]
      split <;> split <;> exact Nat.le_refl 1
  have hzero : x.value.NoNegativeZero := by
    cases x <;> simp [value, Value.NoNegativeZero, Value.AllNoNegativeZero]
  obtain ⟨w, hread, hw⟩ :=
    Catalog.restoresWithin coherent_catalog (room + 1) (hasType hx) htype
      (hdepth.trans (Nat.le_add_left 1 room)) access
  rw [hread, hw.eq hzero]

end Instance

/-- Everything that can be seen of the oneof of a host says the same: at most one getter answers,
the case is the member it belongs to, and the JSON object has the key of that member only and is
read back as what the host holds. -/
structure Shows (host : Value) (x : Option Instance) : Prop where
  containerId : containerId? host = x.bind Instance.containerId?
  pid : pid? host = x.bind Instance.pid?
  remote : remote? host = x.bind Instance.remote?
  answers : [(containerId? host).isSome, (pid? host).isSome, (remote? host).isSome].count true =
    x.toList.length
  case : case? host = x.map Instance.member
  json : ∃ es, catalog.write type host = .record es ∧
    es.filter (fun e => instanceMembers.accepts e.1) = x.toList.map (fun y =>
      (y.member.jsonName, catalog.write y.member.slot.type y.value)) ∧
    ∀ room access, instanceMembers.read (catalog.read (room + 1) access) (asEntries es) =
      .ok (Instance.pick x)

theorem entriesWith_asEntries (p : String → Bool) (es : List (String × Json)) :
    entriesWith p (asEntries es) = asEntries (es.filter fun e => p e.1) := by
  rw [entriesWith, asEntries, asEntries, List.filter_map]
  rfl

theorem filter_write (vs : List Value) (x : Option Instance) :
    (catalog.writeFields headlessHost.fields vs ++
      catalog.writePicks headlessHost.oneofs [Instance.pick x]).filter
        (fun e => instanceMembers.accepts e.1) =
      x.toList.map fun y => (y.member.jsonName, catalog.write y.member.slot.type y.value) := by
  have hfields : ∀ f ∈ headlessHost.fields, instanceMembers.accepts f.jsonName = false := by
    decide +kernel
  have hnone : ∀ e ∈ catalog.writeFields headlessHost.fields vs,
      ¬ instanceMembers.accepts e.1 = true := by
    intro e he
    obtain ⟨f, hf, hkey⟩ := Catalog.exists_of_mem_writeFields he
    simp [hkey, hfields f hf]
  rw [List.filter_append, List.filter_eq_nil_iff.2 hnone, List.nil_append, headlessHost,
    Catalog.writePicks_cons]
  cases x with
  | none => rfl
  | some y =>
    have hn : instanceMembers.named? y.member.name = some y.member := by cases y <;> rfl
    simp [Instance.pick, Catalog.pickEntry_member hn, OneofType.accepts, y.member?_jsonName,
      Catalog.writePicks]

theorem shows_record (vs : List Value) {x : Option Instance} (hx : ∀ y ∈ x, y.IsTyped) :
    Shows (.record vs [Instance.pick x]) x where
  containerId := by rcases x with - | - | - | - <;> rfl
  pid := by rcases x with - | - | - | - <;> rfl
  remote := by rcases x with - | - | - | - <;> rfl
  answers := by rcases x with - | - | - | - <;> rfl
  case := by rcases x with - | - | - | - <;> rfl
  json := by
    refine ⟨_, Catalog.write_record rfl vs [Instance.pick x], filter_write vs x, ?_⟩
    intro room access
    have hskip : ∀ e ∈ asEntries (catalog.writeFields headlessHost.fields vs ++
        catalog.writePicks headlessHost.oneofs [Instance.pick x]),
        e.1.isSome = true ∧ e.2.isWhole = true := by
      intro e he
      obtain ⟨e', he', rfl⟩ := List.mem_map.1 he
      exact ⟨rfl, List.forall_mem_append.2 ⟨Catalog.isWhole_writeFields _ _ _,
        Catalog.isWhole_writePicks _ _ _⟩ e' he'⟩
    rw [OneofType.read_eq_ok hskip, OneofType.Takes, entriesWith_asEntries, filter_write]
    cases x with
    | none => exact .inl ⟨rfl, rfl⟩
    | some y => exact .inr ⟨_, _, y.member, y.value, rfl, y.member?_jsonName,
        Instance.read_write (hx y rfl) room access, rfl⟩

theorem exists_text_of_slot {room : Nat} {access : Access} {v : Value}
    (h : v = (Slot.mk .implicit .string).default ∨
      ∃ j, (Slot.mk .implicit .string).read (catalog.read room access) j = .ok v) :
    ∃ s, v = .text s := by
  rcases h with rfl | ⟨j, hj⟩
  · exact ⟨"", rfl⟩
  · exact Catalog.exists_text_of_read hj

theorem exists_int_of_slot {room : Nat} {access : Access} {v : Value}
    (h : v = (Slot.mk .implicit .int32).default ∨
      ∃ j, (Slot.mk .implicit .int32).read (catalog.read room access) j = .ok v) :
    ∃ n, v = .int n ∧ IntegerRange.signed32.contains n = true := by
  rcases h with rfl | ⟨j, hj⟩
  · exact ⟨0, rfl, by decide⟩
  · exact Catalog.exists_int_of_read hj

theorem exists_remote_of_read {room : Nat} {access : Access} {j : Json} {v : Value}
    (h : catalog.read (room + 1) access (.one (.message "controller.HeadlessHost.Remote")) j =
      .ok v) :
    ∃ address port, v = .record [.text address, .int port] [] ∧
      IntegerRange.signed32.contains port = true := by
  obtain ⟨vs, ps, rfl, hfields, honeofs⟩ :=
    Catalog.exists_parts_of_read coherent_catalog message?_remote h
  cases honeofs
  cases hfields with
  | cons haddress hrest =>
    cases hrest with
    | cons hport hnil =>
      cases hnil
      obtain ⟨address, rfl⟩ := exists_text_of_slot haddress
      obtain ⟨port, rfl, hrange⟩ := exists_int_of_slot hport
      exact ⟨address, port, rfl, hrange⟩

theorem exists_instance_of_takes {room : Nat} {es : List (Option String × Json)} {p : Value}
    (h : instanceMembers.Takes (catalog.read (room + 1) .kept) es p) :
    ∃ x : Option Instance, p = Instance.pick x ∧ ∀ y ∈ x, y.IsTyped := by
  rcases h with ⟨-, rfl⟩ | ⟨key, j, f, v, -, hf, hv, rfl⟩
  · exact ⟨none, rfl, fun _ hy => nomatch hy⟩
  · have hmem : f ∈ instanceMembers.members := List.mem_of_find?_eq_some hf
    suffices hx : ∃ x : Instance, f = x.member ∧ v = x.value ∧ x.IsTyped by
      obtain ⟨x, rfl, rfl, hx⟩ := hx
      exact ⟨some x, rfl, fun y hy => Option.some.inj hy ▸ hx⟩
    simp only [instanceMembers, List.mem_cons, List.not_mem_nil, or_false] at hmem
    rcases hmem with rfl | rfl | rfl
    · obtain ⟨s, rfl⟩ := Catalog.exists_text_of_read hv
      exact ⟨.containerId s, rfl, rfl, trivial⟩
    · obtain ⟨n, rfl, hn⟩ := Catalog.exists_int_of_read hv
      exact ⟨.pid n, rfl, rfl, hn⟩
    · obtain ⟨address, port, rfl, hport⟩ := exists_remote_of_read hv
      exact ⟨.remote address port, rfl, rfl, hport⟩

theorem exists_instance_of_decode {json : String} {v : Value}
    (h : catalog.decode type json = .ok v) :
    ∃ vs x, v = .record vs [Instance.pick x] ∧ ∀ y ∈ x, y.IsTyped := by
  obtain ⟨hread, -⟩ := Catalog.readText_eq_ok.1 h
  obtain ⟨vs, ps, rfl, -, honeofs⟩ :=
    Catalog.exists_parts_of_read coherent_catalog message?_host hread
  cases honeofs with
  | cons hp hnil =>
    cases hnil
    obtain ⟨es, htakes⟩ := hp
    obtain ⟨x, rfl, hx⟩ := exists_instance_of_takes htakes
    exact ⟨vs, x, rfl, hx⟩

/-- The integers that a change sets have 32 bits. -/
def Step.IsTyped (s : Step) : Prop := ∀ x : Instance, s = x.step → x.IsTyped

/-- The host after some changes to an empty one. -/
def after (steps : List Step) : Value := steps.foldl (Steps.advance step) headlessHost.default

structure Follows (host : Value) (s : Step) (next : Value) : Prop where
  set : ∀ x : Instance, s = x.step → Shows next (some x)
  clear : s = .clear → Shows next none
  loaded : ∀ json v, s = .load json → catalog.decode type json = .ok v → next = v
  refused : ∀ json fault, s = .load json → catalog.decode type json = .error fault → next = host

/-- A host has one oneof, which holds something of its type or nothing. -/
def Holds (host : Value) (x : Option Instance) : Prop :=
  (∃ vs, host = .record vs [Instance.pick x]) ∧ ∀ y ∈ x, y.IsTyped

theorem Holds.shows {host : Value} {x : Option Instance} (h : Holds host x) : Shows host x := by
  obtain ⟨⟨vs, rfl⟩, hx⟩ := h
  exact shows_record vs hx

theorem holds_default : Holds headlessHost.default none :=
  ⟨⟨_, rfl⟩, fun _ hy => nomatch hy⟩

theorem Holds.set {host : Value} {x : Option Instance} (h : Holds host x) {y : Instance}
    (hy : y.IsTyped) : Holds (Steps.advance step host y.step) (some y) := by
  obtain ⟨⟨vs, rfl⟩, -⟩ := h
  have hstep : Steps.advance step (.record vs [Instance.pick x]) y.step =
      .record vs [Instance.pick (some y)] := by cases y <;> rfl
  exact ⟨⟨vs, hstep⟩, fun z hz => Option.some.inj hz ▸ hy⟩

theorem Holds.clear {host : Value} {x : Option Instance} (h : Holds host x) :
    Holds (Steps.advance step host .clear) none := by
  obtain ⟨⟨vs, rfl⟩, -⟩ := h
  exact ⟨⟨vs, rfl⟩, fun _ hz => nomatch hz⟩

theorem Holds.load {host : Value} {x : Option Instance} (h : Holds host x) (json : String) :
    ∃ y, Holds (Steps.advance step host (.load json)) y := by
  cases hv : step host (.load json) with
  | error fault =>
    rw [Steps.advance_of_error step hv]
    exact ⟨x, h⟩
  | ok v =>
    obtain ⟨vs, y, hrecord, hy⟩ := exists_instance_of_decode hv
    rw [Steps.advance_of_ok step hv]
    exact ⟨y, ⟨vs, hrecord⟩, hy⟩

theorem Holds.advance {host : Value} {x : Option Instance} (h : Holds host x) {s : Step}
    (hs : s.IsTyped) : ∃ y, Holds (Steps.advance step host s) y := by
  cases s with
  | setContainerId id => exact ⟨_, h.set (y := .containerId id) trivial⟩
  | setPid n => exact ⟨_, h.set (y := .pid n) (hs _ rfl)⟩
  | setRemote address port => exact ⟨_, h.set (y := .remote address port) (hs _ rfl)⟩
  | clear => exact ⟨_, h.clear⟩
  | load json => exact h.load json

theorem Holds.follows {host : Value} {x : Option Instance} (h : Holds host x) {s : Step}
    (hs : s.IsTyped) : Follows host s (Steps.advance step host s) where
  set y hy := by
    subst hy
    exact (h.set (hs y rfl)).shows
  clear hclear := by
    subst hclear
    exact h.clear.shows
  loaded json v hload hv := by
    subst hload
    exact Steps.advance_of_ok step hv
  refused json fault hload hv := by
    subst hload
    exact Steps.advance_of_error step hv

theorem after_concat (steps : List Step) (s : Step) :
    after (steps ++ [s]) = Steps.advance step (after steps) s := List.foldl_concat ..

theorem exists_holds_after {steps : List Step} (h : ∀ s ∈ steps, s.IsTyped) :
    ∃ x, Holds (after steps) x := by
  induction steps using List.reverseRecOn with
  | nil => exact ⟨none, holds_default⟩
  | append_singleton steps s ih =>
    obtain ⟨hsteps, hs⟩ := List.forall_mem_append.1 h
    obtain ⟨x, hx⟩ := ih hsteps
    rw [after_concat]
    exact hx.advance (hs s (List.mem_singleton_self s))

/-- After every run of changes a host shows at most one member of its oneof, in all places the same
one. One more change shows the member that it sets, and none if it clears. A text that is loaded
takes the place of the host, and one that cannot be read changes nothing. -/
theorem shows_after (steps : List Step) (h : ∀ s ∈ steps, s.IsTyped) :
    (∃ x, Shows (after steps) x) ∧
      ∀ s : Step, s.IsTyped → Follows (after steps) s (after (steps ++ [s])) := by
  obtain ⟨x, hx⟩ := exists_holds_after h
  refine ⟨⟨x, hx.shows⟩, fun s hs => ?_⟩
  rw [after_concat]
  exact hx.follows hs

/-- A process number, a text with two members, and a container. -/
theorem shows_after_refusal :
    (∀ s ∈ [Step.setPid (-1), .load "\x7b\"pid\":1,\"remote\":\x7b\x7d\x7d"], s.IsTyped) ∧
      Shows (after [.setPid (-1), .load "\x7b\"pid\":1,\"remote\":\x7b\x7d\x7d", .setContainerId "c"])
        (some (.containerId "c")) := by
  have htyped : ∀ s ∈ [Step.setPid (-1), .load "\x7b\"pid\":1,\"remote\":\x7b\x7d\x7d"], s.IsTyped := by
    intro s hs x hx
    rcases List.mem_pair.1 hs with rfl | rfl
    · cases x <;> cases hx
      exact (by decide : IntegerRange.signed32.contains (-1) = true)
    · cases x <;> cases hx
  have hset : (Step.setContainerId "c").IsTyped := by
    intro x hx
    cases x <;> cases hx
    trivial
  exact ⟨htyped, ((shows_after _ htyped).2 _ hset).set (.containerId "c") rfl⟩

end Hdlctrl.Host

end ProtoSchema
