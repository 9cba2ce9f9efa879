import ProtoSchema.Proofs.Schema.Names
import ProtoSchema.Proofs.Schema.Position

/-! # The shape of what is read

Every position in a schema that was read is that of one of its tokens. Reading moves with the
positions, so a map that keeps those of the tokens keeps the schema. One that keeps no others leaves
no others to be there.
-/

namespace ProtoSchema

/-- Keeps the positions in `ps` and no others. -/
def Position.keeping (ps : List Position) (p : Position) : Position :=
  if p ∈ ps then p else ⟨p.line + 1, p.column⟩

theorem Position.keeping_eq_self {ps : List Position} {p : Position} :
    keeping ps p = p ↔ p ∈ ps := by
  unfold keeping
  split
  · next h => simp [h]
  · next h =>
    refine iff_of_false (fun heq => ?_) h
    exact Nat.succ_ne_self _ (congrArg Position.line heq)

theorem map_eq_self {α : Type} {e : α → α} {as : List α} : as.map e = as ↔ ∀ a ∈ as, e a = a := by
  simpa using List.map_inj_left (l := as) (f := e) (g := id)

variable {φ : Position → Position}

theorem Field.position_of_move {f : Field} (h : f.move φ = f) : φ f.position = f.position :=
  congrArg Field.position h

theorem Message.fields_of_move {m : Message} (h : m.move φ = m) :
    ∀ f ∈ m.allFields, φ f.position = f.position := by
  obtain ⟨name, position, fields, oneofs, messages, enums⟩ := m
  obtain ⟨-, -, hfields, honeofs, -, -⟩ := Message.mk.inj h
  intro f hf
  rcases List.mem_append.1 hf with hf | hf
  · exact Field.position_of_move (map_eq_self.1 hfields f hf)
  · obtain ⟨o, ho, hf⟩ := List.mem_flatMap.1 hf
    have hmembers := congrArg Oneof.fields (map_eq_self.1 honeofs o ho)
    exact Field.position_of_move (map_eq_self.1 hmembers f hf)

/-- What moves with a type are its own position and those of its fields. -/
def TypeDef.Kept (φ : Position → Position) : TypeDef → Prop
  | message m => m.move φ = m
  | enum e => e.move φ = e

theorem TypeDef.Kept.position {d : TypeDef} (h : d.Kept φ) : φ d.position = d.position := by
  cases d with
  | message m =>
    obtain ⟨name, position, fields, oneofs, messages, enums⟩ := m
    exact (Message.mk.inj h).2.1
  | enum e => exact congrArg Enum.position h

theorem Declared.kept {ms : List Message} {es : List Enum} {path : List String} {d : TypeDef}
    (h : Declared ms es path d) (hms : ∀ m ∈ ms, m.move φ = m) (hes : ∀ e ∈ es, e.move φ = e) :
    d.Kept φ := by
  induction h with
  | message hm => exact hms _ hm
  | enum he => exact hes _ he
  | @inner _ _ m _ _ hm _ ih =>
    have hmove := hms _ hm
    obtain ⟨name, position, fields, oneofs, messages, enums⟩ := m
    obtain ⟨-, -, -, -, hmessages, henums⟩ := Message.mk.inj hmove
    rw [Message.moveAll_eq_map] at hmessages
    exact ih (map_eq_self.1 hmessages) (map_eq_self.1 henums)

namespace Schema

/-- All positions of types, at any depth, of their fields and of diagnostics are among `ps`. -/
structure PlacedIn (s : Schema) (ps : List Position) : Prop where
  types : ∀ path d, s.Declares path d → d.position ∈ ps
  fields : ∀ path m, s.Declares path (.message m) → ∀ f ∈ m.allFields, f.position ∈ ps
  diagnostics : ∀ d ∈ s.diagnostics, d.position ∈ ps

theorem placedIn_of_move {s : Schema} {ps : List Position}
    (h : s.move (Position.keeping ps) = s) : s.PlacedIn ps := by
  have hmessages := map_eq_self.1 (congrArg Schema.messages h)
  have henums := map_eq_self.1 (congrArg Schema.enums h)
  have hnotes := map_eq_self.1 (congrArg Schema.diagnostics h)
  refine ⟨fun path d hd => ?_, fun path m hm f hf => ?_, fun d hd => ?_⟩
  · exact Position.keeping_eq_self.1 (Declared.kept hd hmessages henums).position
  · exact Position.keeping_eq_self.1
      (Message.fields_of_move (Declared.kept hm hmessages henums) f hf)
  · exact Position.keeping_eq_self.1 (congrArg Diagnostic.position (hnotes d hd))

theorem map_move_keeping (tokens : List Token) :
    tokens.map (Token.move (Position.keeping (tokens.map (·.position)))) = tokens := by
  refine map_eq_self.2 fun t ht => ?_
  rw [Token.move, Position.keeping_eq_self.2 (List.mem_map_of_mem ht)]

theorem placedIn_of_ofTokens {tokens : List Token} {s : Schema} (h : ofTokens tokens = .ok s) :
    s.PlacedIn (tokens.map (·.position)) := by
  have hmove := ofTokens_move (φ := Position.keeping (tokens.map (·.position))) tokens
  rw [map_move_keeping, h] at hmove
  exact placedIn_of_move (Except.ok.inj hmove).symm

/-- Whatever the tokens are and however often reading had to recover, names are identifiers, types
are references, the members of oneofs are optional, and all positions are those of tokens. -/
theorem shaped_and_placed_of_parse {tokens : List Token} {s : Schema}
    (h : Schema.parse tokens = .ok s) :
    s.Shaped ∧ s.PlacedIn (tokens.map (·.position)) := by
  refine ⟨shaped_of_parse h, ?_⟩
  rw [parse] at h
  split at h
  · next hread =>
    cases h
    exact placedIn_of_ofTokens hread
  · cases h
  · cases h

/-- A message with a repeated member and a number where a statement should be. -/
def brokenParts : List Token :=
  (["package", "a.b", ";", "message", "M", "\x7b", "oneof", "one", "\x7b", "repeated", "int32", "x",
    "=", "1", ";", ".c.D", "y", "=", "2", ";", "\x7d", "7", ";", "\x7d", "service", "S", "\x7b", "rpc",
    "R", "(", "M", ")", "returns", "(", "c.D", ")", ";", "\x7d", ""].zipIdx 1).map
      fun w => ⟨w.1, 1, w.2⟩

def sparedParts : Schema where
  package := "a.b"
  messages :=
    [⟨"M", ⟨1, 5⟩, [], [⟨"one", [⟨"y", ⟨1, 17⟩, ".c.D", 2, .optional, false⟩]⟩], [], []⟩]
  services := [⟨"S", [⟨"R", "M", "c.D"⟩]⟩]
  diagnostics := [⟨.repeatedInOneof, ⟨1, 10⟩⟩, ⟨.expected (.kind "field type") "7", ⟨1, 22⟩⟩]

theorem parse_brokenParts : Schema.parse brokenParts = .ok sparedParts := by decide +kernel

theorem shaped_and_placed_brokenParts :
    Schema.parse brokenParts = .ok sparedParts ∧
      sparedParts.Shaped ∧ sparedParts.PlacedIn (brokenParts.map (·.position)) :=
  ⟨parse_brokenParts, shaped_and_placed_of_parse parse_brokenParts⟩

end Schema

end ProtoSchema
