import ProtoSchema.Proofs.Schema.Position
import ProtoSchema.Proofs.Schema.WellFormed
import ProtoSchema.Proofs.Token.Splitting

/-! # Schemas without positions

The checks of a schema look at its names and numbers, never at its positions. Together with the
readers, which only hand positions on, this makes the layout of a text irrelevant: texts with the same
words compile to the same schema up to positions, or fail for the same reason.
-/

namespace ProtoSchema

variable {φ : Position → Position}

theorem Field.checkAll_move (path : String) (names : List String) (numbers : List Int)
    (fs : List Field) :
    checkAll path names numbers (fs.map (move φ)) = checkAll path names numbers fs := by
  induction fs generalizing names numbers with
  | nil => rfl
  | cons f fs ih =>
    rw [List.map_cons, checkAll, checkAll, ih]
    rfl

theorem Oneof.flatMap_fields_move (os : List Oneof) :
    (os.map (move φ)).flatMap (·.fields) = (os.flatMap (·.fields)).map (Field.move φ) := by
  rw [List.flatMap_map, List.map_flatMap]
  rfl

theorem Enum.checkAll_move (pathOf : String → String) (es : List Enum) :
    checkAll pathOf (es.map (move φ)) = checkAll pathOf es := by
  induction es with
  | nil => rfl
  | cons e es ih =>
    rw [List.map_cons, checkAll, checkAll, ih]
    rfl

theorem Message.name_move (m : Message) : (m.move φ).name = m.name := by
  cases m
  rfl

theorem checkTypeNames_move (scope : String) (ms : List Message) (es : List Enum) :
    checkTypeNames scope (ms.map (Message.move φ)) (es.map (Enum.move φ)) =
      checkTypeNames scope ms es := by
  have hms : (ms.map (Message.move φ)).map (·.name) = ms.map (·.name) := by
    rw [List.map_map]
    exact List.map_congr_left fun m _ => Message.name_move m
  have hes : (es.map (Enum.move φ)).map (·.name) = es.map (·.name) := by
    rw [List.map_map]
    rfl
  rw [checkTypeNames, checkTypeNames, hms, hes]

mutual

theorem Message.check_move (path : String) : ∀ m : Message, (m.move φ).check path = m.check path
  | ⟨name, position, fields, oneofs, messages, enums⟩ => by
    have honeofs : (oneofs.map (Oneof.move φ)).map (·.name) = oneofs.map (·.name) := by
      rw [List.map_map]
      rfl
    rw [Message.move, Message.check, Message.check, Oneof.flatMap_fields_move, ← List.map_append,
      Field.checkAll_move, honeofs, Message.checkAll_move _ messages, Enum.checkAll_move,
      Message.moveAll_eq_map, checkTypeNames_move]

theorem Message.checkAll_move (pathOf : String → String) :
    ∀ ms : List Message, Message.checkAll pathOf (Message.moveAll φ ms) = Message.checkAll pathOf ms
  | [] => by rw [Message.moveAll]
  | m :: ms => by
    rw [Message.moveAll, Message.checkAll, Message.checkAll, Message.name_move,
      Message.check_move _ m, Message.checkAll_move pathOf ms]

end

namespace Schema

theorem check_move (s : Schema) : (s.move φ).check = s.check := by
  simp only [check, move, ← Message.moveAll_eq_map, Message.checkAll_move, Enum.checkAll_move]
  rw [Message.moveAll_eq_map, checkTypeNames_move]
  rfl

/-- A schema with line and column one everywhere. -/
def unplaced (s : Schema) : Schema := s.move fun _ => .start

theorem check_of_unplaced_eq {s s' : Schema} (h : s.unplaced = s'.unplaced) :
    s.check = s'.check := by
  rw [← check_move s, ← check_move s']
  exact congrArg check h

theorem ofTokens_of_texts_eq {ts us : List Token} (h : ts.map (·.text) = us.map (·.text)) :
    ((ofTokens ts).map unplaced).mapError (ReadError.move fun _ => .start) =
      ((ofTokens us).map unplaced).mapError (ReadError.move fun _ => .start) := by
  have hmoved : ts.map (Token.move fun _ => .start) = us.map (Token.move fun _ => .start) := by
    have hplace := congrArg (List.map fun w => Token.mk w .start) h
    rwa [List.map_map, List.map_map] at hplace
  have hts := ofTokens_move (φ := fun _ => .start) ts
  have hus := ofTokens_move (φ := fun _ => .start) us
  rw [hmoved, hus] at hts
  exact hts.symm

theorem read_of_scan {text : String} {ts : List Token} (h : Token.scan text = .ok ts) :
    read text = parse ts := by
  rw [read, h]

theorem ofTokens_ne_noEnd {text : String} {ts : List Token} (h : Token.scan text = .ok ts) :
    ofTokens ts ≠ .error .noEnd := by
  rw [ofTokens, if_pos (Token.getLast?_of_scan h)]
  dsimp only
  split <;> simp

/-- Texts with the same words compile to schemas that differ in positions at most, or both fail: with
the same complaint about their grammar, at places of their own, or with the same defect. -/
theorem compile_unplaced {a b : String} {ts us : List Token} (ha : Token.scan a = .ok ts)
    (hb : Token.scan b = .ok us) (h : ts.map (·.text) = us.map (·.text)) :
    (∃ s s', compile a = .ok s ∧ compile b = .ok s' ∧ s.unplaced = s'.unplaced) ∨
    (∃ c p q, compile a = .error (.grammar ⟨c, p⟩) ∧ compile b = .error (.grammar ⟨c, q⟩)) ∨
    ∃ d, compile a = .error (.defect d) ∧ compile b = .error (.defect d) := by
  have halike := ofTokens_of_texts_eq h
  rcases hts : ofTokens ts with (_ | ⟨c, p⟩) | s
  · exact absurd hts (ofTokens_ne_noEnd ha)
  · rcases hus : ofTokens us with (_ | ⟨c', q⟩) | s'
    · exact absurd hus (ofTokens_ne_noEnd hb)
    · rw [hts, hus] at halike
      obtain rfl : c = c' := by
        simpa [Except.map, Except.mapError, ReadError.move, Diagnostic.move] using halike
      refine Or.inr (Or.inl ⟨c, p, q, ?_, ?_⟩)
      · rw [compile, read_of_scan ha, parse, hts]
        rfl
      · rw [compile, read_of_scan hb, parse, hus]
        rfl
    · rw [hts, hus] at halike
      cases halike
  · rcases hus : ofTokens us with (_ | ⟨c, q⟩) | s'
    · exact absurd hus (ofTokens_ne_noEnd hb)
    · rw [hts, hus] at halike
      cases halike
    · rw [hts, hus] at halike
      have hs : s.unplaced = s'.unplaced := by simpa [Except.map, Except.mapError] using halike
      have hreada : read a = .ok s := by rw [read_of_scan ha, parse, hts]
      have hreadb : read b = .ok s' := by rw [read_of_scan hb, parse, hus]
      rw [compile_of_read hreada, compile_of_read hreadb, ← check_of_unplaced_eq hs]
      cases s.check with
      | error d => exact Or.inr (Or.inr ⟨d, rfl, rfl⟩)
      | ok u => exact Or.inl ⟨s, s', rfl, rfl, hs⟩

/-- The same words in one line and in three; the first statement of both is skipped. -/
theorem compile_unplaced_lines :
    ∃ s s', compile "x;message M\x7b\x7d" = .ok s ∧
      compile "x // note\n;message\n M \x7b /* \x7d */ \x7d" = .ok s' ∧
      s.unplaced = s'.unplaced := by
  have ha : Token.scan "x;message M\x7b\x7d" =
      .ok [⟨"x", ⟨1, 1⟩⟩, ⟨";", ⟨1, 2⟩⟩, ⟨"message", ⟨1, 3⟩⟩, ⟨"M", ⟨1, 11⟩⟩, ⟨"\x7b", ⟨1, 12⟩⟩,
        ⟨"\x7d", ⟨1, 13⟩⟩, ⟨"", ⟨1, 14⟩⟩] := by decide +kernel
  have hb : Token.scan "x // note\n;message\n M \x7b /* \x7d */ \x7d" =
      .ok [⟨"x", ⟨1, 1⟩⟩, ⟨";", ⟨2, 1⟩⟩, ⟨"message", ⟨2, 2⟩⟩, ⟨"M", ⟨3, 2⟩⟩, ⟨"\x7b", ⟨3, 4⟩⟩,
        ⟨"\x7d", ⟨3, 14⟩⟩, ⟨"", ⟨3, 15⟩⟩] := by decide +kernel
  have hs : compile "x;message M\x7b\x7d" =
      .ok { messages := [⟨"M", ⟨1, 11⟩, [], [], [], []⟩],
            diagnostics := [⟨.unexpected "x", ⟨1, 1⟩⟩] } := by decide +kernel
  rcases compile_unplaced ha hb rfl with h | ⟨c, p, q, hc, -⟩ | ⟨d, hd, -⟩
  · exact h
  · rw [hs] at hc
    cases hc
  · rw [hs] at hd
    cases hd

end Schema

end ProtoSchema
