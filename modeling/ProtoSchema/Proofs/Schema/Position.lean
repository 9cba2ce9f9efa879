import Mathlib.Data.List.TakeWhile
import ProtoSchema.Proofs.Schema.Reader

/-! # Positions

A reader looks at the texts of tokens and only hands on their positions. So when every position is
moved, what is read has its positions moved and is the same otherwise.
-/

namespace ProtoSchema

variable (φ : Position → Position)

def Token.move (t : Token) : Token := ⟨t.text, φ t.position⟩

def Diagnostic.move (d : Diagnostic) : Diagnostic := ⟨d.complaint, φ d.position⟩

def Field.move (f : Field) : Field := { f with position := φ f.position }

def Oneof.move (o : Oneof) : Oneof := { o with fields := o.fields.map (Field.move φ) }

def Enum.move (e : Enum) : Enum := { e with position := φ e.position }

mutual

def Message.move : Message → Message
  | ⟨name, position, fields, oneofs, messages, enums⟩ =>
    ⟨name, φ position, fields.map (Field.move φ), oneofs.map (Oneof.move φ),
      Message.moveAll messages, enums.map (Enum.move φ)⟩

def Message.moveAll : List Message → List Message
  | [] => []
  | m :: ms => m.move :: Message.moveAll ms

end

theorem Message.moveAll_eq_map (ms : List Message) : moveAll φ ms = ms.map (move φ) := by
  induction ms with
  | nil => rfl
  | cons m ms ih => rw [moveAll, ih, List.map_cons]

def Member.move : Member → Member
  | field f => field (f.move φ)
  | oneof o => oneof (o.move φ)
  | message m => message (m.move φ)
  | enum e => enum (e.move φ)

def Declaration.move : Declaration → Declaration
  | message m => message (m.move φ)
  | enum e => enum (e.move φ)
  | d => d

def Schema.move (s : Schema) : Schema :=
  { s with
    messages := s.messages.map (Message.move φ)
    enums := s.enums.map (Enum.move φ)
    diagnostics := s.diagnostics.map (Diagnostic.move φ) }

def Noted.move {α : Type} (e : α → α) (x : Noted α) : Noted α :=
  ⟨e x.value, x.notes.map (Diagnostic.move φ)⟩

def Outcome.move {α : Type} (e : α → α) : Outcome α → Outcome α
  | ok a rest => ok (e a) (rest.map (Token.move φ))
  | failed why atEnd => failed (why.move φ) atEnd

@[simp] theorem Token.move_text (t : Token) : (t.move φ).text = t.text := rfl

theorem filterMap_map_move {α β : Type} {e : α → α} {e' : β → β} {pick : α → Option β}
    (h : ∀ a, pick (e a) = (pick a).map e') (as : List α) :
    (as.map e).filterMap pick = (as.filterMap pick).map e' := by
  rw [List.filterMap_map, List.map_filterMap]
  exact congrArg (List.filterMap · as) (funext h)

theorem Message.move_ofMembers (name : Token) (ms : List Member) :
    (ofMembers name ms).move φ = ofMembers (name.move φ) (ms.map (Member.move φ)) := by
  simp only [ofMembers, Message.move, Message.moveAll_eq_map, Message.mk.injEq]
  refine ⟨rfl, rfl, ?_, ?_, ?_, ?_⟩
  all_goals
    symm
    apply filterMap_map_move
    rintro (_ | _ | _ | _) <;> rfl

theorem Schema.move_ofDeclarations (ds : List Declaration) (notes : List Diagnostic) :
    (ofDeclarations ds notes).move φ =
      ofDeclarations (ds.map (Declaration.move φ)) (notes.map (Diagnostic.move φ)) := by
  have hkeep {β : Type} {pick : Declaration → Option β} (h : ∀ d, pick (d.move φ) = pick d) :
      (ds.map (Declaration.move φ)).filterMap pick = ds.filterMap pick := by
    rw [List.filterMap_map]
    exact congrArg (List.filterMap · ds) (funext h)
  simp only [ofDeclarations, Schema.move, Schema.mk.injEq, and_true]
  refine ⟨?_, ?_, ?_, ?_, ?_, ?_, ?_⟩
  · rw [hkeep (by rintro (_ | _ | _ | _ | _ | _ | _) <;> rfl)]
  · rw [hkeep (by rintro (_ | _ | _ | _ | _ | _ | _) <;> rfl)]
  · rw [hkeep (by rintro (_ | _ | _ | _ | _ | _ | _) <;> rfl)]
  · rw [hkeep (by rintro (_ | _ | _ | _ | _ | _ | _) <;> rfl)]
  · exact (filterMap_map_move (by rintro (_ | _ | _ | _ | _ | _ | _) <;> rfl) ds).symm
  · exact (filterMap_map_move (by rintro (_ | _ | _ | _ | _ | _ | _) <;> rfl) ds).symm
  · rw [hkeep (by rintro (_ | _ | _ | _ | _ | _ | _) <;> rfl)]

namespace Reader

variable {φ} {α β : Type} {e : α → α} {e' : β → β}

/-- The second reader does on moved tokens what the first does on the tokens as they are. -/
def Moves (φ : Position → Position) (e : α → α) (r r' : Reader α) : Prop :=
  ∀ stop ts, r' (φ stop) (ts.map (Token.move φ)) = (r stop ts).move φ e

theorem Moves.pure (a : α) : Moves φ e (Pure.pure a : Reader α) (Pure.pure (e a) : Reader α) :=
  fun _ _ => rfl

theorem Moves.bind {r r' : Reader α} {f f' : α → Reader β} (hr : Moves φ e r r')
    (hf : ∀ a, Moves φ e' (f a) (f' (e a))) : Moves φ e' (r >>= f) (r' >>= f') := by
  intro stop ts
  change Reader.bind r' f' _ _ = (Reader.bind r f stop ts).move φ e'
  unfold Reader.bind
  rw [hr stop ts]
  cases r stop ts with
  | ok a rest => exact hf a stop rest
  | failed why atEnd => rfl

theorem moves_failAt (p : Position) (c : Complaint) :
    Moves φ e (failAt p c) (failAt (φ p) c) := by
  intro stop ts
  cases ts <;> rfl

theorem moves_fail (c : Complaint) : Moves φ e (fail c) (fail c) := by
  intro stop ts
  cases ts <;> rfl

theorem moves_want (w : Wanted) : Moves φ e (want w) (want w) := by
  intro stop ts
  cases ts <;> rfl

theorem moves_token (test : String → Bool) (w : Wanted) :
    Moves φ (Token.move φ) (token test w) (token test w) := by
  intro stop ts
  cases ts with
  | nil => rfl
  | cons t ts =>
    by_cases h : test t.text = true
    · simp [token, h, Outcome.move]
    · simpa [token, h] using moves_want w stop (t :: ts)

theorem moves_word (text : String) : Moves φ (Token.move φ) (word text) (word text) :=
  moves_token _ _

theorem moves_optionalWord (text : String) :
    Moves φ id (optionalWord text) (optionalWord text) := by
  intro stop ts
  cases ts with
  | nil => rfl
  | cons t ts =>
    by_cases h : t.text = text <;> simp [optionalWord, h, Outcome.move]

theorem moves_isNext (text : String) : Moves φ id (isNext text) (isNext text) := by
  intro stop ts
  cases ts <;> rfl

theorem moves_closeBlock (depth : Nat) : Moves φ id (closeBlock depth) (closeBlock depth) := by
  intro stop ts
  induction ts generalizing depth with
  | nil => rfl
  | cons t ts ih =>
    by_cases hopen : t.text = "\x7b"
    · simpa [closeBlock, hopen] using ih (depth + 1)
    · by_cases hclose : t.text = "\x7d"
      · by_cases hdepth : depth ≤ 1
        · simp [closeBlock, hclose, hdepth, Outcome.move]
        · simpa [closeBlock, hclose, hdepth] using ih (depth - 1)
      · simpa [closeBlock, hopen, hclose] using ih depth

theorem moves_skipBlock : Moves φ id skipBlock skipBlock :=
  (moves_word _).bind fun _ => moves_closeBlock 1

theorem moves_skipStatement : Moves φ id skipStatement skipStatement := by
  intro stop ts
  induction ts with
  | nil => rfl
  | cons t ts ih =>
    by_cases hopen : t.text = "\x7b"
    · simpa [skipStatement, hopen] using moves_closeBlock 1 stop ts
    · by_cases hclose : t.text = "\x7d"
      · simp [skipStatement, hclose, Outcome.move]
      · by_cases hend : t.text = ";"
        · simp [skipStatement, hend, Outcome.move]
        · simpa [skipStatement, hopen, hclose, hend] using ih

theorem moves_stringLiteral (description : String) :
    Moves φ id (stringLiteral description) (stringLiteral description) :=
  (moves_token _ _).bind fun t => .pure (Word.literalValue t.text)

theorem moves_integer (description : String) :
    Moves φ id (integer description) (integer description) := by
  refine (moves_token _ _).bind fun t => ?_
  simp only [Token.move_text]
  split
  · exact .pure _
  · exact moves_failAt t.position _

theorem moves_optionsFrom (deprecated : Bool) (depth : Nat) :
    Moves φ id (optionsFrom deprecated depth) (optionsFrom deprecated depth) := by
  intro stop ts
  fun_induction optionsFrom deprecated depth stop ts with
  | case1 b depth stop => by_cases h : depth = 0 <;> rw [optionsFrom.eq_def] <;> rfl
  | case2 b depth stop t ts hd ho ih =>
    rw [List.map_cons, optionsFrom_opens hd (by simpa using ho), ih]
  | case3 b depth stop t ts hd _ hc ih =>
    rw [List.map_cons, optionsFrom_closes hd (by simpa using hc), ih]
  | case4 b depth stop t ts hd ho hc ih =>
    rw [List.map_cons, optionsFrom_inside hd (by simpa using ho) (by simpa using hc), ih]
  | case5 b depth stop t ts hd h =>
    obtain rfl : depth = 0 := by simpa using hd
    rw [List.map_cons, optionsFrom_end (by simpa using h)]
    rfl
  | case6 b depth stop t hd _ h =>
    obtain rfl : depth = 0 := by simpa using hd
    rw [List.map_cons, optionsFrom.eq_def]
    simp_all [Outcome.move, want, Diagnostic.move]
  | case7 b depth stop t hd _ h e he =>
    obtain rfl : depth = 0 := by simpa using hd
    rw [List.map_cons, optionsFrom.eq_def]
    simp_all [Outcome.move, want, Diagnostic.move]
  | case8 b depth stop t hd _ h e he v ts ih =>
    obtain rfl : depth = 0 := by simpa using hd
    simp only [List.map_cons]
    rw [optionsFrom_value (by simpa using h) (by simpa using he), Token.move_text, ih]
  | case9 b depth stop t hd _ h e ts he ih =>
    obtain rfl : depth = 0 := by simpa using hd
    rw [List.map_cons, List.map_cons, optionsFrom_noValue (by simpa using h) (by simpa using he),
      ← ih, List.map_cons]
  | case10 b depth stop t ts hd _ _ h ih =>
    obtain rfl : depth = 0 := by simpa using hd
    rw [List.map_cons, optionsFrom_block (by simpa using h), ih]
  | case11 b depth stop t ts hd _ _ _ h =>
    obtain rfl : depth = 0 := by simpa using hd
    rw [List.map_cons, optionsFrom_broken (by simpa using h)]
    rfl
  | case12 b depth stop t ts hd h₁ h₂ h₃ h₄ ih =>
    obtain rfl : depth = 0 := by simpa using hd
    rw [List.map_cons, optionsFrom_other (by simp_all), ih]

theorem moves_options : Moves φ id options options := by
  refine (moves_optionalWord _).bind fun found => ?_
  cases found with
  | false => exact .pure _
  | true => exact moves_optionsFrom false 0

end Reader

open Reader

section Statements

variable {φ} {ι α : Type} {e : ι → ι} {statement : Reader (Noted (Option ι))}

theorem map_afterFirst (ts rest : List Token) :
    (afterFirst ts rest).map (Token.move φ) =
      afterFirst (ts.map (Token.move φ)) (rest.map (Token.move φ)) := by
  by_cases h : rest.length ≤ ts.length <;> simp [afterFirst, h]

theorem Outcome.move_prepend (item : List ι) (notes : List Diagnostic)
    (o : Outcome (Noted (List ι))) :
    (o.prepend item notes).move φ (Noted.move φ (List.map e)) =
      (o.move φ (Noted.move φ (List.map e))).prepend (item.map e)
        (notes.map (Diagnostic.move φ)) := by
  cases o <;> simp [Outcome.prepend, Outcome.move, Noted.move]

theorem moves_statements (hs : Moves φ (Noted.move φ (Option.map e)) statement statement)
    (inBlock : Bool) : Moves φ (Noted.move φ (List.map e)) (statements inBlock statement)
      (statements inBlock statement) := by
  intro stop ts
  induction hn : ts.length using Nat.strongRecOn generalizing ts with
  | ind n ih =>
    subst hn
    cases ts with
    | nil =>
      cases inBlock
      · rw [List.map_nil, statements_nil_file, statements_nil_file]
        rfl
      · rw [List.map_nil, statements_nil_block, statements_nil_block]
        rfl
    | cons t ts =>
      by_cases hc : inBlock = false ∨ t.text ≠ "\x7d"
      · have hrest (after : List Token) := ih (afterFirst ts after).length
          (Nat.lt_succ_of_le (length_afterFirst ts after)) (afterFirst ts after) rfl
        have hmoved := hs stop (t :: ts)
        cases h : statement stop (t :: ts) with
        | ok item after =>
          rw [h] at hmoved
          have hitem : (item.value.map e).toList = item.value.toList.map e := by
            cases item.value <;> rfl
          rw [statements_ok hc h, Outcome.move_prepend, ← hrest, map_afterFirst, ← hitem]
          exact statements_ok (t := t.move φ) hc hmoved
        | failed why atEnd =>
          rw [h] at hmoved
          cases atEnd with
          | true =>
            rw [statements_fatal hc h]
            exact statements_fatal hc hmoved
          | false =>
            have hskipped := moves_skipStatement (φ := φ) stop (t :: ts)
            cases hk : skipStatement stop (t :: ts) with
            | ok a after =>
              rw [hk] at hskipped
              rw [statements_skip hc h hk, Outcome.move_prepend, ← hrest, map_afterFirst]
              exact statements_skip hc hmoved hskipped
            | failed why' atEnd =>
              rw [hk] at hskipped
              rw [statements_stuck hc h hk]
              exact statements_stuck hc hmoved hskipped
      · obtain ⟨hblock, htext⟩ := not_or.1 hc
        obtain rfl : inBlock = true := by simpa using hblock
        have htext : t.text = "\x7d" := by simpa using htext
        rw [statements_close htext, List.map_cons, statements_close (t := t.move φ) htext]
        rfl

theorem moves_nothing {r : Reader Unit} (hr : Moves φ id r r) :
    Moves φ (Noted.move φ (Option.map e)) (nothing r) (nothing r) :=
  hr.bind fun _ => .pure _

theorem moves_declares {r : Reader ι} (hr : Moves φ e r r) :
    Moves φ (Noted.move φ (Option.map e)) (declares r) (declares r) :=
  hr.bind fun x => .pure (Noted.mk (some x) [])

theorem moves_byWord {e : α → α} {choose : String → Reader α}
    (h : ∀ w, Moves φ e (choose w) (choose w)) : Moves φ e (byWord choose) (byWord choose) := by
  intro stop ts
  cases ts with
  | nil => exact h "" stop []
  | cons t ts => exact h t.text stop (t :: ts)

theorem moves_block (keyword description : String)
    (hs : Moves φ (Noted.move φ (Option.map e)) statement statement) :
    Moves φ (Prod.map (Token.move φ) (Noted.move φ (List.map e)))
      (block keyword description statement) (block keyword description statement) :=
  (moves_word _).bind fun _ => (moves_token _ _).bind fun name => (moves_word _).bind fun _ =>
    (moves_statements hs true).bind fun items => .pure (name, items)

theorem moves_semicolon : Moves φ id semicolon semicolon :=
  (moves_word _).bind fun _ => .pure ()

end Statements

section Declarations

variable {φ}

theorem Label.moves_reader (inOneof : Bool) :
    Moves φ id (Label.reader inOneof) (Label.reader inOneof) := by
  refine (moves_isNext _).bind fun next => ?_
  cases next with
  | true =>
    cases inOneof with
    | true => exact moves_fail _
    | false => exact (moves_word _).bind fun _ => .pure Label.repeated
  | false =>
    refine (moves_optionalWord _).bind fun found => ?_
    cases found with
    | true => exact .pure Label.optional
    | false => exact (moves_optionalWord _).bind fun _ => .pure _

theorem Field.moves_unsupported? : Moves φ id
    (fun _ ts => .ok (Field.unsupported? ts) ts : Reader (Option String))
    (fun _ ts => .ok (Field.unsupported? ts) ts : Reader (Option String)) := by
  intro stop ts
  rcases ts with _ | ⟨t, _ | ⟨u, ts⟩⟩ <;> rfl

theorem Field.moves_reader (inOneof : Bool) :
    Moves φ (Field.move φ) (Field.reader inOneof) (Field.reader inOneof) := by
  refine (Label.moves_reader inOneof).bind fun label => Field.moves_unsupported?.bind fun what => ?_
  cases what with
  | some what => exact moves_fail _
  | none =>
    exact (moves_token _ _).bind fun type => (moves_token _ _).bind fun name =>
      (moves_word _).bind fun _ => (moves_integer _).bind fun number => moves_options.bind fun b =>
      (moves_word _).bind fun _ => .pure (Field.mk name.text name.position type.text number label b)

theorem EnumValue.moves_reader : Moves φ id EnumValue.reader EnumValue.reader :=
  (moves_token _ _).bind fun name => (moves_word _).bind fun _ =>
    (moves_integer _).bind fun number => moves_options.bind fun b =>
    (moves_word _).bind fun _ => .pure (EnumValue.mk name.text number b)

theorem Rpc.moves_reader : Moves φ id Rpc.reader Rpc.reader := by
  refine (moves_word _).bind fun start => (moves_token _ _).bind fun name =>
    (moves_word _).bind fun _ => (moves_optionalWord _).bind fun streamsIn =>
    (moves_token _ _).bind fun request => (moves_word _).bind fun _ => (moves_word _).bind fun _ =>
    (moves_word _).bind fun _ => (moves_optionalWord _).bind fun streamsOut =>
    (moves_token _ _).bind fun response => (moves_word _).bind fun _ =>
    (moves_isNext _).bind fun next => ?_
  have hlast : Moves φ id
      (if streamsIn || streamsOut then failAt start.position .streaming
        else return (⟨name.text, request.text, response.text⟩ : Rpc))
      (if streamsIn || streamsOut then failAt (φ start.position) .streaming
        else return (⟨name.text, request.text, response.text⟩ : Rpc)) := by
    cases streamsIn || streamsOut with
    | true => exact moves_failAt _ _
    | false => exact .pure _
  cases next with
  | true => exact moves_skipBlock.bind fun _ => hlast
  | false => exact (moves_word _).bind fun _ => hlast

theorem Oneof.moves_statement :
    Moves φ (Noted.move φ (Option.map (Field.move φ))) Oneof.statement Oneof.statement := by
  refine moves_byWord fun w => ?_
  split
  · exact moves_nothing moves_skipStatement
  · split
    · exact moves_nothing moves_semicolon
    · exact moves_declares (Field.moves_reader true)

theorem Oneof.moves_reader : Moves φ (Noted.move φ (Oneof.move φ)) Oneof.reader Oneof.reader :=
  (moves_block _ _ Oneof.moves_statement).bind fun (name, items) =>
    .pure (Noted.mk (Oneof.mk name.text items.value) items.notes)

theorem Enum.moves_statement :
    Moves φ (Noted.move φ (Option.map id)) Enum.statement Enum.statement := by
  refine moves_byWord fun w => ?_
  split
  · exact moves_nothing moves_skipStatement
  · split
    · exact moves_nothing moves_semicolon
    · exact moves_declares EnumValue.moves_reader

theorem Enum.moves_reader : Moves φ (Noted.move φ (Enum.move φ)) Enum.reader Enum.reader := by
  refine (moves_block _ _ Enum.moves_statement).bind fun (name, items) => ?_
  have hvalue := Moves.pure (e := Noted.move φ (Enum.move φ)) (φ := φ)
    (Noted.mk ⟨name.text, name.position, items.value⟩ items.notes)
  simpa [Noted.move, Enum.move, Token.move] using hvalue

theorem Service.moves_statement :
    Moves φ (Noted.move φ (Option.map id)) Service.statement Service.statement := by
  refine moves_byWord fun w => ?_
  split
  · exact moves_nothing moves_skipStatement
  · split
    · exact moves_nothing moves_semicolon
    · split
      · exact moves_declares Rpc.moves_reader
      · exact moves_fail _

theorem Service.moves_reader : Moves φ (Noted.move φ id) Service.reader Service.reader := by
  refine (moves_block _ _ Service.moves_statement).bind fun (name, items) => ?_
  have hvalue := Moves.pure (e := Noted.move φ id) (φ := φ)
    (Noted.mk (Service.mk name.text items.value) items.notes)
  simpa [Noted.move] using hvalue

theorem Member.moves_noted {α : Type} {e : α → α} {wrap : α → Member} {r : Reader (Noted α)}
    (hw : ∀ a, wrap (e a) = (wrap a).move φ) (hr : Moves φ (Noted.move φ e) r r) :
    Moves φ (Noted.move φ (Option.map (Member.move φ))) (Member.noted wrap r)
      (Member.noted wrap r) := by
  refine hr.bind fun x => ?_
  have hvalue := Moves.pure (e := Noted.move φ (Option.map (Member.move φ))) (φ := φ)
    (Noted.mk (some (wrap x.value)) x.notes)
  simpa [Noted.move, hw] using hvalue

theorem Member.moves_statement {nested : Reader (Noted Message)}
    (hn : Moves φ (Noted.move φ (Message.move φ)) nested nested) :
    Moves φ (Noted.move φ (Option.map (Member.move φ))) (Member.statement nested)
      (Member.statement nested) := by
  refine moves_byWord fun w => ?_
  split
  · exact moves_noted (fun _ => rfl) hn
  · split
    · exact moves_noted (fun _ => rfl) Enum.moves_reader
    · split
      · exact moves_noted (fun _ => rfl) Oneof.moves_reader
      · split
        · exact moves_nothing moves_skipStatement
        · split
          · exact moves_fail _
          · split
            · exact moves_fail _
            · split
              · exact moves_nothing moves_semicolon
              · exact (Field.moves_reader false).bind fun f => .pure (Noted.mk (some (field f)) [])

theorem Message.moves_readerWithin (depth : Nat) :
    Moves φ (Noted.move φ (Message.move φ)) (readerWithin depth) (readerWithin depth) := by
  induction depth with
  | zero => exact moves_want _
  | succ depth ih =>
    refine (moves_block _ _ (Member.moves_statement ih)).bind fun (name, items) => ?_
    have hvalue := Moves.pure (e := Noted.move φ (Message.move φ)) (φ := φ)
      (Noted.mk (ofMembers name items.value) items.notes)
    simpa [Noted.move, Message.move_ofMembers] using hvalue

theorem Message.moves_reader : Moves φ (Noted.move φ (Message.move φ)) reader reader := by
  intro stop ts
  rw [reader, List.length_map]
  exact moves_readerWithin ts.length stop ts

namespace Declaration

theorem moves_dialectReader : Moves φ (Declaration.move φ) dialectReader dialectReader :=
  (moves_token _ _).bind fun _ => (moves_word _).bind fun _ =>
    (moves_stringLiteral _).bind fun name => (moves_word _).bind fun _ => .pure (dialect name)

theorem moves_packageReader : Moves φ (Declaration.move φ) packageReader packageReader :=
  (moves_word _).bind fun _ => (moves_token _ _).bind fun name => (moves_word _).bind fun _ =>
    .pure (package name.text)

theorem moves_pathReader : Moves φ (Declaration.move φ) pathReader pathReader := by
  refine (moves_word _).bind fun _ => (moves_optionalWord _).bind fun isPublic => ?_
  have hlast : Moves φ (Declaration.move φ)
      (do
        let imported ← stringLiteral "import path"
        let _ ← word ";"
        return path imported)
      (do
        let imported ← stringLiteral "import path"
        let _ ← word ";"
        return path imported) :=
    (moves_stringLiteral _).bind fun imported => (moves_word _).bind fun _ => .pure (path imported)
  cases isPublic with
  | true => exact hlast
  | false => exact (moves_optionalWord _).bind fun _ => hlast

theorem moves_optionReader :
    Moves φ (Noted.move φ (Option.map (Declaration.move φ))) optionReader optionReader := by
  intro stop ts
  have hskip := moves_nothing (e := Declaration.move φ) (moves_skipStatement (φ := φ)) stop ts
  match ts with
  | [] | [_] | [_, _] | [_, _, _] | [_, _, _, _] => exact hskip
  | t :: key :: eq :: value :: semi :: rest =>
    by_cases h : (key.text == "rust_module" && eq.text == "=" && Word.isStringLiteral value.text
        && semi.text == ";") = true
    · simp only [List.map_cons, optionReader, Token.move_text, h]
      rfl
    · simp only [List.map_cons, optionReader, Token.move_text, h]
      exact hskip

theorem moves_noted {α : Type} {e : α → α} {wrap : α → Declaration} {r : Reader (Noted α)}
    (hw : ∀ a, wrap (e a) = (wrap a).move φ) (hr : Moves φ (Noted.move φ e) r r) :
    Moves φ (Noted.move φ (Option.map (Declaration.move φ))) (noted wrap r) (noted wrap r) := by
  refine hr.bind fun x => ?_
  have hvalue := Moves.pure (e := Noted.move φ (Option.map (Declaration.move φ))) (φ := φ)
    (Noted.mk (some (wrap x.value)) x.notes)
  simpa [Noted.move, hw] using hvalue

theorem moves_statement :
    Moves φ (Noted.move φ (Option.map (Declaration.move φ))) statement statement := by
  refine moves_byWord fun w => ?_
  split
  · exact moves_declares moves_dialectReader
  · split
    · exact moves_declares moves_packageReader
    · split
      · exact moves_declares moves_pathReader
      · split
        · exact moves_optionReader
        · split
          · exact moves_noted (fun _ => rfl) Message.moves_reader
          · split
            · exact moves_noted (fun _ => rfl) Enum.moves_reader
            · split
              · exact moves_noted (fun _ => rfl) Service.moves_reader
              · split
                · exact moves_fail _
                · split
                  · exact moves_nothing moves_semicolon
                  · exact moves_fail _

end Declaration

def Schema.ReadError.move (φ : Position → Position) : Schema.ReadError → Schema.ReadError
  | noEnd => noEnd
  | unfinished why => unfinished (why.move φ)

theorem Schema.ofTokens_move (ts : List Token) :
    ofTokens (ts.map (Token.move φ)) =
      ((ofTokens ts).map (Schema.move φ)).mapError (ReadError.move φ) := by
  have hend : (fun t : Token => !t.isEnd) ∘ Token.move φ = fun t => !t.isEnd := rfl
  have hlast : (ts.map (Token.move φ)).getLast?.any Token.isEnd = ts.getLast?.any Token.isEnd := by
    rw [List.getLast?_map, Option.any_map]
    rfl
  unfold ofTokens
  rw [hlast, List.takeWhile_map, List.dropWhile_map, hend, List.head?_map]
  by_cases h : ts.getLast?.any Token.isEnd = true
  · obtain ⟨stop, hstop⟩ : ∃ t, (ts.dropWhile fun t => !t.isEnd).head? = some t := by
      obtain ⟨t, ht, htend⟩ := (Option.any_eq_true _ _).1 h
      refine Option.isSome_iff_exists.1 (List.isSome_head?.2 fun hnil => ?_)
      have hall := List.dropWhile_eq_nil_iff.1 hnil t (List.mem_of_getLast? ht)
      simp [htend] at hall
    have hmoved := moves_statements (φ := φ) Declaration.moves_statement false stop.position
      (ts.takeWhile fun t => !t.isEnd)
    rw [if_pos h, if_pos h, hstop]
    simp only [Option.map_some, Option.elim_some, Token.move] at hmoved ⊢
    rw [hmoved]
    cases statements false Declaration.statement stop.position (ts.takeWhile fun t => !t.isEnd) with
    | ok ds rest =>
      simp [Outcome.move, Noted.move, Except.map, Except.mapError, Schema.move_ofDeclarations]
    | failed why atEnd => rfl
  · rw [if_neg h, if_neg h]
    rfl

end Declarations

end ProtoSchema
