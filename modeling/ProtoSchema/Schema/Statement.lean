import ProtoSchema.Schema

/-! # Statements

Readers take statements off the front of a token list. A reader that fails says why and whether any
token was left; a failure in front of further tokens costs one statement, one at the end of the input
costs the file. `statements` reads a block this way and serves every block of the grammar.
-/

namespace ProtoSchema

/-- The result of a reader: a value and the tokens after it, or the reason of the failure and whether
the input was used up. -/
inductive Outcome (α : Type) where
  | ok (value : α) (rest : List Token)
  | failed (why : Diagnostic) (atEnd : Bool)
deriving DecidableEq

/-- A reader of tokens, given the place where the input ends. -/
def Reader (α : Type) : Type := Position → List Token → Outcome α

namespace Reader

variable {α β : Type}

protected def pure (a : α) : Reader α := fun _ ts => .ok a ts

protected def bind (r : Reader α) (f : α → Reader β) : Reader β := fun stop ts =>
  match r stop ts with
  | .ok a rest => f a stop rest
  | .failed why atEnd => .failed why atEnd

instance : Monad Reader where
  pure := Reader.pure
  bind := Reader.bind

/-- Fails at the given place, before the tokens at hand. -/
def failAt (p : Position) (c : Complaint) : Reader α := fun _ ts => .failed ⟨c, p⟩ ts.isEmpty

def fail (c : Complaint) : Reader α := fun stop ts =>
  match ts with
  | [] => .failed ⟨c, stop⟩ true
  | t :: _ => .failed ⟨c, t.position⟩ false

def want (w : Wanted) : Reader α := fun stop ts =>
  match ts with
  | [] => .failed ⟨.endOfFile w, stop⟩ true
  | t :: _ => .failed ⟨.expected w t.text, t.position⟩ false

def token (test : String → Bool) (w : Wanted) : Reader Token := fun stop ts =>
  match ts with
  | [] => want w stop []
  | t :: rest => if test t.text then .ok t rest else want w stop (t :: rest)

def word (text : String) : Reader Token := token (· == text) (.word text)

def optionalWord (text : String) : Reader Bool := fun _ ts =>
  match ts with
  | [] => .ok false []
  | t :: rest => if t.text == text then .ok true rest else .ok false (t :: rest)

def isNext (text : String) : Reader Bool := fun _ ts => .ok (ts.head?.any (·.text == text)) ts

/-- Takes tokens up to the brace that closes `depth` open blocks. -/
def closeBlock : Nat → Reader Unit
  | _, stop, [] => want (.word "\x7d") stop []
  | depth, stop, t :: ts =>
    if t.text == "\x7b" then closeBlock (depth + 1) stop ts
    else if t.text == "\x7d" then
      if depth ≤ 1 then .ok () ts else closeBlock (depth - 1) stop ts
    else closeBlock depth stop ts

def skipBlock : Reader Unit := do
  let _ ← word "\x7b"
  closeBlock 1

/-- Takes the rest of a statement: past the next semicolon or past a block, but never the brace that
closes the surrounding block. -/
def skipStatement : Reader Unit
  | _, [] => .ok () []
  | stop, t :: ts =>
    if t.text == "\x7b" then closeBlock 1 stop ts
    else if t.text == "\x7d" then .ok () (t :: ts)
    else if t.text == ";" then .ok () ts
    else skipStatement stop ts

end Reader

/-- A value together with the diagnostics of the statements skipped inside it. -/
structure Noted (α : Type) where
  value : α
  notes : List Diagnostic := []
deriving DecidableEq, Repr

/-- The tokens after a statement that started in front of `ts`: a statement takes at least one. -/
def afterFirst (ts rest : List Token) : List Token := if rest.length ≤ ts.length then rest else ts

theorem length_afterFirst (ts rest : List Token) : (afterFirst ts rest).length ≤ ts.length := by
  unfold afterFirst
  split <;> omega

/-- The statements of a block up to its closing brace, or of the whole file. A statement that fails
becomes a note; a statement that yields nothing, such as a lone semicolon, is dropped. -/
def statements {ι : Type} (inBlock : Bool) (statement : Reader (Noted (Option ι)))
    (stop : Position) (ts : List Token) : Outcome (Noted (List ι)) :=
  match ts with
  | [] => if inBlock then Reader.want (.word "\x7d") stop [] else .ok ⟨[], []⟩ []
  | t :: rest =>
    if inBlock && t.text == "\x7d" then .ok ⟨[], []⟩ rest
    else
      match statement stop (t :: rest) with
      | .ok item after =>
        match statements inBlock statement stop (afterFirst rest after) with
        | .ok more final => .ok ⟨item.value.toList ++ more.value, item.notes ++ more.notes⟩ final
        | .failed why atEnd => .failed why atEnd
      | .failed why true => .failed why true
      | .failed why false =>
        match Reader.skipStatement stop (t :: rest) with
        | .failed why atEnd => .failed why atEnd
        | .ok () after =>
          match statements inBlock statement stop (afterFirst rest after) with
          | .ok more final => .ok ⟨more.value, why :: more.notes⟩ final
          | .failed why atEnd => .failed why atEnd
termination_by ts.length
decreasing_by
  all_goals
    have := length_afterFirst rest after
    simp only [List.length_cons]
    omega

end ProtoSchema
