import Mathlib.Data.List.GetD
import ProtoSchema.Proofs.Schema.Closing

/-! # Reading in place

A parser that keeps the whole token list and moves a cursor over it, instead of passing on the
tokens that are left. It looks at tokens by their place; behind the last token it sees the last one.
A run records every place the cursor is put to and every recovery from a statement that could not be
read; a loop without end has no run. From any place up to the first end token, a run gets no further
than that token and ends the way the reader does on the tokens in front of it.
-/

namespace ProtoSchema

namespace Cursor

open Reader

/-- The token at a place, or the last one. -/
def tokenAt (tokens : List Token) (i : Nat) : Token :=
  tokens.getD (min i (tokens.length - 1)) default

/-- The place behind a token, unless it ends the input. -/
def advance (tokens : List Token) (i : Nat) : Nat :=
  if (tokenAt tokens i).isEnd then i else i + 1

def missing (tokens : List Token) (i : Nat) (w : Wanted) : Diagnostic where
  complaint :=
    if (tokenAt tokens i).isEnd then .endOfFile w else .expected w (tokenAt tokens i).text
  position := (tokenAt tokens i).position

def nesting (depth : Nat) (text : String) : Nat :=
  if text = "\x7b" then depth + 1 else if text = "\x7d" then depth - 1 else depth

/-- `Field.unsupported?` by places. -/
def unsupportedAt (tokens : List Token) (i : Nat) : Option String :=
  if (tokenAt tokens i).text == "map" && (tokenAt tokens (i + 1)).text == "<" then
    some "Map fields"
  else if (tokenAt tokens i).text == "group" then some "Groups"
  else none

/-- Whether the option at a place names the module. -/
def isModuleAt (tokens : List Token) (i : Nat) : Bool :=
  (tokenAt tokens (i + 1)).text == "rust_module" && (tokenAt tokens (i + 2)).text == "="
    && Word.isStringLiteral (tokenAt tokens (i + 3)).text && (tokenAt tokens (i + 4)).text == ";"

/-- What happens to the cursor: it is put to a place, or a recovery from the statement at `start`
puts it to `next`. -/
inductive Move where
  | put (i : Nat)
  | recover (start next : Nat)

/-- The cursor gets no further than `limit`, and a recovery leaves the first token of its statement
behind. -/
def Move.Within (limit : Nat) : Move → Prop
  | put i => i ≤ limit
  | recover start next => start < next ∧ next ≤ limit

inductive Ending (α : Type) where
  | yields (a : α)
  | fails (why : Diagnostic)

/-- The place where a loop goes on after it has skipped the statement at `start`. -/
def past (start i : Nat) : Nat := if i = start then start + 1 else i

/-- A single action at the cursor: the reader, the place it starts at, the moves, the ending and the
place it ends at. -/
inductive Acts (tokens : List Token) :
    {α : Type} → Reader α → Nat → List Move → Ending α → Nat → Prop
  | token {test : String → Bool} {w : Wanted} {i : Nat} (h : (tokenAt tokens i).isEnd = false)
      (ht : test (tokenAt tokens i).text = true) :
      Acts tokens (token test w) i [.put (i + 1)] (.yields (tokenAt tokens i)) (i + 1)
  | noToken {test : String → Bool} {w : Wanted} {i : Nat}
      (h : (tokenAt tokens i).isEnd = true ∨ test (tokenAt tokens i).text = false) :
      Acts tokens (token test w) i [] (.fails (missing tokens i w)) i
  | optionalWord {w : String} {i : Nat} (h : (tokenAt tokens i).isEnd = false)
      (ht : (tokenAt tokens i).text = w) :
      Acts tokens (optionalWord w) i [.put (i + 1)] (.yields true) (i + 1)
  | noWord {w : String} {i : Nat}
      (h : (tokenAt tokens i).isEnd = true ∨ (tokenAt tokens i).text ≠ w) :
      Acts tokens (optionalWord w) i [] (.yields false) i
  | isNext {w : String} {i : Nat} (hw : w ≠ "") :
      Acts tokens (isNext w) i [] (.yields ((tokenAt tokens i).text == w)) i
  | look {i : Nat} :
      Acts tokens (fun _ ts => .ok (Field.unsupported? ts) ts : Reader (Option String)) i []
        (.yields (unsupportedAt tokens i)) i
  | fail {α : Type} {c : Complaint} {i : Nat} :
      Acts tokens (fail c : Reader α) i [] (.fails ⟨c, (tokenAt tokens i).position⟩) i
  | failAt {α : Type} {p : Position} {c : Complaint} {i : Nat} :
      Acts tokens (failAt p c : Reader α) i [] (.fails ⟨c, p⟩) i
  | moduleOption {i : Nat} (h : (tokenAt tokens i).isEnd = false)
      (hm : isModuleAt tokens i = true) :
      Acts tokens Declaration.optionReader i [.put (i + 5)]
        (.yields ⟨some (.moduleName (Word.literalValue (tokenAt tokens (i + 3)).text)), []⟩) (i + 5)

/-- The loops that pass over tokens: through a block, to the end of a statement, and through options
in brackets. -/
inductive Passes (tokens : List Token) :
    {α : Type} → Reader α → Nat → List Move → Ending α → Nat → Prop
  | blockUnclosed {depth i : Nat} (h : (tokenAt tokens i).isEnd = true) :
      Passes tokens (closeBlock depth) i [] (.fails (missing tokens i (.word "\x7d"))) i
  | blockEnd {depth i : Nat} (h : (tokenAt tokens i).text = "\x7d") (hd : depth ≤ 1) :
      Passes tokens (closeBlock depth) i [.put (i + 1)] (.yields ()) (i + 1)
  | blockNext {depth i : Nat} {ms : List Move} {e : Ending Unit} {j : Nat}
      (h : (tokenAt tokens i).isEnd = false) (hd : (tokenAt tokens i).text = "\x7d" → 1 < depth)
      (hrest : Passes tokens (closeBlock (nesting depth (tokenAt tokens i).text)) (i + 1) ms e j) :
      Passes tokens (closeBlock depth) i (.put (i + 1) :: ms) e j
  | skipAtEnd {i : Nat} (h : (tokenAt tokens i).isEnd = true) :
      Passes tokens skipStatement i [] (.yields ()) i
  | skipAtBrace {i : Nat} (h : (tokenAt tokens i).text = "\x7d") :
      Passes tokens skipStatement i [] (.yields ()) i
  | skipSemicolon {i : Nat} (h : (tokenAt tokens i).text = ";") :
      Passes tokens skipStatement i [.put (i + 1)] (.yields ()) (i + 1)
  | skipBlock {i : Nat} {ms : List Move} {e : Ending Unit} {j : Nat}
      (h : (tokenAt tokens i).text = "\x7b") (hrest : Passes tokens (closeBlock 1) (i + 1) ms e j) :
      Passes tokens skipStatement i (.put (i + 1) :: ms) e j
  | skipNext {i : Nat} {ms : List Move} {e : Ending Unit} {j : Nat}
      (h : (tokenAt tokens i).isEnd = false)
      (ht : (tokenAt tokens i).text ∉ ["\x7b", "\x7d", ";"])
      (hrest : Passes tokens skipStatement (i + 1) ms e j) :
      Passes tokens skipStatement i (.put (i + 1) :: ms) e j
  | optionsUnclosed {b : Bool} {depth i : Nat} (h : (tokenAt tokens i).isEnd = true) :
      Passes tokens (optionsFrom b depth) i []
        (.fails (missing tokens i (.word (if depth = 0 then "]" else "\x7d")))) i
  | optionsNested {b : Bool} {depth i : Nat} {ms : List Move} {e : Ending Bool} {j : Nat}
      (h : (tokenAt tokens i).isEnd = false) (hd : depth ≠ 0)
      (hrest : Passes tokens (optionsFrom b (nesting depth (tokenAt tokens i).text)) (i + 1) ms e
        j) :
      Passes tokens (optionsFrom b depth) i (.put (i + 1) :: ms) e j
  | optionsEnd {b : Bool} {i : Nat} (h : (tokenAt tokens i).text = "]") :
      Passes tokens (optionsFrom b 0) i [.put (i + 1)] (.yields b) (i + 1)
  | optionsFlag {b : Bool} {i : Nat} {ms : List Move} {e : Ending Bool} {j : Nat}
      (h : (tokenAt tokens i).text = "deprecated") (hv : (tokenAt tokens (i + 1)).text ≠ "=")
      (hrest : Passes tokens (optionsFrom true 0) (i + 1) ms e j) :
      Passes tokens (optionsFrom b 0) i (.put (i + 1) :: ms) e j
  | optionsValue {b : Bool} {i : Nat} {ms : List Move} {e : Ending Bool} {j : Nat}
      (h : (tokenAt tokens i).text = "deprecated") (hv : (tokenAt tokens (i + 1)).text = "=")
      (hrest : Passes tokens (optionsFrom ((tokenAt tokens (i + 2)).text != "false") 0)
        (advance tokens (i + 2)) ms e j) :
      Passes tokens (optionsFrom b 0) i
        (.put (i + 1) :: .put (i + 2) :: .put (advance tokens (i + 2)) :: ms) e j
  | optionsBlock {b : Bool} {i : Nat} {ms : List Move} {e : Ending Bool} {j : Nat}
      (h : (tokenAt tokens i).text = "\x7b")
      (hrest : Passes tokens (optionsFrom b 1) (i + 1) ms e j) :
      Passes tokens (optionsFrom b 0) i (.put (i + 1) :: ms) e j
  | optionsBroken {b : Bool} {i : Nat}
      (h : (tokenAt tokens i).text = ";" ∨ (tokenAt tokens i).text = "\x7d") :
      Passes tokens (optionsFrom b 0) i [] (.fails (missing tokens i (.word "]"))) i
  | optionsNext {b : Bool} {i : Nat} {ms : List Move} {e : Ending Bool} {j : Nat}
      (h : (tokenAt tokens i).isEnd = false)
      (ht : (tokenAt tokens i).text ∉ ["]", "deprecated", "\x7b", ";", "\x7d"])
      (hrest : Passes tokens (optionsFrom b 0) (i + 1) ms e j) :
      Passes tokens (optionsFrom b 0) i (.put (i + 1) :: ms) e j

/-- Puts what one statement declares and notes in front of the rest of its block. -/
def Ending.prepend {ι : Type} (item : List ι) (notes : List Diagnostic) :
    Ending (Noted (List ι)) → Ending (Noted (List ι))
  | yields more => yields ⟨item ++ more.value, notes ++ more.notes⟩
  | fails why => fails why

/-- A run of a reader in place. A statement that fails in front of further tokens is skipped from
its first token on, for which the cursor goes back. -/
inductive Runs (tokens : List Token) :
    {α : Type} → Reader α → Nat → List Move → Ending α → Nat → Prop
  | act {α : Type} {r : Reader α} {i : Nat} {ms : List Move} {e : Ending α} {j : Nat}
      (h : Acts tokens r i ms e j) : Runs tokens r i ms e j
  | pass {α : Type} {r : Reader α} {i : Nat} {ms : List Move} {e : Ending α} {j : Nat}
      (h : Passes tokens r i ms e j) : Runs tokens r i ms e j
  | pure {α : Type} {a : α} {i : Nat} : Runs tokens (pure a) i [] (.yields a) i
  | bind {α β : Type} {r : Reader α} {f : α → Reader β} {i : Nat} {ms : List Move} {a : α} {j : Nat}
      {ns : List Move} {e : Ending β} {k : Nat} (hr : Runs tokens r i ms (.yields a) j)
      (hf : Runs tokens (f a) j ns e k) : Runs tokens (r >>= f) i (ms ++ ns) e k
  | bindFails {α β : Type} {r : Reader α} {f : α → Reader β} {i : Nat} {ms : List Move}
      {why : Diagnostic} {j : Nat} (hr : Runs tokens r i ms (.fails why) j) :
      Runs tokens (r >>= f) i ms (.fails why) j
  | byWord {α : Type} {choose : String → Reader α} {i : Nat} {ms : List Move} {e : Ending α}
      {j : Nat} (h : Runs tokens (choose (tokenAt tokens i).text) i ms e j) :
      Runs tokens (byWord choose) i ms e j
  | otherOption {i : Nat} {ms : List Move} {e : Ending (Noted (Option Declaration))} {j : Nat}
      (hi : (tokenAt tokens i).isEnd = false) (hm : isModuleAt tokens i = false)
      (h : Runs tokens (nothing skipStatement) i ms e j) :
      Runs tokens Declaration.optionReader i ms e j
  | fileEnd {ι : Type} {s : Reader (Noted (Option ι))} {i : Nat}
      (h : (tokenAt tokens i).isEnd = true) :
      Runs tokens (statements false s) i [] (.yields ⟨[], []⟩) i
  | blockUnclosed {ι : Type} {s : Reader (Noted (Option ι))} {i : Nat}
      (h : (tokenAt tokens i).isEnd = true) :
      Runs tokens (statements true s) i [] (.fails (missing tokens i (.word "\x7d"))) i
  | blockEnd {ι : Type} {s : Reader (Noted (Option ι))} {i : Nat}
      (h : (tokenAt tokens i).text = "\x7d") :
      Runs tokens (statements true s) i [.put (i + 1)] (.yields ⟨[], []⟩) (i + 1)
  -- A round that yields where it started would be repeated without end, so it has no run.
  | statement {ι : Type} {s : Reader (Noted (Option ι))} {inBlock : Bool} {i : Nat} {ms : List Move}
      {item : Noted (Option ι)} {j : Nat} {ns : List Move} {e : Ending (Noted (List ι))} {k : Nat}
      (h : (tokenAt tokens i).isEnd = false)
      (hc : inBlock = false ∨ (tokenAt tokens i).text ≠ "\x7d")
      (hs : Runs tokens s i ms (.yields item) j) (hlt : i < j)
      (hrest : Runs tokens (statements inBlock s) j ns e k) :
      Runs tokens (statements inBlock s) i (ms ++ ns) (e.prepend item.value.toList item.notes) k
  | unfinished {ι : Type} {s : Reader (Noted (Option ι))} {inBlock : Bool} {i : Nat}
      {ms : List Move} {why : Diagnostic} {j : Nat} (h : (tokenAt tokens i).isEnd = false)
      (hc : inBlock = false ∨ (tokenAt tokens i).text ≠ "\x7d")
      (hs : Runs tokens s i ms (.fails why) j) (hj : (tokenAt tokens j).isEnd = true) :
      Runs tokens (statements inBlock s) i ms (.fails why) j
  | unskipped {ι : Type} {s : Reader (Noted (Option ι))} {inBlock : Bool} {i : Nat}
      {ms : List Move} {why : Diagnostic} {j : Nat} {ns : List Move} {why' : Diagnostic} {k : Nat}
      (h : (tokenAt tokens i).isEnd = false)
      (hc : inBlock = false ∨ (tokenAt tokens i).text ≠ "\x7d")
      (hs : Runs tokens s i ms (.fails why) j) (hj : (tokenAt tokens j).isEnd = false)
      (hk : Runs tokens skipStatement i ns (.fails why') k) :
      Runs tokens (statements inBlock s) i (ms ++ .put i :: ns) (.fails why') k
  | recovered {ι : Type} {s : Reader (Noted (Option ι))} {inBlock : Bool} {i : Nat}
      {ms : List Move} {why : Diagnostic} {j : Nat} {ns : List Move} {k : Nat} {ps : List Move}
      {e : Ending (Noted (List ι))} {l : Nat} (h : (tokenAt tokens i).isEnd = false)
      (hc : inBlock = false ∨ (tokenAt tokens i).text ≠ "\x7d")
      (hs : Runs tokens s i ms (.fails why) j) (hj : (tokenAt tokens j).isEnd = false)
      (hk : Runs tokens skipStatement i ns (.yields ()) k)
      (hrest : Runs tokens (statements inBlock s) (past i k) ps e l) :
      Runs tokens (statements inBlock s) i (ms ++ .put i :: (ns ++ .recover i (past i k) :: ps))
        (e.prepend [] [why]) l

/-- A token list taken apart at its first end token. -/
structure Cut (tokens : List Token) where
  body : List Token
  mark : Token
  after : List Token
  eq : tokens = body ++ mark :: after
  words : ∀ t ∈ body, t.isEnd = false
  ends : mark.isEnd = true

namespace Cut

variable {tokens : List Token} (c : Cut tokens) {i : Nat}

theorem tokenAt_eq (hi : i ≤ c.body.length) :
    tokenAt tokens i = (c.body ++ [c.mark]).getD i default := by
  have hmin : min i (tokens.length - 1) = i := by
    rw [c.eq]
    simp
    omega
  have hlt : i < (c.body ++ [c.mark]).length := by simp; omega
  have htokens : tokens = (c.body ++ [c.mark]) ++ c.after := by simpa using c.eq
  rw [tokenAt, hmin, ← List.getD_append _ c.after default i hlt, ← htokens]

theorem tokenAt_length : tokenAt tokens c.body.length = c.mark := by
  rw [c.tokenAt_eq (Nat.le_refl _)]
  simp

theorem drop_eq_cons (hi : i < c.body.length) :
    c.body.drop i = tokenAt tokens i :: c.body.drop (i + 1) := by
  rw [c.tokenAt_eq (Nat.le_of_lt hi), List.getD_append _ _ _ _ hi, List.getD_eq_getElem _ _ hi]
  exact List.drop_eq_getElem_cons hi

theorem isEnd_of_lt (hi : i < c.body.length) : (tokenAt tokens i).isEnd = false := by
  refine c.words _ (List.mem_of_mem_drop (i := i) ?_)
  rw [c.drop_eq_cons hi]
  exact List.mem_cons_self

theorem lt_of_isEnd (hi : i ≤ c.body.length) (h : (tokenAt tokens i).isEnd = false) :
    i < c.body.length := by
  refine Nat.lt_of_le_of_ne hi ?_
  rintro rfl
  rw [c.tokenAt_length, c.ends] at h
  cases h

theorem eq_of_isEnd (hi : i ≤ c.body.length) (h : (tokenAt tokens i).isEnd = true) :
    i = c.body.length := by
  refine (Nat.eq_or_lt_of_le hi).resolve_right fun hlt => ?_
  rw [c.isEnd_of_lt hlt] at h
  cases h

theorem isEmpty_drop (hi : i ≤ c.body.length) :
    (c.body.drop i).isEmpty = (tokenAt tokens i).isEnd := by
  rcases Nat.eq_or_lt_of_le hi with rfl | hlt
  · simp [c.tokenAt_length, c.ends]
  · rw [c.drop_eq_cons hlt, c.isEnd_of_lt hlt]
    rfl

end Cut

theorem text_of_isEnd {t : Token} (h : t.isEnd = true) : t.text = "" :=
  String.isEmpty_iff.1 h

theorem isEnd_of_text {t : Token} {w : String} (h : t.text = w) (hw : w ≠ "") :
    t.isEnd = false :=
  Bool.eq_false_iff.2 fun hend => hw (h.symm.trans (text_of_isEnd hend))

namespace Cut

variable {tokens : List Token} (c : Cut tokens) {i : Nat}

/-! What the reader sees of the next tokens is what stands at the next places. -/

theorem want_drop {α : Type} (w : Wanted) (hi : i ≤ c.body.length) :
    (want w : Reader α) c.mark.position (c.body.drop i) =
      .failed (missing tokens i w) (c.body.drop i).isEmpty := by
  rcases Nat.eq_or_lt_of_le hi with rfl | hlt
  · simp [want, missing, c.tokenAt_length, c.ends]
  · rw [c.drop_eq_cons hlt]
    simp [want, missing, c.isEnd_of_lt hlt]

theorem text_drop (hi : i ≤ c.body.length) :
    (c.body.drop i).head?.elim "" (·.text) = (tokenAt tokens i).text := by
  rcases Nat.eq_or_lt_of_le hi with rfl | hlt
  · simp [c.tokenAt_length, text_of_isEnd c.ends]
  · rw [c.drop_eq_cons hlt]
    rfl

theorem any_drop {w : String} (hw : w ≠ "") (hi : i ≤ c.body.length) :
    (c.body.drop i).head?.any (·.text == w) = ((tokenAt tokens i).text == w) := by
  rcases Nat.eq_or_lt_of_le hi with rfl | hlt
  · simp [c.tokenAt_length, text_of_isEnd c.ends, hw.symm]
  · rw [c.drop_eq_cons hlt]
    rfl

theorem unsupported?_drop (hi : i ≤ c.body.length) :
    Field.unsupported? (c.body.drop i) = unsupportedAt tokens i := by
  rcases Nat.eq_or_lt_of_le hi with rfl | hlt
  · simp [Field.unsupported?, unsupportedAt, c.tokenAt_length, text_of_isEnd c.ends]
  · rw [c.drop_eq_cons hlt, Field.unsupported?, c.any_drop (by decide) hlt, unsupportedAt]

/-- The words of a module option are no end tokens, so the option is over before the end. -/
theorem lt_of_isModuleAt (hi : i < c.body.length) (h : isModuleAt tokens i = true) :
    i + 4 < c.body.length := by
  simp only [isModuleAt, Bool.and_eq_true, beq_iff_eq] at h
  obtain ⟨⟨⟨hkey, heq⟩, hvalue⟩, hsemi⟩ := h
  have hne : (tokenAt tokens (i + 3)).text ≠ "" := by
    intro hnil
    rw [hnil] at hvalue
    exact absurd hvalue (by decide)
  have h1 := c.lt_of_isEnd hi (isEnd_of_text hkey (by decide))
  have h2 := c.lt_of_isEnd h1 (isEnd_of_text heq (by decide))
  have h3 := c.lt_of_isEnd h2 (isEnd_of_text rfl hne)
  exact c.lt_of_isEnd h3 (isEnd_of_text hsemi (by decide))

theorem drop_eq_five (hi : i + 4 < c.body.length) :
    c.body.drop i = tokenAt tokens i :: tokenAt tokens (i + 1) :: tokenAt tokens (i + 2) ::
      tokenAt tokens (i + 3) :: tokenAt tokens (i + 4) :: c.body.drop (i + 5) := by
  rw [c.drop_eq_cons (by omega), c.drop_eq_cons (i := i + 1) (by omega),
    c.drop_eq_cons (i := i + 2) (by omega), c.drop_eq_cons (i := i + 3) (by omega),
    c.drop_eq_cons hi]

theorem isModuleOption_drop (hi : i < c.body.length) :
    Declaration.isModuleOption (c.body.drop i) = isModuleAt tokens i := by
  by_cases hlt : i + 4 < c.body.length
  · rw [c.drop_eq_five hlt]
    rfl
  · have hat : isModuleAt tokens i = false :=
      Bool.eq_false_iff.2 fun h => hlt (c.lt_of_isModuleAt hi h)
    refine (Bool.eq_false_iff.2 fun h => hlt ?_).trans hat.symm
    obtain ⟨t, key, eq, value, semi, rest, hdrop, -⟩ := Declaration.isModuleOption_eq_true h
    have hlength := congrArg List.length hdrop
    simp only [List.length_drop, List.length_cons] at hlength
    omega

end Cut

/-- The outcome of a reader that ends this way in front of the given tokens. -/
def Ending.outcome {α : Type} (rest : List Token) : Ending α → Outcome α
  | yields a => .ok a rest
  | fails why => .failed why rest.isEmpty

theorem Ending.outcome_prepend {ι : Type} (e : Ending (Noted (List ι))) (item : List ι)
    (notes : List Diagnostic) (rest : List Token) :
    (e.prepend item notes).outcome rest = (e.outcome rest).prepend item notes := by
  cases e <;> rfl

/-- The run goes forward, no further than the first end token, and ends as the reader does. -/
structure Agrees {tokens : List Token} (c : Cut tokens) {α : Type} (r : Reader α) (i : Nat)
    (ms : List Move) (e : Ending α) (j : Nat) : Prop where
  le : i ≤ j
  le_length : j ≤ c.body.length
  within : ∀ m ∈ ms, m.Within c.body.length
  outcome : r c.mark.position (c.body.drop i) = e.outcome (c.body.drop j)

namespace Agrees

variable {tokens : List Token} {c : Cut tokens} {α β : Type} {r q : Reader α} {f : α → Reader β}
  {i j k : Nat} {ms ns : List Move} {e : Ending α}

theorem stay (hi : i ≤ c.body.length)
    (h : r c.mark.position (c.body.drop i) = e.outcome (c.body.drop i)) : Agrees c r i [] e i :=
  ⟨Nat.le_refl i, hi, by simp, h⟩

theorem of_eq (h : Agrees c q i ms e j)
    (heq : r c.mark.position (c.body.drop i) = q c.mark.position (c.body.drop i)) :
    Agrees c r i ms e j :=
  ⟨h.le, h.le_length, h.within, heq.trans h.outcome⟩

theorem next (hi : i < c.body.length) (h : Agrees c q (i + 1) ms e j)
    (heq : r c.mark.position (tokenAt tokens i :: c.body.drop (i + 1)) =
      q c.mark.position (c.body.drop (i + 1))) : Agrees c r i (.put (i + 1) :: ms) e j where
  le := Nat.le_of_succ_le h.le
  le_length := h.le_length
  within := List.forall_mem_cons.2 ⟨hi, h.within⟩
  outcome := by rw [c.drop_eq_cons hi, heq, h.outcome]

theorem step {a : α} (hi : i < c.body.length)
    (h : r c.mark.position (tokenAt tokens i :: c.body.drop (i + 1)) =
      .ok a (c.body.drop (i + 1))) : Agrees c r i [.put (i + 1)] (.yields a) (i + 1) :=
  next (q := pure a) hi (stay hi rfl) h

theorem bind {a : α} {e : Ending β} (hr : Agrees c r i ms (.yields a) j)
    (hf : Agrees c (f a) j ns e k) : Agrees c (r >>= f) i (ms ++ ns) e k where
  le := Nat.le_trans hr.le hf.le
  le_length := hf.le_length
  within := List.forall_mem_append.2 ⟨hr.within, hf.within⟩
  outcome := (bind_ok hr.outcome).trans hf.outcome

theorem bindFails {why : Diagnostic} (hr : Agrees c r i ms (.fails why) j) :
    Agrees c (r >>= f) i ms (.fails why) j :=
  ⟨hr.le, hr.le_length, hr.within, bind_failed hr.outcome⟩

end Agrees

section Agreement

variable {tokens : List Token} (c : Cut tokens) {α : Type} {r : Reader α} {i j : Nat}
  {ms : List Move} {e : Ending α}

theorem Acts.agrees (h : Acts tokens r i ms e j) (hi : i ≤ c.body.length) :
    Agrees c r i ms e j := by
  cases h with
  | token h ht => exact .step (c.lt_of_isEnd hi h) (token_cons _ ht)
  | @noToken test w _ h =>
    refine .stay hi (Eq.trans ?_ (c.want_drop w hi))
    rcases Nat.eq_or_lt_of_le hi with rfl | hlt
    · rw [List.drop_length]
      rfl
    · have htest := h.resolve_left (by simp [c.isEnd_of_lt hlt])
      simp [c.drop_eq_cons hlt, Reader.token, htest]
  | optionalWord h ht => exact .step (c.lt_of_isEnd hi h) (optionalWord_cons ht)
  | noWord h =>
    refine .stay hi ?_
    rcases Nat.eq_or_lt_of_le hi with rfl | hlt
    · rw [List.drop_length]
      rfl
    · rw [c.drop_eq_cons hlt]
      exact optionalWord_of_ne (h.resolve_left (by simp [c.isEnd_of_lt hlt]))
  | isNext hw => exact .stay hi (congrArg (Outcome.ok · _) (c.any_drop hw hi))
  | look => exact .stay hi (congrArg (Outcome.ok · _) (c.unsupported?_drop hi))
  | fail =>
    refine .stay hi ?_
    rcases Nat.eq_or_lt_of_le hi with rfl | hlt
    · rw [List.drop_length, c.tokenAt_length]
      rfl
    · rw [c.drop_eq_cons hlt]
      rfl
  | failAt => exact .stay hi rfl
  | moduleOption h hm =>
    have hlt := c.lt_of_isModuleAt (c.lt_of_isEnd hi h) hm
    refine ⟨by omega, hlt, List.forall_mem_singleton.2 hlt, ?_⟩
    rw [c.drop_eq_five hlt]
    simp only [isModuleAt, Bool.and_eq_true, beq_iff_eq] at hm
    exact Declaration.optionReader_of_module ⟨hm.1.1.1, hm.1.1.2, hm.1.2, hm.2⟩

theorem closeBlock_next {t : Token} {ts : List Token} {stop : Position} {depth : Nat}
    (hd : t.text = "\x7d" → 1 < depth) :
    closeBlock depth stop (t :: ts) = closeBlock (nesting depth t.text) stop ts := by
  by_cases hopen : t.text = "\x7b"
  · simp [closeBlock, nesting, hopen]
  · by_cases hclose : t.text = "\x7d"
    · simp [closeBlock, nesting, hclose, Nat.not_le.2 (hd hclose)]
    · simp [closeBlock, nesting, hopen, hclose]

theorem Agrees.atEnd {w : Wanted} (hi : i ≤ c.body.length)
    (h : (tokenAt tokens i).isEnd = true) (hr : r c.mark.position [] = want w c.mark.position []) :
    Agrees c r i [] (.fails (missing tokens i w)) i := by
  obtain rfl := c.eq_of_isEnd hi h
  refine .stay hi (Eq.trans ?_ (c.want_drop w hi))
  rw [List.drop_length, hr]

theorem Cut.advance_le (hi : i ≤ c.body.length) :
    i ≤ advance tokens i ∧ advance tokens i ≤ c.body.length := by
  unfold advance
  split
  · exact ⟨Nat.le_refl i, hi⟩
  · next h => exact ⟨Nat.le_succ i, c.lt_of_isEnd hi (Bool.eq_false_iff.2 h)⟩

theorem Cut.optionsFrom_flag {b : Bool} (h : (tokenAt tokens i).text = "deprecated")
    (hv : (tokenAt tokens (i + 1)).text ≠ "=") :
    optionsFrom b 0 c.mark.position (tokenAt tokens i :: c.body.drop (i + 1)) =
      optionsFrom true 0 c.mark.position (c.body.drop (i + 1)) := by
  by_cases hlt : i + 1 < c.body.length
  · rw [c.drop_eq_cons hlt]
    exact optionsFrom_noValue h hv
  · rw [List.drop_of_length_le (Nat.not_lt.1 hlt)]
    simp [optionsFrom, h]

theorem Cut.optionsFrom_value {b : Bool} (hi : i + 1 < c.body.length)
    (h : (tokenAt tokens i).text = "deprecated") (hv : (tokenAt tokens (i + 1)).text = "=") :
    optionsFrom b 0 c.mark.position (c.body.drop i) =
      optionsFrom ((tokenAt tokens (i + 2)).text != "false") 0 c.mark.position
        (c.body.drop (advance tokens (i + 2))) := by
  rw [c.drop_eq_cons (Nat.lt_of_succ_lt hi), c.drop_eq_cons hi]
  by_cases hlt : i + 2 < c.body.length
  · have hgo : advance tokens (i + 2) = i + 3 := by simp [advance, c.isEnd_of_lt hlt]
    rw [hgo, c.drop_eq_cons hlt]
    exact Reader.optionsFrom_value h hv
  · have hle : i + 2 ≤ advance tokens (i + 2) := (c.advance_le hi).1
    rw [List.drop_of_length_le (Nat.not_lt.1 hlt), List.drop_of_length_le (by omega)]
    simp [optionsFrom, h, hv]

theorem Passes.agrees (h : Passes tokens r i ms e j) (hi : i ≤ c.body.length) :
    Agrees c r i ms e j := by
  have hlt {i : Nat} {w : String} (hi : i ≤ c.body.length) (h : (tokenAt tokens i).text = w)
      (hw : w ≠ "") : i < c.body.length := c.lt_of_isEnd hi (isEnd_of_text h hw)
  induction h with
  | blockUnclosed h => exact .atEnd c hi h rfl
  | blockEnd h hd => exact .step (hlt hi h (by decide)) (by simp [closeBlock, h, hd])
  | blockNext h hd _ ih =>
    have hi' := c.lt_of_isEnd hi h
    exact .next hi' (ih hi') (closeBlock_next hd)
  | skipAtEnd h =>
    obtain rfl := c.eq_of_isEnd hi h
    exact .stay hi (by simp [skipStatement, Ending.outcome])
  | skipAtBrace h =>
    refine .stay hi ?_
    simp [c.drop_eq_cons (hlt hi h (by decide)), skipStatement, h, Ending.outcome]
  | skipSemicolon h => exact .step (hlt hi h (by decide)) (by simp [skipStatement, h])
  | skipBlock h _ ih =>
    have hi' := hlt hi h (by decide)
    exact .next hi' (ih hi') (by simp [skipStatement, h])
  | skipNext h ht _ ih =>
    have hi' := c.lt_of_isEnd hi h
    simp only [List.mem_cons, List.not_mem_nil, or_false, not_or] at ht
    exact .next hi' (ih hi') (by simp [skipStatement, ht])
  | optionsUnclosed h => exact .atEnd c hi h (by rw [optionsFrom])
  | optionsNested h hd _ ih =>
    have hi' := c.lt_of_isEnd hi h
    exact .next hi' (ih hi') (optionsFrom_nested hd)
  | optionsEnd h => exact .step (hlt hi h (by decide)) (optionsFrom_end h)
  | optionsFlag h hv _ ih =>
    have hi' := hlt hi h (by decide)
    exact .next hi' (ih hi') (c.optionsFrom_flag h hv)
  | optionsValue h hv _ ih =>
    have h1 := hlt hi h (by decide)
    have h2 := hlt h1 hv (by decide)
    obtain ⟨hle, hle'⟩ := c.advance_le h2
    have ih := ih hle'
    refine ⟨Nat.le_trans (Nat.le_add_right _ 2) (Nat.le_trans hle ih.le), ih.le_length, ?_,
      (c.optionsFrom_value h2 h hv).trans ih.outcome⟩
    simp only [List.forall_mem_cons]
    exact ⟨h1, h2, hle', ih.within⟩
  | optionsBlock h _ ih =>
    have hi' := hlt hi h (by decide)
    exact .next hi' (ih hi') (optionsFrom_block h)
  | optionsBroken h =>
    have hi' : _ < c.body.length := h.elim (hlt hi · (by decide)) (hlt hi · (by decide))
    refine .stay hi (Eq.trans ?_ (c.want_drop _ hi))
    rw [c.drop_eq_cons hi']
    exact optionsFrom_broken h
  | optionsNext h ht _ ih =>
    have hi' := c.lt_of_isEnd hi h
    exact .next hi' (ih hi') (optionsFrom_other ht)

theorem past_gt {start i : Nat} (h : start ≤ i) : start < past start i := by
  unfold past
  split <;> omega

theorem past_of_lt {start i : Nat} (h : start < i) : past start i = i :=
  if_neg (Nat.ne_of_gt h)

theorem Cut.past_le {k : Nat} (hi : i < c.body.length) (hk : k ≤ c.body.length) :
    past i k ≤ c.body.length := by
  unfold past
  split <;> omega

theorem Cut.afterFirst_drop {k : Nat} (hi : i < c.body.length) (hk : i ≤ k) :
    afterFirst (c.body.drop (i + 1)) (c.body.drop k) = c.body.drop (past i k) := by
  by_cases heq : k = i
  · subst heq
    have hlong : ¬ c.body.length - k ≤ c.body.length - (k + 1) := by omega
    simp [afterFirst, past, hlong]
  · have hshort : c.body.length - k ≤ c.body.length - (i + 1) := by omega
    simp [afterFirst, past, heq, hshort]

theorem Agrees.outcome_cons {c : Cut tokens} (h : Agrees c r i ms e j) (hi : i < c.body.length) :
    r c.mark.position (tokenAt tokens i :: c.body.drop (i + 1)) = e.outcome (c.body.drop j) := by
  rw [← c.drop_eq_cons hi, h.outcome]

theorem Agrees.failed {c : Cut tokens} {why : Diagnostic} {atEnd : Bool}
    (h : Agrees c r i ms (.fails why) j) (hi : i < c.body.length)
    (hj : (tokenAt tokens j).isEnd = atEnd) :
    r c.mark.position (tokenAt tokens i :: c.body.drop (i + 1)) = .failed why atEnd := by
  rw [h.outcome_cons hi, Ending.outcome, c.isEmpty_drop h.le_length, hj]

theorem Runs.agrees (h : Runs tokens r i ms e j) (hi : i ≤ c.body.length) :
    Agrees c r i ms e j := by
  induction h with
  | act h => exact h.agrees c hi
  | pass h => exact h.agrees c hi
  | pure => exact .stay hi rfl
  | bind _ _ ihr ihf => exact (ihr hi).bind (ihf (ihr hi).le_length)
  | bindFails _ ihr => exact (ihr hi).bindFails
  | @byWord _ choose i _ _ _ _ ih =>
    refine (ih hi).of_eq ?_
    exact congrArg (choose · c.mark.position (c.body.drop i)) (c.text_drop hi)
  | otherOption h hm _ ih =>
    refine (ih hi).of_eq (Declaration.optionReader_of_other ?_)
    rw [c.isModuleOption_drop (c.lt_of_isEnd hi h), hm]
  | fileEnd h =>
    obtain rfl := c.eq_of_isEnd hi h
    refine .stay hi ?_
    rw [List.drop_length]
    exact statements_nil_file
  | blockUnclosed h => exact .atEnd c hi h statements_nil_block
  | blockEnd h =>
    exact .step (c.lt_of_isEnd hi (isEnd_of_text h (by decide))) (statements_close h)
  | statement h hc _ hlt _ ihs ihrest =>
    have hi' := c.lt_of_isEnd hi h
    have hs := ihs hi
    have hrest := ihrest hs.le_length
    refine ⟨Nat.le_trans hs.le hrest.le, hrest.le_length,
      List.forall_mem_append.2 ⟨hs.within, hrest.within⟩, ?_⟩
    rw [c.drop_eq_cons hi', statements_ok hc (hs.outcome_cons hi'), c.afterFirst_drop hi' hs.le,
      past_of_lt hlt, hrest.outcome, Ending.outcome_prepend]
  | unfinished h hc _ hj ihs =>
    have hi' := c.lt_of_isEnd hi h
    have hs := ihs hi
    refine ⟨hs.le, hs.le_length, hs.within, ?_⟩
    rw [c.drop_eq_cons hi', statements_fatal hc (hs.failed hi' hj), Ending.outcome,
      c.isEmpty_drop hs.le_length, hj]
  | unskipped h hc _ hj _ ihs ihk =>
    have hi' := c.lt_of_isEnd hi h
    have hs := ihs hi
    have hk := ihk hi
    refine ⟨hk.le, hk.le_length, ?_, ?_⟩
    · exact List.forall_mem_append.2 ⟨hs.within, List.forall_mem_cons.2 ⟨hi, hk.within⟩⟩
    · rw [c.drop_eq_cons hi']
      exact statements_stuck hc (hs.failed hi' hj) (hk.outcome_cons hi')
  | recovered h hc _ hj _ _ ihs ihk ihrest =>
    have hi' := c.lt_of_isEnd hi h
    have hs := ihs hi
    have hk := ihk hi
    have hle := c.past_le hi' hk.le_length
    have hgt := past_gt hk.le
    have hrest := ihrest hle
    refine ⟨Nat.le_trans (Nat.le_of_lt hgt) hrest.le, hrest.le_length, ?_, ?_⟩
    · simp only [List.forall_mem_append, List.forall_mem_cons]
      exact ⟨hs.within, hi, hk.within, ⟨hgt, hle⟩, hrest.within⟩
    · rw [c.drop_eq_cons hi', statements_skip hc (hs.failed hi' hj) (hk.outcome_cons hi'),
        c.afterFirst_drop hi' hk.le, hrest.outcome, Ending.outcome_prepend]

end Agreement

end Cursor

end ProtoSchema
