import Mathlib.Data.List.Basic
import ProtoSchema.Proofs.Schema.Locality

/-! # Declarations close themselves

Every declaration ends with a semicolon or a brace that its reader asks for, so its reader is a
closing one. How deep messages may nest makes no difference as long as there are enough tokens. A
statement that is passed over may run to the end of the file, but not where the file ends with a
semicolon or a brace: there, statements of the file are firm as well.
-/

namespace ProtoSchema

open Reader

theorem Label.steady_reader (inOneof : Bool) : (Label.reader inOneof).Steady := by
  refine (steady_isNext _).bind fun next => ?_
  cases next with
  | true =>
    cases inOneof with
    | true => exact (closes_fail _).steady
    | false => exact ((closes_word _).bind fun _ => .pure _).steady
  | false =>
    refine (steady_optionalWord _).bind fun found => ?_
    cases found with
    | true => exact (Firm.pure _).steady
    | false => exact (steady_optionalWord _).bind fun _ => (Firm.pure _).steady

namespace Field

/-- Whether a field has an unsupported form is seen at its first two tokens; the second one matters
only after `map`. -/
theorem unsupported?_cons_append {t : Token} {ts : List Token} (h : t.text = "map" → ts ≠ [])
    (rest : List Token) : unsupported? (t :: ts ++ rest) = unsupported? (t :: ts) := by
  cases ts with
  | nil =>
    have hne : t.text ≠ "map" := fun heq => h heq rfl
    simp [unsupported?, hne]
  | cons u ts => rfl

theorem closes_reader (inOneof : Bool) : (Field.reader inOneof).Closes := by
  refine (Label.steady_reader inOneof).seq fun label => ?_
  refine closes_look (fun what => ?_) fun ts => ?_
  · cases what with
    | some what => exact closes_fail _
    | none =>
      exact (closes_token _ _).seq fun _ => (closes_token _ _).seq fun _ =>
        (closes_word _).seq fun _ => (closes_integer _).seq fun _ => steady_options.seq fun _ =>
        (closes_word _).bind fun _ => .pure _
  · rcases ts with _ | ⟨⟨text, position⟩, _ | ⟨u, ts⟩⟩
    · exact Or.inr fun _ => ⟨_, rfl⟩
    · by_cases h : text = "map"
      · subst h
        have hnone : unsupported? [⟨"map", position⟩] = none := by simp [unsupported?]
        have hmap : Word.isTypeName "map" = true := by decide
        rw [hnone]
        exact Or.inr fun _ => ⟨_, (bind_ok (token_cons _ hmap)).trans (bind_failed rfl)⟩
      · exact Or.inl (unsupported?_cons_append fun heq => absurd heq h)
    · exact Or.inl (unsupported?_cons_append fun _ => List.cons_ne_nil u ts)

end Field

theorem EnumValue.closes_reader : EnumValue.reader.Closes :=
  (closes_token _ _).seq fun _ => (closes_word _).seq fun _ => (closes_integer _).seq fun _ =>
    steady_options.seq fun _ => (closes_word _).bind fun _ => .pure _

theorem Rpc.closes_reader : Rpc.reader.Closes := by
  refine (closes_word _).seq fun start => (closes_token _ _).seq fun name =>
    (closes_word _).seq fun _ => (steady_optionalWord _).seq fun streamsIn =>
    (closes_token _ _).seq fun request => (closes_word _).seq fun _ => (closes_word _).seq fun _ =>
    (closes_word _).seq fun _ => (steady_optionalWord _).seq fun streamsOut =>
    (closes_token _ _).seq fun response => (closes_word _).seq fun _ =>
    (steady_isNext _).seq fun next => ?_
  have hlast : Reader.Firm (if streamsIn || streamsOut then failAt start.position .streaming
      else return (⟨name.text, request.text, response.text⟩ : Rpc)) := by
    cases streamsIn || streamsOut with
    | true => exact (closes_failAt _ _).firm
    | false => exact .pure _
  cases next with
  | true => exact closes_skipBlock.bind fun _ => hlast
  | false => exact (closes_word _).bind fun _ => hlast

theorem Oneof.steady_statement : Oneof.statement.Steady := by
  refine steady_byWord fun w => ?_
  split
  · exact steady_nothing steady_skipStatement
  · split
    · exact closes_nothing_semicolon.steady
    · exact (closes_declares (Field.closes_reader true)).steady

theorem Oneof.closes_reader : Oneof.reader.Closes :=
  (closes_block _ _ Oneof.steady_statement).bind fun _ => .pure _

theorem Enum.steady_statement : Enum.statement.Steady := by
  refine steady_byWord fun w => ?_
  split
  · exact steady_nothing steady_skipStatement
  · split
    · exact closes_nothing_semicolon.steady
    · exact (closes_declares EnumValue.closes_reader).steady

theorem Enum.closes_reader : Enum.reader.Closes :=
  (closes_block _ _ Enum.steady_statement).bind fun _ => .pure _

theorem Service.steady_statement : Service.statement.Steady := by
  refine steady_byWord fun w => ?_
  split
  · exact steady_nothing steady_skipStatement
  · split
    · exact closes_nothing_semicolon.steady
    · split
      · exact (closes_declares Rpc.closes_reader).steady
      · exact (closes_fail _).steady

theorem Service.closes_reader : Service.reader.Closes :=
  (closes_block _ _ Service.steady_statement).bind fun _ => .pure _

theorem Member.closes_noted {α : Type} (wrap : α → Member) {r : Reader (Noted α)}
    (hr : r.Closes) : (Member.noted wrap r).Closes :=
  hr.bind fun _ => .pure _

theorem Member.steady_statement {nested : Reader (Noted Message)} (hn : nested.Closes) :
    (Member.statement nested).Steady := by
  refine steady_byWord fun w => ?_
  split
  · exact (closes_noted message hn).steady
  · split
    · exact (closes_noted enum Enum.closes_reader).steady
    · split
      · exact (closes_noted oneof Oneof.closes_reader).steady
      · split
        · exact steady_nothing steady_skipStatement
        · split
          · exact (closes_fail _).steady
          · split
            · exact (closes_fail _).steady
            · split
              · exact closes_nothing_semicolon.steady
              · exact ((Field.closes_reader false).bind fun _ => .pure _).steady

theorem Message.closes_readerWithin (depth : Nat) : (readerWithin depth).Closes := by
  induction depth with
  | zero => exact closes_want _
  | succ depth ih =>
    exact (closes_block _ _ (Member.steady_statement ih)).bind fun _ => .pure _

theorem Reader.bind_congr_right {α β : Type} {r : Reader α} {f g : α → Reader β} {stop : Position}
    {ts : List Token} (h : ∀ a us, r stop ts = .ok a us → f a stop us = g a stop us) :
    (r >>= f) stop ts = (r >>= g) stop ts := by
  cases hr : r stop ts with
  | ok a us => rw [bind_ok hr, bind_ok hr, h a us hr]
  | failed why atEnd => rw [bind_failed hr, bind_failed hr]

section Congruence

variable {ι : Type} {statement statement' : Reader (Noted (Option ι))} {stop : Position}
  {ts : List Token}

theorem statements_congr (inBlock : Bool)
    (h : ∀ us, us.length ≤ ts.length → statement stop us = statement' stop us) :
    statements inBlock statement stop ts = statements inBlock statement' stop ts := by
  induction hn : ts.length using Nat.strongRecOn generalizing ts with
  | ind n ih =>
    subst hn
    cases ts with
    | nil => cases inBlock <;> simp [statements]
    | cons t ts =>
      by_cases hc : inBlock = false ∨ t.text ≠ "\x7d"
      · have hfirst : recover statement stop (t :: ts) = recover statement' stop (t :: ts) := by
          unfold recover
          rw [h _ (Nat.le_refl _)]
        rw [statements_eq_recover hc, statements_eq_recover hc, hfirst]
        cases recover statement' stop (t :: ts) with
        | ok x us =>
          have hle := length_afterFirst ts us
          have hrest := ih _ (Nat.lt_succ_of_le hle) (fun vs hvs => h vs (by simp; omega)) rfl
          exact congrArg (Outcome.prepend x.value x.notes) hrest
        | failed why atEnd => rfl
      · obtain ⟨hblock, htext⟩ := not_or.1 hc
        obtain rfl : inBlock = true := by simpa using hblock
        have hclose : t.text = "\x7d" := Classical.not_not.1 htext
        rw [statements_close hclose, statements_close hclose]

theorem block_congr (keyword description : String)
    (h : ∀ us, us.length < ts.length → statement stop us = statement' stop us) :
    block keyword description statement stop ts = block keyword description statement' stop ts := by
  refine bind_congr_right fun t us hus => bind_congr_right fun name vs hvs =>
    bind_congr_right fun u ws hws => ?_
  obtain rfl := token_eq_ok hus
  obtain rfl := token_eq_ok hvs
  obtain rfl := token_eq_ok hws
  have hitems : statements true statement stop ws = statements true statement' stop ws :=
    statements_congr true fun xs hle => h xs (by simp; omega)
  exact bind_congr hitems

end Congruence

theorem Member.statement_congr {nested nested' : Reader (Noted Message)} {stop : Position}
    {ts : List Token} (h : nested stop ts = nested' stop ts) :
    Member.statement nested stop ts = Member.statement nested' stop ts := by
  simp only [Member.statement, byWord]
  split
  · exact bind_congr h
  · rfl

namespace Message

theorem readerWithin_eq {n m : Nat} {stop : Position} {ts : List Token} (hn : ts.length ≤ n)
    (hm : ts.length ≤ m) : readerWithin n stop ts = readerWithin m stop ts := by
  induction n generalizing m ts with
  | zero =>
    obtain rfl : ts = [] := List.eq_nil_of_length_eq_zero (Nat.le_zero.1 hn)
    cases m <;> rfl
  | succ n ih =>
    cases m with
    | zero =>
      obtain rfl : ts = [] := List.eq_nil_of_length_eq_zero (Nat.le_zero.1 hm)
      rfl
    | succ m =>
      refine bind_congr (block_congr _ _ fun us hlt => Member.statement_congr ?_)
      exact ih (by omega) (by omega)

theorem closes_reader : Message.reader.Closes := by
  refine ⟨fun ts => ?_, fun h => (closes_readerWithin 0).nil h⟩
  -- The depth that the longer list allows serves the shorter one as well.
  have hdepth (stop : Position) (rest : List Token) :
      reader stop ts = readerWithin (ts ++ rest).length stop ts :=
    readerWithin_eq (Nat.le_refl _) (by simp)
  have hfirm (rest : List Token) := (closes_readerWithin (ts ++ rest).length).firm ts
  refine ⟨⟨fun h => ?_, fun h hne stop rest => ?_, fun h => ⟨?_, fun stop rest => ?_⟩⟩,
    fun h stop rest => ?_⟩
  · exact ((closes_readerWithin ts.length).firm ts).suffix h
  · rw [hdepth _ rest] at h
    exact (hfirm rest).takes h hne stop rest
  · exact (((closes_readerWithin ts.length).firm ts).fails h).1
  · rw [hdepth _ rest] at h
    exact ((hfirm rest).fails h).2 stop rest
  · rw [hdepth _ rest] at h
    exact (hfirm rest).uses h stop rest

/-- A message reads its nested messages as it is read itself. -/
theorem reader_eq :
    reader = block "message" "message name" (Member.statement reader) >>= fun x =>
      pure ⟨ofMembers x.1 x.2.value, x.2.notes⟩ := by
  funext stop ts
  have hdepth : reader stop ts = readerWithin (ts.length + 1) stop ts :=
    readerWithin_eq (Nat.le_refl _) (Nat.le_succ _)
  refine hdepth.trans (bind_congr (block_congr _ _ fun us hlt => Member.statement_congr ?_))
  exact readerWithin_eq (Nat.le_of_lt hlt) (Nat.le_refl _)

end Message

/-- The tokens, if there are any, end with a semicolon or a closing brace. -/
def Terminated (ts : List Token) : Prop :=
  ∀ t, ts.getLast? = some t → t.text = ";" ∨ t.text = "\x7d"

theorem Terminated.suffix {ts us : List Token} (h : Terminated ts) (hs : us <:+ ts) :
    Terminated us := by
  intro t ht
  obtain ⟨before, rfl⟩ := hs
  exact h t (by rw [List.getLast?_append, ht, Option.some_or])

theorem firmOn_skipStatement {t : Token} {ts : List Token} (h : Terminated (t :: ts)) :
    skipStatement.FirmOn (t :: ts) := by
  induction ts generalizing t with
  | nil =>
    rcases h t rfl with ht | ht
    · exact .of_takes (a := ()) (fun _ _ => by simp [skipStatement, ht]) (List.suffix_cons t [])
    · exact .of_takes (a := ()) (fun _ _ => by simp [skipStatement, ht]) (List.suffix_refl [t])
  | cons u ts ih =>
    by_cases hopen : t.text = "\x7b"
    · refine .of_eq (List.suffix_cons t _) (fun _ _ => ?_) ((closes_closeBlock 1).firm (u :: ts))
      simp [skipStatement, hopen]
    · by_cases hclose : t.text = "\x7d"
      · refine .of_takes (a := ()) (fun _ _ => ?_) (List.suffix_refl _)
        simp [skipStatement, hclose]
      · by_cases hend : t.text = ";"
        · refine .of_takes (a := ()) (fun _ _ => ?_) (List.suffix_cons t _)
          simp [skipStatement, hend]
        · refine .of_eq (List.suffix_cons t _) (fun _ _ => ?_)
            (ih (h.suffix (List.suffix_cons t _)))
          simp [skipStatement, hopen, hclose, hend]

namespace Declaration

/-- The tokens start with an option that names the module. -/
def isModuleOption : List Token → Bool
  | _ :: key :: eq :: value :: semi :: _ =>
    key.text == "rust_module" && eq.text == "=" && Word.isStringLiteral value.text
      && semi.text == ";"
  | _ => false

theorem optionReader_of_other {ts : List Token} {stop : Position} (h : isModuleOption ts = false) :
    optionReader stop ts = nothing skipStatement stop ts := by
  unfold optionReader
  split
  · next key eq value semi rest =>
    rw [isModuleOption] at h
    rw [if_neg (by simp [h])]
  · rfl

theorem isModuleOption_eq_true {ts : List Token} (h : isModuleOption ts = true) :
    ∃ t key eq value semi rest, ts = t :: key :: eq :: value :: semi :: rest ∧
      key.text = "rust_module" ∧ eq.text = "=" ∧ Word.isStringLiteral value.text = true ∧
        semi.text = ";" := by
  unfold isModuleOption at h
  split at h
  · simp only [Bool.and_eq_true, beq_iff_eq] at h
    exact ⟨_, _, _, _, _, _, rfl, h.1.1.1, h.1.1.2, h.1.2, h.2⟩
  · cases h

/-- A terminated option that is too short to name the module does not do so with what follows. -/
theorem isModuleOption_append {t : Token} {ts : List Token} (ht : t.text = "option")
    (h : Terminated (t :: ts)) (hnot : isModuleOption (t :: ts) = false) (rest : List Token) :
    isModuleOption (t :: ts ++ rest) = false := by
  refine Bool.eq_false_iff.2 fun hmore => ?_
  obtain ⟨t', key, eq, value, semi, rest', heq, hkey, heqs, hvalue, -⟩ :=
    isModuleOption_eq_true hmore
  match ts with
  | [] => rcases h t rfl with hlast | hlast <;> simp [ht] at hlast
  | [_] =>
    cases heq
    rcases h key rfl with hlast | hlast <;> simp [hkey] at hlast
  | [_, _] =>
    cases heq
    rcases h eq rfl with hlast | hlast <;> simp [heqs] at hlast
  | [_, _, _] =>
    cases heq
    rcases h value rfl with hlast | hlast <;> exact absurd (hlast ▸ hvalue) (by decide)
  | _ :: _ :: _ :: _ :: _ => exact absurd (hnot.symm.trans hmore) (by decide)

theorem optionReader_of_module {t key eq value semi : Token} {rest : List Token} {stop : Position}
    (h : key.text = "rust_module" ∧ eq.text = "=" ∧ Word.isStringLiteral value.text = true ∧
      semi.text = ";") :
    optionReader stop (t :: key :: eq :: value :: semi :: rest) =
      .ok ⟨some (moduleName (Word.literalValue value.text)), []⟩ rest := by
  simp [optionReader, h]

theorem firmOn_optionReader {t : Token} {ts : List Token} (ht : t.text = "option")
    (h : Terminated (t :: ts)) : optionReader.FirmOn (t :: ts) := by
  cases hmodule : isModuleOption (t :: ts) with
  | true =>
    obtain ⟨t', key, eq, value, semi, rest, heq, htexts⟩ := isModuleOption_eq_true hmodule
    rw [heq]
    exact .of_takes (fun _ _ => optionReader_of_module htexts) ⟨[t', key, eq, value, semi], rfl⟩
  | false =>
    exact .of_eq (List.suffix_refl _)
      (fun _ rest => optionReader_of_other (isModuleOption_append ht h hmodule rest))
      ((firmOn_skipStatement h).bind fun _ => .pure _)

theorem closes_noted {α : Type} (wrap : α → Declaration) {r : Reader (Noted α)}
    (hr : r.Closes) : (noted wrap r).Closes :=
  hr.bind fun _ => .pure _

theorem closes_dialectReader : dialectReader.Closes :=
  (closes_token _ _).seq fun _ => (closes_word _).seq fun _ => (closes_stringLiteral _).seq fun _ =>
    (closes_word _).bind fun _ => .pure _

theorem closes_packageReader : packageReader.Closes :=
  (closes_word _).seq fun _ => (closes_token _ _).seq fun _ => (closes_word _).bind fun _ => .pure _

theorem closes_pathReader : pathReader.Closes := by
  refine (closes_word _).seq fun _ => (steady_optionalWord _).seq fun isPublic => ?_
  have hlast : Reader.Closes (do
      let imported ← stringLiteral "import path"
      let _ ← word ";"
      return path imported) :=
    (closes_stringLiteral _).seq fun _ => (closes_word _).bind fun _ => .pure _
  cases isPublic with
  | true => exact hlast
  | false => exact (steady_optionalWord _).seq fun _ => hlast

theorem firmOn_statement {t : Token} {ts : List Token} (h : Terminated (t :: ts)) :
    statement.FirmOn (t :: ts) := by
  refine firmOn_byWord ?_
  split
  · exact (closes_declares closes_dialectReader).firm _
  · split
    · exact (closes_declares closes_packageReader).firm _
    · split
      · exact (closes_declares closes_pathReader).firm _
      · split
        · next ht => exact firmOn_optionReader ht h
        · split
          · exact (closes_noted message Message.closes_reader).firm _
          · split
            · exact (closes_noted enum Enum.closes_reader).firm _
            · split
              · exact (closes_noted service Service.closes_reader).firm _
              · split
                · exact (closes_fail _).firm _
                · split
                  · exact closes_nothing_semicolon.firm _
                  · exact (closes_fail _).firm _

end Declaration

end ProtoSchema
