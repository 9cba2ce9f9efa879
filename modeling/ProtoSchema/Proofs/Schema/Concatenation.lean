import ProtoSchema.Error
import ProtoSchema.Proofs.Schema.Acceptance
import ProtoSchema.Proofs.Schema.Closing

/-! # Files one after another

Where a file ends with a semicolon or a closing brace, no statement of it looks at what follows. So
a file can be continued by another: what is read is what the first declares and notes, followed by
what the second does, and an error in the second is the same error.
-/

namespace ProtoSchema

open Reader

theorem statements_append {as : List Token} {ds : Noted (List Declaration)} {stop : Position}
    {rest : List Token} (has : Terminated as)
    (h : statements false Declaration.statement stop as = .ok ds rest) (stop' : Position)
    (bs : List Token) :
    statements false Declaration.statement stop' (as ++ bs) =
      (statements false Declaration.statement stop' bs).prepend ds.value ds.notes := by
  induction hn : as.length using Nat.strongRecOn generalizing as ds with
  | ind n ih =>
    subst hn
    cases as with
    | nil =>
      rw [statements_nil_file] at h
      cases h
      rw [List.nil_append, Outcome.prepend_nil]
    | cons t ts =>
      have hfirm := (Declaration.firmOn_statement has).recover (firmOn_skipStatement has)
      obtain ⟨x, us, more, hx, hmore, rfl⟩ := statements_eq_ok (Or.inl rfl) h
      have hnext := has.suffix (afterFirst_suffix (hfirm.suffix hx))
      rw [statements_takes (Or.inl rfl) (hfirm.takes_all hx),
        ih _ (Nat.lt_succ_of_le (length_afterFirst ts us)) hnext hmore rfl,
        Outcome.prepend_prepend]

namespace Declaration

variable {P : Declaration → Prop}

theorem yields_noted {α : Type} {wrap : α → Declaration} {r : Reader (Noted α)}
    (hr : r.Yields fun x => P (wrap x.value)) :
    (noted wrap r).Yields fun item => ∀ d ∈ item.value, P d :=
  hr.bind fun _ hx => .pure (by simpa using hx)

theorem yields_dialectReader (h : ∀ name, P (dialect name)) : dialectReader.Yields P :=
  (yields_any _).bind fun _ _ => (yields_any _).bind fun _ _ => (yields_any _).bind fun _ _ =>
    (yields_any _).bind fun _ _ => .pure (h _)

theorem yields_packageReader (h : ∀ name, Word.isPackageName name = true → P (package name)) :
    packageReader.Yields P :=
  (yields_any _).bind fun _ _ => (yields_token _ _).bind fun _ hname =>
    (yields_any _).bind fun _ _ => .pure (h _ hname)

theorem yields_pathReader (h : ∀ imported, P (path imported)) : pathReader.Yields P := by
  refine (yields_any _).bind fun _ _ => (yields_any _).bind fun isPublic _ => ?_
  have hlast : Reader.Yields (do
      let imported ← stringLiteral "import path"
      let _ ← word ";"
      return path imported) P :=
    (yields_any _).bind fun _ _ => (yields_any _).bind fun _ _ => .pure (h _)
  cases isPublic with
  | true => exact hlast
  | false => exact (yields_any _).bind fun _ _ => hlast

theorem yields_optionReader (h : ∀ name, P (moduleName name)) :
    optionReader.Yields fun item => ∀ d ∈ item.value, P d := by
  intro stop ts item us hread
  cases hmodule : isModuleOption ts with
  | true =>
    obtain ⟨t, key, eq, value, semi, rest, rfl, htexts⟩ := isModuleOption_eq_true hmodule
    rw [optionReader_of_module htexts] at hread
    cases hread
    simpa using h _
  | false =>
    rw [optionReader_of_other hmodule] at hread
    exact yields_nothing skipStatement _ _ _ _ hread

theorem yields_statement_of (hdialect : ∀ name, P (dialect name))
    (hpackage : ∀ name, Word.isPackageName name = true → P (package name))
    (hpath : ∀ imported, P (path imported)) (hmodule : ∀ name, P (moduleName name))
    (hmessage : Message.reader.Yields fun m => P (message m.value))
    (henum : Enum.reader.Yields fun e => P (enum e.value))
    (hservice : Service.reader.Yields fun s => P (service s.value)) :
    statement.Yields fun item => ∀ d ∈ item.value, P d := by
  refine yields_byWord fun w => ?_
  split
  · exact yields_declares (yields_dialectReader hdialect)
  · split
    · exact yields_declares (yields_packageReader hpackage)
    · split
      · exact yields_declares (yields_pathReader hpath)
      · split
        · exact yields_optionReader hmodule
        · split
          · exact yields_noted hmessage
          · split
            · exact yields_noted henum
            · split
              · exact yields_noted hservice
              · split
                · exact yields_fail _
                · split
                  · exact yields_nothing _
                  · exact yields_fail _

theorem yields_statement : statement.Yields fun item => ∀ d ∈ item.value, d.package? ≠ some "" := by
  have hnone {d : Declaration} (h : d.package? = none) : d.package? ≠ some "" := by simp [h]
  refine yields_statement_of (P := fun d => d.package? ≠ some "") (fun _ => hnone rfl) ?_
    (fun _ => hnone rfl) (fun _ => hnone rfl) (fun _ _ _ _ _ => hnone rfl)
    (fun _ _ _ _ _ => hnone rfl) fun _ _ _ _ _ => hnone rfl
  intro name hname heq
  rw [Option.some.inj heq] at hname
  exact absurd hname (by decide)

end Declaration

namespace Schema

/-- A schema continued by another: what the second one sets counts, and the rest adds up. -/
def followedBy (s u : Schema) : Schema where
  dialect := u.dialect.or s.dialect
  package := if u.package.isEmpty then s.package else u.package
  moduleName := u.moduleName.or s.moduleName
  imports := s.imports ++ u.imports
  messages := s.messages ++ u.messages
  enums := s.enums ++ u.enums
  services := s.services ++ u.services
  diagnostics := s.diagnostics ++ u.diagnostics

theorem ofDeclarations_append {ds es : List Declaration} {notes more : List Diagnostic}
    (hes : ∀ d ∈ es, d.package? ≠ some "") :
    ofDeclarations (ds ++ es) (notes ++ more) =
      (ofDeclarations ds notes).followedBy (ofDeclarations es more) := by
  have hpackage : (ds.filterMap Declaration.package? ++
      es.filterMap Declaration.package?).getLastD "" =
      if ((es.filterMap Declaration.package?).getLastD "").isEmpty then
        (ds.filterMap Declaration.package?).getLastD ""
      else (es.filterMap Declaration.package?).getLastD "" := by
    cases h : (es.filterMap Declaration.package?).getLast? with
    | none =>
      rw [List.getLast?_eq_none_iff.1 h, List.append_nil]
      rfl
    | some p =>
      obtain ⟨d, hd, hp⟩ := List.mem_filterMap.1 (List.mem_of_getLast? h)
      have hne : p.isEmpty = false := by
        rw [← Bool.not_eq_true, String.isEmpty_iff]
        rintro rfl
        exact hes d hd hp
      simp [h, hne]
  simp only [ofDeclarations, followedBy, List.filterMap_append, List.getLast?_append,
    Schema.mk.injEq, true_and, and_true]
  exact hpackage

theorem parse_end {ts : List Token} {z : Token} (ht : ∀ t ∈ ts, t.text ≠ "")
    (hz : z.text = "") :
    Schema.parse (ts ++ [z]) =
      match ProtoSchema.statements false Declaration.statement z.position ts with
      | .ok ds _ => .ok (ofDeclarations ds.value ds.notes)
      | .failed why _ => .error (.grammar why) := by
  rw [parse, ofTokens_end ht hz]
  cases ProtoSchema.statements false Declaration.statement z.position ts <;> rfl

/-- A file that ends with a semicolon or a closing brace, and then another: the second one is read
as it is alone, and what it declares and notes follows what the first one does. -/
theorem parse_append {as bs : List Token} {y z : Token} {s : Schema}
    (has : ∀ t ∈ as, t.text ≠ "") (hbs : ∀ t ∈ bs, t.text ≠ "") (hy : y.text = "")
    (hz : z.text = "") (hend : Terminated as) (h : Schema.parse (as ++ [y]) = .ok s) :
    Schema.parse (as ++ bs ++ [z]) = (Schema.parse (bs ++ [z])).map s.followedBy := by
  have hall : ∀ t ∈ as ++ bs, t.text ≠ "" := fun t ht =>
    (List.mem_append.1 ht).elim (has t) (hbs t)
  rw [parse_end has hy] at h
  rw [parse_end hall hz, parse_end hbs hz]
  cases hds : ProtoSchema.statements false Declaration.statement y.position as with
  | failed why atEnd =>
    rw [hds] at h
    cases h
  | ok ds rest =>
    rw [hds] at h
    cases h
    rw [statements_append hend hds]
    cases hes : ProtoSchema.statements false Declaration.statement z.position bs with
    | failed why atEnd => rfl
    | ok es rest' =>
      have hnames := yields_statements Declaration.yields_statement false _ _ _ _ hes
      exact congrArg Except.ok (ofDeclarations_append hnames)

/-- A message whose only field breaks off, and a package. -/
def brokenField : List Token := ["message", "M", "\x7b", "int32", "a", "\x7d"].map Token.plain

def onlyPackage : List Token := ["package", "p", ";"].map Token.plain

theorem parse_append_brokenField :
    Schema.parse (brokenField ++ [Token.plain ""]) =
        .ok { messages := [⟨"M", .start, [], [], [], []⟩],
              diagnostics := [⟨.expected (.word "=") "\x7d", .start⟩] } ∧
      Schema.parse (brokenField ++ onlyPackage ++ [Token.plain ""]) =
        .ok { package := "p", messages := [⟨"M", .start, [], [], [], []⟩],
              diagnostics := [⟨.expected (.word "=") "\x7d", .start⟩] } := by
  have hfirst : Schema.parse (brokenField ++ [Token.plain ""]) =
      .ok { messages := [⟨"M", .start, [], [], [], []⟩],
            diagnostics := [⟨.expected (.word "=") "\x7d", .start⟩] } := by decide +kernel
  have hsecond : Schema.parse (onlyPackage ++ [Token.plain ""]) = .ok { package := "p" } := by
    decide +kernel
  refine ⟨hfirst, ?_⟩
  rw [parse_append (by decide) (by decide) rfl rfl (fun t ht => ?_) hfirst, hsecond]
  · rfl
  · cases ht
    exact Or.inr rfl

end Schema

end ProtoSchema
