import Mathlib.Data.List.Infix
import ProtoSchema.Proofs.Naming.Identifiers
import ProtoSchema.Proofs.Plan.Places
import ProtoSchema.Proofs.Schema.Names

/-! # Paths in the code

A reference is written as a path that starts at the module it stands in. Here such a path is read
again, from its text: `super` leads to the module around, and every other word but the last leads
into a module. Read from its own module, the path of a type ends where the type is defined.
-/

namespace ProtoSchema

namespace Source

def pathWords : List Char → List (List Char)
  | [] => [[]]
  | ':' :: ':' :: cs => [] :: pathWords cs
  | c :: cs =>
    match pathWords cs with
    | [] => [[c]]
    | word :: words => (c :: word) :: words

/-- Follows a path from a module: the module at which it ends, and its last word. There is no way up
from the outermost module. -/
def follow (place : List String) : List String → Option (List String × String)
  | [] => none
  | [name] => some (place, name)
  | word :: path =>
    if word = "super" then if place.isEmpty then none else follow place.dropLast path
    else follow (place ++ [word]) path

def readPath (place : List String) (text : String) : Option (List String × String) :=
  follow place ((pathWords text.toList).map String.ofList)

variable {place mods : List String} {name : String}

theorem pathWords_of_not_mem {cs : List Char} (h : ':' ∉ cs) : pathWords cs = [cs] := by
  induction cs with
  | nil => rfl
  | cons c cs ih =>
    obtain ⟨hc, hcs⟩ := not_or.1 (List.mem_cons.not.1 h)
    rw [pathWords, ih hcs]
    rintro _ rfl
    exact absurd rfl hc

theorem pathWords_append {word : List Char} (h : ':' ∉ word) (cs : List Char) :
    pathWords (word ++ ':' :: ':' :: cs) = word :: pathWords cs := by
  induction word with
  | nil => rw [List.nil_append, pathWords]
  | cons c word ih =>
    obtain ⟨hc, hword⟩ := not_or.1 (List.mem_cons.not.1 h)
    rw [List.cons_append, pathWords, ih hword]
    rintro _ rfl
    exact absurd rfl hc

theorem pathWords_intercalate {path : List String} (hne : path ≠ [])
    (h : ∀ word ∈ path, ':' ∉ word.toList) :
    pathWords ("::".intercalate path).toList = path.map String.toList := by
  rw [String.toList_intercalate]
  induction path with
  | nil => exact absurd rfl hne
  | cons word path ih =>
    obtain ⟨hword, hpath⟩ := List.forall_mem_cons.1 h
    cases path with
    | nil => simpa using pathWords_of_not_mem hword
    | cons next path =>
      rw [List.map_cons, List.map_cons, List.intercalate_cons_cons, ← List.map_cons,
        List.append_assoc]
      exact (pathWords_append hword _).trans (congrArg _ (ih (by simp) hpath))

theorem readPath_intercalate {path : List String} (hne : path ≠ [])
    (h : ∀ word ∈ path, ':' ∉ word.toList) :
    readPath place ("::".intercalate path) = follow place path := by
  rw [readPath, pathWords_intercalate hne h, List.map_map]
  simp [Function.comp_def]

theorem follow_cons {word : String} {path : List String} (hne : path ≠ []) :
    follow place (word :: path) =
      if word = "super" then if place.isEmpty then none else follow place.dropLast path
      else follow (place ++ [word]) path := by
  cases path with
  | nil => exact absurd rfl hne
  | cons next path => rw [follow]; simp

theorem follow_down (h : ∀ word ∈ mods, word ≠ "super") :
    follow place (mods ++ [name]) = some (place ++ mods, name) := by
  induction mods generalizing place with
  | nil => rw [List.nil_append, follow, List.append_nil]
  | cons word mods ih =>
    obtain ⟨hword, hmods⟩ := List.forall_mem_cons.1 h
    rw [List.cons_append, follow_cons (by simp), if_neg hword, ih hmods, List.append_assoc,
      List.singleton_append]

theorem follow_up (place rest : List String) {path : List String} (hne : path ≠ []) :
    follow (place ++ rest) (List.replicate rest.length "super" ++ path) = follow place path := by
  induction rest using List.reverseRecOn with
  | nil => simp
  | append_singleton rest word ih =>
    rw [List.length_append, List.length_singleton, List.replicate_succ, List.cons_append,
      follow_cons (by simp [hne]), if_pos rfl, ← List.append_assoc, List.dropLast_concat, if_neg]
    · exact ih
    · simp

end Source

theorem take_sharedLength (as bs : List String) :
    as.take (sharedLength as bs) = bs.take (sharedLength as bs) := by
  fun_induction sharedLength as bs with
  | case1 as b bs ih => rw [List.take_succ_cons, List.take_succ_cons, ih]
  | case2 => rfl
  | case3 => rfl

theorem sharedLength_le (as bs : List String) : sharedLength as bs ≤ as.length := by
  fun_induction sharedLength as bs with
  | case1 as b bs ih => simpa using ih
  | case2 => simp
  | case3 => simp

theorem isPlain_of_isIdentifier {name : String} (h : Word.isIdentifier name = true) :
    IsPlain name.toList := by
  have hname := Word.isIdentifier_iff.1 h
  cases hchars : name.toList with
  | nil => simp [IsPlain]
  | cons c cs =>
    rw [hchars] at hname
    have hc : Piece.isNamePart c = true := by
      have hstart := hname.1
      simp only [Piece.isNameStart, Bool.or_eq_true] at hstart
      rcases hstart with hc | hc <;> simp [Piece.isNamePart, Char.isAlphanum, hc]
    exact .cons hc hname.2

namespace Batch

variable {b : Batch} {fileId name : String} {mods : List String} {p : TypePath} {d : TypeDef}

/-- The module in which a type is defined: that of its file, and in it those of the messages around
the type. -/
def moduleOf (b : Batch) (p : TypePath) : List String :=
  b.moduleName p.fileId :: p.segments.dropLast.map Naming.moduleIdent

theorem moduleName_eq (b : Batch) (fileId : String) :
    ∃ name, b.moduleName fileId = Naming.moduleName name := by
  rw [moduleName]
  split
  · exact ⟨_, rfl⟩
  · exact ⟨_, rfl⟩

theorem not_mem_reservedWords (b : Batch) (p : TypePath) :
    ∀ word ∈ b.moduleOf p, word ∉ Naming.reservedWords := by
  intro word hword
  rcases List.mem_cons.1 hword with rfl | hword
  · obtain ⟨name, hname⟩ := b.moduleName_eq p.fileId
    rw [hname]
    exact Naming.escape_not_mem _
  · obtain ⟨name, -, rfl⟩ := List.mem_map.1 hword
    exact Naming.escape_not_mem _

theorem Declares.isPlain_moduleOf (hb : b.Accepted) (h : b.Declares p d) :
    ∀ word ∈ b.moduleOf p, IsPlain word.toList := by
  intro word hword
  rcases List.mem_cons.1 hword with rfl | hword
  · obtain ⟨name, hname⟩ := b.moduleName_eq p.fileId
    rw [hname]
    exact Naming.isPlain_moduleName name
  · obtain ⟨name, hname, rfl⟩ := List.mem_map.1 hword
    have hid := h.isIdentifier hb name (List.mem_of_mem_dropLast hname)
    exact Naming.isPlain_moduleIdent (isPlain_of_isIdentifier hid)

theorem Declares.getLast? (h : b.Declares p d) : p.segments.getLast? = some d.name := by
  obtain ⟨s, -, hd⟩ := h
  exact Declared.getLast? hd

theorem Declares.isPlain_typeIdent (hb : b.Accepted) (h : b.Declares p d) :
    IsPlain (Naming.typeIdent d.name).toList := by
  have hid := h.isIdentifier hb d.name (List.mem_of_getLast? h.getLast?)
  exact Naming.isPlain_typeIdent (isPlain_of_isIdentifier hid)

theorem pathTo_of_ne (hlast : p.segments.getLast? = some name) (h : p.fileId ≠ fileId) :
    b.pathTo fileId mods p =
      List.replicate (mods.length + 1) "super" ++ (b.moduleOf p ++ [Naming.typeIdent name]) := by
  rw [pathTo, hlast]
  simp [moduleOf, h]

theorem pathTo_of_eq (b : Batch) (mods : List String)
    (hlast : p.segments.getLast? = some name) (h : p.fileId = fileId) :
    ∃ shared, shared ≤ mods.length ∧
      mods.take shared = (p.segments.dropLast.map Naming.moduleIdent).take shared ∧
      b.pathTo fileId mods p = List.replicate (mods.length - shared) "super" ++
        ((p.segments.dropLast.map Naming.moduleIdent).drop shared ++ [Naming.typeIdent name]) := by
  refine ⟨_, sharedLength_le _ _, take_sharedLength _ _, ?_⟩
  rw [pathTo, hlast]
  simp [h]

theorem follow_pathTo (b : Batch) (fileId : String) (mods : List String)
    (hlast : p.segments.getLast? = some name) :
    Source.follow (b.moduleName fileId :: mods) (b.pathTo fileId mods p) =
      some (b.moduleOf p, Naming.typeIdent name) := by
  have hsuper : ∀ word ∈ b.moduleOf p, word ≠ "super" := by
    rintro _ hword rfl
    exact b.not_mem_reservedWords p _ hword (by decide)
  by_cases h : p.fileId = fileId
  · obtain ⟨shared, hle, htake, hpath⟩ := pathTo_of_eq b mods hlast h
    have hplace : b.moduleName fileId :: mods =
        b.moduleName fileId :: mods.take shared ++ mods.drop shared := by simp
    have hdown : ∀ word ∈ (p.segments.dropLast.map Naming.moduleIdent).drop shared,
        word ≠ "super" := fun word hword =>
      hsuper word (List.mem_cons_of_mem _ (List.mem_of_mem_drop hword))
    rw [hpath, hplace, ← List.length_drop, Source.follow_up _ _ (by simp), Source.follow_down hdown,
      htake, List.cons_append, List.take_append_drop, moduleOf, h]
  · have hne : b.moduleOf p ++ [Naming.typeIdent name] ≠ [] := by simp
    have hup := Source.follow_up [] (b.moduleName fileId :: mods) hne
    rw [List.nil_append, List.length_cons] at hup
    rw [pathTo_of_ne hlast h, hup, Source.follow_down hsuper, List.nil_append]

theorem mem_pathTo (hlast : p.segments.getLast? = some name) {word : String}
    (h : word ∈ b.pathTo fileId mods p) :
    word = "super" ∨ word ∈ b.moduleOf p ∨ word = Naming.typeIdent name := by
  by_cases hfile : p.fileId = fileId
  · obtain ⟨shared, -, -, hpath⟩ := pathTo_of_eq b mods hlast hfile
    rw [hpath, List.mem_append, List.mem_append, List.mem_singleton] at h
    rcases h with h | h | h
    · exact Or.inl (List.eq_of_mem_replicate h)
    · exact Or.inr (Or.inl (List.mem_cons_of_mem _ (List.mem_of_mem_drop h)))
    · exact Or.inr (Or.inr h)
  · rw [pathTo_of_ne hlast hfile, List.mem_append, List.mem_append, List.mem_singleton] at h
    rcases h with h | h
    · exact Or.inl (List.eq_of_mem_replicate h)
    · exact Or.inr h

theorem Declares.readPath_pathTo (hb : b.Accepted) (h : b.Declares p d) (fileId : String)
    (mods : List String) :
    Source.readPath (b.moduleName fileId :: mods) ("::".intercalate (b.pathTo fileId mods p)) =
      some (b.moduleOf p, Naming.typeIdent d.name) := by
  have hfollow := follow_pathTo b fileId mods h.getLast?
  rw [Source.readPath_intercalate, hfollow]
  · intro heq
    rw [heq] at hfollow
    cases hfollow
  · intro word hword
    rcases mem_pathTo h.getLast? hword with rfl | hword | rfl
    · decide
    · exact (h.isPlain_moduleOf hb word hword).colon_not_mem
    · exact (h.isPlain_typeIdent hb).colon_not_mem

theorem text_baseType_resolved (b : Batch) (fileId : String) (mods : List String) (p : TypePath)
    (d : TypeDef) : (b.baseType fileId mods (Candidate.resolved ⟨p, d⟩)).text =
      "::".intercalate (b.pathTo fileId mods p) := by
  cases d <;> rfl

/-- The text of a type, read from the module of the file and the modules inside it in which it is
written, leads to the module where the type is defined, and names it. No module on the way has a name
that would be read as something else. The definition is there, and every reference is written in the
module from which its path starts. -/
theorem paths_lead_to_definitions (hb : b.Accepted) :
    (∀ fileId mods p d, b.Declares p d →
      Source.readPath (b.moduleName fileId :: mods)
          (b.baseType fileId mods (Candidate.resolved ⟨p, d⟩)).text =
        some (b.moduleOf p, Naming.typeIdent d.name) ∧
      ∀ word ∈ b.moduleOf p, word ∉ ["super", "self", "crate", "Self"]) ∧
    ∀ fileId s plan, (fileId, s) ∈ b.files → Plan.file b fileId s = .ok plan →
      (∀ path d, s.Declares path d → ∃ mods body,
        b.moduleOf ⟨fileId, path⟩ = plan.moduleName :: mods ∧
        Source.Stands (Source.braces (Source.definitionHead d) body) mods (Source.file plan)) ∧
      ∀ scope mods reference, s.Refers scope mods reference → ∃ x part,
        b.resolve reference fileId scope = .ok x ∧
        (∀ p d, x = Candidate.resolved ⟨p, d⟩ → b.Declares p d) ∧
        Source.Renders (b.baseType fileId mods x) part ∧
        Source.Mentions (b.baseType fileId mods x).text part ∧
        Source.Stands part mods (Source.file plan) := by
  constructor
  · intro fileId mods p d hd
    constructor
    · rw [text_baseType_resolved]
      exact hd.readPath_pathTo hb fileId mods
    · intro word hword hspecial
      have hreserved : ∀ w ∈ ["super", "self", "crate", "Self"], w ∈ Naming.reservedWords := by
        decide
      exact b.not_mem_reservedWords p word hword (hreserved word hspecial)
  · intro fileId s plan hs hplan
    constructor
    · intro path d hd
      obtain ⟨body, hbody⟩ := Plan.file_defines hplan hd
      obtain ⟨ms, vs, -, -, rfl⟩ := Plan.file_ok_iff.1 hplan
      exact ⟨_, body, rfl, hbody⟩
    · intro scope mods reference hr
      obtain ⟨x, part, hx, hrenders, hstands⟩ := Plan.file_renders hplan hr
      refine ⟨x, part, hx, ?_, hrenders, hrenders.mentions, hstands⟩
      rintro p d rfl
      exact declares_of_resolved hx

def priceSchema : Schema :=
  { messages := [⟨"Price", ⟨1, 9⟩, [], [], [⟨"Unit", ⟨1, 25⟩, [], [], [], []⟩], []⟩] }

/-- The lines of an order have a oneof for a type of another file and for the order itself. -/
def orderSchema : Schema :=
  { messages := [⟨"Order", ⟨1, 9⟩, [], [], [⟨"Line", ⟨1, 25⟩, [],
      [⟨"kind", [⟨"unit", ⟨1, 56⟩, "Price.Unit", 1, .optional, false⟩,
        ⟨"order", ⟨1, 72⟩, "Order", 2, .optional, false⟩]⟩], [], []⟩], []⟩] }

def orderFiles : Batch :=
  ⟨[("money.proto", priceSchema), ("shop.proto", orderSchema)], by decide⟩

theorem paths_lead_to_definitions_orderFiles :
    orderFiles.Accepted ∧
      Source.readPath ["shop", "order", "line"] "super::super::super::money::price::Unit" =
        some (["money", "price"], "Unit") ∧
      Source.readPath ["shop", "order", "line"] "super::super::Order" = some (["shop"], "Order") ∧
      ∃ plan body, Plan.file orderFiles "money.proto" priceSchema = .ok plan ∧
        Source.Stands (Source.braces "pub struct Unit" body) ["price"] (Source.file plan) := by
  have hb : orderFiles.Accepted := by
    intro f hf
    rcases List.mem_pair.1 hf with rfl | rfl
    · exact ⟨"message Price \x7b message Unit \x7b \x7d \x7d", by decide +kernel⟩
    · exact ⟨"message Order \x7b message Line \x7b oneof kind \x7b Price.Unit unit = 1; " ++
        "Order order = 2; \x7d \x7d \x7d", by decide +kernel⟩
  have hmoney : ("money.proto", priceSchema) ∈ orderFiles.files := List.mem_cons_self
  have hunit : priceSchema.Declares ["Price", "Unit"] (.message ⟨"Unit", ⟨1, 25⟩, [], [], [], []⟩) :=
    .inner List.mem_cons_self (.message List.mem_cons_self)
  have horder : orderFiles.Declares ⟨"shop.proto", ["Order"]⟩ _ :=
    ⟨_, List.mem_cons_of_mem _ List.mem_cons_self, .message List.mem_cons_self⟩
  have hplan : ∃ plan, Plan.file orderFiles "money.proto" priceSchema = .ok plan := ⟨_, rfl⟩
  obtain ⟨plan, hplan⟩ := hplan
  obtain ⟨hread, hfiles⟩ := paths_lead_to_definitions hb
  have hmodules : orderFiles.moduleOf ⟨"money.proto", ["Price", "Unit"]⟩ = ["money", "price"] := by
    decide +kernel
  obtain ⟨mods, body, hmods, hstands⟩ := (hfiles _ _ plan hmoney hplan).1 _ _ hunit
  obtain rfl : ["price"] = mods := (List.cons.inj (hmodules.symm.trans hmods)).2
  have hforeign : orderFiles.Declares ⟨"money.proto", ["Price", "Unit"]⟩ _ := ⟨_, hmoney, hunit⟩
  have hunitText := (hread "shop.proto" ["order", "line"] _ _ hforeign).1
  have horderText := (hread "shop.proto" ["order", "line"] _ _ horder).1
  exact ⟨hb, hunitText, horderText, plan, body, hplan, hstands⟩

end Batch

end ProtoSchema
