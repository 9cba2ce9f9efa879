import ProtoSchema.Source
import ProtoSchema.Proofs.Naming.Clashes
import ProtoSchema.Proofs.TypeRef.Resolve

/-! # The outline of code

The blocks at depth zero of some lines, each with the name it defines or belongs to and its own
lines. Inside a block the fields, variants or methods are read off the lines. Code is clear if all
these names are distinct where they have to be.
-/

namespace ProtoSchema.Source

open Piece (isNamePart)

def leadingName (cs : List Char) : String := String.ofList (cs.takeWhile isNamePart)

/-- The identifier behind a keyword that a text starts with. -/
def nameAfter? (keyword text : String) : Option String :=
  (dropLeading? keyword.toList text.toList).map leadingName

def isRemark (text : String) : Bool :=
  match text.toList with
  | [] => true
  | c :: _ => c = '/' || c = '#'

/-- What a block holds: the fields of a struct, the variants of an enum, the items of a module, or
methods. Some methods of a client ask for a transport. -/
inductive BlockKind where
  | struct
  | enum
  | module
  | methods
  | clientMethods
  | transportMethods
deriving DecidableEq, Repr

namespace BlockKind

def all : List BlockKind := [struct, enum, module, methods, clientMethods, transportMethods]

def keyword : BlockKind → String
  | struct => "pub struct "
  | enum => "pub enum "
  | module => "pub mod "
  | methods => "impl "
  | clientMethods => "impl<T> "
  | transportMethods => "impl<T: ::brine_proto::Transport> "

def isType : BlockKind → Bool
  | struct | enum => true
  | _ => false

/-- The field, variant or method that a line of a block defines. -/
def defines? : BlockKind → String → Option String
  | struct, text => nameAfter? "pub " text
  | enum, text => if isRemark text then none else some (leadingName text.toList)
  | module, _ => none
  | _, text => nameAfter? "pub fn " text

/-- The names that the lines of a block define, deeper lines left out. -/
def names (k : BlockKind) (ls : List Line) : List String :=
  ls.filterMap fun l => if l.depth = 0 then k.defines? l.text else none

/-- The lines of a block in which other blocks are looked for. -/
def inside : BlockKind → List Line → List Line
  | module, ls => ls
  | _, _ => []

end BlockKind

structure Block where
  kind : BlockKind
  name : String
  names : List String
  inside : List Line := []
deriving DecidableEq, Repr

namespace Block

/-- The block that a line starts, with the deeper lines below it. An implementation of a trait is a
block of methods without a name. -/
def ofHead? (text : String) (body : List Line) : Option Block :=
  BlockKind.all.findSome? fun k =>
    (nameAfter? k.keyword text).map fun name => ⟨k, name, k.names body, k.inside body⟩

end Block

/-- The deeper lines in front, and each line of depth zero with the deeper lines below it. -/
def sections : List Line → List Line × List (String × List Line)
  | [] => ([], [])
  | ⟨0, text⟩ :: ls => ([], (text, (sections ls).1) :: (sections ls).2)
  | ⟨depth + 1, text⟩ :: ls => (⟨depth, text⟩ :: (sections ls).1, (sections ls).2)

def outline (ls : List Line) : List Block :=
  (sections ls).2.filterMap fun s => Block.ofHead? s.1 s.2

def namesOf (p : BlockKind → Bool) (bs : List Block) : List String :=
  (bs.filter (p ·.kind)).map (·.name)

/-- The types of an outline are distinct and so are its modules, and the names inside each block.
The methods of a client stand in two blocks. -/
structure Distinct (bs : List Block) : Prop where
  types : (namesOf BlockKind.isType bs).Nodup
  modules : (namesOf (· = .module) bs).Nodup
  names : ∀ b ∈ bs, b.names.Nodup
  clients : ∀ b ∈ bs, ∀ c ∈ bs, b.kind = .clientMethods → c.kind = .transportMethods →
    b.name = c.name → b.names.Disjoint c.names

/-- The names are distinct in a module and in all modules inside it. -/
inductive Clear : List Line → Prop
  | intro {ls : List Line} (here : Distinct (outline ls))
      (inside : ∀ b ∈ outline ls, b.kind = .module → Clear b.inside) : Clear ls

theorem clear_iff {ls : List Line} : Clear ls ↔
    Distinct (outline ls) ∧ ∀ b ∈ outline ls, b.kind = .module → Clear b.inside := by
  constructor
  · rintro ⟨here, inside⟩
    exact ⟨here, inside⟩
  · rintro ⟨here, inside⟩
    exact ⟨here, inside⟩

theorem toString_text (s : String) : toString s = s := rfl

variable {keyword text name : String} {cs ds : List Char} {c : Char}

theorem leadingName_eq (hname : IsPlain name.toList) (hc : isNamePart c = false)
    (h : name.toList ++ [c] <+: cs) : leadingName cs = name := by
  obtain ⟨rest, rfl⟩ := h
  rw [List.append_assoc, List.singleton_append, leadingName, List.takeWhile_append_of_pos hname,
    List.takeWhile_cons_of_neg (by simp [hc]), List.append_nil, String.ofList_toList]

theorem nameAfter?_eq_some (hname : IsPlain name.toList) (hc : isNamePart c = false)
    (h : keyword.toList ++ (name.toList ++ [c]) <+: text.toList) :
    nameAfter? keyword text = some name := by
  obtain ⟨rest, hrest⟩ := h
  rw [nameAfter?, ← hrest, List.append_assoc, dropLeading?_eq_some.2 rfl, Option.map_some,
    leadingName_eq hname hc (List.prefix_append _ _)]

/-- Whether two texts differ in a place that both have. -/
def differ : List Char → List Char → Bool
  | c :: cs, d :: ds => c ≠ d || differ cs ds
  | _, _ => false

theorem dropLeading?_eq_none (h : differ cs ds = true) (rest : List Char) :
    dropLeading? cs (ds ++ rest) = none := by
  induction cs generalizing ds with
  | nil => cases ds <;> cases h
  | cons c cs ih =>
    cases ds with
    | nil => cases h
    | cons d ds =>
      rw [List.cons_append, dropLeading?]
      split
      · next hc =>
        subst hc
        exact ih (by simpa [differ] using h)
      · rfl

theorem nameAfter?_eq_none (start : String) (h : differ keyword.toList start.toList = true)
    (htext : start.toList <+: text.toList) : nameAfter? keyword text = none := by
  obtain ⟨rest, hrest⟩ := htext
  rw [nameAfter?, ← hrest, dropLeading?_eq_none h, Option.map_none]

theorem isRemark_of_toList (h : text.toList = c :: cs) (hc : c = '/' ∨ c = '#') :
    isRemark text = true := by
  rw [isRemark, h]
  simpa using hc

theorem nameAfter?_of_isRemark (hkeyword : isRemark keyword = false) (h : isRemark text = true) :
    nameAfter? keyword text = none := by
  have hdrop : dropLeading? keyword.toList text.toList = none := by
    unfold isRemark at hkeyword h
    cases hk : keyword.toList with
    | nil => simp [hk] at hkeyword
    | cons k ks =>
      cases ht : text.toList with
      | nil => rfl
      | cons c cs =>
        rw [hk] at hkeyword
        rw [ht] at h
        rw [dropLeading?, if_neg]
        rintro rfl
        exact Bool.false_ne_true (hkeyword.symm.trans h)
  rw [nameAfter?, hdrop, Option.map_none]

namespace BlockKind

variable {k : BlockKind} {ls : List Line}

theorem defines?_of_isRemark (h : isRemark text = true) (k : BlockKind) :
    k.defines? text = none := by
  cases k with
  | enum => exact if_pos h
  | module => rfl
  | _ => exact nameAfter?_of_isRemark rfl h

theorem names_append (k : BlockKind) (ls ls' : List Line) :
    k.names (ls ++ ls') = k.names ls ++ k.names ls' :=
  List.filterMap_append

theorem names_cons (k : BlockKind) (text : String) (ls : List Line) :
    k.names (line text :: ls) = (k.defines? text).toList ++ k.names ls := by
  cases h : k.defines? text <;> simp [names, line, h]

theorem names_skip {ns : List String} (h : k.defines? text = none) (hls : k.names ls = ns) :
    k.names (line text :: ls) = ns := by
  rw [names_cons, h, hls, Option.toList_none, List.nil_append]

theorem names_remark {ns : List String} (h : isRemark text = true) (hls : k.names ls = ns) :
    k.names (line text :: ls) = ns :=
  names_skip (defines?_of_isRemark h k) hls

theorem names_blank {ns : List String} (hls : k.names ls = ns) : k.names (blank :: ls) = ns :=
  names_remark rfl hls

theorem names_comment {ns : List String} (h : text.toList = '/' :: cs) (hls : k.names ls = ns) :
    k.names (line text :: ls) = ns :=
  names_remark (isRemark_of_toList h (.inl rfl)) hls

theorem names_name {ns : List String} (h : k.defines? text = some name) (hls : k.names ls = ns) :
    k.names (line text :: ls) = name :: ns := by
  rw [names_cons, h, hls, Option.toList_some, List.singleton_append]

theorem names_braces {head : String} {body : List Line} {ns : List String}
    (hclose : k.defines? "\x7d" = none) (hls : k.names ls = ns) :
    k.names (braces head body ++ ls) = (k.defines? (head ++ " \x7b")).toList ++ ns := by
  have hdeeper : k.names (deeper body) = [] := by simp [names, deeper]
  rw [braces, List.append_assoc, List.cons_append, names_cons, names_append, hdeeper,
    List.singleton_append, names_cons, hclose, hls, List.nil_append, Option.toList_none,
    List.nil_append]

theorem names_flatMap {α : Type} {f : α → List Line} {g : α → List String} {xs : List α}
    (h : ∀ x ∈ xs, k.names (f x) = g x) : k.names (xs.flatMap f) = xs.flatMap g := by
  rw [names, List.filterMap_flatMap]
  exact List.flatMap_congr h

theorem names_flatMap_eq_map {α : Type} {f : α → List Line} {g : α → String} {xs : List α}
    (h : ∀ x ∈ xs, k.names (f x) = [g x]) : k.names (xs.flatMap f) = xs.map g := by
  rw [names_flatMap h, List.map_eq_flatMap]

theorem names_separated {α : Type} {f : α → List Line} {g : α → List String} {xs : List α}
    (h : ∀ x ∈ xs, k.names (f x) = g x) : k.names (separated (xs.map f)) = xs.flatMap g := by
  induction xs with
  | nil => rfl
  | cons x xs ih =>
    obtain ⟨hx, hxs⟩ := List.forall_mem_cons.1 h
    cases xs with
    | nil => simpa [separated] using hx
    | cons y ys =>
      have hstep : separated ((x :: y :: ys).map f) =
        f x ++ line "" :: separated ((y :: ys).map f) := rfl
      rw [hstep, names_append, names_cons, defines?_of_isRemark rfl, ih hxs, hx, Option.toList_none,
        List.nil_append, ← List.flatMap_cons]

end BlockKind

namespace Block

theorem ofHead?_eq_some {k : BlockKind} (hname : IsPlain name.toList) (hc : isNamePart c = false)
    (h : k.keyword.toList ++ (name.toList ++ [c]) <+: text.toList) (body : List Line) :
    ofHead? text body = some ⟨k, name, k.names body, k.inside body⟩ := by
  -- No keyword starts another one, so at most one of them fits, wherever it stands in the list.
  have hdiffer : ∀ k' ∈ BlockKind.all, k' ≠ k →
      differ k'.keyword.toList k.keyword.toList = true := by
    cases k <;> decide
  have hnone : ∀ k' ∈ BlockKind.all, k' ≠ k → nameAfter? k'.keyword text = none :=
    fun k' hk' hne => nameAfter?_eq_none _ (hdiffer k' hk' hne) ((List.prefix_append _ _).trans h)
  have hsome := nameAfter?_eq_some hname hc h
  cases k <;> simp_all [ofHead?, BlockKind.all]

theorem ofHead?_eq_none (start : String)
    (h : ∀ k ∈ BlockKind.all, differ k.keyword.toList start.toList = true)
    (htext : start.toList <+: text.toList) (body : List Line) : ofHead? text body = none := by
  rw [ofHead?, List.findSome?_eq_none_iff]
  intro k hk
  rw [nameAfter?_eq_none _ (h k hk) htext, Option.map_none]

theorem ofHead?_of_isRemark (h : isRemark text = true) (body : List Line) :
    ofHead? text body = none := by
  rw [ofHead?, List.findSome?_eq_none_iff]
  intro k hk
  rw [nameAfter?_of_isRemark _ h, Option.map_none]
  revert k
  decide

end Block

/-- Whatever follows the lines, the blocks of the lines come first in the outline. -/
def Outlines (ls : List Line) (bs : List Block) : Prop :=
  ∀ rest, outline (ls ++ rest) = bs ++ outline rest

namespace Outlines

variable {ls ls' : List Line} {bs bs' : List Block}

theorem outline_eq (h : Outlines ls bs) : outline ls = bs := by
  simpa [outline, sections] using h []

theorem nil : Outlines [] [] := fun _ => rfl

theorem append (h : Outlines ls bs) (h' : Outlines ls' bs') : Outlines (ls ++ ls') (bs ++ bs') := by
  intro rest
  rw [List.append_assoc, h, h', List.append_assoc]

theorem flatMap {α : Type} {f : α → List Line} {blocks : α → List Block} {xs : List α}
    (h : ∀ x ∈ xs, Outlines (f x) (blocks x)) : Outlines (xs.flatMap f) (xs.flatMap blocks) := by
  induction xs with
  | nil => exact nil
  | cons x xs ih =>
    obtain ⟨hx, hxs⟩ := List.forall_mem_cons.1 h
    exact hx.append (ih hxs)

theorem cons (h : ∀ body, Block.ofHead? text body = none) (hls : Outlines ls bs) :
    Outlines (line text :: ls) bs := by
  intro rest
  rw [← hls rest]
  simp [outline, line, sections, h]

theorem remark (h : isRemark text = true) (hls : Outlines ls bs) : Outlines (line text :: ls) bs :=
  cons (Block.ofHead?_of_isRemark h) hls

theorem blank (hls : Outlines ls bs) : Outlines (Source.blank :: ls) bs := remark rfl hls

theorem attr (h : text.toList = '#' :: cs) (hls : Outlines ls bs) :
    Outlines (line text :: ls) bs :=
  remark (isRemark_of_toList h (.inr rfl)) hls

theorem sections_deeper (body ls : List Line) :
    sections (deeper body ++ ls) = (body ++ (sections ls).1, (sections ls).2) := by
  induction body with
  | nil => rfl
  | cons l body ih =>
    have hstep : sections (deeper (l :: body) ++ ls) =
      (l :: (sections (deeper body ++ ls)).1, (sections (deeper body ++ ls)).2) := rfl
    rw [hstep, ih, List.cons_append]

theorem braces_append (head : String) (body : List Line) (hls : Outlines ls bs) :
    Outlines (braces head body ++ ls) ((Block.ofHead? (head ++ " \x7b") body).toList ++ bs) := by
  intro rest
  have hsections : sections (braces head body ++ (ls ++ rest)) = ([], (head ++ " \x7b", body) ::
      ("\x7d", (sections (ls ++ rest)).1) :: (sections (ls ++ rest)).2) := by
    have hbody := sections_deeper body (line "\x7d" :: (ls ++ rest))
    simp only [line, sections, List.append_nil] at hbody
    simp [braces, line, sections, hbody]
  have hclose : ∀ body, Block.ofHead? "\x7d" body = none := fun _ => rfl
  rw [List.append_assoc, List.append_assoc, ← hls rest, outline, hsections]
  cases hhead : Block.ofHead? (head ++ " \x7b") body <;> simp [outline, hhead, hclose]

theorem skip {head : String} (h : ∀ body, Block.ofHead? (head ++ " \x7b") body = none)
    (body : List Line) (hls : Outlines ls bs) : Outlines (braces head body ++ ls) bs := by
  have hbraces := braces_append head body hls
  rwa [h] at hbraces

theorem block {k : BlockKind} {head : String} {body : List Line} {ns : List String}
    (hname : IsPlain name.toList) (hc : isNamePart c = false)
    (h : k.keyword.toList ++ (name.toList ++ [c]) <+: (head ++ " \x7b").toList)
    (hbody : k.names body = ns) (hls : Outlines ls bs) :
    Outlines (braces head body ++ ls) (⟨k, name, ns, k.inside body⟩ :: bs) := by
  have hbraces := braces_append head body hls
  rwa [Block.ofHead?_eq_some hname hc h, hbody] at hbraces

theorem named {k : BlockKind} {head : String} {body : List Line} {ns : List String}
    (hname : IsPlain name.toList) (h : head = k.keyword ++ name) (hbody : k.names body = ns)
    (hls : Outlines ls bs) :
    Outlines (braces head body ++ ls) (⟨k, name, ns, k.inside body⟩ :: bs) := by
  apply block (c := ' ') hname (by decide) _ hbody hls
  rw [h, String.toList_append, String.toList_append, List.append_assoc]
  simp

end Outlines

end ProtoSchema.Source
