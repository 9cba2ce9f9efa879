import ProtoSchema.Text.Case

/-! # Names

How a schema name is spelled as a type, a field, a module and a JSON key. Type names drop underscores
and start every word with a capital, field and module names are small letters with underscores, JSON
names raise the letter after each underscore. Words that Rust keeps for itself get an underscore.
-/

namespace ProtoSchema.Naming

open Text

/-- A word with a capital first letter; a word in capitals alone is lowered. -/
def capitalize (word : List Char) : List Char :=
  match word with
  | [] => []
  | c :: cs => upperChar c ++ (if upper word = word then lower cs else cs)

def splitAt (sep : Char) : List Char → List (List Char)
  | [] => [[]]
  | c :: cs =>
    if c = sep then [] :: splitAt sep cs
    else
      match splitAt sep cs with
      | [] => [[c]]
      | part :: parts => (c :: part) :: parts

def pascalChars (cs : List Char) : List Char :=
  if '_' ∈ cs then ((splitAt '_' cs).filter (!·.isEmpty)).flatMap capitalize else capitalize cs

def pascalCase (s : String) : String := String.ofList (pascalChars s.toList)

/-- Whether a capital starts a new word: it does after anything but a capital or an underscore, and
it does as the last of several capitals in front of a small letter. -/
def startsWord (before : Option Char) (after : List Char) : Bool :=
  match before with
  | none => false
  | some p => p ≠ '_' && (!isUpper p || after.head?.any isLower)

def snakeFrom (before : Option Char) : List Char → List Char
  | [] => []
  | c :: cs =>
    let spelled :=
      if isUpper c then
        if startsWord before cs then '_' :: lowerChar c else lowerChar c
      else [c]
    spelled ++ snakeFrom (some c) cs

def snakeChars (cs : List Char) : List Char := snakeFrom none cs

def snakeCase (s : String) : String := String.ofList (snakeChars s.toList)

def camelFrom (raise : Bool) : List Char → List Char
  | [] => []
  | c :: cs =>
    if c = '_' then camelFrom true cs
    else if raise then upperChar c ++ camelFrom false cs
    else c :: camelFrom false cs

def jsonName (s : String) : String := String.ofList (camelFrom false s.toList)

/-- The words of Rust that cannot be names. -/
def reservedWords : List String := [
    "as", "async", "await", "break", "const", "continue", "crate", "dyn", "else",
    "enum", "extern", "false", "fn", "for", "if", "impl",
    "in", "let", "loop", "match", "mod", "move", "mut",
    "pub", "ref", "return", "self", "Self", "static",
    "struct", "super", "trait", "true", "type", "unsafe",
    "use", "where", "while", "abstract", "become", "box", "do",
    "final", "macro", "override", "priv", "try", "typeof",
    "unsized", "virtual", "yield"]

def escape (s : String) : String := if s ∈ reservedWords then s ++ "_" else s

/-- The module name made from a file stem or an option. -/
def moduleName (s : String) : String :=
  let cleaned := s.toList.map fun c => if c.isAlphanum || c = '_' then c else '_'
  let spelled :=
    match snakeChars cleaned with
    | [] => ['_']
    | c :: cs => if c.isDigit then '_' :: c :: cs else c :: cs
  escape (String.ofList spelled)

def typeIdent (name : String) : String := escape (pascalCase name)

def fieldIdent (name : String) : String := escape (snakeCase name)

/-- The module that holds what is nested in a message. -/
def moduleIdent (name : String) : String := escape (snakeCase name)

def baseName (cs : List Char) : List Char := (splitAt '/' cs).getLastD []

/-- A name without its extension; a leading dot does not start one. -/
def withoutExtension (cs : List Char) : List Char :=
  match cs.reverse.dropWhile (· ≠ '.') with
  | _ :: c :: before => (c :: before).reverse
  | _ => cs

/-- `a/b/user.proto` has the stem `user`. -/
def fileStem (path : String) : String := String.ofList (withoutExtension (baseName path.toList))

end ProtoSchema.Naming
