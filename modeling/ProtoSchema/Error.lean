import ProtoSchema.Schema.Declaration
import ProtoSchema.Schema.WellFormed

/-! # Errors

Why a file could not be compiled, and the wording of each cause.
-/

namespace ProtoSchema

inductive StorageFault where
  | notUtf8
  | notFound
  | nameTooLong
  | nulInName
  | isDirectory
  | exists
  | notDirectory
deriving DecidableEq, Repr

namespace StorageFault

def message : StorageFault → String
  | notUtf8 => "stream did not contain valid UTF-8"
  | notFound => "No such file or directory (os error 2)"
  | nameTooLong => "File name too long (os error 36)"
  | nulInName => "file name contained an unexpected NUL byte"
  | isDirectory => "Is a directory (os error 21)"
  | «exists» => "File exists (os error 17)"
  | notDirectory => "Not a directory (os error 20)"

end StorageFault

inductive InputFault where
  | noEndToken
  | unknownFile (fileId : String)
  | noInputDirectory (path : String)
  | fileTaken (fileName owner : String)
  | moduleTaken (moduleName owner : String)
deriving DecidableEq, Repr

namespace InputFault

def message : InputFault → String
  | noEndToken => "token stream must end with the end-of-input token"
  | unknownFile fileId => s!"File \"{fileId}\" is not part of the batch"
  | noInputDirectory path => s!"Input directory does not exist: {path}"
  | fileTaken fileName owner => s!"output file {fileName} is already generated from {owner}"
  | moduleTaken moduleName owner => s!"module name {moduleName} is already used by {owner}"

end InputFault

inductive Error where
  | storage (fault : StorageFault)
  | lexical (fault : LexicalFault) (position : Position)
  | grammar (why : Diagnostic)
  | defect (d : Defect)
  | unresolved (reference scope : String)
  | ambiguous (reference scope : String) (candidates : List String)
  | input (fault : InputFault)
deriving DecidableEq, Repr

namespace Error

def parseMessage (p : Position) (message : String) : String :=
  s!"Parse error at line {p.line}, column {p.column}: {message}"

def message : Error → String
  | storage fault => "I/O error: " ++ fault.message
  | lexical fault p => parseMessage p fault.message
  | grammar why => parseMessage why.position why.message
  | defect d => "Verifier error: " ++ d.message
  | unresolved reference scope =>
    s!"Unresolved type \"{reference}\" referenced from \"{scope}\""
  | ambiguous reference scope candidates =>
    s!"Ambiguous type \"{reference}\" referenced from \"{scope}\": candidates are "
      ++ ", ".intercalate candidates
  | input fault => "Invalid input: " ++ fault.message

end Error

namespace Schema

def parse (tokens : List Token) : Except Error Schema :=
  match ofTokens tokens with
  | .ok s => .ok s
  | .error .noEnd => .error (.input .noEndToken)
  | .error (.unfinished why) => .error (.grammar why)

def read (text : String) : Except Error Schema :=
  match Token.scan text with
  | .ok tokens => parse tokens
  | .error (fault, p) => .error (.lexical fault p)

/-- Reads a text and checks that the schema is well formed. -/
def compile (text : String) : Except Error Schema := do
  let s ← read text
  match s.check with
  | .ok () => .ok s
  | .error d => .error (.defect d)

end Schema

end ProtoSchema
