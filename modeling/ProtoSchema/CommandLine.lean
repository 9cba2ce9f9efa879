import ProtoSchema.Run

/-! # The command line

`bproto` takes an input and an output folder. Arguments are read from left to right; a request for help
or the version is answered as soon as it is met, and anything else that does not fit is a misuse.
-/

namespace ProtoSchema.CommandLine

inductive Slot where
  | input
  | output
deriving DecidableEq, Repr

structure Given where
  input : Option String := none
  output : Option String := none
deriving DecidableEq, Repr

namespace Given

/-- Gives a value to an option, once, and not the empty one. -/
def set (g : Given) (slot : Slot) (value : String) : Option Given :=
  if value.isEmpty then none
  else
    match slot, g.input, g.output with
    | .input, none, _ => some { g with input := some value }
    | .output, _, none => some { g with output := some value }
    | _, _, _ => none

end Given

inductive Invocation where
  | run (input output : String)
  | help
  | version
  | misuse
deriving DecidableEq, Repr

inductive Argument where
  | opens (slot : Slot)
  | sets (slot : Slot) (value : String)
  | help
  | version
  | escape
  | value (text : String)
  | unknown
deriving DecidableEq, Repr

namespace Argument

def ofLong (cs : List Char) : Argument :=
  let name := String.ofList (cs.takeWhile (· ≠ '='))
  match name, cs.dropWhile (· ≠ '=') with
  | "input", [] => opens .input
  | "output", [] => opens .output
  | "input", _ :: v => sets .input (String.ofList v)
  | "output", _ :: v => sets .output (String.ofList v)
  | "help", [] => help
  | "version", [] => version
  | _, _ => unknown

/-- The value glued to a short option, after an optional equals sign. -/
def glued (slot : Slot) : List Char → Argument
  | [] => opens slot
  | '=' :: v => sets slot (String.ofList v)
  | v => sets slot (String.ofList v)

def ofShort : List Char → Argument
  | 'i' :: v => glued .input v
  | 'o' :: v => glued .output v
  | 'h' :: _ => help
  | 'V' :: _ => version
  | _ => unknown

def ofText (text : String) : Argument :=
  match text.toList with
  | ['-', '-'] => escape
  | '-' :: '-' :: cs => ofLong cs
  | '-' :: c :: cs => ofShort (c :: cs)
  | _ => value text

end Argument

def finish (g : Given) : Invocation :=
  match g.input, g.output with
  | some input, some output => .run input output
  | _, _ => .misuse

/-- Reads arguments; `waiting` is an option whose value comes next. -/
def readFrom (g : Given) : Option Slot → List String → Invocation
  | none, [] => finish g
  | some _, [] => .misuse
  | some slot, arg :: rest =>
    match Argument.ofText arg with
    | .value v =>
      match g.set slot v with
      | some g' => readFrom g' none rest
      | none => .misuse
    | _ => .misuse
  | none, arg :: rest =>
    match Argument.ofText arg with
    | .opens slot => readFrom g (some slot) rest
    | .sets slot v =>
      match g.set slot v with
      | some g' => readFrom g' none rest
      | none => .misuse
    | .help => .help
    | .version => .version
    | .escape => if rest.isEmpty then finish g else .misuse
    | .value _ => .misuse
    | .unknown => .misuse

def read (args : List String) : Invocation := readFrom {} none args

def helpText : List String := [
  "Generate serde-ready Rust types from a directory of .proto files",
  "",
  "Usage: bproto --input <INPUT> --output <OUTPUT>",
  "",
  "Options:",
  "  -i, --input <INPUT>    Directory searched recursively for `.proto` files",
  "  -o, --output <OUTPUT>  Directory the `<name>.g.rs` files are written to (created if missing)",
  "  -h, --help             Print help",
  "  -V, --version          Print version"]

def reportLines : Event → List String
  | .found count => [s!"Found {count} proto files"]
  | .parsed fileId messages enums _ =>
    [s!"Parsed: {fileId} ({messages} messages, {enums} enums)"]
  | .skipped fileId => [s!"Skipping {fileId}: no messages or enums"]
  | .generated _ path => [s!"Generated: {path}"]
  | .unparsed .. => []
  | .failed .. => []

/-- The warnings and errors an event leaves in the log. -/
def logLines : Event → List String
  | .parsed fileId _ _ diagnostics => diagnostics.map fun d =>
      s!"WARN skipped malformed statement file={fileId} diagnostic={d.describe}"
  | .unparsed fileId e => [s!"ERROR failed to parse file={fileId} err={e.message}"]
  | .failed fileId .generation e => [s!"ERROR failed to generate file={fileId} err={e.message}"]
  | .failed fileId .collision e => [s!"ERROR output collision file={fileId} err={e.message}"]
  | .failed fileId (.writing path) e =>
    [s!"ERROR failed to write file={fileId} path={path} err={e.message}"]
  | _ => []

def summaryLine (s : Summary) : String :=
  s!"Done: {s.generated} generated, {s.skipped} skipped, {s.failed} failed"

structure Report where
  code : Nat
  lines : List String := []
  log : List String := []
  tree : FileTree

def runFolders (t : FileTree) (input output : String) : Report :=
  if (t.folderNamed? input).isNone then
    ⟨1, [], ["Error: " ++ (InputFault.noInputDirectory input).message], t⟩
  else
    match Run.compile t input output with
    | (.error e, after) => ⟨1, [], ["Error: " ++ e.message], after⟩
    | (.ok events, after) =>
      let summary := Summary.ofEvents events
      ⟨if summary.storageFailures = 0 then 0 else 1,
        events.flatMap reportLines ++ [summaryLine summary], events.flatMap logLines, after⟩

def run (t : FileTree) (args : List String) : Report :=
  match read args with
  | .help => ⟨0, helpText, [], t⟩
  | .version => ⟨0, ["bproto 0.1.0"], [], t⟩
  | .misuse => ⟨1, [], [], t⟩
  | .run input output => runFolders t input output

end ProtoSchema.CommandLine
