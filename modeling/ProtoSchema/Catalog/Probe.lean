import ProtoSchema.Catalog
import ProtoSchema.Value.Reader

/-! # A oneof with members of every form

A member may have no value, one value, a pair of values, or named parts. The oneof stands beside a
plain field, or is read from an object of its own.
-/

namespace ProtoSchema

inductive Probe where
  | unit
  | single (n : Int)
  | pair (n : Int) (s : String)
  | shape (x : Int) (y : Option Int)
deriving DecidableEq, Repr

namespace Probe

/-- The keys that are members; the last has no variant. -/
def keys : List String :=
  ["unitKey", "unit_key", "newKey", "new_key", "pairKey", "shapeKey", "ghostKey"]

def variants : List String := ["unitKey", "unit_key", "newKey", "new_key", "pairKey", "shapeKey"]

def pairName : String := "Probe::Pair"

def shapeName : String := "Probe::Shape"

def readInt (j : Json) : Except ReadFault Int := do
  (((← j.found).toInteger .signed32 .int32)).mapError .misfit

def readOptionalInt (j : Json) : Except ReadFault (Option Int) :=
  if j.isNull then .ok none else (readInt j).map some

def readText (j : Json) : Except ReadFault String := do
  ((← j.found).toText).mapError .misfit

def readTwo {α β : Type} (kind : VariantKind) (name : String) (access : Access)
    (first : Json → Except ReadFault α) (second : Json → Except ReadFault β)
    (items : List Json) (closed : Bool) : Except ReadFault (α × β) :=
  let tooFew (n : Nat) : Except ReadFault (α × β) :=
    if closed then .error (.misfit (.length n (.variant kind name 2))) else .error .malformed
  match items with
  | [] => tooFew 0
  | [j] => do
    let _ ← first j
    tooFew 1
  | j :: k :: rest => do
    let a ← first j
    let b ← second k
    checkEnd access 2 items rest closed
    return (a, b)

def readPair (access : Access) (j : Json) : Except ReadFault Probe :=
  match j with
  | .array items closed => do
    let (n, s) ← readTwo .tuple pairName access readInt readText items closed
    return pair n s
  | _ => j.mismatch (.variant .tuple pairName)

/-- The named parts; all other keys are skipped. -/
def readParts (x : Option Int) (y : Option (Option Int)) :
    List (Option String × Json) → Except ReadFault (Option Int × Option (Option Int))
  | [] => .ok (x, y)
  | (none, _) :: _ => .error .malformed
  | (some key, j) :: rest =>
    if key = "x" then
      if x.isSome then .error (.misfit (.duplicate "x"))
      else do readParts (some (← readInt j)) y rest
    else if key = "y" then
      if y.isSome then .error (.misfit (.duplicate "y"))
      else do readParts x (some (← readOptionalInt j)) rest
    else if j.isWhole then readParts x y rest
    else .error .malformed

def readShape (access : Access) (j : Json) : Except ReadFault Probe :=
  match j with
  | .array items closed => do
    let (x, y) ← readTwo .struct shapeName access readInt readOptionalInt items closed
    return shape x y
  | .object entries closed => do
    match ← readParts none none entries with
    | (some x, y) => if closed then return shape x (y.getD none) else .error .malformed
    | (none, _) => .error (if closed then .misfit (.missing "x") else .malformed)
  | _ => j.mismatch (.variant .struct shapeName)

/-- Reads a member. One without a value skips what stands in its place. -/
def readMember (access : Access) (key : String) (j : Json) : Except ReadFault Probe :=
  if key = "unitKey" || key = "unit_key" then
    if j.isWhole then .ok unit else .error .malformed
  else if key = "newKey" || key = "new_key" then (readInt j).map single
  else if key = "pairKey" then readPair access j
  else if key = "shapeKey" then readShape access j
  else .error (.misfit (.unknownVariant key variants))

def readEntries (access : Access) (entries : List (Option String × Json)) :
    Except ReadFault (Option Probe) :=
  Members.read "probe" (fun key => keys.contains key) (readMember access) entries

def complete {α : Type} (d : Json.Document) (a : α) : Except ReadFault α :=
  if d.complete then .ok a else .error .malformed

def decode (text : String) : Except ReadFault (Option Probe) := do
  let d := Json.Document.ofText text
  match d.value with
  | .object entries closed =>
    let p ← readEntries .streamed entries
    if closed then complete d p else .error .malformed
  | j => j.mismatch (.members "probe")

def owner : MessageType := ⟨"ProbeOwner", [.single "id" 1 .string], []⟩

/-- Reads the message that owns the oneof: its id, and the member that is set. -/
def decodeOwner (text : String) : Except ReadFault (String × Option Probe) := do
  let d := Json.Document.ofText text
  match d.value with
  | .object entries closed =>
    let room := Catalog.maxDepth - 1
    let one := Catalog.read ⟨[], []⟩ room .streamed
    let seen ← owner.readEntries one (·.isReadable room) [] entries
    if closed then
      let p ← readEntries .kept (owner.otherEntries entries)
      match owner.arrange seen with
      | [.text id] => complete d (id, p)
      | _ => .error .malformed
    else .error .malformed
  | j => j.mismatch (.struct owner.ident)

end Probe

end ProtoSchema
