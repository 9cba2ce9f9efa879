import ProtoSchema.Json.Reader
import ProtoSchema.Value.Members
import ProtoSchema.Value.Scalar

/-! # Reading values

Values are read in the order of the text, so the first fault in the text is the one reported. The
members of oneofs are an exception: they are kept until their object ends and read after it. Arrays and
objects nest up to a limit, and each takes one from the room that is left.
-/

namespace ProtoSchema

/-- Whether a value is read as its text goes by, or was kept from an object that has ended. -/
inductive Access where
  | streamed
  | kept
deriving DecidableEq, Repr

inductive Shape where
  | one (t : ValueType)
  | list (t : ValueType)
deriving Repr

abbrev Reading := Access → Shape → Json → Except ReadFault Value

/-- What can be read inside an array or object, and how much room is left there. -/
structure Interior where
  room : Nat
  read : Reading

namespace Interior

/-- Nothing can be entered when no room is left. -/
def enter (inside : Option Interior) : Except ReadFault Interior :=
  match inside with
  | some i => .ok i
  | none => .error .malformed

end Interior

namespace Slot

def shape (s : Slot) : Shape := if s.label = .repeated then .list s.type else .one s.type

def isNullable (s : Slot) : Bool :=
  s.label = .optional || (s.label = .implicit && s.type.isMessage)

/-- Whether a value says that there is none: null, or no text in place of an optional instant. -/
def isAbsence (s : Slot) (j : Json) : Bool :=
  (s.isNullable && j.isNull) ||
    match s.label, s.type, j with
    | .optional, .scalar .timestamp, .string (some text) => text.isEmpty
    | _, _, _ => false

def read (s : Slot) (one : Shape → Json → Except ReadFault Value) (j : Json) :
    Except ReadFault Value :=
  if s.isAbsence j then .ok .absent else one s.shape j

end Slot

namespace MessageType

/-- The values of the plain fields among the entries of an object; `seen` holds those met so far.
All other entries have to pass `other`. -/
def readEntries (m : MessageType) (one : Shape → Json → Except ReadFault Value)
    (other : Json → Bool) (seen : List (String × Value)) :
    List (Option String × Json) → Except ReadFault (List (String × Value))
  | [] => .ok seen
  | (none, _) :: _ => .error .malformed
  | (some key, j) :: rest =>
    match m.field? key with
    | some f =>
      if seen.any (·.1 == f.name) then .error (.misfit (.duplicate f.jsonName))
      else do
        let v ← f.slot.read one j
        m.readEntries one other ((f.name, v) :: seen) rest
    | none => if other j then m.readEntries one other seen rest else .error .malformed

/-- Puts values in the order of the fields, with defaults for those that are missing. -/
def arrange (m : MessageType) (seen : List (String × Value)) : List Value :=
  m.fields.map fun f => (seen.lookup f.name).getD f.slot.default

def otherEntries (m : MessageType) (entries : List (Option String × Json)) :
    List (Option String × Json) :=
  entries.filter fun e => e.1.all fun key => (m.field? key).isNone

end MessageType

namespace OneofType

def readMember (o : OneofType) (one : Shape → Json → Except ReadFault Value) (key : String)
    (j : Json) : Except ReadFault Value :=
  match o.member? key with
  | some f => (one (.one f.slot.type) j).map (.member f.name)
  | none => .error .malformed

def read (o : OneofType) (one : Shape → Json → Except ReadFault Value)
    (entries : List (Option String × Json)) : Except ReadFault Value := do
  let pick ← Members.read o.name (fun key => (o.member? key).isSome) (o.readMember one) entries
  return pick.getD .absent

end OneofType

/-- Reads values one after the other for slots, with defaults when they run out. Also returns the
values that are left over. -/
def readItems (one : Shape → Json → Except ReadFault Value) :
    List FieldType → List Json → Except ReadFault (List Value × List Json)
  | [], js => .ok ([], js)
  | fs, [] => .ok (fs.map (·.slot.default), [])
  | f :: fs, j :: js => do
    let v ← f.slot.read one j
    let (vs, rest) ← readItems one fs js
    return (v :: vs, rest)

/-- What follows the last item that is wanted: nothing. -/
def checkEnd (access : Access) (wanted : Nat) (items rest : List Json) (closed : Bool) :
    Except ReadFault Unit :=
  if rest.isEmpty then if closed then .ok () else .error .malformed
  else
    match access with
    | .streamed => .error .malformed
    | .kept => .error (.misfit (.length items.length (.elements wanted)))

namespace MessageType

/-- Reads a message from an object. Oneofs follow when the object has ended. -/
def readObject (m : MessageType) (inside : Interior) (access : Access)
    (entries : List (Option String × Json)) (closed : Bool) : Except ReadFault Value := do
  let other (j : Json) : Bool := if m.oneofs.isEmpty then j.isWhole else j.isReadable inside.room
  let seen ← m.readEntries (inside.read access) other [] entries
  if !closed then .error .malformed
  else
    let picks ← m.oneofs.mapM fun o => o.read (inside.read .kept) (m.otherEntries entries)
    return .record (m.arrange seen) picks

/-- Reads a message without oneofs from an array of its fields. -/
def readArray (m : MessageType) (inside : Interior) (access : Access) (items : List Json)
    (closed : Bool) : Except ReadFault Value := do
  let (vs, rest) ← readItems (inside.read access) m.fields items
  checkEnd access m.fields.length items rest closed
  return .record vs []

def read (m : MessageType) (inside : Option Interior) (access : Access) (j : Json) :
    Except ReadFault Value :=
  match j with
  | .object entries closed => do m.readObject (← Interior.enter inside) access entries closed
  | .array items closed =>
    if m.oneofs.isEmpty then do m.readArray (← Interior.enter inside) access items closed
    else j.mismatch (.struct m.ident)
  | _ => j.mismatch (.struct m.ident)

end MessageType

namespace ValueType

def readLeaf (t : ValueType) (inside : Option Interior) (j : Json) : Except ReadFault Value := do
  if t.readsAnything && j.hasParts && inside.isNone then .error .malformed
  else
    let f ← j.found
    match t with
    | scalar s => (s.ofFound f).mapError .misfit
    | enum e => ((f.toEnum e).map .enum).mapError .misfit
    | message _ => .error .malformed

end ValueType

namespace Catalog

/-- Reads a value when `inside` is what arrays and objects hold. -/
def readWith (c : Catalog) (inside : Option Interior) : Reading := fun access shape j =>
  match shape with
  | .list t =>
    match j with
    | .array items closed => do
      let i ← Interior.enter inside
      let vs ← items.mapM (i.read access (.one t))
      if closed then .ok (.list vs) else .error .malformed
    | _ => j.mismatch .sequence
  | .one (.message name) =>
    match c.message? name with
    | some m => m.read inside access j
    | none => .error .malformed
  | .one t => t.readLeaf inside j

/-- Reads a value in which arrays and objects nest at most `room` deep. -/
def read (c : Catalog) : Nat → Reading
  | 0 => c.readWith none
  | room + 1 => c.readWith (some ⟨room, c.read room⟩)

def maxDepth : Nat := 127

def readText (text : String) (one : Json → Except ReadFault Value) : Except ReadFault Value := do
  let d := Json.Document.ofText text
  let v ← one d.value
  if d.complete then return v else .error .malformed

def decode (c : Catalog) (t : ValueType) (text : String) : Except ReadFault Value :=
  readText text (c.read maxDepth .streamed (.one t))

def decodeSlot (c : Catalog) (s : Slot) (text : String) : Except ReadFault Value :=
  readText text (s.read (c.read maxDepth .streamed))

end Catalog

end ProtoSchema
