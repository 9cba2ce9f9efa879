import ProtoSchema.TypeRef

/-! # Plans

What is generated for a schema file, before it becomes text: every reference resolved to a path from
the place where it stands, every identifier chosen, and every field that would make a struct contain
itself put in a box.
-/

namespace ProtoSchema

/-- The type of a value, seen from the module that uses it. -/
inductive BaseType where
  | scalar (s : Scalar)
  | enum (path : List String)
  | message (path : List String)
deriving DecidableEq, Repr

namespace BaseType

def text : BaseType → String
  | scalar s => s.rustType
  | enum path => "::".intercalate path
  | message path => "::".intercalate path

def isMessage : BaseType → Bool
  | message _ => true
  | _ => false

def jsonForm? : BaseType → Option JsonForm
  | scalar s => s.jsonForm?
  | _ => none

end BaseType

def sharedLength : List String → List String → Nat
  | a :: as, b :: bs => if a = b then sharedLength as bs + 1 else 0
  | _, _ => 0

def strike {α : Type} [DecidableEq α] (a : α) (as : List α) : List α := as.filter (· ≠ a)

theorem length_strike {α : Type} [DecidableEq α] {a : α} {as : List α} (h : a ∈ as) :
    (strike a as).length < as.length := by
  rw [strike, ← List.countP_eq_length_filter]
  refine Nat.lt_of_le_of_ne List.countP_le_length fun heq => ?_
  have := List.countP_eq_length.1 heq a h
  simp at this

namespace Batch

/-- The path to a type as seen from the module `mods` of a file: up to the innermost module that
both share, then down. Another file's module is a sibling of this file's. -/
def pathTo (b : Batch) (fileId : String) (mods : List String) (target : TypePath) : List String :=
  match target.segments.getLast? with
  | none => []
  | some name =>
    let inner := target.segments.dropLast.map Naming.moduleIdent
    if target.fileId = fileId then
      let shared := sharedLength mods inner
      List.replicate (mods.length - shared) "super" ++ inner.drop shared ++ [Naming.typeIdent name]
    else
      List.replicate (mods.length + 1) "super"
        ++ b.moduleName target.fileId :: inner ++ [Naming.typeIdent name]

def baseType (b : Batch) (fileId : String) (mods : List String) : Resolved → BaseType
  | .scalar s => .scalar s
  | .enum path _ => .enum (b.pathTo fileId mods path)
  | .message path _ => .message (b.pathTo fileId mods path)

/-- The messages of the batch, as places in its files. -/
def messagePaths (b : Batch) : List TypePath :=
  b.files.flatMap fun f => f.2.types.filterMap fun t =>
    match t.2 with
    | .message _ => some ⟨f.1, t.1⟩
    | .enum _ => none

/-- The messages a message holds directly: those of its fields that are not lists. -/
def contained (b : Batch) (path : TypePath) (m : Message) : List (TypePath × Message) :=
  m.allFields.filterMap fun f =>
    if f.label = .repeated then none
    else
      match b.resolve f.type path.fileId path.segments with
      | .ok (.message p inner) => some (p, inner)
      | _ => none

/-- Whether `goal` is among the messages to visit or held by one of them, directly or not. Each
message still fresh is opened at most once. -/
def holds (b : Batch) (goal : TypePath) (fresh : List TypePath) (visit : List (TypePath × Message)) :
    Bool :=
  match visit with
  | [] => false
  | (p, m) :: rest =>
    if p = goal then true
    else if h : p ∈ fresh then
      have := length_strike h
      b.holds goal (strike p fresh) (b.contained p m ++ rest)
    else b.holds goal fresh rest
termination_by (fresh.length, visit.length)

/-- Whether a field of message type has to be boxed: its message holds the one it stands in. -/
def needsBox (b : Batch) (container target : TypePath) (m : Message) : Bool :=
  b.holds container b.messagePaths [(target, m)]

end Batch

structure FieldPlan where
  field : Field
  base : BaseType
  boxed : Bool
deriving Repr

/-- A member of a oneof is used in two modules: that of the struct and that of the oneof's enum. -/
structure MemberPlan where
  field : Field
  outer : BaseType
  inner : BaseType
  boxed : Bool
deriving Repr

structure OneofPlan where
  name : String
  ident : String
  members : List MemberPlan
deriving Repr

structure EnumPlan where
  fullName : String
  ident : String
  values : List (EnumValue × String)
deriving DecidableEq, Repr

structure MessagePlan where
  fullName : String
  name : String
  fields : List FieldPlan
  oneofs : List OneofPlan
  messages : List MessagePlan
  enums : List EnumPlan
deriving Repr

structure RpcPlan where
  rpc : Rpc
  method : String
  request : BaseType
  response : BaseType
deriving Repr

structure ServicePlan where
  fullName : String
  client : String
  rpcs : List RpcPlan
deriving Repr

structure FilePlan where
  fileId : String
  package : String
  moduleName : String
  messages : List MessagePlan
  enums : List EnumPlan
  services : List ServicePlan
deriving Repr

namespace EnumPlan

def upperSnake (name : String) : List Char := Text.upper (Naming.snakeCase name).toList

/-- A value's name without the enum's own name in front, where a letter follows it. -/
def shortName (enumName valueName : String) : String :=
  match dropLeading? (upperSnake enumName ++ ['_']) valueName.toList with
  | some (c :: cs) => if c.isAlpha then String.ofList (c :: cs) else valueName
  | _ => valueName

/-- The variants of an enum's values. The enum's name is left out of all of them, unless two would
become the same. -/
def variants (e : Enum) : List String :=
  let short := e.values.map fun v => Naming.typeIdent (shortName e.name v.name)
  if short.Nodup then short else e.values.map fun v => Naming.typeIdent v.name

def ofEnum (fullName : String) (e : Enum) : EnumPlan :=
  ⟨fullName, Naming.typeIdent e.name, e.values.zip (variants e)⟩

end EnumPlan

namespace OneofPlan

def isTaken (taken : List String) (name : String) : Bool := name ∈ taken || name ++ "Case" ∈ taken

/-- Appends `Oneof` until the name is free. Each round uses up one of the taken names, so as many
rounds as there are taken names are enough. -/
def freshName (taken : List String) : Nat → String → String
  | 0, name => name
  | rounds + 1, name =>
    if isTaken taken name then freshName taken rounds (name ++ "Oneof") else name

def takenBy (m : Message) : List String :=
  m.messages.map (Naming.typeIdent ·.name) ++ m.enums.map (Naming.typeIdent ·.name)

/-- The name of a oneof's enum. The enum and its `Case` twin stand beside the nested types. -/
def identOf (m : Message) (o : Oneof) : String :=
  freshName (takenBy m) (takenBy m).length (Naming.typeIdent o.name)

end OneofPlan

namespace Plan

def fullName (package : String) (segments : List String) : String :=
  if package.isEmpty then ".".intercalate segments else package ++ "." ++ ".".intercalate segments

/-- Whether a reference of a field makes a box necessary. -/
def isBoxed (b : Batch) (fileId : String) (scope : List String) (f : Field) : Resolved → Bool
  | .message path m => f.label ≠ .repeated && b.needsBox ⟨fileId, scope⟩ path m
  | _ => false

def field (b : Batch) (fileId : String) (scope mods : List String) (f : Field) :
    Except Error FieldPlan := do
  let r ← b.resolve f.type fileId scope
  return ⟨f, b.baseType fileId mods r, isBoxed b fileId scope f r⟩

def member (b : Batch) (fileId : String) (scope outerMods innerMods : List String) (f : Field) :
    Except Error MemberPlan := do
  let r ← b.resolve f.type fileId scope
  return ⟨f, b.baseType fileId outerMods r, b.baseType fileId innerMods r,
    isBoxed b fileId scope f r⟩

mutual

/-- A message inside the messages `parents`. -/
def message (b : Batch) (fileId package : String) (parents : List String) :
    Message → Except Error MessagePlan
  | ⟨name, position, fields, oneofs, messages, enums⟩ => do
    let scope := parents ++ [name]
    let mods := parents.map Naming.moduleIdent
    let innerMods := scope.map Naming.moduleIdent
    let fields' ← fields.mapM (field b fileId scope mods)
    let oneofs' ← oneofs.mapM fun o => do
      let members ← o.fields.mapM (member b fileId scope mods innerMods)
      return ⟨o.name, OneofPlan.identOf ⟨name, position, fields, oneofs, messages, enums⟩ o, members⟩
    let messages' ← Plan.messages b fileId package scope messages
    return ⟨fullName package scope, name, fields', oneofs', messages',
      enums.map fun e => EnumPlan.ofEnum (fullName package (scope ++ [e.name])) e⟩

def messages (b : Batch) (fileId package : String) (parents : List String) :
    List Message → Except Error (List MessagePlan)
  | [] => .ok []
  | m :: ms => do
    let first ← message b fileId package parents m
    let rest ← messages b fileId package parents ms
    return first :: rest

end

def clientMethods : List String := ["new", "transport", "into_inner"]

/-- The method of an rpc, which stays clear of the client's own. -/
def rpcIdent (name : String) : String :=
  let ident := Naming.fieldIdent name
  if ident ∈ clientMethods then ident ++ "_rpc" else ident

/-- No two rpcs of a service become one method; `seen` maps methods to earlier rpcs. -/
def checkMethods (service : String) (seen : List (String × String)) :
    List Rpc → Except Error Unit
  | [] => .ok ()
  | r :: rs =>
    match seen.lookup (rpcIdent r.name) with
    | some other => .error (.defect (.methodTwice service other r.name (rpcIdent r.name)))
    | none => checkMethods service ((rpcIdent r.name, r.name) :: seen) rs

def rpc (b : Batch) (fileId service : String) (r : Rpc) : Except Error RpcPlan := do
  let request ← b.resolve r.request fileId [service, r.name]
  let response ← b.resolve r.response fileId [service, r.name]
  return ⟨r, rpcIdent r.name, b.baseType fileId [] request, b.baseType fileId [] response⟩

def service (b : Batch) (fileId package : String) (s : Service) : Except Error ServicePlan := do
  checkMethods s.name [] s.rpcs
  let rpcs ← s.rpcs.mapM (rpc b fileId s.name)
  return ⟨fullName package [s.name], Naming.typeIdent s.name ++ "Client", rpcs⟩

def file (b : Batch) (fileId : String) (s : Schema) : Except Error FilePlan := do
  let messages ← messages b fileId s.package [] s.messages
  let services ← s.services.mapM (service b fileId s.package)
  return ⟨fileId, s.package, b.moduleName fileId, messages,
    s.enums.map fun e => EnumPlan.ofEnum (fullName s.package [e.name]) e, services⟩

end Plan

end ProtoSchema
