import ProtoSchema.Catalog
import ProtoSchema.Value.Writer

/-! # The package `kitchen.v1`

Message types with every scalar under every label, two oneofs, and messages that contain themselves.
-/

namespace ProtoSchema.Kitchen

def color : EnumPlan :=
  .ofValues "kitchen.v1" "Color" [("COLOR_UNSPECIFIED", 0), ("COLOR_RED", 1), ("COLOR_NEGATIVE", -5),
    ("COLOR_OLD", 7), ("COLOR_MAX", 2147483647), ("COLOR_MIN", -2147483648)]

def leaf : MessageType where
  name := "Leaf"
  fields := [.single "text" 1 .string, .single "small_number" 2 .int32]
  oneofs := []

def leafRef : ValueType := .message "kitchen.Leaf"

def sink : MessageType where
  name := "Sink"
  fields := [.single "double_value" 1 (.scalar .double), .single "float_value" 2 (.scalar .float),
    .single "int32_value" 3 .int32, .single "int64_value" 4 .int64,
    .single "uint32_value" 5 (.scalar .uint32), .single "uint64_value" 6 (.scalar .uint64),
    .single "sint32_value" 7 (.scalar .sint32), .single "sint64_value" 8 (.scalar .sint64),
    .single "fixed32_value" 9 (.scalar .fixed32), .single "fixed64_value" 10 (.scalar .fixed64),
    .single "sfixed32_value" 11 (.scalar .sfixed32), .single "sfixed64_value" 12 (.scalar .sfixed64),
    .single "bool_value" 13 (.scalar .bool), .single "string_value" 14 .string,
    .single "bytes_value" 15 .bytes, .single "time_value" 16 .timestamp,
    .single "color_value" 17 (.enum color), .single "leaf_value" 18 leafRef]
  oneofs := []

/-- The types that are used under every label, with the names and numbers of their fields. -/
def sampled : List (String × Nat × ValueType) :=
  [("double_value", 1, .scalar .double), ("float_value", 2, .scalar .float),
    ("int32_value", 3, .int32), ("int64_value", 4, .int64), ("uint64_value", 6, .scalar .uint64),
    ("bool_value", 13, .scalar .bool), ("string_value", 14, .string), ("bytes_value", 15, .bytes),
    ("time_value", 16, .timestamp), ("color_value", 17, .enum color), ("leaf_value", 18, leafRef)]

def opts : MessageType := ⟨"Opts", sampled.map fun f => .optional f.1 f.2.1 f.2.2, []⟩

def lists : MessageType := ⟨"Lists", sampled.map fun f => .repeated f.1 f.2.1 f.2.2, []⟩

def choice : MessageType where
  name := "Choice"
  fields := [.single "id" 1 .string, .single "after" 14 .int32]
  oneofs := [
    ⟨"pick", [.single "text_pick" 2 .string, .single "int_pick" 3 .int32,
      .single "long_pick" 4 .int64, .single "bytes_pick" 5 .bytes, .single "time_pick" 6 .timestamp,
      .single "color_pick" 7 (.enum color), .single "leaf_pick" 8 leafRef,
      .single "self_pick" 9 (.message "kitchen.Choice"), .single "bool_pick" 10 (.scalar .bool),
      .single "double_pick" 11 (.scalar .double)]⟩,
    ⟨"other_group", [.single "type" 12 .string, .single "Big_Number" 13 (.scalar .uint64)]⟩]

def tree : MessageType where
  name := "Tree"
  fields := [.single "name" 1 .string, .single "left" 2 (.message "kitchen.Tree"),
    .optional "right" 3 (.message "kitchen.Tree"), .repeated "kids" 4 (.message "kitchen.Tree")]
  oneofs := []

def names : MessageType where
  name := "Names"
  fields := [.single "type" 1 .string, .single "userID" 2 .string, .single "Weird__Name_" 3 .string,
    .single "_lead" 4 .string, .single "x_1_y" 5 .string]
  oneofs := []

def catalog : Catalog where
  messages := [("kitchen.Leaf", leaf), ("kitchen.Sink", sink), ("kitchen.Opts", opts),
    ("kitchen.Lists", lists), ("kitchen.Choice", choice), ("kitchen.Tree", tree),
    ("kitchen.Names", names)]
  enums := [("kitchen.Color", color)]

namespace Choice

inductive Step where
  | setTextPick (s : String)
  | setIntPick (n : Int)
  | setType (s : String)
  | setBigNumber (n : Int)
  | clearPick
  | clearOtherGroup
  | load (json : String)
  | wrap
  | unwrap
deriving Repr

def type : ValueType := .message "kitchen.Choice"

def id (v : Value) : String :=
  match choice.get? "id" v with
  | some (.text s) => s
  | _ => ""

def selfPick? (v : Value) : Option Value := choice.member? "pick" "self_pick" v

/-- A new choice that holds the given one and has a longer id. -/
def wrap (v : Value) : Value :=
  choice.setMember "pick" "self_pick" v (choice.set "id" (.text (id v ++ "'")) choice.default)

/-- Makes a change; loading a text that cannot be read is a fault. -/
def step (v : Value) : Step → Except ReadFault Value
  | .setTextPick s => .ok (choice.setMember "pick" "text_pick" (.text s) v)
  | .setIntPick n => .ok (choice.setMember "pick" "int_pick" (.int n) v)
  | .setType s => .ok (choice.setMember "other_group" "type" (.text s) v)
  | .setBigNumber n => .ok (choice.setMember "other_group" "Big_Number" (.int n) v)
  | .clearPick => .ok (choice.clear "pick" v)
  | .clearOtherGroup => .ok (choice.clear "other_group" v)
  | .load json => catalog.decode type json
  | .wrap => .ok (wrap v)
  | .unwrap => .ok ((selfPick? v).getD v)

end Choice

end ProtoSchema.Kitchen
