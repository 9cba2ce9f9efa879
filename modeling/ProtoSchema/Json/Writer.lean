import ProtoSchema.Json

/-! # Writing JSON

The compact text of a tree.
-/

namespace ProtoSchema.Json

mutual

def render : Json → List Char
  | null => "null".toList
  | bool b => if b then "true".toList else "false".toList
  | number literal => literal.toList
  | string text => Text.quoted (text.getD "").toList
  | array items _ => '[' :: renderItems items ++ [']']
  | object entries _ => '\x7b' :: renderEntries entries ++ ['\x7d']
  | cut => []
  | bare => []

def renderItems : List Json → List Char
  | [] => []
  | [j] => render j
  | j :: js => render j ++ ',' :: renderItems js

def renderEntries : List (Option String × Json) → List Char
  | [] => []
  | [(key, j)] => Text.quoted (key.getD "").toList ++ ':' :: render j
  | (key, j) :: es => Text.quoted (key.getD "").toList ++ ':' :: render j ++ ',' :: renderEntries es

end

def toText (j : Json) : String := String.ofList j.render

end ProtoSchema.Json
