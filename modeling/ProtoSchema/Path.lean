import ProtoSchema.Naming

/-! # Paths and routes

A path is a place in a tree. A route is a way there as a text writes it, step by step; the steps `.` and
`..` are only followed in a tree, since they need a folder to start from.
-/

namespace ProtoSchema

/-- The names on the way from the root to a file or folder. -/
abbrev Path := List String

namespace Path

/-- The folder around a path. What is outside the root is named by `..` alone, and there is nothing
outside the folder in which absolute paths start. -/
def back (p : Path) : Path :=
  match p.getLast? with
  | none => [".."]
  | some ".." => p ++ [".."]
  | some "/" => p
  | some _ => p.dropLast

/-- The root, the folders outside it, and the folder in which absolute paths start. A tree does not
know where its root stands, so a way out of it and back in again leads to another place. -/
def isBase (p : Path) : Bool := p = ["/"] || p.all (· = "..")

def longestName : Nat := 255

/-- Where a step leads; `.` stays and `..` goes back. -/
def follow (p : Path) (step : String) : Path :=
  if step = "." then p else if step = ".." then p.back else p ++ [step]

def join (text name : String) : String :=
  match text.toList.getLast? with
  | none => name
  | some '/' => text ++ name
  | some _ => text ++ "/" ++ name

/-- What follows the last dot of a name; a leading dot does not count. -/
def extension? (name : String) : Option (List Char) :=
  match name.toList.reverse.dropWhile (· ≠ '.') with
  | _ :: _ :: _ => some (name.toList.reverse.takeWhile (· ≠ '.')).reverse
  | _ => none

/-- The folders around a path and the path itself, outer ones first. -/
def upTo (p : Path) : List Path := (List.range p.length).map fun n => p.take (n + 1)

end Path

structure Route where
  start : Path := []
  steps : List String
deriving DecidableEq, Repr

namespace Route

/-- The route a text writes. An absolute one starts at a folder of its own. -/
def ofText (text : String) : Route where
  start := if text.toList.head? = some '/' then ["/"] else []
  steps := ((Naming.splitAt '/' text.toList).map String.ofList).filter (· ≠ "")

/-- The end of a route all of whose steps can be taken. -/
def target (r : Route) : Path := r.steps.foldl Path.follow r.start

/-- A name with the character that ends names is no name. -/
def hasNul (r : Route) : Bool := r.steps.any fun s => s.toList.any (·.toNat = 0)

/-- What is left of reversed steps after dropping one or more, the longest first. A `.` is dropped with
the step after it, unless it is the only step left. -/
def shortened : List String → List (List String)
  | [] => []
  | [_] => []
  | _ :: s :: rest =>
    if s = "." && !rest.isEmpty then shortened (s :: rest)
    else (s :: rest) :: shortened (s :: rest)

/-- The steps of a route and of the routes to the folders around its end, the longest first. A `.` at
the end is no folder of its own. -/
def outward (r : Route) : List (List String) :=
  r.steps :: (shortened (r.steps.reverse.dropWhile (· = "."))).map List.reverse

end Route

end ProtoSchema
