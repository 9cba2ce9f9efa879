import ProtoSchema.Error
import ProtoSchema.Path

/-! # File trees

Files and folders by their paths. A route is walked step by step, each of them from a folder that is
there. Folders are made with the folders around them, and a file is written whole or not at all.
-/

namespace ProtoSchema

inductive Entry where
  | file (contents : ByteArray)
  | folder

structure FileTree where
  entries : List (Path × Entry) := []

namespace FileTree

def empty : FileTree := {}

/-- The entry at a path; base folders are always there. -/
def get? (t : FileTree) (p : Path) : Option Entry :=
  if p.isBase then some .folder else t.entries.lookup p

def put (t : FileTree) (p : Path) (e : Entry) : FileTree :=
  ⟨(p, e) :: t.entries.filter (·.1 ≠ p)⟩

def isFolder (t : FileTree) (p : Path) : Bool :=
  match t.get? p with
  | some .folder => true
  | _ => false

def isFile (t : FileTree) (p : Path) : Bool :=
  match t.get? p with
  | some (.file _) => true
  | _ => false

def ensureFolder (t : FileTree) (p : Path) : FileTree :=
  if (t.get? p).isSome then t else t.put p .folder

/-- Takes one step, from a folder. There may be nothing where it leads. -/
def step (t : FileTree) (here : Path) (name : String) : Except StorageFault Path :=
  if !t.isFolder here then .error .notDirectory
  else if Path.longestName < name.utf8ByteSize then .error .nameTooLong
  else .ok (here.follow name)

def walk (t : FileTree) (here : Path) : List String → Except StorageFault Path
  | [] => .ok here
  | name :: rest =>
    match t.step here name with
    | .error fault => .error fault
    | .ok next => if (t.get? next).isSome then t.walk next rest else .error .notFound

def folderAt? (t : FileTree) (r : Route) : Option Path :=
  match t.walk r.start r.steps with
  | .ok p => if t.isFolder p then some p else none
  | .error _ => none

/-- The folder a text names. The empty text names none, though its route stays where it starts. -/
def folderNamed? (t : FileTree) (text : String) : Option Path :=
  if text.isEmpty then none else t.folderAt? (Route.ofText text)

/-- Makes the folder at the end of a route, in a folder that is there, and gives its path. -/
def makeFolder (t : FileTree) (r : Route) : Except StorageFault (Path × FileTree) :=
  if r.hasNul then .error .nulInName
  else
    match r.steps.getLast? with
    | none => .error .exists
    | some name =>
      match (t.walk r.start r.steps.dropLast).bind (t.step · name) with
      | .error fault => .error fault
      | .ok p =>
        if name = "." || name = ".." || (t.get? p).isSome then .error .exists
        else .ok (p, t.put p .folder)

/-- Makes a folder, or takes the one that is there. -/
def takeFolder (t : FileTree) (r : Route) : Except StorageFault (Path × FileTree) :=
  match t.makeFolder r with
  | .ok made => .ok made
  | .error fault =>
    match t.folderAt? r with
    | some p => .ok (p, t)
    | none => .error fault

/-- Takes the folder at the first of some routes; the next one is tried before if the way to it is
missing. The tree holds what was made even if that is not all. -/
def takeFolders (t : FileTree) (start : Path) :
    List (List String) → Except StorageFault Path × FileTree
  | [] => (.ok start, t)
  | steps :: outer =>
    match t.takeFolder ⟨start, steps⟩ with
    | .ok (p, after) => (.ok p, after)
    | .error .notFound =>
      match t.takeFolders start outer with
      | (.error fault, after) => (.error fault, after)
      | (.ok _, after) =>
        match after.takeFolder ⟨start, steps⟩ with
        | .ok (p, last) => (.ok p, last)
        | .error fault => (.error fault, after)
    | .error fault => (.error fault, t)

/-- Makes the folder at the end of a route and those around it, and gives its path. -/
def makeFolders (t : FileTree) (r : Route) : Except StorageFault Path × FileTree :=
  if r.steps.isEmpty then (.ok r.start, t) else t.takeFolders r.start r.outward

/-- Writes a file in a folder that is there. -/
def write (t : FileTree) (p : Path) (text : String) : Except StorageFault FileTree :=
  if t.isFolder p then .error .isDirectory else .ok (t.put p (.file text.toUTF8))

/-- Puts an entry in place together with the folders around it. -/
def place (t : FileTree) (p : Path) (e : Entry) : FileTree :=
  (p.upTo.dropLast.foldl ensureFolder t).put p e

def textOf (contents : ByteArray) : Except StorageFault String :=
  match String.fromUTF8? contents with
  | some text => .ok text
  | none => .error .notUtf8

/-- The path from a folder to an entry inside it. A base folder does not hold the others. -/
def inside? (folder p : Path) : Option Path :=
  let rest := p.drop folder.length
  if folder.isPrefixOf p && !rest.head?.any (fun s => s = ".." || s = "/") then some rest else none

/-- An entry that is a file inside a folder, by its path from there. -/
def fileInside? (folder : Path) : Path × Entry → Option (Path × ByteArray)
  | (p, .file contents) => (inside? folder p).map (·, contents)
  | (_, .folder) => none

/-- The files below a folder, by their paths from there, in the order of the paths. -/
def filesBelow (t : FileTree) (folder : Path) : List (Path × ByteArray) :=
  (t.entries.filterMap (fileInside? folder)).mergeSort fun a b => !(b.1 < a.1)

end FileTree

end ProtoSchema
