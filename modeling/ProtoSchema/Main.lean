import ProtoSchema.CommandLine

/-! # The program

Loads the folders that the arguments name, runs the command line on them, and stores what it wrote.
-/

namespace ProtoSchema.Disk

/-- The text of a path, from the folder the program runs in. -/
def textOf : Path → String
  | [] => "."
  | "/" :: names => "/" ++ "/".intercalate names
  | names => "/".intercalate names

/-- Adds a file, or a folder with all that is below it. -/
partial def load (t : FileTree) (path : Path) : IO FileTree := do
  let place := (← IO.currentDir) / textOf path
  if ← place.isDir then
    let mut tree := path.upTo.foldl FileTree.ensureFolder t
    for e in ← place.readDir do
      tree ← load tree (path ++ [e.fileName])
    return tree
  else if ← place.pathExists then
    return t.place path (.file (← IO.FS.readBinFile place))
  else return t

/-- Adds the files and folders that a route passes through. -/
def loadWay (t : FileTree) (r : Route) : IO FileTree :=
  (List.range r.steps.length).foldlM (fun (tree : FileTree) (n : Nat) => do
    let way := (Route.mk r.start (r.steps.take (n + 1))).target
    let place := (← IO.currentDir) / textOf way
    if ← place.isDir then return way.upTo.foldl FileTree.ensureFolder tree
    else if ← place.pathExists then return tree.place way (.file .empty)
    else return tree) t

/-- Makes the folders and writes the files that are not what they were, in the order in which they
came into the tree. -/
def store (before after : FileTree) : IO Unit := do
  let root ← IO.currentDir
  for e in after.entries.reverse do
    let place := root / textOf e.1
    match e.2, before.get? e.1 with
    | .folder, none => IO.FS.createDir place
    | .file contents, some (.file old) =>
      if old.data != contents.data then IO.FS.writeBinFile place contents
    | .file contents, _ => IO.FS.writeBinFile place contents
    | .folder, some _ => pure ()

end ProtoSchema.Disk

open ProtoSchema in
def main (args : List String) : IO UInt32 := do
  match CommandLine.read args with
  | .run input output =>
    let routes := [Route.ofText input, Route.ofText output]
    let ways ← routes.foldlM Disk.loadWay {}
    let before ← routes.foldlM (fun (t : FileTree) (r : Route) => Disk.load t r.target) ways
    let report := CommandLine.run before args
    Disk.store before report.tree
    report.log.forM IO.eprintln
    report.lines.forM IO.println
    return UInt32.ofNat report.code
  | _ =>
    let report := CommandLine.run {} args
    report.lines.forM IO.println
    return UInt32.ofNat report.code
