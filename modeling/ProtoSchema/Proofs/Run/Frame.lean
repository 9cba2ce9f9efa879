import ProtoSchema.Proofs.Plan.Places
import ProtoSchema.Proofs.Run.Accounting

/-! # What a run changes

The tree after a run is the tree before with the folders on the way to the output folder and the files
of the generated events, which are all at different places. Nothing else is changed, added or removed.
-/

namespace ProtoSchema

theorem Path.IsName.follow {name : String} (h : IsName name) (p : Path) :
    p.follow name = p ++ [name] := by
  rw [Path.follow, if_neg h.ne_dot, if_neg h.ne_dots]

namespace Route

variable {text name : String}

theorem steps_append_slash (text rest : String) :
    (ofText (text ++ "/" ++ rest)).steps = (ofText text).steps ++ (ofText rest).steps := by
  have hsplit : (text ++ "/" ++ rest).toList.splitOn '/' =
      text.toList.splitOn '/' ++ rest.toList.splitOn '/' := by
    rw [String.toList_append, String.toList_append, List.append_assoc]
    exact List.splitOn_append_cons_self ..
  simp only [ofText, Naming.splitAt_eq_splitOn, hsplit, List.map_append, List.filter_append]

theorem start_append {r : String} (h : text ≠ "") :
    (ofText (text ++ r)).start = (ofText text).start := by
  obtain ⟨c, cs, hcs⟩ := List.exists_cons_of_ne_nil (by simpa using h : text.toList ≠ [])
  simp only [ofText, String.toList_append, hcs, List.cons_append, List.head?_cons]

theorem ofText_name (hempty : name ≠ "") (hslash : '/' ∉ name.toList) : ofText name = ⟨[], [name]⟩ := by
  have hhead : name.toList.head? ≠ some '/' := by
    intro hhead
    exact hslash (List.mem_of_mem_head? hhead)
  rw [ofText, if_neg hhead, Naming.splitAt_eq_splitOn, List.splitOn_eq_singleton hslash]
  simp [hempty]

theorem ofText_join (hempty : name ≠ "") (hslash : '/' ∉ name.toList) :
    ofText (Path.join text name) = ⟨(ofText text).start, (ofText text).steps ++ [name]⟩ := by
  have hname := ofText_name hempty hslash
  unfold Path.join
  split
  · next hlast =>
    obtain rfl : text = "" := by simpa using hlast
    exact hname
  · next hlast =>
    obtain ⟨front, hfront⟩ := List.getLast?_eq_some_iff.1 hlast
    obtain rfl : text = String.ofList front ++ "/" := by
      apply String.toList_injective
      simp [hfront]
    have hstart := start_append (r := name) (show String.ofList front ++ "/" ≠ "" by simp)
    have hfront := steps_append_slash (String.ofList front) ""
    rw [String.append_empty, show (ofText "").steps = [] from rfl, List.append_nil] at hfront
    have hsteps := steps_append_slash (String.ofList front) name
    rw [hname, ← hfront] at hsteps
    exact congrArg₂ Route.mk hstart hsteps
  · next c _ hlast =>
    have htext : text ≠ "" := by
      rintro rfl
      cases hlast
    have hstart := start_append (r := "/" ++ name) htext
    have hsteps := steps_append_slash text name
    rw [← String.append_assoc] at hstart
    rw [hname] at hsteps
    exact congrArg₂ Route.mk hstart hsteps

theorem target_join (hname : Path.IsName name) :
    (ofText (Path.join text name)).target = (ofText text).target ++ [name] := by
  rw [ofText_join hname.ne_empty hname.slash, target_concat, hname.follow]

end Route

namespace FileTree

variable {t : FileTree} {text name : String} {contents : ByteArray}

/-- The contents of the file at the end of a route. -/
def fileAt? (t : FileTree) (r : Route) : Option ByteArray :=
  match t.walk r.start r.steps with
  | .ok p =>
    match t.get? p with
    | some (.file contents) => some contents
    | _ => none
  | .error _ => none

theorem Leads.fileAt?_join (h : t.Leads (Route.ofText text)) (hname : Path.IsName name)
    (hfile : t.get? ((Route.ofText text).target ++ [name]) = some (.file contents)) :
    t.fileAt? (Route.ofText (Path.join text name)) = some contents := by
  have hfolder : t.isFolder (Route.ofText text).target = true :=
    h.isFolder _ (Route.mem_places.2 ⟨_, List.prefix_rfl, rfl⟩)
  have hwalk : t.walk (Route.ofText text).start ((Route.ofText text).steps ++ [name]) =
      .ok ((Route.ofText text).target ++ [name]) := by
    rw [h.walk_append, FileTree.walk, step_of_isFolder hfolder hname.short, hname.follow]
    dsimp only
    rw [hfile]
    rfl
  rw [Route.ofText_join hname.ne_empty hname.slash, fileAt?, hwalk]
  dsimp only
  rw [hfile]

end FileTree

theorem Batch.generate_eq_ok {b : Batch} {fileId : String} {g : Generated}
    (h : b.generate fileId = .ok (some g)) :
    g.fileName = Naming.fileStem fileId ++ ".g.rs" ∧ g.moduleName = b.moduleName fileId ∧
      ∃ s, b.get? fileId = some s := by
  obtain ⟨s, plan, hs, -, -, rfl⟩ := generate_ok_iff.1 h
  exact ⟨rfl, rfl, s, hs⟩

theorem Path.IsName.generated {stem : String} (h : IsName (stem ++ ".proto")) :
    IsName (stem ++ ".g.rs") := by
  have hslash : '/' ∉ stem.toList := by
    intro hmem
    exact h.slash (by simp [hmem])
  have hsize := h.short
  rw [String.utf8ByteSize_append] at hsize
  have hproto : ".proto".utf8ByteSize = 6 := rfl
  have hlength : (stem ++ ".g.rs").toList.length = stem.toList.length + 5 := by simp
  constructor
  · intro heq
    simp [heq] at hlength
  · intro heq
    simp [heq] at hlength
  · intro heq
    simp [heq] at hlength
  · simpa using hslash
  · rw [String.utf8ByteSize_append, show ".g.rs".utf8ByteSize = 5 from rfl]
    omega

namespace Run

open FileTree

variable {t made after : FileTree} {source : Path} {input output fileId : String} {g : Generated}
  {events ends : List Event} {added : List Path} {last : Progress}

theorem mem_generateAll {b : Batch} {result : Except Error (Option Generated)} :
    (fileId, result) ∈ b.generateAll → b.generate fileId = result := by
  intro h
  obtain ⟨id, -, heq⟩ := List.mem_map.1 h
  cases heq
  rfl

theorem isName_fileName (ht : t.Regular)
    (h : (batchOf (discover t source)).generate fileId = .ok (some g)) :
    Path.IsName g.fileName := by
  obtain ⟨hname, -, s, hs⟩ := Batch.generate_eq_ok h
  obtain ⟨f, hf, rfl, -⟩ := (get?_batchOf ht).1 hs
  rw [hname]
  exact (hf.names _ hf.fileStem).generated

section Written

variable {p : Progress} {results : List (String × Except Error (Option Generated))}
  {written : List (String × Generated)} {d : Destination} {q : Path}

theorem Writes.mem_generated (h : Writes d p results ends written last)
    (hevents : events.filter Event.isGenerated = ends.filter Event.isGenerated) {path : String} :
    .generated fileId path ∈ events ↔ ∃ g, (fileId, g) ∈ written ∧ path = d.pathOf g := by
  have hmem : .generated fileId path ∈ events ↔
      .generated fileId path ∈ events.filter Event.isGenerated := by
    simp [Event.isGenerated]
  rw [hmem, hevents, h.generated, List.mem_map]
  constructor
  · rintro ⟨⟨id, g⟩, hw, heq⟩
    cases heq
    exact ⟨g, hw, rfl⟩
  · rintro ⟨g, hw, rfl⟩
    exact ⟨_, hw, rfl⟩

theorem Writes.get?_of_ne (h : Writes d p results ends written last)
    (hq : ∀ w ∈ written, q ≠ d.place w.2) : last.tree.get? q = p.tree.get? q := by
  rw [h.tree, get?_writeAll_of_ne hq]

theorem Writes.get?_of_mem (h : Writes d p results ends written last) (hw : (fileId, g) ∈ written) :
    last.tree.get? (d.place g) = some (.file g.code.toUTF8) := by
  have hbase : ∀ w ∈ written, (d.place w.2).isBase = false :=
    fun w hw => not_isBase_of_not_isFolder (h.free w hw).2
  rw [h.tree, get?_writeAll_of_mem h.names hbase hw]

theorem Writes.ne_place_of_isFolder (h : Writes d p results ends written last)
    (hq : p.tree.isFolder q = true) : ∀ w ∈ written, q ≠ d.place w.2 := by
  rintro w hw rfl
  rw [(h.free w hw).2] at hq
  cases hq

theorem Writes.get?_of_isFolder (h : Writes d p results ends written last)
    (hq : p.tree.isFolder q = true) : last.tree.get? q = some .folder := by
  rw [h.get?_of_ne (h.ne_place_of_isFolder hq), isFolder_iff.1 hq]

theorem Writes.leads {r : Route} (h : Writes d p results ends written last) (hr : p.tree.Leads r) :
    last.tree.Leads r := by
  constructor
  · intro q hq
    exact isFolder_iff.2 (h.get?_of_isFolder (hr.isFolder q hq))
  · exact hr.short

end Written

/-- Two events that do not tell of two files at one place or in one module. -/
def Apart (b : Batch) (e e' : Event) : Prop :=
  ∀ id path id' path', e = .generated id path → e' = .generated id' path' →
    path ≠ path' ∧ (Route.ofText path).target ≠ (Route.ofText path').target ∧
      b.moduleName id ≠ b.moduleName id'

/-- How the tree after a run with the given events differs from the tree before. -/
structure Frames (t : FileTree) (output : String) (b : Batch) (events : List Event)
    (after : FileTree) : Prop where
  /-- Each generated file holds the code made from its schema file. -/
  written : ∀ fileId path, .generated fileId path ∈ events → ∃ g,
    b.generate fileId = .ok (some g) ∧
      after.fileAt? (Route.ofText path) = some g.code.toUTF8
  apart : events.Pairwise (Apart b)
  /-- There is a folder everywhere on the way to the output folder. -/
  folders : ∀ q ∈ (Route.ofText output).places, after.get? q = some .folder
  /-- All other places are as before, but for folders on that way that were missing. -/
  kept : ∀ q, (∀ id path, .generated id path ∈ events → q ≠ (Route.ofText path).target) →
    after.get? q =
      (t.get? q).or (if q ∈ (Route.ofText output).places then some .folder else none)
  /-- Where writing failed there is a folder, and no file was generated there. -/
  blocked : ∀ id path error, .failed id (.writing path) error ∈ events →
    after.get? (Route.ofText path).target = some .folder ∧
      ∀ id' path', .generated id' path' ∈ events →
        (Route.ofText path).target ≠ (Route.ofText path').target

theorem pairwise_apart_iff {b : Batch} :
    events.Pairwise (Apart b) ↔ (events.filter Event.isGenerated).Pairwise (Apart b) := by
  rw [List.pairwise_filter]
  constructor
  · intro h
    exact h.imp fun hapart _ _ => hapart
  · intro h
    apply h.imp
    rintro e e' hapart id path id' path' rfl rfl
    exact hapart rfl rfl id path id' path' rfl rfl

theorem target_pathOf (ht : t.Regular)
    (h : (batchOf (discover t source)).generate fileId = .ok (some g)) :
    (Route.ofText ((Destination.ofText output).pathOf g)).target =
      (Destination.ofText output).place g :=
  Route.target_join (isName_fileName ht h)

theorem apart_of_ne {id' : String} {g' : Generated} (ht : t.Regular)
    (hg : (batchOf (discover t source)).generate fileId = .ok (some g))
    (hg' : (batchOf (discover t source)).generate id' = .ok (some g'))
    (hfile : g.fileName ≠ g'.fileName) (hmodule : g.moduleName ≠ g'.moduleName) :
    Apart (batchOf (discover t source)) (.generated fileId ((Destination.ofText output).pathOf g))
      (.generated id' ((Destination.ofText output).pathOf g')) := by
  rintro _ _ _ _ ⟨⟩ ⟨⟩
  have hplace : (Destination.ofText output).place g ≠ (Destination.ofText output).place g' := by
    simpa [Destination.place] using hfile
  rw [← target_pathOf ht hg, ← target_pathOf ht hg'] at hplace
  rw [(Batch.generate_eq_ok hg).2.1, (Batch.generate_eq_ok hg').2.1] at hmodule
  exact ⟨fun hpath => hplace (by rw [hpath]), hplace, hmodule⟩

theorem Completes.get?_made (h : Completes t input output source made added ends last) (q : Path) :
    made.get? q = (t.get? q).or (if q ∈ (Route.ofText output).places then some .folder else none) := by
  by_cases hadded : q ∈ added
  · rw [h.adds.get?, if_pos hadded, h.adds.fresh q hadded, if_pos (h.onWay q hadded), Option.none_or]
  · have hmade := h.adds.get? q
    rw [if_neg hadded] at hmade
    by_cases hplace : q ∈ (Route.ofText output).places
    · rw [← hmade, isFolder_iff.1 (h.leads.isFolder q hplace), Option.some_or]
    · rw [hmade, if_neg hplace, Option.or_none]

/-- The events of a run count as far as they are among those of emitting the files. -/
theorem Completes.frames (ht : t.Regular)
    (h : Completes t input output source made added ends last)
    (hevents : events.filter Event.isGenerated = ends.filter Event.isGenerated)
    (hfailed : ∀ id stage error, .failed id stage error ∈ events → .failed id stage error ∈ ends) :
    Frames t output (batchOf (discover t source)) events last.tree := by
  obtain ⟨written, hw⟩ := emitAll_writes (.ofText output) ⟨made, [], []⟩
    (batchOf (discover t source)).generateAll
  rw [h.emitted] at hw
  have hgenerated : ∀ {id g}, (id, g) ∈ written →
      (batchOf (discover t source)).generate id = .ok (some g) :=
    fun hmem => mem_generateAll (hw.source _ hmem)
  constructor
  case written =>
    intro id path hmem
    obtain ⟨g, hg, rfl⟩ := (hw.mem_generated hevents).1 hmem
    have hname := isName_fileName ht (hgenerated hg)
    exact ⟨g, hgenerated hg, (hw.leads h.leads).fileAt?_join hname (hw.get?_of_mem hg)⟩
  case apart =>
    rw [pairwise_apart_iff, hevents, hw.generated, List.pairwise_map]
    apply hw.names.imp_of_mem
    rintro ⟨id, g⟩ ⟨id', g'⟩ hg hg' ⟨hfile, hmodule⟩
    exact apart_of_ne ht (hgenerated hg) (hgenerated hg') hfile hmodule
  case folders =>
    intro q hq
    exact hw.get?_of_isFolder (h.leads.isFolder q hq)
  case kept =>
    intro q hq
    rw [← h.get?_made]
    apply hw.get?_of_ne
    rintro ⟨id, g⟩ hg
    rw [← target_pathOf ht (hgenerated hg)]
    exact hq id _ ((hw.mem_generated hevents).2 ⟨g, hg, rfl⟩)
  case blocked =>
    intro id path error hmem
    obtain ⟨g, hg, rfl, hfolder⟩ := hw.unwritten id path error (hfailed id _ error hmem)
    rw [target_pathOf ht (mem_generateAll hg)]
    refine ⟨hw.get?_of_isFolder hfolder, fun id' path' hmem' => ?_⟩
    obtain ⟨g', hg', rfl⟩ := (hw.mem_generated hevents).1 hmem'
    rw [target_pathOf ht (hgenerated hg')]
    exact hw.ne_place_of_isFolder hfolder _ hg'

theorem filter_isGenerated (n : Nat) (files : List (String × ByteArray)) (ends : List Event) :
    (Event.found n :: files.map readEvent ++ ends).filter Event.isGenerated =
      ends.filter Event.isGenerated := by
  have hreads : (files.map readEvent).filter Event.isGenerated = [] := by
    rw [List.filter_eq_nil_iff]
    intro e he
    obtain ⟨f, -, rfl⟩ := List.mem_map.1 he
    unfold readEvent
    split <;> simp [Event.isGenerated]
  rw [List.filter_append, List.filter_cons_of_neg (by simp [Event.isGenerated]), hreads,
    List.nil_append]

theorem mem_ends_of_failed {n : Nat} {files : List (String × ByteArray)} {stage : Stage}
    {error : Error}
    (h : .failed fileId stage error ∈ Event.found n :: files.map readEvent ++ ends) :
    .failed fileId stage error ∈ ends := by
  rcases List.mem_append.1 h with h | h
  · rcases List.mem_cons.1 h with heq | h
    · cases heq
    · obtain ⟨f, -, heq⟩ := List.mem_map.1 h
      unfold readEvent at heq
      split at heq <;> cases heq
  · exact h

/-- If a run ends well, the tree has the folders of the output path and the generated files, made from
the batch of all files that could be read, and all else is as it was. -/
theorem compile_frames (ht : t.Regular) (h : compile t input output = (.ok events, after)) :
    ∃ source b, t.folderNamed? input = some source ∧
      (∀ id s, b.get? id = some s ↔
        ∃ f, IsInput t source f ∧ fileIdOf f.1 = id ∧ compileFile f.2 = .ok s) ∧
      Frames t output b events after := by
  obtain ⟨source, made, added, ends, last, hrun, rfl, rfl⟩ := compile_eq_ok h
  have hgenerated := filter_isGenerated (discover t source).length (discover t source) ends
  have hframes := hrun.frames ht hgenerated fun _ _ _ => mem_ends_of_failed
  exact ⟨source, _, hrun.found, fun id s => get?_batchOf ht, hframes⟩

theorem compile_frames_mixedTree : ∃ after b g,
    compile mixedTree "in" "out" = (.ok mixedEvents, after) ∧
      Frames mixedTree "out" b mixedEvents after ∧ b.generate "a/user.proto" = .ok (some g) ∧
      after.fileAt? (Route.ofText "out/user.g.rs") = some g.code.toUTF8 ∧
      after.get? ["out", "net.g.rs"] = some .folder ∧
      after.get? ["in", "a-b.proto"] = some (.file ⟨#[255]⟩) := by
  obtain ⟨after, h⟩ := compile_mixedTree
  obtain ⟨source, b, -, -, hframes⟩ := compile_frames regular_mixedTree h
  obtain ⟨g, hg, hfile⟩ := hframes.written "a/user.proto" "out/user.g.rs" (by decide)
  have hblocked := hframes.blocked "net.proto" "out/net.g.rs" (.storage .isDirectory) (by decide)
  have hkept : after.get? ["in", "a-b.proto"] = some (.file ⟨#[255]⟩) := by
    rw [hframes.kept]
    · rfl
    · intro id path hmem
      obtain ⟨-, rfl⟩ : id = "a/user.proto" ∧ path = "out/user.g.rs" := by
        simpa [mixedEvents] using hmem
      decide
  exact ⟨after, b, g, h, hframes, hg, hfile, hblocked.1, hkept⟩

end Run

end ProtoSchema
