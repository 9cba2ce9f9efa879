import ProtoSchema.Run
import ProtoSchema.Proofs.FileTree.Listing

/-! # Emitting generated files

One file's result gives one event, and a generated file one more entry in the tree. Over a whole run the
tree gets the files of the generated events, whose names and modules are all different, and no folder
comes or goes.
-/

namespace ProtoSchema.Run

open FileTree

/-- The folder that a text names as a destination. -/
def Destination.ofText (text : String) : Destination := ⟨(Route.ofText text).target, text⟩

def Destination.place (output : Destination) (g : Generated) : Path :=
  output.folder ++ [g.fileName]

/-- Where a generated file goes, as the events write it. -/
def Destination.pathOf (output : Destination) (g : Generated) : String :=
  Path.join output.text g.fileName

def Progress.record (p : Progress) (output : Destination) (fileId : String) (g : Generated) :
    Progress where
  tree := p.tree.put (output.place g) (.file g.code.toUTF8)
  outputs := (g.fileName, fileId) :: p.outputs
  modules := (g.moduleName, fileId) :: p.modules

variable {output : Destination} {p p' : Progress} {fileId : String} {g : Generated} {e : Event}
  {result : Except Error (Option Generated)} {results : List (String × Except Error (Option Generated))}
  {events : List Event} {written : List (String × Generated)}

/-- The event that a file's result leads to, and the progress after it. -/
inductive Emits (output : Destination) (p : Progress) (fileId : String) :
    Except Error (Option Generated) → Event → Progress → Prop
  | ungenerated (e : Error) : Emits output p fileId (.error e) (.failed fileId .generation e) p
  | skipped : Emits output p fileId (.ok none) (.skipped fileId) p
  | collided (g : Generated) (fault : InputFault) (taken : p.taken? g = some fault) :
    Emits output p fileId (.ok (some g)) (.failed fileId .collision (.input fault)) p
  | unwritten (g : Generated) (isFolder : p.tree.isFolder (output.place g) = true) :
    Emits output p fileId (.ok (some g))
      (.failed fileId (.writing (output.pathOf g)) (.storage .isDirectory)) p
  | generated (g : Generated) (free : p.taken? g = none)
      (isFolder : p.tree.isFolder (output.place g) = false) :
    Emits output p fileId (.ok (some g)) (.generated fileId (output.pathOf g))
      (p.record output fileId g)

theorem emit_emits (output : Destination) (p : Progress) (fileId : String)
    (result : Except Error (Option Generated)) :
    Emits output p fileId result (emit output p (fileId, result)).1
      (emit output p (fileId, result)).2 := by
  cases result with
  | error e => exact .ungenerated e
  | ok generated =>
    cases generated with
    | none => exact .skipped
    | some g =>
      rw [emit]
      cases htaken : p.taken? g with
      | some fault => exact .collided g fault htaken
      | none =>
        cases hfolder : p.tree.isFolder (output.place g) with
        | true =>
          have hwrite : p.tree.write (output.folder ++ [g.fileName]) g.code = .error .isDirectory :=
            if_pos hfolder
          rw [hwrite]
          exact .unwritten g hfolder
        | false =>
          have hwrite : p.tree.write (output.folder ++ [g.fileName]) g.code =
              .ok (p.tree.put (output.place g) (.file g.code.toUTF8)) :=
            if_neg (by simpa [Destination.place] using hfolder)
          rw [hwrite]
          exact .generated g htaken hfolder

theorem taken?_eq_none : p.taken? g = none ↔
    p.outputs.lookup g.fileName = none ∧ p.modules.lookup g.moduleName = none := by
  unfold Progress.taken?
  cases p.outputs.lookup g.fileName with
  | none => simp only [Option.map_eq_none_iff, true_and]
  | some owner => simp only [reduceCtorEq, false_and]

theorem lookup_cons_eq_none {key name owner : String} {entries : List (String × String)}
    (h : ((key, owner) :: entries).lookup name = none) : key ≠ name ∧ entries.lookup name = none := by
  rw [List.lookup_eq_none_iff, List.forall_mem_cons] at h
  exact ⟨(bne_iff_ne.1 h.1).symm, List.lookup_eq_none_iff.2 h.2⟩

theorem free_of_record {g' : Generated} (h : (p.record output fileId g).taken? g' = none) :
    p.taken? g' = none ∧ g.fileName ≠ g'.fileName ∧ g.moduleName ≠ g'.moduleName := by
  obtain ⟨houtput, hmodule⟩ := taken?_eq_none.1 h
  obtain ⟨hfile, houtputs⟩ := lookup_cons_eq_none houtput
  obtain ⟨hname, hmodules⟩ := lookup_cons_eq_none hmodule
  exact ⟨taken?_eq_none.2 ⟨houtputs, hmodules⟩, hfile, hname⟩

/-- The tree with some generated files written one after the other. -/
def Destination.writeAll (output : Destination) (t : FileTree) (written : List (String × Generated)) :
    FileTree :=
  written.foldl (fun t w => t.put (output.place w.2) (.file w.2.code.toUTF8)) t

/-- The files that were written from some results, and the events of it. -/
structure Writes (output : Destination) (p : Progress)
    (results : List (String × Except Error (Option Generated))) (events : List Event)
    (written : List (String × Generated)) (p' : Progress) : Prop where
  tree : p'.tree = output.writeAll p.tree written
  generated : events.filter Event.isGenerated =
    written.map fun w => .generated w.1 (output.pathOf w.2)
  source : ∀ w ∈ written, (w.1, .ok (some w.2)) ∈ results
  names : written.Pairwise fun v w => v.2.fileName ≠ w.2.fileName ∧ v.2.moduleName ≠ w.2.moduleName
  free : ∀ w ∈ written, p.taken? w.2 = none ∧ p.tree.isFolder (output.place w.2) = false
  unwritten : ∀ fileId path error, .failed fileId (.writing path) error ∈ events →
    ∃ g, (fileId, .ok (some g)) ∈ results ∧ path = output.pathOf g ∧
      p.tree.isFolder (output.place g) = true

namespace Writes

theorem cons_of_not_isGenerated (h : Writes output p results events written p')
    (he : e.isGenerated = false)
    (hunwritten : ∀ id path error, e = .failed id (.writing path) error →
      id = fileId ∧ ∃ g, result = .ok (some g) ∧ path = output.pathOf g ∧
        p.tree.isFolder (output.place g) = true) :
    Writes output p ((fileId, result) :: results) (e :: events) written p' where
  tree := h.tree
  generated := by rw [List.filter_cons_of_neg (by simp [he]), h.generated]
  source w hw := List.mem_cons_of_mem _ (h.source w hw)
  names := h.names
  free := h.free
  unwritten id path error hmem := by
    rcases List.mem_cons.1 hmem with heq | hmem
    · obtain ⟨rfl, g, rfl, hpath, hfolder⟩ := hunwritten id path error heq.symm
      exact ⟨g, List.mem_cons_self, hpath, hfolder⟩
    · obtain ⟨g, hg, hpath, hfolder⟩ := h.unwritten id path error hmem
      exact ⟨g, List.mem_cons_of_mem _ hg, hpath, hfolder⟩

theorem cons_generated (free : p.taken? g = none)
    (hfolder : p.tree.isFolder (output.place g) = false)
    (h : Writes output (p.record output fileId g) results events written p') :
    Writes output p ((fileId, .ok (some g)) :: results)
      (.generated fileId (output.pathOf g) :: events) ((fileId, g) :: written) p' where
  tree := h.tree
  generated := by
    rw [List.filter_cons_of_pos rfl, h.generated, List.map_cons]
  source w hw := by
    rcases List.mem_cons.1 hw with rfl | hw
    · exact List.mem_cons_self
    · exact List.mem_cons_of_mem _ (h.source w hw)
  names := by
    rw [List.pairwise_cons]
    exact ⟨fun w hw => (free_of_record (h.free w hw).1).2, h.names⟩
  free w hw := by
    rcases List.mem_cons.1 hw with rfl | hw
    · exact ⟨free, hfolder⟩
    · obtain ⟨hfree, hplace⟩ := h.free w hw
      rw [Progress.record, isFolder_put_file hfolder] at hplace
      exact ⟨(free_of_record hfree).1, hplace⟩
  unwritten id path error hmem := by
    rcases List.mem_cons.1 hmem with heq | hmem
    · cases heq
    · obtain ⟨g', hg', hpath, hplace⟩ := h.unwritten id path error hmem
      rw [Progress.record, isFolder_put_file hfolder] at hplace
      exact ⟨g', List.mem_cons_of_mem _ hg', hpath, hplace⟩

theorem cons {next : Progress} (hstep : Emits output p fileId result e next)
    (h : Writes output next results events written p') :
    ∃ written', Writes output p ((fileId, result) :: results) (e :: events) written' p' := by
  cases hstep with
  | ungenerated e => exact ⟨written, h.cons_of_not_isGenerated rfl (by rintro _ _ _ ⟨⟩)⟩
  | skipped => exact ⟨written, h.cons_of_not_isGenerated rfl (by rintro _ _ _ ⟨⟩)⟩
  | collided g fault _ => exact ⟨written, h.cons_of_not_isGenerated rfl (by rintro _ _ _ ⟨⟩)⟩
  | unwritten g hfolder =>
    refine ⟨written, h.cons_of_not_isGenerated rfl ?_⟩
    rintro _ _ _ ⟨⟩
    exact ⟨rfl, g, rfl, rfl, hfolder⟩
  | generated g free hfolder => exact ⟨_, h.cons_generated free hfolder⟩

end Writes

theorem emitAll_writes (output : Destination) (p : Progress)
    (results : List (String × Except Error (Option Generated))) :
    ∃ written, Writes output p results (emitAll output p results).1 written
      (emitAll output p results).2 := by
  induction results generalizing p with
  | nil => exact ⟨[], rfl, rfl, by simp, .nil, by simp, by simp [emitAll]⟩
  | cons r results ih =>
    obtain ⟨written, hwritten⟩ := ih (emit output p r).2
    exact hwritten.cons (emit_emits output p r.1 r.2)

variable {t : FileTree} {q : Path}

theorem get?_writeAll_of_ne (h : ∀ w ∈ written, q ≠ output.place w.2) :
    (output.writeAll t written).get? q = t.get? q := by
  induction written generalizing t with
  | nil => rfl
  | cons w written ih =>
    rw [List.forall_mem_cons] at h
    exact (ih h.2).trans (get?_put_of_ne h.1)

theorem get?_writeAll_of_mem
    (hnames : written.Pairwise fun v w => v.2.fileName ≠ w.2.fileName ∧ v.2.moduleName ≠ w.2.moduleName)
    (hbase : ∀ w ∈ written, (output.place w.2).isBase = false) {w : String × Generated}
    (hw : w ∈ written) :
    (output.writeAll t written).get? (output.place w.2) = some (.file w.2.code.toUTF8) := by
  induction written generalizing t with
  | nil => cases hw
  | cons v written ih =>
    obtain ⟨hfirst, hrest⟩ := List.pairwise_cons.1 hnames
    rw [List.forall_mem_cons] at hbase
    rcases List.mem_cons.1 hw with rfl | hw
    · have hother : ∀ v ∈ written, output.place w.2 ≠ output.place v.2 := by
        intro v hv heq
        exact (hfirst v hv).1 (by simpa [Destination.place] using heq)
      exact (get?_writeAll_of_ne hother).trans (get?_put_self hbase.1)
    · exact ih hrest hbase.2 hw

/-- The stages of a run that ends well: the folders that are found and made on the way, and the events
and the progress of emitting all files. -/
structure Completes (t : FileTree) (input output : String) (source : Path) (made : FileTree)
    (added : List Path) (ends : List Event) (last : Progress) : Prop where
  found : t.folderNamed? input = some source
  leads : made.Leads (Route.ofText output)
  adds : t.Adds added made
  onWay : ∀ q ∈ added, q ∈ (Route.ofText output).places
  emitted : emitAll (.ofText output) ⟨made, [], []⟩ (batchOf (discover t source)).generateAll =
    (ends, last)

theorem compile_eq_ok {t after : FileTree} {input output : String} {events : List Event}
    (h : compile t input output = (.ok events, after)) :
    ∃ source made added ends last, Completes t input output source made added ends last ∧
      events = .found (discover t source).length :: (discover t source).map readEvent ++ ends ∧
      after = last.tree := by
  unfold compile at h
  split at h
  · cases h
  next source hsource =>
  split at h
  · cases h
  next folder made hmade =>
  cases h
  obtain ⟨rfl, hleads, added, hadds, hadded⟩ := makeFolders_eq_ok hmade
  have hdiscover : discover made source = discover t source := by
    rw [discover, discover, hadds.filesBelow]
  rw [hdiscover]
  exact ⟨source, made, added, _, _, ⟨hsource, hleads, hadds, hadded, rfl⟩, rfl, rfl⟩

end ProtoSchema.Run
