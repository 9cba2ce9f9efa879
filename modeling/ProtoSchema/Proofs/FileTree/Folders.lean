import Mathlib.Data.List.Infix
import ProtoSchema.FileTree

/-! # Folders on the way

A route passes the places where its first steps lead. Walking it needs a folder at each of them, and
making the folder at its end puts folders at the places where nothing was and changes nothing else.
-/

namespace ProtoSchema

namespace Route

/-- The places that a route passes, from its start to its end. -/
def places (r : Route) : List Path := r.steps.inits.map fun steps => target ⟨r.start, steps⟩

theorem mem_places {r : Route} {p : Path} :
    p ∈ r.places ↔ ∃ steps, steps <+: r.steps ∧ target ⟨r.start, steps⟩ = p := by
  simp [places]

theorem target_concat (start : Path) (steps : List String) (name : String) :
    target ⟨start, steps ++ [name]⟩ = (target ⟨start, steps⟩).follow name := by
  simp [target]

end Route

namespace FileTree

variable {t t' t'' : FileTree} {p q here : Path} {e : Entry} {r : Route}

theorem get?_of_isBase (h : p.isBase = true) : t.get? p = some .folder := by
  rw [get?, if_pos h]

theorem get?_of_not_isBase (h : p.isBase = false) : t.get? p = t.entries.lookup p := by
  rw [get?, h]
  rfl

theorem lookup_filter_of_ne {entries : List (Path × Entry)} (h : q ≠ p) :
    (entries.filter (·.1 ≠ p)).lookup q = entries.lookup q := by
  induction entries with
  | nil => rfl
  | cons x entries ih =>
    obtain ⟨path, e⟩ := x
    by_cases hp : path = p
    · subst hp
      rw [List.filter_cons_of_neg (by simp), ih, List.lookup_cons, beq_false_of_ne h]
    · rw [List.filter_cons_of_pos (by simpa using hp), List.lookup_cons, List.lookup_cons, ih]

theorem get?_put_self (h : p.isBase = false) : (t.put p e).get? p = some e := by
  rw [get?_of_not_isBase h, put, List.lookup_cons_self]

theorem get?_put_of_ne (h : q ≠ p) : (t.put p e).get? q = t.get? q := by
  have hlookup : (t.put p e).entries.lookup q = t.entries.lookup q := by
    rw [put, List.lookup_cons, beq_false_of_ne h, lookup_filter_of_ne h]
  rw [get?, get?, hlookup]

theorem isFolder_iff : t.isFolder p = true ↔ t.get? p = some .folder := by
  unfold isFolder
  split
  · simp [*]
  · simp_all

theorem not_isBase_of_not_isFolder (h : t.isFolder p = false) : p.isBase = false := by
  rw [Bool.eq_false_iff]
  intro hbase
  rw [isFolder_iff.2 (get?_of_isBase hbase)] at h
  cases h

theorem isFolder_put_file {contents : ByteArray} (h : t.isFolder p = false) :
    (t.put p (.file contents)).isFolder q = t.isFolder q := by
  by_cases hq : q = p
  · subst hq
    rw [h, isFolder, get?_put_self (not_isBase_of_not_isFolder h)]
  · rw [isFolder, isFolder, get?_put_of_ne hq]

theorem step_eq_ok {name : String} (h : t.step here name = .ok p) :
    t.isFolder here = true ∧ name.utf8ByteSize ≤ Path.longestName ∧ p = here.follow name := by
  unfold step at h
  split at h
  · cases h
  · next hfolder =>
    split at h
    · cases h
    · next hsize =>
      cases h
      exact ⟨by simpa using hfolder, Nat.le_of_not_lt hsize, rfl⟩

theorem step_of_isFolder {name : String} (h : t.isFolder here = true)
    (hname : name.utf8ByteSize ≤ Path.longestName) :
    t.step here name = .ok (here.follow name) := by
  rw [step, h, if_neg (by simp), if_neg (Nat.not_lt.2 hname)]

structure Leads (t : FileTree) (r : Route) : Prop where
  isFolder : ∀ p ∈ r.places, t.isFolder p = true
  short : ∀ name ∈ r.steps, name.utf8ByteSize ≤ Path.longestName

theorem leads_nil (h : t.isFolder here = true) : t.Leads ⟨here, []⟩ := by
  refine ⟨fun p hp => ?_, by simp⟩
  obtain ⟨steps, hsteps, rfl⟩ := Route.mem_places.1 hp
  rw [List.prefix_nil.1 hsteps]
  exact h

theorem leads_cons {name : String} {steps : List String} :
    t.Leads ⟨here, name :: steps⟩ ↔ t.isFolder here = true ∧
      name.utf8ByteSize ≤ Path.longestName ∧ t.Leads ⟨here.follow name, steps⟩ := by
  constructor
  · rintro ⟨hfolder, hshort⟩
    obtain ⟨hname, hsteps⟩ := List.forall_mem_cons.1 hshort
    refine ⟨hfolder _ (Route.mem_places.2 ⟨[], List.nil_prefix, rfl⟩), hname, fun p hp => ?_, hsteps⟩
    obtain ⟨outer, houter, rfl⟩ := Route.mem_places.1 hp
    exact hfolder _ (Route.mem_places.2 ⟨name :: outer, (List.prefix_cons_inj name).2 houter, rfl⟩)
  · rintro ⟨hhere, hname, hfolder, hsteps⟩
    refine ⟨fun p hp => ?_, List.forall_mem_cons.2 ⟨hname, hsteps⟩⟩
    obtain ⟨outer, houter, rfl⟩ := Route.mem_places.1 hp
    rcases List.prefix_cons_iff.1 houter with rfl | ⟨outer, rfl, hprefix⟩
    · exact hhere
    · exact hfolder _ (Route.mem_places.2 ⟨outer, hprefix, rfl⟩)

/-- Beyond a route all of whose steps lead to folders, a walk goes on from its end. -/
theorem Leads.walk_append (h : t.Leads r) (rest : List String) :
    t.walk r.start (r.steps ++ rest) = t.walk r.target rest := by
  obtain ⟨start, steps⟩ := r
  induction steps generalizing start with
  | nil => rfl
  | cons name steps ih =>
    obtain ⟨hhere, hname, hsteps⟩ := leads_cons.1 h
    have hnext : t.isFolder (start.follow name) = true :=
      hsteps.isFolder _ (Route.mem_places.2 ⟨[], List.nil_prefix, rfl⟩)
    dsimp only at ih ⊢
    rw [List.cons_append, FileTree.walk, step_of_isFolder hhere hname]
    dsimp only
    rw [isFolder_iff.1 hnext]
    exact ih _ hsteps

theorem Leads.walk (h : t.Leads r) : t.walk r.start r.steps = .ok r.target := by
  rw [← List.append_nil r.steps, h.walk_append]
  rfl

/-- A walk ends where the route leads, and if a folder is there all steps lead to folders. -/
theorem walk_eq_ok (h : t.walk r.start r.steps = .ok p) :
    p = r.target ∧ (t.isFolder p = true → t.Leads r) := by
  obtain ⟨start, steps⟩ := r
  induction steps generalizing start with
  | nil =>
    cases h
    exact ⟨rfl, leads_nil⟩
  | cons name steps ih =>
    rw [FileTree.walk] at h
    split at h
    · cases h
    · next next hnext =>
      split at h
      · obtain ⟨hhere, hname, rfl⟩ := step_eq_ok hnext
        obtain ⟨rfl, hleads⟩ := ih _ h
        exact ⟨rfl, fun hp => leads_cons.2 ⟨hhere, hname, hleads hp⟩⟩
      · cases h

theorem folderAt?_eq_some : t.folderAt? r = some p ↔ t.Leads r ∧ p = r.target := by
  constructor
  · intro h
    unfold folderAt? at h
    split at h
    · next q hq =>
      obtain ⟨rfl, hleads⟩ := walk_eq_ok hq
      split at h
      · next hfolder =>
        cases h
        exact ⟨hleads hfolder, rfl⟩
      · cases h
    · cases h
  · rintro ⟨h, rfl⟩
    have hfolder : t.isFolder r.target = true :=
      h.isFolder _ (Route.mem_places.2 ⟨r.steps, List.prefix_rfl, rfl⟩)
    rw [folderAt?, h.walk]
    dsimp only
    rw [if_pos hfolder]

theorem leads_concat {steps : List String} {name : String} :
    t.Leads ⟨here, steps ++ [name]⟩ ↔ t.Leads ⟨here, steps⟩ ∧
      name.utf8ByteSize ≤ Path.longestName ∧ t.isFolder (Route.target ⟨here, steps ++ [name]⟩) := by
  constructor
  · rintro ⟨hfolder, hshort⟩
    obtain ⟨hsteps, hname⟩ := List.forall_mem_append.1 hshort
    refine ⟨⟨fun p hp => ?_, hsteps⟩, hname _ (List.mem_singleton_self name), ?_⟩
    · obtain ⟨outer, houter, rfl⟩ := Route.mem_places.1 hp
      exact hfolder _ (Route.mem_places.2 ⟨outer, houter.trans (List.prefix_append _ _), rfl⟩)
    · exact hfolder _ (Route.mem_places.2 ⟨_, List.prefix_rfl, rfl⟩)
  · rintro ⟨⟨hfolder, hshort⟩, hname, hend⟩
    refine ⟨fun p hp => ?_, List.forall_mem_append.2 ⟨hshort, by simpa using hname⟩⟩
    obtain ⟨outer, houter, rfl⟩ := Route.mem_places.1 hp
    rcases List.prefix_concat_iff.1 houter with rfl | houter
    · exact hend
    · exact hfolder _ (Route.mem_places.2 ⟨outer, houter, rfl⟩)

/-- The second tree is the first with folders at the given places, where nothing was. -/
structure Adds (t : FileTree) (added : List Path) (t' : FileTree) : Prop where
  entries : t'.entries = added.map (·, .folder) ++ t.entries
  fresh : ∀ p ∈ added, t.get? p = none

namespace Adds

variable {added more : List Path}

theorem refl (t : FileTree) : t.Adds [] t := ⟨rfl, by simp⟩

theorem lookup_map (added : List Path) (q : Path) :
    (added.map (·, Entry.folder)).lookup q = if q ∈ added then some .folder else none := by
  induction added with
  | nil => rfl
  | cons p added ih =>
    by_cases h : q = p
    · simp [h]
    · simp [List.lookup_cons, beq_false_of_ne h, h, ih]

theorem get? (h : t.Adds added t') (q : Path) :
    t'.get? q = if q ∈ added then some .folder else t.get? q := by
  cases hq : q.isBase with
  | true =>
    rw [get?_of_isBase hq, get?_of_isBase hq, ite_self]
  | false =>
    rw [get?_of_not_isBase hq, get?_of_not_isBase hq, h.entries, List.lookup_append, lookup_map]
    split
    · rfl
    · exact Option.none_or

theorem trans (h : t.Adds added t') (h' : t'.Adds more t'') : t.Adds (more ++ added) t'' := by
  constructor
  · rw [h'.entries, h.entries, List.map_append, List.append_assoc]
  · intro p hp
    rcases List.mem_append.1 hp with hp | hp
    · have hnone := h'.fresh p hp
      rw [h.get?] at hnone
      split at hnone
      · cases hnone
      · exact hnone
    · exact h.fresh p hp

theorem isFolder (h : t.Adds added t') (hp : t.isFolder p = true) : t'.isFolder p = true := by
  rw [isFolder_iff, h.get?, isFolder_iff.1 hp, ite_self]

theorem leads (h : t.Adds added t') (hr : t.Leads r) : t'.Leads r :=
  ⟨fun p hp => h.isFolder (hr.isFolder p hp), hr.short⟩

end Adds

theorem adds_put (h : t.get? p = none) : t.Adds [p] (t.put p .folder) := by
  have hbase : p.isBase = false := by
    rw [Bool.eq_false_iff]
    intro hbase
    rw [get?_of_isBase hbase] at h
    cases h
  rw [get?_of_not_isBase hbase] at h
  refine ⟨?_, by simpa [get?_of_not_isBase hbase] using h⟩
  have hkeep : t.entries.filter (·.1 ≠ p) = t.entries := by
    rw [List.filter_eq_self]
    intro x hx
    have hne := List.lookup_eq_none_iff.1 h x hx
    exact decide_eq_true (Ne.symm (by simpa using hne))
  rw [put, hkeep]
  rfl

theorem makeFolder_eq_ok (h : t.makeFolder r = .ok (p, t')) :
    p = r.target ∧ t'.Leads r ∧ t.Adds [p] t' := by
  obtain ⟨start, steps⟩ := r
  unfold makeFolder at h
  split at h
  · cases h
  split at h
  · cases h
  next name hname =>
  split at h
  · cases h
  next q hq =>
  split at h
  · cases h
  next hnew =>
  cases h
  obtain ⟨outer, rfl⟩ := List.getLast?_eq_some_iff.1 hname
  rw [List.dropLast_concat] at hq
  cases hwalk : t.walk start outer with
  | error fault =>
    rw [hwalk] at hq
    cases hq
  | ok here =>
    rw [hwalk] at hq
    obtain ⟨hhere, hshort, rfl⟩ := step_eq_ok hq
    obtain ⟨rfl, hleads⟩ := walk_eq_ok (r := ⟨start, outer⟩) hwalk
    have hnone : t.get? ((Route.target ⟨start, outer⟩).follow name) = none := by
      simp_all
    have hadds := adds_put hnone
    refine ⟨(Route.target_concat start outer name).symm, ?_, hadds⟩
    refine leads_concat.2 ⟨hadds.leads (hleads hhere), hshort, ?_⟩
    rw [Route.target_concat, isFolder_iff, hadds.get?, if_pos (List.mem_singleton_self _)]

theorem takeFolder_eq_ok (h : t.takeFolder r = .ok (p, t')) :
    p = r.target ∧ t'.Leads r ∧ ∃ added, t.Adds added t' ∧ ∀ q ∈ added, q = r.target := by
  unfold takeFolder at h
  split at h
  · next made hmade =>
    cases h
    obtain ⟨rfl, hleads, hadds⟩ := makeFolder_eq_ok hmade
    exact ⟨rfl, hleads, _, hadds, by simp⟩
  · split at h
    · next hfolder =>
      cases h
      obtain ⟨hleads, rfl⟩ := folderAt?_eq_some.1 hfolder
      exact ⟨rfl, hleads, [], .refl t, by simp⟩
    · cases h

theorem takeFolders_eq_ok {start : Path} {routes : List (List String)}
    (h : t.takeFolders start routes = (.ok p, t')) :
    (∃ added, t.Adds added t' ∧ ∀ q ∈ added, ∃ steps ∈ routes, q = Route.target ⟨start, steps⟩) ∧
      ∀ steps ∈ routes.head?, p = Route.target ⟨start, steps⟩ ∧ t'.Leads ⟨start, steps⟩ := by
  induction routes generalizing p t' with
  | nil =>
    cases h
    exact ⟨⟨[], .refl t, by simp⟩, by simp⟩
  | cons steps outer ih =>
    rw [takeFolders] at h
    split at h
    · next hmade =>
      cases h
      obtain ⟨rfl, hleads, added, hadds, hadded⟩ := takeFolder_eq_ok hmade
      refine ⟨⟨added, hadds, fun q hq => ⟨steps, List.mem_cons_self, hadded q hq⟩⟩, ?_⟩
      rintro _ ⟨⟩
      exact ⟨rfl, hleads⟩
    · split at h
      · cases h
      · next place after hafter =>
        split at h
        · next hmade =>
          cases h
          obtain ⟨⟨added, hadds, hadded⟩, -⟩ := ih hafter
          obtain ⟨rfl, hleads, more, hmore, hnew⟩ := takeFolder_eq_ok hmade
          constructor
          · refine ⟨more ++ added, hadds.trans hmore, fun q hq => ?_⟩
            rcases List.mem_append.1 hq with hq | hq
            · exact ⟨steps, List.mem_cons_self, hnew q hq⟩
            · obtain ⟨steps', hsteps', rfl⟩ := hadded q hq
              exact ⟨steps', List.mem_cons_of_mem steps hsteps', rfl⟩
          · rintro _ ⟨⟩
            exact ⟨rfl, hleads⟩
        · cases h
    · cases h

end FileTree

namespace Route

theorem suffix_of_mem_shortened {steps short : List String} (h : short ∈ shortened steps) :
    short <:+ steps := by
  fun_induction shortened steps with
  | case1 => simp at h
  | case2 => simp at h
  | case3 first s rest hdot ih => exact (ih h).trans (List.suffix_cons first _)
  | case4 first s rest hdot ih =>
    rcases List.mem_cons.1 h with rfl | h
    · exact List.suffix_cons first _
    · exact (ih h).trans (List.suffix_cons first _)

theorem prefix_of_mem_outward {r : Route} {steps : List String} (h : steps ∈ r.outward) :
    steps <+: r.steps := by
  rcases List.mem_cons.1 h with rfl | h
  · exact List.prefix_rfl
  · obtain ⟨short, hshort, rfl⟩ := List.mem_map.1 h
    rw [← List.reverse_suffix, List.reverse_reverse]
    exact (suffix_of_mem_shortened hshort).trans (List.dropWhile_suffix _)

theorem isBase_start (text : String) : (ofText text).start.isBase = true := by
  rw [ofText]
  split <;> simp [Path.isBase]

end Route

namespace FileTree

variable {t t' : FileTree} {p : Path}

/-- If the folder at the end of a route can be made, all its steps lead to folders, and nothing but
missing ones on the way was added. -/
theorem makeFolders_eq_ok {text : String} (h : t.makeFolders (Route.ofText text) = (.ok p, t')) :
    p = (Route.ofText text).target ∧ t'.Leads (Route.ofText text) ∧
      ∃ added, t.Adds added t' ∧ ∀ q ∈ added, q ∈ (Route.ofText text).places := by
  have hstart := Route.isBase_start text
  generalize Route.ofText text = r at h hstart
  unfold makeFolders at h
  split at h
  · next hsteps =>
    cases h
    obtain ⟨start, steps⟩ := r
    obtain rfl := List.isEmpty_iff.1 hsteps
    exact ⟨rfl, leads_nil (isFolder_iff.2 (get?_of_isBase hstart)), [], .refl t, by simp⟩
  · obtain ⟨⟨added, hadds, hadded⟩, hend⟩ := takeFolders_eq_ok h
    obtain ⟨rfl, hleads⟩ := hend r.steps rfl
    refine ⟨rfl, hleads, added, hadds, fun q hq => ?_⟩
    obtain ⟨steps, hsteps, rfl⟩ := hadded q hq
    exact Route.mem_places.2 ⟨steps, Route.prefix_of_mem_outward hsteps, rfl⟩

end FileTree

end ProtoSchema
