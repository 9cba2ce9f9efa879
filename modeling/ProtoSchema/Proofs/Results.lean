import Mathlib.Data.List.Forall2
import Mathlib.Data.List.Nodup

/-! # Lists and results

A chain of steps that may fail gives a result if every step does. A list is mapped to results just if
its elements are, one by one, so what is known of such a map is read off from that relation.
-/

namespace ProtoSchema

section Except

variable {ε α β : Type} {x : Except ε α} {f : α → Except ε β} {e : ε}

theorem pure_eq_ok {a b : α} : (pure a : Except ε α) = .ok b ↔ b = a := by
  constructor
  · rintro ⟨⟩
    rfl
  · rintro rfl
    rfl

theorem bind_eq_ok {b : β} : (x >>= f) = .ok b ↔ ∃ a, x = .ok a ∧ f a = .ok b := by
  cases x with
  | error e => simp [bind, Except.bind]
  | ok a => simp [bind, Except.bind]

theorem bind_eq_error : (x >>= f) = .error e ↔ x = .error e ∨ ∃ a, x = .ok a ∧ f a = .error e := by
  cases x with
  | error e' => simp [bind, Except.bind]
  | ok a => simp [bind, Except.bind]

theorem seq_eq_ok {x y : Except ε Unit} : (do x; y) = .ok () ↔ x = .ok () ∧ y = .ok () := by
  rw [bind_eq_ok]
  constructor
  · rintro ⟨⟨⟩, hx, hy⟩
    exact ⟨hx, hy⟩
  · rintro ⟨hx, hy⟩
    exact ⟨(), hx, hy⟩

theorem guard_eq_ok {c : Prop} [Decidable c] {a : α} :
    (if c then .error e else x) = .ok a ↔ ¬ c ∧ x = .ok a := by
  by_cases hc : c <;> simp [hc]

end Except

section Forall₂

variable {α β γ : Type} {R S : α → β → Prop} {as : List α} {bs : List β}

theorem exists_right_of_forall₂ (h : List.Forall₂ R as bs) {a : α} (ha : a ∈ as) :
    ∃ b ∈ bs, R a b := by
  induction h with
  | nil => cases ha
  | @cons c b as bs hr _ ih =>
    rcases List.mem_cons.1 ha with rfl | ha
    · exact ⟨b, List.mem_cons_self, hr⟩
    · obtain ⟨b', hb', hr'⟩ := ih ha
      exact ⟨b', List.mem_cons_of_mem _ hb', hr'⟩

theorem exists_left_of_forall₂ (h : List.Forall₂ R as bs) {b : β} (hb : b ∈ bs) :
    ∃ a ∈ as, R a b :=
  exists_right_of_forall₂ h.flip hb

theorem forall₂_congr_mem (h : ∀ a ∈ as, ∀ b, R a b ↔ S a b) :
    List.Forall₂ R as bs ↔ List.Forall₂ S as bs := by
  induction as generalizing bs with
  | nil => simp
  | cons a as ih =>
    obtain ⟨ha, has⟩ := List.forall_mem_cons.1 h
    simp only [List.forall₂_cons_left_iff, ha, ih has]

theorem forall₂_replace {a a' : α} (h : ∀ b, R a b ↔ R a' b) {before after : List α} :
    List.Forall₂ R (before ++ a :: after) bs ↔ List.Forall₂ R (before ++ a' :: after) bs := by
  induction before generalizing bs with
  | nil => simp only [List.nil_append, List.forall₂_cons_left_iff, h]
  | cons x before ih => simp only [List.cons_append, List.forall₂_cons_left_iff, ih]

theorem forall₂_eq_map {f : α → β} : List.Forall₂ (fun a b => b = f a) as bs ↔ as.map f = bs := by
  rw [← List.forall₂_eq_eq_eq, List.forall₂_map_left_iff]
  simp only [eq_comm]

theorem map_eq_map_of_forall₂ {f : α → γ} {g : β → γ} (h : List.Forall₂ (g · = f ·) bs as) :
    bs.map g = as.map f := by
  rwa [← List.forall₂_eq_eq_eq, List.forall₂_map_left_iff, List.forall₂_map_right_iff]

end Forall₂

section MapM

variable {ε α β γ : Type} {f g : α → Except ε β} {as : List α} {bs : List β}

theorem mapM_eq_ok : as.mapM f = .ok bs ↔ List.Forall₂ (fun a b => f a = .ok b) as bs := by
  induction as generalizing bs with
  | nil => simp [pure, Except.pure, eq_comm]
  | cons a as ih =>
    rw [List.mapM_cons, List.forall₂_cons_left_iff]
    simp only [bind_eq_ok, ih, pure_eq_ok]
    grind

theorem mem_mapM (h : as.mapM f = .ok bs) {b : β} : b ∈ bs ↔ ∃ a ∈ as, f a = .ok b := by
  rw [mapM_eq_ok] at h
  constructor
  · exact exists_left_of_forall₂ h
  · rintro ⟨a, ha, hb⟩
    obtain ⟨c, hc, hac⟩ := exists_right_of_forall₂ h ha
    rwa [Except.ok.inj (hb.symm.trans hac)]

theorem exists_of_mapM (h : as.mapM f = .ok bs) {a : α} (ha : a ∈ as) : ∃ b, f a = .ok b := by
  obtain ⟨b, -, hb⟩ := exists_right_of_forall₂ (mapM_eq_ok.1 h) ha
  exact ⟨b, hb⟩

theorem exists_of_mapM_error {e : ε} (h : as.mapM f = .error e) : ∃ a ∈ as, f a = .error e := by
  induction as with
  | nil => cases h
  | cons a as ih =>
    rw [List.mapM_cons] at h
    rcases bind_eq_error.1 h with ha | ⟨b, -, h⟩
    · exact ⟨a, List.mem_cons_self, ha⟩
    rcases bind_eq_error.1 h with has | ⟨bs, -, h⟩
    · obtain ⟨c, hc, he⟩ := ih has
      exact ⟨c, List.mem_cons_of_mem a hc, he⟩
    · cases h

theorem mapM_eq_ok_of_imp (hfg : ∀ a ∈ as, ∀ b, f a = .ok b → g a = .ok b)
    (h : as.mapM f = .ok bs) : as.mapM g = .ok bs := by
  rw [mapM_eq_ok] at h ⊢
  have hboth := (List.forall₂_and_left as bs).2 ⟨hfg, h⟩
  exact hboth.imp fun a b hab => hab.1 b hab.2

theorem exists_forall₂_of_mapM {g : α → Except ε γ} {R : β → γ → Prop}
    (hfg : ∀ a b, f a = .ok b → ∃ c, g a = .ok c ∧ R b c) (h : as.mapM f = .ok bs) :
    ∃ cs, as.mapM g = .ok cs ∧ List.Forall₂ R bs cs := by
  induction mapM_eq_ok.1 h with
  | nil => exact ⟨[], rfl, .nil⟩
  | @cons a b as bs hab hall ih =>
    obtain ⟨c, hc, hbc⟩ := hfg a b hab
    obtain ⟨cs, hcs, hbcs⟩ := ih (mapM_eq_ok.2 hall)
    exact ⟨c :: cs, mapM_eq_ok.2 (.cons hc (mapM_eq_ok.1 hcs)), .cons hbc hbcs⟩

theorem exists_mapM (h : ∀ a ∈ as, ∃ b, f a = .ok b) : ∃ bs, as.mapM f = .ok bs := by
  cases hbs : as.mapM f with
  | ok bs => exact ⟨bs, rfl⟩
  | error e =>
    obtain ⟨a, ha, he⟩ := exists_of_mapM_error hbs
    obtain ⟨b, hb⟩ := h a ha
    cases he.symm.trans hb

theorem mapM_congr_mem (h : ∀ a ∈ as, f a = g a) : as.mapM f = as.mapM g := by
  induction as with
  | nil => rfl
  | cons a as ih =>
    obtain ⟨ha, has⟩ := List.forall_mem_cons.1 h
    rw [List.mapM_cons, List.mapM_cons, ha, ih has]

theorem map_of_mapM {k : α → γ} {l : β → γ} (h : as.mapM f = .ok bs)
    (hf : ∀ a b, f a = .ok b → l b = k a) : bs.map l = as.map k :=
  map_eq_map_of_forall₂ ((mapM_eq_ok.1 h).imp hf).flip

end MapM

section Find

variable {α β : Type} {as : List α} {a : α}

theorem find?_eq_some_of_unique {p : α → Bool} (ha : a ∈ as) (hp : p a = true)
    (hu : ∀ b ∈ as, p b = true → b = a) : as.find? p = some a := by
  cases h : as.find? p with
  | none => exact absurd hp (List.find?_eq_none.1 h a ha)
  | some b => rw [hu b (List.mem_of_find?_eq_some h) (List.find?_some h)]

theorem find?_of_nodup_map [DecidableEq β] {f : α → β} (h : (as.map f).Nodup) (ha : a ∈ as) :
    as.find? (f · == f a) = some a := by
  refine find?_eq_some_of_unique ha (by simp) fun b hb heq => ?_
  exact List.inj_on_of_nodup_map h hb ha (by simpa using heq)

end Find

end ProtoSchema
