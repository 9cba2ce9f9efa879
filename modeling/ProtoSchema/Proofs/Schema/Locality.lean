import ProtoSchema.Proofs.Schema.Reader

/-! # What readers look at

A reader that leaves tokens over has not seen what follows them, so more tokens behind them change
nothing. A firm reader does not look past what it takes either, not even when it takes everything. A
closing reader is firm and needs a token: it ends with one that it asks for. A block is a closing
reader if its statements are steady.
-/

namespace ProtoSchema

namespace Reader

variable {α β : Type} {r : Reader α} {f : α → Reader β} {stop : Position} {t : Token}
  {ts us : List Token}

theorem bind_eq_ok {b : β} (h : (r >>= f) stop ts = .ok b us) :
    ∃ a vs, r stop ts = .ok a vs ∧ f a stop vs = .ok b us := by
  cases hr : r stop ts with
  | ok a vs => exact ⟨a, vs, rfl, (bind_ok hr).symm.trans h⟩
  | failed why atEnd =>
    rw [bind_failed hr] at h
    cases h

theorem bind_eq_failed {why : Diagnostic} {atEnd : Bool}
    (h : (r >>= f) stop ts = .failed why atEnd) :
    r stop ts = .failed why atEnd ∨
      ∃ a vs, r stop ts = .ok a vs ∧ f a stop vs = .failed why atEnd := by
  cases hr : r stop ts with
  | ok a vs => exact Or.inr ⟨a, vs, rfl, (bind_ok hr).symm.trans h⟩
  | failed why' atEnd' =>
    rw [bind_failed hr] at h
    cases h
    exact Or.inl rfl

/-- The reader fails for the given reason, whatever follows the tokens. -/
def Fails (r : Reader α) (why : Diagnostic) (ts : List Token) : Prop :=
  ∀ stop rest, r stop (ts ++ rest) = .failed why false

theorem Fails.bind {why : Diagnostic} (h : r.Fails why ts) : (r >>= f).Fails why ts :=
  fun stop rest => bind_failed (h stop rest)

theorem Takes.bind_fails {a : α} {why : Diagnostic} (hr : r.Takes a ts us)
    (hf : (f a).Fails why us) : (r >>= f).Fails why ts :=
  fun stop rest => (bind_ok (hr stop rest)).trans (hf stop rest)

/-- What the reader does with the tokens does not depend on what follows, if some are left over. -/
structure SteadyOn (r : Reader α) (ts : List Token) : Prop where
  suffix : ∀ {stop a us}, r stop ts = .ok a us → us <:+ ts
  takes : ∀ {stop a us}, r stop ts = .ok a us → us ≠ [] → r.Takes a ts us
  fails : ∀ {stop why}, r stop ts = .failed why false → ts ≠ [] ∧ r.Fails why ts

/-- What the reader does with the tokens does not depend on what follows. -/
structure FirmOn (r : Reader α) (ts : List Token) : Prop extends r.SteadyOn ts where
  uses : ∀ {stop a}, r stop ts = .ok a [] → r.Takes a ts []

def Steady (r : Reader α) : Prop := ∀ ts, r.SteadyOn ts

def Firm (r : Reader α) : Prop := ∀ ts, r.FirmOn ts

/-- A firm reader that cannot succeed without a token. -/
structure Closes (r : Reader α) : Prop where
  firm : r.Firm
  nil : ∀ {stop a us}, r stop [] ≠ .ok a us

theorem FirmOn.takes_all (h : r.FirmOn ts) {a : α} (hr : r stop ts = .ok a us) :
    r.Takes a ts us := by
  cases us with
  | nil => exact h.uses hr
  | cons u us => exact h.takes hr (List.cons_ne_nil u us)

theorem Firm.steady (h : r.Firm) : r.Steady := fun ts => (h ts).toSteadyOn

theorem Closes.steady (h : r.Closes) : r.Steady := h.firm.steady

theorem FirmOn.of_takes {a : α} (h : r.Takes a ts us) (hs : us <:+ ts) : r.FirmOn ts := by
  have hr (stop : Position) : r stop ts = .ok a us := by simpa using h stop []
  refine ⟨⟨fun h' => ?_, fun h' _ => ?_, fun h' => ?_⟩, fun h' => ?_⟩
  all_goals
    rw [hr] at h'
    cases h'
  · exact hs
  · exact h
  · exact h

theorem FirmOn.of_fails {why : Diagnostic} (h : r.Fails why ts) (hne : ts ≠ []) : r.FirmOn ts := by
  have hr (stop : Position) : r stop ts = .failed why false := by simpa using h stop []
  refine ⟨⟨fun h' => ?_, fun h' _ => ?_, fun h' => ?_⟩, fun h' => ?_⟩
  all_goals
    rw [hr] at h'
    cases h'
  exact ⟨hne, h⟩

theorem FirmOn.of_atEnd (h : ∀ stop, ∃ why, r stop ts = .failed why true) : r.FirmOn ts := by
  refine ⟨⟨fun {stop _ _} h' => ?_, fun {stop _ _} h' _ => ?_, fun {stop _} h' => ?_⟩,
    fun {stop _} h' => ?_⟩
  all_goals
    obtain ⟨why, hwhy⟩ := h stop
    rw [hwhy] at h'
    cases h'

theorem SteadyOn.of_used (h : ∀ stop, ∃ a, r stop ts = .ok a []) : r.SteadyOn ts := by
  refine ⟨fun {stop _ _} h' => ?_, fun {stop _ _} h' hne => ?_, fun {stop _} h' => ?_⟩
  all_goals
    obtain ⟨a, ha⟩ := h stop
    rw [ha] at h'
    cases h'
  · exact List.nil_suffix
  · exact absurd rfl hne

theorem SteadyOn.of_eq {q : Reader α} (hs : us <:+ ts)
    (h : ∀ stop rest, r stop (ts ++ rest) = q stop (us ++ rest)) (hq : q.SteadyOn us) :
    r.SteadyOn ts := by
  have heq (stop : Position) : r stop ts = q stop us := by simpa using h stop []
  refine ⟨fun {stop _ _} h' => ?_, fun {stop _ _} h' hne => ?_, fun {stop _} h' => ?_⟩
  all_goals rw [heq] at h'
  · exact (hq.suffix h').trans hs
  · exact fun stop rest => (h stop rest).trans (hq.takes h' hne stop rest)
  · obtain ⟨hne, hfails⟩ := hq.fails h'
    refine ⟨?_, fun stop rest => (h stop rest).trans (hfails stop rest)⟩
    rintro rfl
    exact hne (List.suffix_nil.1 hs)

theorem FirmOn.of_eq {q : Reader α} (hs : us <:+ ts)
    (h : ∀ stop rest, r stop (ts ++ rest) = q stop (us ++ rest)) (hq : q.FirmOn us) :
    r.FirmOn ts := by
  refine ⟨.of_eq hs h hq.toSteadyOn, fun {stop _} h' => ?_⟩
  have heq : r stop ts = q stop us := by simpa using h stop []
  rw [heq] at h'
  exact fun stop rest => (h stop rest).trans (hq.uses h' stop rest)

theorem SteadyOn.bind (hr : r.SteadyOn ts) (hf : ∀ a, (f a).Steady) : (r >>= f).SteadyOn ts := by
  constructor
  · intro stop b us h
    obtain ⟨a, vs, ha, hb⟩ := bind_eq_ok h
    exact ((hf a vs).suffix hb).trans (hr.suffix ha)
  · intro stop b us h hne
    obtain ⟨a, vs, ha, hb⟩ := bind_eq_ok h
    have hvs : vs ≠ [] := by
      rintro rfl
      exact hne (List.suffix_nil.1 ((hf a []).suffix hb))
    exact (hr.takes ha hvs).bind ((hf a vs).takes hb hne)
  · intro stop why h
    rcases bind_eq_failed h with hwhy | ⟨a, vs, ha, hwhy⟩
    · exact ⟨(hr.fails hwhy).1, (hr.fails hwhy).2.bind⟩
    · obtain ⟨hvs, hfails⟩ := (hf a vs).fails hwhy
      refine ⟨?_, (hr.takes ha hvs).bind_fails hfails⟩
      rintro rfl
      exact hvs (List.suffix_nil.1 (hr.suffix ha))

theorem FirmOn.bind (hr : r.FirmOn ts) (hf : ∀ a, (f a).Firm) : (r >>= f).FirmOn ts := by
  refine ⟨hr.toSteadyOn.bind fun a => (hf a).steady, fun h => ?_⟩
  obtain ⟨a, vs, ha, hb⟩ := bind_eq_ok h
  exact (hr.takes_all ha).bind ((hf a vs).takes_all hb)

theorem Steady.bind (hr : r.Steady) (hf : ∀ a, (f a).Steady) : (r >>= f).Steady :=
  fun ts => (hr ts).bind hf

theorem Firm.bind (hr : r.Firm) (hf : ∀ a, (f a).Firm) : (r >>= f).Firm :=
  fun ts => (hr ts).bind hf

theorem Closes.bind (hr : r.Closes) (hf : ∀ a, (f a).Firm) : (r >>= f).Closes := by
  refine ⟨hr.firm.bind hf, fun h => ?_⟩
  obtain ⟨a, vs, ha, -⟩ := bind_eq_ok h
  exact hr.nil ha

/-- Since the second reader needs a token, the first one leaves one over. -/
theorem Steady.seq (hr : r.Steady) (hf : ∀ a, (f a).Closes) : (r >>= f).Closes := by
  refine ⟨fun ts => ⟨hr.bind (fun a => (hf a).steady) ts, fun h => ?_⟩, fun h => ?_⟩
  · obtain ⟨a, vs, ha, hb⟩ := bind_eq_ok h
    have hvs : vs ≠ [] := by
      rintro rfl
      exact (hf a).nil hb
    exact ((hr ts).takes ha hvs).bind (((hf a).firm vs).takes_all hb)
  · obtain ⟨a, vs, ha, hb⟩ := bind_eq_ok h
    obtain rfl := List.suffix_nil.1 ((hr []).suffix ha)
    exact (hf a).nil hb

theorem Closes.seq (hr : r.Closes) (hf : ∀ a, (f a).Closes) : (r >>= f).Closes :=
  hr.steady.seq hf

/-- A look ahead is harmless if what follows does not change it, or else the end is reached. -/
theorem closes_look {look : List Token → α} (hf : ∀ a, (f a).Closes)
    (hlook : ∀ ts, (∀ rest, look (ts ++ rest) = look ts) ∨
      ∀ stop, ∃ why, f (look ts) stop ts = .failed why true) :
    ((fun _ ts => .ok (look ts) ts : Reader α) >>= f).Closes := by
  refine ⟨fun ts => ?_, (hf (look [])).nil⟩
  rcases hlook ts with h | h
  · refine .of_eq (q := f (look ts)) (List.suffix_refl ts) (fun stop rest => ?_) ((hf _).firm ts)
    exact congrArg (f · stop (ts ++ rest)) (h rest)
  · exact .of_atEnd h

theorem Firm.pure (a : α) : (Pure.pure a : Reader α).Firm :=
  fun ts => .of_takes (.pure a ts) (List.suffix_refl ts)

theorem closes_of_fails (hnil : ∀ stop, ∃ why, r stop [] = .failed why true)
    (hcons : ∀ t ts, ∃ why, r.Fails why (t :: ts)) : r.Closes := by
  constructor
  · intro ts
    cases ts with
    | nil => exact .of_atEnd hnil
    | cons t ts =>
      obtain ⟨why, h⟩ := hcons t ts
      exact .of_fails h (List.cons_ne_nil t ts)
  · intro stop a us h
    obtain ⟨why, hwhy⟩ := hnil stop
    rw [hwhy] at h
    cases h

theorem closes_failAt (p : Position) (c : Complaint) : (failAt p c : Reader α).Closes :=
  closes_of_fails (fun _ => ⟨_, rfl⟩) fun _ _ => ⟨_, fun _ _ => rfl⟩

theorem closes_fail (c : Complaint) : (fail c : Reader α).Closes :=
  closes_of_fails (fun _ => ⟨_, rfl⟩) fun _ _ => ⟨_, fun _ _ => rfl⟩

theorem closes_want (w : Wanted) : (want w : Reader α).Closes :=
  closes_of_fails (fun _ => ⟨_, rfl⟩) fun _ _ => ⟨_, fun _ _ => rfl⟩

theorem token_eq_ok {test : String → Bool} {w : Wanted} (h : token test w stop ts = .ok t us) :
    ts = t :: us := by
  cases ts with
  | nil => cases h
  | cons u ts =>
    rw [token] at h
    split at h
    · cases h
      rfl
    · cases h

theorem closes_token (test : String → Bool) (w : Wanted) : (token test w).Closes := by
  refine ⟨fun ts => ?_, fun h => by cases h⟩
  cases ts with
  | nil => exact .of_atEnd fun _ => ⟨_, rfl⟩
  | cons t ts =>
    cases h : test t.text with
    | true => exact .of_takes (takes_token w h) (List.suffix_cons t ts)
    | false =>
      refine .of_eq (List.suffix_refl _) (fun stop rest => ?_) ((closes_want w).firm (t :: ts))
      simp [token, h]

theorem closes_word (text : String) : (word text).Closes := closes_token _ _

theorem steady_optionalWord (text : String) : (optionalWord text).Steady := by
  intro ts
  cases ts with
  | nil => exact .of_used fun _ => ⟨false, rfl⟩
  | cons t ts =>
    by_cases h : t.text = text
    · exact (FirmOn.of_takes (takes_optionalWord h) (List.suffix_cons t ts)).toSteadyOn
    · exact (FirmOn.of_takes (takes_optionalWord_of_ne h) (List.suffix_refl _)).toSteadyOn

theorem steady_isNext (text : String) : (isNext text).Steady := by
  intro ts
  cases ts with
  | nil => exact .of_used fun _ => ⟨false, rfl⟩
  | cons t ts => exact (FirmOn.of_takes (takes_isNext text) (List.suffix_refl _)).toSteadyOn

theorem closes_closeBlock (depth : Nat) : (closeBlock depth).Closes := by
  refine ⟨fun ts => ?_, fun h => by cases h⟩
  induction ts generalizing depth with
  | nil => exact .of_atEnd fun _ => ⟨_, rfl⟩
  | cons t ts ih =>
    have hstep (depth' : Nat) (h : ∀ stop rest, closeBlock depth stop (t :: ts ++ rest) =
        closeBlock depth' stop (ts ++ rest)) : (closeBlock depth).FirmOn (t :: ts) :=
      .of_eq (List.suffix_cons t ts) h (ih depth')
    by_cases hopen : t.text = "\x7b"
    · exact hstep (depth + 1) fun _ _ => by simp [closeBlock, hopen]
    · by_cases hclose : t.text = "\x7d"
      · by_cases hdepth : depth ≤ 1
        · refine .of_takes (a := ()) (fun _ _ => ?_) (List.suffix_cons t ts)
          simp [closeBlock, hclose, hdepth]
        · exact hstep (depth - 1) fun _ _ => by simp [closeBlock, hclose, hdepth]
      · exact hstep depth fun _ _ => by simp [closeBlock, hopen, hclose]

theorem closes_skipBlock : skipBlock.Closes :=
  (closes_word _).bind fun _ => (closes_closeBlock 1).firm

theorem steady_skipStatement : skipStatement.Steady := by
  intro ts
  induction ts with
  | nil => exact .of_used fun _ => ⟨(), rfl⟩
  | cons t ts ih =>
    by_cases hopen : t.text = "\x7b"
    · refine .of_eq (List.suffix_cons t ts) (fun stop rest => ?_) ((closes_closeBlock 1).steady ts)
      simp [skipStatement, hopen]
    · by_cases hclose : t.text = "\x7d"
      · refine (FirmOn.of_takes (a := ()) (fun _ _ => ?_) (List.suffix_refl _)).toSteadyOn
        simp [skipStatement, hclose]
      · by_cases hend : t.text = ";"
        · refine (FirmOn.of_takes (a := ()) (fun _ _ => ?_) (List.suffix_cons t ts)).toSteadyOn
          simp [skipStatement, hend]
        · refine .of_eq (List.suffix_cons t ts) (fun _ _ => ?_) ih
          simp [skipStatement, hopen, hclose, hend]

theorem closes_stringLiteral (description : String) : (stringLiteral description).Closes :=
  (closes_token _ _).bind fun _ => .pure _

theorem closes_integer (description : String) : (integer description).Closes := by
  refine (closes_token _ _).bind fun t => ?_
  split
  · exact .pure _
  · exact (closes_failAt t.position _).firm

theorem closes_optionsFrom (deprecated : Bool) (depth : Nat) :
    (optionsFrom deprecated depth).Closes := by
  refine ⟨fun ts => ?_, fun h => by simp [optionsFrom, want] at h⟩
  induction hn : ts.length using Nat.strongRecOn generalizing deprecated depth ts with
  | ind n ih =>
    subst hn
    have hstep {us : List Token} (hlt : us.length < ts.length) (hs : us <:+ ts) (b : Bool)
        (depth' : Nat) (h : ∀ stop rest, optionsFrom deprecated depth stop (ts ++ rest) =
          optionsFrom b depth' stop (us ++ rest)) : (optionsFrom deprecated depth).FirmOn ts :=
      .of_eq hs h (ih us.length hlt b depth' us rfl)
    have hcut (w : Wanted) (h : ∀ stop, optionsFrom deprecated depth stop ts = want w stop []) :
        (optionsFrom deprecated depth).FirmOn ts := .of_atEnd fun stop => ⟨_, h stop⟩
    cases ts with
    | nil => exact hcut _ fun stop => by rw [optionsFrom]
    | cons t ts =>
      by_cases hd : depth = 0
      · subst hd
        by_cases ht : t.text = "deprecated"
        · cases ts with
          | nil => exact hcut (.word "]") fun stop => by simp [optionsFrom, ht]
          | cons e ts =>
            by_cases he : e.text = "="
            · cases ts with
              | nil => exact hcut (.word "]") fun stop => by simp [optionsFrom, ht, he]
              | cons v ts =>
                exact hstep (by simp; omega) ⟨[t, e, v], rfl⟩ _ 0 fun _ _ => optionsFrom_value ht he
            · exact hstep (by simp) (List.suffix_cons _ _) true 0 fun _ _ =>
                optionsFrom_noValue ht he
        by_cases hend : t.text = "]"
        · exact .of_takes (fun _ _ => optionsFrom_end hend) (List.suffix_cons t ts)
        by_cases hopen : t.text = "\x7b"
        · exact hstep (by simp) (List.suffix_cons t ts) _ 1 fun _ _ => optionsFrom_block hopen
        by_cases hbroken : t.text = ";" ∨ t.text = "\x7d"
        · exact .of_eq (List.suffix_refl _) (fun _ _ => optionsFrom_broken hbroken)
            ((closes_want _).firm (t :: ts))
        · refine hstep (by simp) (List.suffix_cons t ts) _ 0 fun _ _ => optionsFrom_other ?_
          simp [ht, hend, hopen, not_or.1 hbroken]
      · exact hstep (by simp) (List.suffix_cons t ts) _ _ fun _ _ => optionsFrom_nested hd

theorem steady_options : options.Steady := by
  refine (steady_optionalWord _).bind fun found => ?_
  cases found with
  | false => exact (Firm.pure _).steady
  | true => exact (closes_optionsFrom false 0).steady

end Reader

open Reader

section Statements

variable {ι α : Type} {statement : Reader (Noted (Option ι))} {inBlock : Bool} {stop : Position}
  {t : Token} {ts : List Token}

/-- One statement with what it notes; a statement that fails is skipped and noted. -/
def recover (statement : Reader (Noted (Option ι))) : Reader (Noted (List ι)) := fun stop ts =>
  match statement stop ts with
  | .ok item after => .ok ⟨item.value.toList, item.notes⟩ after
  | .failed why true => .failed why true
  | .failed why false =>
    match skipStatement stop ts with
    | .ok () after => .ok ⟨[], [why]⟩ after
    | .failed why' atEnd => .failed why' atEnd

theorem statements_eq_recover (hc : inBlock = false ∨ t.text ≠ "\x7d") :
    statements inBlock statement stop (t :: ts) =
      match recover statement stop (t :: ts) with
      | .ok item after =>
        (statements inBlock statement stop (afterFirst ts after)).prepend item.value item.notes
      | .failed why atEnd => .failed why atEnd := by
  rw [statements_open hc, recover]
  rcases statement stop (t :: ts) with ⟨item, after⟩ | ⟨why, _ | _⟩
  · rfl
  · rcases skipStatement stop (t :: ts) with ⟨_, after⟩ | ⟨why', atEnd⟩ <;> rfl
  · rfl

theorem statements_eq_ok {items : Noted (List ι)} {final : List Token}
    (hc : inBlock = false ∨ t.text ≠ "\x7d")
    (h : statements inBlock statement stop (t :: ts) = .ok items final) :
    ∃ x us more, recover statement stop (t :: ts) = .ok x us ∧
      statements inBlock statement stop (afterFirst ts us) = .ok more final ∧
      items = ⟨x.value ++ more.value, x.notes ++ more.notes⟩ := by
  rw [statements_eq_recover hc] at h
  cases hx : recover statement stop (t :: ts) with
  | failed why atEnd =>
    rw [hx] at h
    cases h
  | ok x us =>
    rw [hx] at h
    dsimp only at h
    cases hmore : statements inBlock statement stop (afterFirst ts us) with
    | failed why atEnd =>
      rw [hmore] at h
      cases h
    | ok more rest =>
      rw [hmore] at h
      cases h
      exact ⟨x, us, more, rfl, hmore, rfl⟩

theorem recover_eq_ok {x : Noted (List ι)} {us : List Token}
    (h : recover statement stop ts = .ok x us) :
    (∃ item, statement stop ts = .ok item us ∧ x = ⟨item.value.toList, item.notes⟩) ∨
      ∃ why, statement stop ts = .failed why false ∧ skipStatement stop ts = .ok () us ∧
        x = ⟨[], [why]⟩ := by
  unfold recover at h
  split at h
  · next item after hitem =>
    cases h
    exact Or.inl ⟨item, hitem, rfl⟩
  · cases h
  · next why hwhy =>
    split at h
    · next after hskip =>
      cases h
      exact Or.inr ⟨why, hwhy, hskip, rfl⟩
    · cases h

theorem recover_eq_failed {why : Diagnostic} (h : recover statement stop ts = .failed why false) :
    skipStatement stop ts = .failed why false ∧ ∃ why', statement stop ts = .failed why' false := by
  unfold recover at h
  split at h
  · cases h
  · cases h
  · next why' hwhy =>
    split at h
    · cases h
    · next hskip =>
      cases h
      exact ⟨hskip, why', hwhy⟩

theorem takes_recover {item : Noted (Option ι)} {us : List Token}
    (h : statement.Takes item ts us) :
    (recover statement).Takes ⟨item.value.toList, item.notes⟩ ts us := by
  intro stop rest
  rw [recover, h stop rest]

theorem takes_recover_skip {why : Diagnostic} {us : List Token} (h : statement.Fails why ts)
    (hk : skipStatement.Takes () ts us) : (recover statement).Takes ⟨[], [why]⟩ ts us := by
  intro stop rest
  rw [recover, h stop rest, hk stop rest]

theorem Reader.SteadyOn.recover (hs : statement.SteadyOn ts) : (recover statement).SteadyOn ts := by
  have hk := steady_skipStatement ts
  constructor
  · intro stop x us h
    obtain ⟨item, hitem, -⟩ | ⟨why, -, hskip, -⟩ := recover_eq_ok h
    · exact hs.suffix hitem
    · exact hk.suffix hskip
  · intro stop x us h hne
    obtain ⟨item, hitem, rfl⟩ | ⟨why, hwhy, hskip, rfl⟩ := recover_eq_ok h
    · exact takes_recover (hs.takes hitem hne)
    · exact takes_recover_skip (hs.fails hwhy).2 (hk.takes hskip hne)
  · intro stop why h
    obtain ⟨hskip, why', hwhy⟩ := recover_eq_failed h
    refine ⟨(hs.fails hwhy).1, fun stop rest => ?_⟩
    rw [ProtoSchema.recover, (hs.fails hwhy).2 stop rest, (hk.fails hskip).2 stop rest]

theorem Reader.FirmOn.recover (hs : statement.FirmOn ts) (hk : skipStatement.FirmOn ts) :
    (recover statement).FirmOn ts := by
  refine ⟨hs.toSteadyOn.recover, fun h => ?_⟩
  obtain ⟨item, hitem, rfl⟩ | ⟨why, hwhy, hskip, rfl⟩ := recover_eq_ok h
  · exact takes_recover (hs.uses hitem)
  · exact takes_recover_skip (hs.fails hwhy).2 (hk.uses hskip)

theorem afterFirst_append (ts us rest : List Token) :
    afterFirst (ts ++ rest) (us ++ rest) = afterFirst ts us ++ rest := by
  by_cases h : us.length ≤ ts.length <;> simp [afterFirst, h]

theorem afterFirst_suffix {us : List Token} (h : us <:+ t :: ts) :
    afterFirst ts us <:+ t :: ts := by
  unfold afterFirst
  split
  · exact h
  · exact List.suffix_cons t ts

theorem statements_takes {x : Noted (List ι)} {us : List Token}
    (hc : inBlock = false ∨ t.text ≠ "\x7d") (h : (recover statement).Takes x (t :: ts) us)
    (stop : Position) (rest : List Token) :
    statements inBlock statement stop (t :: ts ++ rest) =
      (statements inBlock statement stop (afterFirst ts us ++ rest)).prepend x.value x.notes := by
  have hx : recover statement stop (t :: (ts ++ rest)) = .ok x (us ++ rest) := h stop rest
  rw [List.cons_append, statements_eq_recover hc, hx]
  dsimp only
  rw [afterFirst_append]

theorem bind_prepend (r : Reader (Noted (List ι))) (xs : List ι) (notes : List Diagnostic) :
    (r >>= fun more => pure ⟨xs ++ more.value, notes ++ more.notes⟩) stop ts =
      (r stop ts).prepend xs notes := by
  cases h : r stop ts with
  | ok more rest => exact bind_ok h
  | failed why atEnd => exact bind_failed h

/-- One statement of a block: it is taken and tokens are left, or it fails for good, or the end is
reached. -/
theorem firmOn_statements_cons (hc : t.text ≠ "\x7d")
    (hr : (recover statement).SteadyOn (t :: ts))
    (hrest : ∀ us, us.length ≤ ts.length → Reader.FirmOn (statements true statement) us) :
    Reader.FirmOn (statements true statement) (t :: ts) := by
  by_cases hnext : ∃ stop x us, recover statement stop (t :: ts) = .ok x us ∧ afterFirst ts us ≠ []
  · obtain ⟨stop, x, us, hx, hne⟩ := hnext
    have hus : us ≠ [] := by
      rintro rfl
      simp [afterFirst] at hne
    refine .of_eq (afterFirst_suffix (hr.suffix hx)) (fun stop rest => ?_)
      ((hrest _ (length_afterFirst ts us)).bind fun more =>
        .pure ⟨x.value ++ more.value, x.notes ++ more.notes⟩)
    rw [statements_takes (Or.inr hc) (hr.takes hx hus)]
    exact (bind_prepend (statements true statement) x.value x.notes).symm
  by_cases hfails : ∃ stop why, recover statement stop (t :: ts) = .failed why false
  · obtain ⟨stop, why, hwhy⟩ := hfails
    have hmore : Reader.Fails (statements true statement) why (t :: ts) := by
      intro stop rest
      have hrecover : recover statement stop (t :: (ts ++ rest)) = .failed why false :=
        (hr.fails hwhy).2 stop rest
      rw [List.cons_append, statements_eq_recover (Or.inr hc), hrecover]
    exact .of_fails hmore (List.cons_ne_nil t ts)
  · refine .of_atEnd fun stop => ?_
    rw [statements_eq_recover (Or.inr hc)]
    cases hx : recover statement stop (t :: ts) with
    | ok x us =>
      have hnil : afterFirst ts us = [] :=
        Classical.byContradiction fun hne => hnext ⟨stop, x, us, hx, hne⟩
      dsimp only
      rw [hnil, statements_nil_block]
      exact ⟨_, rfl⟩
    | failed why atEnd =>
      cases atEnd with
      | true => exact ⟨why, rfl⟩
      | false => exact absurd ⟨stop, why, hx⟩ hfails

theorem closes_statements (hs : statement.Steady) : Reader.Closes (statements true statement) := by
  constructor
  · intro ts
    induction hn : ts.length using Nat.strongRecOn generalizing ts with
    | ind n ih =>
      subst hn
      cases ts with
      | nil => exact .of_atEnd fun stop => ⟨_, statements_nil_block⟩
      | cons t ts =>
        by_cases hc : t.text = "\x7d"
        · exact .of_takes (fun _ _ => statements_close hc) (List.suffix_cons t ts)
        · refine firmOn_statements_cons hc (hs (t :: ts)).recover fun us hle => ?_
          exact ih us.length (Nat.lt_succ_of_le hle) us rfl
  · intro stop a us h
    rw [statements_nil_block] at h
    cases h

theorem steady_nothing {r : Reader Unit} (hr : r.Steady) :
    (nothing r : Reader (Noted (Option ι))).Steady :=
  hr.bind fun _ => (Firm.pure _).steady

theorem closes_semicolon : semicolon.Closes := (closes_word _).bind fun _ => .pure _

theorem closes_nothing_semicolon : (nothing semicolon : Reader (Noted (Option ι))).Closes :=
  closes_semicolon.bind fun _ => .pure _

theorem closes_declares {r : Reader ι} (hr : r.Closes) : (declares r).Closes :=
  hr.bind fun _ => .pure _

theorem firmOn_byWord {choose : String → Reader α} (h : (choose t.text).FirmOn (t :: ts)) :
    (byWord choose).FirmOn (t :: ts) :=
  .of_eq (q := choose t.text) (List.suffix_refl _) (fun _ _ => rfl) h

theorem steady_byWord {choose : String → Reader α} (h : ∀ w, (choose w).Steady) :
    (byWord choose).Steady := by
  intro ts
  cases ts with
  | nil =>
    refine ⟨(h "" []).suffix, fun h' hne => ?_, fun h' => ?_⟩
    · exact absurd (List.suffix_nil.1 ((h "" []).suffix h')) hne
    · exact absurd rfl ((h "" []).fails h').1
  | cons t ts => exact .of_eq (q := choose t.text) (List.suffix_refl _) (fun _ _ => rfl) (h _ _)

theorem closes_block (keyword description : String) (hs : statement.Steady) :
    (block keyword description statement).Closes :=
  (closes_word _).seq fun _ => (closes_token _ _).seq fun _ => (closes_word _).seq fun _ =>
    (closes_statements hs).bind fun _ => .pure _

end Statements

namespace Reader

variable {α β : Type} {P : α → Prop} {Q : β → Prop}

def Yields (r : Reader α) (P : α → Prop) : Prop :=
  ∀ stop ts a us, r stop ts = .ok a us → P a

theorem yields_any (r : Reader α) : r.Yields fun _ => True := fun _ _ _ _ _ => trivial

theorem Yields.pure {a : α} (h : P a) : (Pure.pure a : Reader α).Yields P := by
  intro stop ts b us hb
  cases hb
  exact h

theorem Yields.bind {r : Reader α} {f : α → Reader β} (hr : r.Yields P)
    (hf : ∀ a, P a → (f a).Yields Q) : (r >>= f).Yields Q := by
  intro stop ts b us h
  obtain ⟨a, vs, ha, hb⟩ := bind_eq_ok h
  exact hf a (hr _ _ _ _ ha) _ _ _ _ hb

theorem yields_token (test : String → Bool) (w : Wanted) :
    (token test w).Yields fun t => test t.text = true := by
  intro stop ts t us h
  obtain rfl := token_eq_ok h
  rw [token] at h
  split at h
  · assumption
  · cases h

theorem yields_fail (c : Complaint) : (fail c : Reader α).Yields P := by
  intro stop ts a us h
  cases ts <;> cases h

theorem yields_byWord {choose : String → Reader α} (h : ∀ w, (choose w).Yields P) :
    (byWord choose).Yields P :=
  fun stop ts => h _ stop ts

end Reader

section Statements

variable {ι : Type} {P : ι → Prop}

theorem yields_nothing (r : Reader Unit) :
    (nothing r).Yields fun item : Noted (Option ι) => ∀ x ∈ item.value, P x :=
  (yields_any r).bind fun _ _ => .pure (by simp)

theorem yields_declares {r : Reader ι} (hr : r.Yields P) :
    (declares r).Yields fun item => ∀ x ∈ item.value, P x :=
  hr.bind fun _ hx => .pure (by simpa using hx)

theorem yields_statements {statement : Reader (Noted (Option ι))}
    (hs : statement.Yields fun item => ∀ x ∈ item.value, P x) (inBlock : Bool) :
    Reader.Yields (statements inBlock statement) fun items => ∀ x ∈ items.value, P x := by
  intro stop ts items final h
  induction hn : ts.length using Nat.strongRecOn generalizing ts items with
  | ind n ih =>
    subst hn
    cases ts with
    | nil =>
      cases inBlock with
      | false =>
        rw [statements_nil_file] at h
        cases h
        simp
      | true =>
        rw [statements_nil_block] at h
        cases h
    | cons t ts =>
      by_cases hc : inBlock = false ∨ t.text ≠ "\x7d"
      · obtain ⟨x, us, more, hx, hmore, rfl⟩ := statements_eq_ok hc h
        have hrest := ih _ (Nat.lt_succ_of_le (length_afterFirst ts us)) _ _ hmore rfl
        intro y hy
        rcases List.mem_append.1 hy with hy | hy
        · obtain ⟨item, hitem, rfl⟩ | ⟨why, -, -, rfl⟩ := recover_eq_ok hx
          · exact hs _ _ _ _ hitem y (Option.mem_toList.1 hy)
          · cases hy
        · exact hrest y hy
      · obtain ⟨hblock, hclose⟩ := not_or.1 hc
        obtain rfl : inBlock = true := by simpa using hblock
        rw [statements_close (Classical.not_not.1 hclose)] at h
        cases h
        simp

end Statements

end ProtoSchema
