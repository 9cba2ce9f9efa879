import ProtoSchema.Proofs.Token.Layout

/-! # The pieces of a schema text

The grammar of blanks, comments and words, apart from how a text is cut. Several pieces can begin at
one place; the one that is cut off is the longest of them, and if none is cut off, none begins there.
-/

namespace ProtoSchema.Piece

open Text

variable {cs rest w a b : List Char}

/-- A rule cuts off the longest beginning of a text that lies in the class, if there is one. -/
structure TakesLongest (rule : List Char → Option (List Char × List Char))
    (C : List Char → Prop) : Prop where
  sound : ∀ {cs a b}, rule cs = some (a, b) → C a
  longest : ∀ {w}, C w → ∀ rest, ∃ a b, rule (w ++ rest) = some (a, b) ∧ w.length ≤ a.length

/-- The first of two rules goes before the second, so it must not take less. -/
theorem TakesLongest.or {rule rule' : List Char → Option (List Char × List Char)}
    {C D : List Char → Prop} (h : TakesLongest rule C) (h' : TakesLongest rule' D)
    (hlen : ∀ {w rest a b}, D w → rule (w ++ rest) = some (a, b) → w.length ≤ a.length) :
    TakesLongest (fun cs => (rule cs).or (rule' cs)) fun w => C w ∨ D w := by
  constructor
  · intro cs a b hor
    rcases Option.or_eq_some_iff.1 hor with hrule | ⟨-, hrule⟩
    · exact Or.inl (h.sound hrule)
    · exact Or.inr (h'.sound hrule)
  · rintro w (hw | hw) rest
    · obtain ⟨a, b, hrule, hle⟩ := h.longest hw rest
      exact ⟨a, b, by simp [hrule], hle⟩
    · cases hrule : rule (w ++ rest) with
      | none =>
        obtain ⟨a, b, hrule', hle⟩ := h'.longest hw rest
        exact ⟨a, b, by simp [hrule'], hle⟩
      | some r => exact ⟨r.1, r.2, by simp, hlen hw hrule⟩

theorem length_le_takeWhile {p : Char → Bool} (h : ∀ c ∈ w, p c = true) (rest : List Char) :
    w.length ≤ ((w ++ rest).takeWhile p).length := by
  rw [List.takeWhile_append_of_pos h, List.length_append]
  omega

def IsBlanks (cs : List Char) : Prop := cs ≠ [] ∧ ∀ c ∈ cs, isBlank c = true

/-- A comment, up to its first end mark or inside one line. -/
inductive IsComment : List Char → Prop
  | block {body : List Char} (h : ¬ ['*', '/'] <:+: body) :
      IsComment ('/' :: '*' :: (body ++ ['*', '/']))
  | line {body : List Char} (h : '\n' ∉ body) : IsComment ('/' :: '/' :: body)

theorem isBlanks_of_blank? (h : blank? cs = some (a, b)) : IsBlanks a := by
  refine ⟨(blank?_append h).2, ?_⟩
  unfold blank? at h
  split at h
  · cases h
  · cases h
    exact fun c hc => List.mem_takeWhile_imp hc

theorem closeComment_eq_some (h : closeComment cs = some (a, b)) :
    ∃ body, a = body ++ ['*', '/'] ∧ ¬ ['*', '/'] <:+: body := by
  fun_induction closeComment cs generalizing a b with
  | case1 => cases h
  | case2 cs =>
    cases h
    exact ⟨[], rfl, by simp⟩
  | case3 c cs hopen ih =>
    obtain ⟨⟨a', b'⟩, hclose, heq⟩ := Option.map_eq_some_iff.1 h
    cases heq
    obtain ⟨body, rfl, hbody⟩ := ih hclose
    refine ⟨c :: body, rfl, fun hinfix => ?_⟩
    rcases List.infix_cons_iff.1 hinfix with hstart | hinfix
    · obtain ⟨rfl, hslash⟩ := List.cons_prefix_cons.1 hstart
      obtain ⟨tail, rfl⟩ := hslash
      exact hopen _ rfl (closeComment_append hclose).symm
    · exact hbody hinfix

theorem takesLongest_comment : TakesLongest comment? IsComment := by
  constructor
  · intro cs a b h
    unfold comment? at h
    split at h
    · obtain ⟨⟨a', b'⟩, hclose, heq⟩ := Option.map_eq_some_iff.1 h
      cases heq
      obtain ⟨body, rfl, hbody⟩ := closeComment_eq_some hclose
      exact .block hbody
    · cases h
      refine .line fun hmem => ?_
      simpa using List.mem_takeWhile_imp hmem
    · cases h
  · rintro w (@⟨body, h⟩ | @⟨body, h⟩) rest
    · refine ⟨_, rest, ?_, le_rfl⟩
      simp [comment?, closeComment_append_end h]
    · refine ⟨_, _, rfl, ?_⟩
      have hbody : ∀ c ∈ body, decide (c ≠ '\n') = true := by
        rintro c hc
        rw [decide_eq_true_eq]
        rintro rfl
        exact h hc
      simpa using length_le_takeWhile hbody rest

inductive IsString : List Char → Prop
  | mk {q : Char} {body : List Char} (hq : q = '"' ∨ q = '\'') (h : Between q body) :
      IsString (q :: (body ++ [q]))

theorem closeString_eq_some {q : Char} (h : closeString q cs = some (a, b)) :
    ∃ body, a = body ++ [q] ∧ Between q body := by
  fun_induction closeString q cs generalizing a b with
  | case1 => cases h
  | case2 => cases h
  | case3 c cs hn ih =>
    obtain ⟨⟨a', b'⟩, hclose, heq⟩ := Option.map_eq_some_iff.1 h
    cases heq
    obtain ⟨body, rfl, hbody⟩ := ih hclose
    exact ⟨'\\' :: c :: body, rfl, .escape hn hbody⟩
  | case4 =>
    cases h
    exact ⟨[], rfl, .nil⟩
  | case5 => cases h
  | case6 c cs _ hq hother ih =>
    obtain ⟨⟨a', b'⟩, hclose, heq⟩ := Option.map_eq_some_iff.1 h
    cases heq
    obtain ⟨body, rfl, hbody⟩ := ih hclose
    simp only [Bool.or_eq_true, decide_eq_true_eq, not_or] at hother
    exact ⟨c :: body, rfl, .plain hq hother.2 hother.1 hbody⟩

theorem string?_of_isString (h : IsString w) (rest : List Char) :
    string? (w ++ rest) = some (w, rest) := by
  obtain @⟨q, body, hq, h⟩ := h
  rw [List.cons_append, List.append_assoc, List.singleton_append, string?,
    if_pos (by simpa using hq), closeString_between hq h]
  rfl

theorem takesLongest_string : TakesLongest string? IsString := by
  constructor
  · intro cs a b h
    unfold string? at h
    split at h
    · cases h
    · next q cs =>
      split at h
      · next hq =>
        obtain ⟨⟨a', b'⟩, hclose, heq⟩ := Option.map_eq_some_iff.1 h
        cases heq
        obtain ⟨body, rfl, hbody⟩ := closeString_eq_some hclose
        exact .mk (by simpa using hq) hbody
      · cases h
  · exact fun {w} hw rest => ⟨w, rest, string?_of_isString hw rest, le_rfl⟩

def IsDigits (cs : List Char) : Prop := cs ≠ [] ∧ ∀ c ∈ cs, isDigit c = true

inductive IsFraction : List Char → Prop
  | mk {ds : List Char} (h : ∀ d ∈ ds, isDigit d = true) : IsFraction ('.' :: ds)

/-- The part of a number from its exponent mark on. -/
inductive IsExponent : List Char → Prop
  | plain {e : Char} {ds : List Char} (he : e = 'e' ∨ e = 'E') (hds : IsDigits ds) :
      IsExponent (e :: ds)
  | signed {e s : Char} {ds : List Char} (he : e = 'e' ∨ e = 'E') (hs : s = '+' ∨ s = '-')
      (hds : IsDigits ds) : IsExponent (e :: s :: ds)

inductive IsDecimal : List Char → Prop
  | mk {ds f e : List Char} (hds : IsDigits ds) (hf : f = [] ∨ IsFraction f)
      (he : e = [] ∨ IsExponent e) : IsDecimal (ds ++ (f ++ e))

inductive IsMagnitude : List Char → Prop
  | hexadecimal {x : Char} {ds : List Char} (hx : x = 'x' ∨ x = 'X') (hne : ds ≠ [])
      (hds : ∀ d ∈ ds, isHexDigit d = true) : IsMagnitude ('0' :: x :: ds)
  | decimal {cs : List Char} (h : IsDecimal cs) : IsMagnitude cs

inductive IsNumber : List Char → Prop
  | plain {cs : List Char} (h : IsMagnitude cs) : IsNumber cs
  | minus {cs : List Char} (h : IsMagnitude cs) : IsNumber ('-' :: cs)

theorem takeWhile_isDigit_ne_nil (h : IsDigits w) (rest : List Char) :
    (w ++ rest).takeWhile isDigit ≠ [] := by
  rw [List.takeWhile_append_of_pos h.2]
  exact List.append_ne_nil_of_left_ne_nil h.1 _

theorem fraction_eq (cs : List Char) : (fraction cs).1 = [] ∨ IsFraction (fraction cs).1 := by
  unfold fraction
  split
  · exact Or.inr (.mk fun c hc => List.mem_takeWhile_imp hc)
  · exact Or.inl rfl

theorem exponentDigits_eq (mark all cs : List Char) : (exponentDigits mark all cs).1 = [] ∨
    ∃ ds, IsDigits ds ∧ (exponentDigits mark all cs).1 = mark ++ ds := by
  unfold exponentDigits
  split
  · exact Or.inl rfl
  · next hne => exact Or.inr ⟨_, ⟨hne, fun c hc => List.mem_takeWhile_imp hc⟩, rfl⟩

theorem exponent_eq (cs : List Char) : (exponent cs).1 = [] ∨ IsExponent (exponent cs).1 := by
  unfold exponent
  split
  · next e s r =>
    split
    · next he =>
      have he : e = 'e' ∨ e = 'E' := by simpa using he
      split
      · next hs =>
        rcases exponentDigits_eq [e, s] (e :: s :: r) r with hnil | ⟨ds, hds, heq⟩
        · exact Or.inl hnil
        · rw [heq]
          exact Or.inr (.signed he (by simpa using hs) hds)
      · rcases exponentDigits_eq [e] (e :: s :: r) (s :: r) with hnil | ⟨ds, hds, heq⟩
        · exact Or.inl hnil
        · rw [heq]
          exact Or.inr (.plain he hds)
    · exact Or.inl rfl
  · exact Or.inl rfl

theorem length_le_exponentDigits (mark all : List Char) (h : IsDigits w) (rest : List Char) :
    mark.length + w.length ≤ (exponentDigits mark all (w ++ rest)).1.length := by
  have hle := length_le_takeWhile h.2 rest
  unfold exponentDigits
  split
  · next hnil => exact absurd hnil (takeWhile_isDigit_ne_nil h rest)
  · rw [List.length_append]
    omega

theorem length_le_exponent (h : IsExponent w) (rest : List Char) :
    w.length ≤ (exponent (w ++ rest)).1.length := by
  cases h with
  | @plain e ds he hds =>
    obtain ⟨d, ds, rfl⟩ := List.exists_cons_of_ne_nil hds.1
    have hd : isDigit d = true := hds.2 d List.mem_cons_self
    have hsign : ¬ (d = '+' ∨ d = '-') := by
      rintro (rfl | rfl) <;> exact absurd hd (by decide)
    have hle := length_le_exponentDigits [e] (e :: d :: (ds ++ rest)) hds rest
    have heq : exponent (e :: d :: (ds ++ rest)) =
        exponentDigits [e] (e :: d :: (ds ++ rest)) (d :: (ds ++ rest)) := by
      simp [exponent, he, hsign]
    rw [List.cons_append, List.cons_append, heq]
    refine le_trans (le_of_eq ?_) hle
    simp only [List.length_cons, List.length_nil]
    omega
  | @signed e s ds he hs hds =>
    have hle := length_le_exponentDigits [e, s] (e :: s :: (ds ++ rest)) hds rest
    have heq : exponent (e :: s :: (ds ++ rest)) =
        exponentDigits [e, s] (e :: s :: (ds ++ rest)) (ds ++ rest) := by
      simp [exponent, he, hs]
    rw [List.cons_append, List.cons_append, heq]
    refine le_trans (le_of_eq ?_) hle
    simp only [List.length_cons, List.length_nil]
    omega

theorem IsExponent.exists_cons (h : IsExponent w) : ∃ e ds, w = e :: ds ∧ (e = 'e' ∨ e = 'E') := by
  cases h with
  | plain he _ => exact ⟨_, _, rfl, he⟩
  | signed he _ _ => exact ⟨_, _, rfl, he⟩

theorem stops_digits_of_exponent {e : List Char} (he : IsExponent e) (rest : List Char) :
    ∀ c ∈ (e ++ rest).head?, isDigit c = false ∧ c ≠ '.' := by
  obtain ⟨c, ds, rfl, hc⟩ := he.exists_cons
  rintro d hd
  obtain rfl : c = d := by simpa using hd
  rcases hc with rfl | rfl <;> decide

theorem length_le_fraction_exponent {f e : List Char} (hf : f = [] ∨ IsFraction f)
    (he : e = [] ∨ IsExponent e) (rest : List Char) :
    (f ++ e).length ≤ ((f ++ (e ++ rest)).takeWhile isDigit).length +
      (fraction ((f ++ (e ++ rest)).dropWhile isDigit)).1.length +
      (exponent (fraction ((f ++ (e ++ rest)).dropWhile isDigit)).2).1.length := by
  rcases he with rfl | he
  · rcases hf with rfl | @⟨ds, hds⟩
    · exact Nat.zero_le _
    · have hle := length_le_takeWhile hds rest
      have hpoint : isDigit '.' = false := by decide
      simp [fraction, hpoint]
      omega
  · have hle := length_le_exponent he rest
    have hstop := stops_digits_of_exponent he rest
    have hdigit : ∀ c ∈ (e ++ rest).head?, isDigit c = false := fun c hc => (hstop c hc).1
    rcases hf with rfl | @⟨ds, hds⟩
    · have hfraction : fraction (e ++ rest) = ([], e ++ rest) := by
        rw [fraction]
        rintro cs heq
        exact (hstop '.' (by simp [heq])).2 rfl
      have hdrop : ([] ++ (e ++ rest)).dropWhile isDigit = e ++ rest :=
        dropWhile_append_of_stop hdigit
      rw [hdrop, hfraction, List.nil_append]
      exact hle.trans (Nat.le_add_left _ _)
    · have hpoint : isDigit '.' = false := by decide
      have htake : (ds ++ (e ++ rest)).takeWhile isDigit = ds := by
        rw [takeWhile_append_of_stop hdigit, List.takeWhile_eq_self_iff.2 hds]
      have hdrop : (ds ++ (e ++ rest)).dropWhile isDigit = e ++ rest := by
        rw [dropWhile_append_of_stop hdigit, List.dropWhile_eq_nil_iff.2 hds, List.nil_append]
      simp [fraction, hpoint, htake, hdrop]
      omega

theorem takesLongest_decimal : TakesLongest decimal? IsDecimal := by
  constructor
  · intro cs a b h
    unfold decimal? at h
    split at h
    · cases h
    · next hne =>
      cases h
      rw [List.append_assoc]
      exact .mk ⟨hne, fun c hc => List.mem_takeWhile_imp hc⟩ (fraction_eq _) (exponent_eq _)
  · rintro w @⟨ds, f, e, hds, hf, he⟩ rest
    have hle := length_le_fraction_exponent hf he rest
    have hne := takeWhile_isDigit_ne_nil hds (f ++ (e ++ rest))
    simp only [List.append_assoc]
    unfold decimal?
    split
    · next hnil => exact absurd hnil hne
    · refine ⟨_, _, rfl, ?_⟩
      rw [List.takeWhile_append_of_pos hds.2, List.dropWhile_append_of_pos hds.2]
      simp only [List.length_append] at hle ⊢
      omega

theorem IsDecimal.exists_cons (h : IsDecimal w) : ∃ c cs, w = c :: cs ∧ isDigit c = true := by
  obtain @⟨ds, f, e, hds, -, -⟩ := h
  obtain ⟨d, ds, rfl⟩ := List.exists_cons_of_ne_nil hds.1
  exact ⟨d, _, rfl, hds.2 d List.mem_cons_self⟩

theorem decimal?_zero {x : Char} (hx : x = 'x' ∨ x = 'X') (cs : List Char) :
    decimal? ('0' :: x :: cs) = some (['0'], x :: cs) := by
  have hzero : isDigit '0' = true := by decide
  have hdigit : isDigit x = false := by rcases hx with rfl | rfl <;> decide
  have hfraction : fraction (x :: cs) = ([], x :: cs) := by
    rw [fraction]
    rintro ds heq
    rcases hx with rfl | rfl <;> exact absurd heq (by simp)
  have hexponent : exponent (x :: cs) = ([], x :: cs) := by
    cases cs with
    | nil => rfl
    | cons c cs => rcases hx with rfl | rfl <;> rfl
  simp [decimal?, hzero, hdigit, hfraction, hexponent]

theorem takesLongest_magnitude : TakesLongest magnitude? IsMagnitude := by
  constructor
  · intro cs a b h
    unfold magnitude? at h
    split at h
    · split at h
      · next hx =>
        cases h
        simp only [Bool.and_eq_true, Bool.or_eq_true, decide_eq_true_eq, ne_eq,
          List.length_eq_zero_iff] at hx
        exact .hexadecimal hx.1 hx.2 fun c hc => List.mem_takeWhile_imp hc
      · exact .decimal (takesLongest_decimal.sound h)
    · exact .decimal (takesLongest_decimal.sound h)
  · rintro w (@⟨x, ds, hx, hne, hds⟩ | ⟨h⟩) rest
    · have hle := length_le_takeWhile hds rest
      have hpos := List.length_pos_iff.2 hne
      refine ⟨'0' :: x :: (ds ++ rest).takeWhile isHexDigit, (ds ++ rest).dropWhile isHexDigit,
        ?_, by simpa using hle⟩
      have hhex : ((ds ++ rest).takeWhile isHexDigit).length ≠ 0 := by omega
      simp only [List.cons_append, magnitude?]
      rw [if_pos (by simp [hx, hhex])]
    · obtain ⟨a, b, hdecimal, hle⟩ := takesLongest_decimal.longest h rest
      rw [magnitude?.eq_def]
      split
      · next x r heq =>
        split
        · next hx =>
          refine ⟨_, _, rfl, hle.trans ?_⟩
          simp only [Bool.and_eq_true, Bool.or_eq_true, decide_eq_true_eq] at hx
          rw [heq, decimal?_zero hx.1] at hdecimal
          cases hdecimal
          simp
        · exact ⟨a, b, hdecimal, hle⟩
      · exact ⟨a, b, hdecimal, hle⟩

theorem IsMagnitude.exists_cons (h : IsMagnitude w) : ∃ c cs, w = c :: cs ∧ isDigit c = true := by
  cases h with
  | hexadecimal => exact ⟨'0', _, rfl, by decide⟩
  | decimal h => exact h.exists_cons

theorem number?_of_isDigit {c : Char} (h : isDigit c = true) (cs : List Char) :
    number? (c :: cs) = magnitude? (c :: cs) := by
  rw [number?]
  rintro ds heq
  obtain rfl := (List.cons.inj heq).1
  exact absurd h (by decide)

theorem takesLongest_number : TakesLongest number? IsNumber := by
  constructor
  · intro cs a b h
    unfold number? at h
    split at h
    · obtain ⟨⟨a', b'⟩, hmagnitude, heq⟩ := Option.map_eq_some_iff.1 h
      cases heq
      exact .minus (takesLongest_magnitude.sound hmagnitude)
    · exact .plain (takesLongest_magnitude.sound h)
  · rintro w (⟨h⟩ | ⟨h⟩) rest
    · obtain ⟨a, b, hmagnitude, hle⟩ := takesLongest_magnitude.longest h rest
      obtain ⟨c, cs, rfl, hc⟩ := h.exists_cons
      exact ⟨a, b, (number?_of_isDigit hc _).trans hmagnitude, hle⟩
    · obtain ⟨a, b, hmagnitude, hle⟩ := takesLongest_magnitude.longest h rest
      exact ⟨'-' :: a, b, by simp [number?, hmagnitude], Nat.succ_le_succ hle⟩

/-- A name that can have a dot in front. -/
inductive IsTypeName : List Char → Prop
  | plain {cs : List Char} (h : Dotted cs) : IsTypeName cs
  | dot {cs : List Char} (h : Dotted cs) : IsTypeName ('.' :: cs)

/-- The rest of a name completes what is there of it: the last identifier so far, or none of it if one
is about to start. -/
theorem dotted_append_nameTail {front : List Char}
    (h : IsName front ∨ front = [] ∧ startsName cs = true) : Dotted (front ++ (nameTail cs).1) := by
  induction cs generalizing front with
  | nil =>
    rcases h with h | ⟨-, h⟩
    · rw [nameTail, List.append_nil]
      exact .name h
    · cases h
  | cons c cs ih =>
    rw [nameTail]
    split
    · next htaken =>
      rcases h with h | ⟨rfl, h⟩
      · rcases Bool.or_eq_true_iff.1 htaken with hpart | hdot
        · have hfront : IsName (front ++ [c]) := by
            cases front with
            | nil => exact absurd h id
            | cons d ds =>
              refine ⟨h.1, fun x hx => ?_⟩
              rcases List.mem_append.1 hx with hx | hx
              · exact h.2 x hx
              · rwa [List.mem_singleton.1 hx]
          have hmore := ih (Or.inl hfront)
          rwa [List.append_assoc] at hmore
        · simp only [Bool.and_eq_true, decide_eq_true_eq] at hdot
          obtain ⟨rfl, hstarts⟩ := hdot
          exact .cons h (ih (Or.inr ⟨rfl, hstarts⟩))
      · have hc : IsName [c] := ⟨by simpa [startsName] using h, by simp⟩
        exact ih (Or.inl hc)
    · next hleft =>
      rcases h with h | ⟨-, h⟩
      · rw [List.append_nil]
        exact .name h
      · have hc : isNameStart c = true := by simpa [startsName] using h
        simp [isNamePart_of_isNameStart hc] at hleft

theorem length_le_nameTail (h : Dotted w) (rest : List Char) :
    w.length ≤ (nameTail (w ++ rest)).1.length := by
  have hname {ds : List Char} (hds : IsName ds) : ∀ d ∈ ds, isNamePart d = true := by
    cases ds with
    | nil => exact absurd hds id
    | cons d ds => exact List.forall_mem_cons.2 ⟨isNamePart_of_isNameStart hds.1, hds.2⟩
  induction h with
  | name h =>
    rw [nameTail_append_of_all (hname h), List.length_append]
    omega
  | @cons cs ds h hd ih =>
    obtain ⟨d, es, rfl, hstart⟩ := hd.exists_cons
    have hdot : nameTail ('.' :: (d :: es ++ rest)) =
        ('.' :: (nameTail (d :: es ++ rest)).1, (nameTail (d :: es ++ rest)).2) := by
      rw [nameTail, if_pos (by simp [startsName, hstart])]
    rw [List.append_assoc, nameTail_append_of_all (hname h), List.cons_append, hdot]
    simp only [List.length_append, List.length_cons] at ih ⊢
    omega

theorem takesLongest_name : TakesLongest name? Dotted := by
  constructor
  · intro cs a b h
    unfold name? at h
    split at h
    · cases h
    · next c cs =>
      split at h
      · next hc =>
        cases h
        have hname : IsName [c] := ⟨hc, by simp⟩
        exact dotted_append_nameTail (Or.inl hname)
      · cases h
  · intro w h rest
    have hle := length_le_nameTail h rest
    obtain ⟨c, cs, rfl, hc⟩ := h.exists_cons
    refine ⟨c :: (nameTail (cs ++ rest)).1, (nameTail (cs ++ rest)).2, ?_, ?_⟩
    · rw [List.cons_append, name?, if_pos hc]
    · rw [List.cons_append, nameTail, if_pos (by simp [isNamePart_of_isNameStart hc])] at hle
      exact hle

theorem Dotted.starts (h : Dotted w) : ∃ c cs, w = c :: cs ∧ Starts c := by
  obtain ⟨c, cs, rfl, hc⟩ := h.exists_cons
  exact ⟨c, cs, rfl, starts_of_isNameStart hc⟩

theorem takesLongest_typeName : TakesLongest typeName? IsTypeName := by
  constructor
  · intro cs a b h
    unfold typeName? at h
    split at h
    · obtain ⟨⟨a', b'⟩, hname, heq⟩ := Option.map_eq_some_iff.1 h
      cases heq
      exact .dot (takesLongest_name.sound hname)
    · exact .plain (takesLongest_name.sound h)
  · rintro w (⟨h⟩ | ⟨h⟩) rest
    · obtain ⟨a, b, hname, hle⟩ := takesLongest_name.longest h rest
      obtain ⟨c, cs, rfl, hc⟩ := h.starts
      have hdot : c ≠ '.' := fun heq => hc.mark (by simp [heq])
      exact ⟨a, b, (typeName?_of_ne hdot _).trans hname, hle⟩
    · obtain ⟨a, b, hname, hle⟩ := takesLongest_name.longest h rest
      exact ⟨'.' :: a, b, by simp [typeName?, hname], Nat.succ_le_succ hle⟩

def IsSymbol (cs : List Char) : Prop := ∃ c ∈ punctuation, cs = [c]

def IsWord (cs : List Char) : Prop := IsString cs ∨ IsNumber cs ∨ IsTypeName cs ∨ IsSymbol cs

theorem takesLongest_symbol : TakesLongest symbol? IsSymbol := by
  constructor
  · intro cs a b h
    unfold symbol? at h
    split at h
    · cases h
    · next c cs =>
      split at h
      · next hc =>
        cases h
        exact ⟨c, hc, rfl⟩
      · cases h
  · rintro w ⟨c, hc, rfl⟩ rest
    exact ⟨[c], rest, by simp [symbol?, hc], le_rfl⟩

theorem exists_cons_of_word (h : IsNumber w ∨ IsTypeName w ∨ IsSymbol w) :
    ∃ c cs, w = c :: cs ∧ c ≠ '/' ∧ c ≠ '"' ∧ c ≠ '\'' := by
  have hdigit {c : Char} (hc : isDigit c = true) : c ≠ '/' ∧ c ≠ '"' ∧ c ≠ '\'' := by
    refine ⟨?_, ?_, ?_⟩ <;> rintro rfl <;> exact absurd hc (by decide)
  have hname {c : Char} (hc : Starts c) : c ≠ '/' ∧ c ≠ '"' ∧ c ≠ '\'' := by
    have hmark := hc.mark
    simp only [List.mem_cons, not_or] at hmark
    exact ⟨hmark.1, hmark.2.1, hmark.2.2.1⟩
  rcases h with (⟨h⟩ | ⟨h⟩) | (⟨h⟩ | ⟨h⟩) | ⟨c, hc, rfl⟩
  · obtain ⟨c, cs, rfl, hc⟩ := h.exists_cons
    exact ⟨c, cs, rfl, hdigit hc⟩
  · exact ⟨'-', _, rfl, by decide⟩
  · obtain ⟨c, cs, rfl, hc⟩ := h.starts
    exact ⟨c, cs, rfl, hname hc⟩
  · exact ⟨'.', _, rfl, by decide⟩
  · have hall : ∀ c ∈ punctuation, c ≠ '/' ∧ c ≠ '"' ∧ c ≠ '\'' :=
      List.all_iff_forall_prop.1 (by decide)
    exact ⟨c, [], rfl, hall c hc⟩

theorem number?_typeName (h : IsTypeName w) (rest : List Char) : number? (w ++ rest) = none := by
  rcases h with ⟨h⟩ | ⟨h⟩
  · obtain ⟨c, cs, rfl, hc⟩ := h.starts
    exact number?_eq_none hc.digit (fun heq => hc.mark (by simp [heq])) _
  · exact number?_eq_none (by decide) (by decide) _

theorem takesLongest_word : TakesLongest word? IsWord := by
  have hpositive {a : List Char} (hne : a ≠ []) {w : List Char} (hw : IsSymbol w) :
      w.length ≤ a.length := by
    obtain ⟨c, -, rfl⟩ := hw
    exact List.length_pos_iff.2 hne
  have htypeName := takesLongest_typeName.or takesLongest_symbol
    fun hw hrule => hpositive (typeName?_append hrule).2 hw
  have hnumber := takesLongest_number.or htypeName fun {w rest a b} hw hrule => by
    rcases hw with hw | hw
    · rw [number?_typeName hw] at hrule
      cases hrule
    · exact hpositive (number?_append hrule).2 hw
  have hstring := takesLongest_string.or hnumber fun {w rest a b} hw hrule => by
    obtain ⟨c, cs, rfl, -, hquote, hquote'⟩ := exists_cons_of_word hw
    rw [List.cons_append, string?_eq_none hquote hquote'] at hrule
    cases hrule
  have heq : word? = fun cs =>
      (string? cs).or ((number? cs).or ((typeName? cs).or (symbol? cs))) := by
    funext cs
    simp only [word?, Option.orElse_eq_orElse, Option.orElse_eq_or]
  rw [heq]
  exact hstring

theorem IsWord.exists_cons (h : IsWord w) : ∃ c cs, w = c :: cs ∧ c ≠ '/' := by
  rcases h with @⟨q, body, hq, -⟩ | h
  · exact ⟨q, _, rfl, by rcases hq with rfl | rfl <;> decide⟩
  · obtain ⟨c, cs, rfl, hslash, -, -⟩ := exists_cons_of_word h
    exact ⟨c, cs, rfl, hslash⟩

theorem next?_of_isString (h : IsString w) (rest : List Char) :
    next? (w ++ rest) = some (⟨.word, w⟩, rest) := by
  have hword : word? (w ++ rest) = some (w, rest) := by
    simp only [word?, string?_of_isString h, Option.orElse_eq_orElse, Option.orElse_eq_or,
      Option.some_or]
  obtain ⟨c, cs, rfl, hslash⟩ := IsWord.exists_cons (Or.inl h)
  exact next?_of_word? (comment?_eq_none hslash _) hword

/-- The grammar of pieces. -/
def IsPiece (p : Piece) : Prop :=
  match p.kind with
  | .blank => IsBlanks p.text
  | .comment => IsComment p.text
  | .word => IsWord p.text

/-- The piece is the longest of those that the text begins with. -/
structure Leads (p : Piece) (cs : List Char) : Prop where
  isPiece : p.IsPiece
  begins : p.text <+: cs
  longest : ∀ q : Piece, q.IsPiece → q.text <+: cs → q.text.length ≤ p.text.length

theorem isPiece_of_next? {p : Piece} (h : next? cs = some (p, rest)) : p.IsPiece := by
  unfold next? at h
  split at h
  · next hcomment =>
    cases h
    exact takesLongest_comment.sound hcomment
  · split at h
    · next hword =>
      cases h
      exact takesLongest_word.sound hword
    · split at h
      · next hblank =>
        cases h
        exact isBlanks_of_blank? hblank
      · cases h

/-- Where a piece begins, one of its kind that is no shorter is cut off. -/
theorem next?_of_isPiece {q : Piece} (h : q.IsPiece) (rest : List Char) :
    ∃ a b, next? (q.text ++ rest) = some (⟨q.kind, a⟩, b) ∧ q.text.length ≤ a.length := by
  obtain ⟨kind, w⟩ := q
  cases kind with
  | blank =>
    obtain ⟨hne, hall⟩ := h
    obtain ⟨c, cs, rfl⟩ := List.exists_cons_of_ne_nil hne
    obtain ⟨hc, hcs⟩ := List.forall_mem_cons.1 hall
    exact ⟨_, _, next?_blank hc (cs ++ rest), Nat.succ_le_succ (length_le_takeWhile hcs rest)⟩
  | comment =>
    obtain ⟨a, b, hcomment, hle⟩ := takesLongest_comment.longest h rest
    exact ⟨a, b, by simp [next?, hcomment], hle⟩
  | word =>
    obtain ⟨a, b, hword, hle⟩ := takesLongest_word.longest h rest
    obtain ⟨c, cs, rfl, hslash⟩ := IsWord.exists_cons h
    exact ⟨a, b, next?_of_word? (comment?_eq_none hslash _) hword, hle⟩

theorem next?_eq_some_iff {p : Piece} :
    next? cs = some (p, rest) ↔ p.Leads cs ∧ p.text ++ rest = cs := by
  constructor
  · intro h
    obtain ⟨happend, -⟩ := next?_append h
    refine ⟨⟨isPiece_of_next? h, ⟨rest, happend⟩, ?_⟩, happend⟩
    rintro q hq ⟨more, rfl⟩
    obtain ⟨a, b, hnext, hle⟩ := next?_of_isPiece hq more
    rw [hnext] at h
    cases h
    exact hle
  · rintro ⟨⟨hp, -, hlongest⟩, rfl⟩
    obtain ⟨a, b, hnext, hle⟩ := next?_of_isPiece hp rest
    obtain ⟨happend, -⟩ := next?_append hnext
    -- What is cut off is a piece that begins here, so it is not longer either.
    have hge : a.length ≤ p.text.length :=
      hlongest ⟨p.kind, a⟩ (isPiece_of_next? hnext) ⟨b, happend⟩
    obtain ⟨rfl, rfl⟩ := List.append_inj happend (le_antisymm hge hle)
    exact hnext

theorem next?_eq_none_iff : next? cs = none ↔ ∀ q : Piece, q.IsPiece → ¬ q.text <+: cs := by
  constructor
  · rintro h q hq ⟨more, rfl⟩
    obtain ⟨a, b, hnext, -⟩ := next?_of_isPiece hq more
    rw [hnext] at h
    cases h
  · intro h
    cases hnext : next? cs with
    | none => rfl
    | some r =>
      obtain ⟨hlead, -⟩ := next?_eq_some_iff.1 hnext
      exact absurd hlead.begins (h r.1 hlead.isPiece)

end ProtoSchema.Piece
