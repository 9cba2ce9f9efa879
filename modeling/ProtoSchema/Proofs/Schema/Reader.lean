import ProtoSchema.Schema.Declaration

/-! # Steps of readers

What a reader does with the next token, one equation for each case.
-/

namespace ProtoSchema

namespace Reader

variable {α β : Type} {stop : Position} {t : Token} {ts rest : List Token}

theorem bind_ok {r : Reader α} {f : α → Reader β} {a : α} (h : r stop ts = .ok a rest) :
    (r >>= f) stop ts = f a stop rest := by
  change Reader.bind r f stop ts = _
  rw [Reader.bind, h]

theorem bind_failed {r : Reader α} {f : α → Reader β} {why : Diagnostic} {atEnd : Bool}
    (h : r stop ts = .failed why atEnd) : (r >>= f) stop ts = .failed why atEnd := by
  change Reader.bind r f stop ts = _
  rw [Reader.bind, h]

theorem bind_congr {r r' : Reader α} {f : α → Reader β} {ts' : List Token}
    (h : r stop ts = r' stop ts') : (r >>= f) stop ts = (r' >>= f) stop ts' := by
  change Reader.bind r f stop ts = Reader.bind r' f stop ts'
  rw [Reader.bind, Reader.bind, h]

theorem token_cons {test : String → Bool} (w : Wanted) (h : test t.text = true) :
    token test w stop (t :: ts) = .ok t ts := by
  simp [token, h]

theorem word_cons {w : String} (h : t.text = w) : word w stop (t :: ts) = .ok t ts :=
  token_cons _ (by simp [h])

theorem optionalWord_cons {w : String} (h : t.text = w) :
    optionalWord w stop (t :: ts) = .ok true ts := by
  simp [optionalWord, h]

theorem optionalWord_of_ne {w : String} (h : t.text ≠ w) :
    optionalWord w stop (t :: ts) = .ok false (t :: ts) := by
  simp [optionalWord, h]

theorem isNext_cons (w : String) :
    isNext w stop (t :: ts) = .ok (t.text == w) (t :: ts) := by
  simp [isNext]

variable {b : Bool} {depth : Nat} {e v : Token}

/-- Inside a block only the braces matter: they say how deep the next token stands. -/
theorem optionsFrom_nested (hd : depth ≠ 0) :
    optionsFrom b depth stop (t :: ts) =
      optionsFrom b
        (if t.text = "\x7b" then depth + 1 else if t.text = "\x7d" then depth - 1 else depth)
        stop ts := by
  rw [optionsFrom.eq_def]
  by_cases ho : t.text = "\x7b"
  · simp [hd, ho]
  · by_cases hc : t.text = "\x7d"
    · simp [hd, hc]
    · simp [hd, ho, hc]

theorem optionsFrom_opens (hd : depth ≠ 0) (h : t.text = "\x7b") :
    optionsFrom b depth stop (t :: ts) = optionsFrom b (depth + 1) stop ts := by
  rw [optionsFrom_nested hd, if_pos h]

theorem optionsFrom_closes (hd : depth ≠ 0) (h : t.text = "\x7d") :
    optionsFrom b depth stop (t :: ts) = optionsFrom b (depth - 1) stop ts := by
  rw [optionsFrom_nested hd, if_neg (by simp [h]), if_pos h]

theorem optionsFrom_inside (hd : depth ≠ 0) (ho : t.text ≠ "\x7b") (hc : t.text ≠ "\x7d") :
    optionsFrom b depth stop (t :: ts) = optionsFrom b depth stop ts := by
  rw [optionsFrom_nested hd, if_neg ho, if_neg hc]

theorem optionsFrom_value (h : t.text = "deprecated") (he : e.text = "=") :
    optionsFrom b 0 stop (t :: e :: v :: ts) = optionsFrom (v.text != "false") 0 stop ts := by
  rw [optionsFrom.eq_def]
  simp [h, he]

theorem optionsFrom_noValue (h : t.text = "deprecated") (he : e.text ≠ "=") :
    optionsFrom b 0 stop (t :: e :: ts) = optionsFrom true 0 stop (e :: ts) := by
  rw [optionsFrom.eq_def]
  simp [h, he]

theorem optionsFrom_passed (h : t.text ≠ "deprecated") :
    optionsFrom b 0 stop (t :: ts) =
      if t.text = "]" then .ok b ts
      else if t.text = "\x7b" then optionsFrom b 1 stop ts
      else if t.text = ";" ∨ t.text = "\x7d" then want (.word "]") stop (t :: ts)
      else optionsFrom b 0 stop ts := by
  rw [optionsFrom.eq_def]
  simp [h]

theorem optionsFrom_end (h : t.text = "]") : optionsFrom b 0 stop (t :: ts) = .ok b ts := by
  rw [optionsFrom_passed (by simp [h]), if_pos h]

theorem optionsFrom_block (h : t.text = "\x7b") :
    optionsFrom b 0 stop (t :: ts) = optionsFrom b 1 stop ts := by
  rw [optionsFrom_passed (by simp [h]), if_neg (by simp [h]), if_pos h]

theorem optionsFrom_broken (h : t.text = ";" ∨ t.text = "\x7d") :
    optionsFrom b 0 stop (t :: ts) = want (.word "]") stop (t :: ts) := by
  have hother : t.text ∉ ["deprecated", "]", "\x7b"] := by
    rcases h with h | h <;> simp [h]
  simp only [List.mem_cons, List.not_mem_nil, or_false, not_or] at hother
  rw [optionsFrom_passed hother.1, if_neg hother.2.1, if_neg hother.2.2, if_pos h]

theorem optionsFrom_other (h : t.text ∉ ["]", "deprecated", "\x7b", ";", "\x7d"]) :
    optionsFrom b 0 stop (t :: ts) = optionsFrom b 0 stop ts := by
  simp only [List.mem_cons, List.not_mem_nil, or_false, not_or] at h
  rw [optionsFrom_passed h.2.1]
  simp [h]

end Reader

/-- Puts what one statement declares and notes in front of the rest of its block. -/
def Outcome.prepend {ι : Type} (item : List ι) (notes : List Diagnostic) :
    Outcome (Noted (List ι)) → Outcome (Noted (List ι))
  | ok more rest => ok ⟨item ++ more.value, notes ++ more.notes⟩ rest
  | failed why atEnd => failed why atEnd

theorem Outcome.prepend_nil {ι : Type} (o : Outcome (Noted (List ι))) : o.prepend [] [] = o := by
  cases o <;> rfl

theorem Outcome.prepend_prepend {ι : Type} (o : Outcome (Noted (List ι))) (xs ys : List ι)
    (notes more : List Diagnostic) :
    (o.prepend xs notes).prepend ys more = o.prepend (ys ++ xs) (more ++ notes) := by
  cases o <;> simp [prepend]

section Statements

variable {ι : Type} {statement : Reader (Noted (Option ι))} {inBlock : Bool} {stop : Position}
  {t : Token} {ts after : List Token}

theorem statements_nil_block :
    statements true statement stop [] = Reader.want (.word "\x7d") stop [] := by
  rw [statements]
  rfl

theorem statements_nil_file : statements false statement stop [] = .ok ⟨[], []⟩ [] := by
  rw [statements]
  rfl

theorem statements_close (h : t.text = "\x7d") :
    statements true statement stop (t :: ts) = .ok ⟨[], []⟩ ts := by
  rw [statements]
  simp [h]

theorem statements_open (hc : inBlock = false ∨ t.text ≠ "\x7d") :
    statements inBlock statement stop (t :: ts) =
      match statement stop (t :: ts) with
      | .ok item after =>
        (statements inBlock statement stop (afterFirst ts after)).prepend item.value.toList
          item.notes
      | .failed why true => .failed why true
      | .failed why false =>
        match Reader.skipStatement stop (t :: ts) with
        | .ok () after =>
          (statements inBlock statement stop (afterFirst ts after)).prepend [] [why]
        | .failed why' atEnd => .failed why' atEnd := by
  have hcond : ¬ (inBlock && t.text == "\x7d") = true := by
    rcases hc with rfl | hc <;> simp_all
  rw [statements, if_neg hcond]
  rcases statement stop (t :: ts) with ⟨item, after⟩ | ⟨why, _ | _⟩
  · dsimp only
    cases statements inBlock statement stop (afterFirst ts after) <;> rfl
  · rcases Reader.skipStatement stop (t :: ts) with ⟨_, after⟩ | ⟨why', atEnd⟩
    · dsimp only
      cases statements inBlock statement stop (afterFirst ts after) <;> rfl
    · rfl
  · rfl

theorem statements_ok {item : Noted (Option ι)} (hc : inBlock = false ∨ t.text ≠ "\x7d")
    (h : statement stop (t :: ts) = .ok item after) :
    statements inBlock statement stop (t :: ts) =
      (statements inBlock statement stop (afterFirst ts after)).prepend item.value.toList
        item.notes := by
  rw [statements_open hc, h]

theorem statements_fatal {why : Diagnostic} (hc : inBlock = false ∨ t.text ≠ "\x7d")
    (h : statement stop (t :: ts) = .failed why true) :
    statements inBlock statement stop (t :: ts) = .failed why true := by
  rw [statements_open hc, h]

theorem statements_skip {why : Diagnostic} (hc : inBlock = false ∨ t.text ≠ "\x7d")
    (h : statement stop (t :: ts) = .failed why false)
    (hs : Reader.skipStatement stop (t :: ts) = .ok () after) :
    statements inBlock statement stop (t :: ts) =
      (statements inBlock statement stop (afterFirst ts after)).prepend [] [why] := by
  rw [statements_open hc, h, hs]

theorem statements_stuck {why why' : Diagnostic} {atEnd : Bool}
    (hc : inBlock = false ∨ t.text ≠ "\x7d") (h : statement stop (t :: ts) = .failed why false)
    (hs : Reader.skipStatement stop (t :: ts) = .failed why' atEnd) :
    statements inBlock statement stop (t :: ts) = .failed why' atEnd := by
  rw [statements_open hc, h, hs]

end Statements

namespace Reader

variable {α β : Type}

/-- The reader yields `a` and goes from `ts` on to `us`, whatever follows both. -/
def Takes (r : Reader α) (a : α) (ts us : List Token) : Prop :=
  ∀ stop rest, r stop (ts ++ rest) = .ok a (us ++ rest)

variable {r : Reader α} {f : α → Reader β} {a : α} {b : β} {t : Token} {ts us vs : List Token}

theorem Takes.pure (a : α) (ts : List Token) : Takes (Pure.pure a : Reader α) a ts ts :=
  fun _ _ => rfl

theorem Takes.bind (hr : Takes r a ts us) (hf : Takes (f a) b us vs) : Takes (r >>= f) b ts vs := by
  intro stop rest
  rw [bind_ok (hr stop rest)]
  exact hf stop rest

theorem takes_token {test : String → Bool} (w : Wanted) (h : test t.text = true) :
    Takes (token test w) t (t :: ts) ts :=
  fun _ _ => token_cons w h

theorem takes_word {w : String} (h : t.text = w) : Takes (word w) t (t :: ts) ts :=
  fun _ _ => word_cons h

theorem takes_optionalWord {w : String} (h : t.text = w) :
    Takes (optionalWord w) true (t :: ts) ts :=
  fun _ _ => optionalWord_cons h

theorem takes_optionalWord_of_ne {w : String} (h : t.text ≠ w) :
    Takes (optionalWord w) false (t :: ts) (t :: ts) :=
  fun _ _ => optionalWord_of_ne h

theorem takes_isNext (w : String) : Takes (isNext w) (t.text == w) (t :: ts) (t :: ts) :=
  fun _ _ => isNext_cons w

theorem takes_look {look : List Token → α} (h : ∀ rest, look (ts ++ rest) = a) :
    Takes (fun _ ts => .ok (look ts) ts : Reader α) a ts ts :=
  fun _ rest => congrArg (Outcome.ok · _) (h rest)

theorem takes_byWord {choose : String → Reader α} (h : Takes (choose t.text) a (t :: ts) us) :
    Takes (byWord choose) a (t :: ts) us :=
  fun stop rest => h stop rest

end Reader

theorem statements_cons {ι : Type} {statement : Reader (Noted (Option ι))} {inBlock : Bool}
    {t : Token} {ts : List Token} {item : Noted (Option ι)}
    (hc : inBlock = false ∨ t.text ≠ "\x7d") (h : statement.Takes item (t :: ts) [])
    (stop : Position) (us : List Token) :
    statements inBlock statement stop (t :: ts ++ us) =
      (statements inBlock statement stop us).prepend item.value.toList item.notes := by
  have hafter : afterFirst (ts ++ us) us = us := by simp [afterFirst]
  have hok : statement stop (t :: (ts ++ us)) = .ok item us := h stop us
  rw [List.cons_append, statements_ok hc hok, hafter]

theorem Schema.ofTokens_cut {ts rest : List Token} {z : Token} (ht : ∀ t ∈ ts, t.isEnd = false)
    (hz : z.isEnd = true) (hlast : (ts ++ z :: rest).getLast?.any Token.isEnd = true) :
    Schema.ofTokens (ts ++ z :: rest) =
      match statements false Declaration.statement z.position ts with
      | .ok ds _ => .ok (Schema.ofDeclarations ds.value ds.notes)
      | .failed why _ => .error (.unfinished why) := by
  have hend : ∀ t ∈ ts, (!t.isEnd) = true := by simpa using ht
  have htake : (ts ++ z :: rest).takeWhile (!·.isEnd) = ts := by
    rw [List.takeWhile_append_of_pos hend, List.takeWhile_cons_of_neg (by simp [hz]),
      List.append_nil]
  have hdrop : (ts ++ z :: rest).dropWhile (!·.isEnd) = z :: rest := by
    rw [List.dropWhile_append_of_pos hend, List.dropWhile_cons_of_neg (by simp [hz])]
  rw [Schema.ofTokens, if_pos hlast, htake, hdrop]
  rfl

end ProtoSchema
