import ProtoSchema.Proofs.Schema.Cursor

/-! # Reading in place comes to an end

Every statement that is read takes a token, and a statement that is skipped is left behind, so each
loop has a run from every place up to the first end token: by induction on the tokens that remain.
Nested messages are read from later places, whatever their depth. A run that succeeds is counted by
the tokens it takes at least.
-/

namespace ProtoSchema

namespace Cursor

open Reader

section Combinators

variable {tokens : List Token} {α β : Type}

/-- The reader has a run from this place, which takes at least `n` tokens if it succeeds. -/
def Halts (tokens : List Token) (n : Nat) (r : Reader α) (i : Nat) : Prop :=
  ∃ ms e j, Runs tokens r i ms e j ∧ ∀ a, e = .yields a → i + n ≤ j

/-- The same from every place between `i` and the first end token. -/
def HaltsFrom (c : Cut tokens) (n : Nat) (r : Reader α) (i : Nat) : Prop :=
  ∀ k, i ≤ k → k ≤ c.body.length → Halts tokens n r k

variable {c : Cut tokens} {r : Reader α} {f : α → Reader β} {n m i k : Nat}

theorem Runs.halts {ms : List Move} {e : Ending α} {j : Nat} (h : Runs tokens r i ms e j)
    (hn : i + n ≤ j) : Halts tokens n r i :=
  ⟨ms, e, j, h, fun _ _ => hn⟩

theorem Runs.halts_fails {ms : List Move} {why : Diagnostic} {j : Nat}
    (h : Runs tokens r i ms (.fails why) j) : Halts tokens n r i := by
  refine ⟨ms, _, j, h, ?_⟩
  rintro a ⟨⟩

theorem Halts.weaken (h : Halts tokens n r i) (hm : m ≤ n) : Halts tokens m r i := by
  obtain ⟨ms, e, j, hrun, hj⟩ := h
  exact ⟨ms, e, j, hrun, fun a ha => Nat.le_trans (Nat.add_le_add_left hm i) (hj a ha)⟩

theorem HaltsFrom.later (h : HaltsFrom c n r i) (hi : i ≤ k) : HaltsFrom c n r k :=
  fun l hl => h l (Nat.le_trans hi hl)

theorem Halts.bind (hr : Halts tokens n r i) (hi : i ≤ c.body.length)
    (hf : ∀ a, HaltsFrom c m (f a) (i + n)) : Halts tokens (n + m) (r >>= f) i := by
  obtain ⟨ms, e, j, hrun, hj⟩ := hr
  cases e with
  | fails why => exact (Runs.bindFails hrun).halts_fails
  | yields a =>
    have hle := hj a rfl
    obtain ⟨ns, e, l, hrun', hl⟩ := hf a j hle (hrun.agrees c hi).le_length
    exact ⟨_, e, l, .bind hrun hrun', fun b hb => by have := hl b hb; omega⟩

theorem HaltsFrom.bind (hr : HaltsFrom c n r i) (hf : ∀ a, HaltsFrom c 0 (f a) (i + n)) :
    HaltsFrom c n (r >>= f) i :=
  fun k hk hle => (hr k hk hle).bind hle fun a => (hf a).later (Nat.add_le_add_right hk n)

theorem HaltsFrom.seq (hr : HaltsFrom c m r i) (hf : ∀ a, HaltsFrom c n (f a) i) :
    HaltsFrom c n (r >>= f) i := by
  intro k hk hle
  have hboth := (hr k hk hle).bind hle fun a => (hf a).later (Nat.le_add_right_of_le hk)
  exact hboth.weaken (Nat.le_add_left n m)

theorem halts_pure (c : Cut tokens) {a : α} : HaltsFrom c 0 (pure a) i :=
  fun k _ _ => Runs.pure.halts (Nat.le_refl k)

theorem halts_token (c : Cut tokens) {test : String → Bool} {w : Wanted} :
    HaltsFrom c 1 (token test w) i := by
  intro k _ _
  cases hend : (tokenAt tokens k).isEnd with
  | true => exact (Runs.act (.noToken (Or.inl hend))).halts_fails
  | false =>
    cases ht : test (tokenAt tokens k).text with
    | true => exact (Runs.act (.token hend ht)).halts (Nat.le_refl _)
    | false => exact (Runs.act (.noToken (Or.inr ht))).halts_fails

theorem halts_optionalWord (c : Cut tokens) {w : String} : HaltsFrom c 0 (optionalWord w) i := by
  intro k _ _
  cases hend : (tokenAt tokens k).isEnd with
  | true => exact (Runs.act (.noWord (Or.inl hend))).halts (Nat.le_refl k)
  | false =>
    by_cases ht : (tokenAt tokens k).text = w
    · exact (Runs.act (.optionalWord hend ht)).halts (Nat.le_succ k)
    · exact (Runs.act (.noWord (Or.inr ht))).halts (Nat.le_refl k)

theorem halts_isNext (c : Cut tokens) {w : String} (hw : w ≠ "") : HaltsFrom c 0 (isNext w) i :=
  fun k _ _ => (Runs.act (.isNext hw)).halts (Nat.le_refl k)

theorem halts_fail (c : Cut tokens) {complaint : Complaint} :
    HaltsFrom c n (fail complaint : Reader α) i :=
  fun _ _ _ => (Runs.act .fail).halts_fails

theorem halts_failAt (c : Cut tokens) {p : Position} {complaint : Complaint} :
    HaltsFrom c n (failAt p complaint : Reader α) i :=
  fun _ _ _ => (Runs.act .failAt).halts_fails

theorem halts_byWord {choose : String → Reader α}
    (h : ∀ k, i ≤ k → k ≤ c.body.length → Halts tokens n (choose (tokenAt tokens k).text) k) :
    HaltsFrom c n (byWord choose) i := by
  intro k hk hle
  obtain ⟨ms, e, j, hrun, hj⟩ := h k hk hle
  exact ⟨ms, e, j, .byWord hrun, hj⟩

end Combinators

section Loops

variable {tokens : List Token} (c : Cut tokens) {k : Nat}

/-- Induction from the first end token backwards. -/
theorem Cut.backwards {motive : (k : Nat) → k ≤ c.body.length → Prop}
    (step : ∀ k hk, (∀ l (hl : l ≤ c.body.length), k < l → motive l hl) → motive k hk) (k : Nat)
    (hk : k ≤ c.body.length) : motive k hk := by
  induction hn : c.body.length - k using Nat.strongRecOn generalizing k with
  | ind n ih =>
    subst hn
    exact step k hk fun l hl hlt => ih _ (by omega) l hl rfl

theorem passes_closeBlock (hk : k ≤ c.body.length) :
    ∀ depth, ∃ ms e j, Passes tokens (closeBlock depth) k ms e j := by
  induction k, hk using c.backwards with
  | step k hk ih =>
    intro depth
    cases hend : (tokenAt tokens k).isEnd with
    | true => exact ⟨_, _, _, .blockUnclosed hend⟩
    | false =>
      have hlt := c.lt_of_isEnd hk hend
      obtain ⟨ms, e, j, hrest⟩ := ih (k + 1) hlt (Nat.lt_succ_self k)
        (nesting depth (tokenAt tokens k).text)
      by_cases hclose : (tokenAt tokens k).text = "\x7d" ∧ depth ≤ 1
      · exact ⟨_, _, _, .blockEnd hclose.1 hclose.2⟩
      · exact ⟨_, _, _, .blockNext hend (fun ht => Nat.not_le.1 fun hd => hclose ⟨ht, hd⟩) hrest⟩

theorem passes_skipStatement (hk : k ≤ c.body.length) :
    ∃ ms e j, Passes tokens skipStatement k ms e j := by
  induction k, hk using c.backwards with
  | step k hk ih =>
    cases hend : (tokenAt tokens k).isEnd with
    | true => exact ⟨_, _, _, .skipAtEnd hend⟩
    | false =>
      have hlt := c.lt_of_isEnd hk hend
      by_cases hclose : (tokenAt tokens k).text = "\x7d"
      · exact ⟨_, _, _, .skipAtBrace hclose⟩
      by_cases hsemi : (tokenAt tokens k).text = ";"
      · exact ⟨_, _, _, .skipSemicolon hsemi⟩
      by_cases hopen : (tokenAt tokens k).text = "\x7b"
      · obtain ⟨ms, e, j, hrest⟩ := passes_closeBlock c hlt 1
        exact ⟨_, _, _, .skipBlock hopen hrest⟩
      · obtain ⟨ms, e, j, hrest⟩ := ih (k + 1) hlt (Nat.lt_succ_self k)
        exact ⟨_, _, _, .skipNext hend (by simp [hopen, hclose, hsemi]) hrest⟩

theorem passes_optionsFrom (hk : k ≤ c.body.length) :
    ∀ b depth, ∃ ms e j, Passes tokens (optionsFrom b depth) k ms e j := by
  induction k, hk using c.backwards with
  | step k hk ih =>
    intro b depth
    cases hend : (tokenAt tokens k).isEnd with
    | true => exact ⟨_, _, _, .optionsUnclosed hend⟩
    | false =>
      have hlt := c.lt_of_isEnd hk hend
      have ih' := ih (k + 1) hlt (Nat.lt_succ_self k)
      by_cases hd : depth ≠ 0
      · obtain ⟨ms, e, j, hrest⟩ := ih' b (nesting depth (tokenAt tokens k).text)
        exact ⟨_, _, _, .optionsNested hend hd hrest⟩
      obtain rfl : depth = 0 := Classical.not_not.1 hd
      by_cases hclose : (tokenAt tokens k).text = "]"
      · exact ⟨_, _, _, .optionsEnd hclose⟩
      by_cases hflag : (tokenAt tokens k).text = "deprecated"
      · by_cases hv : (tokenAt tokens (k + 1)).text = "="
        · have hlt' := c.lt_of_isEnd hlt (isEnd_of_text hv (by decide))
          obtain ⟨hle, hle'⟩ := c.advance_le hlt'
          obtain ⟨ms, e, j, hrest⟩ := ih _ hle' (Nat.lt_of_lt_of_le (by omega) hle) _ 0
          exact ⟨_, _, _, .optionsValue hflag hv hrest⟩
        · obtain ⟨ms, e, j, hrest⟩ := ih' true 0
          exact ⟨_, _, _, .optionsFlag hflag hv hrest⟩
      by_cases hopen : (tokenAt tokens k).text = "\x7b"
      · obtain ⟨ms, e, j, hrest⟩ := ih' b 1
        exact ⟨_, _, _, .optionsBlock hopen hrest⟩
      by_cases hbroken : (tokenAt tokens k).text = ";" ∨ (tokenAt tokens k).text = "\x7d"
      · exact ⟨_, _, _, .optionsBroken hbroken⟩
      · obtain ⟨ms, e, j, hrest⟩ := ih' b 0
        refine ⟨_, _, _, .optionsNext hend ?_ hrest⟩
        simp [hclose, hflag, hopen, not_or.1 hbroken]

theorem halts_pass {α : Type} {r : Reader α} {i : Nat}
    (h : ∀ k, k ≤ c.body.length → ∃ ms e j, Passes tokens r k ms e j) : HaltsFrom c 0 r i := by
  intro k _ hle
  obtain ⟨ms, e, j, hrun⟩ := h k hle
  exact (Runs.pass hrun).halts (hrun.agrees c hle).le

/-- Every round of a loop ends further on: a statement that is read has taken a token, and one that
is skipped is left behind. -/
theorem halts_statements {ι : Type} {s : Reader (Noted (Option ι))} {i : Nat} (inBlock : Bool)
    (hs : HaltsFrom c 1 s i) : HaltsFrom c 0 (statements inBlock s) i := by
  intro k hik hk
  induction k, hk using c.backwards with
  | step k hk ih =>
    cases hend : (tokenAt tokens k).isEnd with
    | true =>
      cases inBlock with
      | false => exact (Runs.fileEnd hend).halts (Nat.le_refl k)
      | true => exact (Runs.blockUnclosed hend).halts_fails
    | false =>
      by_cases hc : inBlock = false ∨ (tokenAt tokens k).text ≠ "\x7d"
      · have hlt := c.lt_of_isEnd hk hend
        obtain ⟨ms, e, j, hrun, hj⟩ := hs k hik hk
        have hagrees := hrun.agrees c hk
        cases e with
        | yields item =>
          have hlt' : k < j := hj item rfl
          obtain ⟨ns, e, l, hrest, -⟩ := ih j hagrees.le_length hlt' (by omega)
          have hround := Runs.statement hend hc hrun hlt' hrest
          exact hround.halts (hround.agrees c hk).le
        | fails why =>
          cases hstop : (tokenAt tokens j).isEnd with
          | true => exact (Runs.unfinished hend hc hrun hstop).halts_fails
          | false =>
            obtain ⟨ns, e, l, hskip⟩ := passes_skipStatement c hk
            have hskips := hskip.agrees c hk
            cases e with
            | fails why' => exact (Runs.unskipped hend hc hrun hstop (.pass hskip)).halts_fails
            | yields _ =>
              have hgt := past_gt hskips.le
              obtain ⟨ps, e, l', hrest, -⟩ := ih _ (c.past_le hlt hskips.le_length) hgt (by omega)
              have hround := Runs.recovered hend hc hrun hstop (.pass hskip) hrest
              exact hround.halts (hround.agrees c hk).le
      · obtain ⟨hblock, hclose⟩ := not_or.1 hc
        obtain rfl : inBlock = true := by simpa using hblock
        exact (Runs.blockEnd (Classical.not_not.1 hclose)).halts (Nat.le_succ k)

end Loops

section Grammar

variable {tokens : List Token} (c : Cut tokens) {i k : Nat}

theorem halts_stringLiteral {description : String} :
    HaltsFrom c 1 (stringLiteral description) i :=
  (halts_token c).bind fun _ => halts_pure c

theorem halts_integer {description : String} : HaltsFrom c 1 (integer description) i := by
  refine (halts_token c).bind fun t => ?_
  split
  · exact halts_pure c
  · exact halts_failAt c

theorem halts_options : HaltsFrom c 0 options i := by
  refine (halts_optionalWord c).bind fun found => ?_
  cases found with
  | false => exact halts_pure c
  | true => exact halts_pass c fun _ hk => passes_optionsFrom c hk false 0

theorem halts_skipBlock : HaltsFrom c 0 skipBlock i :=
  (halts_token c).seq fun _ => halts_pass c fun _ hk => passes_closeBlock c hk 1

theorem halts_label (inOneof : Bool) : HaltsFrom c 0 (Label.reader inOneof) i := by
  refine (halts_isNext c (by decide)).bind fun next => ?_
  cases next with
  | true =>
    cases inOneof with
    | true => exact halts_fail c
    | false => exact (halts_token c).seq fun _ => halts_pure c
  | false =>
    refine (halts_optionalWord c).bind fun found => ?_
    cases found with
    | true => exact halts_pure c
    | false => exact (halts_optionalWord c).bind fun _ => halts_pure c

theorem halts_field (inOneof : Bool) : HaltsFrom c 1 (Field.reader inOneof) i := by
  refine (halts_label c inOneof).seq fun label => ?_
  refine HaltsFrom.seq (m := 0) (fun k _ _ => (Runs.act .look).halts (Nat.le_refl k)) fun what => ?_
  cases what with
  | some what => exact halts_fail c
  | none =>
    exact (halts_token c).bind fun _ => (halts_token c).seq fun _ => (halts_token c).seq fun _ =>
      (halts_integer c).seq fun _ => (halts_options c).seq fun _ => (halts_token c).seq fun _ =>
      halts_pure c

theorem halts_enumValue : HaltsFrom c 1 EnumValue.reader i :=
  (halts_token c).bind fun _ => (halts_token c).seq fun _ => (halts_integer c).seq fun _ =>
    (halts_options c).seq fun _ => (halts_token c).seq fun _ => halts_pure c

theorem halts_rpc : HaltsFrom c 1 Rpc.reader i := by
  refine (halts_token c).bind fun start => (halts_token c).seq fun name =>
    (halts_token c).seq fun _ => (halts_optionalWord c).seq fun streamsIn =>
    (halts_token c).seq fun request => (halts_token c).seq fun _ => (halts_token c).seq fun _ =>
    (halts_token c).seq fun _ => (halts_optionalWord c).seq fun streamsOut =>
    (halts_token c).seq fun response => (halts_token c).seq fun _ =>
    (halts_isNext c (by decide)).seq fun next => ?_
  have hlast {k : Nat} : HaltsFrom c 0 (if streamsIn || streamsOut then
      failAt start.position .streaming
      else return (⟨name.text, request.text, response.text⟩ : Rpc)) k := by
    cases streamsIn || streamsOut with
    | true => exact halts_failAt c
    | false => exact halts_pure c
  cases next with
  | true => exact (halts_skipBlock c).seq fun _ => hlast
  | false => exact (halts_token c).seq fun _ => hlast

theorem halts_block {ι : Type} {keyword description : String} {s : Reader (Noted (Option ι))}
    (hs : HaltsFrom c 1 s (i + 1)) : HaltsFrom c 1 (block keyword description s) i :=
  (halts_token c).bind fun _ => (halts_token c).seq fun _ => (halts_token c).seq fun _ =>
    (halts_statements c true hs).seq fun _ => halts_pure c

theorem halts_skip {ι : Type} (hk : k ≤ c.body.length)
    (h : (tokenAt tokens k).text ∉ ["", "\x7d"]) :
    Halts tokens 1 (nothing skipStatement : Reader (Noted (Option ι))) k := by
  simp only [List.mem_cons, List.not_mem_nil, or_false, not_or] at h
  have hend : (tokenAt tokens k).isEnd = false := isEnd_of_text rfl h.1
  have hlt := c.lt_of_isEnd hk hend
  have hskip : Halts tokens 1 skipStatement k := by
    by_cases hsemi : (tokenAt tokens k).text = ";"
    · exact (Runs.pass (.skipSemicolon hsemi)).halts (Nat.le_refl _)
    by_cases hopen : (tokenAt tokens k).text = "\x7b"
    · obtain ⟨ms, e, j, hrest⟩ := passes_closeBlock c hlt 1
      exact (Runs.pass (.skipBlock hopen hrest)).halts (hrest.agrees c hlt).le
    · obtain ⟨ms, e, j, hrest⟩ := passes_skipStatement c hlt
      refine (Runs.pass (.skipNext hend ?_ hrest)).halts (hrest.agrees c hlt).le
      simp [hopen, h.2, hsemi]
  exact hskip.bind hk fun _ => halts_pure c

theorem not_closing_of_passed {w : String} (h : (w = "option" || w = "reserved") = true) :
    w ∉ ["", "\x7d"] := by
  have hw : w = "option" ∨ w = "reserved" := by simpa using h
  rcases hw with rfl | rfl <;> decide

theorem halts_semicolon {ι : Type} :
    HaltsFrom c 1 (nothing semicolon : Reader (Noted (Option ι))) i := by
  have hsemicolon : HaltsFrom c 1 semicolon i := (halts_token c).bind fun _ => halts_pure c
  exact hsemicolon.bind fun _ => halts_pure c

theorem halts_declares {ι : Type} {r : Reader ι} (hr : HaltsFrom c 1 r i) :
    HaltsFrom c 1 (declares r) i :=
  hr.bind fun _ => halts_pure c

theorem halts_oneofStatement : HaltsFrom c 1 Oneof.statement i := by
  refine halts_byWord fun k hik hk => ?_
  split
  · next h => exact halts_skip c hk (by simp [h])
  · split
    · exact halts_semicolon c k hik hk
    · exact halts_declares c (halts_field c true) k hik hk

theorem halts_enumStatement : HaltsFrom c 1 Enum.statement i := by
  refine halts_byWord fun k hik hk => ?_
  split
  · next h => exact halts_skip c hk (not_closing_of_passed h)
  · split
    · exact halts_semicolon c k hik hk
    · exact halts_declares c (halts_enumValue c) k hik hk

theorem halts_serviceStatement : HaltsFrom c 1 Service.statement i := by
  refine halts_byWord fun k hik hk => ?_
  split
  · next h => exact halts_skip c hk (by simp [h])
  · split
    · exact halts_semicolon c k hik hk
    · split
      · exact halts_declares c (halts_rpc c) k hik hk
      · exact halts_fail c k hik hk

theorem halts_oneof : HaltsFrom c 1 Oneof.reader i :=
  (halts_block c (halts_oneofStatement c)).bind fun _ => halts_pure c

theorem halts_enum : HaltsFrom c 1 Enum.reader i :=
  (halts_block c (halts_enumStatement c)).bind fun _ => halts_pure c

theorem halts_service : HaltsFrom c 1 Service.reader i :=
  (halts_block c (halts_serviceStatement c)).bind fun _ => halts_pure c

theorem halts_member {nested : Reader (Noted Message)} (hn : HaltsFrom c 1 nested i) :
    HaltsFrom c 1 (Member.statement nested) i := by
  have hnoted {α : Type} {wrap : α → Member} {r : Reader (Noted α)} (hr : HaltsFrom c 1 r i) :
      HaltsFrom c 1 (Member.noted wrap r) i := hr.bind fun _ => halts_pure c
  refine halts_byWord fun k hik hk => ?_
  split
  · exact hnoted hn k hik hk
  · split
    · exact hnoted (halts_enum c) k hik hk
    · split
      · exact hnoted (halts_oneof c) k hik hk
      · split
        · next h => exact halts_skip c hk (not_closing_of_passed h)
        · split
          · exact halts_fail c k hik hk
          · split
            · exact halts_fail c k hik hk
            · split
              · exact halts_semicolon c k hik hk
              · exact ((halts_field c false).bind fun _ => halts_pure c) k hik hk

/-- Nested messages start behind the keyword of the message around them. -/
theorem halts_message : HaltsFrom c 1 Message.reader i := by
  intro k hik hk
  induction k, hk using c.backwards with
  | step k hk ih =>
    have hnested : HaltsFrom c 1 Message.reader (k + 1) :=
      fun l hl hle => ih l hle hl (by omega)
    have hmember : HaltsFrom c 1 (Member.statement Message.reader) (k + 1) :=
      halts_member c hnested
    rw [Message.reader_eq]
    exact (halts_block c hmember k (Nat.le_refl k) hk).bind hk fun _ => halts_pure c

theorem halts_dialect : HaltsFrom c 1 Declaration.dialectReader i :=
  (halts_token c).bind fun _ => (halts_token c).seq fun _ => (halts_stringLiteral c).seq fun _ =>
    (halts_token c).seq fun _ => halts_pure c

theorem halts_package : HaltsFrom c 1 Declaration.packageReader i :=
  (halts_token c).bind fun _ => (halts_token c).seq fun _ => (halts_token c).seq fun _ =>
    halts_pure c

theorem halts_path : HaltsFrom c 1 Declaration.pathReader i := by
  refine (halts_token c).bind fun _ => (halts_optionalWord c).seq fun isPublic => ?_
  have hlast {k : Nat} : HaltsFrom c 0 (do
      let imported ← stringLiteral "import path"
      let _ ← word ";"
      return Declaration.path imported) k :=
    (halts_stringLiteral c).seq fun _ => (halts_token c).seq fun _ => halts_pure c
  cases isPublic with
  | true => exact hlast
  | false => exact (halts_optionalWord c).seq fun _ => hlast

theorem halts_option (hk : k ≤ c.body.length) (h : (tokenAt tokens k).text = "option") :
    Halts tokens 1 Declaration.optionReader k := by
  have hend : (tokenAt tokens k).isEnd = false := isEnd_of_text h (by decide)
  cases hm : isModuleAt tokens k with
  | true => exact (Runs.act (.moduleOption hend hm)).halts (by omega)
  | false =>
    obtain ⟨ms, e, j, hrun, hj⟩ := halts_skip (ι := Declaration) c hk (by simp [h])
    exact ⟨ms, e, j, .otherOption hend hm hrun, hj⟩

theorem halts_declaration : HaltsFrom c 1 Declaration.statement i := by
  have hnoted {α : Type} {wrap : α → Declaration} {r : Reader (Noted α)}
      (hr : HaltsFrom c 1 r i) : HaltsFrom c 1 (Declaration.noted wrap r) i :=
    hr.bind fun _ => halts_pure c
  refine halts_byWord fun k hik hk => ?_
  split
  · exact halts_declares c (halts_dialect c) k hik hk
  · split
    · exact halts_declares c (halts_package c) k hik hk
    · split
      · exact halts_declares c (halts_path c) k hik hk
      · split
        · next h => exact halts_option c hk h
        · split
          · exact hnoted (halts_message c) k hik hk
          · split
            · exact hnoted (halts_enum c) k hik hk
            · split
              · exact hnoted (halts_service c) k hik hk
              · split
                · exact halts_fail c k hik hk
                · split
                  · exact halts_semicolon c k hik hk
                  · exact halts_fail c k hik hk

end Grammar

section Files

variable {tokens : List Token}

theorem exists_cut (h : tokens.getLast?.any Token.isEnd = true) : Nonempty (Cut tokens) := by
  obtain ⟨last, hlast, hend⟩ := (Option.any_eq_true _ _).1 h
  have hfind := List.find?_isSome.2 ⟨last, List.mem_of_getLast? hlast, hend⟩
  obtain ⟨mark, hmark⟩ := Option.isSome_iff_exists.1 hfind
  obtain ⟨hends, body, after, heq, hbody⟩ := List.find?_eq_some_iff_append.1 hmark
  exact ⟨⟨body, mark, after, heq, by simpa using hbody, hends⟩⟩

namespace Cut

variable (c : Cut tokens)

theorem findIdx_eq : tokens.findIdx Token.isEnd = c.body.length := by
  obtain ⟨body, mark, after, rfl, words, ends⟩ := c
  rw [List.findIdx_append, List.findIdx_eq_length_of_false words, if_neg (Nat.lt_irrefl _),
    List.findIdx_cons, ends]
  exact Nat.zero_add _

theorem take_eq : tokens.take (tokens.findIdx Token.isEnd + 1) = c.body ++ [c.mark] := by
  rw [c.findIdx_eq]
  obtain ⟨body, mark, after, rfl, words, ends⟩ := c
  exact List.take_length_add_append 1

theorem ofTokens_eq (h : tokens.getLast?.any Token.isEnd = true) :
    Schema.ofTokens tokens = Schema.ofTokens (c.body ++ [c.mark]) := by
  obtain ⟨body, mark, after, rfl, words, ends⟩ := c
  rw [Schema.ofTokens_cut words ends h, Schema.ofTokens_cut words ends (by simp [ends])]

end Cut

/-- The schema, or the lack of one, that a run over a whole file ends with. -/
def Ending.schema : Ending (Noted (List Declaration)) → Except Schema.ReadError Schema
  | yields ds => .ok (.ofDeclarations ds.value ds.notes)
  | fails why => .error (.unfinished why)

theorem Runs.ofTokens_eq (c : Cut tokens) {ms : List Move} {e : Ending (Noted (List Declaration))}
    {j : Nat} (h : Runs tokens (statements false Declaration.statement) 0 ms e j)
    (hlast : tokens.getLast?.any Token.isEnd = true) : Schema.ofTokens tokens = e.schema := by
  have hrun := (h.agrees c (Nat.zero_le _)).outcome
  obtain ⟨body, mark, after, rfl, words, ends⟩ := c
  rw [Schema.ofTokens_cut words ends hlast]
  rw [List.drop_zero] at hrun
  rw [hrun]
  cases e <;> rfl

end Files

end Cursor

open Cursor Reader

/-- Reading a whole file in place makes the given moves and comes to the given result. -/
def Schema.ReadInPlace (tokens : List Token) (moves : List Move)
    (result : Except ReadError Schema) : Prop :=
  ∃ e j, Runs tokens (statements false Declaration.statement) 0 moves e j ∧ e.schema = result

/-- Reading in place comes to an end and gets no further than the first end token. Every recovery
leaves the first token of its statement behind, and the result is that of the tokens up to the first
end token. -/
theorem Schema.ofTokens_in_place {tokens : List Token}
    (h : tokens.getLast?.any Token.isEnd = true) :
    (∃ moves result, ReadInPlace tokens moves result) ∧
      ∀ moves result, ReadInPlace tokens moves result →
        (∀ m ∈ moves, m.Within (tokens.findIdx Token.isEnd)) ∧ result = ofTokens tokens ∧
          result = ofTokens (tokens.take (tokens.findIdx Token.isEnd + 1)) := by
  obtain ⟨c⟩ := exists_cut h
  constructor
  · obtain ⟨moves, e, j, hrun, -⟩ :=
      halts_statements c false (halts_declaration c) 0 (Nat.le_refl 0) (Nat.zero_le _)
    exact ⟨moves, e.schema, e, j, hrun, rfl⟩
  · rintro moves _ ⟨e, j, hrun, rfl⟩
    have hresult := hrun.ofTokens_eq c h
    refine ⟨?_, hresult.symm, ?_⟩
    · rw [c.findIdx_eq]
      exact (hrun.agrees c (Nat.zero_le _)).within
    · rw [c.take_eq, ← c.ofTokens_eq h, hresult]

/-- A closing brace that closes nothing, and an end token before the last one. -/
def Schema.strayBrace : List Token :=
  [⟨"\x7d", ⟨1, 1⟩⟩, ⟨";", ⟨1, 2⟩⟩, ⟨"", ⟨1, 3⟩⟩, ⟨"message", ⟨2, 1⟩⟩, ⟨"", ⟨2, 8⟩⟩]

theorem Schema.ofTokens_in_place_strayBrace :
    strayBrace.getLast?.any Token.isEnd = true ∧
      ∃ moves result, ReadInPlace strayBrace moves result ∧ Move.recover 0 1 ∈ moves ∧
        (∀ m ∈ moves, m.Within 2) ∧ result = ofTokens strayBrace ∧
          result = ofTokens (strayBrace.take 3) := by
  refine ⟨by decide, ?_⟩
  have hbrace : Runs strayBrace Declaration.statement 0 [] _ 0 := .byWord (.act .fail)
  have hword : Runs strayBrace (word ";") 1 [.put 2] (.yields ⟨";", ⟨1, 2⟩⟩) 2 :=
    .act (.token (by decide) (by decide))
  have hempty : Runs strayBrace semicolon 1 _ (.yields ()) 2 := .bind hword .pure
  have hsemicolon : Runs strayBrace Declaration.statement 1 _ (.yields ⟨none, []⟩) 2 :=
    .byWord (.bind hempty .pure)
  have hrun : Runs strayBrace (statements false Declaration.statement) 0 _ _ 2 :=
    .recovered (by decide) (Or.inl rfl) hbrace (by decide) (.pass (.skipAtBrace (by decide)))
      (.statement (by decide) (Or.inl rfl) hsemicolon (by decide) (.fileEnd (by decide)))
  obtain ⟨hmoves, hall, hcut⟩ := (ofTokens_in_place (by decide)).2 _ _ ⟨_, _, hrun, rfl⟩
  exact ⟨_, _, ⟨_, _, hrun, rfl⟩, by simp [past], hmoves, hall, hcut⟩

end ProtoSchema
