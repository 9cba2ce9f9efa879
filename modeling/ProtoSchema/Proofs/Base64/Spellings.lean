import Mathlib.Algebra.Group.Nat.Defs
import ProtoSchema.Proofs.Base64.RoundTrip
import ProtoSchema.Proofs.Text.ByteOrder

/-! # Spellings of bytes

Bytes have one text in each alphabet, and any part of the padding at its end may be missing. Reading
accepts these texts and no others. A text that both alphabets have stands for the same bytes in both,
so it does not matter which alphabet is tried first.
-/

namespace ProtoSchema.Base64

/-- The text of some bytes in an alphabet, with all its padding; `encode` gives the standard one. -/
def textIn (a : Alphabet) (bytes : List UInt8) : String :=
  String.ofList ((encodeWith a bytes).map fun b => Char.ofNat b.toNat)

/-- A text spells bytes if nothing but pads at its end is missing from the text of the bytes. -/
def Spells (a : Alphabet) (text : String) (bytes : List UInt8) : Prop :=
  ∃ missing, text.toList ++ List.replicate missing '=' = (textIn a bytes).toList

namespace Alphabet

variable {a a' : Alphabet} {b : UInt8} {m n : Nat}

theorem symbol_of_value? (h : a.value? b = some n) : n < 64 ∧ a.symbol n = b := by
  have hall : ∀ k < 256, ∀ m ∈ a.value? (UInt8.ofNat k),
      m < 64 ∧ a.symbol m = UInt8.ofNat k := by
    cases a <;> decide +kernel
  have hb := hall b.toNat b.toNat_lt n
  rw [UInt8.ofNat_toNat] at hb
  exact hb h

theorem value?_unique (h : a.value? b = some m) (h' : a'.value? b = some n) : m = n := by
  have hall : ∀ k < 256, ∀ m ∈ a.value? (UInt8.ofNat k), ∀ n ∈ a'.value? (UInt8.ofNat k),
      m = n := by
    cases a <;> cases a' <;> decide +kernel
  have hb := hall b.toNat b.toNat_lt m
  rw [UInt8.ofNat_toNat] at hb
  exact hb h n h'

theorem symbol_inj (hm : m < 64) (hn : n < 64) (h : a.symbol m = a'.symbol n) : m = n :=
  value?_unique (a.value?_symbol hm) (h ▸ a'.value?_symbol hn)

theorem values_eq_ok {offset : Nat} {bs : List UInt8} {ns : List Nat}
    (h : a.values offset bs = .ok ns) : bs = ns.map a.symbol ∧ ∀ n ∈ ns, n < 64 := by
  induction bs generalizing offset ns with
  | nil =>
    cases h
    simp
  | cons b bs ih =>
    rw [values] at h
    split at h
    · cases h
    · next n hn =>
      obtain ⟨hlt, rfl⟩ := symbol_of_value? hn
      cases hrest : a.values (offset + 1) bs with
      | error e =>
        rw [hrest] at h
        cases h
      | ok rest =>
        rw [hrest] at h
        cases h
        obtain ⟨rfl, hall⟩ := ih hrest
        exact ⟨rfl, List.forall_mem_cons.2 ⟨hlt, hall⟩⟩

end Alphabet

section Pads

variable {α : Type} {c : α} {s xs ys : List α} {k m : Nat}

theorem eq_append_replicate (hxs : c ∉ xs)
    (h : s ++ List.replicate k c = xs ++ List.replicate m c) :
    ∃ q, q + k = m ∧ s = xs ++ List.replicate q c := by
  induction k generalizing m with
  | zero => exact ⟨m, rfl, by simpa using h⟩
  | succ k ih =>
    cases m with
    | zero =>
      have hmem : c ∈ xs ++ List.replicate 0 c := by
        rw [← h]
        simp
      simp [hxs] at hmem
    | succ m =>
      rw [List.replicate_succ', List.replicate_succ', ← List.append_assoc, ← List.append_assoc] at h
      obtain ⟨q, rfl, hs⟩ := ih (List.append_cancel_right h)
      exact ⟨q, rfl, hs⟩

theorem append_replicate_inj (hxs : c ∉ xs) (hys : c ∉ ys)
    (h : xs ++ List.replicate k c = ys ++ List.replicate m c) : xs = ys ∧ k = m := by
  obtain ⟨q, rfl, rfl⟩ := eq_append_replicate hys h
  cases q with
  | zero => simp
  | succ q => simp [List.replicate_succ] at hxs

end Pads

variable {a a' : Alphabet} {offset : Nat} {s group bytes bytes' : List UInt8} {ns : List Nat}

theorem toNat_ofNat_of_lt {n : Nat} (h : n < 256) : (UInt8.ofNat n).toNat = n := by
  rw [UInt8.toNat_ofNat', Nat.mod_eq_of_lt h]

theorem encodeWith_of_groupBytes (hns : ∀ n ∈ ns, n < 64) (h : groupBytes ns = some bytes)
    (a : Alphabet) :
    (2 ≤ ns.length ∧ ns.length ≤ 4) ∧
      encodeWith a bytes = ns.map a.symbol ++ List.replicate (4 - ns.length) pad := by
  unfold groupBytes at h
  split at h
  · next p q =>
    obtain ⟨hp, hq⟩ : p < 64 ∧ q < 64 := by simpa using hns
    split at h
    · cases h
      have hx := toNat_ofNat_of_lt (show p * 4 + q / 16 < 256 by omega)
      have h₁ : (p * 4 + q / 16) * 16 / 64 = p := by omega
      have h₂ : (p * 4 + q / 16) * 16 % 64 = q := by omega
      simp only [encodeWith, hx, h₁, h₂]
      exact ⟨by simp, rfl⟩
    · cases h
  · next p q r =>
    obtain ⟨hp, hq, hr⟩ : p < 64 ∧ q < 64 ∧ r < 64 := by simpa using hns
    split at h
    · cases h
      have hx := toNat_ofNat_of_lt (show p * 4 + q / 16 < 256 by omega)
      have hy := toNat_ofNat_of_lt (show q % 16 * 16 + r / 4 < 256 by omega)
      obtain ⟨n, hn⟩ : ∃ n, n = ((p * 4 + q / 16) * 256 + (q % 16 * 16 + r / 4)) * 4 := ⟨_, rfl⟩
      have h₁ : n / 4096 = p := by omega
      have h₂ : n / 64 % 64 = q := by omega
      have h₃ : n % 64 = r := by omega
      simp only [encodeWith, hx, hy, ← hn, h₁, h₂, h₃]
      exact ⟨by simp, rfl⟩
    · cases h
  · next p q r t =>
    obtain ⟨hp, hq, hr, ht⟩ : p < 64 ∧ q < 64 ∧ r < 64 ∧ t < 64 := by simpa using hns
    cases h
    have hx := toNat_ofNat_of_lt (show p * 4 + q / 16 < 256 by omega)
    have hy := toNat_ofNat_of_lt (show q % 16 * 16 + r / 4 < 256 by omega)
    have hz := toNat_ofNat_of_lt (show r % 4 * 64 + t < 256 by omega)
    obtain ⟨n, hn⟩ : ∃ n, n = ((p * 4 + q / 16) * 256 + (q % 16 * 16 + r / 4)) * 256 +
        (r % 4 * 64 + t) := ⟨_, rfl⟩
    have h₁ : n / 262144 = p := by omega
    have h₂ : n / 4096 % 64 = q := by omega
    have h₃ : n / 64 % 64 = r := by omega
    have h₄ : n % 64 = t := by omega
    simp only [encodeWith, hx, hy, hz, ← hn, h₁, h₂, h₃, h₄]
    exact ⟨by simp, rfl⟩
  · cases h

theorem exists_of_decodeLast (h : decodeLast a offset group = .ok bytes) :
    ∃ ns pads, group = ns.map a.symbol ++ List.replicate pads pad ∧ (∀ n ∈ ns, n < 64) ∧
      groupBytes ns = some bytes := by
  unfold decodeLast at h
  dsimp only at h
  rw [← List.takeWhile_append_dropWhile (p := fun b : UInt8 => decide (b ≠ pad)) (l := group)]
  generalize group.takeWhile (fun b : UInt8 => decide (b ≠ pad)) = symbols at h ⊢
  generalize group.dropWhile (fun b : UInt8 => decide (b ≠ pad)) = padding at h ⊢
  cases hns : a.values offset symbols with
  | error e =>
    rw [hns] at h
    cases h
  | ok ns =>
    obtain ⟨rfl, hlt⟩ := Alphabet.values_eq_ok hns
    rw [hns] at h
    simp only [bind, Except.bind] at h
    split at h
    · cases h
    · next hpadding =>
      have hpads : ∀ b ∈ padding, b = pad := by
        intro b hb
        by_contra hne
        apply hpadding
        have hany : padding.any (· ≠ pad) = true := List.any_eq_true.2 ⟨b, hb, by simpa using hne⟩
        simp only [hany, Bool.or_true, Bool.and_true, Bool.not_eq_true', List.isEmpty_eq_false_iff]
        exact List.ne_nil_of_mem hb
      split at h
      · cases h
      · split at h
        · next found hfound =>
          cases h
          exact ⟨ns, padding.length, by rw [← List.eq_replicate_of_mem hpads], hlt, hfound⟩
        · cases h

theorem decodeGroups_of_length (h : s ≠ []) (hlen : s.length ≤ 4) :
    decodeGroups a offset s = decodeLast a offset s := by
  fun_cases decodeGroups a offset s
  · contradiction
  · simp only [List.length_cons] at hlen
    omega
  · rfl

theorem encodeWith_append (a : Alphabet) (x y z : UInt8) (rest : List UInt8) :
    encodeWith a ([x, y, z] ++ rest) = encodeWith a [x, y, z] ++ encodeWith a rest := by
  simp [encodeWith]

theorem exists_groupBytes (h : ns.length = 4) : ∃ x y z, groupBytes ns = some [x, y, z] := by
  rcases ns with _ | ⟨p, _ | ⟨q, _ | ⟨r, _ | ⟨t, _ | ⟨u, ns⟩⟩⟩⟩⟩ <;> cases h
  exact ⟨_, _, _, rfl⟩

/-- Whatever is read lacks only pads at the end of what its bytes are written as. -/
theorem exists_pads_of_decodeGroups (h : decodeGroups a offset s = .ok bytes) :
    ∃ k, s ++ List.replicate k pad = encodeWith a bytes := by
  fun_induction decodeGroups a offset s generalizing bytes with
  | case1 =>
    cases h
    exact ⟨0, rfl⟩
  | case2 offset b₀ b₁ b₂ b₃ b₄ rest ih =>
    cases hns : a.values offset [b₀, b₁, b₂, b₃] with
    | error e =>
      rw [hns] at h
      cases h
    | ok ns =>
      cases hrest : decodeGroups a (offset + 4) (b₄ :: rest) with
      | error e =>
        rw [hns, hrest] at h
        cases h
      | ok more =>
        rw [hns, hrest] at h
        cases h
        obtain ⟨hsymbols, hlt⟩ := Alphabet.values_eq_ok hns
        have hlen : ns.length = 4 := by simpa using (congrArg List.length hsymbols).symm
        obtain ⟨x, y, z, hbytes⟩ := exists_groupBytes hlen
        obtain ⟨-, hgroup⟩ := encodeWith_of_groupBytes hlt hbytes a
        rw [hlen, ← hsymbols] at hgroup
        obtain ⟨k, hk⟩ := ih hrest
        refine ⟨k, ?_⟩
        rw [hbytes, Option.getD_some, encodeWith_append, hgroup, ← hk]
        rfl
  | case3 offset group hnil hlong =>
    obtain ⟨ns, pads, hgroup, hlt, hbytes⟩ := exists_of_decodeLast h
    obtain ⟨-, hencode⟩ := encodeWith_of_groupBytes hlt hbytes a
    have hshort : group.length ≤ 4 := by
      rcases group with _ | ⟨b₀, _ | ⟨b₁, _ | ⟨b₂, _ | ⟨b₃, _ | ⟨b₄, rest⟩⟩⟩⟩⟩
      · simp
      · simp
      · simp
      · simp
      · simp
      · exact (hlong _ _ _ _ _ _ rfl).elim
    have hlen : ns.length + pads ≤ 4 := by simpa [hgroup] using hshort
    refine ⟨4 - ns.length - pads, ?_⟩
    rw [hgroup, hencode, List.append_assoc, List.replicate_append_replicate,
      Nat.add_sub_cancel' (by omega)]

theorem pad_notMem_symbols (a : Alphabet) (hns : ∀ n ∈ ns, n < 64) : pad ∉ ns.map a.symbol := by
  intro h
  obtain ⟨n, hn, hpad⟩ := List.mem_map.1 h
  exact a.symbol_ne_pad (hns n hn) hpad

theorem decodeGroups_of_groupBytes (hns : ∀ n ∈ ns, n < 64) (hbytes : groupBytes ns = some bytes)
    {k : Nat} (h : s ++ List.replicate k pad = encodeWith a bytes) (offset : Nat) :
    decodeGroups a offset s = .ok bytes := by
  obtain ⟨⟨htwo, hfour⟩, hencode⟩ := encodeWith_of_groupBytes hns hbytes a
  rw [hencode] at h
  obtain ⟨q, hq, rfl⟩ := eq_append_replicate (pad_notMem_symbols a hns) h
  rw [decodeGroups_of_length]
  · exact decodeLast_symbols a offset q hns htwo hbytes
  · apply List.ne_nil_of_length_pos
    simp only [List.length_append, List.length_map]
    omega
  · simp only [List.length_append, List.length_map, List.length_replicate]
    omega

theorem exists_symbol_of_ne_nil (a : Alphabet) (h : bytes ≠ []) :
    ∃ b ∈ encodeWith a bytes, b ≠ pad := by
  rcases bytes with _ | ⟨x, _ | ⟨y, _ | ⟨z, rest⟩⟩⟩
  · contradiction
  all_goals
    refine ⟨_, List.mem_cons_self, a.symbol_ne_pad ?_⟩
    have := x.toNat_lt
  · omega
  · have := y.toNat_lt
    omega
  · have := y.toNat_lt
    have := z.toNat_lt
    omega

/-- Groups are read with any part of the padding of the last one. -/
theorem decodeGroups_of_append_pads {k : Nat} (h : s ++ List.replicate k pad = encodeWith a bytes)
    (offset : Nat) : decodeGroups a offset s = .ok bytes := by
  induction bytes using encodeWith.induct generalizing s offset with
  | case1 =>
    obtain ⟨rfl, -⟩ := List.append_eq_nil_iff.1 h
    rfl
  | case2 x =>
    have hx := x.toNat_lt
    exact decodeGroups_of_groupBytes (by simp; omega) (groupBytes_one x) h offset
  | case3 x y =>
    have hx := x.toNat_lt
    have hy := y.toNat_lt
    exact decodeGroups_of_groupBytes (by simp; omega) (groupBytes_two x y rfl) h offset
  | case4 x y z rest ih =>
    have hx := x.toNat_lt
    have hy := y.toNat_lt
    have hz := z.toNat_lt
    have hgroup := groupBytes_three x y z rfl
    obtain ⟨n, hn⟩ : ∃ n, n = (x.toNat * 256 + y.toNat) * 256 + z.toNat := ⟨_, rfl⟩
    rw [← hn] at hgroup
    have hlt : ∀ m ∈ [n / 262144, n / 4096 % 64, n / 64 % 64, n % 64], m < 64 := by simp; omega
    cases rest with
    | nil => exact decodeGroups_of_groupBytes hlt hgroup h offset
    | cons w rest =>
      obtain ⟨b, hb, hne⟩ := exists_symbol_of_ne_nil a (List.cons_ne_nil w rest)
      have hfour : encodeWith a (x :: y :: z :: w :: rest) =
          [n / 262144, n / 4096 % 64, n / 64 % 64, n % 64].map a.symbol ++ encodeWith a (w :: rest) := by
        rw [encodeWith, ← hn]
        rfl
      rw [hfour] at h
      -- Not all that follows the group is padding, so the text goes on behind it.
      rcases List.append_eq_append_iff.1 h with ⟨cut, -, hcut⟩ | ⟨more, rfl, hmore⟩
      · have hpad : b ∈ List.replicate k pad := hcut ▸ List.mem_append_right cut hb
        exact absurd (List.eq_of_mem_replicate hpad) hne
      · cases more with
        | nil =>
          have hpad : b ∈ [] ++ List.replicate k pad := hmore ▸ hb
          exact absurd (List.eq_of_mem_replicate hpad) hne
        | cons b₄ more =>
          have hrest := ih hmore.symm (offset + 4)
          have hvalues := a.values_map_symbol offset hlt
          simp only [List.map_cons, List.map_nil] at hvalues
          simp [decodeGroups, bind, Except.bind, hvalues, hrest, hgroup, pure, Except.pure]

/-- How many symbols are missing to the end of the last group. -/
def lacking (n : Nat) : Nat := (4 - n % 4) % 4

/-- The numbers of some bytes, and the pads that fill the last group. Its last number has no bit that
belongs to no byte. -/
structure Grouped (ns : List Nat) (pads : Nat) : Prop where
  lt : ∀ n ∈ ns, n < 64
  fill : pads = lacking ns.length
  le_two : pads ≤ 2
  bits : ∀ n ∈ ns.getLast?, n % 4 ^ pads = 0

theorem exists_grouped (bytes : List UInt8) : ∃ ns pads, Grouped ns pads ∧
    ∀ a, encodeWith a bytes = ns.map a.symbol ++ List.replicate pads pad := by
  induction bytes using encodeWith.induct with
  | case1 => exact ⟨[], 0, ⟨by simp, rfl, by omega, by simp⟩, fun _ => rfl⟩
  | case2 x =>
    have hx := x.toNat_lt
    exact ⟨[_, _], 2, ⟨by simp; omega, rfl, le_rfl, by simp⟩, fun _ => rfl⟩
  | case3 x y =>
    have hx := x.toNat_lt
    have hy := y.toNat_lt
    exact ⟨[_, _, _], 1, ⟨by simp; omega, rfl, by omega, by simp⟩, fun _ => rfl⟩
  | case4 x y z rest ih =>
    have hx := x.toNat_lt
    have hy := y.toNat_lt
    have hz := z.toNat_lt
    obtain ⟨n, hn⟩ : ∃ n, n = (x.toNat * 256 + y.toNat) * 256 + z.toNat := ⟨_, rfl⟩
    obtain ⟨ns, pads, ⟨hlt, hpads, htwo, hbits⟩, hrest⟩ := ih
    refine ⟨[n / 262144, n / 4096 % 64, n / 64 % 64, n % 64] ++ ns, pads, ⟨?_, ?_, htwo, ?_⟩, ?_⟩
    · rw [List.forall_mem_append]
      exact ⟨by simp; omega, hlt⟩
    · simp only [hpads, lacking, List.length_append, List.length_cons, List.length_nil]
      omega
    · intro m hm
      cases ns with
      | nil =>
        obtain rfl : pads = 0 := hpads
        exact Nat.mod_one m
      | cons n' ns => exact hbits m (by simpa using hm)
    · intro a
      rw [encodeWith, hrest a, ← hn]
      rfl

theorem decodeWith_eq_ok_iff :
    decodeWith a s = .ok bytes ↔ ∃ k, s ++ List.replicate k pad = encodeWith a bytes := by
  constructor
  · intro h
    unfold decodeWith at h
    split at h
    · next hlast =>
      cases h
      exact ⟨0, by rw [List.getLast?_eq_none_iff.1 hlast]; rfl⟩
    · split at h
      · cases h
      · exact exists_pads_of_decodeGroups h
  · rintro ⟨k, h⟩
    have hgroups := decodeGroups_of_append_pads h 0
    unfold decodeWith
    split
    · next hlast =>
      rw [List.getLast?_eq_none_iff.1 hlast] at hgroups
      exact hgroups
    · next last hlast =>
      rw [if_neg, hgroups]
      intro hlone
      obtain ⟨ns, pads, hns, hencode⟩ := exists_grouped bytes
      have hmem : last ∈ ns.map a.symbol ++ List.replicate pads pad := by
        rw [← hencode a, ← h]
        exact List.mem_append_left _ (List.mem_of_getLast? hlast)
      simp only [Bool.and_eq_true, decide_eq_true_eq, Option.isNone_iff_eq_none] at hlone
      obtain ⟨⟨-, hpad⟩, hnone⟩ := hlone
      rcases List.mem_append.1 hmem with hsymbol | hreplicate
      · obtain ⟨n, hn, rfl⟩ := List.mem_map.1 hsymbol
        rw [a.value?_symbol (hns.lt n hn)] at hnone
        cases hnone
      · exact hpad (List.eq_of_mem_replicate hreplicate)

theorem bytesOf_injective {text text' : String} (h : bytesOf text = bytesOf text') :
    text = text' := by
  rw [bytesOf, bytesOf, ← Text.utf8_eq_flatMap, ← Text.utf8_eq_flatMap, Text.utf8, Text.utf8,
    Array.toList_inj, ByteArray.ext_iff.symm] at h
  exact String.toByteArray_inj.1 h

theorem bytesOf_append_pads (text : String) (k : Nat) :
    bytesOf (String.ofList (text.toList ++ List.replicate k '=')) =
      bytesOf text ++ List.replicate k pad := by
  have hpads : (List.replicate k '=').flatMap String.utf8EncodeChar = List.replicate k pad := by
    induction k with
    | zero => rfl
    | succ k ih =>
      rw [List.replicate_succ, List.flatMap_cons, ih]
      rfl
  rw [bytesOf, bytesOf, String.toList_ofList, List.flatMap_append, hpads]

theorem spells_iff {text : String} :
    Spells a text bytes ↔ ∃ k, bytesOf text ++ List.replicate k pad = encodeWith a bytes := by
  have hbytes := bytesOf_ascii (encodeWith_lt a bytes)
  constructor
  · rintro ⟨k, h⟩
    refine ⟨k, ?_⟩
    rw [← bytesOf_append_pads, h, textIn, String.toList_ofList, hbytes]
  · rintro ⟨k, h⟩
    refine ⟨k, ?_⟩
    rw [← bytesOf_append_pads, ← hbytes] at h
    rw [textIn, ← bytesOf_injective h, String.toList_ofList]

/-- The character of a number below 64. -/
def Alphabet.char (a : Alphabet) (n : Nat) : Char := Char.ofNat (a.symbol n).toNat

theorem Alphabet.char_inj {m n : Nat} (hm : m < 64) (hn : n < 64) (h : a.char m = a'.char n) :
    m = n := by
  have htoNat : ∀ n < 128, (Char.ofNat n).toNat = n := by decide
  have hsymbol := congrArg Char.toNat h
  rw [char, char, htoNat _ (a.symbol_lt hm), htoNat _ (a'.symbol_lt hn), UInt8.toNat_inj] at hsymbol
  exact symbol_inj hm hn hsymbol

theorem pad_notMem_chars (a : Alphabet) (hns : ∀ n ∈ ns, n < 64) : '=' ∉ ns.map a.char := by
  have hchar : ∀ n < 64, a.char n ≠ '=' := by cases a <;> decide
  intro h
  obtain ⟨n, hn, hpad⟩ := List.mem_map.1 h
  exact hchar n (hns n hn) hpad

theorem map_char_inj {ns' : List Nat} (hns : ∀ n ∈ ns, n < 64) (hns' : ∀ n ∈ ns', n < 64)
    (h : ns.map a.char = ns'.map a'.char) : ns = ns' := by
  induction ns generalizing ns' with
  | nil => simpa using h
  | cons n ns ih =>
    cases ns' with
    | nil => cases h
    | cons n' ns' =>
      obtain ⟨hn, hns⟩ := List.forall_mem_cons.1 hns
      obtain ⟨hn', hns'⟩ := List.forall_mem_cons.1 hns'
      obtain ⟨hchar, hchars⟩ := List.cons.inj h
      rw [Alphabet.char_inj hn hn' hchar, ih hns hns' hchars]

/-- A spelling shows all numbers of its bytes and some of the pads. -/
theorem Spells.exists_grouped {text : String} (h : Spells a text bytes) :
    ∃ ns pads shown, Grouped ns pads ∧ shown ≤ pads ∧
      (∀ b, encodeWith b bytes = ns.map b.symbol ++ List.replicate pads pad) ∧
      text.toList = ns.map a.char ++ List.replicate shown '=' := by
  obtain ⟨ns, pads, hns, hencode⟩ := Base64.exists_grouped bytes
  obtain ⟨k, hk⟩ := h
  have hpad : Char.ofNat pad.toNat = '=' := rfl
  have htext : (textIn a bytes).toList = ns.map a.char ++ List.replicate pads '=' := by
    rw [textIn, String.toList_ofList, hencode a, List.map_append, List.map_map, List.map_replicate,
      hpad]
    rfl
  rw [htext] at hk
  obtain ⟨shown, rfl, hshown⟩ := eq_append_replicate (pad_notMem_chars a hns.lt) hk
  exact ⟨ns, _, shown, hns, Nat.le_add_right shown k, hencode, hshown⟩

theorem Spells.eq {text : String} (h : Spells a text bytes) (h' : Spells a' text bytes') :
    bytes = bytes' := by
  obtain ⟨ns, pads, shown, hns, -, hencode, htext⟩ := h.exists_grouped
  obtain ⟨ns', pads', shown', hns', -, hencode', htext'⟩ := h'.exists_grouped
  rw [htext] at htext'
  obtain ⟨hchars, -⟩ :=
    append_replicate_inj (pad_notMem_chars a hns.lt) (pad_notMem_chars a' hns'.lt) htext'
  obtain rfl := map_char_inj hns.lt hns'.lt hchars
  obtain rfl : pads = pads' := hns.fill.trans hns'.fill.symm
  have hsame : encodeWith a bytes = encodeWith a bytes' := by rw [hencode, hencode']
  have hdecode := decodeWith_encodeWith a bytes
  rw [hsame, decodeWith_encodeWith] at hdecode
  exact (Except.ok.inj hdecode).symm

/-- The alphabet that is tried first decides nothing: whichever reads the text gives the result. -/
theorem decode_eq_ok_iff {text : String} :
    decode text = .ok bytes ↔ ∃ a, decodeWith a (bytesOf text) = .ok bytes := by
  constructor
  · intro h
    unfold decode at h
    dsimp only at h
    split at h
    · next hstandard =>
      cases h
      exact ⟨.standard, hstandard⟩
    · split at h
      · next hurlSafe =>
        cases h
        exact ⟨.urlSafe, hurlSafe⟩
      · cases h
  · rintro ⟨a, ha⟩
    cases hstandard : decodeWith .standard (bytesOf text) with
    | ok found =>
      have hspells := spells_iff.2 (decodeWith_eq_ok_iff.1 hstandard)
      rw [(spells_iff.2 (decodeWith_eq_ok_iff.1 ha)).eq hspells]
      simp [decode, hstandard]
    | error fault =>
      cases a with
      | standard =>
        rw [hstandard] at ha
        cases ha
      | urlSafe => simp [decode, hstandard, ha]

/-- Texts with something wrong that can be seen without reading them. -/
inductive Faulty : List Char → Prop
  /-- Each of two symbols belongs to one alphabet alone, and not to the same. -/
  | mixed {cs : List Char} {c d : Char} (hc : c ∈ cs) (hd : d ∈ cs)
      (standard : c = '+' ∨ c = '/') (urlSafe : d = '-' ∨ d = '_') : Faulty cs
  /-- The last symbol stands alone in its group. -/
  | length {symbols : List Char} (h : '=' ∉ symbols) (pads : Nat)
      (hlone : symbols.length % 4 = 1) : Faulty (symbols ++ List.replicate pads '=')
  /-- Something follows a pad. -/
  | inside (before after : List Char) {c : Char} (h : c ≠ '=') :
      Faulty (before ++ '=' :: c :: after)
  /-- There are more pads than the last group has room for. -/
  | excess {symbols : List Char} (h : '=' ∉ symbols) {pads : Nat}
      (hmore : lacking symbols.length < pads) : Faulty (symbols ++ List.replicate pads '=')
  /-- The last symbol has a bit that belongs to no byte. -/
  | bits {symbols : List Char} (h : '=' ∉ symbols) (pads : Nat) (a : Alphabet) {n : Nat}
      (hn : n < 64) (hlast : n % 4 ^ lacking (symbols.length + 1) ≠ 0) :
      Faulty (symbols ++ a.char n :: List.replicate pads '=')

theorem exists_of_mem_shown {c : Char} (hc : c ≠ '=') {shown : Nat}
    (h : c ∈ ns.map a.char ++ List.replicate shown '=') : ∃ n ∈ ns, a.char n = c := by
  rcases List.mem_append.1 h with hsymbol | hpad
  · exact List.mem_map.1 hsymbol
  · exact absurd (List.eq_of_mem_replicate hpad) hc

theorem not_spells_of_faulty {text : String} (h : Faulty text.toList) : ¬ Spells a text bytes := by
  intro hspells
  obtain ⟨ns, pads, shown, hns, hshown, -, htext⟩ := hspells.exists_grouped
  have hsymbols := pad_notMem_chars a hns.lt
  rw [htext] at h
  generalize hcs : ns.map a.char ++ List.replicate shown '=' = cs at h
  cases h with
  | @mixed _ c d hc hd standard urlSafe =>
    have hstandard : ∀ n < 64, a.char n = '+' ∨ a.char n = '/' → a = .standard := by
      cases a <;> decide
    have hurlSafe : ∀ n < 64, a.char n = '-' ∨ a.char n = '_' → a = .urlSafe := by
      cases a <;> decide
    rw [← hcs] at hc hd
    obtain ⟨m, hm, rfl⟩ := exists_of_mem_shown (by rintro rfl; simp at standard) hc
    obtain ⟨n, hn, rfl⟩ := exists_of_mem_shown (by rintro rfl; simp at urlSafe) hd
    have h₁ := hstandard m (hns.lt m hm) standard
    have h₂ := hurlSafe n (hns.lt n hn) urlSafe
    rw [h₁] at h₂
    cases h₂
  | length hpad k hlone =>
    obtain ⟨rfl, rfl⟩ := append_replicate_inj hsymbols hpad hcs
    have hfill := hns.fill
    have htwo := hns.le_two
    rw [List.length_map] at hlone
    unfold lacking at hfill
    omega
  | inside before after hc =>
    have hpairwise : (ns.map a.char ++ List.replicate shown '=').Pairwise
        fun x y => x = '=' → y = '=' := by
      rw [List.pairwise_append]
      refine ⟨?_, ?_, ?_⟩
      · exact List.pairwise_of_forall_mem_list fun x hx y _ hxpad => absurd (hxpad ▸ hx) hsymbols
      · exact List.pairwise_replicate.2 (.inr fun _ => rfl)
      · exact fun x hx y _ hxpad => absurd (hxpad ▸ hx) hsymbols
    rw [hcs] at hpairwise
    have hafter := List.rel_of_pairwise_cons (List.pairwise_append.1 hpairwise).2.1
      (List.mem_cons_self (a := _) (l := after))
    exact hc (hafter rfl)
  | @excess symbols hpad k hmore =>
    obtain ⟨rfl, rfl⟩ := append_replicate_inj hsymbols hpad hcs
    have hfill := hns.fill
    rw [List.length_map] at hmore
    omega
  | @bits symbols hpad k b n hn hlast =>
    have hb : '=' ∉ [n].map b.char := pad_notMem_chars b (by simpa using hn)
    rw [← List.singleton_append, ← List.append_assoc] at hcs
    obtain ⟨hall, -⟩ := append_replicate_inj hsymbols (by simpa [hpad] using hb) hcs
    have hlength : ns.length = symbols.length + 1 := by simpa using congrArg List.length hall
    have hgetLast : (ns.map a.char).getLast? = some (b.char n) := by rw [hall, List.getLast?_concat]
    rw [List.getLast?_map, Option.map_eq_some_iff] at hgetLast
    obtain ⟨v, hv, hchar⟩ := hgetLast
    obtain rfl := Alphabet.char_inj (hns.lt v (List.mem_of_getLast? hv)) hn hchar
    rw [← hlength, ← hns.fill] at hlast
    exact hlast (hns.bits v hv)

/-- Reading accepts just the spellings of bytes in one of the alphabets, and each alphabet accepts its
own. No text spells different bytes, so it makes no difference which alphabet comes first. A text is
refused if it mixes the alphabets, if its number of symbols is impossible, if a pad is not at its
place, or if a bit is set that belongs to no byte. -/
theorem decode_eq_ok_iff_spells (text : String) :
    (∀ bytes, decode text = .ok bytes ↔ ∃ a, Spells a text bytes) ∧
      (∀ a bytes, decodeWith a (bytesOf text) = .ok bytes ↔ Spells a text bytes) ∧
      (∀ a a' bytes bytes', Spells a text bytes → Spells a' text bytes' → bytes = bytes') ∧
      (Faulty text.toList → ∃ fault, decode text = .error fault) := by
  have heach (a : Alphabet) (bytes : List UInt8) :
      decodeWith a (bytesOf text) = .ok bytes ↔ Spells a text bytes :=
    decodeWith_eq_ok_iff.trans spells_iff.symm
  have hdecode (bytes : List UInt8) : decode text = .ok bytes ↔ ∃ a, Spells a text bytes := by
    simp only [← heach]
    exact decode_eq_ok_iff
  refine ⟨hdecode, heach, fun a a' bytes bytes' => Spells.eq, fun hfaulty => ?_⟩
  cases h : decode text with
  | error fault => exact ⟨fault, rfl⟩
  | ok bytes =>
    obtain ⟨a, ha⟩ := (hdecode bytes).1 h
    exact absurd ha (not_spells_of_faulty hfaulty)

end ProtoSchema.Base64
