import Mathlib.Data.List.TakeWhile
import ProtoSchema.Base64

/-! # Base64 reads back

The symbols of some bytes, read group by group, give the bytes again, in either alphabet. The text
of the standard alphabet is ASCII, so its bytes are its symbols.
-/

namespace ProtoSchema.Base64

namespace Alphabet

theorem value?_symbol (a : Alphabet) {n : Nat} (h : n < 64) : a.value? (a.symbol n) = some n := by
  revert n
  cases a <;> decide

theorem symbol_ne_pad (a : Alphabet) {n : Nat} (h : n < 64) : a.symbol n ≠ pad := by
  revert n
  cases a <;> decide

theorem symbol_lt (a : Alphabet) {n : Nat} (h : n < 64) : (a.symbol n).toNat < 128 := by
  revert n
  cases a <;> decide

theorem values_map_symbol (a : Alphabet) (offset : Nat) {ns : List Nat} (h : ∀ n ∈ ns, n < 64) :
    a.values offset (ns.map a.symbol) = .ok ns := by
  induction ns generalizing offset with
  | nil => rfl
  | cons n ns ih =>
    simp only [List.map_cons, values, a.value?_symbol (h n List.mem_cons_self),
      ih (offset + 1) fun m hm => h m (List.mem_cons_of_mem _ hm)]
    rfl

end Alphabet

theorem decodeLast_symbols (a : Alphabet) (offset pads : Nat) {ns : List Nat} {bytes : List UInt8}
    (hns : ∀ n ∈ ns, n < 64) (hlen : 2 ≤ ns.length) (hg : groupBytes ns = some bytes) :
    decodeLast a offset (ns.map a.symbol ++ List.replicate pads pad) = .ok bytes := by
  have hsym : ∀ b ∈ ns.map a.symbol, (b ≠ pad : Bool) = true := by
    intro b hb
    obtain ⟨n, hn, rfl⟩ := List.mem_map.1 hb
    simpa using a.symbol_ne_pad (hns n hn)
  have htake : (ns.map a.symbol ++ List.replicate pads pad).takeWhile (· ≠ pad) =
      ns.map a.symbol := by
    rw [List.takeWhile_append_of_pos hsym]
    simp
  have hdrop : (ns.map a.symbol ++ List.replicate pads pad).dropWhile (· ≠ pad) =
      List.replicate pads pad := by
    rw [List.dropWhile_append_of_pos hsym]
    simp
  have hshort : ¬ ns.length < 2 := by omega
  simp only [decodeLast, htake, hdrop, a.values_map_symbol offset hns]
  simp [bind, Except.bind, hshort, hg]

theorem ofNat_eq_of_toNat {n : Nat} {x : UInt8} (h : n = x.toNat) : UInt8.ofNat n = x := by
  rw [h, UInt8.ofNat_toNat]

theorem groupBytes_one (x : UInt8) :
    groupBytes [x.toNat * 16 / 64, x.toNat * 16 % 64] = some [x] := by
  have hx := x.toNat_lt
  rw [groupBytes, if_pos (by omega), ofNat_eq_of_toNat (x := x) (by omega)]

theorem groupBytes_two (x y : UInt8) {n : Nat} (hn : n = (x.toNat * 256 + y.toNat) * 4) :
    groupBytes [n / 4096, n / 64 % 64, n % 64] = some [x, y] := by
  have hx := x.toNat_lt
  have hy := y.toNat_lt
  rw [groupBytes, if_pos (by omega), ofNat_eq_of_toNat (x := x) (by omega),
    ofNat_eq_of_toNat (x := y) (by omega)]

theorem groupBytes_three (x y z : UInt8) {n : Nat}
    (hn : n = (x.toNat * 256 + y.toNat) * 256 + z.toNat) :
    groupBytes [n / 262144, n / 4096 % 64, n / 64 % 64, n % 64] = some [x, y, z] := by
  have hx := x.toNat_lt
  have hy := y.toNat_lt
  have hz := z.toNat_lt
  rw [groupBytes, ofNat_eq_of_toNat (x := x) (by omega), ofNat_eq_of_toNat (x := y) (by omega),
    ofNat_eq_of_toNat (x := z) (by omega)]

theorem encodeWith_ne_nil (a : Alphabet) {bytes : List UInt8} (h : bytes ≠ []) :
    encodeWith a bytes ≠ [] := by
  fun_cases encodeWith a bytes <;> simp_all

theorem decodeGroups_encodeWith (a : Alphabet) (offset : Nat) (bytes : List UInt8) :
    decodeGroups a offset (encodeWith a bytes) = .ok bytes := by
  fun_induction encodeWith a bytes generalizing offset with
  | case1 => rfl
  | case2 x n =>
    have hx := x.toNat_lt
    exact @decodeLast_symbols a offset 2 [n / 64, n % 64] _ (by simp; omega) (by simp)
      (groupBytes_one x)
  | case3 x y n =>
    have hx := x.toNat_lt
    have hy := y.toNat_lt
    exact @decodeLast_symbols a offset 1 [n / 4096, n / 64 % 64, n % 64] _ (by simp; omega)
      (by simp) (groupBytes_two x y rfl)
  | case4 x y z rest n ih =>
    have hx := x.toNat_lt
    have hy := y.toNat_lt
    have hz := z.toNat_lt
    have hlt : ∀ m ∈ [n / 262144, n / 4096 % 64, n / 64 % 64, n % 64], m < 64 := by simp; omega
    have hg := groupBytes_three x y z (n := n) rfl
    cases rest with
    | nil => exact @decodeLast_symbols a offset 0 _ _ hlt (by simp) hg
    | cons w rest =>
      obtain ⟨b, bs, hb⟩ :=
        List.exists_cons_of_ne_nil (encodeWith_ne_nil a (List.cons_ne_nil w rest))
      have hv := a.values_map_symbol offset hlt
      rw [hb] at ih ⊢
      simp only [List.map_cons, List.map_nil] at hv
      simp [decodeGroups, bind, Except.bind, hv, ih, hg, pure, Except.pure]

theorem length_encodeWith (a : Alphabet) (bytes : List UInt8) :
    (encodeWith a bytes).length % 4 = 0 := by
  fun_induction encodeWith a bytes with
  | case1 => rfl
  | case2 => simp
  | case3 => simp
  | case4 x y z rest n ih => simp only [List.length_cons]; omega

theorem decodeWith_encodeWith (a : Alphabet) (bytes : List UInt8) :
    decodeWith a (encodeWith a bytes) = .ok bytes := by
  have hlen := length_encodeWith a bytes
  have hgroups := decodeGroups_encodeWith a 0 bytes
  unfold decodeWith
  split
  · next hlast =>
    rw [List.getLast?_eq_none_iff] at hlast
    rw [hlast] at hgroups
    exact hgroups
  · rw [if_neg (by simp [hlen]), hgroups]

theorem encodeWith_lt (a : Alphabet) (bytes : List UInt8) :
    ∀ b ∈ encodeWith a bytes, b.toNat < 128 := by
  fun_induction encodeWith a bytes with
  | case1 => simp
  | case2 x n =>
    have hx := x.toNat_lt
    simp only [List.mem_cons, List.not_mem_nil, or_false]
    rintro b (rfl | rfl | rfl | rfl)
    · exact a.symbol_lt (by omega)
    · exact a.symbol_lt (by omega)
    · decide
    · decide
  | case3 x y n =>
    have hx := x.toNat_lt
    have hy := y.toNat_lt
    simp only [List.mem_cons, List.not_mem_nil, or_false]
    rintro b (rfl | rfl | rfl | rfl)
    · exact a.symbol_lt (by omega)
    · exact a.symbol_lt (by omega)
    · exact a.symbol_lt (by omega)
    · decide
  | case4 x y z rest n ih =>
    have hx := x.toNat_lt
    have hy := y.toNat_lt
    have hz := z.toNat_lt
    simp only [List.mem_cons]
    rintro b (rfl | rfl | rfl | rfl | hb)
    · exact a.symbol_lt (by omega)
    · exact a.symbol_lt (by omega)
    · exact a.symbol_lt (by omega)
    · exact a.symbol_lt (by omega)
    · exact ih b hb

theorem utf8EncodeChar_ofNat {n : Nat} (h : n < 128) :
    String.utf8EncodeChar (Char.ofNat n) = [UInt8.ofNat n] := by
  revert n
  decide

theorem bytesOf_ascii {bytes : List UInt8} (h : ∀ b ∈ bytes, b.toNat < 128) :
    bytesOf (String.ofList (bytes.map fun b => Char.ofNat b.toNat)) = bytes := by
  rw [bytesOf, String.toList_ofList]
  induction bytes with
  | nil => rfl
  | cons b bytes ih =>
    rw [List.map_cons, List.flatMap_cons, utf8EncodeChar_ofNat (h b List.mem_cons_self),
      UInt8.ofNat_toNat, ih fun c hc => h c (List.mem_cons_of_mem _ hc), List.singleton_append]

theorem decode_encode (bytes : List UInt8) : decode (encode bytes) = .ok bytes := by
  rw [decode, encode, bytesOf_ascii (encodeWith_lt .standard bytes), decodeWith_encodeWith]

end ProtoSchema.Base64
