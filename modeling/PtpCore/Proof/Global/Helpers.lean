import PtpCore.Global.Helpers

/-!
# Numbers and bytes as text

A number that was printed is read back (`atoiDigits_decimal`, `string2int_int2string`), so two
numbers with the same digits are the same. Bytes in hexadecimal are read back by `hex_to_string`,
once the `0x` before them is gone (`hexToString_drop_bytesToHex`).
-/

namespace PtpCore
namespace Proof
namespace Global

open Lib PtpCore.Global

/-- The byte of a digit. -/
def digit (n : Nat) : UInt8 := UInt8.ofNat (0x30 + n)

def IsDigit (x : UInt8) : Prop := 0x30 ≤ x ∧ x ≤ 0x39

theorem isDigit_digit {n : Nat} (h : n < 10) :
    IsDigit (digit n) ∧ (digit n).toNat - 0x30 = n ∧ UInt8.ofNat n.digitChar.toNat = digit n := by
  have hall : ∀ n, n < 10 → (0x30 ≤ digit n ∧ digit n ≤ 0x39) ∧ (digit n).toNat - 0x30 = n ∧
      UInt8.ofNat n.digitChar.toNat = digit n := by
    decide
  exact hall n h

theorem decimal_of_lt {n : Nat} (h : n < 10) : decimal n = [digit n] := by
  simp [decimal, Nat.toDigits_of_lt_base h, (isDigit_digit h).2.2]

theorem decimal_of_le {n : Nat} (h : 10 ≤ n) :
    decimal n = decimal (n / 10) ++ [digit (n % 10)] := by
  have hmod : n % 10 < 10 := Nat.mod_lt n (by decide)
  simp [decimal, Nat.toDigits_of_base_le (by decide) h, (isDigit_digit hmod).2.2]

theorem isDigit_of_mem_decimal (n : Nat) : ∀ x ∈ decimal n, IsDigit x := by
  induction n using Nat.strongRecOn with
  | ind n ih =>
    intro x hx
    by_cases h : n < 10
    · rw [decimal_of_lt h, List.mem_singleton] at hx
      rw [hx]
      exact (isDigit_digit h).1
    · rw [decimal_of_le (Nat.not_lt.mp h), List.mem_append, List.mem_singleton] at hx
      rcases hx with hx | rfl
      · exact ih (n / 10) (by omega) x hx
      · exact (isDigit_digit (Nat.mod_lt n (by decide))).1

theorem decimal_ne_nil (n : Nat) : decimal n ≠ [] := by
  simp [decimal, Nat.toDigits_ne_nil]

theorem atoiDigits_concat {xs : Bytes} {x : UInt8} (hxs : ∀ y ∈ xs, IsDigit y) (hx : IsDigit x)
    (acc : Nat) : atoiDigits acc (xs ++ [x]) = atoiDigits acc xs * 10 + (x.toNat - 0x30) := by
  induction xs generalizing acc with
  | nil => exact if_pos hx
  | cons y ys ih =>
    have hy : IsDigit y := hxs y (by simp)
    unfold IsDigit at hy
    rw [List.cons_append, atoiDigits, if_pos hy, atoiDigits, if_pos hy]
    exact ih (fun z hz => hxs z (by simp [hz])) _

theorem atoiDigits_decimal (n : Nat) : atoiDigits 0 (decimal n) = n := by
  induction n using Nat.strongRecOn with
  | ind n ih =>
    by_cases h : n < 10
    · obtain ⟨hdigit, hval, -⟩ := isDigit_digit h
      rw [decimal_of_lt h, ← List.nil_append [digit n], atoiDigits_concat (by simp) hdigit, hval]
      exact Nat.zero_add n
    · have hdigit := isDigit_digit (Nat.mod_lt n (show 0 < 10 by decide))
      rw [decimal_of_le (Nat.not_lt.mp h),
        atoiDigits_concat (isDigit_of_mem_decimal (n / 10)) hdigit.1, ih (n / 10) (by omega),
        hdigit.2.1]
      omega

theorem decimal_injective {m n : Nat} (h : decimal m = decimal n) : m = n := by
  rw [← atoiDigits_decimal m, ← atoiDigits_decimal n, h]

theorem atoiDigits_decimal_append (acc n : Nat) :
    atoiDigits acc (decimal n) = acc * 10 ^ (decimal n).length + n := by
  induction n using Nat.strongRecOn with
  | ind n ih =>
    by_cases h : n < 10
    · obtain ⟨hdigit, hval, -⟩ := isDigit_digit h
      rw [decimal_of_lt h, ← List.nil_append [digit n], atoiDigits_concat (by simp) hdigit, hval]
      simp [atoiDigits]
    · have hdigit := isDigit_digit (Nat.mod_lt n (show 0 < 10 by decide))
      rw [decimal_of_le (Nat.not_lt.mp h),
        atoiDigits_concat (isDigit_of_mem_decimal (n / 10)) hdigit.1, ih (n / 10) (by omega),
        hdigit.2.1, List.length_append, List.length_singleton, Nat.pow_succ, ← Nat.mul_assoc,
        Nat.add_mul]
      omega

/-- How many digits a number has. -/
theorem length_decimal_bounds (n : Nat) :
    n < 10 ^ (decimal n).length ∧ (n ≠ 0 → 10 ^ ((decimal n).length - 1) ≤ n) := by
  induction n using Nat.strongRecOn with
  | ind n ih =>
    by_cases h : n < 10
    · rw [decimal_of_lt h]
      simpa using ⟨h, Nat.one_le_iff_ne_zero.mpr⟩
    · obtain ⟨hhi, hlo⟩ := ih (n / 10) (by omega)
      have hpos := List.length_pos_iff.mpr (decimal_ne_nil (n / 10))
      have hlo := hlo (by omega)
      rw [decimal_of_le (Nat.not_lt.mp h), List.length_append, List.length_singleton,
        Nat.add_sub_cancel, Nat.pow_succ]
      obtain ⟨k, hk⟩ := Nat.exists_eq_add_of_lt hpos
      rw [Nat.zero_add] at hk
      rw [hk, Nat.add_sub_cancel] at hlo
      rw [hk, Nat.pow_succ] at hhi ⊢
      omega

theorem length_decimal_le {m n : Nat} (h : m ≤ n) : (decimal m).length ≤ (decimal n).length := by
  induction n using Nat.strongRecOn generalizing m with
  | ind n ih =>
    by_cases hm : m < 10
    · rw [decimal_of_lt hm]
      exact List.length_pos_iff.mpr (decimal_ne_nil n)
    · have hn : 10 ≤ n := by omega
      rw [decimal_of_le (Nat.not_lt.mp hm), decimal_of_le hn, List.length_append,
        List.length_append]
      exact Nat.add_le_add_right (ih (n / 10) (by omega) (Nat.div_le_div_right h)) 1

/-- A digit is neither a sign nor a space. -/
theorem IsDigit.ne {x : UInt8} (h : IsDigit x) :
    x ≠ 0 ∧ x ≠ 0x2d ∧ x ≠ 0x2b ∧ Toolbox.isSpace x = false := by
  have hlo : 0x30 ≤ x.toNat := UInt8.le_iff_toNat_le.mp h.1
  refine ⟨?_, ?_, ?_, ?_⟩
  · rintro rfl
    exact absurd hlo (by decide)
  · rintro rfl
    exact absurd hlo (by decide)
  · rintro rfl
    exact absurd hlo (by decide)
  · have hspace : ¬ x = 0x20 := by
      rintro rfl
      exact absurd hlo (by decide)
    have htab : ¬ x ≤ 0x0d := by
      intro hle
      have hhi : x.toNat ≤ 0x0d := UInt8.le_iff_toNat_le.mp hle
      omega
    simp [Toolbox.isSpace, hspace, htab]

/-- A number without a sign. -/
theorem atoi_eq {text rest : Bytes} {x : UInt8} (h : text.dropWhile Toolbox.isSpace = x :: rest)
    (hminus : x ≠ 0x2d) (hplus : x ≠ 0x2b) :
    atoi text = (min (atoiDigits 0 (x :: rest)) (2 ^ 63 - 1) : Nat) := by
  unfold atoi
  rw [h]
  split
  · rename_i heq
    exact absurd (List.cons.inj heq).1 hminus
  · rename_i heq
    exact absurd (List.cons.inj heq).1 hplus
  · rfl

theorem atoi_of_digits {text : Bytes} (hne : text ≠ []) (hdigits : ∀ x ∈ text, IsDigit x)
    (h : atoiDigits 0 text < 2 ^ 63) : atoi text = atoiDigits 0 text := by
  obtain ⟨x, xs, rfl⟩ := List.exists_cons_of_ne_nil hne
  obtain ⟨-, hminus, hplus, hspace⟩ := (hdigits x (by simp)).ne
  rw [atoi_eq (List.dropWhile_cons_of_neg (by simp [hspace])) hminus hplus,
    Nat.min_eq_left (by omega)]

theorem atoi_decimal {n : Nat} (h : n < 2 ^ 63) : atoi (decimal n) = n := by
  have hread := atoiDigits_decimal n
  rw [atoi_of_digits (decimal_ne_nil n) (isDigit_of_mem_decimal n) (by omega), hread]

theorem toNat_ofInt {n : Nat} (h : n < 2 ^ 32) : (UInt32.ofInt n).toNat = n := by
  have hmod : ((n : Int) % 2 ^ 32).toNat = n := by omega
  rw [UInt32.ofInt, hmod]
  exact UInt32.toNat_ofNat_of_lt' h

theorem string2int_int2string (n : UInt32) : string2int (int2string n) = n := by
  have hlt : n.toNat < 2 ^ 32 := n.toNat_lt
  have hself : cString (decimal n.toNat) = decimal n.toNat := by
    apply cString_eq_self
    intro x hx
    exact (isDigit_of_mem_decimal _ x hx).ne.1
  rw [string2int, int2string, hself, atoi_decimal (by omega), ← UInt32.toNat_inj, toNat_ofInt hlt]

theorem int2string_ofNat {n : Nat} (h : n < 2 ^ 32) : int2string (UInt32.ofNat n) = decimal n := by
  rw [int2string, UInt32.toNat_ofNat_of_lt' h]

/-! ## Hexadecimal text -/

theorem hexIndex_hexPair (x : UInt8) :
    hexIndex (Toolbox.hexDigit (x.toNat / 16)) = some (x.toNat / 16) ∧
      hexIndex (Toolbox.hexDigit (x.toNat % 16)) = some (x.toNat % 16) := by
  have hall : ∀ n, n < 16 → hexIndex (Toolbox.hexDigit n) = some n := by decide
  have hlt : x.toNat < 256 := x.toNat_lt
  exact ⟨hall _ (by omega), hall _ (by omega)⟩

theorem hexToString_flatMap_hexPair (b : Bytes) :
    hexToString (b.flatMap Toolbox.hexPair) = some b := by
  induction b with
  | nil => rfl
  | cons x b ih =>
    obtain ⟨hhigh, hlow⟩ := hexIndex_hexPair x
    have hbyte : UInt8.ofNat (x.toNat / 16 * 16 + x.toNat % 16) = x := by
      rw [Nat.div_add_mod', UInt8.ofNat_toNat]
    rw [List.flatMap_cons, Toolbox.hexPair, List.cons_append, List.cons_append, List.nil_append,
      hexToString, hhigh, hlow, ih]
    dsimp only
    rw [hbyte]

theorem length_bytesToHex (b : Bytes) : (Toolbox.bytesToHex b).length = 2 + 2 * b.length := by
  have hpairs : (b.flatMap Toolbox.hexPair).length = 2 * b.length := by
    induction b with
    | nil => rfl
    | cons x b ih =>
      rw [List.flatMap_cons, List.length_append, ih, List.length_cons, Toolbox.hexPair]
      simp only [List.length_cons, List.length_nil]
      omega
  rw [Toolbox.bytesToHex, List.length_append, hpairs]
  rfl

theorem hexToString_drop_bytesToHex (b : Bytes) :
    hexToString ((Toolbox.bytesToHex b).drop 2) = some b := hexToString_flatMap_hexPair b

/-- The digits that are accepted. -/
def IsHexDigit (x : UInt8) : Prop := (0x30 ≤ x ∧ x ≤ 0x39) ∨ (0x61 ≤ x ∧ x ≤ 0x66)

theorem hexIndex_eq_none_iff {x : UInt8} : hexIndex x = none ↔ ¬ IsHexDigit x := by
  unfold hexIndex IsHexDigit
  by_cases hdigit : 0x30 ≤ x ∧ x ≤ 0x39
  · simp [hdigit]
  · by_cases hletter : 0x61 ≤ x ∧ x ≤ 0x66
    · simp [hdigit, hletter]
    · simp [hdigit, hletter]

/-- A search in the table finds the digits, with either kind of `char`. -/
theorem lutIndex_eq (signed : Bool) (a : UInt8) : lutIndex signed a =
    (hexIndex a).elim (.error .notAHexDigit) .ok := by
  have hall : ∀ a, ∀ signed, lutIndex signed a =
      (hexIndex a).elim (.error .notAHexDigit) .ok := by
    refine forall_byte ?_
    decide +kernel
  exact hall a signed

theorem hexIndex_lt {a : UInt8} {p : Nat} (h : hexIndex a = some p) : p < 16 := by
  unfold hexIndex at h
  split at h
  · rename_i hdigit
    have hhi : a.toNat ≤ 0x39 := UInt8.le_iff_toNat_le.mp hdigit.2
    cases h
    omega
  · split at h
    · rename_i hletter
      have hhi : a.toNat ≤ 0x66 := UInt8.le_iff_toNat_le.mp hletter.2
      cases h
      omega
    · cases h

/-- A digit is printed as it was read. -/
theorem hexDigit_hexIndex {a : UInt8} {p : Nat} (h : hexIndex a = some p) :
    Toolbox.hexDigit p = a := by
  have hall : ∀ a, ∀ p, p < 16 → hexIndex a = some p → Toolbox.hexDigit p = a := by
    refine forall_byte ?_
    decide +kernel
  exact hall a p (hexIndex_lt h) h

/-- The loop, in terms of the other decoder. -/
theorem hexDigits_eq (signed : Bool) : ∀ s : Bytes, s.length % 2 = 0 →
    hexDigits signed s = (hexToString s).elim (.error .notAHexDigit) .ok
  | [], _ => rfl
  | [x], h => by simp at h
  | a :: b :: rest, h => by
    have hrest : rest.length % 2 = 0 := by
      simp only [List.length_cons] at h
      omega
    rw [hexDigits, hexToString, lutIndex_eq, lutIndex_eq, hexDigits_eq signed rest hrest]
    cases ha : hexIndex a with
    | none => rfl
    | some p =>
      cases hb : hexIndex b with
      | none => rfl
      | some q =>
        have hq : q < 2 ^ 4 := hexIndex_lt hb
        have hbyte : p <<< 4 ||| q = p * 16 + q := by
          rw [← Nat.shiftLeft_add_eq_or_of_lt hq, Nat.shiftLeft_eq]
        cases hexToString rest with
        | none => rfl
        | some output =>
          change Except.ok (UInt8.ofNat (p <<< 4 ||| q) :: output) = _
          rw [hbyte]
          rfl

theorem hexToString_of_odd : ∀ s : Bytes, s.length % 2 = 1 → hexToString s = none
  | [x], _ => rfl
  | a :: b :: rest, h => by
    have hrest : rest.length % 2 = 1 := by
      simp only [List.length_cons] at h
      omega
    rw [hexToString, hexToString_of_odd rest hrest]
    cases hexIndex a with
    | none => rfl
    | some p =>
      cases hexIndex b with
      | none => rfl
      | some q => rfl

theorem hexToStringOf_eq (signed : Bool) (s : Bytes) :
    hexToStringOf signed s = if s.length % 2 = 1 then .error .oddLength else
      (hexToString s).elim (.error .notAHexDigit) .ok := by
  rw [hexToStringOf, Nat.and_one_is_mod]
  split
  · rfl
  · exact hexDigits_eq signed s (by omega)

/-- What is read is printed again. -/
theorem flatMap_hexPair_of_hexToString : ∀ {s b : Bytes}, hexToString s = some b →
    b.flatMap Toolbox.hexPair = s
  | [], b, h => by
    cases h
    rfl
  | [x], b, h => by cases h
  | x :: y :: rest, b, h => by
    cases hx : hexIndex x with
    | none => simp [hexToString, hx] at h
    | some p =>
      cases hy : hexIndex y with
      | none => simp [hexToString, hx, hy] at h
      | some q =>
        cases hrest : hexToString rest with
        | none => simp [hexToString, hx, hy, hrest] at h
        | some output =>
          simp only [hexToString, hx, hy, hrest, Option.some.injEq] at h
          have hp := hexIndex_lt hx
          have hq := hexIndex_lt hy
          have hbyte : (UInt8.ofNat (p * 16 + q)).toNat = p * 16 + q :=
            UInt8.toNat_ofNat_of_lt' (show p * 16 + q < 256 by omega)
          have hhigh : (p * 16 + q) / 16 = p := by omega
          have hlow : (p * 16 + q) % 16 = q := by omega
          rw [← h, List.flatMap_cons, flatMap_hexPair_of_hexToString hrest, Toolbox.hexPair, hbyte,
            hhigh, hlow, hexDigit_hexIndex hx, hexDigit_hexIndex hy]
          rfl

theorem hexToString_eq_some_iff {s b : Bytes} :
    hexToString s = some b ↔ bytesToHexString b = [0x30, 0x78] ++ s := by
  constructor
  · intro h
    rw [bytesToHexString, Toolbox.bytesToHex, flatMap_hexPair_of_hexToString h]
  · intro h
    have hs : b.flatMap Toolbox.hexPair = s := List.append_cancel_left h
    rw [← hs]
    exact hexToString_flatMap_hexPair b

/-- Which texts are refused. -/
theorem hexToString_eq_none_iff : ∀ {s : Bytes},
    hexToString s = none ↔ s.length % 2 = 1 ∨ ∃ x ∈ s, ¬ IsHexDigit x
  | [] => by simp [hexToString]
  | [x] => by simp [hexToString]
  | a :: b :: rest => by
    have hlen : (a :: b :: rest).length % 2 = rest.length % 2 := by
      simp only [List.length_cons]
      omega
    have hnone : hexToString (a :: b :: rest) = none ↔
        hexIndex a = none ∨ hexIndex b = none ∨ hexToString rest = none := by
      cases ha : hexIndex a <;> cases hb : hexIndex b <;> cases hrest : hexToString rest <;>
        simp [hexToString, ha, hb, hrest]
    rw [hnone, hexIndex_eq_none_iff, hexIndex_eq_none_iff, hexToString_eq_none_iff, hlen]
    simp only [List.mem_cons, exists_eq_or_imp]
    tauto

/-- **The codec.** What was printed is read back; a text is refused exactly if its length is odd or
    it holds something that is no digit; and any other text is the print of what is returned, and
    of nothing else. -/
theorem hexCodec (signed : Bool) :
    (∀ b, hexToStringOf signed ((bytesToHexString b).drop 2) = .ok b) ∧
      ∀ s, ((∃ e, hexToStringOf signed s = .error e) ↔
          s.length % 2 = 1 ∨ ∃ x ∈ s, ¬ IsHexDigit x) ∧
        (¬ (s.length % 2 = 1 ∨ ∃ x ∈ s, ¬ IsHexDigit x) →
          ∃ b, hexToStringOf signed s = .ok b ∧
            ∀ b', bytesToHexString b' = [0x30, 0x78] ++ s ↔ b' = b) := by
  have hok : ∀ s b, hexToString s = some b → hexToStringOf signed s = .ok b := by
    intro s b h
    have heven : ¬ s.length % 2 = 1 := by
      intro hodd
      rw [hexToString_of_odd s hodd] at h
      cases h
    rw [hexToStringOf_eq, if_neg heven, h]
    rfl
  refine ⟨?_, ?_⟩
  · intro b
    exact hok _ b (hexToString_drop_bytesToHex b)
  · intro s
    rw [← hexToString_eq_none_iff]
    cases hs : hexToString s with
    | none =>
      refine ⟨iff_of_true ?_ rfl, fun h => absurd rfl h⟩
      rw [hexToStringOf_eq, hs]
      split
      · exact ⟨_, rfl⟩
      · exact ⟨_, rfl⟩
    | some b =>
      rw [hok s b hs]
      refine ⟨by simp, fun _ => ⟨b, rfl, fun b' => ?_⟩⟩
      rw [← hexToString_eq_some_iff, hs, Option.some.injEq]
      exact eq_comm

/-- An `uint32_t` that is passed as an `int`. -/
theorem toInt_toInt32 {n : Nat} (h : n < 2 ^ 32) :
    (UInt32.ofNat n).toInt32.toInt = if n < 2 ^ 31 then (n : Int) else n - 2 ^ 32 := by
  have htoNat : (UInt32.ofNat n).toNat = n := UInt32.toNat_ofNat_of_lt' h
  have hint : (UInt32.ofNat n).toInt32.toInt = (UInt32.ofNat n).toBitVec.toInt := rfl
  have hnat : (UInt32.ofNat n).toBitVec.toNat = n := htoNat
  rw [hint, BitVec.toInt_eq_toNat_cond, hnat]
  split_ifs with h1 h2 h2
  · rfl
  · omega
  · omega
  · rfl

end Global
end Proof
end PtpCore
