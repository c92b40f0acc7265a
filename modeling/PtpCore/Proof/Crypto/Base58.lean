import PtpCore.Crypto.Base58Decode
import PtpCore.Lib.Positional

/-!
# What `b58enc` writes (`ptp_crypto/base58.cpp`)

A one for each zero byte in front, and then the digits of the number in base 58. `b58text` is that
text. The block of the source is long enough for it: 138 digits hold 100 bytes. Its inner loop stops
early, which is safe because what it has not written yet is zero.
-/

namespace PtpCore
namespace Crypto

open Lib

/-- The text of a byte string. -/
def b58text (bin : Bytes) : Bytes :=
  List.replicate (bin.takeWhile (· == 0)).length 0x31 ++
    (Nat.digits 58 (ofBE bin)).reverse.map fun d => b58digits.getD d 0

theorem carryInto_eq_mulAdd (c : Nat) (ds : List Nat) : carryInto c ds = (mulAdd 58 256 c ds).1 := by
  induction ds generalizing c with
  | nil => rfl
  | cons d ds ih => rw [carryInto, ih, mulAdd_cons]

/-- The block is long enough. -/
theorem pow_lt_size (n : Nat) : 256 ^ n < 58 ^ (n * 138 / 100 + 1) := by
  refine lt_of_pow_lt_pow_left₀ 100 (Nat.zero_le _) ?_
  have hexp : 138 * n < 100 * (n * 138 / 100 + 1) := by omega
  calc (256 ^ n) ^ 100 = (256 ^ 100) ^ n := by rw [← pow_mul, ← pow_mul, Nat.mul_comm]
    _ ≤ (58 ^ 138) ^ n := Nat.pow_le_pow_left (by norm_num) n
    _ = 58 ^ (138 * n) := by rw [← pow_mul]
    _ < 58 ^ (100 * (n * 138 / 100 + 1)) := Nat.pow_lt_pow_right (by norm_num) hexp
    _ = (58 ^ (n * 138 / 100 + 1)) ^ 100 := by rw [← pow_mul, Nat.mul_comm]

/-- A block that holds a number. -/
structure Block (size : Nat) (n : Nat) (buf : List Nat) : Prop where
  length : buf.length = size
  lt : ∀ d ∈ buf, d < 58
  value : Nat.ofDigits 58 buf = n

theorem block_zero (size : Nat) : Block size 0 (List.replicate size 0) where
  length := List.length_replicate
  lt d hd := by rw [List.eq_of_mem_replicate hd]; decide
  value := Nat.ofDigits_replicate_zero

theorem Block.carryInto {size n : Nat} {buf : List Nat} (h : Block size n buf) {c : Nat}
    (hc : c + 256 * n < 58 ^ size) : Block size (c + 256 * n) (carryInto c buf) := by
  rw [carryInto_eq_mulAdd]
  have hlt : c + 256 * Nat.ofDigits 58 buf < 58 ^ buf.length := by rw [h.value, h.length]; exact hc
  refine ⟨?_, lt_of_mem_mulAdd (by decide), ?_⟩
  · rw [length_mulAdd, h.length]
  · rw [ofDigits_mulAdd_of_lt (by decide) hlt, h.value]

/-- Room for `m` more bytes stays while bytes are put in. -/
theorem Block.foldl {size n : Nat} {buf : List Nat} (h : Block size n buf) {b : Bytes}
    (hroom : 256 ^ b.length * (n + 1) ≤ 58 ^ size) :
    Block size (256 ^ b.length * n + ofBE b)
      (b.foldl (fun buf x => Crypto.carryInto x.toNat buf) buf) := by
  induction b generalizing n buf with
  | nil => simpa using h
  | cons x b ih =>
    have hx := x.toNat_lt
    have hpos : 0 < 256 ^ b.length := Nat.pow_pos (by decide)
    have hnext : 256 ^ b.length * (x.toNat + 256 * n + 1) ≤ 256 ^ (x :: b).length * (n + 1) := by
      rw [List.length_cons, Nat.pow_succ, Nat.mul_assoc]
      exact Nat.mul_le_mul_left _ (by omega)
    have hsmall : x.toNat + 256 * n + 1 ≤ 256 ^ b.length * (x.toNat + 256 * n + 1) :=
      Nat.le_mul_of_pos_left _ hpos
    have hstep := ih (h.carryInto (c := x.toNat) (by omega)) (hnext.trans hroom)
    have hvalue : 256 ^ b.length * (x.toNat + 256 * n) + ofBE b =
        256 ^ (x :: b).length * n + ofBE (x :: b) := by
      rw [ofBE_cons, List.length_cons, Nat.pow_succ]
      ring
    rw [hvalue] at hstep
    exact hstep

theorem drop_length_takeWhile (b : Bytes) :
    b.drop (b.takeWhile (· == 0)).length = b.dropWhile (· == 0) := by
  have h := @List.drop_left _ (b.takeWhile (· == 0)) (b.dropWhile (· == 0))
  rwa [List.takeWhile_append_dropWhile] at h

theorem length_dropWhile_zero (b : Bytes) :
    (b.dropWhile (· == 0)).length = b.length - (b.takeWhile (· == 0)).length := by
  rw [← drop_length_takeWhile, List.length_drop]

theorem ofBE_dropWhile (b : Bytes) : ofBE (b.dropWhile (· == 0)) = ofBE b := by
  conv_rhs => rw [← replicate_append_dropWhile b, ofBE_replicate_append]

/-- The block after the loop of `b58enc`. -/
theorem block_b58enc (bin : Bytes) :
    Block ((bin.length - (bin.takeWhile (· == 0)).length) * 138 / 100 + 1) (ofBE bin)
      ((bin.drop (bin.takeWhile (· == 0)).length).foldl
        (fun buf x => carryInto x.toNat buf)
        (List.replicate ((bin.length - (bin.takeWhile (· == 0)).length) * 138 / 100 + 1) 0)) := by
  have hsize := pow_lt_size (bin.length - (bin.takeWhile (· == 0)).length)
  have h := (block_zero
    ((bin.length - (bin.takeWhile (· == 0)).length) * 138 / 100 + 1)).foldl
    (b := bin.drop (bin.takeWhile (· == 0)).length)
    (by rw [List.length_drop, Nat.zero_add, Nat.mul_one]; exact Nat.le_of_lt hsize)
  rwa [Nat.mul_zero, Nat.zero_add, drop_length_takeWhile, ofBE_dropWhile, ← drop_length_takeWhile]
    at h

/-- The text is written when it and its zero fit. -/
theorem b58enc_eq (bin : Bytes) (b58sz : Nat) :
    b58enc bin b58sz = if b58sz ≤ (b58text bin).length then none else some (b58text bin) := by
  have h := block_b58enc bin
  have hdigits := dropWhile_zero_eq_digits (by decide) h.lt
  rw [h.value] at hdigits
  rw [b58enc, b58text]
  simp only [hdigits, List.length_append, List.length_replicate, List.length_map]

/-! ## Where the inner loop stops -/

/-- Behind the first `u` digits of the block nothing was written. -/
def Written (buf : List Nat) (u : Nat) : Prop := u ≤ buf.length ∧ ∀ d ∈ buf.drop u, d = 0

theorem mulAdd_zero {ds : List Nat} (h : ∀ d ∈ ds, d = 0) : mulAdd 58 256 0 ds = (ds, 0) := by
  induction ds with
  | nil => rfl
  | cons d ds ih =>
    obtain ⟨rfl, hds⟩ := List.forall_mem_cons.mp h
    rw [mulAdd_cons, Nat.mul_zero, Nat.add_zero, Nat.zero_div, ih hds]

/-- The loop that stops early writes what the whole loop writes. -/
theorem carryHigh_eq {u c : Nat} {buf : List Nat} (hu : Written buf u)
    (hcarry : (mulAdd 58 256 c buf).2 = 0) :
    ∃ n, carryHigh u c buf = some (carryInto c buf, n) ∧ Written (carryInto c buf) n := by
  rw [carryInto_eq_mulAdd]
  induction buf generalizing u c with
  | nil =>
    have hzero : u = 0 := Nat.le_zero.mp hu.1
    have hc : c = 0 := hcarry
    refine ⟨0, ?_, Nat.le_refl _, fun d hd => absurd hd List.not_mem_nil⟩
    rw [carryHigh, if_neg (by omega)]
    rfl
  | cons d buf ih =>
    rw [carryHigh]
    split
    · have hrest : Written buf (u - 1) := by
        refine ⟨by have := hu.1; rw [List.length_cons] at this; omega, fun e he => ?_⟩
        cases u with
        | zero => exact hu.2 e (List.mem_cons_of_mem _ he)
        | succ u => exact hu.2 e he
      obtain ⟨n, hn, hwritten⟩ := ih hrest hcarry
      refine ⟨n + 1, ?_, ?_, hwritten.2⟩
      · rw [hn, mulAdd_cons]
        rfl
      · rw [mulAdd_cons, List.length_cons]
        exact Nat.succ_le_succ hwritten.1
    case isFalse hstop =>
      have hzero : u = 0 := by omega
      have hc : c = 0 := by omega
      subst hzero hc
      have hall : ∀ e ∈ d :: buf, e = 0 := hu.2
      rw [mulAdd_zero hall]
      exact ⟨0, rfl, Nat.zero_le _, hall⟩

theorem encodeHigh_eq {size n u : Nat} {buf : List Nat} (h : Block size n buf)
    (hu : Written buf u) {b : Bytes} (hroom : 256 ^ b.length * (n + 1) ≤ 58 ^ size) :
    ∃ m, encodeHigh (buf, u) b =
      some (b.foldl (fun buf x => carryInto x.toNat buf) buf, m) := by
  induction b generalizing n u buf with
  | nil => exact ⟨u, rfl⟩
  | cons x b ih =>
    have hx := x.toNat_lt
    have hpos : 0 < 256 ^ b.length := Nat.pow_pos (by decide)
    have hnext : 256 ^ b.length * (x.toNat + 256 * n + 1) ≤ 256 ^ (x :: b).length * (n + 1) := by
      rw [List.length_cons, Nat.pow_succ, Nat.mul_assoc]
      exact Nat.mul_le_mul_left _ (by omega)
    have hsmall : x.toNat + 256 * n + 1 ≤ 256 ^ b.length * (x.toNat + 256 * n + 1) :=
      Nat.le_mul_of_pos_left _ hpos
    have hcarry : (mulAdd 58 256 x.toNat buf).2 = 0 := by
      rw [mulAdd_carry_eq_zero_iff (by decide), h.value, h.length]
      omega
    obtain ⟨m, hm, hwritten⟩ := carryHigh_eq hu hcarry
    rw [encodeHigh, hm]
    exact ih (h.carryInto (by omega)) hwritten (hnext.trans hroom)

/-- The encoder never leaves its block, and gives the text of every byte string. -/
theorem b58encHigh_eq (bin : Bytes) (b58sz : Nat) :
    b58encHigh bin b58sz =
      some (if b58sz ≤ (b58text bin).length then none else some (b58text bin)) := by
  let size := (bin.length - (bin.takeWhile (· == 0)).length) * 138 / 100 + 1
  have hsize := pow_lt_size (bin.length - (bin.takeWhile (· == 0)).length)
  obtain ⟨m, hm⟩ := encodeHigh_eq (u := 0) (block_zero size)
    ⟨Nat.zero_le _, fun d hd => List.eq_of_mem_replicate hd⟩
    (b := bin.drop (bin.takeWhile (· == 0)).length)
    (by rw [List.length_drop, Nat.zero_add, Nat.mul_one]; exact Nat.le_of_lt hsize)
  rw [← b58enc_eq, b58encHigh, b58enc]
  simp only [size] at hm
  rw [hm]
  rfl

end Crypto
end PtpCore
