import PtpCore.Lib.Bytes
import Mathlib.Data.Nat.Bitwise

/-!
# Numbers of a fixed width packed into bytes

A byte string is also a string of bits, most significant bit of the first byte first. Numbers of
`w` bits are packed into it one after the other, without regard to byte boundaries, by setting
bits in a block that was zero. Everything is said through `bit`: what a store does to the bit at
a position (`bit_storeFrom`), that the bits determine the bytes (`eq_of_bit_eq`), and from these
the two round trips, numbers to bytes to numbers (`extract_storeFrom`) and bytes to numbers to
bytes (`storeFrom_extract`).
-/

namespace PtpCore
namespace Lib
namespace BitPack

/-! ## Bits of a byte string -/

/-- The bit at position `pos`; past the end there are only zeros. -/
def bit (b : Bytes) (pos : Nat) : Bool := (b.getD (pos / 8) 0).toNat.testBit (7 - pos % 8)

theorem bit_of_le {b : Bytes} {pos : Nat} (h : 8 * b.length ≤ pos) : bit b pos = false := by
  have hlen : b.length ≤ pos / 8 := by omega
  rw [bit, List.getD_eq_getElem?_getD, List.getElem?_eq_none hlen]
  exact Nat.zero_testBit _

/-- The bits determine the bytes. -/
theorem eq_of_bit_eq {a b : Bytes} (hl : a.length = b.length)
    (h : ∀ pos, pos < 8 * a.length → bit a pos = bit b pos) : a = b := by
  apply List.ext_getElem hl
  intro i hi hi'
  apply UInt8.toNat_inj.mp
  apply Nat.eq_of_testBit_eq
  intro j
  by_cases hj : j < 8
  · have hbit := h (8 * i + (7 - j)) (by omega)
    have hdiv : (8 * i + (7 - j)) / 8 = i := by omega
    have hmod : 7 - (8 * i + (7 - j)) % 8 = j := by omega
    rw [bit, bit, hdiv, hmod, List.getD_eq_getElem?_getD, List.getD_eq_getElem?_getD,
      List.getElem?_eq_getElem hi, List.getElem?_eq_getElem hi'] at hbit
    exact hbit
  · have hpow : ∀ x : UInt8, x.toNat < 2 ^ j := fun x =>
      Nat.lt_of_lt_of_le x.toNat_lt (Nat.pow_le_pow_right (by omega) (by omega))
    rw [Nat.testBit_lt_two_pow (hpow _), Nat.testBit_lt_two_pow (hpow _)]

theorem bit_take {b : Bytes} {n pos : Nat} (h : pos < 8 * n) : bit (b.take n) pos = bit b pos := by
  have hlt : pos / 8 < n := by omega
  rw [bit, bit, List.getD_eq_getElem?_getD, List.getD_eq_getElem?_getD, List.getElem?_take,
    if_pos hlt]

@[simp] theorem bit_replicate_zero (n pos : Nat) : bit (List.replicate n 0) pos = false := by
  rw [bit, List.getD_eq_getElem?_getD, List.getElem?_replicate]
  split <;> exact Nat.zero_testBit _

/-! ## The number that some bits spell -/

/-- The number whose `k` bits are `f 0`, `f 1`, ..., most significant first. -/
def numOf (f : Nat → Bool) (k : Nat) : Nat :=
  (List.range k).foldl (fun v i => 2 * v + (f i).toNat) 0

theorem numOf_succ (f : Nat → Bool) (k : Nat) :
    numOf f (k + 1) = 2 * numOf f k + (f k).toNat := by
  rw [numOf, List.range_succ, List.foldl_append]
  rfl

theorem numOf_congr {f g : Nat → Bool} {k : Nat} (h : ∀ i, i < k → f i = g i) :
    numOf f k = numOf g k := by
  induction k with
  | zero => rfl
  | succ k ih =>
    rw [numOf_succ, numOf_succ, ih fun i hi => h i (by omega), h k (Nat.lt_succ_self k)]

theorem numOf_lt (f : Nat → Bool) (k : Nat) : numOf f k < 2 ^ k := by
  induction k with
  | zero => exact Nat.one_pos
  | succ k ih =>
    have hb : (f k).toNat ≤ 1 := Bool.toNat_le _
    rw [numOf_succ, pow_succ]
    omega

theorem testBit_numOf (f : Nat → Bool) {k i : Nat} (hi : i < k) :
    (numOf f k).testBit (k - 1 - i) = f i := by
  induction k with
  | zero => exact absurd hi (Nat.not_lt_zero _)
  | succ k ih =>
    rw [numOf_succ]
    rcases Nat.lt_succ_iff_lt_or_eq.mp hi with hlt | rfl
    · have hidx : k + 1 - 1 - i = (k - 1 - i) + 1 := by omega
      rw [hidx, Nat.testBit_succ, ← ih hlt]
      congr 1
      have hb : (f k).toNat ≤ 1 := Bool.toNat_le _
      omega
    · rw [Nat.add_sub_cancel, Nat.sub_self, Nat.testBit_zero]
      cases f i <;> simp

/-- A number of `k` bits is spelt by its bits. -/
theorem numOf_testBit {n k : Nat} (h : n < 2 ^ k) :
    numOf (fun i => n.testBit (k - 1 - i)) k = n := by
  apply Nat.eq_of_testBit_eq
  intro j
  by_cases hj : j < k
  · have hback : j = k - 1 - (k - 1 - j) := by omega
    have hbit := testBit_numOf (fun i => n.testBit (k - 1 - i)) (show k - 1 - j < k by omega)
    rw [← hback] at hbit
    exact hbit
  · have hpow : 2 ^ k ≤ 2 ^ j := Nat.pow_le_pow_right (by omega) (by omega)
    rw [Nat.testBit_lt_two_pow (Nat.lt_of_lt_of_le (numOf_lt _ k) hpow),
      Nat.testBit_lt_two_pow (Nat.lt_of_lt_of_le h hpow)]

/-! ## Setting bits -/

def setBit (b : Bytes) (pos : Nat) : Bytes :=
  b.set (pos / 8) (b.getD (pos / 8) 0 ||| UInt8.ofNat (2 ^ (7 - pos % 8)))

@[simp] theorem length_setBit (b : Bytes) (pos : Nat) : (setBit b pos).length = b.length :=
  List.length_set

theorem bit_setBit {b : Bytes} {pos : Nat} (h : pos < 8 * b.length) (q : Nat) :
    bit (setBit b pos) q = (bit b q || decide (q = pos)) := by
  have hin : pos / 8 < b.length := by omega
  have hmask : (UInt8.ofNat (2 ^ (7 - pos % 8))).toNat = 2 ^ (7 - pos % 8) := by
    rw [UInt8.toNat_ofNat']
    exact Nat.mod_eq_of_lt (Nat.pow_lt_pow_right (by omega) (by omega))
  rw [bit, bit, setBit, List.getD_eq_getElem?_getD, List.getElem?_set]
  by_cases hq : pos / 8 = q / 8
  · rw [if_pos hq, if_pos (by omega), Option.getD_some, UInt8.toNat_or, Nat.testBit_or, hmask,
      Nat.testBit_two_pow, hq]
    congr 1
    exact decide_eq_decide.mpr (by omega)
  · have hne : q ≠ pos := by
      rintro rfl
      exact hq rfl
    rw [if_neg hq, ← List.getD_eq_getElem?_getD, decide_eq_false hne, Bool.or_false]

/-- Set the bits `f 0`, ..., `f (k - 1)` that are true, from position `off` on. -/
def storeBits (f : Nat → Bool) (off k : Nat) (b : Bytes) : Bytes :=
  (List.range k).foldl (fun b i => if f i then setBit b (off + i) else b) b

theorem storeBits_succ (f : Nat → Bool) (off k : Nat) (b : Bytes) :
    storeBits f off (k + 1) b =
      if f k then setBit (storeBits f off k b) (off + k) else storeBits f off k b := by
  rw [storeBits, List.range_succ, List.foldl_append]
  rfl

@[simp] theorem length_storeBits (f : Nat → Bool) (off k : Nat) (b : Bytes) :
    (storeBits f off k b).length = b.length := by
  induction k with
  | zero => rfl
  | succ k ih =>
    rw [storeBits_succ]
    split
    · rw [length_setBit, ih]
    · exact ih

theorem bit_storeBits (f : Nat → Bool) {off k : Nat} {b : Bytes} (h : off + k ≤ 8 * b.length)
    (q : Nat) :
    bit (storeBits f off k b) q =
      (bit b q || (decide (off ≤ q ∧ q < off + k) && f (q - off))) := by
  induction k with
  | zero =>
    rw [decide_eq_false (show ¬ (off ≤ q ∧ q < off + 0) by omega), Bool.false_and, Bool.or_false]
    rfl
  | succ k ih =>
    have ih := ih (by omega)
    rw [storeBits_succ]
    by_cases hq : q = off + k
    · have hsub : q - off = k := by omega
      rw [decide_eq_false (show ¬ (off ≤ q ∧ q < off + k) by omega), Bool.false_and,
        Bool.or_false] at ih
      rw [decide_eq_true (show off ≤ q ∧ q < off + (k + 1) by omega), Bool.true_and, hsub]
      cases hf : f k with
      | true => rw [if_pos rfl, bit_setBit (by rw [length_storeBits]; omega), ih,
          decide_eq_true hq]
      | false => rw [if_neg Bool.false_ne_true, ih, Bool.or_false]
    · have hdec : decide (off ≤ q ∧ q < off + (k + 1)) = decide (off ≤ q ∧ q < off + k) :=
        decide_eq_decide.mpr (by omega)
      rw [hdec, ← ih]
      split
      · rw [bit_setBit (by rw [length_storeBits]; omega), decide_eq_false hq, Bool.or_false]
      · rfl

/-! ## Storing and extracting numbers -/

section

variable (w : Nat)

/-- The `n`-th number of `w` bits. -/
def extract (b : Bytes) (n : Nat) : Nat := numOf (fun i => bit b (n * w + i)) w

/-- Store `v` as the `n`-th number of `w` bits. -/
def store (b : Bytes) (n v : Nat) : Bytes := storeBits (fun i => v.testBit (w - 1 - i)) (n * w) w b

/-- Store numbers one after the other, from the `n`-th place on. -/
def storeFrom : Nat → Bytes → List Nat → Bytes
  | _, b, [] => b
  | n, b, v :: vs => storeFrom (n + 1) (store w b n v) vs

@[simp] theorem length_store (b : Bytes) (n v : Nat) : (store w b n v).length = b.length :=
  length_storeBits ..

@[simp] theorem length_storeFrom (n : Nat) (b : Bytes) (vs : List Nat) :
    (storeFrom w n b vs).length = b.length := by
  induction vs generalizing n b with
  | nil => rfl
  | cons v vs ih => rw [storeFrom, ih, length_store]

theorem extract_lt (b : Bytes) (n : Nat) : extract w b n < 2 ^ w := numOf_lt _ _

variable {w}

theorem bit_storeFrom (hw : 0 < w) {n : Nat} {b : Bytes} {vs : List Nat}
    (h : (n + vs.length) * w ≤ 8 * b.length) (q : Nat) :
    bit (storeFrom w n b vs) q =
      (bit b q || (decide (n ≤ q / w ∧ q / w < n + vs.length) &&
        (vs.getD (q / w - n) 0).testBit (w - 1 - q % w))) := by
  induction vs generalizing n b with
  | nil =>
    rw [List.length_nil, decide_eq_false (show ¬ (n ≤ q / w ∧ q / w < n + 0) by omega),
      Bool.false_and, Bool.or_false]
    rfl
  | cons v vs ih =>
    rw [List.length_cons] at h
    have hspace : n * w + w ≤ 8 * b.length := by
      have : (n + 1) * w ≤ (n + (vs.length + 1)) * w := Nat.mul_le_mul_right w (by omega)
      rw [Nat.succ_mul] at this
      omega
    have hmod := Nat.mod_lt q hw
    have hqw := Nat.div_add_mod q w
    rw [storeFrom, ih (by rw [length_store, Nat.add_assoc, Nat.add_comm 1]; exact h), store,
      bit_storeBits _ hspace, List.length_cons, Bool.or_assoc]
    congr 1
    -- the place of `q` is `n`, is behind it, or is before it
    rcases Nat.lt_trichotomy (q / w) n with hlt | heq | hgt
    · have hlo : ¬ (n * w ≤ q ∧ q < n * w + w) := by
        have : (q / w + 1) * w ≤ n * w := Nat.mul_le_mul_right w hlt
        rw [Nat.succ_mul, Nat.mul_comm (q / w) w] at this
        omega
      rw [decide_eq_false hlo,
        decide_eq_false (show ¬ (n + 1 ≤ q / w ∧ q / w < n + 1 + vs.length) by omega),
        decide_eq_false (show ¬ (n ≤ q / w ∧ q / w < n + (vs.length + 1)) by omega)]
      rfl
    · have hnw : n * w = w * (q / w) := by rw [heq, Nat.mul_comm]
      have hin : n * w ≤ q ∧ q < n * w + w := by omega
      have hsub : q - n * w = q % w := by omega
      rw [decide_eq_true hin, hsub,
        decide_eq_false (show ¬ (n + 1 ≤ q / w ∧ q / w < n + 1 + vs.length) by omega),
        decide_eq_true (show n ≤ q / w ∧ q / w < n + (vs.length + 1) by omega), heq, Nat.sub_self,
        List.getD_cons_zero, Bool.false_and, Bool.or_false]
    · have hhi : ¬ (n * w ≤ q ∧ q < n * w + w) := by
        have : (n + 1) * w ≤ (q / w) * w := Nat.mul_le_mul_right w hgt
        rw [Nat.succ_mul, Nat.mul_comm (q / w) w] at this
        omega
      have hidx : q / w - n = (q / w - (n + 1)) + 1 := by omega
      have hdec : decide (n + 1 ≤ q / w ∧ q / w < n + 1 + vs.length) =
          decide (n ≤ q / w ∧ q / w < n + (vs.length + 1)) := decide_eq_decide.mpr (by omega)
      rw [decide_eq_false hhi, Bool.false_and, Bool.false_or, hdec, hidx, List.getD_cons_succ]

theorem bit_storeFrom_zero (hw : 0 < w) {m : Nat} {vs : List Nat} (h : vs.length * w ≤ 8 * m)
    (q : Nat) :
    bit (storeFrom w 0 (List.replicate m 0) vs) q =
      (decide (q / w < vs.length) && (vs.getD (q / w) 0).testBit (w - 1 - q % w)) := by
  rw [bit_storeFrom hw (by rw [List.length_replicate, Nat.zero_add]; exact h), bit_replicate_zero,
    Bool.false_or, Nat.zero_add, Nat.sub_zero]
  congr 1
  exact decide_eq_decide.mpr ⟨fun h => h.2, fun h => ⟨Nat.zero_le _, h⟩⟩

/-- Numbers to bytes to numbers. -/
theorem extract_storeFrom (hw : 0 < w) {m : Nat} {vs : List Nat} (h : vs.length * w ≤ 8 * m)
    (hvs : ∀ v ∈ vs, v < 2 ^ w) {i : Nat} (hi : i < vs.length) :
    extract w (storeFrom w 0 (List.replicate m 0) vs) i = vs.getD i 0 := by
  have hv : vs.getD i 0 < 2 ^ w := by
    rw [List.getD_eq_getElem?_getD, List.getElem?_eq_getElem hi]
    exact hvs _ (List.getElem_mem hi)
  rw [← numOf_testBit hv, extract]
  apply numOf_congr
  intro j hj
  have hdiv : (i * w + j) / w = i := by
    rw [Nat.mul_comm, Nat.mul_add_div hw, Nat.div_eq_of_lt hj, Nat.add_zero]
  have hmod : (i * w + j) % w = j := by
    rw [Nat.mul_comm, Nat.mul_add_mod, Nat.mod_eq_of_lt hj]
  rw [bit_storeFrom_zero hw h, hdiv, hmod, decide_eq_true hi, Bool.true_and]

/-- Bytes to numbers to bytes: what is stored back is the bytes, if they end in zeros behind the
    last whole number. -/
theorem storeFrom_extract (hw : 0 < w) {b : Bytes} {k m : Nat} (hk : k * w ≤ 8 * m)
    (hm : b.length ≤ m) (hzero : ∀ q, k * w ≤ q → bit b q = false) :
    (storeFrom w 0 (List.replicate m 0) ((List.range k).map (extract w b))).take b.length = b := by
  have hlen : (storeFrom w 0 (List.replicate m 0)
      ((List.range k).map (extract w b))).length = m := by simp
  apply eq_of_bit_eq
  · rw [List.length_take, hlen, Nat.min_eq_left hm]
  · intro q hq
    rw [List.length_take, hlen, Nat.min_eq_left hm] at hq
    rw [bit_take hq, bit_storeFrom_zero hw (by simpa using hk), List.length_map,
      List.length_range]
    by_cases hin : q / w < k
    · have hmod := Nat.mod_lt q hw
      rw [decide_eq_true hin, Bool.true_and, List.getD_eq_getElem?_getD, List.getElem?_map,
        List.getElem?_range hin]
      change (extract w b (q / w)).testBit (w - 1 - q % w) = bit b q
      rw [extract, testBit_numOf _ hmod]
      congr 1
      rw [Nat.mul_comm]
      exact Nat.div_add_mod q w
    · rw [decide_eq_false hin, Bool.false_and]
      refine (hzero q ?_).symm
      calc k * w ≤ q / w * w := Nat.mul_le_mul_right w (by omega)
        _ ≤ q := Nat.div_mul_le_self q w

end

end BitPack
end Lib
end PtpCore
