import Mathlib.Data.Nat.Digits.Lemmas
import PtpCore.Lib.Bytes

/-!
# Numbers as blocks of digits

A number in a block of a fixed number of digits, the lowest first, is changed from base to base by
one operation: multiply by a small number, add another, and carry. What it does to the value,
and what the digits of a value are when zeros in front do not count.
-/

namespace PtpCore
namespace Lib

section MulAdd

variable {B k c : Nat} {ds : List Nat}

/-- The digits of `c + k * ds`, and the carry out of the block. -/
def mulAdd (B k : Nat) : Nat → List Nat → List Nat × Nat
  | c, [] => ([], c)
  | c, d :: ds =>
    let (ds', c') := mulAdd B k ((c + k * d) / B) ds
    ((c + k * d) % B :: ds', c')

theorem mulAdd_cons (B k c d : Nat) (ds : List Nat) :
    mulAdd B k c (d :: ds) = ((c + k * d) % B :: (mulAdd B k ((c + k * d) / B) ds).1,
      (mulAdd B k ((c + k * d) / B) ds).2) := rfl

@[simp] theorem length_mulAdd (B k c : Nat) (ds : List Nat) :
    (mulAdd B k c ds).1.length = ds.length := by
  induction ds generalizing c with
  | nil => rfl
  | cons d ds ih => rw [mulAdd_cons, List.length_cons, ih, List.length_cons]

theorem mulAdd_append (B k c : Nat) (ds es : List Nat) :
    mulAdd B k c (ds ++ es) =
      ((mulAdd B k c ds).1 ++ (mulAdd B k (mulAdd B k c ds).2 es).1,
        (mulAdd B k (mulAdd B k c ds).2 es).2) := by
  induction ds generalizing c with
  | nil => rfl
  | cons d ds ih => rw [List.cons_append, mulAdd_cons, ih, mulAdd_cons, List.cons_append]

/-- Nothing is lost but the carry. -/
theorem ofDigits_mulAdd (B k c : Nat) (ds : List Nat) :
    Nat.ofDigits B (mulAdd B k c ds).1 + B ^ ds.length * (mulAdd B k c ds).2 =
      c + k * Nat.ofDigits B ds := by
  induction ds generalizing c with
  | nil => simp [mulAdd]
  | cons d ds ih =>
    have hdiv := Nat.mod_add_div (c + k * d) B
    have hrest := congrArg (B * ·) (ih ((c + k * d) / B))
    simp only [Nat.mul_add] at hrest
    rw [mulAdd_cons, Nat.ofDigits_cons, Nat.ofDigits_cons, List.length_cons, Nat.pow_succ',
      Nat.mul_assoc, Nat.add_assoc, hrest, Nat.mul_add k, ← Nat.add_assoc, hdiv]
    ring

theorem lt_of_mem_mulAdd (hB : 0 < B) : ∀ d ∈ (mulAdd B k c ds).1, d < B := by
  induction ds generalizing c with
  | nil => exact fun d hd => absurd hd List.not_mem_nil
  | cons d ds ih =>
    rw [mulAdd_cons]
    refine List.forall_mem_cons.mpr ⟨Nat.mod_lt _ hB, ih⟩

/-- The carry stays below the factor. -/
theorem mulAdd_carry_lt (hc : c < k) (hds : ∀ d ∈ ds, d < B) : (mulAdd B k c ds).2 < k := by
  induction ds generalizing c with
  | nil => exact hc
  | cons d ds ih =>
    obtain ⟨hd, hrest⟩ := List.forall_mem_cons.mp hds
    refine ih (Nat.div_lt_of_lt_mul ?_) hrest
    have hmul : k * (d + 1) ≤ k * B := Nat.mul_le_mul_left k hd
    rw [Nat.mul_succ] at hmul
    rw [Nat.mul_comm B k]
    omega

theorem mulAdd_carry_eq_zero_iff (hB : 1 < B) :
    (mulAdd B k c ds).2 = 0 ↔ c + k * Nat.ofDigits B ds < B ^ ds.length := by
  have hval := ofDigits_mulAdd B k c ds
  have hlow : Nat.ofDigits B (mulAdd B k c ds).1 < B ^ ds.length := by
    have hmem : ∀ d ∈ (mulAdd B k c ds).1, d < B := lt_of_mem_mulAdd (Nat.lt_of_succ_lt hB)
    have h := Nat.ofDigits_lt_base_pow_length hB hmem
    rwa [length_mulAdd] at h
  constructor
  · intro hzero
    rw [hzero, Nat.mul_zero, Nat.add_zero] at hval
    rwa [← hval]
  · intro hlt
    by_contra hne
    have hle : B ^ ds.length * 1 ≤ B ^ ds.length * (mulAdd B k c ds).2 :=
      Nat.mul_le_mul_left _ (Nat.one_le_iff_ne_zero.mpr hne)
    omega

/-- What fits in the block is there. -/
theorem ofDigits_mulAdd_of_lt (hB : 1 < B) (h : c + k * Nat.ofDigits B ds < B ^ ds.length) :
    Nat.ofDigits B (mulAdd B k c ds).1 = c + k * Nat.ofDigits B ds := by
  have hval := ofDigits_mulAdd B k c ds
  rwa [(mulAdd_carry_eq_zero_iff hB).mpr h, Nat.mul_zero, Nat.add_zero] at hval

end MulAdd

/-! ## Zeros in front -/

/-- The digits of a block without the zeros at its high end, the highest first. -/
theorem dropWhile_zero_eq_digits {B : Nat} (hB : 1 < B) {ds : List Nat} (hds : ∀ d ∈ ds, d < B) :
    ds.reverse.dropWhile (· == 0) = (Nat.digits B (Nat.ofDigits B ds)).reverse := by
  let zeros := ds.reverse.takeWhile (· == 0)
  let high := ds.reverse.dropWhile (· == 0)
  have hsplit : ds = high.reverse ++ List.replicate zeros.length 0 := by
    have hz : zeros = List.replicate zeros.length 0 :=
      List.eq_replicate_of_mem fun x hx => by simpa using List.mem_takeWhile_imp hx
    have happ : zeros ++ high = ds.reverse := List.takeWhile_append_dropWhile
    rw [← List.reverse_reverse ds, ← happ, List.reverse_append]
    conv_lhs => rw [hz, List.reverse_replicate]
  have hval : Nat.ofDigits B ds = Nat.ofDigits B high.reverse := by
    conv_lhs => rw [hsplit]
    exact Nat.ofDigits_append_replicate_zero _
  have hlt : ∀ d ∈ high.reverse, d < B := fun d hd => hds d (by
    rw [hsplit]
    exact List.mem_append_left _ hd)
  have hlast (hne : high.reverse ≠ []) : high.reverse.getLast hne ≠ 0 := by
    have hne' : high ≠ [] := fun h => hne (by rw [h]; rfl)
    rw [List.getLast_reverse]
    have hhead := List.head_dropWhile_not (p := (· == 0)) hne'
    simpa using hhead
  have hdigits := Nat.digits_ofDigits B hB high.reverse hlt hlast
  rw [hval, hdigits, List.reverse_reverse]

/-- Big-endian bytes are digits of base 256. -/
theorem ofDigits_reverse_bytes (b : Bytes) :
    Nat.ofDigits 256 (b.reverse.map UInt8.toNat) = ofBE b := by
  induction b using List.reverseRecOn with
  | nil => rfl
  | append_singleton b x ih =>
    rw [List.reverse_append, List.reverse_singleton, List.singleton_append, List.map_cons,
      Nat.ofDigits_cons, ih, ofBE_append_singleton]
    omega

/-- Only zeros stand for zero. -/
theorem ofBE_eq_zero_iff (b : Bytes) : ofBE b = 0 ↔ ∀ x ∈ b, x = 0 := by
  induction b using List.reverseRecOn with
  | nil => simp
  | append_singleton b x ih =>
    have hx : x.toNat = 0 ↔ x = 0 := by rw [← UInt8.toNat_inj]; rfl
    rw [ofBE_append_singleton, List.forall_mem_append, List.forall_mem_singleton, ← ih, ← hx]
    omega

theorem ofBE_append (a b : Bytes) : ofBE (a ++ b) = 256 ^ b.length * ofBE a + ofBE b := by
  induction b using List.reverseRecOn with
  | nil => simp
  | append_singleton b x ih =>
    rw [← List.append_assoc, ofBE_append_singleton, ih, ofBE_append_singleton, List.length_append,
      List.length_singleton, Nat.pow_succ]
    ring

theorem ofBE_cons (x : UInt8) (b : Bytes) :
    ofBE (x :: b) = 256 ^ b.length * x.toNat + ofBE b := by
  have h := ofBE_append [x] b
  have hx : ofBE [x] = x.toNat := by simp [ofBE]
  rwa [hx] at h

/-- Zeros in front do not count. -/
theorem ofBE_replicate_append (n : Nat) (b : Bytes) : ofBE (List.replicate n 0 ++ b) = ofBE b := by
  have hzero : ofBE (List.replicate n 0) = 0 :=
    (ofBE_eq_zero_iff _).mpr fun x hx => List.eq_of_mem_replicate hx
  rw [ofBE_append, hzero, Nat.mul_zero, Nat.zero_add]

/-- A byte string is the zeros in front and the rest. -/
theorem replicate_append_dropWhile (b : Bytes) :
    List.replicate (b.takeWhile (· == 0)).length 0 ++ b.dropWhile (· == 0) = b := by
  have hz : b.takeWhile (· == 0) = List.replicate (b.takeWhile (· == 0)).length 0 :=
    List.eq_replicate_of_mem fun x hx => by simpa using List.mem_takeWhile_imp hx
  conv_rhs => rw [← List.takeWhile_append_dropWhile (p := (· == 0)) (l := b)]
  rw [← hz]

end Lib
end PtpCore
