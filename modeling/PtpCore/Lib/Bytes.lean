import Mathlib.Data.List.Induction
import Mathlib.Data.List.TakeWhile
import Mathlib.Tactic.Ring

/-!
# Byte strings: big-endian numbers and writes into a block

Two vocabularies that every layer above shares. The first is the fixed-width big-endian
encoding of a natural number, `toBE`/`ofBE`, with the two round trips. The second is the
effect of a `memcpy` into a block of memory: `overwrite m i d` puts `d` at offset `i` of `m`
and leaves every other position alone. Positions and lengths are all the lemmas speak of, so
they are stated over an arbitrary element type.
-/

namespace PtpCore
namespace Lib

/-- A byte string: the contents of a C++ `std::string`, or of a block of memory. -/
abbrev Bytes := List UInt8

/-- What a C function sees of a byte string: everything in front of the first zero. -/
def cString (b : Bytes) : Bytes := b.takeWhile (· != 0)

theorem cString_eq_self {b : Bytes} (h : ∀ x ∈ b, x ≠ 0) : cString b = b :=
  List.takeWhile_eq_self_iff.mpr fun x hx => by simpa using h x hx

theorem ne_zero_of_mem_cString {b : Bytes} {x : UInt8} (h : x ∈ cString b) : x ≠ 0 := by
  simpa using List.mem_takeWhile_imp h

/-- What can be checked for every byte. -/
theorem forall_byte {P : UInt8 → Prop} (h : ∀ n, n < 256 → P (UInt8.ofNat n)) (x : UInt8) :
    P x := by
  have hx := h x.toNat x.toNat_lt
  rwa [UInt8.ofNat_toNat] at hx

/-! ## Big-endian numbers -/

/-- The `w` low-order bytes of `n`, most significant first. -/
def toBE : Nat → Nat → Bytes
  | 0, _ => []
  | w + 1, n => toBE w (n / 256) ++ [UInt8.ofNat n]

/-- The number a big-endian byte string denotes. -/
def ofBE (b : Bytes) : Nat := b.foldl (fun acc x => acc * 256 + x.toNat) 0

@[simp] theorem length_toBE (w n : Nat) : (toBE w n).length = w := by
  induction w generalizing n with
  | zero => rfl
  | succ w ih => simp [toBE, ih]

/-- The bytes of `toBE w n` in front of `b`, the last one first. This is faster to evaluate. -/
def consBE : Nat → Nat → Bytes → Bytes
  | 0, _, b => b
  | w + 1, n, b => consBE w (n / 256) (UInt8.ofNat n :: b)

theorem consBE_eq_append (w n : Nat) (b : Bytes) : consBE w n b = toBE w n ++ b := by
  induction w generalizing n b with
  | zero => rfl
  | succ w ih => rw [consBE, ih, toBE, List.append_assoc, List.singleton_append]

theorem toBE_eq_consBE (w n : Nat) : toBE w n = consBE w n [] := by
  rw [consBE_eq_append, List.append_nil]

@[simp] theorem ofBE_nil : ofBE [] = 0 := rfl

theorem ofBE_append_singleton (b : Bytes) (x : UInt8) :
    ofBE (b ++ [x]) = ofBE b * 256 + x.toNat := by
  simp [ofBE]

theorem ofBE_toBE (w n : Nat) : ofBE (toBE w n) = n % 256 ^ w := by
  induction w generalizing n with
  | zero => simp [toBE, Nat.mod_one]
  | succ w ih =>
    have hbyte : (UInt8.ofNat n).toNat = n % 256 := UInt8.toNat_ofNat'
    rw [toBE, ofBE_append_singleton, ih, hbyte, pow_succ, mul_comm (256 ^ w) 256, Nat.mod_mul]
    omega

theorem ofBE_toBE_of_lt {w n : Nat} (h : n < 256 ^ w) : ofBE (toBE w n) = n := by
  rw [ofBE_toBE, Nat.mod_eq_of_lt h]

theorem ofBE_lt (b : Bytes) : ofBE b < 256 ^ b.length := by
  induction b using List.reverseRecOn with
  | nil => simp
  | append_singleton b x ih =>
    have hx : x.toNat < 256 := x.toNat_lt
    rw [ofBE_append_singleton, List.length_append, List.length_singleton, Nat.pow_succ]
    omega

theorem toBE_ofBE (b : Bytes) : toBE b.length (ofBE b) = b := by
  induction b using List.reverseRecOn with
  | nil => rfl
  | append_singleton b x ih =>
    have hx : x.toNat < 256 := x.toNat_lt
    have hdiv : (ofBE b * 256 + x.toNat) / 256 = ofBE b := by omega
    rw [ofBE_append_singleton, List.length_append, List.length_singleton, toBE, hdiv, ih]
    simp

theorem toBE_mod (w n : Nat) : toBE w (n % 256 ^ w) = toBE w n := by
  have h := toBE_ofBE (toBE w n)
  rwa [length_toBE, ofBE_toBE] at h

theorem toBE_add (v w n : Nat) : toBE (v + w) n = toBE v (n / 256 ^ w) ++ toBE w n := by
  induction w generalizing n with
  | zero => simp [toBE]
  | succ w ih =>
    rw [← Nat.add_assoc, toBE, ih, Nat.div_div_eq_div_mul, ← Nat.pow_succ', List.append_assoc, toBE]

/-! ## Writing into a block -/

section Overwrite

variable {α : Type}

/-- `memcpy(m + i, d, d.length)`. -/
def overwrite (m : List α) (i : Nat) (d : List α) : List α :=
  m.take i ++ (d ++ m.drop (i + d.length))

theorem length_overwrite {m d : List α} {i : Nat} (h : i + d.length ≤ m.length) :
    (overwrite m i d).length = m.length := by
  simp only [overwrite, List.length_append, List.length_take, List.length_drop]
  omega

/-- The bytes just written read back. -/
theorem take_drop_overwrite {m d : List α} {i : Nat} (h : i ≤ m.length) :
    ((overwrite m i d).drop i).take d.length = d := by
  have hlen : (m.take i).length = i := by simpa using h
  rw [overwrite, List.drop_left' hlen, List.take_left]

/-- Up to the end of the write, the block is its old head followed by the data. -/
theorem take_overwrite_add {m d : List α} {i : Nat} (h : i ≤ m.length) :
    (overwrite m i d).take (i + d.length) = m.take i ++ d := by
  have hlen : (m.take i ++ d).length = i + d.length := by
    rw [List.length_append, List.length_take, Nat.min_eq_left h]
  rw [overwrite, ← List.append_assoc, List.take_left' hlen]

/-- What lies wholly behind the write is unchanged. -/
theorem drop_overwrite {m d : List α} {i n : Nat} (hn : i + d.length ≤ n) (h : n ≤ m.length) :
    (overwrite m i d).drop n = m.drop n := by
  have hlen : (m.take i ++ d).length = i + d.length := by
    rw [List.length_append, List.length_take, Nat.min_eq_left (by omega)]
  rw [overwrite, ← List.append_assoc, List.drop_append, List.drop_eq_nil_of_le (by omega),
    List.nil_append, List.drop_drop, hlen]
  congr 1
  omega

/-- A write inside the first part of a block does not see the second part. -/
theorem overwrite_append_left {a b d : List α} {i : Nat} (h : i + d.length ≤ a.length) :
    overwrite (a ++ b) i d = overwrite a i d ++ b := by
  rw [overwrite, overwrite, List.take_append_of_le_length (by omega),
    List.drop_append_of_le_length (by omega)]
  simp

/-- A write that stays inside a prefix is that write into the prefix. -/
theorem take_overwrite_comm {m d : List α} {i n : Nat} (hn : i + d.length ≤ n)
    (h : n ≤ m.length) : (overwrite m i d).take n = overwrite (m.take n) i d := by
  have hlen : (m.take n).length = n := by simpa using h
  have hsplit : overwrite m i d = overwrite (m.take n) i d ++ m.drop n := by
    rw [← overwrite_append_left (by omega), List.take_append_drop]
  have hw : (overwrite (m.take n) i d).length = n := by
    rw [length_overwrite (by omega), hlen]
  rw [hsplit, List.take_left' hw]

/-- `n` positions of `m` from position `i` on. -/
def slice (m : List α) (i n : Nat) : List α := (m.drop i).take n

theorem getElem?_slice (m : List α) (i n j : Nat) :
    (slice m i n)[j]? = if j < n then m[i + j]? else none := by
  rw [slice, List.getElem?_take, List.getElem?_drop]

theorem slice_take {m : List α} {i n k : Nat} (h : i + n ≤ k) :
    slice (m.take k) i n = slice m i n := by
  rw [slice, slice, List.drop_take, List.take_take, Nat.min_eq_left (by omega)]

theorem slice_append_left {a b : List α} {i n : Nat} (h : i + n ≤ a.length) :
    slice (a ++ b) i n = slice a i n := by
  rw [← slice_take h, List.take_left]

theorem slice_append_right {a b : List α} {k : Nat} (h : a.length = k) (i n : Nat) :
    slice (a ++ b) (k + i) n = slice b i n := by
  rw [slice, slice, ← List.drop_drop, List.drop_left' h]

theorem slice_append_slice (m : List α) (i a b : Nat) :
    slice m i a ++ slice m (i + a) b = slice m i (a + b) := by
  rw [slice, slice, slice, ← List.drop_drop, List.take_add]

/-- Two strings that stand one behind the other. -/
theorem slice_eq_append {m a b : List α} {i : Nat}
    (h : slice m i (a.length + b.length) = a ++ b) :
    slice m i a.length = a ∧ slice m (i + a.length) b.length = b := by
  have htake := congrArg (List.take a.length) h
  have hdrop := congrArg (List.drop a.length) h
  rw [slice, List.take_take, Nat.min_eq_left (Nat.le_add_right ..), List.take_left] at htake
  rw [slice, List.drop_take, List.drop_drop, Nat.add_sub_cancel_left, List.drop_left] at hdrop
  exact ⟨htake, hdrop⟩

/-- Reading one position of a written block. -/
theorem getElem?_overwrite {m d : List α} {i j : Nat} (h : i + d.length ≤ m.length) :
    (overwrite m i d)[j]? = if i ≤ j ∧ j < i + d.length then d[j - i]? else m[j]? := by
  have hlen : (m.take i).length = i := by
    rw [List.length_take, Nat.min_eq_left (by omega)]
  rw [overwrite]
  by_cases h1 : j < i
  · rw [if_neg (by omega), List.getElem?_append_left (by omega), List.getElem?_take, if_pos h1]
  · rw [List.getElem?_append_right (by omega), hlen]
    by_cases h2 : j < i + d.length
    · rw [if_pos ⟨by omega, h2⟩, List.getElem?_append_left (by omega)]
    · rw [if_neg (by omega), List.getElem?_append_right (by omega), List.getElem?_drop]
      congr 1
      omega

/-- A slice that the write covers exactly is the data written. -/
theorem slice_overwrite_self {m d : List α} {i n : Nat} (hn : n = d.length)
    (h : i + d.length ≤ m.length) : slice (overwrite m i d) i n = d := by
  rw [slice, hn, take_drop_overwrite (by omega)]

/-- A slice that the write does not touch reads as before. -/
theorem slice_overwrite_disjoint {m d : List α} {i j n : Nat} (h : i + d.length ≤ m.length)
    (hd : j + n ≤ i ∨ i + d.length ≤ j) : slice (overwrite m i d) j n = slice m j n := by
  apply List.ext_getElem?
  intro k
  rw [getElem?_slice, getElem?_slice]
  by_cases hk : k < n
  · rw [if_pos hk, if_pos hk, getElem?_overwrite h, if_neg (by omega)]
  · rw [if_neg hk, if_neg hk]

/-- Two writes, one behind the other, are one. -/
theorem overwrite_overwrite {m a b : List α} {i : Nat} (h : i + a.length ≤ m.length) :
    overwrite (overwrite m i a) (i + a.length) b = overwrite m i (a ++ b) := by
  have hlen : (m.take i ++ a).length = i + a.length := by
    rw [List.length_append, List.length_take, Nat.min_eq_left (by omega)]
  have htake : (overwrite m i a).take (i + a.length) = m.take i ++ a :=
    take_overwrite_add (by omega)
  have hdrop : (overwrite m i a).drop (i + a.length + b.length) =
      m.drop (i + (a ++ b).length) := by
    rw [overwrite, ← List.append_assoc, List.drop_append, hlen,
      List.drop_eq_nil_of_le (by omega), List.nil_append, List.drop_drop, List.length_append]
    congr 1
    omega
  rw [overwrite, htake, hdrop, overwrite]
  simp only [List.append_assoc]

/-! ### Blocks of one size -/

/-- `f` on each of the first `n` blocks of `w` positions. -/
def mapBlocks (w : Nat) (f : List α → List α) (n : Nat) (m : List α) : List α :=
  (List.range n).flatMap fun i => f (slice m (i * w) w)

theorem mapBlocks_succ (w : Nat) (f : List α → List α) (n : Nat) (m : List α) :
    mapBlocks w f (n + 1) m = mapBlocks w f n m ++ f (slice m (n * w) w) := by
  simp [mapBlocks, List.range_succ]

theorem length_slice {m : List α} {i n : Nat} (h : i + n ≤ m.length) :
    (slice m i n).length = n := by
  rw [slice, List.length_take, List.length_drop]
  omega

section

variable {w n : Nat} {f g : List α → List α} {m : List α}

theorem length_mapBlocks (hf : ∀ b, b.length = w → (f b).length = w) (h : n * w ≤ m.length) :
    (mapBlocks w f n m).length = n * w := by
  induction n with
  | zero => rw [Nat.zero_mul]; rfl
  | succ n ih =>
    rw [Nat.succ_mul] at h
    rw [mapBlocks_succ, List.length_append, ih (by omega), hf _ (length_slice h), Nat.succ_mul]

/-- The blocks that come before the last are not seen by it. -/
theorem mapBlocks_append {m' : List α} (h : n * w ≤ m.length) :
    mapBlocks w f n (m ++ m') = mapBlocks w f n m := by
  induction n with
  | zero => rfl
  | succ n ih =>
    rw [Nat.succ_mul] at h
    rw [mapBlocks_succ, mapBlocks_succ, ih (by omega), slice_append_left h]

/-- If `g` undoes `f` on every block, then it does on all of them. -/
theorem mapBlocks_mapBlocks (hf : ∀ b, b.length = w → (f b).length = w)
    (hg : ∀ b, b.length = w → g (f b) = b) (h : n * w ≤ m.length) :
    mapBlocks w g n (mapBlocks w f n m) = m.take (n * w) := by
  induction n with
  | zero => rw [Nat.zero_mul]; rfl
  | succ n ih =>
    rw [Nat.succ_mul] at h
    have hlen : (mapBlocks w f n m).length = n * w := length_mapBlocks hf (by omega)
    have hblock : (slice m (n * w) w).length = w := length_slice h
    have hlast : slice (mapBlocks w f n m ++ f (slice m (n * w) w)) (n * w) w =
        f (slice m (n * w) w) := by
      rw [← Nat.add_zero (n * w), slice_append_right hlen, Nat.add_zero, slice, List.drop_zero,
        List.take_of_length_le (Nat.le_of_eq (hf _ hblock))]
    rw [mapBlocks_succ, mapBlocks_succ, mapBlocks_append (Nat.le_of_eq hlen.symm), ih (by omega),
      hlast, hg _ hblock, slice, Nat.succ_mul, List.take_add]

theorem mapBlocks_add {k : Nat} {a b : List α} (h : a.length = k * w) (n : Nat) :
    mapBlocks w f (k + n) (a ++ b) = mapBlocks w f k a ++ mapBlocks w f n b := by
  induction n with
  | zero => rw [Nat.add_zero, mapBlocks_append (Nat.le_of_eq h.symm)]; exact (List.append_nil _).symm
  | succ n ih =>
    rw [← Nat.add_assoc, mapBlocks_succ, ih, mapBlocks_succ, Nat.add_mul, slice_append_right h,
      List.append_assoc]

theorem slice_mapBlocks {i : Nat} (hf : ∀ b, b.length = w → (f b).length = w)
    (h : n * w ≤ m.length) (hi : i < n) :
    slice (mapBlocks w f n m) (i * w) w = f (slice m (i * w) w) := by
  induction n with
  | zero => exact absurd hi (Nat.not_lt_zero i)
  | succ n ih =>
    rw [Nat.succ_mul] at h
    have hlen : (mapBlocks w f n m).length = n * w := length_mapBlocks hf (by omega)
    rw [mapBlocks_succ]
    by_cases hin : i < n
    · have hle : (i + 1) * w ≤ n * w := Nat.mul_le_mul_right w hin
      rw [Nat.succ_mul] at hle
      rw [slice_append_left (by omega), ih (by omega) hin]
    · obtain rfl : i = n := by omega
      rw [← Nat.add_zero (i * w), slice_append_right hlen, Nat.add_zero, slice, List.drop_zero,
        List.take_of_length_le (Nat.le_of_eq (hf _ (length_slice h)))]

/-- Blocks that were put together one by one. -/
theorem mapBlocks_flatMap {β : Type} {g : β → List α} (hg : ∀ x, (g x).length = w) (xs : List β) :
    mapBlocks w f xs.length (xs.flatMap g) = xs.flatMap fun x => f (g x) := by
  induction xs with
  | nil => rfl
  | cons x xs ih =>
    have hone : mapBlocks w f 1 (g x) = f (g x) := by
      have hx := hg x
      rw [mapBlocks_succ, Nat.zero_mul, slice, List.drop_zero, ← hx, List.take_length]
      rfl
    rw [List.flatMap_cons, List.flatMap_cons, List.length_cons, Nat.add_comm xs.length 1,
      mapBlocks_add (by rw [hg, Nat.one_mul]), hone, ih]

end

end Overwrite

end Lib
end PtpCore
