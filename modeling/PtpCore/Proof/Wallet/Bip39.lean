import PtpCore.Lib.BitPack
import PtpCore.Wallet.Bip39
import PtpCore.Proof.Wallet.WordList

/-!
# Phrases and entropies

Both directions of BIP39, over any list of 2048 distinct words and all seven lengths. An entropy
with its checksum behind it (`withChecksum`) is a block of bits that is cut into numbers of eleven
bits, and a phrase is the words with these numbers (`bip39MnemonicFromBytes_eq`). The bits behind
the last whole number are zero (`bit_withChecksum`), so the numbers determine the block: decoding
the phrase of an entropy gives the entropy (`decode_encode`), and a phrase that the decoder accepts
is the phrase of what it decodes to (`encode_decode`).
-/

namespace PtpCore
namespace Proof
namespace Wallet

open Lib Lib.BitPack
open PtpCore.Wallet

/-! ## The bit loops -/

theorem and_mask_ne_zero (x : UInt8) (pos : Nat) :
    (x &&& u8Mask pos != 0) = x.toNat.testBit (7 - pos % 8) := by
  have hmask : (u8Mask pos).toNat = 2 ^ (7 - pos % 8) := by
    rw [u8Mask, UInt8.toNat_ofNat', Nat.one_shiftLeft]
    exact Nat.mod_eq_of_lt (Nat.pow_lt_pow_right (by omega) (by omega))
  have hand : (x &&& u8Mask pos).toNat =
      (x.toNat.testBit (7 - pos % 8)).toNat * 2 ^ (7 - pos % 8) := by
    rw [UInt8.toNat_and, hmask, Nat.and_two_pow]
  rw [Bool.eq_iff_iff, bne_iff_ne, ne_eq, ← UInt8.toNat_inj, hand]
  cases x.toNat.testBit (7 - pos % 8) <;> simp

theorem extractIndex_eq (bits : Nat) (b : Bytes) (n : Nat) :
    extractIndex bits b n = extract bits b n := by
  have hstep : ∀ v pos, v <<< 1 ||| (if u8At b pos &&& u8Mask pos != 0 then 1 else 0) =
      2 * v + (bit b pos).toNat := by
    intro v pos
    have hlt : (bit b pos).toNat < 2 ^ 1 := Bool.toNat_lt _
    have hif : (if u8At b pos &&& u8Mask pos != 0 then 1 else 0) = (bit b pos).toNat := by
      rw [and_mask_ne_zero]
      change (if bit b pos = true then 1 else 0) = _
      cases bit b pos <;> rfl
    rw [hif, ← Nat.shiftLeft_add_eq_or_of_lt hlt, Nat.shiftLeft_eq, Nat.pow_one, Nat.mul_comm]
  rw [extractIndex, extract, numOf]
  congr 1
  funext v i
  exact hstep v (n * bits + i)

theorem storeIndex_eq (bits : Nat) (b : Bytes) (n v : Nat) :
    storeIndex bits b n v = store bits b n v := by
  have htest : ∀ k, (v &&& 1 <<< k != 0) = v.testBit k := by
    intro k
    rw [Nat.one_shiftLeft, Nat.and_two_pow, Bool.eq_iff_iff, bne_iff_ne]
    cases v.testBit k <;> simp
  rw [storeIndex, store, storeBits]
  congr 1
  funext out i
  have hset : out.set ((n * bits + i) / 8) (u8At out (n * bits + i) ||| u8Mask (n * bits + i)) =
      setBit out (n * bits + i) := by
    rw [setBit, u8Mask, Nat.one_shiftLeft]
    rfl
  dsimp only
  rw [htest, Nat.sub_right_comm, hset]

/-! ## Words to bits -/

section

variable {w : Words} (hw : IsBip39 w)
include hw

theorem storeWords_map {is : List Nat} (his : ∀ i ∈ is, i < 2 ^ 11) (n : Nat) (out : Bytes) :
    storeWords w n out (is.map (wordAt w)) = some (storeFrom 11 n out is) := by
  induction is generalizing n out with
  | nil => rfl
  | cons i is ih =>
    rw [List.map_cons, storeWords, hw.lookup_wordAt (his i List.mem_cons_self)]
    dsimp only
    rw [ih fun j hj => his j (List.mem_cons_of_mem i hj), hw.bits, storeIndex_eq]
    rfl

/-- Only words of the list are stored. -/
theorem storeWords_some {ws : List Bytes} (hz : ∀ x ∈ ws, ∀ y ∈ x, y ≠ 0) {n : Nat}
    {out out' : Bytes} (h : storeWords w n out ws = some out') :
    ∃ is : List Nat, (∀ i ∈ is, i < 2 ^ 11) ∧ ws = is.map (wordAt w) := by
  induction ws generalizing n out with
  | nil => exact ⟨[], fun i hi => (nomatch hi), rfl⟩
  | cons word ws ih =>
    rw [storeWords] at h
    cases hl : wordlistLookupWord w word with
    | zero =>
      rw [hl] at h
      cases h
    | succ i =>
      rw [hl] at h
      obtain ⟨hi, hword⟩ := hw.eq_wordAt_of_lookup (hz word List.mem_cons_self) hl
      obtain ⟨is, his, rfl⟩ := ih (fun x hx => hz x (List.mem_cons_of_mem word hx)) h
      refine ⟨i :: is, ?_, ?_⟩
      · intro j hj
        rcases List.mem_cons.mp hj with rfl | hj
        · exact hi
        · exact his j hj
      · rw [hword]
        rfl

end

/-! ## Bits to words -/

/-- The whole numbers of eleven bits in a block. -/
def indicesOf (b : Bytes) : List Nat := (List.range (b.length * 8 / 11)).map (extract 11 b)

theorem indicesOf_lt (b : Bytes) : ∀ i ∈ indicesOf b, i < 2 ^ 11 := by
  intro i hi
  obtain ⟨n, -, rfl⟩ := List.mem_map.mp hi
  exact extract_lt 11 b n

theorem dropLast_flatMap_space {ws : List Bytes} (h : ws ≠ []) :
    (ws.flatMap (· ++ [space])).dropLast = [space].intercalate ws := by
  induction ws with
  | nil => exact absurd rfl h
  | cons x ws ih =>
    cases ws with
    | nil => simp
    | cons y ws =>
      have hne : (y :: ws).flatMap (· ++ [space]) ≠ [] := by simp
      rw [List.flatMap_cons, List.dropLast_append_of_ne_nil hne, ih (by simp)]
      simp [List.intercalate]

theorem mnemonicFromBytes_eq {w : Words} (hw : IsBip39 w) {b : Bytes} (hb : 2 ≤ b.length) :
    mnemonicFromBytes w b = some (phrase w (indicesOf b)) := by
  have hn : 0 < b.length * 8 / 11 := Nat.div_pos (by omega) (by omega)
  have hne : indicesOf b ≠ [] := by
    intro hnil
    have : (indicesOf b).length = 0 := by rw [hnil]; rfl
    rw [indicesOf, List.length_map, List.length_range] at this
    omega
  have hstr : ((List.range (b.length * 8 / w.bits)).flatMap fun i =>
      w.indices.getD (extractIndex w.bits b i) [] ++ [space]) =
      ((indicesOf b).map (wordAt w)).flatMap (· ++ [space]) := by
    rw [indicesOf, List.map_map, List.flatMap_map, hw.bits]
    congr 1
    funext i
    rw [extractIndex_eq]
    rfl
  have hmap : (indicesOf b).map (wordAt w) ≠ [] := by simpa using hne
  have hlen : (((indicesOf b).map (wordAt w)).flatMap (· ++ [space])).length ≠ 0 := by
    cases hm : (indicesOf b).map (wordAt w) with
    | nil => exact absurd hm hmap
    | cons x ws => simp
  rw [mnemonicFromBytes, hstr, if_neg hlen, dropLast_flatMap_space hmap]
  rfl

/-! ## The checksum behind the entropy -/

theorem admitted_cases {len : Nat} (h : lenToMask len ≠ 0) :
    len ∈ [16, 20, 24, 28, 32, 36, 40] := by
  unfold lenToMask at h
  split at h
  all_goals first | decide | exact absurd rfl h

/-- The place, behind the entropy, of bit `j` of the checksum: its bytes are stored low byte first,
    and the bits of a byte high bit first. -/
def checksumPos (j : Nat) : Nat := if j < 8 then 7 - j else 23 - j

/-- The mask keeps the first `len / 4` places. -/
theorem testBit_lenToMask {len j : Nat} (h : lenToMask len ≠ 0) (hj : j < 16) :
    (lenToMask len).testBit j = decide (checksumPos j < len / 4) := by
  have hall : ∀ len ∈ [16, 20, 24, 28, 32, 36, 40], ∀ j, j < 16 →
      (lenToMask len).testBit j = decide (checksumPos j < len / 4) := by decide
  exact hall len (admitted_cases h) j hj

/-- The number of bytes the checksum takes. -/
def checksumLen (mask : Nat) : Nat := if mask > 0xff then 2 else 1

/-- Entropy and checksum together hold `3 * len / 4` whole numbers and less than one more. -/
theorem numbers_of_admitted {len : Nat} (h : lenToMask len ≠ 0) :
    16 ≤ len ∧ len + checksumLen (lenToMask len) ≤ 42 ∧
      (len + checksumLen (lenToMask len)) * 8 / 11 * 11 = 8 * len + len / 4 ∧
      lenToMask len < 2 ^ (8 * checksumLen (lenToMask len)) := by
  have hall : ∀ len ∈ [16, 20, 24, 28, 32, 36, 40],
      16 ≤ len ∧ len + checksumLen (lenToMask len) ≤ 42 ∧
        (len + checksumLen (lenToMask len)) * 8 / 11 * 11 = 8 * len + len / 4 ∧
        lenToMask len < 2 ^ (8 * checksumLen (lenToMask len)) := by decide
  exact hall len (admitted_cases h)

/-- The checksum as `checksum_ok` reads it. -/
def storedChecksum (b : Bytes) (idx mask : Nat) : Nat :=
  if mask > 0xff then (b.getD idx 0).toNat ||| (b.getD (idx + 1) 0).toNat <<< 8
  else (b.getD idx 0).toNat

theorem checksumOk_eq (b : Bytes) (idx mask : Nat) :
    checksumOk b idx mask =
      (storedChecksum b idx mask &&& mask == bip39Checksum (b.take idx) mask) := rfl

/-- The checksum as `bip39_mnemonic_from_bytes` writes it. -/
def trailer (mask v : Nat) : Bytes :=
  if mask > 0xff then [UInt8.ofNat (v &&& 0xFF), UInt8.ofNat ((v >>> 8) &&& 0xFF)]
  else [UInt8.ofNat (v &&& 0xFF)]

@[simp] theorem length_trailer (mask v : Nat) : (trailer mask v).length = checksumLen mask := by
  unfold trailer checksumLen
  split <;> rfl

private theorem byte_low (x : UInt8) (y : Nat) : (x.toNat ||| y <<< 8) &&& 0xFF = x.toNat := by
  have hx : x.toNat < 2 ^ 8 := x.toNat_lt
  rw [Nat.or_comm, ← Nat.shiftLeft_add_eq_or_of_lt hx, Nat.shiftLeft_eq,
    show (0xFF : Nat) = 2 ^ 8 - 1 from rfl, Nat.and_two_pow_sub_one_eq_mod]
  omega

private theorem byte_high (x y : UInt8) :
    ((x.toNat ||| y.toNat <<< 8) >>> 8) &&& 0xFF = y.toNat := by
  have hx : x.toNat < 2 ^ 8 := x.toNat_lt
  have hy : y.toNat < 2 ^ 8 := y.toNat_lt
  rw [Nat.or_comm, ← Nat.shiftLeft_add_eq_or_of_lt hx, Nat.shiftLeft_eq, Nat.shiftRight_eq_div_pow,
    show (0xFF : Nat) = 2 ^ 8 - 1 from rfl, Nat.and_two_pow_sub_one_eq_mod]
  omega

/-- Writing what was read gives the bytes that were read. -/
theorem take_eq_trailer {b : Bytes} {idx mask : Nat} (h : idx + checksumLen mask ≤ b.length) :
    b.take (idx + checksumLen mask) = b.take idx ++ trailer mask (storedChecksum b idx mask) := by
  have hget : ∀ i, i < b.length → b[i]? = some (b.getD i 0) := by
    intro i hi
    rw [List.getD_eq_getElem?_getD, List.getElem?_eq_getElem hi]
    rfl
  unfold checksumLen at h ⊢
  unfold trailer storedChecksum
  rw [List.take_add]
  congr 1
  split
  · rename_i hm
    rw [if_pos hm] at h
    rw [byte_low, byte_high, UInt8.ofNat_toNat, UInt8.ofNat_toNat]
    apply List.ext_getElem?
    intro i
    rw [List.getElem?_take, List.getElem?_drop]
    rcases i with _ | _ | i
    · exact hget idx (by omega)
    · exact hget (idx + 1) (by omega)
    · rfl
  · rename_i hm
    rw [if_neg hm] at h
    have hx : (b.getD idx 0).toNat &&& 0xFF = (b.getD idx 0).toNat := by
      simpa using byte_low (b.getD idx 0) 0
    rw [hx, UInt8.ofNat_toNat]
    apply List.ext_getElem?
    intro i
    rw [List.getElem?_take, List.getElem?_drop]
    rcases i with _ | i
    · exact hget idx (by omega)
    · rfl

/-- Reading what was written gives the number that was written. -/
theorem storedChecksum_trailer (e : Bytes) {mask v : Nat} (hv : v < 2 ^ (8 * checksumLen mask)) :
    storedChecksum (e ++ trailer mask v) e.length mask = v := by
  have hget : ∀ i, (e ++ trailer mask v).getD (e.length + i) 0 = (trailer mask v).getD i 0 := by
    intro i
    rw [List.getD_eq_getElem?_getD, List.getElem?_append_right (by omega),
      ← List.getD_eq_getElem?_getD, Nat.add_sub_cancel_left]
  have hmask : ∀ x : Nat, x &&& 0xFF = x % 2 ^ 8 := fun x => Nat.and_two_pow_sub_one_eq_mod x 8
  have hbyte : ∀ x : Nat, (UInt8.ofNat (x % 2 ^ 8)).toNat = x % 2 ^ 8 := by
    intro x
    rw [UInt8.toNat_ofNat']
    omega
  have h0 := hget 0
  rw [Nat.add_zero] at h0
  unfold checksumLen at hv
  unfold storedChecksum
  rw [h0, hget 1]
  unfold trailer
  split
  · rename_i hm
    rw [if_pos hm] at hv
    change (UInt8.ofNat (v &&& 0xFF)).toNat ||| (UInt8.ofNat ((v >>> 8) &&& 0xFF)).toNat <<< 8 = v
    rw [hmask, hmask, hbyte, hbyte, Nat.or_comm,
      ← Nat.shiftLeft_add_eq_or_of_lt (Nat.mod_lt _ (by omega)), Nat.shiftLeft_eq,
      Nat.shiftRight_eq_div_pow]
    omega
  · rename_i hm
    rw [if_neg hm] at hv
    change (UInt8.ofNat (v &&& 0xFF)).toNat = v
    rw [hmask, hbyte]
    omega

theorem testBit_storedChecksum {b : Bytes} {idx mask j : Nat} (hj : j < 8 * checksumLen mask) :
    (storedChecksum b idx mask).testBit j = bit b (8 * idx + checksumPos j) := by
  have hbit : ∀ i k, k < 8 → (b.getD i 0).toNat.testBit k = bit b (8 * i + (7 - k)) := by
    intro i k hk
    rw [bit, show (8 * i + (7 - k)) / 8 = i by omega, show 7 - (8 * i + (7 - k)) % 8 = k by omega]
  unfold checksumLen at hj
  unfold storedChecksum checksumPos
  split
  · rename_i hm
    rw [if_pos hm] at hj
    rw [Nat.testBit_or, Nat.testBit_shiftLeft]
    by_cases h8 : j < 8
    · rw [if_pos h8, hbit idx j h8, decide_eq_false (show ¬ (j ≥ 8) by omega), Bool.false_and,
        Bool.or_false]
    · have hlow : (b.getD idx 0).toNat.testBit j = false :=
        Nat.testBit_lt_two_pow (Nat.lt_of_lt_of_le (b.getD idx 0).toNat_lt
          (Nat.pow_le_pow_right (by omega) (show 8 ≤ j by omega)))
      rw [if_neg h8, hlow, decide_eq_true (show j ≥ 8 by omega), Bool.false_or, Bool.true_and,
        hbit (idx + 1) (j - 8) (by omega)]
      congr 1
      omega
  · rename_i hm
    rw [if_neg hm] at hj
    rw [if_pos (by omega), hbit idx j (by omega)]

theorem storedChecksum_lt (b : Bytes) (idx mask : Nat) :
    storedChecksum b idx mask < 2 ^ (8 * checksumLen mask) := by
  have hx : ∀ i, (b.getD i 0).toNat < 2 ^ 8 := fun i => (b.getD i 0).toNat_lt
  unfold storedChecksum checksumLen
  split
  · rw [Nat.or_comm, ← Nat.shiftLeft_add_eq_or_of_lt (hx idx), Nat.shiftLeft_eq]
    have := hx idx
    have := hx (idx + 1)
    omega
  · exact hx idx

/-- A block that is zero behind its checksum bits holds nothing the mask would remove. -/
theorem storedChecksum_and_mask {b : Bytes} {len : Nat} (h : lenToMask len ≠ 0)
    (hzero : ∀ q, 8 * len + len / 4 ≤ q → bit b q = false) :
    storedChecksum b len (lenToMask len) &&& lenToMask len =
      storedChecksum b len (lenToMask len) := by
  apply Nat.eq_of_testBit_eq
  intro j
  rw [Nat.testBit_and]
  by_cases hj : j < 8 * checksumLen (lenToMask len)
  · have h16 : j < 16 := by
      unfold checksumLen at hj
      split at hj <;> omega
    rw [testBit_lenToMask h h16, testBit_storedChecksum hj]
    by_cases hpos : checksumPos j < len / 4
    · rw [decide_eq_true hpos, Bool.and_true]
    · rw [hzero _ (by omega), Bool.false_and]
  · have hlt := Nat.lt_of_lt_of_le (storedChecksum_lt b len (lenToMask len))
      (Nat.pow_le_pow_right (by omega) (Nat.le_of_not_lt hj))
    rw [Nat.testBit_lt_two_pow hlt, Bool.false_and]

/-- The entropy with its checksum: what the words of its phrase spell. -/
def withChecksum (e : Bytes) : Bytes :=
  e ++ trailer (lenToMask e.length) (bip39Checksum e (lenToMask e.length))

theorem length_withChecksum (e : Bytes) :
    (withChecksum e).length = e.length + checksumLen (lenToMask e.length) := by
  rw [withChecksum, List.length_append, length_trailer]

theorem take_withChecksum (e : Bytes) : (withChecksum e).take e.length = e := by
  rw [withChecksum, List.take_left]

section

variable {e : Bytes} (he : lenToMask e.length ≠ 0)
include he

theorem storedChecksum_withChecksum :
    storedChecksum (withChecksum e) e.length (lenToMask e.length) =
      bip39Checksum e (lenToMask e.length) := by
  have hle : bip39Checksum e (lenToMask e.length) ≤ lenToMask e.length := Nat.and_le_right
  exact storedChecksum_trailer e
    (Nat.lt_of_le_of_lt hle (numbers_of_admitted he).2.2.2)

/-- Behind the last whole number there are only zeros. -/
theorem bit_withChecksum {q : Nat} (hq : 8 * e.length + e.length / 4 ≤ q) :
    bit (withChecksum e) q = false := by
  by_cases hin : q < 8 * (e.length + checksumLen (lenToMask e.length))
  · -- the place of a checksum bit, and not of one the mask keeps
    obtain ⟨j, hj, hpos⟩ : ∃ j, j < 8 * checksumLen (lenToMask e.length) ∧
        8 * e.length + checksumPos j = q := by
      refine ⟨checksumPos (q - 8 * e.length), ?_, ?_⟩
      all_goals
        unfold checksumPos
        unfold checksumLen at *
        split at hin <;> split <;> (try split) <;> omega
    have h16 : j < 16 := by
      unfold checksumLen at hj
      split at hj <;> omega
    rw [← hpos, ← testBit_storedChecksum hj, storedChecksum_withChecksum he, bip39Checksum,
      Nat.testBit_and, testBit_lenToMask he h16, decide_eq_false (by omega), Bool.and_false]
  · exact bit_of_le (by rw [length_withChecksum]; omega)

theorem length_indicesOf_withChecksum :
    (indicesOf (withChecksum e)).length * 11 = 8 * e.length + e.length / 4 := by
  rw [indicesOf, List.length_map, List.length_range, length_withChecksum]
  exact (numbers_of_admitted he).2.2.1

theorem bip39MnemonicFromBytes_eq {w : Words} (hw : IsBip39 w) :
    bip39MnemonicFromBytes w e = (.ok, some (phrase w (indicesOf (withChecksum e)))) := by
  obtain ⟨hlen, -⟩ := numbers_of_admitted he
  have hguard : ¬ (e.length = 0 ∨ w.bits ≠ 11 ∨ lenToMask e.length = 0) := by
    rintro (h0 | hbits | hmask)
    · omega
    · exact hbits hw.bits
    · exact he hmask
  have hblock : (if lenToMask e.length > 0xFF then
      e ++ [UInt8.ofNat (bip39Checksum e (lenToMask e.length) &&& 0xFF)] ++
        [UInt8.ofNat ((bip39Checksum e (lenToMask e.length) >>> 8) &&& 0xFF)]
      else e ++ [UInt8.ofNat (bip39Checksum e (lenToMask e.length) &&& 0xFF)]) =
      withChecksum e := by
    unfold withChecksum trailer
    split
    · rw [List.append_assoc]
      rfl
    · rfl
  have h2 : 2 ≤ (withChecksum e).length := by
    rw [length_withChecksum]
    omega
  rw [bip39MnemonicFromBytes]
  dsimp only
  rw [if_neg hguard, hblock, mnemonicFromBytes_eq hw h2]

end

/-! ## Decoding -/

/-- The block that the decoder fills with the numbers of a phrase. -/
def packed (is : List Nat) : Bytes := storeFrom 11 0 (List.replicate bip39EntropyLenMax 0) is

@[simp] theorem length_packed (is : List Nat) : (packed is).length = 42 := by
  rw [packed, length_storeFrom, List.length_replicate]
  rfl

/-- What the decoder takes for the entropy length of a phrase of `n` words. -/
def entropyLen (n : Nat) : Nat :=
  let tmpLen := (n * 11 + 7) / 8 - 1
  if tmpLen > bip39EntropyLen256 then tmpLen - 1 else tmpLen

/-- An entropy length with a checksum is that of one number of words, and that number fits. -/
theorem entropyLen_admitted {n : Nat} (h : lenToMask (entropyLen n) ≠ 0) :
    n * 11 = 8 * entropyLen n + entropyLen n / 4 ∧ (n * 11 + 7) / 8 ≤ 42 ∧
      entropyLen n + checksumLen (lenToMask (entropyLen n)) = (n * 11 + 7) / 8 := by
  have hcases := admitted_cases h
  have hn : n ≤ 40 := by
    by_contra hbig
    have hlen : entropyLen n > 40 := by
      unfold entropyLen bip39EntropyLen256
      dsimp only
      split <;> omega
    have : ∀ l ∈ [16, 20, 24, 28, 32, 36, 40], l ≤ 40 := by decide
    exact absurd (this _ hcases) (by omega)
  have hall : ∀ n, n ≤ 40 → lenToMask (entropyLen n) ≠ 0 →
      n * 11 = 8 * entropyLen n + entropyLen n / 4 ∧ (n * 11 + 7) / 8 ≤ 42 ∧
        entropyLen n + checksumLen (lenToMask (entropyLen n)) = (n * 11 + 7) / 8 := by decide
  exact hall n hn h

theorem bit_packed_of_le {is : List Nat} (hfit : is.length * 11 ≤ 8 * 42) {q : Nat}
    (hq : is.length * 11 ≤ q) : bit (packed is) q = false := by
  have hge : ¬ q / 11 < is.length := by
    rw [Nat.div_lt_iff_lt_mul (by omega)]
    omega
  rw [packed, bip39EntropyLenMax, bit_storeFrom_zero (by omega) hfit, decide_eq_false hge,
    Bool.false_and]

/-- The numbers that were stored are found again in the bytes they reach. -/
theorem indicesOf_packed {is : List Nat} (his : ∀ i ∈ is, i < 2 ^ 11) {len : Nat} (hlen : len ≤ 42)
    (hcount : len * 8 / 11 = is.length) : indicesOf ((packed is).take len) = is := by
  have htake : ((packed is).take len).length = len := by
    rw [List.length_take, length_packed, Nat.min_eq_left hlen]
  have hfit : is.length * 11 ≤ 8 * len := by
    have := Nat.div_mul_le_self (len * 8) 11
    omega
  rw [indicesOf, htake, hcount]
  apply List.ext_getElem?
  intro i
  by_cases hi : i < is.length
  · have hext : extract 11 ((packed is).take len) i = extract 11 (packed is) i := by
      apply numOf_congr
      intro j hj
      exact bit_take (by omega)
    rw [List.getElem?_map, List.getElem?_range hi, Option.map_some, hext, packed,
      bip39EntropyLenMax, extract_storeFrom (by omega) (by omega) his hi,
      List.getD_eq_getElem?_getD, List.getElem?_eq_getElem hi]
    rfl
  · rw [List.getElem?_eq_none (by simpa using Nat.not_lt.mp hi),
      List.getElem?_eq_none (Nat.not_lt.mp hi)]

/-- The numbers of a block that is zero behind them, stored again, are the block. -/
theorem packed_indicesOf {e : Bytes} (he : lenToMask e.length ≠ 0) :
    (packed (indicesOf (withChecksum e))).take (withChecksum e).length = withChecksum e := by
  obtain ⟨-, hfit, hnum, -⟩ := numbers_of_admitted he
  have hlen := length_withChecksum e
  have hfit42 : (withChecksum e).length ≤ 42 := by omega
  apply storeFrom_extract (by omega) _ hfit42
  · intro q hq
    rw [hlen, hnum] at hq
    exact bit_withChecksum he hq
  · rw [hlen, hnum]
    omega

section

variable {w : Words} (hw : IsBip39 w) {is : List Nat} (his : ∀ i ∈ is, i < 2 ^ 11) (hne : is ≠ [])
include hw his hne

theorem mnemonicToBytes_phrase (hfit : (is.length * 11 + 7) / 8 ≤ 42) :
    mnemonicToBytes w (phrase w is) (List.replicate bip39EntropyLenMax 0) =
      (.ok, packed is, (is.length * 11 + 7) / 8) := by
  have hlen : ¬ (is.length * 11 + 7) / 8 > bip39EntropyLenMax := Nat.not_lt.mpr hfit
  rw [mnemonicToBytes]
  dsimp only
  rw [hw.wordlistInit_phrase his hne, List.length_map, List.length_replicate, hw.bits, if_neg hlen,
    storeWords_map hw his]
  rfl

/-- Decoding a phrase of words of the list, when its length is one that has a checksum. -/
theorem bip39MnemonicToBytes_phrase (hmask : lenToMask (entropyLen is.length) ≠ 0) (out : Bytes) :
    bip39MnemonicToBytes w (phrase w is) out =
      if entropyLen is.length ≤ out.length then
        if checksumOk (packed is) (entropyLen is.length) (lenToMask (entropyLen is.length)) then
          (.ok, overwrite out 0 ((packed is).take (entropyLen is.length)), entropyLen is.length)
        else (.einval, out, 0)
      else (.ok, out, entropyLen is.length) := by
  obtain ⟨-, hfit, -⟩ := entropyLen_admitted hmask
  have hmax : ¬ entropyLen is.length > bip39EntropyLenMax := by
    have := (numbers_of_admitted hmask).2.1
    unfold bip39EntropyLenMax
    omega
  have hlen : (if (is.length * 11 + 7) / 8 - 1 > bip39EntropyLen256 then
      (is.length * 11 + 7) / 8 - 1 - 1 else (is.length * 11 + 7) / 8 - 1) =
      entropyLen is.length := rfl
  rw [bip39MnemonicToBytes, if_neg (not_not.mpr hw.bits), mnemonicToBytes_phrase hw his hne hfit]
  dsimp only
  rw [hlen, if_neg hmax]
  split
  · cases hok : checksumOk (packed is) (entropyLen is.length)
        (lenToMask (entropyLen is.length)) with
    | true => rw [if_neg (by rintro (h | h) <;> [exact hmask h; cases h]), if_pos rfl]
    | false => rw [if_pos (Or.inr rfl), if_neg Bool.false_ne_true]
  · rfl

end

/-! ## The two round trips -/

section

variable {w : Words} (hw : IsBip39 w)

/-- The phrase of an entropy. -/
def phraseOf (w : Words) (e : Bytes) : Bytes := phrase w (indicesOf (withChecksum e))

theorem indicesOf_ne_nil {e : Bytes} (he : lenToMask e.length ≠ 0) :
    indicesOf (withChecksum e) ≠ [] := by
  intro hnil
  have hlen := length_indicesOf_withChecksum he
  have := (numbers_of_admitted he).1
  rw [hnil, List.length_nil] at hlen
  omega

theorem entropyLen_indicesOf {e : Bytes} (he : lenToMask e.length ≠ 0) :
    entropyLen (indicesOf (withChecksum e)).length = e.length := by
  have hall : ∀ len ∈ [16, 20, 24, 28, 32, 36, 40],
      entropyLen ((8 * len + len / 4) / 11) = len := by decide
  rw [← hall e.length (admitted_cases he), ← length_indicesOf_withChecksum he,
    Nat.mul_div_cancel _ (by omega)]

include hw

/-- Decoding the phrase of an entropy gives the entropy, if there is room for it; a shorter buffer
    is left alone. -/
theorem decode_encode {e : Bytes} (he : lenToMask e.length ≠ 0) (out : Bytes) :
    bip39MnemonicToBytes w (phraseOf w e) out =
      (.ok, if e.length ≤ out.length then overwrite out 0 e else out, e.length) := by
  have hlen := entropyLen_indicesOf he
  have hblock := packed_indicesOf he
  have htake : (packed (indicesOf (withChecksum e))).take e.length = e := by
    have hle : e.length ≤ (withChecksum e).length := by
      rw [length_withChecksum]
      exact Nat.le_add_right ..
    rw [← Nat.min_eq_left hle, ← List.take_take, hblock, take_withChecksum]
  have hok : checksumOk (packed (indicesOf (withChecksum e))) e.length
      (lenToMask e.length) = true := by
    have hfit := (numbers_of_admitted he).2.1
    -- the checksum is read from the first bytes of the block
    have hstored : trailer (lenToMask e.length)
        (storedChecksum (packed (indicesOf (withChecksum e))) e.length (lenToMask e.length)) =
        trailer (lenToMask e.length) (bip39Checksum e (lenToMask e.length)) := by
      have h := take_eq_trailer (b := packed (indicesOf (withChecksum e)))
        (show e.length + checksumLen (lenToMask e.length) ≤ _ by rw [length_packed]; exact hfit)
      rw [← length_withChecksum, hblock, htake] at h
      exact (List.append_cancel_left h).symm
    have hle : bip39Checksum e (lenToMask e.length) ≤ lenToMask e.length := Nat.and_le_right
    have hlt := Nat.lt_of_le_of_lt hle (numbers_of_admitted he).2.2.2
    have hread := storedChecksum_trailer e hlt
    rw [← hstored, storedChecksum_trailer e (storedChecksum_lt ..)] at hread
    rw [checksumOk_eq, htake, hread, bip39Checksum, Nat.and_assoc, Nat.and_self]
    exact beq_self_eq_true _
  rw [phraseOf, bip39MnemonicToBytes_phrase hw (indicesOf_lt _) (indicesOf_ne_nil he)
    (by rw [hlen]; exact he), hlen, htake, if_pos hok]
  split <;> rfl

omit hw in
/-- Success of `mnemonic_to_bytes`: the words were found, unless there was no room to try. -/
theorem mnemonicToBytes_ok {c out b : Bytes} {written : Nat}
    (h : mnemonicToBytes w c out = (.ok, b, written)) :
    written = ((wordlistInit c).length * w.bits + 7) / 8 ∧
      (written ≤ out.length →
        ∃ b, storeWords w 0 (List.replicate out.length 0) (wordlistInit c) = some b) := by
  rw [mnemonicToBytes] at h
  dsimp only at h
  split at h
  · rename_i hbig
    cases h
    exact ⟨rfl, fun hle => absurd hle (Nat.not_le.mpr hbig)⟩
  · split at h
    · cases h
    · rename_i b' hstore
      cases h
      exact ⟨rfl, fun _ => ⟨b, hstore⟩⟩

/-- A phrase that validates has words of the list only, as many as some entropy length asks for. -/
theorem words_of_validate {c : Bytes} (hc : ∀ x ∈ c, x ≠ 0) (h : bip39MnemonicValidate w c = .ok) :
    ∃ is : List Nat, (∀ i ∈ is, i < 2 ^ 11) ∧ is ≠ [] ∧ c = phrase w is ∧
      lenToMask (entropyLen is.length) ≠ 0 := by
  -- the length is tested last, but without it nothing is accepted
  have hfound : lenToMask (entropyLen (wordlistInit c).length) ≠ 0 ∧
      ∃ b, storeWords w 0 (List.replicate bip39EntropyLenMax 0) (wordlistInit c) = some b := by
    rw [bip39MnemonicValidate, bip39MnemonicToBytes, if_neg (not_not.mpr hw.bits)] at h
    split at h
    · rename_i tmpBytes tmpLen hdec
      obtain ⟨rfl, hstore⟩ := mnemonicToBytes_ok hdec
      rw [hw.bits] at h hstore
      have hlen : (if ((wordlistInit c).length * 11 + 7) / 8 - 1 > bip39EntropyLen256 then
          ((wordlistInit c).length * 11 + 7) / 8 - 1 - 1
          else ((wordlistInit c).length * 11 + 7) / 8 - 1) =
          entropyLen (wordlistInit c).length := rfl
      dsimp only at h
      rw [hlen] at h
      split at h
      · cases h
      · rename_i hmax
        rw [List.length_replicate, if_pos (Nat.not_lt.mp hmax)] at h
        split at h
        · cases h
        · rename_i hok
          have hmask : lenToMask (entropyLen (wordlistInit c).length) ≠ 0 :=
            fun h0 => hok (Or.inl h0)
          refine ⟨hmask, ?_⟩
          rw [List.length_replicate] at hstore
          exact hstore (entropyLen_admitted hmask).2.1
    · rename_i hret hdec
      exact absurd h hret
  obtain ⟨hmask, hwords⟩ := hfound
  obtain ⟨out, hout⟩ := hwords
  obtain ⟨is, his, hmap⟩ := storeWords_some hw
    (fun x hx y hy => hc y (mem_of_mem_wordlistInit hx hy)) hout
  have hlen : (wordlistInit c).length = is.length := by rw [hmap, List.length_map]
  refine ⟨is, his, ?_, ?_, ?_⟩
  · rintro rfl
    exact wordlistInit_ne_nil c hmap
  · rw [phrase, ← hmap, intercalate_wordlistInit]
  · rw [← hlen]
    exact hmask

/-- The phrases that validate are the phrases of the entropies of the seven lengths. -/
theorem validate_iff {c : Bytes} (hc : ∀ x ∈ c, x ≠ 0) :
    bip39MnemonicValidate w c = .ok ↔ ∃ e, lenToMask e.length ≠ 0 ∧ c = phraseOf w e := by
  constructor
  · intro h
    obtain ⟨is, his, hne, rfl, hmask⟩ := words_of_validate hw hc h
    obtain ⟨hn, hfit, hsum⟩ := entropyLen_admitted hmask
    have hroom : entropyLen is.length ≤ (List.replicate bip39EntropyLenMax (0 : UInt8)).length := by
      have := (numbers_of_admitted hmask).2.1
      rw [List.length_replicate, bip39EntropyLenMax]
      omega
    rw [bip39MnemonicValidate, bip39MnemonicToBytes_phrase hw his hne hmask, if_pos hroom] at h
    split at h
    · rename_i hok
      have hlen : ((packed is).take (entropyLen is.length)).length = entropyLen is.length := by
        rw [List.length_take, length_packed]
        omega
      have hblock : withChecksum ((packed is).take (entropyLen is.length)) =
          (packed is).take
            (entropyLen is.length + checksumLen (lenToMask (entropyLen is.length))) := by
        have hstored := storedChecksum_and_mask hmask
          (b := packed is) (fun q hq => bit_packed_of_le (by omega) (by omega))
        rw [checksumOk_eq, hstored, beq_iff_eq] at hok
        rw [withChecksum, hlen, ← hok, ← take_eq_trailer (by rw [length_packed]; omega)]
      have hindices : indicesOf (withChecksum ((packed is).take (entropyLen is.length))) = is := by
        have hcount := (numbers_of_admitted hmask).2.2.1
        rw [hsum] at hblock hcount
        rw [hblock]
        exact indicesOf_packed his hfit (by omega)
      refine ⟨(packed is).take (entropyLen is.length), ?_, ?_⟩
      · rw [hlen]
        exact hmask
      · rw [phraseOf, hindices]
    · cases h
  · rintro ⟨e, he, rfl⟩
    rw [bip39MnemonicValidate, decode_encode hw he]

theorem phraseOf_ne_zero (e : Bytes) : ∀ x ∈ phraseOf w e, x ≠ 0 :=
  hw.phrase_ne_zero (indicesOf_lt _)

theorem phraseOf_inj {e e' : Bytes} (he : lenToMask e.length ≠ 0) (he' : lenToMask e'.length ≠ 0)
    (h : phraseOf w e = phraseOf w e') : e = e' := by
  have hdec := decode_encode hw he (e ++ e')
  rw [h, decode_encode hw he', List.length_append, if_pos (Nat.le_add_right ..),
    if_pos (Nat.le_add_left ..), Prod.mk.injEq, Prod.mk.injEq] at hdec
  obtain ⟨-, hout, hlen⟩ := hdec
  have htake := congrArg (List.take e.length) hout
  rw [← hlen] at htake
  simpa [overwrite, hlen] using htake.symm

end

end Wallet
end Proof
end PtpCore
