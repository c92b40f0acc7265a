import PtpCore.Proof.Crypto.Base58
import PtpCore.Proof.Crypto.Sha2
import Mathlib.Data.FinEnum

/-!
# What `base58_decode_check` accepts (`ptp_crypto/base58.cpp`)

`b58tobin` takes the texts of the byte strings that fit and no others, and puts the bytes at the
end of its block. A text of ones is the exception: it is taken at any length.

`memcmp(..) > 0` lets every checksum pass that is not above the right one. A block of zeros passes
for this reason, and then the search for the end of the zeros leaves the block.
-/

namespace PtpCore
namespace Crypto

open Lib

/-! ## Digits -/

/-- The value of a character in `b58digits_map`, when it has one. -/
def digitValue (x : UInt8) : Nat := (b58digitsMap.getD x.toNat (-1)).toNat

def IsBase58 (x : UInt8) : Prop := x &&& 0x80 = 0 ∧ b58digitsMap.getD x.toNat (-1) ≠ -1

instance (x : UInt8) : Decidable (IsBase58 x) := inferInstanceAs (Decidable (_ ∧ _))

theorem digitValue_spec (x : UInt8) (h : IsBase58 x) :
    digitValue x < 58 ∧ b58digits.getD (digitValue x) 0 = x := by
  revert h x
  exact forall_byte (by decide +kernel)

theorem b58digits_spec : ∀ d < 58, IsBase58 (b58digits.getD d 0) ∧
    digitValue (b58digits.getD d 0) = d ∧ b58digits.getD d 0 ≠ 0 ∧
    (b58digits.getD d 0 = 0x31 → d = 0) := by
  decide +kernel

/-! ## The words of the number -/

/-- The words of the decoder, the lowest first. -/
def limbs (outi : List UInt32) : List Nat := outi.reverse.map UInt32.toNat

theorem limbs_cons (x : UInt32) (outi : List UInt32) : limbs (x :: outi) = limbs outi ++ [x.toNat] := by
  rw [limbs, List.reverse_cons, List.map_append]
  rfl

theorem length_limbs (outi : List UInt32) : (limbs outi).length = outi.length := by
  rw [limbs, List.length_map, List.length_reverse]

theorem limbs_lt (outi : List UInt32) : ∀ d ∈ limbs outi, d < 2 ^ 32 := by
  intro d hd
  obtain ⟨x, -, rfl⟩ := List.mem_map.mp hd
  exact x.toNat_lt

theorem ofDigits_limbs_cons (x : UInt32) (outi : List UInt32) :
    Nat.ofDigits (2 ^ 32) (limbs (x :: outi)) =
      Nat.ofDigits (2 ^ 32) (limbs outi) + (2 ^ 32) ^ outi.length * x.toNat := by
  rw [limbs_cons, Nat.ofDigits_append, length_limbs, Nat.ofDigits_singleton]

theorem ofDigits_limbs_lt (outi : List UInt32) :
    Nat.ofDigits (2 ^ 32) (limbs outi) < (2 ^ 32) ^ outi.length := by
  rw [← length_limbs]
  exact Nat.ofDigits_lt_base_pow_length (by decide) (limbs_lt outi)

/-- The word that stays. -/
theorem low_word (t : UInt64) : (t &&& 0xffffffff).toUInt32.toNat = t.toNat % 2 ^ 32 := by
  have hmask : (0xffffffff : UInt64).toNat = 2 ^ 32 - 1 := rfl
  rw [UInt64.toNat_toUInt32, UInt64.toNat_and, hmask, Nat.and_two_pow_sub_one_eq_mod, Nat.mod_mod]

/-- The mask of the source is wide enough for the carry. -/
theorem high_word {t : UInt64} (h : t.toNat < 2 ^ 38) :
    ((t &&& 0x3f00000000) >>> 32).toUInt32.toNat = t.toNat / 2 ^ 32 := by
  have hmask : (0x3f00000000 : UInt64).toNat >>> 32 = 2 ^ 6 - 1 := rfl
  have hshift : (32 : UInt64).toNat % 64 = 32 := rfl
  rw [UInt64.toNat_toUInt32, UInt64.toNat_shiftRight, hshift, UInt64.toNat_and,
    Nat.shiftRight_and_distrib, hmask, Nat.and_two_pow_sub_one_eq_mod, Nat.shiftRight_eq_div_pow]
  omega

theorem outiTimes58_eq {c : UInt32} (hc : c.toNat < 58) (outi : List UInt32) :
    limbs (outiTimes58 c outi).1 = (mulAdd (2 ^ 32) 58 c.toNat (limbs outi)).1 ∧
      (outiTimes58 c outi).2.toNat = (mulAdd (2 ^ 32) 58 c.toNat (limbs outi)).2 := by
  induction outi with
  | nil => exact ⟨rfl, rfl⟩
  | cons d rest ih =>
    obtain ⟨hlow, hcarry⟩ := ih
    have hlt : (outiTimes58 c rest).2.toNat < 58 := by
      rw [hcarry]
      exact mulAdd_carry_lt hc (limbs_lt rest)
    have hd := d.toNat_lt
    have ht : (d.toUInt64 * 58 + (outiTimes58 c rest).2.toUInt64).toNat =
        (outiTimes58 c rest).2.toNat + 58 * d.toNat := by
      simp only [UInt64.toNat_add, UInt64.toNat_mul, UInt32.toNat_toUInt64, UInt64.reduceToNat]
      omega
    rw [limbs_cons, mulAdd_append, ← hlow, ← hcarry]
    constructor
    · rw [outiTimes58, limbs_cons, low_word, ht]
      rfl
    · rw [outiTimes58, high_word (by omega), ht]
      rfl

theorem length_outiTimes58 (c : UInt32) (outi : List UInt32) :
    (outiTimes58 c outi).1.length = outi.length := by
  induction outi with
  | nil => rfl
  | cons d rest ih => rw [outiTimes58, List.length_cons, ih, List.length_cons]

/-- A mask of the high bits. -/
theorem and_high_eq_zero_iff {x j w : Nat} (hx : x < 2 ^ (j + w)) :
    x &&& (2 ^ w - 1) <<< j = 0 ↔ x < 2 ^ j := by
  constructor
  · intro h
    have hdiv : x / 2 ^ j < 2 ^ w := Nat.div_lt_of_lt_mul (by rwa [← Nat.pow_add])
    have hshift : (x &&& (2 ^ w - 1) <<< j) >>> j = 0 := by rw [h, Nat.zero_shiftRight]
    rw [Nat.shiftRight_and_distrib, Nat.shiftLeft_shiftRight, Nat.and_two_pow_sub_one_eq_mod,
      Nat.shiftRight_eq_div_pow, Nat.mod_eq_of_lt hdiv] at hshift
    exact (Nat.div_eq_zero_iff_lt (Nat.two_pow_pos j)).mp hshift
  · intro h
    refine Nat.eq_of_testBit_eq fun i => ?_
    rw [Nat.testBit_and, Nat.testBit_shiftLeft, Nat.zero_testBit]
    by_cases hi : j ≤ i
    · rw [Nat.testBit_lt_two_pow (Nat.lt_of_lt_of_le h (Nat.pow_le_pow_right (by decide) hi)),
        Bool.false_and]
    · simp [hi]

theorem and_zeromask_eq_zero_iff (x : UInt32) {binsz : Nat} (h : binsz % 4 ≠ 0) :
    x &&& zeromask binsz = 0 ↔ x.toNat < 256 ^ (binsz % 4) := by
  have hx := x.toNat_lt
  have hmask : (zeromask binsz).toNat = (2 ^ (32 - 8 * (binsz % 4)) - 1) <<< (8 * (binsz % 4)) := by
    rw [zeromask, if_pos h]
    have hcases : binsz % 4 = 1 ∨ binsz % 4 = 2 ∨ binsz % 4 = 3 := by omega
    rcases hcases with h1 | h2 | h3
    · rw [h1]; rfl
    · rw [h2]; rfl
    · rw [h3]; rfl
  have hpow : 8 * (binsz % 4) + (32 - 8 * (binsz % 4)) = 32 := by omega
  have hbase : 256 ^ (binsz % 4) = 2 ^ (8 * (binsz % 4)) := by rw [Nat.pow_mul]
  rw [← UInt32.toNat_inj, UInt32.toNat_and, hmask, hbase]
  exact and_high_eq_zero_iff (by rwa [hpow])

/-- The words of a number that fits in `binsz` bytes. -/
structure Words (binsz n : Nat) (outi : List UInt32) : Prop where
  length : outi.length = (binsz + 3) / 4
  value : Nat.ofDigits (2 ^ 32) (limbs outi) = n

theorem words_zero (binsz : Nat) : Words binsz 0 (List.replicate ((binsz + 3) / 4) 0) where
  length := List.length_replicate
  value := by
    rw [limbs, List.reverse_replicate, List.map_replicate]
    exact Nat.ofDigits_replicate_zero

theorem pow_four (m : Nat) : (2 ^ 32) ^ m = 256 ^ (4 * m) := by
  have h : 2 ^ 32 = 256 ^ 4 := by norm_num
  rw [h, ← Nat.pow_mul]

/-- The first word decides whether the number fits. -/
theorem Words.zeromask_iff {binsz n : Nat} {outi : List UInt32} (h : Words binsz n outi)
    (hpos : 0 < binsz) : outi.getD 0 0 &&& zeromask binsz = 0 ↔ n < 256 ^ binsz := by
  obtain ⟨hlength, rfl⟩ := h
  by_cases hfull : binsz % 4 = 0
  · have hlt := ofDigits_limbs_lt outi
    rw [hlength, pow_four, show 4 * ((binsz + 3) / 4) = binsz by omega] at hlt
    rw [zeromask, if_neg (by omega)]
    exact ⟨fun _ => hlt, fun _ => UInt32.and_zero⟩
  · cases outi with
    | nil =>
      rw [List.length_nil] at hlength
      omega
    | cons x rest =>
      rw [List.length_cons] at hlength
      have hbinsz : binsz = 4 * rest.length + binsz % 4 := by omega
      have hlow := ofDigits_limbs_lt rest
      have hbound : 256 ^ binsz = (2 ^ 32) ^ rest.length * 256 ^ (binsz % 4) := by
        conv_lhs => rw [hbinsz, Nat.pow_add]
        rw [pow_four]
      have hx : (x :: rest).getD 0 0 = x := rfl
      rw [hx, and_zeromask_eq_zero_iff x hfull, ofDigits_limbs_cons, hbound]
      constructor
      · intro hlt
        have hmul := Nat.mul_le_mul_left ((2 ^ 32) ^ rest.length) (Nat.succ_le_of_lt hlt)
        rw [Nat.mul_succ] at hmul
        omega
      · intro hlt
        by_contra hge
        have hmul := Nat.mul_le_mul_left ((2 ^ 32) ^ rest.length) (Nat.le_of_not_lt hge)
        omega

/-- One digit: both checks pass exactly when the new number fits. -/
theorem Words.step {binsz n : Nat} {outi : List UInt32} (h : Words binsz n outi)
    (hpos : 0 < binsz) {c : UInt32} (hc : c.toNat < 58) :
    if c.toNat + 58 * n < 256 ^ binsz then
      (outiTimes58 c outi).2 = 0 ∧ (outiTimes58 c outi).1.getD 0 0 &&& zeromask binsz = 0 ∧
        Words binsz (c.toNat + 58 * n) (outiTimes58 c outi).1
    else
      (outiTimes58 c outi).2 ≠ 0 ∨ (outiTimes58 c outi).1.getD 0 0 &&& zeromask binsz ≠ 0 := by
  obtain ⟨hlow, hcarry⟩ := outiTimes58_eq hc outi
  have hzero : (mulAdd (2 ^ 32) 58 c.toNat (limbs outi)).2 = 0 ↔
      c.toNat + 58 * Nat.ofDigits (2 ^ 32) (limbs outi) < (2 ^ 32) ^ (limbs outi).length :=
    mulAdd_carry_eq_zero_iff (by decide)
  have hvalue (h : c.toNat + 58 * Nat.ofDigits (2 ^ 32) (limbs outi) <
      (2 ^ 32) ^ (limbs outi).length) :
      Nat.ofDigits (2 ^ 32) (mulAdd (2 ^ 32) 58 c.toNat (limbs outi)).1 =
        c.toNat + 58 * Nat.ofDigits (2 ^ 32) (limbs outi) :=
    ofDigits_mulAdd_of_lt (by decide) h
  rw [← hlow] at hvalue
  rw [h.value, length_limbs, h.length] at hzero hvalue
  have hfits : (outiTimes58 c outi).2 = 0 ↔ c.toNat + 58 * n < (2 ^ 32) ^ ((binsz + 3) / 4) := by
    rw [← hzero, ← hcarry, ← UInt32.toNat_inj]
    rfl
  have hwords (hlt : c.toNat + 58 * n < (2 ^ 32) ^ ((binsz + 3) / 4)) :
      Words binsz (c.toNat + 58 * n) (outiTimes58 c outi).1 :=
    ⟨(length_outiTimes58 c outi).trans h.length, hvalue hlt⟩
  split
  case isTrue hlt =>
    have hle : 256 ^ binsz ≤ (2 ^ 32) ^ ((binsz + 3) / 4) := by
      rw [pow_four]
      exact Nat.pow_le_pow_right (by decide) (by omega)
    have hw := hwords (Nat.lt_of_lt_of_le hlt hle)
    exact ⟨hfits.mpr (Nat.lt_of_lt_of_le hlt hle), (hw.zeromask_iff hpos).mpr hlt, hw⟩
  case isFalse hge =>
    by_cases hblock : c.toNat + 58 * n < (2 ^ 32) ^ ((binsz + 3) / 4)
    · exact .inr fun hmask => hge (((hwords hblock).zeromask_iff hpos).mp hmask)
    · exact .inl fun hcarry => hblock (hfits.mp hcarry)

/-- The number that the digits stand for, behind the number `n`. -/
def appendDigits (n : Nat) (ds : Bytes) : Nat := ds.foldl (fun n x => digitValue x + 58 * n) n

theorem appendDigits_cons (n : Nat) (x : UInt8) (ds : Bytes) :
    appendDigits n (x :: ds) = appendDigits (digitValue x + 58 * n) ds := rfl

theorem le_appendDigits (n : Nat) (ds : Bytes) : n ≤ appendDigits n ds := by
  induction ds generalizing n with
  | nil => exact Nat.le_refl n
  | cons x ds ih => exact Nat.le_trans (by omega) (ih (digitValue x + 58 * n))

theorem toNat_ofNat_digitValue {x : UInt8} (h : IsBase58 x) :
    (UInt32.ofNat (digitValue x)).toNat = digitValue x := by
  have hlt := (digitValue_spec x h).1
  rw [UInt32.toNat_ofNat']
  omega

theorem outiOf_cons {x : UInt8} (hx : IsBase58 x) (binsz : Nat) (outi : List UInt32) (ds : Bytes) :
    outiOf binsz outi (x :: ds) =
      if (outiTimes58 (UInt32.ofNat (digitValue x)) outi).2 ≠ 0 then none
      else if (outiTimes58 (UInt32.ofNat (digitValue x)) outi).1.getD 0 0 &&& zeromask binsz ≠ 0 then none
      else outiOf binsz (outiTimes58 (UInt32.ofNat (digitValue x)) outi).1 ds := by
  rw [outiOf, if_neg (not_not.mpr hx.1), if_neg hx.2]
  rfl

theorem outiOf_cons_of_not {x : UInt8} (hx : ¬IsBase58 x) (binsz : Nat) (outi : List UInt32)
    (ds : Bytes) : outiOf binsz outi (x :: ds) = none := by
  rw [outiOf]
  by_cases hhigh : x &&& 0x80 = 0
  · have hvalue : b58digitsMap.getD x.toNat (-1) = -1 := by
      by_contra hne
      exact hx ⟨hhigh, hne⟩
    rw [if_neg (not_not.mpr hhigh), if_pos hvalue]
  · rw [if_pos hhigh]

/-- The loop takes the digits whose number fits, and nothing else. -/
theorem outiOf_eq {binsz n : Nat} {outi : List UInt32} (h : Words binsz n outi)
    (hpos : 0 < binsz) (hn : n < 256 ^ binsz) (ds : Bytes) :
    if (∀ x ∈ ds, IsBase58 x) ∧ appendDigits n ds < 256 ^ binsz then
      ∃ outi', outiOf binsz outi ds = some outi' ∧ Words binsz (appendDigits n ds) outi'
    else outiOf binsz outi ds = none := by
  induction ds generalizing n outi with
  | nil =>
    rw [if_pos ⟨fun x hx => absurd hx List.not_mem_nil, hn⟩]
    exact ⟨outi, rfl, h⟩
  | cons x ds ih =>
    by_cases hx : IsBase58 x
    case neg =>
      rw [if_neg fun hall => hx (hall.1 x List.mem_cons_self)]
      exact outiOf_cons_of_not hx binsz outi ds
    case pos =>
      have hc : (UInt32.ofNat (digitValue x)).toNat < 58 := by
        rw [toNat_ofNat_digitValue hx]
        exact (digitValue_spec x hx).1
      have hstep := h.step hpos hc
      rw [toNat_ofNat_digitValue hx] at hstep
      rw [outiOf_cons hx, appendDigits_cons]
      split at hstep
      case isTrue hfits =>
        obtain ⟨hcarry, hmask, hwords⟩ := hstep
        rw [if_neg (not_not.mpr hcarry), if_neg (not_not.mpr hmask)]
        have hall : (∀ y ∈ x :: ds, IsBase58 y) ↔ ∀ y ∈ ds, IsBase58 y := by
          rw [List.forall_mem_cons, and_iff_right hx]
        simp only [hall]
        exact ih hwords hfits
      case isFalse hbig =>
        have hle := le_appendDigits (digitValue x + 58 * n) ds
        rw [if_neg fun hall => hbig (Nat.lt_of_le_of_lt hle hall.2)]
        by_cases hcarry : (outiTimes58 (UInt32.ofNat (digitValue x)) outi).2 = 0
        · rw [if_neg (not_not.mpr hcarry), if_pos (hstep.resolve_left (not_not.mpr hcarry))]
        · rw [if_pos hcarry]

/-! ## The bytes of the number -/

theorem toNat_low_byte (x : UInt32) : (x &&& 0xff).toUInt8.toNat = x.toNat % 256 := by
  have hmask : (0xff : UInt32).toNat = 2 ^ 8 - 1 := rfl
  rw [UInt32.toNat_toUInt8, UInt32.toNat_and, hmask, Nat.and_two_pow_sub_one_eq_mod, Nat.mod_mod]

theorem toNat_shift {x s : UInt32} {j : Nat} (hs : s.toNat % 32 = j) :
    (x >>> s).toNat = x.toNat / 2 ^ j := by
  rw [UInt32.toNat_shiftRight, hs, Nat.shiftRight_eq_div_pow]

/-- A byte that is masked before it is shifted down. -/
theorem and_shiftRight {x m s : UInt32} (h : m >>> s = 0xff) : (x &&& m) >>> s = x >>> s &&& 0xff := by
  rw [← h, ← UInt32.toNat_inj]
  simp only [UInt32.toNat_shiftRight, UInt32.toNat_and, Nat.shiftRight_and_distrib]

theorem ofBE_wordBytes (x : UInt32) : ofBE (wordBytes x) = x.toNat := by
  have hx := x.toNat_lt
  have h24 : (x >>> 0x18).toNat = x.toNat / 2 ^ 24 := toNat_shift rfl
  have h16 : (x >>> 0x10).toNat = x.toNat / 2 ^ 16 := toNat_shift rfl
  have h8 : (x >>> 8).toNat = x.toNat / 2 ^ 8 := toNat_shift rfl
  have h0 : (x >>> 0).toNat = x.toNat / 2 ^ 0 := toNat_shift rfl
  simp only [wordBytes, ofBE, List.foldl_cons, List.foldl_nil, toNat_low_byte, h24, h16, h8, h0]
  omega

theorem flatMap_wordBytes (outi : List UInt32) :
    ofBE (outi.flatMap wordBytes) = Nat.ofDigits (2 ^ 32) (limbs outi) ∧
      (outi.flatMap wordBytes).length = 4 * outi.length := by
  induction outi with
  | nil => exact ⟨rfl, rfl⟩
  | cons x outi ih =>
    obtain ⟨hvalue, hlength⟩ := ih
    have hword : (wordBytes x).length = 4 := rfl
    rw [List.flatMap_cons, ofBE_append, ofBE_wordBytes, hvalue, hlength, ofDigits_limbs_cons,
      List.length_append, hlength, hword, List.length_cons, pow_four]
    omega

theorem firstBytes_spec {x : UInt32} {k : Nat} (hk : k = 1 ∨ k = 2 ∨ k = 3)
    (hx : x.toNat < 256 ^ k) :
    ofBE (firstBytes x k) = x.toNat ∧ (firstBytes x k).length = k := by
  have h16 : (x >>> 16).toNat = x.toNat / 2 ^ 16 := toNat_shift rfl
  have h8 : (x >>> 8).toNat = x.toNat / 2 ^ 8 := toNat_shift rfl
  have hm16 : (x &&& 0xff0000) >>> 16 = x >>> 16 &&& 0xff := and_shiftRight rfl
  have hm8 : (x &&& 0xff00) >>> 8 = x >>> 8 &&& 0xff := and_shiftRight rfl
  have hone : firstBytes x 1 = [(x &&& 0xff).toUInt8] := rfl
  have htwo : firstBytes x 2 = ((x &&& 0xff00) >>> 8).toUInt8 :: firstBytes x 1 := rfl
  have hthree : firstBytes x 3 = ((x &&& 0xff0000) >>> 16).toUInt8 :: firstBytes x 2 := rfl
  rw [hm16] at hthree
  rw [hm8] at htwo
  rcases hk with rfl | rfl | rfl
  all_goals
    refine ⟨?_, rfl⟩
    simp only [hthree, htwo, hone, ofBE, List.foldl_cons, List.foldl_nil, toNat_low_byte, h16, h8]
    omega

/-- What `b58tobin` writes. -/
theorem Words.bytes {binsz n : Nat} {outi : List UInt32} (h : Words binsz n outi)
    (hpos : 0 < binsz) (hn : n < 256 ^ binsz) :
    firstBytes (outi.getD 0 0) (binsz % 4) ++
        (if binsz % 4 = 0 then outi else outi.drop 1).flatMap wordBytes = toBE binsz n := by
  obtain ⟨hwords, hsize⟩ := flatMap_wordBytes (if binsz % 4 = 0 then outi else outi.drop 1)
  have hlength := h.length
  have hvalue := h.value
  have hmask := (h.zeromask_iff hpos).mpr hn
  suffices hspec : ofBE (firstBytes (outi.getD 0 0) (binsz % 4) ++
        (if binsz % 4 = 0 then outi else outi.drop 1).flatMap wordBytes) = n ∧
      (firstBytes (outi.getD 0 0) (binsz % 4) ++
        (if binsz % 4 = 0 then outi else outi.drop 1).flatMap wordBytes).length = binsz by
    have hback := toBE_ofBE (firstBytes (outi.getD 0 0) (binsz % 4) ++
        (if binsz % 4 = 0 then outi else outi.drop 1).flatMap wordBytes)
    rw [hspec.1, hspec.2] at hback
    exact hback.symm
  rw [ofBE_append, List.length_append, hwords, hsize]
  by_cases hfull : binsz % 4 = 0
  · have hfirst : firstBytes (outi.getD 0 0) (binsz % 4) = [] := by rw [hfull]; rfl
    rw [hfirst, if_pos hfull, ofBE_nil, hvalue, hlength, List.length_nil]
    omega
  · cases outi with
    | nil =>
      rw [List.length_nil] at hlength
      omega
    | cons x rest =>
      have hx : (x :: rest).getD 0 0 = x := rfl
      rw [hx, and_zeromask_eq_zero_iff x hfull] at hmask
      obtain ⟨hfirst, hk⟩ := firstBytes_spec (k := binsz % 4) (by omega) hmask
      rw [List.length_cons] at hlength
      rw [ofDigits_limbs_cons, pow_four] at hvalue
      rw [hx, hfirst, hk, if_neg hfull, List.drop_one, List.tail_cons]
      omega

/-! ## Texts and what they stand for -/

theorem appendDigits_eq_ofDigits (ds : Bytes) :
    appendDigits 0 ds = Nat.ofDigits 58 (ds.map digitValue).reverse := by
  induction ds using List.reverseRecOn with
  | nil => rfl
  | append_singleton ds x ih =>
    rw [appendDigits, List.foldl_append, List.map_append, List.reverse_append, List.map_singleton,
      List.reverse_singleton, List.singleton_append, Nat.ofDigits_cons, ← ih]
    rfl

/-- The digits of a number in base 58. -/
def digitText (n : Nat) : Bytes := (Nat.digits 58 n).reverse.map fun d => b58digits.getD d 0

theorem mem_digitText {n : Nat} {x : UInt8} (h : x ∈ digitText n) :
    ∃ d < 58, x = b58digits.getD d 0 := by
  obtain ⟨d, hd, rfl⟩ := List.mem_map.mp h
  exact ⟨d, Nat.digits_lt_base (by decide) (List.mem_reverse.mp hd), rfl⟩

theorem isBase58_of_mem_digitText {n : Nat} {x : UInt8} (h : x ∈ digitText n) : IsBase58 x := by
  obtain ⟨d, hd, rfl⟩ := mem_digitText h
  exact (b58digits_spec d hd).1

theorem appendDigits_digitText (n : Nat) : appendDigits 0 (digitText n) = n := by
  have hmap : (digitText n).map digitValue = (Nat.digits 58 n).reverse := by
    rw [digitText, List.map_map]
    refine (List.map_congr_left fun d hd => ?_).trans (List.map_id _)
    exact (b58digits_spec d (Nat.digits_lt_base (by decide) (List.mem_reverse.mp hd))).2.1
  rw [appendDigits_eq_ofDigits, hmap, List.reverse_reverse, Nat.ofDigits_digits]

/-- The first digit is not a zero. -/
theorem head?_digitText (n : Nat) : (digitText n).head? ≠ some 0x31 := by
  intro h
  rw [digitText, List.head?_map, List.head?_reverse] at h
  obtain ⟨d, hd, hone⟩ := Option.map_eq_some_iff.mp h
  have hne : Nat.digits 58 n ≠ [] := fun hnil => by
    rw [hnil] at hd
    exact nomatch hd
  have hlast := Nat.getLast_digit_ne_zero 58 (Nat.digits_ne_nil_iff_ne_zero.mp hne)
  have hget : (Nat.digits 58 n).getLast hne = d := by
    rw [List.getLast?_eq_getLast_of_ne_nil hne] at hd
    exact Option.some.inj hd
  have hlt := Nat.digits_lt_base (by decide) (List.getLast_mem hne)
  rw [hget] at hlast hlt
  exact hlast ((b58digits_spec d hlt).2.2.2 hone)

/-- Digits without a zero in front are the text of their number. -/
theorem digitText_appendDigits {ds : Bytes} (h : ∀ x ∈ ds, IsBase58 x)
    (hhead : ds.head? ≠ some 0x31) : digitText (appendDigits 0 ds) = ds := by
  have hlt : ∀ d ∈ (ds.map digitValue).reverse, d < 58 := by
    intro d hd
    obtain ⟨x, hx, rfl⟩ := List.mem_map.mp (List.mem_reverse.mp hd)
    exact (digitValue_spec x (h x hx)).1
  have hdigits := dropWhile_zero_eq_digits (by decide) hlt
  have hkeep : (ds.map digitValue).dropWhile (· == 0) = ds.map digitValue := by
    cases ds with
    | nil => rfl
    | cons x ds =>
      refine List.dropWhile_cons_of_neg fun hzero => hhead ?_
      have hspec := (digitValue_spec x (h x List.mem_cons_self)).2
      rw [eq_of_beq hzero] at hspec
      rw [List.head?_cons, ← hspec]
      decide +kernel
  rw [List.reverse_reverse, hkeep] at hdigits
  rw [digitText, appendDigits_eq_ofDigits, ← hdigits, List.map_map]
  refine (List.map_congr_left fun x hx => ?_).trans (List.map_id ds)
  exact (digitValue_spec x (h x hx)).2

/-- The zeros in front are cut off. -/
theorem takeWhile_replicate_append {α : Type} [BEq α] [LawfulBEq α] {c : α} {l : List α}
    (z : Nat) (h : l.head? ≠ some c) :
    (List.replicate z c ++ l).takeWhile (· == c) = List.replicate z c ∧
      (List.replicate z c ++ l).dropWhile (· == c) = l := by
  induction z with
  | zero =>
    cases l with
    | nil => exact ⟨rfl, rfl⟩
    | cons x l =>
      have hx : ¬(x == c) = true := fun hx => h (by rw [eq_of_beq hx]; rfl)
      exact ⟨List.takeWhile_cons_of_neg hx, List.dropWhile_cons_of_neg hx⟩
  | succ z ih =>
    have hc : (c == c) = true := beq_self_eq_true c
    rw [List.replicate_succ, List.cons_append, List.takeWhile_cons, List.dropWhile_cons, if_pos hc,
      if_pos hc, ih.1]
    exact ⟨rfl, ih.2⟩

theorem head?_dropWhile_zero (b : Bytes) : (b.dropWhile (· == 0)).head? ≠ some 0 := by
  intro h
  have hnot := List.head?_dropWhile_not (· == (0 : UInt8)) b
  rw [h] at hnot
  exact absurd hnot (by decide)

theorem b58text_replicate_append (z : Nat) {b : Bytes} (hb : b.head? ≠ some 0) :
    b58text (List.replicate z 0 ++ b) = List.replicate z 0x31 ++ digitText (ofBE b) := by
  rw [b58text, (takeWhile_replicate_append z hb).1, List.length_replicate, ofBE_replicate_append]
  rfl

/-- Every string of digits is the text of some bytes. -/
theorem exists_b58text {t : Bytes} (h : ∀ x ∈ t, IsBase58 x) : ∃ raw, t = b58text raw := by
  let z := (t.takeWhile (· == 0x31)).length
  let n := appendDigits 0 (t.dropWhile (· == 0x31))
  have hones : t.takeWhile (· == 0x31) = List.replicate z 0x31 :=
    List.eq_replicate_of_mem fun x hx => by simpa using List.mem_takeWhile_imp hx
  have hhead : (t.dropWhile (· == 0x31)).head? ≠ some 0x31 := by
    intro hone
    have hnot := List.head?_dropWhile_not (· == (0x31 : UInt8)) t
    rw [hone] at hnot
    exact absurd hnot (by decide)
  have hdigits := digitText_appendDigits
    (fun x hx => h x ((List.dropWhile_sublist _).mem hx)) hhead
  refine ⟨List.replicate z 0 ++ (toBE n n).dropWhile (· == 0), ?_⟩
  rw [b58text_replicate_append z (head?_dropWhile_zero _), ofBE_dropWhile,
    ofBE_toBE_of_lt (Nat.lt_pow_self (by decide)), hdigits, ← hones,
    List.takeWhile_append_dropWhile]

/-! ## The decoder -/

/-- A byte string in a longer block. -/
theorem toBE_ofBE_of_le {w : Nat} {b : Bytes} (h : b.length ≤ w) :
    toBE w (ofBE b) = List.replicate (w - b.length) 0 ++ b := by
  have hadd := toBE_add (w - b.length) b.length (ofBE b)
  rwa [Nat.sub_add_cancel h, Nat.div_eq_of_lt (ofBE_lt b), toBE_zero, toBE_ofBE] at hadd

theorem pow_le_ofBE {b : Bytes} (hhead : b.head? ≠ some 0) {w : Nat} (h : w < b.length) :
    256 ^ w ≤ ofBE b := by
  cases b with
  | nil => exact absurd h (Nat.not_lt_zero w)
  | cons x b =>
    have hx : x.toNat ≠ 0 := fun hzero => hhead (congrArg some (UInt8.toNat_inj.mp hzero))
    rw [ofBE_cons]
    calc 256 ^ w ≤ 256 ^ b.length := Nat.pow_le_pow_right (by decide) (Nat.le_of_lt_succ h)
      _ ≤ 256 ^ b.length * x.toNat := Nat.le_mul_of_pos_right _ (Nat.pos_of_ne_zero hx)
      _ ≤ _ := Nat.le_add_right _ _

/-- The decoder takes the text of bytes that fit, and the text of zeros. -/
theorem b58tobin_b58text {b58 raw : Bytes} (h : cString b58 = b58text raw) {binsz : Nat}
    (hpos : 0 < binsz) :
    b58tobin binsz b58 =
      if raw.length ≤ binsz ∨ ∀ x ∈ raw, x = 0 then some (toBE binsz (ofBE raw), raw.length)
      else none := by
  obtain ⟨z, b, hb, rfl⟩ : ∃ z b, b.head? ≠ some 0 ∧ raw = List.replicate z 0 ++ b :=
    ⟨_, _, head?_dropWhile_zero raw, (replicate_append_dropWhile raw).symm⟩
  rw [b58text_replicate_append z hb] at h
  have hcount := congrArg List.length
    (takeWhile_replicate_append z (head?_digitText (ofBE b))).1
  rw [List.length_replicate] at hcount
  have hrest : (List.replicate z (0x31 : UInt8) ++ digitText (ofBE b)).drop z = digitText (ofBE b) := by
    have hdrop := @List.drop_left _ (List.replicate z (0x31 : UInt8)) (digitText (ofBE b))
    rwa [List.length_replicate] at hdrop
  have hrun := outiOf_eq (words_zero binsz) hpos (Nat.pow_pos (by decide)) (digitText (ofBE b))
  rw [appendDigits_digitText] at hrun
  have hzeros : (∀ x ∈ List.replicate z 0 ++ b, x = 0) ↔ b = [] := by
    constructor
    · intro hall
      cases b with
      | nil => rfl
      | cons x b =>
        have hx := hall x (List.mem_append_right _ List.mem_cons_self)
        exact absurd (congrArg some hx) hb
    · rintro rfl x hx
      rw [List.append_nil] at hx
      exact List.eq_of_mem_replicate hx
  rw [b58tobin, h]
  simp only [hcount, hrest, hzeros, ofBE_replicate_append, List.length_append,
    List.length_replicate]
  by_cases hfit : b.length ≤ binsz
  · have hlt : ofBE b < 256 ^ binsz :=
      Nat.lt_of_lt_of_le (ofBE_lt b) (Nat.pow_le_pow_right (by decide) hfit)
    rw [if_pos ⟨fun x hx => isBase58_of_mem_digitText hx, hlt⟩] at hrun
    obtain ⟨outi, hout, hwords⟩ := hrun
    have hi : ((toBE binsz (ofBE b)).takeWhile (· == 0)).length = binsz - b.length := by
      rw [toBE_ofBE_of_le hfit, (takeWhile_replicate_append _ hb).1, List.length_replicate]
    rw [hout, Option.bind_some, hwords.bytes hpos hlt, hi]
    have hcond : (binsz - b.length < binsz ∧ z > binsz - b.length) ↔
        ¬(z + b.length ≤ binsz ∨ b = []) := by
      rw [← List.length_eq_zero_iff]
      omega
    have hres : binsz - (binsz - b.length) + z = z + b.length := by omega
    rw [hres]
    by_cases hok : z + b.length ≤ binsz ∨ b = []
    · rw [if_neg (not_not.mpr hok ∘ hcond.mp), if_pos hok]
    · rw [if_pos (hcond.mpr hok), if_neg hok]
  · have hge := pow_le_ofBE hb (Nat.lt_of_not_le hfit)
    rw [if_neg fun hall => absurd hall.2 (Nat.not_lt.mpr hge)] at hrun
    have hne : b ≠ [] := by
      rintro rfl
      exact hfit (Nat.zero_le _)
    rw [hrun, Option.bind_none, if_neg (by simp only [hne, or_false]; omega)]

/-- What the decoder takes is a text. -/
theorem exists_of_b58tobin {b58 : Bytes} {binsz : Nat} (hpos : 0 < binsz)
    (h : b58tobin binsz b58 ≠ none) : ∃ raw, cString b58 = b58text raw := by
  let zerocount := ((cString b58).takeWhile (· == 0x31)).length
  have hrun := outiOf_eq (words_zero binsz) hpos (Nat.pow_pos (by decide))
    ((cString b58).drop zerocount)
  split at hrun
  case isTrue hok =>
    refine exists_b58text fun x hx => ?_
    rw [← List.take_append_drop zerocount (cString b58)] at hx
    rcases List.mem_append.mp hx with htake | hdrop
    · have hones : (cString b58).take zerocount = (cString b58).takeWhile (· == 0x31) := by
        have htake := @List.take_left _ ((cString b58).takeWhile (· == 0x31))
          ((cString b58).dropWhile (· == 0x31))
        rwa [List.takeWhile_append_dropWhile] at htake
      rw [hones] at htake
      have hone := List.mem_takeWhile_imp htake
      rw [eq_of_beq hone]
      decide +kernel
    · exact hok.1 x hdrop
  case isFalse hbad =>
    refine absurd ?_ h
    rw [b58tobin]
    simp only [zerocount] at hrun
    rw [hrun, Option.bind_none]

/-! ## The checksum -/

theorem zerosEnd_replicate (z : Nat) (b str : Bytes) :
    zerosEnd (List.replicate z 0 ++ b) (List.replicate z 0x31 ++ str) = zerosEnd b str := by
  induction z with
  | zero => rfl
  | succ z ih =>
    rw [List.replicate_succ, List.replicate_succ, List.cons_append, List.cons_append, zerosEnd,
      if_pos ⟨rfl, rfl⟩, List.tail_cons, ih]

theorem zerosEnd_b58text (raw : Bytes) :
    zerosEnd raw (b58text raw) =
      if ∀ x ∈ raw, x = 0 then none
      else some (raw.dropWhile (· == 0), digitText (ofBE raw)) := by
  have hhead := head?_dropWhile_zero raw
  have hsplit := replicate_append_dropWhile raw
  have htext := b58text_replicate_append (raw.takeWhile (· == 0)).length hhead
  rw [hsplit, ofBE_dropWhile] at htext
  have hzeros : (∀ x ∈ raw, x = 0) ↔ raw.dropWhile (· == 0) = [] := by
    rw [List.dropWhile_eq_nil_iff]
    simp only [beq_iff_eq]
  have hend := zerosEnd_replicate (raw.takeWhile (· == 0)).length (raw.dropWhile (· == 0))
    (digitText (ofBE raw))
  rw [hsplit, ← htext] at hend
  simp only [hend, hzeros]
  split
  case isTrue hnil => rw [hnil]; rfl
  case isFalse hne =>
    obtain ⟨x, rest, hcons⟩ := List.exists_cons_of_ne_nil hne
    rw [hcons] at hhead ⊢
    rw [zerosEnd, if_neg fun h => hhead (congrArg some h.1)]

theorem b58check_b58text (hash : Bytes → Bytes) (raw : Bytes) :
    b58check hash raw raw.length (b58text raw) =
      if raw.length < 4 then some (-4)
      else if ofBE (raw.drop (raw.length - 4)) >
          ofBE ((hash (raw.take (raw.length - 4))).take 4) then some (-1)
      else if ∀ x ∈ raw, x = 0 then none else some ((raw.getD 0 0).toNat : Int) := by
  rw [b58check]
  split
  case isTrue => rfl
  case isFalse hlong =>
    have hslice : slice raw (raw.length - 4) 4 = raw.drop (raw.length - 4) :=
      List.take_of_length_le (by rw [List.length_drop]; omega)
    simp only [hslice, List.take_length, zerosEnd_b58text]
    split
    case isTrue => rfl
    case isFalse =>
      split
      case isTrue => rfl
      case isFalse =>
        rw [Option.map_some]
        refine congrArg some (if_neg ?_)
        rintro (hzero | hone)
        · exact head?_dropWhile_zero raw hzero
        · exact head?_digitText _ hone

/-- What is asked of the bytes behind a text. -/
def Checked (hash : Bytes → Bytes) (raw : Bytes) : Prop :=
  4 ≤ raw.length ∧
    ofBE (raw.drop (raw.length - 4)) ≤ ofBE ((hash (raw.take (raw.length - 4))).take 4)

instance (hash : Bytes → Bytes) (raw : Bytes) : Decidable (Checked hash raw) :=
  inferInstanceAs (Decidable (_ ∧ _))

/-- Zeros pass as their own checksum. -/
theorem checked_of_zeros {hash : Bytes → Bytes} {raw : Bytes} (hlen : 4 ≤ raw.length)
    (h : ∀ x ∈ raw, x = 0) : Checked hash raw := by
  have hzero : ofBE (raw.drop (raw.length - 4)) = 0 :=
    (ofBE_eq_zero_iff _).mpr fun x hx => h x (List.mem_of_mem_drop hx)
  exact ⟨hlen, hzero ▸ Nat.zero_le _⟩

theorem b58check_map {hash : Bytes → Bytes} (raw d : Bytes) :
    ((b58check hash raw raw.length (b58text raw)).map fun code =>
        if code < 0 then none else some d) =
      if Checked hash raw then if ∀ x ∈ raw, x = 0 then none else some (some d)
      else some none := by
  rw [b58check_b58text]
  by_cases hshort : raw.length < 4
  · rw [if_pos hshort, if_neg fun hc : Checked hash raw => absurd hc.1 (Nat.not_le.mpr hshort)]
    rfl
  · rw [if_neg hshort]
    by_cases hsum : ofBE (raw.drop (raw.length - 4)) >
        ofBE ((hash (raw.take (raw.length - 4))).take 4)
    · rw [if_pos hsum, if_neg fun hc : Checked hash raw => absurd hc.2 (Nat.not_le.mpr hsum)]
      rfl
    · have hc : Checked hash raw := ⟨Nat.le_of_not_lt hshort, Nat.le_of_not_lt hsum⟩
      rw [if_neg hsum, if_pos hc]
      by_cases hzeros : ∀ x ∈ raw, x = 0
      · rw [if_pos hzeros, if_pos hzeros]
        rfl
      · rw [if_neg hzeros, if_neg hzeros, Option.map_some,
          if_neg (Int.not_lt.mpr (Int.natCast_nonneg _))]

theorem base58DecodeCheck_of_text {hash : Bytes → Bytes} {str raw : Bytes} {datalen : Nat}
    (hlen : datalen ≤ 128) (h : cString str = b58text raw) :
    base58DecodeCheck hash str datalen =
      if datalen + 4 < raw.length ∧ ¬(∀ x ∈ raw, x = 0) then some none
      else if Checked hash raw then
        if ∀ x ∈ raw, x = 0 then none else some (some (raw.take (raw.length - 4)))
      else some none := by
  have hpos : 0 < datalen + 4 := by omega
  have hdec := b58tobin_b58text h hpos
  rw [base58DecodeCheck, if_neg (Nat.not_lt.mpr hlen), hdec]
  by_cases hfit : raw.length ≤ datalen + 4
  · have hnd : (toBE (datalen + 4) (ofBE raw)).drop (datalen + 4 - raw.length) = raw := by
      rw [toBE_ofBE_of_le hfit]
      have hdrop := @List.drop_left _ (List.replicate (datalen + 4 - raw.length) (0 : UInt8)) raw
      rwa [List.length_replicate] at hdrop
    rw [if_pos (.inl hfit), if_neg fun hbig => absurd hfit (Nat.not_le.mpr hbig.1)]
    simp only [if_neg (Nat.not_lt.mpr hfit), hnd, h]
    exact b58check_map raw _
  · have hbig := Nat.lt_of_not_le hfit
    by_cases hzeros : ∀ x ∈ raw, x = 0
    · rw [if_pos (.inr hzeros), if_neg fun hnot => hnot.2 hzeros,
        if_pos (checked_of_zeros (by omega) hzeros), if_pos hzeros]
      simp only [if_pos hbig]
    · rw [if_neg fun hor => hor.elim hfit hzeros, if_pos ⟨hbig, hzeros⟩]

/-- What is not turned down at once is a text, and short enough. -/
theorem exists_of_base58DecodeCheck {hash : Bytes → Bytes} {str : Bytes} {datalen : Nat}
    (h : base58DecodeCheck hash str datalen ≠ some none) :
    datalen ≤ 128 ∧ ∃ raw, cString str = b58text raw := by
  rw [base58DecodeCheck] at h
  split at h
  case isTrue => exact absurd rfl h
  case isFalse hlen =>
    have hpos : 0 < datalen + 4 := by omega
    refine ⟨Nat.le_of_not_lt hlen, exists_of_b58tobin hpos fun hnone => ?_⟩
    rw [hnone] at h
    exact h rfl

theorem b58text_replicate_zero (n : Nat) :
    b58text (List.replicate n 0) = List.replicate n 0x31 := by
  have h := b58text_replicate_append n (b := []) (fun h => nomatch h)
  have hnil : digitText (ofBE []) = [] := by
    rw [digitText, ofBE_nil, Nat.digits_zero]
    rfl
  rwa [List.append_nil, hnil, List.append_nil] at h

theorem base58DecodeCheck_eq_some_iff (hash : Bytes → Bytes) (str : Bytes) (datalen : Nat)
    (data : Bytes) :
    base58DecodeCheck hash str datalen = some (some data) ↔
      datalen ≤ 128 ∧ data.length ≤ datalen ∧ ∃ sum, sum.length = 4 ∧
        cString str = b58text (data ++ sum) ∧ (∃ x ∈ data ++ sum, x ≠ 0) ∧
        ofBE sum ≤ ofBE ((hash data).take 4) := by
  constructor
  · intro hdec
    obtain ⟨hlen, raw, hraw⟩ := exists_of_base58DecodeCheck (by rw [hdec]; exact nofun)
    rw [base58DecodeCheck_of_text hlen hraw] at hdec
    split at hdec
    case isTrue => exact nomatch hdec
    case isFalse hfit =>
      split at hdec
      case isFalse => exact nomatch hdec
      case isTrue hchecked =>
        split at hdec
        case isTrue => exact nomatch hdec
        case isFalse hnonzero =>
          obtain rfl : raw.take (raw.length - 4) = data := Option.some.inj (Option.some.inj hdec)
          have hle : raw.length ≤ datalen + 4 := by
            by_contra hbig
            exact hfit ⟨Nat.lt_of_not_le hbig, hnonzero⟩
          have h4 := hchecked.1
          push Not at hnonzero
          refine ⟨hlen, by rw [List.length_take]; omega, raw.drop (raw.length - 4),
            by rw [List.length_drop]; omega, ?_, ?_, hchecked.2⟩
          · rw [List.take_append_drop, hraw]
          · rw [List.take_append_drop]
            exact hnonzero
  · rintro ⟨hlen, hdata, sum, hsum, hraw, ⟨x, hx, hx0⟩, hle⟩
    have hnonzero : ¬∀ y ∈ data ++ sum, y = 0 := fun hall => hx0 (hall x hx)
    have hlength : (data ++ sum).length = data.length + 4 := by rw [List.length_append, hsum]
    have hchecked : Checked hash (data ++ sum) := by
      refine ⟨by omega, ?_⟩
      rw [hlength, Nat.add_sub_cancel, List.drop_left, List.take_left]
      exact hle
    have hfit : ¬(datalen + 4 < (data ++ sum).length ∧ ¬∀ y ∈ data ++ sum, y = 0) := by
      rintro ⟨hbig, -⟩
      omega
    rw [base58DecodeCheck_of_text hlen hraw, if_neg hfit, if_pos hchecked, if_neg hnonzero, hlength,
      Nat.add_sub_cancel, List.take_left]

theorem base58DecodeCheck_eq_none_iff (hash : Bytes → Bytes) (str : Bytes) (datalen : Nat) :
    base58DecodeCheck hash str datalen = none ↔
      datalen ≤ 128 ∧ ∃ n, 4 ≤ n ∧ cString str = List.replicate n 0x31 := by
  constructor
  · intro hdec
    obtain ⟨hlen, raw, hraw⟩ := exists_of_base58DecodeCheck (by rw [hdec]; exact nofun)
    rw [base58DecodeCheck_of_text hlen hraw] at hdec
    split at hdec
    case isTrue => exact nomatch hdec
    case isFalse =>
      split at hdec
      case isFalse => exact nomatch hdec
      case isTrue hchecked =>
        split at hdec
        case isFalse => exact nomatch hdec
        case isTrue hzeros =>
          refine ⟨hlen, raw.length, hchecked.1, ?_⟩
          rw [hraw, ← b58text_replicate_zero]
          exact congrArg b58text (List.eq_replicate_of_mem hzeros)
  · rintro ⟨hlen, n, hn, hraw⟩
    rw [← b58text_replicate_zero] at hraw
    have hzeros : ∀ x ∈ List.replicate n (0 : UInt8), x = 0 :=
      fun x hx => List.eq_of_mem_replicate hx
    have hchecked : Checked hash (List.replicate n 0) :=
      checked_of_zeros (by rwa [List.length_replicate]) hzeros
    rw [base58DecodeCheck_of_text hlen hraw, if_neg fun hnot => hnot.2 hzeros, if_pos hchecked,
      if_pos hzeros]

/-- The decoder gives the bytes of a text when they fit, are not all zero and end with a checksum
    that is not above the right one. It leaves its block for four ones or more. -/
theorem base58DecodeCheck_spec (hash : Bytes → Bytes) (str : Bytes) (datalen : Nat) :
    (∀ data, base58DecodeCheck hash str datalen = some (some data) ↔
      datalen ≤ 128 ∧ data.length ≤ datalen ∧ ∃ sum, sum.length = 4 ∧
        cString str = b58text (data ++ sum) ∧ (∃ x ∈ data ++ sum, x ≠ 0) ∧
        ofBE sum ≤ ofBE ((hash data).take 4)) ∧
    (base58DecodeCheck hash str datalen = none ↔
      datalen ≤ 128 ∧ ∃ n, 4 ≤ n ∧ cString str = List.replicate n 0x31) :=
  ⟨base58DecodeCheck_eq_some_iff hash str datalen, base58DecodeCheck_eq_none_iff hash str datalen⟩

/-! ## There and back -/

theorem cString_b58text (raw : Bytes) : cString (b58text raw) = b58text raw := by
  refine cString_eq_self fun x hx => ?_
  rcases List.mem_append.mp hx with hone | hdigit
  · rw [List.eq_of_mem_replicate hone]
    decide
  · obtain ⟨d, hd, rfl⟩ := mem_digitText hdigit
    exact (b58digits_spec d hd).2.2.1

/-- What `base58_encode_check` writes is decoded again, when it is not a text of ones. -/
theorem base58DecodeCheck_encode (old : Sha256Ctx) (buf : Bytes) {data str : Bytes}
    {strsize datalen : Nat} (h : base58EncodeCheck data strsize = some str)
    (hdata : data.length ≤ datalen) (hlen : datalen ≤ 128) (hnonzero : ∃ x ∈ data, x ≠ 0) :
    base58DecodeCheck (fun d => hasherRaw old .sha2d d buf) str datalen = some (some data) := by
  rw [base58EncodeCheck, if_neg (by omega), b58enc_eq] at h
  split at h
  case isTrue => exact nomatch h
  case isFalse =>
    obtain rfl := Option.some.inj h
    obtain ⟨x, hx, hx0⟩ := hnonzero
    refine (base58DecodeCheck_eq_some_iff _ _ _ _).mpr ⟨hlen, hdata,
      (sha256 (sha256 data)).take 4, ?_, cString_b58text _, ⟨x, List.mem_append_left _ hx, hx0⟩, ?_⟩
    · rw [List.length_take, length_sha256]
      rfl
    · rw [hasherRaw_eq]
      exact Nat.le_refl _

theorem base58DecodeCheck_encode_one :
    base58DecodeCheck (fun d => hasherRaw sha256Init .sha2d d []) [66, 88, 118, 68, 98, 72] 1 =
      some (some [1]) := by
  have henc : base58EncodeCheck [1] 100 = some [66, 88, 118, 68, 98, 72] := by decide +kernel
  exact base58DecodeCheck_encode sha256Init [] henc (Nat.le_refl 1) (by decide)
    ⟨1, List.mem_cons_self, by decide⟩

end Crypto
end PtpCore
