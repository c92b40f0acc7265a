import Mathlib.Logic.Equiv.Basic
import PtpCore.Crypto.AesSimple
import PtpCore.Proof.Crypto.Base64

/-!
# `CAes` reads back what it wrote

Of other texts it reads whatever the last block decrypts to. The number there is taken for the
length if it is at most that of the whole text, so the output may end with the number itself
(`decryptsInside_iff`).
-/

namespace PtpCore
namespace Proof
namespace Crypto

open Lib PtpCore.Crypto

section

variable {n : Nat}

/-- The length has four bytes of its own, behind the text. -/
theorem blockCount_spec (h : n ≤ 2 ^ 31) :
    n + 4 ≤ CAes.blockCount n * 16 ∧ CAes.blockCount n * 16 ≤ n + 32 := by
  have hwrap : (n + 15) % 2 ^ 32 = n + 15 := Nat.mod_eq_of_lt (by omega)
  rw [CAes.blockCount, hwrap]
  split <;> omega

/-- The block that is encrypted: the text, zeros, and the length. -/
theorem padded_spec {inData : Bytes} {len : Nat} (h : inData.length + 4 ≤ len) :
    let data := overwrite (overwrite (List.replicate len 0) 0 inData) (len - 4)
      (toBE 4 inData.length)
    data.length = len ∧ data.take inData.length = inData ∧
      slice data (len - 4) 4 = toBE 4 inData.length := by
  have hzero : (List.replicate len (0 : UInt8)).length = len := List.length_replicate
  have hfirst : (overwrite (List.replicate len (0 : UInt8)) 0 inData).length = len := by
    rw [length_overwrite (by omega), hzero]
  have hfits : len - 4 + (toBE 4 inData.length).length ≤
      (overwrite (List.replicate len (0 : UInt8)) 0 inData).length := by
    rw [length_toBE, hfirst]
    omega
  refine ⟨?_, ?_, ?_⟩
  · rw [length_overwrite hfits, hfirst]
  · have hbefore := slice_overwrite_disjoint (j := 0) (n := inData.length) hfits
      (.inl (by omega))
    have htext := slice_overwrite_self (m := List.replicate len (0 : UInt8)) (d := inData) (i := 0)
      rfl (by omega)
    exact hbefore.trans htext
  · exact slice_overwrite_self (length_toBE 4 _).symm hfits

end

/-- **The round trip**, for texts that a 32-bit length has room for. -/
theorem decrypt_encrypt (aes : Aes) (c : CAes) {inData : Bytes} (hpos : 0 < inData.length)
    (hle : inData.length ≤ 2 ^ 31) :
    ∃ text, c.encrypt aes inData = .ok text ∧ cString text = text ∧
      text.length = (CAes.blockCount inData.length * 16 + 2) / 3 * 4 ∧
      c.decrypt aes text = ⟨0, some inData, some inData.length⟩ := by
  obtain ⟨hroom, hsmall⟩ := blockCount_spec hle
  have hwrap : inData.length % 2 ^ 32 = inData.length := Nat.mod_eq_of_lt (by omega)
  have hlen32 : CAes.blockCount inData.length * 16 % 2 ^ 32 = CAes.blockCount inData.length * 16 :=
    Nat.mod_eq_of_lt (by omega)
  obtain ⟨hdata, htake, htrailer⟩ := padded_spec hroom
  generalize hpadded :
      overwrite (overwrite (List.replicate (CAes.blockCount inData.length * 16) 0) 0 inData)
        (CAes.blockCount inData.length * 16 - 4) (toBE 4 inData.length) = data
    at hdata htake htrailer
  have henc : (mapBlocks 16 (aes.encrypt c.strKey) (CAes.blockCount inData.length) data).length =
      CAes.blockCount inData.length * 16 :=
    length_mapBlocks (aes.length_encrypt c.strKey) (Nat.le_of_eq hdata.symm)
  have hfits : (mapBlocks 16 (aes.encrypt c.strKey) (CAes.blockCount inData.length) data).length ≤
      sizeTypeMax / 4 * 3 := by
    rw [henc]
    exact Nat.le_trans (by omega) (by decide : 2 ^ 31 + 32 ≤ sizeTypeMax / 4 * 3)
  refine ⟨base64Encode (mapBlocks 16 (aes.encrypt c.strKey) (CAes.blockCount inData.length) data),
    ?_, cString_base64Encode _, ?_, ?_⟩
  · rw [CAes.encrypt]
    dsimp only
    rw [hwrap, if_neg (by omega), hlen32, if_neg (by omega), List.take_length, hpadded]
  · rw [length_base64Encode hfits, henc]
  · have htext := length_base64Encode hfits
    rw [henc] at htext
    have htext32 : (base64Encode (mapBlocks 16 (aes.encrypt c.strKey)
        (CAes.blockCount inData.length) data)).length % 2 ^ 32 =
        (CAes.blockCount inData.length * 16 + 2) / 3 * 4 := by
      rw [htext]
      exact Nat.mod_eq_of_lt (by omega)
    have hback := mapBlocks_mapBlocks (w := 16) (n := CAes.blockCount inData.length) (m := data)
      (aes.length_encrypt c.strKey) (aes.decrypt_encrypt c.strKey) (Nat.le_of_eq hdata.symm)
    rw [← hdata, List.take_length] at hback
    rw [CAes.decrypt]
    dsimp only
    rw [htext32, if_neg (by omega), ← htext, List.take_length, base64Decode_base64Encode hfits,
      henc, hlen32, if_neg (by omega), if_neg (by omega), Nat.mul_div_cancel _ (by decide), hback,
      htrailer, ofBE_toBE_of_lt (by omega), if_neg (by omega), htake]

/-! ### A key of zeros -/

theorem length_swap {a b : Bytes} (h : a.length = b.length) (x : Bytes) :
    (Equiv.swap a b x).length = x.length := by
  rw [Equiv.swap_apply_def]
  split_ifs with ha hb
  · rw [ha, h]
  · rw [hb, h]
  · rfl

/-- What AES does with this key to the block of the text `hi`, and to one that says sixteen. -/
def zeroKeyBlocks : Equiv.Perm Bytes :=
  (Equiv.swap (toBE 16 0x68690000000000000000000000000002)
      (toBE 16 0x2ad855a1750b446c6d66f83aabdb5307)).trans
    (Equiv.swap (toBE 16 16) (toBE 16 0x1490a05a7cee43bde98b56e309dc0126))

theorem length_zeroKeyBlocks (x : Bytes) : (zeroKeyBlocks x).length = x.length := by
  rw [zeroKeyBlocks, Equiv.trans_apply, length_swap (by simp), length_swap (by simp)]

def zeroKeyAes : Aes where
  encrypt _ := zeroKeyBlocks
  decrypt _ := zeroKeyBlocks.symm
  length_encrypt _ block h := by rw [length_zeroKeyBlocks, h]
  length_decrypt _ block h := by rw [← length_zeroKeyBlocks, Equiv.apply_symm_apply, h]
  decrypt_encrypt _ block _ := Equiv.symm_apply_apply _ block

/-! ### A key and a text -/

/-- The same for a key and the base64 text that was made with it; the number is behind the data. -/
theorem decrypt_base64_encrypt (aes : Aes) (key : Bytes) {inData : Bytes} (hne : inData ≠ [])
    (hle : inData.length ≤ 2 ^ 31) :
    ∃ text, (CAes.new key).encrypt aes inData = .ok text ∧
      (CAes.new key).decrypt aes text = ⟨0, some inData, some inData.length⟩ ∧
      inData.length + 4 ≤ CAes.blockCount inData.length * 16 % 2 ^ 32 := by
  obtain ⟨text, henc, -, -, hdec⟩ :=
    decrypt_encrypt aes (CAes.new key) (List.length_pos_iff.mpr hne) hle
  obtain ⟨hroom, hsmall⟩ := blockCount_spec hle
  refine ⟨text, henc, hdec, ?_⟩
  rw [Nat.mod_eq_of_lt (by omega)]
  exact hroom

theorem decrypt_base64_encrypt_hi :
    ∃ text, (CAes.new (List.replicate 32 0)).encrypt zeroKeyAes "hi".toUTF8.toList = .ok text ∧
      (CAes.new (List.replicate 32 0)).decrypt zeroKeyAes text =
        ⟨0, some "hi".toUTF8.toList, some "hi".toUTF8.toList.length⟩ ∧
      "hi".toUTF8.toList.length + 4 ≤
        CAes.blockCount "hi".toUTF8.toList.length * 16 % 2 ^ 32 :=
  decrypt_base64_encrypt zeroKeyAes (List.replicate 32 0) (by decide +kernel) (by decide +kernel)

/-! ## Any text -/

theorem length_decodeFrom_le (s : BitCollector) (text : Bytes) :
    (s.decodeFrom text).length ≤ s.retval.length + text.length := by
  fun_induction BitCollector.decodeFrom s text with
  | case1 s => exact Nat.le_refl _
  | case2 s c rest hskip ih =>
    rw [List.length_cons]
    omega
  | case3 s c rest hskip hbad => exact Nat.zero_le _
  | case4 s c rest hskip hgood ih =>
    -- a digit completes at most one byte
    have hdigit : (s.decodeDigit (reverseTable.getD c.toNat 64)).retval.length ≤
        s.retval.length + 1 := by
      unfold BitCollector.decodeDigit
      dsimp only
      split
      · rw [List.length_append, List.length_singleton]
      · exact Nat.le_succ _
    rw [List.length_cons]
    omega

theorem length_base64Decode_le (text : Bytes) : (base64Decode text).length ≤ text.length := by
  have h := length_decodeFrom_le .start text
  rwa [show BitCollector.start.retval.length = 0 from rfl, Nat.zero_add] at h

section

variable (aes : Aes) (c : CAes) (inData : Bytes)

/-- What `Decrypt` sees of its input, without base64. -/
def decoded : Bytes := base64Decode (inData.take (inData.length % 2 ^ 32))

theorem length_decoded_lt : (decoded inData).length < 2 ^ 32 := by
  have hle := length_base64Decode_le (inData.take (inData.length % 2 ^ 32))
  rw [List.length_take] at hle
  exact Nat.lt_of_le_of_lt (Nat.le_trans hle (Nat.min_le_left ..))
    (Nat.mod_lt _ (Nat.two_pow_pos 32))

/-- Success, and the output ends in front of the number; or a negative code, and the variables of
    the caller are not touched. -/
def DecryptsInside : Prop :=
  ((c.decrypt aes inData).ret = 0 ∧ (c.decrypt aes inData).outData ≠ none ∧
      ∃ nOutLen, (c.decrypt aes inData).nOutLen = some nOutLen ∧
        nOutLen + 4 ≤ (decoded inData).length) ∨
    ((c.decrypt aes inData).ret < 0 ∧ (c.decrypt aes inData).outData = none ∧
      (c.decrypt aes inData).nOutLen = none)

/-- The input is base64 text of one block or more. -/
def WholeBlocks : Prop := 0 < (decoded inData).length ∧ (decoded inData).length % 16 = 0

/-- The number at the end of the last block. -/
def lastNumber : Nat :=
  ofBE ((aes.decrypt c.strKey ((decoded inData).drop ((decoded inData).length - 16))).drop 12)

variable {inData}

/-- The last four bytes of the output are of the last block. -/
theorem slice_mapBlocks_last {f : Bytes → Bytes} (hf : ∀ b, b.length = 16 → (f b).length = 16)
    {m : Bytes} (hpos : 0 < m.length) (hblocks : m.length % 16 = 0) :
    slice (mapBlocks 16 f (m.length / 16) m) (m.length - 4) 4 =
      (f (m.drop (m.length - 16))).drop 12 := by
  obtain ⟨k, hk⟩ : ∃ k, m.length = (k + 1) * 16 := ⟨m.length / 16 - 1, by omega⟩
  have hlast : slice m (k * 16) 16 = m.drop (m.length - 16) := by
    rw [slice, List.take_of_length_le (by rw [List.length_drop]; omega)]
    congr 1
    omega
  have hlen : (f (m.drop (m.length - 16))).length = 16 := by
    rw [← hlast]
    exact hf _ (length_slice (by omega))
  rw [show m.length / 16 = k + 1 by omega, mapBlocks_succ, hlast,
    show m.length - 4 = k * 16 + 12 by omega,
    slice_append_right (length_mapBlocks hf (by omega)), slice,
    List.take_of_length_le (by rw [List.length_drop]; omega)]

/-- `Decrypt` with the lengths as they are: none of them wraps. -/
theorem decrypt_eq (hin : inData.length % 2 ^ 32 ≠ 0) :
    c.decrypt aes inData =
      if (decoded inData).length = 0 then ⟨-2, none, none⟩
      else if (decoded inData).length % 16 ≠ 0 then ⟨-3, none, none⟩
      else
        let tmp := mapBlocks 16 (aes.decrypt c.strKey) ((decoded inData).length / 16)
          (decoded inData)
        let nOutLen := ofBE (slice tmp ((decoded inData).length - 4) 4)
        if nOutLen > (decoded inData).length then ⟨-4, none, some nOutLen⟩
        else ⟨0, some (tmp.take nOutLen), some nOutLen⟩ := by
  have hmod : (base64Decode (inData.take (inData.length % 2 ^ 32))).length % 2 ^ 32 =
      (decoded inData).length := Nat.mod_eq_of_lt (length_decoded_lt inData)
  rw [CAes.decrypt]
  dsimp only
  rw [if_neg hin, hmod]
  rfl

theorem length_decoded_of_empty (hin : inData.length % 2 ^ 32 = 0) :
    (decoded inData).length = 0 := by
  rw [decoded, hin]
  rfl

/-- What a call leaves behind, by what it is given. -/
theorem decrypt_of_wholeBlocks (h : WholeBlocks inData) :
    c.decrypt aes inData =
      if lastNumber aes c inData > (decoded inData).length then
        ⟨-4, none, some (lastNumber aes c inData)⟩
      else
        ⟨0, some ((mapBlocks 16 (aes.decrypt c.strKey) ((decoded inData).length / 16)
          (decoded inData)).take (lastNumber aes c inData)), some (lastNumber aes c inData)⟩ := by
  obtain ⟨hpos, hblocks⟩ := h
  have hin : inData.length % 2 ^ 32 ≠ 0 :=
    fun hin => absurd (length_decoded_of_empty hin) (Nat.ne_of_gt hpos)
  have hlast := slice_mapBlocks_last (aes.length_decrypt c.strKey) hpos hblocks
  rw [decrypt_eq aes c hin, if_neg (Nat.ne_of_gt hpos), if_neg (not_not.mpr hblocks)]
  dsimp only
  rw [hlast]
  rfl

theorem decrypt_of_not_wholeBlocks (h : ¬ WholeBlocks inData) :
    ∃ ret < 0, c.decrypt aes inData = ⟨ret, none, none⟩ := by
  by_cases hin : inData.length % 2 ^ 32 = 0
  · exact ⟨-1, by decide, by rw [CAes.decrypt, if_pos hin]⟩
  rw [decrypt_eq aes c hin]
  by_cases hpos : (decoded inData).length = 0
  · exact ⟨-2, by decide, if_pos hpos⟩
  have hblocks : (decoded inData).length % 16 ≠ 0 :=
    fun hblocks => h ⟨Nat.pos_of_ne_zero hpos, hblocks⟩
  exact ⟨-3, by decide, by rw [if_neg hpos, if_pos hblocks]⟩

/-- **When the output stays inside.** A number that is larger has been stored before it is looked
    at, and one of the last four that are not is part of the output. -/
theorem decryptsInside_iff :
    DecryptsInside aes c inData ↔
      (WholeBlocks inData → lastNumber aes c inData + 4 ≤ (decoded inData).length) := by
  by_cases hwhole : WholeBlocks inData
  · have hdec := decrypt_of_wholeBlocks aes c hwhole
    by_cases hlarge : lastNumber aes c inData > (decoded inData).length
    · rw [if_pos hlarge] at hdec
      rw [DecryptsInside, hdec]
      simp only [hwhole, true_implies]
      constructor
      · rintro (⟨hret, -⟩ | ⟨-, -, hset⟩)
        · cases hret
        · cases hset
      · omega
    · rw [if_neg hlarge] at hdec
      rw [DecryptsInside, hdec]
      simp [hwhole]
  · obtain ⟨ret, hret, hdec⟩ := decrypt_of_not_wholeBlocks aes c hwhole
    rw [DecryptsInside, hdec]
    simp [hwhole, hret]

end

/-- A block that says sixteen, and is sixteen bytes long. -/
theorem not_decryptsInside_sixteen :
    (CAes.new (List.replicate 32 0)).decrypt zeroKeyAes "FJCgWnzuQ73pi1bjCdwBJg==".toUTF8.toList =
        ⟨0, some (toBE 16 16), some 16⟩ ∧
      ¬ DecryptsInside zeroKeyAes (CAes.new (List.replicate 32 0))
        "FJCgWnzuQ73pi1bjCdwBJg==".toUTF8.toList := by
  have hdec : (CAes.new (List.replicate 32 0)).decrypt zeroKeyAes
        "FJCgWnzuQ73pi1bjCdwBJg==".toUTF8.toList = ⟨0, some (toBE 16 16), some 16⟩ ∧
      (decoded "FJCgWnzuQ73pi1bjCdwBJg==".toUTF8.toList).length = 16 := by
    decide +kernel
  refine ⟨hdec.1, ?_⟩
  rintro (⟨-, -, nOutLen, hlen, hle⟩ | ⟨hret, -⟩)
  · rw [hdec.1] at hlen
    rw [hdec.2, ← Option.some.inj hlen] at hle
    exact absurd hle (by decide)
  · rw [hdec.1] at hret
    exact absurd hret (by decide)

end Crypto
end Proof
end PtpCore
