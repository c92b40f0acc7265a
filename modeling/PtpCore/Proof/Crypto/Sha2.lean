import PtpCore.Proof.Crypto.Streaming

/-!
# SHA-256, SHA-512 and `Hasher` over any run (`ptp_crypto/sha2.cpp`, `ptp_crypto/hasher.cpp`)

The two families are lawful, so `Proof/Crypto/Streaming.lean` applies to both. `sha256`, which the
rest of this development uses, is the reference itself. A `Hasher` is a context that can be
started again at any time, and `HASHER_SHA2D` hashes the digest once more.
-/

namespace PtpCore
namespace Crypto

open Lib Sha2

theorem toBE_zero (w : Nat) : toBE w 0 = List.replicate w 0 := by
  induction w with
  | zero => rfl
  | succ w ih => rw [toBE, Nat.zero_div, ih, List.replicate_succ']; rfl

/-! ## The two families -/

theorem lawful256 : sha2With256.Lawful UInt64.toNat where
  wordLength_pos := by decide
  ofNat_toNat x := by simp [sha2With256]
  toNat_ofNat n h := by
    have hn : n < 2 ^ 32 := h
    simpa [sha2With256] using Nat.mod_eq_of_lt hn
  toNat_lt x := x.toNat_lt
  toNat_xor _ _ := rfl
  length_words _ := rfl
  count_noBits := rfl
  count_addBits k n h := by
    have hadd := UInt64.toNat_add k (UInt64.ofNat n)
    rw [UInt64.toNat_ofNat'] at hadd
    rw [Nat.mod_eq_of_lt (a := n) (by omega)] at hadd
    exact hadd
  bytes k := by
    have h := UInt64.toNat_shiftRight k 3
    change (k >>> 3).toNat % 64 = k.toNat / 8 % 64
    rw [h, Nat.shiftRight_eq_div_pow]
    rfl
  length_lengthWords _ := rfl
  lengthWords k := by
    have hlt := k.toNat_lt
    have hhigh : (k >>> 32).toUInt32.toNat = k.toNat / 2 ^ 32 := by
      rw [UInt64.toNat_toUInt32, UInt64.toNat_shiftRight]
      change k.toNat >>> 32 % 2 ^ 32 = _
      rw [Nat.shiftRight_eq_div_pow]
      omega
    have hlow : (k &&& 0xffffffff).toUInt32.toNat = k.toNat % 2 ^ 32 := by
      rw [UInt64.toNat_toUInt32, UInt64.toNat_and]
      change (k.toNat &&& 2 ^ 32 - 1) % 2 ^ 32 = _
      rw [Nat.and_two_pow_sub_one_eq_mod, Nat.mod_mod]
    change toBE 4 (k >>> 32).toUInt32.toNat ++ (toBE 4 (k &&& 0xffffffff).toUInt32.toNat ++ []) =
      toBE 8 k.toNat
    rw [hhigh, hlow, List.append_nil, toBE_add 4 4, ← toBE_mod 4 k.toNat]
    rfl
  dvd := by decide
  blockLength_lt := by decide

/-- The value of a pair of words, the low one first. -/
def pairValue (w : UInt64 × UInt64) : Nat := w.1.toNat + 2 ^ 64 * w.2.toNat

/-- The carry is right, also when the high word wraps. -/
theorem pairValue_addInc128 (w : UInt64 × UInt64) {n : Nat} (h : n < 2 ^ 64) :
    pairValue (addInc128 w n) = (pairValue w + n) % 2 ^ 128 := by
  have hlow : (w.1 + UInt64.ofNat n).toNat = (w.1.toNat + n) % 2 ^ 64 := by
    rw [UInt64.toNat_add, UInt64.toNat_ofNat', Nat.mod_eq_of_lt (a := n) h]
  have hhigh : (w.2 + 1).toNat = (w.2.toNat + 1) % 2 ^ 64 := UInt64.toNat_add ..
  have hn : (UInt64.ofNat n).toNat = n := by rw [UInt64.toNat_ofNat', Nat.mod_eq_of_lt h]
  have h1 := w.1.toNat_lt
  have h2 := w.2.toNat_lt
  rw [addInc128]
  simp only [UInt64.lt_iff_toNat_lt, hn, hlow]
  split
  · simp only [pairValue, hlow, hhigh]
    omega
  · simp only [pairValue, hlow]
    omega

theorem lawful512 : sha2With512.Lawful pairValue where
  wordLength_pos := by decide
  ofNat_toNat x := by simp [sha2With512]
  toNat_ofNat n h := by
    have hn : n < 2 ^ 64 := h
    simpa [sha2With512] using Nat.mod_eq_of_lt hn
  toNat_lt x := x.toNat_lt
  toNat_xor _ _ := rfl
  length_words _ := rfl
  count_noBits := rfl
  count_addBits k n h := pairValue_addInc128 k (by omega)
  bytes k := by
    have h := UInt64.toNat_shiftRight k.1 3
    change (k.1 >>> 3).toNat % 128 = (k.1.toNat + 2 ^ 64 * k.2.toNat) / 8 % 128
    rw [h, Nat.shiftRight_eq_div_pow]
    change k.1.toNat / 8 % 128 = _
    omega
  length_lengthWords _ := rfl
  lengthWords k := by
    have hlt := k.1.toNat_lt
    have hhigh : pairValue k / 256 ^ 8 = k.2.toNat := by
      change (k.1.toNat + 2 ^ 64 * k.2.toNat) / 2 ^ 64 = _
      omega
    have hlow : pairValue k % 256 ^ 8 = k.1.toNat := by
      change (k.1.toNat + 2 ^ 64 * k.2.toNat) % 2 ^ 64 = _
      omega
    change toBE 8 k.2.toNat ++ (toBE 8 k.1.toNat ++ []) = toBE 16 (pairValue k)
    rw [List.append_nil, toBE_add 8 8, hhigh, ← toBE_mod 8 (pairValue k), hlow]
  dvd := by decide
  blockLength_lt := by decide

/-! ## `sha256` is the reference -/

theorem wordsOf_256 (b : Bytes) : sha2With256.wordsOf 16 b =
    (List.range 16).map fun i => UInt32.ofNat (ofBE (slice b (4 * i) 4)) := by
  rw [wordsOf]
  refine List.map_congr_left fun i _ => ?_
  rw [Nat.mul_comm 4 i]
  rfl

theorem transform_eq_transformWords (s : Sha256.Regs) (b : Bytes) :
    Sha256.transform s b = Sha256.transformWords s (sha2With256.wordsOf 16 b) := by
  rw [wordsOf_256]
  rfl

theorem sha256_eq_hash (d : Bytes) : sha256 d = hash lawful256 d := by
  let B := blockHash lawful256
  have hcompress (s : Sha256.Regs) (b : Bytes) : B.compress s b = Sha256.transform s b :=
    (transform_eq_transformWords s b).symm
  have hstate : (List.range (d.length / 64)).foldl
      (fun s i => Sha256.transform s (slice d (64 * i) 64)) Sha256.initialHashValue =
      B.absorb Sha256.initialHashValue d := by
    rw [BlockHash.absorb, BlockHash.blocks]
    simp only [hcompress]
    rfl
  have hrest : d.drop (64 * (d.length / 64)) = B.rest d := rfl
  have hlen : (B.rest d).length = d.length % 64 := B.length_rest d
  have hlt : d.length % 64 < 64 := Nat.mod_lt _ (by decide)
  have hcount : (toBE 8 (8 * d.length)).length = 8 := length_toBE ..
  have hnext : sha2With256.lengthBytes (0 + d.length) = toBE 8 (8 * d.length) := by
    rw [Nat.zero_add]; rfl
  have hlast : hashFrom lawful256 sha2With256.initialHashValue 0 d =
      B.absorb Sha256.initialHashValue (d ++ B.closing (toBE 8 (8 * d.length)) d.length) := by
    rw [hashFrom, hnext]
    rfl
  rw [sha256, Sha2.hash, hlast]
  simp only [hstate, hrest, Sha256.final, List.length_append, List.length_singleton, hlen]
  split
  case isTrue htwo =>
    rw [B.absorb_closing_two (by rw [hcount]; decide) (by rw [hlen, hcount]; change 64 < _; omega)]
    simp only [hcompress, hlen, hcount, List.append_assoc, List.singleton_append, List.length_nil,
      List.nil_append]
    rfl
  case isFalse hone =>
    rw [B.absorb_closing_one (by rw [hlen, hcount]; change _ ≤ 64; omega)]
    simp only [hcompress, hlen, hcount, List.append_assoc, List.singleton_append, List.length_append,
      List.length_singleton]
    rfl

/-! ## Whole runs -/

theorem sha256Final_foldl (chunks : List Bytes) :
    sha256Final (chunks.foldl sha256Update sha256Init) = sha256 chunks.flatten :=
  (final_foldl_update lawful256 chunks).trans (sha256_eq_hash _).symm

theorem sha256Raw_eq (d : Bytes) : sha256Raw d = sha256 d := by
  have h := sha256Final_foldl [d]
  rw [List.flatten_singleton] at h
  exact h

/-- The digest of a whole message, `sha512_Raw`. -/
def sha512 (d : Bytes) : Bytes := hash lawful512 d

@[simp] theorem length_sha512 (d : Bytes) : (sha512 d).length = 64 := by
  rw [sha512, Sha2.hash, length_toBytes]
  rfl

theorem sha512Raw_eq (d : Bytes) : sha512Raw d = sha512 d := by
  have h := final_foldl_update lawful512 [d]
  rw [List.flatten_singleton] at h
  exact h

/-- Both counters wrap and the pair of words carries, but no cut of any message shows: the digest
    is that of the padded message, block by block. -/
theorem sha512_any_cut (chunks : List Bytes) :
    sha512Final (chunks.foldl sha512Update sha512Init) =
      let m := chunks.flatten
      let B := blockHash lawful512
      sha2With512.toBytes (sha2With512.words
        (B.absorb Sha512.initialHashValue (m ++ B.closing (toBE 16 (8 * m.length)) m.length))) := by
  have h := final_foldl_update lawful512 chunks
  rw [Sha2.hash, hashFrom, lengthBytes, Nat.zero_add] at h
  exact h

/-! ## `Hasher` -/

/-- The calls between `hasher_Init` and `hasher_Final`. -/
inductive HasherOp
  | update (data : Bytes)
  | reset

def hasherStep (hasher : Hasher) : HasherOp → Hasher
  | .update data => hasherUpdate hasher data
  | .reset => hasherReset hasher

/-- What was fed since the last reset. -/
def fedSince (acc : Bytes) : HasherOp → Bytes
  | .update data => acc ++ data
  | .reset => []

/-- The context belongs to a type that is coded, and stands for `d`. -/
def HasherFed (type : HasherType) (hasher : Hasher) (d : Bytes) : Prop :=
  hasher.type = type ∧
    (type = .sha2 ∨ type = .sha2d → Fed lawful256 Sha256.initialHashValue 0 hasher.ctx d)

theorem hasherInit_fed (old : Sha256Ctx) (type : HasherType) :
    HasherFed type (hasherInit old type) [] := by
  rw [hasherInit]
  split
  · exact ⟨rfl, fun _ => fed_init lawful256⟩
  case isFalse hnot => exact ⟨rfl, fun h => absurd h hnot⟩

theorem hasherStep_fed {type : HasherType} {hasher : Hasher} {d : Bytes}
    (h : HasherFed type hasher d) (op : HasherOp) :
    HasherFed type (hasherStep hasher op) (fedSince d op) := by
  obtain ⟨rfl, hctx⟩ := h
  cases op with
  | reset => exact hasherInit_fed _ _
  | update data =>
    rw [hasherStep, hasherUpdate]
    split
    case isTrue hcoded => exact ⟨rfl, fun _ => update_fed (hctx hcoded) data⟩
    case isFalse hnot => exact ⟨rfl, fun h => absurd h hnot⟩

theorem sha256Final_fed {c : Sha256Ctx} {d : Bytes}
    (h : Fed lawful256 Sha256.initialHashValue 0 c d) : sha256Final c = sha256 d :=
  (final_fed h).trans (sha256_eq_hash d).symm

theorem hasherRawSha2_eq (old : Sha256Ctx) (d : Bytes) : hasherRawSha2 old d = sha256 d :=
  sha256Raw_eq d

/-- What a type of hasher makes of a message; `hash` is what stands in the output before. -/
def digestOf (type : HasherType) (d hash : Bytes) : Bytes :=
  match type with
  | .sha2 => sha256 d
  | .sha2d => sha256 (sha256 d)
  | .blake => hash
  | .blaked => hash

theorem HasherFed.final {type : HasherType} {hasher : Hasher} {d : Bytes}
    (h : HasherFed type hasher d) (old : Sha256Ctx) (hash : Bytes) :
    hasherFinal hasher old hash = digestOf type d hash := by
  obtain ⟨htype, hctx⟩ := h
  cases type with
  | sha2 =>
    simp only [hasherFinal, htype, digestOf]
    exact sha256Final_fed (hctx (.inl rfl))
  | sha2d =>
    simp only [hasherFinal, htype, digestOf]
    rw [hasherRawSha2_eq, sha256Final_fed (hctx (.inr rfl))]
  | blake => simp only [hasherFinal, htype, digestOf]
  | blaked => simp only [hasherFinal, htype, digestOf]

theorem hasherRaw_eq (old : Sha256Ctx) (type : HasherType) (d hash : Bytes) :
    hasherRaw old type d hash = digestOf type d hash :=
  (hasherStep_fed (hasherInit_fed old type) (.update d)).final old hash

end Crypto
end PtpCore
