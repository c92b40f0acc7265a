import PtpCore.Crypto.Hmac
import PtpCore.Lib.KeyedHash
import PtpCore.Proof.Crypto.Sha2

/-!
# HMAC over any pieces, and PBKDF2 without HMAC (`ptp_crypto/hmac.cpp`, `ptp_crypto/pbkdf2.cpp`)

The keyed hash of a message that came in any pieces is the textbook one. PBKDF2 never calls it:
the blocks of the padded key are transformed once, a round transforms one block behind each of
them, and the words of `g` behind the digest are the padding of the hash for that length. That this
gives the rounds of the textbook is `round_eq_hmac`.
-/

namespace PtpCore
namespace Crypto

open Lib Sha2

variable {W σ κ : Type} {A : Sha2 W σ κ} {count : κ → Nat} {L : A.Lawful count}

/-! ## Words and bytes -/

section Words

theorem wordsOf_toBytes (L : A.Lawful count) (xs : List W) :
    A.wordsOf xs.length (A.toBytes xs) = xs := by
  have hslice (i : Nat) (hi : i < xs.length) :
      slice (A.toBytes xs) (i * A.wordLength) A.wordLength =
        toBE A.wordLength (A.toNat xs[i]) := by
    have hsplit : A.toBytes xs = A.toBytes (xs.take i) ++ A.toBytes (xs.drop i) := by
      rw [toBytes, toBytes, toBytes, ← List.flatMap_append, List.take_append_drop]
    have hfront : (A.toBytes (xs.take i)).length = i * A.wordLength := by
      rw [length_toBytes, List.length_take, Nat.min_eq_left (Nat.le_of_lt hi)]
    rw [hsplit, ← Nat.add_zero (i * A.wordLength), slice_append_right hfront,
      List.drop_eq_getElem_cons hi, toBytes, List.flatMap_cons, slice, List.drop_zero,
      List.take_left' (length_toBE ..)]
  refine List.ext_getElem (by simp [wordsOf]) fun i h1 h2 => ?_
  have hlt := L.toNat_lt xs[i]
  simp only [wordsOf, List.getElem_map, List.getElem_range, hslice i h2]
  rw [ofBE_toBE_of_lt hlt, L.ofNat_toNat]

theorem toBytes_wordsOf (L : A.Lawful count) {n : Nat} {b : Bytes}
    (h : n * A.wordLength ≤ b.length) :
    A.toBytes (A.wordsOf n b) = b.take (n * A.wordLength) := by
  induction n with
  | zero => simp [toBytes, wordsOf]
  | succ n ih =>
    rw [Nat.succ_mul] at h
    have hlen : (slice b (n * A.wordLength) A.wordLength).length = A.wordLength := length_slice h
    have hlt := ofBE_lt (slice b (n * A.wordLength) A.wordLength)
    have hback := toBE_ofBE (slice b (n * A.wordLength) A.wordLength)
    rw [hlen] at hlt hback
    have hfront := ih (by omega)
    rw [toBytes, wordsOf] at hfront
    rw [wordsOf, List.range_succ, List.map_append, toBytes, List.flatMap_append, hfront,
      List.map_singleton, List.flatMap_singleton, L.toNat_ofNat _ hlt, hback, Nat.succ_mul, slice,
      ← List.take_add]

theorem toBytes_wordsOf_block (L : A.Lawful count) {b : Bytes} (h : b.length = A.blockLength) :
    A.toBytes (A.wordsOf 16 b) = b := by
  rw [toBytes_wordsOf L (Nat.le_of_eq h.symm),
    List.take_of_length_le (i := 16 * A.wordLength) (Nat.le_of_eq h)]

theorem toBytes_append (xs ys : List W) :
    A.toBytes (xs ++ ys) = A.toBytes xs ++ A.toBytes ys := List.flatMap_append

theorem toBytes_zipWith_xor (L : A.Lawful count) (xs ys : List W) :
    A.toBytes (List.zipWith A.xor xs ys) = xorBytes (A.toBytes xs) (A.toBytes ys) := by
  induction xs generalizing ys with
  | nil => simp [toBytes, xorBytes]
  | cons x xs ih =>
    cases ys with
    | nil => simp [toBytes, xorBytes]
    | cons y ys =>
      have hcons (z : W) (zs : List W) :
          A.toBytes (z :: zs) = toBE A.wordLength (A.toNat z) ++ A.toBytes zs := rfl
      rw [List.zipWith_cons_cons, hcons, hcons, hcons, ih, L.toNat_xor, toBE_xor,
        xorBytes_append (by simp)]

theorem toBE_repeated (L : A.Lawful count) (x : UInt8) :
    toBE A.wordLength (A.toNat (repeated A x)) = List.replicate A.wordLength x := by
  have hlt := ofBE_lt (List.replicate A.wordLength x)
  have hback := toBE_ofBE (List.replicate A.wordLength x)
  rw [List.length_replicate] at hlt hback
  rw [repeated, L.toNat_ofNat _ hlt, hback]

/-- One word against each of a block is one byte against each. -/
theorem toBytes_map_xor (L : A.Lawful count) (x : UInt8) (xs : List W) :
    A.toBytes (xs.map fun y => A.xor y (repeated A x)) = xorWith x (A.toBytes xs) := by
  induction xs with
  | nil => rfl
  | cons y xs ih =>
    have hcons (z : W) (zs : List W) :
        A.toBytes (z :: zs) = toBE A.wordLength (A.toNat z) ++ A.toBytes zs := rfl
    have hword : toBE A.wordLength (A.toNat y ^^^ A.toNat (repeated A x)) =
        xorWith x (toBE A.wordLength (A.toNat y)) := by
      rw [toBE_xor, toBE_repeated L, xorWith_eq_xorBytes, length_toBE]
    rw [List.map_cons, hcons, hcons, ih, L.toNat_xor, hword]
    exact List.map_append.symm

end Words

/-! ## HMAC -/

theorem raw_eq_hash (L : A.Lawful count) (d : Bytes) : A.raw d = Sha2.hash L d := by
  have h := final_foldl_update L [d]
  rw [List.flatten_singleton] at h
  exact h

theorem length_hash (L : A.Lawful count) (d : Bytes) :
    (Sha2.hash L d).length = 8 * A.wordLength := by
  rw [Sha2.hash, length_toBytes, L.length_words]

theorem length_hash_le (L : A.Lawful count) (d : Bytes) :
    (Sha2.hash L d).length ≤ A.blockLength := by
  rw [length_hash, blockLength]
  omega

theorem keyPad_eq (L : A.Lawful count) (key : Bytes) :
    keyPad A key = padKey (Sha2.hash L) A.blockLength key := by
  have hover (k : Bytes) : overwrite (List.replicate A.blockLength 0) 0 k =
      k ++ List.replicate (A.blockLength - k.length) 0 := by
    rw [overwrite, List.take_zero, List.nil_append, Nat.zero_add, List.drop_replicate]
  rw [keyPad, padKey]
  simp only [hover, raw_eq_hash L, gt_iff_lt]
  split <;> rfl

theorem length_keyPad (L : A.Lawful count) (key : Bytes) :
    (keyPad A key).length = A.blockLength := by
  rw [keyPad_eq L]
  exact length_padKey (length_hash_le L) key

theorem foldl_hmacUpdate (hctx : HmacCtx σ κ) (chunks : List Bytes) :
    chunks.foldl (hmacUpdate A) hctx = { hctx with ctx := chunks.foldl A.update hctx.ctx } := by
  induction chunks generalizing hctx with
  | nil => rfl
  | cons e chunks ih => exact ih (hmacUpdate A hctx e)

/-- The keyed hash of a message in pieces. -/
theorem hmacFinal_foldl (L : A.Lawful count) (key : Bytes) (chunks : List Bytes) :
    hmacFinal A (chunks.foldl (hmacUpdate A) (hmacInit A key)) =
      hmac (Sha2.hash L) A.blockLength key chunks.flatten := by
  have hinner := final_foldl_update L (xorWith 0x36 (keyPad A key) :: chunks)
  have houter := final_foldl_update L [xorWith 0x5c (keyPad A key),
    Sha2.hash L (xorWith 0x36 (keyPad A key) ++ chunks.flatten)]
  rw [List.foldl_cons, List.flatten_cons] at hinner
  rw [List.flatten_cons, List.flatten_singleton] at houter
  rw [foldl_hmacUpdate, hmacFinal, hmacInit]
  simp only []
  rw [hmac, ← keyPad_eq L, ← houter, ← hinner]
  rfl

/-! ## Behind the padded key -/

theorem wordsOf_xorWith (L : A.Lawful count) (x : UInt8) {b : Bytes}
    (h : b.length = A.blockLength) :
    A.wordsOf 16 (xorWith x b) = (A.wordsOf 16 b).map fun y => A.xor y (repeated A x) := by
  have hlen : ((A.wordsOf 16 b).map fun y => A.xor y (repeated A x)).length = 16 := by
    simp [wordsOf]
  have hback := wordsOf_toBytes L ((A.wordsOf 16 b).map fun y => A.xor y (repeated A x))
  rwa [hlen, toBytes_map_xor L, toBytes_wordsOf_block L h] at hback

/-- The hash value behind the block of the padded key. -/
def keyed (L : A.Lawful count) (x : UInt8) (key : Bytes) : σ :=
  A.transform A.initialHashValue
    (A.wordsOf 16 (xorWith x (padKey (Sha2.hash L) A.blockLength key)))

theorem hmacPrepare_eq (L : A.Lawful count) (key : Bytes) :
    hmacPrepare A key = (keyed L 0x5c key, keyed L 0x36 key) := by
  have hlen := length_keyPad L key
  have hdata := A.loadBlock_reverse (keyPad A key) hlen
  have hopad := wordsOf_xorWith L 0x5c hlen
  have hback : (A.wordsOf 16 (xorWith 0x5c (keyPad A key))).map
      (fun x => A.xor (A.xor x (repeated A 0x5c)) (repeated A 0x36)) =
      A.wordsOf 16 (xorWith 0x36 (keyPad A key)) := by
    have h1 := wordsOf_xorWith L 0x5c (b := xorWith 0x5c (keyPad A key)) (by simpa using hlen)
    rw [xorWith_xorWith] at h1
    rw [wordsOf_xorWith L 0x36 hlen, h1, List.map_map]
    rfl
  rw [hmacPrepare]
  simp only [hdata, ← hopad, hback]
  rw [keyed, keyed, ← keyPad_eq L]

/-- A block in front of a message is a transformation. -/
theorem hashFrom_block (L : A.Lawful count) {p : Bytes} (hp : p.length = A.blockLength) (s : σ)
    (d : Bytes) :
    hashFrom L s 0 (p ++ d) = hashFrom L (A.transform s (A.wordsOf 16 p)) A.blockLength d := by
  let B := blockHash L
  have hfull : p.length % B.size = 0 := by rw [hp]; exact Nat.mod_self _
  have hclosing (c : Bytes) : B.closing c (p ++ d).length = B.closing c d.length := by
    rw [BlockHash.closing, BlockHash.closing, List.length_append, Nat.add_mod, hfull, Nat.zero_add,
      Nat.mod_mod]
  have hcount : 0 + (p ++ d).length = A.blockLength + d.length := by
    rw [List.length_append, hp, Nat.zero_add]
  rw [hashFrom, hashFrom, hclosing, hcount, List.append_assoc, B.absorb_append_of_dvd hfull,
    B.absorb_block hp]
  rfl

theorem length_xorWith_padKey (L : A.Lawful count) (x : UInt8) (key : Bytes) :
    (xorWith x (padKey (Sha2.hash L) A.blockLength key)).length = A.blockLength := by
  rw [length_xorWith, length_padKey (length_hash_le L)]

/-- HMAC from the two hash values alone. -/
theorem hmac_eq_keyed (L : A.Lawful count) (key msg : Bytes) :
    hmac (Sha2.hash L) A.blockLength key msg =
      A.toBytes (A.words (hashFrom L (keyed L 0x5c key) A.blockLength
        (A.toBytes (A.words (hashFrom L (keyed L 0x36 key) A.blockLength msg))))) := by
  rw [hmac, Sha2.hash, Sha2.hash, hashFrom_block L (length_xorWith_padKey L 0x36 key),
    hashFrom_block L (length_xorWith_padKey L 0x5c key)]
  rfl

/-! ## The padding of a digest -/

theorem toBE_of_top (v : Nat) (x : UInt8) :
    toBE (v + 1) (x.toNat * 256 ^ v) = x :: List.replicate v 0 := by
  have hpos : 0 < 256 ^ v := Nat.pow_pos (by decide)
  rw [Nat.add_comm, toBE_add 1 v, Nat.mul_div_cancel _ hpos, ← toBE_mod v, Nat.mul_mod_left,
    toBE_zero]
  simp [toBE]

theorem mul_lt_pow (w : Nat) (h : 0 < w) : 192 * w < 256 ^ w := by
  induction w with
  | zero => exact absurd h (Nat.lt_irrefl 0)
  | succ w ih =>
    rw [Nat.pow_succ]
    rcases Nat.eq_zero_or_pos w with rfl | hw
    · decide
    · have := ih hw
      omega

/-- `g[8]` to `g[15]` are the padding behind a block and a digest. -/
theorem toBytes_padding (L : A.Lawful count) :
    A.toBytes (padding A) = 0x80 :: (List.replicate (6 * A.wordLength - 1) 0 ++
      A.lengthBytes (A.blockLength + 8 * A.wordLength)) := by
  obtain ⟨v, hv⟩ : ∃ v, A.wordLength = v + 1 := ⟨A.wordLength - 1, by
    have := L.wordLength_pos
    omega⟩
  have hpos : 0 < 256 ^ v := Nat.pow_pos (by decide)
  have hlt := mul_lt_pow A.wordLength L.wordLength_pos
  have hlen : (A.blockLength + 8 * A.wordLength) * 8 = 192 * A.wordLength := by
    rw [blockLength]; omega
  have hmark : toBE A.wordLength (A.toNat (A.ofNat (0x80 * 256 ^ (A.wordLength - 1)))) =
      0x80 :: List.replicate v 0 := by
    rw [L.toNat_ofNat _ (by rw [hv, Nat.pow_succ, Nat.add_sub_cancel]; omega), hv,
      Nat.add_sub_cancel]
    exact toBE_of_top v 0x80
  have hzero : toBE A.wordLength (A.toNat (A.ofNat 0)) = List.replicate A.wordLength 0 := by
    rw [L.toNat_ofNat _ (Nat.pow_pos (by decide)), toBE_zero]
  have hcount : A.lengthBytes (A.blockLength + 8 * A.wordLength) =
      List.replicate A.wordLength 0 ++ toBE A.wordLength (192 * A.wordLength) := by
    rw [lengthBytes, Nat.mul_comm 8, hlen, Nat.two_mul, toBE_add, Nat.div_eq_of_lt hlt, toBE_zero]
  have hzeros : A.toBytes (List.replicate 6 (A.ofNat 0)) =
      List.replicate (6 * A.wordLength) 0 := by
    simp only [toBytes, List.replicate_succ, List.replicate_zero, List.flatMap_cons,
      List.flatMap_nil, hzero, List.append_nil, List.replicate_append_replicate]
    congr 1
    omega
  rw [padding, ← List.singleton_append, toBytes_append, toBytes_append, hzeros]
  simp only [toBytes, List.flatMap_singleton]
  rw [hmark, hlen, L.toNat_ofNat _ hlt, hcount, List.cons_append, ← List.append_assoc,
    ← List.append_assoc, List.replicate_append_replicate, List.replicate_append_replicate,
    show v + 6 * A.wordLength = 6 * A.wordLength - 1 + A.wordLength by omega]

/-- One transformation hashes a digest that stands behind a block. -/
theorem transform_padding (L : A.Lawful count) {ws : List W} (h : ws.length = 8) (s : σ) :
    A.transform s (ws ++ padding A) = hashFrom L s A.blockLength (A.toBytes ws) := by
  let B := blockHash L
  have hw := L.wordLength_pos
  have hblock : A.blockLength = 16 * A.wordLength := rfl
  have hlen : (A.toBytes ws).length = 8 * A.wordLength := by rw [length_toBytes, h]
  have hcount : (A.lengthBytes (A.blockLength + 8 * A.wordLength)).length = 2 * A.wordLength :=
    length_toBE ..
  have hrest : B.rest (A.toBytes ws) = A.toBytes ws :=
    B.rest_of_length_lt (by rw [hlen]; change _ < A.blockLength; omega)
  have hwords : A.wordsOf 16 (A.toBytes (ws ++ padding A)) = ws ++ padding A := by
    have hback := wordsOf_toBytes L (ws ++ padding A)
    rwa [List.length_append, h] at hback
  rw [hashFrom, hlen]
  have hfits : (B.rest (A.toBytes ws)).length + 1 +
      (A.lengthBytes (A.blockLength + 8 * A.wordLength)).length ≤ B.size := by
    rw [hrest, hlen, hcount]
    change _ ≤ A.blockLength
    omega
  have hone := B.absorb_closing_one (t := s) hfits
  have hzeros : B.size - 2 * A.wordLength - (8 * A.wordLength + 1) = 6 * A.wordLength - 1 := by
    change A.blockLength - _ - _ = _
    omega
  have hstate : B.absorb s (A.toBytes ws) = s :=
    B.absorb_of_length_lt (by rw [hlen]; change _ < A.blockLength; omega)
  rw [hrest, hlen, hcount, hzeros, hstate, ← toBytes_padding L, ← toBytes_append] at hone
  refine Eq.trans ?_ hone.symm
  change _ = A.transform s (A.wordsOf 16 (A.toBytes (ws ++ padding A)))
  rw [hwords]

/-! ## PBKDF2 -/

section Rounds

variable (L) (pass salt : Bytes)

/-- HMAC with the password as the key. -/
abbrev prf (msg : Bytes) : Bytes := hmac (Sha2.hash L) A.blockLength pass msg

/-- The context after `n` passes of the loop. -/
structure AfterRounds (pctx : Pbkdf2Ctx W σ) (n : Nat) : Prop where
  odig : pctx.odig = keyed L 0x5c pass
  idig : pctx.idig = keyed L 0x36 pass
  g : ∃ ws : List W, ws.length = 8 ∧ pctx.g = ws ++ padding A ∧
    A.toBytes ws = (prf L pass)^[n] (prf L pass (salt ++ toBE 4 1))
  f : A.toBytes pctx.f = pbkdf2Block (prf L pass) salt (n + 1) 1
  length_f : pctx.f.length = 8

variable {L pass salt}

theorem storeState_append (s : σ) {ws rest : List W} (h : ws.length = 8) :
    storeState A s (ws ++ rest) = A.words s ++ rest := by
  rw [storeState, List.drop_left' h]

/-- Two transformations of the block `g` are one HMAC of the digest in it. -/
theorem round_eq_hmac {ws : List W} (h : ws.length = 8) :
    A.toBytes (A.words (A.transform (keyed L 0x5c pass)
      (A.words (A.transform (keyed L 0x36 pass) (ws ++ padding A)) ++ padding A))) =
      prf L pass (A.toBytes ws) := by
  rw [transform_padding L (L.length_words _), transform_padding L h, prf, hmac_eq_keyed]

/-- One pass of the loop. -/
theorem pbkdf2Round_after {pctx : Pbkdf2Ctx W σ} {n : Nat} (h : AfterRounds L pass salt pctx n) :
    AfterRounds L pass salt (pbkdf2Round A pctx) (n + 1) := by
  obtain ⟨ws, hws, hg, hu⟩ := h.g
  let t := A.words (A.transform (keyed L 0x5c pass)
    (A.words (A.transform (keyed L 0x36 pass) (ws ++ padding A)) ++ padding A))
  have ht : t.length = 8 := L.length_words _
  have hnext : A.toBytes t = (prf L pass)^[n + 1] (prf L pass (salt ++ toBE 4 1)) := by
    rw [Function.iterate_succ_apply', ← hu]
    exact round_eq_hmac hws
  have hround : pbkdf2Round A pctx =
      { pctx with f := List.zipWith A.xor pctx.f t, g := t ++ padding A } := by
    rw [pbkdf2Round]
    simp only [h.idig, h.odig, hg, storeState_append _ hws, storeState_append _ (L.length_words _),
      List.take_left' (L.length_words _)]
    rfl
  rw [hround]
  refine ⟨h.odig, h.idig, ⟨t, ht, rfl, hnext⟩, ?_, ?_⟩
  · rw [toBytes_zipWith_xor L, h.f, hnext, ← pbkdf2Block_succ]
  · rw [List.length_zipWith, h.length_f, ht, Nat.min_self]

theorem iterate_pbkdf2Round_after {pctx : Pbkdf2Ctx W σ} {n : Nat}
    (h : AfterRounds L pass salt pctx n) (k : Nat) :
    AfterRounds L pass salt ((pbkdf2Round A)^[k] pctx) (n + k) ∧
      ((pbkdf2Round A)^[k] pctx).first = pctx.first := by
  induction k with
  | zero => exact ⟨h, rfl⟩
  | succ k ih =>
    rw [Function.iterate_succ_apply']
    exact ⟨pbkdf2Round_after ih.1, ih.2⟩

theorem pbkdf2Update_after {pctx : Pbkdf2Ctx W σ} {n : Nat} (h : AfterRounds L pass salt pctx n)
    (iterations : Nat) :
    AfterRounds L pass salt (pbkdf2Update A pctx iterations) (n + (iterations - pctx.first)) := by
  obtain ⟨hodig, hidig, hg, hf, hlen⟩ := (iterate_pbkdf2Round_after h (iterations - pctx.first)).1
  exact ⟨hodig, hidig, hg, hf, hlen⟩

/-- The first HMAC, of the salt and the number of the block. -/
theorem pbkdf2Init_after (L : A.Lawful count) (junk : Nat → UInt8) (pass salt : Bytes) :
    AfterRounds L pass salt (pbkdf2Init A junk pass salt) 0 := by
  let buffer := (List.range A.blockLength).map junk
  have hstart : Fed L (keyed L 0x36 pass) A.blockLength
      ⟨keyed L 0x36 pass, A.addBits A.noBits (A.blockLength * 8), buffer⟩ [] := by
    refine ⟨BlockHash.Holds.nil (by simp [buffer, blockHash]), ?_, Nat.mod_self _⟩
    have hlt := L.blockLength_lt
    rw [L.count_addBits _ _ (by omega), L.count_noBits, Nat.zero_add, List.length_nil, Nat.add_zero,
      Nat.mul_comm]
  let ws := A.words (hashFrom L (keyed L 0x36 pass) A.blockLength (salt ++ [0, 0, 0, 1]))
  have hws : ws.length = 8 := L.length_words _
  have hfinal : A.final (A.update (A.update
      ⟨keyed L 0x36 pass, A.addBits A.noBits (A.blockLength * 8), buffer⟩ salt) [0, 0, 0, 1]) =
      A.toBytes ws := final_fed (update_fed (update_fed hstart salt) [0, 0, 0, 1])
  have hload : (List.range 8).map (A.load (A.reverse 8 (A.toBytes ws))) = ws := by
    have hback := wordsOf_toBytes L ws
    rw [hws] at hback
    rw [A.map_load_reverse _ (by rw [length_toBytes, hws]), hback]
  let t := A.words (A.transform (keyed L 0x5c pass) (ws ++ padding A))
  have ht : t.length = 8 := L.length_words _
  have hu : A.toBytes t = prf L pass (salt ++ toBE 4 1) := by
    rw [prf, hmac_eq_keyed, ← transform_padding L (L.length_words _)]
    rfl
  have hinit : pbkdf2Init A junk pass salt =
      { odig := keyed L 0x5c pass, idig := keyed L 0x36 pass, f := t, g := t ++ padding A,
        first := 1 } := by
    rw [pbkdf2Init]
    simp only [hmacPrepare_eq L]
    rw [hfinal, hload, storeState_append _ hws, List.take_left' ht]
  rw [hinit]
  exact ⟨rfl, rfl, ⟨t, ht, rfl, hu⟩, hu, ht⟩

/-- How often the salt is hashed by the updates of a run: `Init` has done it once, which the first
    update counts and the others do not. -/
def roundsOf : List Nat → Nat
  | [] => 1
  | iterations :: rest => max 1 iterations + rest.sum

theorem foldl_pbkdf2Update_after {pctx : Pbkdf2Ctx W σ} {n : Nat}
    (h : AfterRounds L pass salt pctx n) (hfirst : pctx.first = 0) (runs : List Nat) :
    AfterRounds L pass salt (runs.foldl (pbkdf2Update A) pctx) (n + runs.sum) := by
  induction runs generalizing pctx n with
  | nil => exact h
  | cons iterations runs ih =>
    have hnext := pbkdf2Update_after h iterations
    rw [hfirst, Nat.sub_zero] at hnext
    have hall := ih hnext rfl
    rwa [Nat.add_assoc] at hall

/-- The derived block, whatever updates the iterations are asked for by. -/
theorem pbkdf2Final_foldl (L : A.Lawful count) (junk : Nat → UInt8) (pass salt : Bytes)
    (runs : List Nat) :
    pbkdf2Final A (runs.foldl (pbkdf2Update A) (pbkdf2Init A junk pass salt)) =
      pbkdf2Block (prf L pass) salt (roundsOf runs) 1 := by
  have hinit := pbkdf2Init_after L junk pass salt
  obtain ⟨n, hn, hrun⟩ : ∃ n, n + 1 = roundsOf runs ∧
      AfterRounds L pass salt (runs.foldl (pbkdf2Update A) (pbkdf2Init A junk pass salt)) n := by
    cases runs with
    | nil => exact ⟨0, rfl, hinit⟩
    | cons iterations runs =>
      have hone := pbkdf2Update_after hinit iterations
      have hfirst : (pbkdf2Init A junk pass salt).first = 1 := rfl
      rw [hfirst] at hone
      refine ⟨_, ?_, foldl_pbkdf2Update_after hone rfl runs⟩
      rw [roundsOf]
      omega
  have hwords := A.mapBlocks_storeAll
    (runs.foldl (pbkdf2Update A) (pbkdf2Init A junk pass salt)).f
  rw [hrun.length_f] at hwords
  rw [← hn, ← hrun.f, pbkdf2Final, reverse, hwords, List.drop_of_length_le, List.append_nil]
  rw [length_storeAll, hrun.length_f]

end Rounds

/-! ## The functions of the source -/

theorem hash_lawful256 : Sha2.hash lawful256 = sha256 :=
  funext fun d => (sha256_eq_hash d).symm

/-- `hmac_sha256_*` and `hmac_sha512_*`: any key, and a message that is cut anywhere. -/
theorem hmac_any_cut (key : Bytes) (chunks : List Bytes) :
    hmacFinal sha2With256 (chunks.foldl (hmacUpdate sha2With256) (hmacInit sha2With256 key)) =
        hmac sha256 64 key chunks.flatten ∧
      hmacFinal sha2With512 (chunks.foldl (hmacUpdate sha2With512) (hmacInit sha2With512 key)) =
        hmac sha512 128 key chunks.flatten := by
  refine ⟨?_, hmacFinal_foldl lawful512 key chunks⟩
  rw [hmacFinal_foldl lawful256, hash_lawful256]
  rfl

theorem hmacSha512_eq (key msg : Bytes) : hmacSha512 key msg = hmac sha512 128 key msg := by
  have h := hmacFinal_foldl lawful512 key [msg]
  rw [List.flatten_singleton] at h
  exact h

@[simp] theorem length_hmacSha512 (key msg : Bytes) : (hmacSha512 key msg).length = 64 := by
  rw [hmacSha512_eq, hmac, length_sha512]

/-- The seed of a phrase. -/
theorem bip39MnemonicToSeed_eq (junk : Nat → UInt8) (mnemonic : Bytes) (password : Option Bytes) :
    bip39MnemonicToSeed junk mnemonic password =
      pbkdf2Block (hmac sha512 128 (cString mnemonic))
        ("mnemonic".toUTF8.toList ++ cString (password.getD [])) 2048 1 :=
  pbkdf2Final_foldl lawful512 junk _ _ [2048]

end Crypto
end PtpCore
