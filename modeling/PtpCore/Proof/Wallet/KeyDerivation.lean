import PtpCore.Crypto.Base58
import PtpCore.Proof.Wallet.DerivePath

/-!
# Keys stay keys

A private key is a number from 1 to the order of the curve less one, and a chain code has 32 bytes
(`ValidKey`). `fromSeed` makes such a key, and a derivation keeps it one, however often the hash had
to be repeated and wherever a path is given up.

The buffer that is hashed is written in place, and a repetition writes over all of it but the
index. `hashes` is the sequence without the buffer: what is hashed the first time, and what is
hashed when a result did not do. A child is made of the first result that does (`IsChild`).
-/

namespace PtpCore
namespace Proof
namespace Wallet

open Lib
open PtpCore.Wallet PtpCore.Wallet.HDKeyEncoder

/-- What is relied on of the primitives: the lengths of what they give, and an order of 256
    bits. -/
structure Correct (p : HDPrimitives) : Prop where
  hmac : ∀ key data, (p.hmacSha512 key data).length = 64
  publicKey33 : ∀ privateKey, (p.publicKey33 privateKey).length = 33
  order : p.order ≤ 256 ^ 32

structure ValidKey (p : HDPrimitives) (key : HDKey) : Prop where
  pos : 0 < ofBE key.privateKey
  lt : ofBE key.privateKey < p.order
  privateKey : key.privateKey.length = 32
  chainCode : key.chainCode.length = 32

/-! ## The sequence of hashes -/

section

variable (p : HDPrimitives) (key : HDKey) (index : UInt32)

/-- What is hashed first. -/
def firstData : Bytes :=
  (if index &&& 0x80000000 ≠ 0 then 0 :: key.privateKey else p.publicKey33 key.privateKey) ++
    toBE 4 index.toNat

/-- What is hashed after a result that did not do. -/
def nextHash (I : Bytes) : Bytes :=
  p.hmacSha512 key.chainCode (1 :: (I.drop 32 ++ toBE 4 index.toNat))

def hashes (k : Nat) : Bytes :=
  (nextHash p key index)^[k] (p.hmacSha512 key.chainCode (firstData p key index))

/-- `(IL + parent) mod n`. -/
def childOf (I : Bytes) : Nat := (ofBE (I.take 32) + ofBE key.privateKey) % p.order

/-- A result that will do. -/
def Good (I : Bytes) : Prop := ofBE (I.take 32) < p.order ∧ childOf p key I ≠ 0

/-- The child of a key at an index. -/
def IsChild (child : HDKey) : Prop :=
  ∃ k, (∀ j, j < k → ¬ Good p key (hashes p key index j)) ∧ Good p key (hashes p key index k) ∧
    ofBE child.privateKey = childOf p key (hashes p key index k) ∧
    child.chainCode = (hashes p key index k).drop 32

end

section

variable {p : HDPrimitives} {key : HDKey} {index : UInt32}

/-- A write over the front of a block. -/
theorem overwrite_zero (m d : Bytes) : overwrite m 0 d = d ++ m.drop d.length := by
  rw [overwrite, List.take_zero, List.nil_append, Nat.zero_add]

theorem deriveBuff_eq (hp : Correct p) (hkey : key.privateKey.length = 32) :
    deriveBuff p key index = firstData p key index := by
  have hindex : ∀ d : Bytes, d.length = 33 →
      overwrite (overwrite (List.replicate 37 0) 0 d) 33 (toBE 4 index.toNat) =
        d ++ toBE 4 index.toNat := by
    intro d hd
    have hjoin := overwrite_overwrite (m := List.replicate 37 (0 : UInt8)) (a := d)
      (b := toBE 4 index.toNat) (i := 0) (by simp [hd])
    rw [Nat.zero_add, hd] at hjoin
    rw [hjoin, overwrite_zero, List.drop_eq_nil_of_le (by simp [hd]), List.append_nil]
  rw [deriveBuff, firstData]
  split
  · have hzero := overwrite_overwrite (m := List.replicate 37 (0 : UInt8)) (a := [0])
      (b := key.privateKey) (i := 0) (by decide)
    rw [List.length_singleton, Nat.zero_add] at hzero
    rw [hzero]
    exact hindex _ (by simp [hkey])
  · exact hindex _ (hp.publicKey33 _)

/-- A repetition leaves only the index of the buffer. -/
theorem retryBuff_eq {buff I tail : Bytes} (hbuff : buff.drop 33 = tail) (hlen : buff.length = 37)
    (hI : I.length = 64) :
    overwrite (overwrite buff 0 [1]) 1 (I.drop 32) = 1 :: (I.drop 32 ++ tail) := by
  have hjoin := overwrite_overwrite (m := buff) (a := [1]) (b := I.drop 32) (i := 0)
    (by simp [hlen])
  rw [List.length_singleton, Nat.zero_add] at hjoin
  have h33 : ([1] ++ I.drop 32).length = 33 := by simp [hI]
  rw [hjoin, overwrite_zero, h33, hbuff]
  rfl

/-! ## The loop of `derive` -/

/-- `buff` and `I` after a result that did not do. -/
def nextPass (p : HDPrimitives) (key : HDKey) (s : Bytes × Bytes) : Bytes × Bytes :=
  let buff := overwrite (overwrite s.1 0 [1]) 1 (s.2.drop 32)
  (buff, p.hmacSha512 key.chainCode buff)

theorem deriveBody_good {s : Bytes × Bytes} (h : Good p key s.2) :
    deriveBody p key.chainCode (ofBE key.privateKey) s = .leave (childOf p key s.2, s.2) := by
  obtain ⟨buff, I⟩ := s
  rw [deriveBody, if_pos h.1]
  exact if_neg h.2

theorem deriveBody_bad {s : Bytes × Bytes} (h : ¬ Good p key s.2) :
    deriveBody p key.chainCode (ofBE key.privateKey) s = .again (nextPass p key s) := by
  obtain ⟨buff, I⟩ := s
  rw [deriveBody]
  by_cases hlt : ofBE (I.take 32) < p.order
  · have hzero : childOf p key I = 0 := by
      by_contra hne
      exact h ⟨hlt, hne⟩
    rw [if_pos hlt]
    exact if_pos hzero
  · exact if_neg hlt

theorem length_hashes (hp : Correct p) (key : HDKey) (index : UInt32) (k : Nat) :
    (hashes p key index k).length = 64 := by
  cases k with
  | zero => exact hp.hmac _ _
  | succ k =>
    rw [hashes, Function.iterate_succ_apply']
    exact hp.hmac _ _

/-- With the buffer or without it, the same is hashed. -/
theorem iterate_nextPass (hp : Correct p) (hkey : key.privateKey.length = 32) (index : UInt32)
    (k : Nat) :
    ∃ buff, (nextPass p key)^[k] (deriveBuff p key index,
        p.hmacSha512 key.chainCode (deriveBuff p key index)) = (buff, hashes p key index k) ∧
      buff.length = 37 ∧ buff.drop 33 = toBE 4 index.toNat := by
  induction k with
  | zero =>
    have hfront : (if index &&& 0x80000000 ≠ 0 then 0 :: key.privateKey
        else p.publicKey33 key.privateKey).length = 33 := by
      split
      · rw [List.length_cons, hkey]
      · exact hp.publicKey33 _
    refine ⟨firstData p key index, ?_, ?_, ?_⟩
    · rw [deriveBuff_eq hp hkey]
      rfl
    · rw [firstData, List.length_append, hfront, length_toBE]
    · rw [firstData, List.drop_left' hfront]
  | succ k ih =>
    obtain ⟨buff, hbuff, hlen, htail⟩ := ih
    have hI := length_hashes hp key index k
    refine ⟨1 :: ((hashes p key index k).drop 32 ++ toBE 4 index.toNat), ?_, ?_, ?_⟩
    · rw [Function.iterate_succ_apply', hbuff, nextPass]
      dsimp only
      rw [retryBuff_eq htail hlen hI, hashes, hashes, Function.iterate_succ_apply']
      rfl
    · simp [hI]
    · have h33 : (1 :: (hashes p key index k).drop 32).length = 33 := by simp [hI]
      rw [← List.cons_append, List.drop_left' h33]

theorem iterate_nextPass_snd (hp : Correct p) (hkey : key.privateKey.length = 32) (index : UInt32)
    (k : Nat) :
    ((nextPass p key)^[k] (deriveBuff p key index,
      p.hmacSha512 key.chainCode (deriveBuff p key index))).2 = hashes p key index k := by
  obtain ⟨buff, hbuff, -⟩ := iterate_nextPass hp hkey index k
  rw [hbuff]

/-- What `derive` makes of a key and a result that will do. -/
def derivedKey (p : HDPrimitives) (key : HDKey) (index : UInt32) (I : Bytes) : HDKey :=
  { key with
    fingerprint := (key.fetchFingerprint p).1
    privateKey := toBE 32 (childOf p key I)
    chainCode := I.drop 32
    depth := key.depth + 1
    index := index
    publicKey := List.replicate 33 0 }

/-- **All that `derive` does.** -/
theorem derive_spec (hp : Correct p) (hkey : key.privateKey.length = 32) {child : HDKey}
    (h : derive p key index = some child) :
    ∃ k, k < p.attempts ∧ (∀ j, j < k → ¬ Good p key (hashes p key index j)) ∧
      Good p key (hashes p key index k) ∧
      child = derivedKey p key index (hashes p key index k) := by
  unfold derive at h
  dsimp only at h
  split at h
  · cases h
  · rename_i b I hout
    cases h
    have hsee := iterate_nextPass_snd hp hkey index
    obtain ⟨k, hk, hbad, hgood, hr⟩ := leave_at_first (nextPass p key)
      (fun s => Good p key s.2) (fun s => (childOf p key s.2, s.2))
      (fun s hs => deriveBody_good hs) (fun s hs => deriveBody_bad hs) hout
    obtain ⟨rfl, rfl⟩ := Prod.mk.inj hr
    refine ⟨k, hk, ?_, ?_, ?_⟩
    · intro j hj
      rw [← hsee]
      exact hbad j hj
    · rw [← hsee]
      exact hgood
    · rw [← hsee]
      rfl

/-- And it ends, if a result that will do comes soon enough. -/
theorem derive_of_first (hp : Correct p) (hkey : key.privateKey.length = 32) {k : Nat}
    (hk : k < p.attempts) (hbad : ∀ j, j < k → ¬ Good p key (hashes p key index j))
    (hgood : Good p key (hashes p key index k)) :
    derive p key index = some (derivedKey p key index (hashes p key index k)) := by
  have hsee := iterate_nextPass_snd hp hkey index
  have hout := outOf_of_first (nextPass p key) (fun s => Good p key s.2)
    (fun s => (childOf p key s.2, s.2)) (fun s hs => deriveBody_good hs)
    (fun s hs => deriveBody_bad hs) hk
    (s := (deriveBuff p key index, p.hmacSha512 key.chainCode (deriveBuff p key index)))
    (fun j hj => by rw [hsee]; exact hbad j hj) (by rw [hsee]; exact hgood)
  rw [hsee] at hout
  unfold derive
  dsimp only
  have hbuff : deriveBuff p (key.fetchFingerprint p).2 index = deriveBuff p key index := rfl
  have hchain : (key.fetchFingerprint p).2.chainCode = key.chainCode := rfl
  have hprivate : (key.fetchFingerprint p).2.privateKey = key.privateKey := rfl
  rw [hbuff, hchain, hprivate, hout]
  rfl

theorem childOf_lt {I : Bytes} (h : Good p key I) : childOf p key I < p.order :=
  Nat.mod_lt _ (Nat.lt_of_le_of_lt (Nat.zero_le _) h.1)

theorem ofBE_childOf (hp : Correct p) {I : Bytes} (h : Good p key I) :
    ofBE (toBE 32 (childOf p key I)) = childOf p key I :=
  ofBE_toBE_of_lt (Nat.lt_of_lt_of_le (childOf_lt h) hp.order)

theorem isChild_of_derive (hp : Correct p) (hkey : key.privateKey.length = 32) {child : HDKey}
    (h : derive p key index = some child) : IsChild p key index child := by
  obtain ⟨k, -, hbad, hgood, rfl⟩ := derive_spec hp hkey h
  exact ⟨k, hbad, hgood, ofBE_childOf hp hgood, rfl⟩

theorem validKey_of_derive (hp : Correct p) (hkey : key.privateKey.length = 32) {child : HDKey}
    (h : derive p key index = some child) : ValidKey p child := by
  obtain ⟨k, -, -, hgood, rfl⟩ := derive_spec hp hkey h
  have hvalue := ofBE_childOf hp hgood
  refine ⟨?_, ?_, length_toBE 32 _, ?_⟩
  · rw [derivedKey, hvalue]
    exact Nat.pos_of_ne_zero hgood.2
  · rw [derivedKey, hvalue]
    exact childOf_lt hgood
  · rw [derivedKey, List.length_drop, length_hashes hp]

/-! ## Whole runs -/

theorem length_iterate_hmac (hp : Correct p) (seed : Bytes) (k : Nat) :
    ((p.hmacSha512 bip32Name)^[k] (p.hmacSha512 bip32Name seed)).length = 64 := by
  cases k with
  | zero => exact hp.hmac _ _
  | succ k =>
    rw [Function.iterate_succ_apply']
    exact hp.hmac _ _

theorem validKey_of_fromSeed (hp : Correct p) {seed : Bytes} (h : fromSeed p seed = some key) :
    ValidKey p key := by
  rw [fromSeed] at h
  split at h
  · cases h
  · rename_i I hout
    cases h
    obtain ⟨k, -, -, hgood, rfl⟩ := leave_at_first (p.hmacSha512 bip32Name)
      (fun I => ofBE (I.take 32) ≠ 0 ∧ ofBE (I.take 32) < p.order) id
      (fun I hI => if_pos hI) (fun I hI => if_neg hI) hout
    have hlen := length_iterate_hmac hp seed k
    exact ⟨Nat.pos_of_ne_zero hgood.1, hgood.2, by simp [hlen], by simp [hlen]⟩

/-- One child after another, each of them a key. -/
def Descends (p : HDPrimitives) : HDKey → HDKey → Prop :=
  Relation.ReflTransGen fun a b => ValidKey p b ∧ ∃ i, IsChild p a i b

theorem descends_of_steps (hp : Correct p) (hkey : ValidKey p key) {key' : HDKey}
    (h : Steps p key key') : ValidKey p key' ∧ Descends p key key' := by
  induction h with
  | refl => exact ⟨hkey, .refl⟩
  | tail _ hstep ih =>
    obtain ⟨i, hi⟩ := hstep
    have hlen := ih.1.privateKey
    have hvalid := validKey_of_derive hp hlen hi
    exact ⟨hvalid, .tail ih.2 ⟨hvalid, i, isChild_of_derive hp hlen hi⟩⟩

/-- The keys that `fromSeed`, `derive` and `derivePath` lead to. -/
inductive Derived (p : HDPrimitives) (seed : Bytes) : HDKey → Prop
  | root {key : HDKey} (h : fromSeed p seed = some key) : Derived p seed key
  | derive {key child : HDKey} {index : UInt32} (h : Derived p seed key)
      (hd : derive p key index = some child) : Derived p seed child
  | path {key key' : HDKey} {path : Bytes} {priv : Bool} {thrown : Option StdError}
      (h : Derived p seed key) (hd : derivePath p key path priv = some (key', thrown)) :
      Derived p seed key'

theorem Derived.validKey (hp : Correct p) {seed : Bytes} (h : Derived p seed key) :
    ValidKey p key := by
  induction h with
  | root h => exact validKey_of_fromSeed hp h
  | derive _ hd ih => exact validKey_of_derive hp ih.privateKey hd
  | path _ hd ih => exact (descends_of_steps hp ih (steps_of_deriveParts hd)).1

/-- **Keys stay keys, and children are children.** -/
theorem derived_spec (hp : Correct p) {seed : Bytes} (h : Derived p seed key) :
    ValidKey p key ∧
    (∀ i child, derive p key i = some child → ValidKey p child ∧ IsChild p key i child) ∧
    ∀ path priv key' thrown, derivePath p key path priv = some (key', thrown) →
      ValidKey p key' ∧ Descends p key key' := by
  have hkey := h.validKey hp
  refine ⟨hkey, ?_, ?_⟩
  · intro i child hd
    exact ⟨validKey_of_derive hp hkey.privateKey hd, isChild_of_derive hp hkey.privateKey hd⟩
  · intro path priv key' thrown hd
    exact descends_of_steps hp hkey (steps_of_deriveParts hd)

end

/-! ## A seed and its first child -/

def sampleSeed : Bytes := (List.range 64).map fun i => UInt8.ofNat (255 - 3 * i)

/-- The hash of the seed: the private key and the chain code. -/
def sampleI : Bytes :=
  toBE 32 0x4b03d6fc340455b363f51020ad3ecca4f0850280cf436c70c727923f6db46c3e ++
    toBE 32 0x60499f801b896d83179a4374aeb7822aaeaceaa0db1f85ee3e904c4defbd9689

def samplePublicKey : Bytes :=
  toBE 33 0x03cbcaa9c98c877a26977d00825c956a238e8dddfbd322cce4f74b0b5bd6ace4a7

/-- The hash for child 0. -/
def sampleChildI : Bytes :=
  toBE 32 0x60e3739cc2c3950b7c4d7f32cc503e13b996d0f7a45623d0a914e1efa7f811e0 ++
    toBE 32 0xf0909affaa7ee7abe5dd4e100598d4dc53cd709d5a5c2cac40e7412f232f7c9c

/-- `HMAC-SHA512` and the curve at the places that are needed for the seed and its child 0. -/
def samplePrimitives : HDPrimitives where
  wordsToSeed _ := sampleSeed
  hmacSha512 key data :=
    if key = bip32Name ∧ data = sampleSeed then sampleI
    else if key = sampleI.drop 32 ∧ data = samplePublicKey ++ toBE 4 0 then sampleChildI
    else List.replicate 64 0
  order := 0xfffffffffffffffffffffffffffffffebaaedce6af48a03bbfd25e8cd0364141
  attempts := 1
  publicKey33 privateKey :=
    if privateKey = sampleI.take 32 then samplePublicKey
    else toBE 33 0x02fc9e5af0ac8d9b3cecfe2a888e2117ba3d089d8585886c9c826b6b22a98d12ea
  publicKey64 _ := List.replicate 64 0
  keccak256 _ := List.replicate 32 0
  base58EncodeCheck data := (Crypto.base58EncodeCheck data 112).getD []

theorem correct_samplePrimitives : Correct samplePrimitives where
  hmac key data := by
    simp only [samplePrimitives]
    split
    · rfl
    · split
      · rfl
      · rfl
  publicKey33 privateKey := by
    simp only [samplePrimitives]
    split
    · exact length_toBE 33 _
    · exact length_toBE 33 _
  order := by decide

def sampleRoot : HDKey :=
  { newKey with privateKey := sampleI.take 32, chainCode := sampleI.drop 32 }

theorem fromSeed_sampleSeed : fromSeed samplePrimitives sampleSeed = some sampleRoot := by
  decide +kernel

theorem derived_spec_sampleRoot :
    ValidKey samplePrimitives sampleRoot ∧
    (∀ i child, derive samplePrimitives sampleRoot i = some child →
      ValidKey samplePrimitives child ∧ IsChild samplePrimitives sampleRoot i child) ∧
    ∀ path priv key' thrown,
      derivePath samplePrimitives sampleRoot path priv = some (key', thrown) →
      ValidKey samplePrimitives key' ∧ Descends samplePrimitives sampleRoot key' :=
  derived_spec correct_samplePrimitives (.root fromSeed_sampleSeed)

end Wallet
end Proof
end PtpCore
