import PtpCore.Crypto.Ripemd160
import PtpCore.Proof.Wallet.KeyDerivation

/-!
# The two ways to a key, and the format of an extended key

The Bitcoin makers fill in more than the Ethereum makers do, but what they fill in is not read
again: a derivation looks at the private key, the chain code and the depth (`core`), and both ways
keep these the same (`makers_agree`).

`serialize` lays an extended key out as BIP32 has it, with one field that is not: the fingerprint of
the parent is cut from the SHA-256 of its public key, where the format has RIPEMD-160 of that
(`isBip32_iff`). An address does not show it.
-/

namespace PtpCore
namespace Proof
namespace Wallet

open Lib
open PtpCore.Wallet PtpCore.Wallet.HDKeyEncoder

section

variable {p : HDPrimitives}

/-! ## The makers -/

/-- What a derivation reads and what it leaves to the next. -/
def core (key : HDKey) : Bytes × Bytes × UInt8 × UInt32 :=
  (key.privateKey, key.chainCode, key.depth, key.index)

theorem derive_core (p : HDPrimitives) {a b : HDKey} (h : core a = core b) (i : UInt32) :
    (derive p a i).map core = (derive p b i).map core := by
  simp only [core, Prod.mk.injEq] at h
  obtain ⟨hprivate, hchain, hdepth, -⟩ := h
  have hout : outOf (deriveBody p a.chainCode (ofBE a.privateKey)) p.attempts
      (deriveBuff p (a.fetchFingerprint p).2 i,
        p.hmacSha512 a.chainCode (deriveBuff p (a.fetchFingerprint p).2 i)) =
      outOf (deriveBody p b.chainCode (ofBE b.privateKey)) p.attempts
      (deriveBuff p (b.fetchFingerprint p).2 i,
        p.hmacSha512 b.chainCode (deriveBuff p (b.fetchFingerprint p).2 i)) := by
    simp only [deriveBuff, HDKey.fetchFingerprint, HDKey.fillPublicKey, hprivate, hchain]
  unfold derive
  dsimp only [HDKey.fetchFingerprint, HDKey.fillPublicKey] at hout ⊢
  rw [hout]
  cases outOf (deriveBody p b.chainCode (ofBE b.privateKey)) p.attempts
      (deriveBuff p { b with publicKey := p.publicKey33 b.privateKey } i,
        p.hmacSha512 b.chainCode
          (deriveBuff p { b with publicKey := p.publicKey33 b.privateKey } i)) with
  | none => rfl
  | some out => simp [core, hdepth]

/-- What a path comes to, as far as a derivation reads it. -/
def outcome (out : HDKey × Option StdError) : (Bytes × Bytes × UInt8 × UInt32) × Option StdError :=
  (core out.1, out.2)

theorem deriveParts_core (p : HDPrimitives) (priv : Bool) (parts : List Bytes) {a b : HDKey}
    (h : core a = core b) :
    (deriveParts p priv a parts).map outcome = (deriveParts p priv b parts).map outcome := by
  induction parts generalizing a b with
  | nil => simp [deriveParts, outcome, h]
  | cons bit rest ih =>
    rw [deriveParts, deriveParts]
    split
    · exact ih h
    · split
      · simp [outcome, h]
      · rename_i i hi
        split
        · simp [outcome, h]
        · split
          · have hderive := derive_core p h i
            cases ha : derive p a i with
            | none =>
              rw [ha] at hderive
              rw [Option.map_eq_none_iff.mp hderive.symm]
            | some a' =>
              rw [ha] at hderive
              obtain ⟨b', hb, hcore⟩ := Option.map_eq_some_iff.mp hderive.symm
              rw [hb]
              exact ih hcore.symm
          · exact ih h

/-- What is compared of two keys, and the exceptions. -/
def seen (p : HDPrimitives) (out : HDKey × Option StdError) :
    Except StdError ((Bytes × Bytes × UInt8 × UInt32) × Bytes × Bytes) :=
  match out.2 with
  | some e => .error e
  | none => .ok (core out.1, out.1.publicKey, out.1.getEthAddress p)

/-- Both makers fill the public key in and leave the rest as it is. -/
theorem seen_afterwards {a b : HDKey × Option StdError} (h : outcome a = outcome b)
    {f g : HDKey → HDKey}
    (hf : ∀ key, core (f key) = core key ∧ (f key).publicKey = p.publicKey33 key.privateKey)
    (hg : ∀ key, core (g key) = core key ∧ (g key).publicKey = p.publicKey33 key.privateKey) :
    seen p (afterwards f a) = seen p (afterwards g b) := by
  obtain ⟨a, thrown⟩ := a
  obtain ⟨b, thrown'⟩ := b
  obtain ⟨hcore, rfl⟩ := Prod.mk.inj h
  cases thrown with
  | some e => rfl
  | none =>
    have hprivate : a.privateKey = b.privateKey := congrArg Prod.fst hcore
    have hfa : (f a).privateKey = a.privateKey := congrArg Prod.fst (hf a).1
    have hgb : (g b).privateKey = b.privateKey := congrArg Prod.fst (hg b).1
    simp only [seen, afterwards, HDKey.getEthAddress]
    rw [(hf a).1, (hg b).1, hcore, (hf a).2, (hg b).2, hfa, hgb, hprivate]

/-- **The two ways end with the same key.** Where the one throws or does not end, so does the
    other. -/
theorem makers_agree (p : HDPrimitives) (net : UInt32 × UInt32) (mnemonic path : Bytes) :
    ((makeBip32RootKey p net mnemonic).bind fun rootKey =>
      makeExtendedKey p rootKey path).map (seen p) =
    ((makeEthRootKey p mnemonic).bind fun rootKey =>
      makeEthExtendedKey p rootKey path).map (seen p) := by
  rw [makeBip32RootKey, bip32RootKeyOf, makeEthRootKey, ethRootKeyOf]
  cases fromSeed p (makeBip39Seed p mnemonic) with
  | none => rfl
  | some key =>
    simp only [Option.map_some, Option.bind_some, makeExtendedKey, makeEthExtendedKey, derivePath]
    generalize hroot : copy (serialize p _ 0 _ true) = root
    generalize hroot' : copy (assign newKey (copy key)) = root'
    have hcore : core root = core root' := by
      rw [← hroot, ← hroot']
      rfl
    have hparts := deriveParts_core p true (split path slash) hcore
    cases ha : deriveParts p true root (split path slash) with
    | none =>
      rw [ha] at hparts
      rw [Option.map_eq_none_iff.mp hparts.symm]
      rfl
    | some out =>
      rw [ha] at hparts
      obtain ⟨out', hb, hout⟩ := Option.map_eq_some_iff.mp hparts.symm
      rw [hb]
      simp only [Option.map_some]
      congr 1
      exact seen_afterwards hout.symm (fun key => ⟨rfl, rfl⟩) (fun key => ⟨rfl, rfl⟩)

/-! ## The bytes of an extended key -/

/-- An extended key, as BIP32 has it. -/
def bip32Bytes (version : UInt32) (depth : UInt8) (fingerprint : Bytes) (index : UInt32)
    (chainCode keyData : Bytes) : Bytes :=
  toBE 4 version.toNat ++ (depth :: (fingerprint ++ (toBE 4 index.toNat ++ (chainCode ++ keyData))))

/-- A write of the whole block. -/
theorem overwrite_all {m d : Bytes} (h : m.length = d.length) : overwrite m 0 d = d := by
  simp [overwrite, ← h]

/-- The writes of `serialize` are side by side, and fill the block. -/
theorem serializeData_eq (key : HDKey) (hchain : key.chainCode.length = 32)
    (fingerprint version : UInt32) :
    (key.privateKey.length = 32 → serializeData key fingerprint version false =
      bip32Bytes version key.depth (toBE 4 fingerprint.toNat) key.index key.chainCode
        (0 :: key.privateKey)) ∧
    (key.publicKey.length = 33 → serializeData key fingerprint version true =
      bip32Bytes version key.depth (toBE 4 fingerprint.toNat) key.index key.chainCode
        key.publicKey) := by
  have hjoin : ∀ (d e : Bytes) (i : Nat), d.length = i → i ≤ 78 →
      overwrite (overwrite (List.replicate 78 (0 : UInt8)) 0 d) i e =
        overwrite (List.replicate 78 0) 0 (d ++ e) := by
    intro d e i hd hi
    have hwrite := overwrite_overwrite (m := List.replicate 78 (0 : UInt8)) (a := d) (b := e)
      (i := 0) (by simpa [hd] using hi)
    rwa [Nat.zero_add, hd] at hwrite
  have hhead : ∀ publicKey, serializeData key fingerprint version publicKey =
      if publicKey then overwrite (List.replicate 78 0) 0 (bip32Bytes version key.depth
        (toBE 4 fingerprint.toNat) key.index key.chainCode key.publicKey)
      else overwrite (List.replicate 78 0) 0 (bip32Bytes version key.depth
        (toBE 4 fingerprint.toNat) key.index key.chainCode (0 :: key.privateKey)) := by
    intro publicKey
    rw [serializeData, hjoin _ _ 4 (by simp) (by decide), hjoin _ _ 5 (by simp) (by decide),
      hjoin _ _ 9 (by simp) (by decide), hjoin _ _ 13 (by simp) (by decide),
      hjoin _ _ 45 (by simp [hchain]) (by decide), hjoin _ _ 45 (by simp [hchain]) (by decide),
      hjoin _ _ 46 (by simp [hchain]) (by decide)]
    simp [bip32Bytes]
  constructor
  · intro hprivate
    rw [hhead]
    exact overwrite_all (by simp [bip32Bytes, hchain, hprivate])
  · intro hpublic
    rw [hhead]
    exact overwrite_all (by simp [bip32Bytes, hchain, hpublic])

/-- Only the fingerprint is open. -/
theorem bip32Bytes_inj {version index : UInt32} {depth : UInt8} {f g chainCode keyData : Bytes} :
    bip32Bytes version depth f index chainCode keyData =
      bip32Bytes version depth g index chainCode keyData ↔ f = g := by
  simp [bip32Bytes]

/-! ## Along a path -/

/-- What a path leaves in a key besides the key itself. -/
theorem deriveAll_spec (hp : Correct p) {root key : HDKey} (hroot : ValidKey p root)
    {is : List UInt32} (h : deriveAll p root is = some key) :
    ValidKey p key ∧ key.bip32 = root.bip32 ∧ key.depth = root.depth + UInt8.ofNat is.length := by
  induction is generalizing root with
  | nil =>
    cases h
    exact ⟨hroot, rfl, by simp⟩
  | cons i is ih =>
    rw [deriveAll, List.foldlM_cons] at h
    obtain ⟨child, hchild, hrest⟩ := Option.bind_eq_some_iff.mp h
    obtain ⟨hkey, hnet, hdepth⟩ := ih (validKey_of_derive hp hroot.privateKey hchild) hrest
    obtain ⟨k, -, -, -, rfl⟩ := derive_spec hp hroot.privateKey hchild
    refine ⟨hkey, hnet, ?_⟩
    rw [hdepth, derivedKey, List.length_cons, UInt8.ofNat_add]
    simp [UInt8.add_assoc, UInt8.add_comm]

theorem deriveAll_concat (root : HDKey) (is : List UInt32) (i : UInt32) :
    deriveAll p root (is ++ [i]) = (deriveAll p root is).bind fun key => derive p key i := by
  simp [deriveAll, List.foldlM_append]

/-- The parent of the last key of a path. -/
def parentOf (p : HDPrimitives) (root : HDKey) (is : List UInt32) : Option HDKey :=
  deriveAll p root is.dropLast

/-- The fingerprint of the parent, as BIP32 has it: none for a root. -/
def parentFingerprint (p : HDPrimitives) (root : HDKey) (is : List UInt32) : Option Bytes :=
  if is = [] then some (List.replicate 4 0)
  else (parentOf p root is).map fun parent =>
    (Crypto.ripemd160 (Crypto.sha256 (p.publicKey33 parent.privateKey))).take 4

/-- The fingerprint that is in the key instead. -/
theorem fingerprint_of_deriveAll (hp : Correct p) {root key : HDKey} (hroot : ValidKey p root)
    {is : List UInt32} (hne : is ≠ []) (h : deriveAll p root is = some key) :
    key.index = is.getLastD 0 ∧ ∃ parent, parentOf p root is = some parent ∧
      toBE 4 key.fingerprint.toNat =
        (Crypto.sha256 (p.publicKey33 parent.privateKey)).take 4 := by
  obtain ⟨init, i, rfl⟩ : ∃ init i, is = init ++ [i] :=
    ⟨is.dropLast, is.getLast hne, (List.dropLast_append_getLast hne).symm⟩
  rw [deriveAll_concat] at h
  obtain ⟨parent, hparent, hd⟩ := Option.bind_eq_some_iff.mp h
  have hlen := (deriveAll_spec hp hroot hparent).1.privateKey
  obtain ⟨k, -, -, -, rfl⟩ := derive_spec hp hlen hd
  refine ⟨by simp [derivedKey], parent, by simp [parentOf, hparent], ?_⟩
  have hfour : ((Crypto.sha256 (p.publicKey33 parent.privateKey)).take 4).length = 4 := by simp
  have hlt := ofBE_lt ((Crypto.sha256 (p.publicKey33 parent.privateKey)).take 4)
  have hback := toBE_ofBE ((Crypto.sha256 (p.publicKey33 parent.privateKey)).take 4)
  rw [hfour] at hlt hback
  rw [derivedKey, HDKey.fetchFingerprint]
  dsimp only [HDKey.fillPublicKey]
  rw [UInt32.toNat_ofNat_of_lt' hlt, hback]

/-- What is encoded follows BIP32. -/
def IsBip32 (p : HDPrimitives) (net : UInt32 × UInt32) (root : HDKey) (is : List UInt32)
    (key : HDKey) : Prop :=
  ∃ fingerprint, parentFingerprint p root is = some fingerprint ∧
    serializeData key key.fingerprint net.2 false =
      bip32Bytes net.2 (UInt8.ofNat is.length) fingerprint (is.getLastD 0) key.chainCode
        (0 :: key.privateKey) ∧
    serializeData key key.fingerprint net.1 true =
      bip32Bytes net.1 (UInt8.ofNat is.length) fingerprint (is.getLastD 0) key.chainCode
        (p.publicKey33 key.privateKey)

/-- Both hashes of the parent's public key begin with the same four bytes. -/
def SameFingerprint (p : HDPrimitives) (root : HDKey) (is : List UInt32) : Prop :=
  ∃ parent, parentOf p root is = some parent ∧
    (Crypto.sha256 (p.publicKey33 parent.privateKey)).take 4 =
      (Crypto.ripemd160 (Crypto.sha256 (p.publicKey33 parent.privateKey))).take 4

/-- A key that `makeBip32RootKey` makes. -/
structure IsRoot (p : HDPrimitives) (net : UInt32 × UInt32) (root : HDKey) : Prop where
  valid : ValidKey p root
  net : root.bip32 = net
  depth : root.depth = 0
  index : root.index = 0
  fingerprint : root.fingerprint = 0

theorem isRoot_bip32RootKeyOf (hp : Correct p) {net : UInt32 × UInt32} {seed : Bytes} {root : HDKey}
    (h : bip32RootKeyOf p net seed = some root) : IsRoot p net root := by
  obtain ⟨key, hkey, rfl⟩ := Option.map_eq_some_iff.mp h
  obtain ⟨hpos, hlt, hprivate, hchain⟩ := validKey_of_fromSeed hp hkey
  rw [fromSeed] at hkey
  split at hkey
  · cases hkey
  · cases hkey
    exact ⟨⟨hpos, hlt, hprivate, hchain⟩, rfl, rfl, rfl, rfl⟩

/-- The layout is right, so all depends on the fingerprint. -/
theorem isBip32_extend (hp : Correct p) {net : UInt32 × UInt32} {root key : HDKey}
    (hroot : IsRoot p net root) {is : List UInt32} (h : deriveAll p root is = some key) :
    IsBip32 p net root is (extend p key) ↔ is = [] ∨ SameFingerprint p root is := by
  obtain ⟨hvalid, -, hdepth⟩ := deriveAll_spec hp hroot.valid h
  have hlayout := fun fingerprint version =>
    serializeData_eq (extend p key) hvalid.chainCode fingerprint version
  have hprivate := fun version => (hlayout (extend p key).fingerprint version).1 hvalid.privateKey
  have hpublic := fun version => (hlayout (extend p key).fingerprint version).2
    (hp.publicKey33 key.privateKey)
  have hdepth' : (extend p key).depth = UInt8.ofNat is.length := by
    rw [hroot.depth, UInt8.zero_add] at hdepth
    exact hdepth
  by_cases hne : is = []
  · subst hne
    cases h
    have hindex : (extend p root).index = 0 := hroot.index
    have hfingerprint : (extend p root).fingerprint = 0 := hroot.fingerprint
    refine ⟨fun _ => .inl rfl, fun _ => ⟨List.replicate 4 0, if_pos rfl, ?_, ?_⟩⟩
    · rw [hprivate, hdepth', hindex, hfingerprint]
      rfl
    · rw [hpublic, hdepth', hindex, hfingerprint]
      rfl
  · obtain ⟨hindex, parent, hparent, hfingerprint⟩ := fingerprint_of_deriveAll hp hroot.valid hne h
    have hindex' : (extend p key).index = is.getLastD 0 := hindex
    have hfingerprint' : toBE 4 (extend p key).fingerprint.toNat =
        (Crypto.sha256 (p.publicKey33 parent.privateKey)).take 4 := hfingerprint
    have hbip32 : parentFingerprint p root is =
        some ((Crypto.ripemd160 (Crypto.sha256 (p.publicKey33 parent.privateKey))).take 4) := by
      rw [parentFingerprint, if_neg hne, hparent]
      rfl
    constructor
    · rintro ⟨fingerprint, hf, hdata, -⟩
      rw [hbip32] at hf
      obtain rfl := Option.some.inj hf
      rw [hprivate, hdepth', hindex', bip32Bytes_inj, hfingerprint'] at hdata
      exact .inr ⟨parent, hparent, hdata⟩
    · rintro (hnil | ⟨parent', hparent', hsame⟩)
      · exact absurd hnil hne
      · obtain rfl := Option.some.inj (hparent.symm.trans hparent')
        refine ⟨_, hbip32, ?_, ?_⟩
        · rw [hprivate, hdepth', hindex', bip32Bytes_inj, hfingerprint', hsame]
        · rw [hpublic, hdepth', hindex', hfingerprint', hsame]
          rfl

/-- What `base58_encode_check` is given for a key. -/
structure Encodes (p : HDPrimitives) (key : HDKey) (privateData publicData : Bytes) : Prop where
  privateKey : key.extPrivateKey =
    overwrite (List.replicate 112 0) 0 (p.base58EncodeCheck privateData)
  publicKey : key.extPublicKey =
    overwrite (List.replicate 112 0) 0 (p.base58EncodeCheck publicData)

theorem makeExtendedKey_of_denotes {root key : HDKey} {path : Bytes} {is : List UInt32}
    (hpath : denotes path = some is) (h : makeExtendedKey p root path = some (key, none)) :
    ∃ child, deriveAll p root is = some child ∧ key = extend p child := by
  rw [makeExtendedKey, derivePath_of_denotes hpath, Option.map_map] at h
  obtain ⟨child, hchild, heq⟩ := Option.map_eq_some_iff.mp h
  exact ⟨child, hchild, (Prod.mk.inj heq).1.symm⟩

/-- **When an extended key follows BIP32.** The root always does. A child does if the two hashes of
    the parent's public key happen to begin with the same four bytes. -/
theorem isBip32_iff (hp : Correct p) {net : UInt32 × UInt32} {seed path : Bytes} {root key : HDKey}
    {is : List UInt32} (hroot : bip32RootKeyOf p net seed = some root)
    (hpath : denotes path = some is) (hlen : is.length ≤ 255)
    (hkey : makeExtendedKey p root path = some (key, none)) :
    Encodes p key (serializeData key key.fingerprint net.2 false)
      (serializeData key key.fingerprint net.1 true) ∧
    (UInt8.ofNat is.length).toNat = is.length ∧
    (IsBip32 p net root is key ↔ is = [] ∨ SameFingerprint p root is) := by
  obtain ⟨child, hchild, rfl⟩ := makeExtendedKey_of_denotes hpath hkey
  have hisRoot := isRoot_bip32RootKeyOf hp hroot
  have hnet : child.bip32 = net := by
    rw [(deriveAll_spec hp hisRoot.valid hchild).2.1, hisRoot.net]
  refine ⟨?_, ?_, isBip32_extend hp hisRoot hchild⟩
  · subst hnet
    exact ⟨rfl, rfl⟩
  · exact UInt8.toNat_ofNat_of_lt' (Nat.lt_succ_of_le hlen)

end

/-! ## The first child of the seed -/

/-- The path `m/0`. -/
def samplePath : Bytes := [0x6d, 0x2f, 0x30]

def sampleBip32Root : HDKey :=
  (bip32RootKeyOf samplePrimitives mainNet sampleSeed).getD newKey

def sampleExtended : HDKey :=
  ((makeExtendedKey samplePrimitives sampleBip32Root samplePath).getD (newKey, none)).1

theorem bip32RootKeyOf_sampleSeed :
    bip32RootKeyOf samplePrimitives mainNet sampleSeed = some sampleBip32Root := by
  rw [sampleBip32Root, bip32RootKeyOf, fromSeed_sampleSeed]
  rfl

theorem makeExtendedKey_samplePath :
    makeExtendedKey samplePrimitives sampleBip32Root samplePath = some (sampleExtended, none) := by
  have hends : (makeExtendedKey samplePrimitives sampleBip32Root samplePath).map Prod.snd =
      some none := by decide +kernel
  obtain ⟨⟨key, thrown⟩, hout, hthrown⟩ := Option.map_eq_some_iff.mp hends
  rw [sampleExtended, hout, ← hthrown]
  rfl

theorem isBip32_iff_sample :
    Encodes samplePrimitives sampleExtended
      (serializeData sampleExtended sampleExtended.fingerprint mainNet.2 false)
      (serializeData sampleExtended sampleExtended.fingerprint mainNet.1 true) ∧
    (UInt8.ofNat 1).toNat = 1 ∧
    (IsBip32 samplePrimitives mainNet sampleBip32Root [0] sampleExtended ↔
      [(0 : UInt32)] = [] ∨ SameFingerprint samplePrimitives sampleBip32Root [0]) :=
  isBip32_iff correct_samplePrimitives bip32RootKeyOf_sampleSeed
    (show denotes samplePath = some [0] by decide) (by decide) makeExtendedKey_samplePath

/-- The four bytes of a real key. -/
theorem not_isBip32_sample :
    ¬ IsBip32 samplePrimitives mainNet sampleBip32Root [0] sampleExtended := by
  have hroot := isRoot_bip32RootKeyOf correct_samplePrimitives bip32RootKeyOf_sampleSeed
  have hpath : denotes samplePath = some [0] := by decide
  obtain ⟨child, hchild, heq⟩ := makeExtendedKey_of_denotes hpath makeExtendedKey_samplePath
  rw [heq, isBip32_extend correct_samplePrimitives hroot hchild]
  rintro (hnil | ⟨parent, hparent, hsame⟩)
  · cases hnil
  · have hself : parent = sampleBip32Root := (Option.some.inj hparent).symm
    rw [hself] at hsame
    revert hsame
    decide +kernel

end Wallet
end Proof
end PtpCore
