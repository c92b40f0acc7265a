import PtpCore.Proof.Crypto.SignedPayload
import PtpCore.Proof.Wallet.KeyDerivation

/-!
# The keys of groups

The key for group `g` is the child of `m/44'/60'/0'/1` whose index is written as a one and the
digits of `g`. Different groups have different keys, none of which is the key of the account, as
long as the index can be read (`groupIndex`). With ten digits it cannot: the signature of a group
from `10 ^ 9` on is an exception (`signGroupMessage_iff`).

The text that is signed does not say where the group ends (`groupMsgData_iff`).
-/

namespace PtpCore
namespace Proof
namespace Net

open Lib PtpCore.Global PtpCore.Crypto Proof.Global Proof.Crypto Proof.Wallet
open PtpCore.Wallet PtpCore.Wallet.HDKeyEncoder PtpCore.Net PtpCore.Net.AccountManager

/-! ## The index of a group -/

/-- The last part of the path: a one and the number of the group. -/
def groupPart (g : Int32) : Bytes := 0x31 :: groupIdxStr g

/-- The number that it is. -/
def groupIndex (g : Int32) : Nat := atoiDigits 0 (groupPart g)

theorem isDigit_groupPart (g : Int32) : ∀ x ∈ groupPart g, IsDigit x := by
  intro x hx
  rcases List.mem_cons.mp hx with rfl | hx
  · exact ⟨by decide, by decide⟩
  · exact isDigit_of_mem_decimal _ x hx

theorem groupIndex_eq (g : Int32) :
    groupIndex g = 10 ^ (groupIdxStr g).length + g.toUInt32.toNat := by
  have hone : groupIndex g = atoiDigits 1 (groupIdxStr g) := by
    rw [groupIndex, groupPart, atoiDigits, if_pos (by decide)]
    rfl
  rw [hone, groupIdxStr, int2string, atoiDigits_decimal_append, Nat.one_mul]

theorem length_groupIdxStr (g : Int32) :
    g.toUInt32.toNat < 10 ^ (groupIdxStr g).length ∧
      (g.toUInt32.toNat ≠ 0 → 10 ^ ((groupIdxStr g).length - 1) ≤ g.toUInt32.toNat) ∧
      0 < (groupIdxStr g).length := by
  obtain ⟨hhi, hlo⟩ := length_decimal_bounds g.toUInt32.toNat
  exact ⟨hhi, hlo, List.length_pos_iff.mpr (decimal_ne_nil _)⟩

theorem groupIndex_lt {g : Int32} (h : g.toUInt32.toNat < 10 ^ 9) : groupIndex g < 2 ^ 31 := by
  obtain ⟨-, hlo, hpos⟩ := length_groupIdxStr g
  have hlen : (groupIdxStr g).length ≤ 9 := by
    by_contra hlong
    by_cases hzero : g.toUInt32.toNat = 0
    · have hone : groupIdxStr g = [0x30] := by
        rw [groupIdxStr, int2string, hzero]
        rfl
      rw [hone] at hlong
      exact hlong (by decide)
    · have hbig : 10 ^ 9 ≤ 10 ^ ((groupIdxStr g).length - 1) :=
        Nat.pow_le_pow_right (by decide) (by omega)
      have := hlo hzero
      omega
  have hsmall : 10 ^ (groupIdxStr g).length ≤ 10 ^ 9 := Nat.pow_le_pow_right (by decide) hlen
  rw [groupIndex_eq]
  omega

/-- Ten digits behind the one. -/
theorem le_groupIndex {g : Int32} (h : 10 ^ 9 ≤ g.toUInt32.toNat) : 10 ^ 10 ≤ groupIndex g := by
  obtain ⟨hhi, -, -⟩ := length_groupIdxStr g
  have hlen : 10 ≤ (groupIdxStr g).length := by
    by_contra hshort
    have hsmall : 10 ^ (groupIdxStr g).length ≤ 10 ^ 9 :=
      Nat.pow_le_pow_right (by decide) (by omega)
    omega
  have hbig : 10 ^ 10 ≤ 10 ^ (groupIdxStr g).length := Nat.pow_le_pow_right (by decide) hlen
  rw [groupIndex_eq]
  omega

/-- The one in front keeps numbers of different lengths apart. -/
theorem groupIndex_inj {g g' : Int32} (h : groupIndex g = groupIndex g') : g = g' := by
  have hlt : ∀ {g g' : Int32}, (groupIdxStr g).length < (groupIdxStr g').length →
      groupIndex g < groupIndex g' := by
    intro g g' hlen
    obtain ⟨hhi, -, -⟩ := length_groupIdxStr g
    have hpow : 10 ^ ((groupIdxStr g).length + 1) ≤ 10 ^ (groupIdxStr g').length :=
      Nat.pow_le_pow_right (by decide) hlen
    rw [Nat.pow_succ] at hpow
    rw [groupIndex_eq, groupIndex_eq]
    omega
  rcases Nat.lt_trichotomy (groupIdxStr g).length (groupIdxStr g').length with hlen | hlen | hlen
  · exact absurd h (Nat.ne_of_lt (hlt hlen))
  · rw [groupIndex_eq, groupIndex_eq, hlen] at h
    have hnat : g.toUInt32.toNat = g'.toUInt32.toNat := by omega
    exact congrArg Int32.ofUInt32 (UInt32.toNat_inj.mp hnat)
  · exact absurd h.symm (Nat.ne_of_lt (hlt hlen))

/-! ## The path of a group -/

/-- The parts in front. -/
def accountParts : List Bytes :=
  [[0x34, 0x34, apostrophe], [0x36, 0x30, apostrophe], [0x30, apostrophe], [0x31]]

/-- `44'/60'/0'/1`. -/
def accountIndices : List UInt32 := [0x8000002c, 0x8000003c, 0x80000000, 1]

theorem mapM_accountParts : accountParts.mapM component = some accountIndices := by decide

theorem split_groupPath (g : Int32) :
    split (ptpGroupHdPath.toUTF8.toList ++ groupIdxStr g) slash =
      [0x6d] :: (accountParts ++ [groupPart g]) := by
  have hpath : ptpGroupHdPath.toUTF8.toList ++ groupIdxStr g =
      [0x6d] ++ slash :: ([0x34, 0x34, apostrophe] ++ slash :: ([0x36, 0x30, apostrophe] ++
        slash :: ([0x30, apostrophe] ++ slash :: ([0x31] ++ slash :: groupPart g)))) := by
    have hbytes : ptpGroupHdPath.toUTF8.toList = [0x6d, 0x2f, 0x34, 0x34, 0x27, 0x2f, 0x36, 0x30,
        0x27, 0x2f, 0x30, 0x27, 0x2f, 0x31, 0x2f, 0x31] := by decide +kernel
    rw [hbytes]
    rfl
  have hno : slash ∉ groupPart g := by
    intro hmem
    exact absurd (isDigit_groupPart g slash hmem).1 (by decide)
  have hsplit : (ptpGroupHdPath.toUTF8.toList ++ groupIdxStr g).splitOn slash =
      [0x6d] :: (accountParts ++ [groupPart g]) := by
    have hcut : ∀ a rest : Bytes, slash ∉ a →
        (a ++ slash :: rest).splitOn slash = a :: rest.splitOn slash :=
      fun a rest ha => List.splitOn_append_cons_self_of_not_mem ha rest
    rw [hpath, hcut _ _ (by decide), hcut _ _ (by decide), hcut _ _ (by decide),
      hcut _ _ (by decide), hcut _ _ (by decide), List.splitOn_eq_singleton hno]
    rfl
  rw [← hsplit]
  apply split_of_getLastD
  rw [hsplit]
  simp [groupPart, accountParts]

/-- How the last part is read. -/
theorem childIndex_groupPart (g : Int32) :
    isSkipped (groupPart g) = false ∧
    (g.toUInt32.toNat < 10 ^ 9 →
      childIndex (groupPart g) = .ok (UInt32.ofNat (groupIndex g))) ∧
    (10 ^ 9 ≤ g.toUInt32.toNat → childIndex (groupPart g) = .error .outOfRange) := by
  have hdigits := isDigit_groupPart g
  have hne : groupPart g ≠ [] := List.cons_ne_nil _ _
  have hlast : (groupPart g).getLast? ≠ some apostrophe := by
    intro hlast
    exact absurd (hdigits _ (List.mem_of_getLast? hlast)).1 (by decide)
  have hhard : isHardened (groupPart g) = false := by simp [isHardened, hlast]
  have hpart : partIndex (groupPart g) = strToUint32 (groupPart g) := by
    rw [partIndex, hhard, if_neg (by decide)]
  refine ⟨?_, ?_, ?_⟩
  · apply isSkipped_eq_false
    · intro heq
      cases (List.cons.inj heq).1
    · intro heq
      cases (List.cons.inj heq).1
  · intro hsmall
    have hlt := groupIndex_lt hsmall
    rw [childIndex, hpart, strToUint32_digits hne hdigits (Nat.lt_trans hlt (by decide)), hhard]
    rfl
  · intro hbig
    have hge := le_groupIndex hbig
    have hlt : groupIndex g < 2 ^ 64 := by
      have hlen : (groupIdxStr g).length ≤ 10 := by
        by_contra hlong
        obtain ⟨-, hlo, -⟩ := length_groupIdxStr g
        have hpow : 10 ^ 10 ≤ 10 ^ ((groupIdxStr g).length - 1) :=
          Nat.pow_le_pow_right (by decide) (by omega)
        have hmax : g.toUInt32.toNat < 2 ^ 32 := g.toUInt32.toNat_lt
        have := hlo (by omega)
        omega
      have hpow : 10 ^ (groupIdxStr g).length ≤ 10 ^ 10 := Nat.pow_le_pow_right (by decide) hlen
      have hmax : g.toUInt32.toNat < 2 ^ 32 := g.toUInt32.toNat_lt
      rw [groupIndex_eq]
      omega
    have hover : groupIndex g > 2 ^ 32 - 1 := by omega
    have hread : strToUint32 (groupPart g) = .error .outOfRange := by
      rw [strToUint32, stoul_digits hne hdigits hlt]
      exact if_pos hover
    rw [childIndex, hpart, hread]
    rfl

/-! ## Signing -/

section

variable (c : Secp256k1) (p : HDPrimitives) (u : Unspecified) {Files : Type}
  (s : AccountManager Files) (message : Bytes)

/-- The key at `m/44'/60'/0'/1`. -/
def accountKey : Option HDKey :=
  (makeBip32RootKey p mainNet
    (MnemonicHelper.entropyHexToMnemonic u.pastEnd s.entropy).raw).bind fun root =>
      deriveAll p root accountIndices

/-- A signature with child `i` of that key. -/
def signedAt (g : Int32) (i : UInt32) : Option (Except StdError Bytes) :=
  (accountKey p u s).bind fun parent => (derive p parent i).map fun child =>
    .ok (ecdsaSignRecoverable c (groupMsgData g message) child.privateKey)

theorem makeExtendedKey_groupPath (root : HDKey) (g : Int32) :
    makeExtendedKey p root (ptpGroupHdPath.toUTF8.toList ++ groupIdxStr g) =
      (deriveAll p root accountIndices).bind fun parent =>
        (deriveParts p true parent [groupPart g]).map (afterwards (extend p)) := by
  rw [makeExtendedKey, derivePath, split_groupPath, deriveParts, if_pos (by decide),
    deriveParts_append mapM_accountParts]
  cases deriveAll p root accountIndices with
  | none => rfl
  | some parent => rfl

/-- What comes of a key that was derived, or of what was thrown. -/
def signedBy (g : Int32) (out : HDKey × Option StdError) : Except StdError Bytes :=
  match out with
  | (_, some thrown) => .error thrown
  | (key, none) => .ok (ecdsaSignRecoverable c (groupMsgData g message) key.privateKey)

/-- The last part of the path is what is left to derive. -/
theorem signGroupMessage_eq (g : Int32) :
    signGroupMessage c p u s message g = (accountKey p u s).bind fun parent =>
      (deriveParts p true parent [groupPart g]).map fun out =>
        signedBy c message g (afterwards (extend p) out) := by
  rw [signGroupMessage, accountKey]
  cases makeBip32RootKey p mainNet
      (MnemonicHelper.entropyHexToMnemonic u.pastEnd s.entropy).raw with
  | none => rfl
  | some root =>
    dsimp only
    rw [makeExtendedKey_groupPath, Option.bind_some]
    cases deriveAll p root accountIndices with
    | none => rfl
    | some parent =>
      rw [Option.bind_some, Option.bind_some]
      cases deriveParts p true parent [groupPart g] with
      | none => rfl
      | some out =>
        rw [Option.map_some, Option.map_some]
        obtain ⟨key, _ | thrown⟩ := out
        · rfl
        · rfl

theorem signGroupMessage_ok {g : Int32} {i : UInt32} (h : childIndex (groupPart g) = .ok i) :
    signGroupMessage c p u s message g = signedAt c p u s message g i := by
  have hpart (parent : HDKey) : deriveParts p true parent [groupPart g] =
      (derive p parent i).map fun child => (child, none) := by
    simp only [deriveParts, (childIndex_groupPart g).1, h]
    cases derive p parent i <;> simp
  rw [signGroupMessage_eq, signedAt]
  congr 1
  funext parent
  rw [hpart, Option.map_map]
  rfl

theorem signGroupMessage_error {g : Int32} {e : StdError}
    (h : childIndex (groupPart g) = .error e) :
    signGroupMessage c p u s message g = (accountKey p u s).map fun _ => .error e := by
  have hpart (parent : HDKey) : deriveParts p true parent [groupPart g] =
      some (parent, some e) := by
    simp [deriveParts, (childIndex_groupPart g).1, h]
  rw [signGroupMessage_eq, Option.map_eq_bind]
  congr 1
  funext parent
  rw [hpart]
  rfl

end

/-- Signing for the group is signing with child `i`, whatever the account and the message. -/
def SignsAt (g : Int32) (i : UInt32) : Prop :=
  ∀ (c : Secp256k1) (p : HDPrimitives) (u : Unspecified) (Files : Type) (s : AccountManager Files)
    (message : Bytes), signGroupMessage c p u s message g = signedAt c p u s message g i

/-! ## Functions that show the index

With these in place of the hash and the curve, a child key is the sum of the parent and the index,
and a signature is the key. -/

def plainPrimitives : HDPrimitives where
  wordsToSeed _ := toBE 4 1
  hmacSha512 _ data := toBE 32 (ofBE (data.drop (data.length - 4))) ++ List.replicate 32 0
  order := 256 ^ 32
  attempts := 1
  publicKey33 privateKey := 2 :: toBE 32 (ofBE privateKey)
  publicKey64 _ := []
  keccak256 data := data
  base58EncodeCheck data := data

def plainCurve : Secp256k1 where
  PubKey := Unit
  keccak256 data := data
  recover _ _ _ := none
  serializeUncompressed _ := []
  serializeCompressed _ := []
  parse _ := none
  ecdh _ _ := none
  sign _ prvKey := (prvKey, 0)

theorem length_zeros : (List.replicate 16 0 : Bytes).length = 16 :=
  List.length_replicate

def plainMemory : Unspecified where
  entropyBytes := List.replicate 16 0
  length_entropyBytes := length_zeros
  random := List.replicate 16 0
  length_random := length_zeros
  pastEnd := []

def plainAccount : AccountManager Unit where
  accountId := 0
  entropy := []
  address := []
  files := ()

theorem correct_plainPrimitives : Correct plainPrimitives where
  hmac key data := by simp [plainPrimitives]
  publicKey33 privateKey := by simp [plainPrimitives]
  order := Nat.le_refl _

theorem derive_plain (key : HDKey) (i : UInt32) (hkey : key.privateKey.length = 32)
    (hpos : 0 < ofBE key.privateKey) (hsmall : ofBE key.privateKey + i.toNat < 256 ^ 32) :
    ∃ child, derive plainPrimitives key i = some child ∧
      child.privateKey = toBE 32 (i.toNat + ofBE key.privateKey) := by
  have hdata : (firstData plainPrimitives key i).drop
      ((firstData plainPrimitives key i).length - 4) = toBE 4 i.toNat := by
    rw [firstData, List.length_append, length_toBE, Nat.add_sub_cancel, List.drop_left]
  have hi : i.toNat < 256 ^ 4 := i.toNat_lt
  have hI : ofBE ((hashes plainPrimitives key i 0).take 32) = i.toNat := by
    have hhash : hashes plainPrimitives key i 0 =
        toBE 32 (ofBE (toBE 4 i.toNat)) ++ List.replicate 32 0 := by
      rw [← hdata]
      rfl
    rw [hhash, List.take_left' (length_toBE 32 _), ofBE_toBE_of_lt hi, ofBE_toBE_of_lt (by omega)]
  have hchild : childOf plainPrimitives key (hashes plainPrimitives key i 0) =
      i.toNat + ofBE key.privateKey := by
    rw [childOf, hI]
    exact Nat.mod_eq_of_lt (by rw [Nat.add_comm]; exact hsmall)
  have hgood : Good plainPrimitives key (hashes plainPrimitives key i 0) := by
    refine ⟨?_, ?_⟩
    · rw [hI]
      exact Nat.lt_of_le_of_lt (Nat.le_add_left _ _) hsmall
    · rw [hchild]
      omega
  refine ⟨_, derive_of_first correct_plainPrimitives hkey Nat.one_pos
    (fun j hj => absurd hj (Nat.not_lt_zero j)) hgood, ?_⟩
  rw [derivedKey, hchild]

/-- The account key of these functions. -/
theorem accountKey_plain : ∃ parent,
    accountKey plainPrimitives plainMemory plainAccount = some parent ∧
      parent.privateKey = toBE 32 6442451050 := by
  have hkey : (accountKey plainPrimitives plainMemory plainAccount).map HDKey.privateKey =
      some (toBE 32 6442451050) := by decide +kernel
  obtain ⟨parent, hparent, hprivate⟩ := Option.map_eq_some_iff.mp hkey
  exact ⟨parent, hparent, hprivate⟩

theorem signedAt_plain (message : Bytes) (g : Int32) (i : UInt32) :
    signedAt plainCurve plainPrimitives plainMemory plainAccount message g i =
      some (.ok (toBE 32 (i.toNat + 6442451050) ++ [0])) := by
  obtain ⟨parent, hparent, hprivate⟩ := accountKey_plain
  have hi : i.toNat < 2 ^ 32 := i.toNat_lt
  have hvalue : ofBE parent.privateKey = 6442451050 := by
    rw [hprivate]
    exact ofBE_toBE_of_lt (by decide)
  obtain ⟨child, hchild, hkey⟩ := derive_plain parent i
    (by rw [hprivate, length_toBE]) (by rw [hvalue]; decide) (by rw [hvalue]; omega)
  rw [signedAt, hparent, Option.bind_some, hchild, Option.map_some, ← hvalue, ← hkey]
  rfl

theorem signsAt_unique {g : Int32} {i j : UInt32} (hi : SignsAt g i) (hj : SignsAt g j) :
    i = j := by
  have heq := (hi plainCurve plainPrimitives plainMemory Unit plainAccount []).symm.trans
    (hj plainCurve plainPrimitives plainMemory Unit plainAccount [])
  have hi32 : i.toNat < 2 ^ 32 := i.toNat_lt
  have hj32 : j.toNat < 2 ^ 32 := j.toNat_lt
  rw [signedAt_plain, signedAt_plain, Option.some.injEq, Except.ok.injEq] at heq
  have hnum := congrArg ofBE (List.append_cancel_right heq)
  rw [ofBE_toBE_of_lt (by omega), ofBE_toBE_of_lt (by omega)] at hnum
  exact UInt32.toNat_inj.mp (by omega)

theorem not_signsAt {g : Int32} (h : 10 ^ 9 ≤ g.toUInt32.toNat) (i : UInt32) : ¬ SignsAt g i := by
  intro hsigns
  obtain ⟨parent, hparent, -⟩ := accountKey_plain
  have heq := hsigns plainCurve plainPrimitives plainMemory Unit plainAccount []
  rw [signGroupMessage_error _ _ _ _ _ ((childIndex_groupPart g).2.2 h), hparent,
    signedAt_plain] at heq
  cases heq

/-! ## The key of a group -/

theorem signsAt_groupIndex {g : Int32} (h : g.toUInt32.toNat < 10 ^ 9) :
    SignsAt g (UInt32.ofNat (groupIndex g)) := by
  intro c p u Files s message
  exact signGroupMessage_ok c p u s message ((childIndex_groupPart g).2.1 h)

/-- What the key of a group should be: a child at an index that is not hardened, not that of the
    account and not that of another group. -/
def HasGroupKey (g : Int32) : Prop :=
  ∃ i, SignsAt g i ∧ i.toNat < 2 ^ 31 ∧ i ≠ 0 ∧ ∀ g', SignsAt g' i → g' = g

/-- **Which groups have a key.** -/
theorem signGroupMessage_iff (g : Int32) : HasGroupKey g ↔ g.toUInt32.toNat < 10 ^ 9 := by
  constructor
  · rintro ⟨i, hsigns, -⟩
    by_contra hbig
    exact not_signsAt (Nat.not_lt.mp hbig) i hsigns
  · intro hsmall
    have hindex : ∀ {g : Int32}, g.toUInt32.toNat < 10 ^ 9 →
        (UInt32.ofNat (groupIndex g)).toNat = groupIndex g := by
      intro g hg
      exact UInt32.toNat_ofNat_of_lt' (Nat.lt_trans (groupIndex_lt hg) (by decide))
    refine ⟨UInt32.ofNat (groupIndex g), signsAt_groupIndex hsmall, ?_, ?_, ?_⟩
    · rw [hindex hsmall]
      exact groupIndex_lt hsmall
    · intro hzero
      have hnum := congrArg UInt32.toNat hzero
      rw [hindex hsmall, groupIndex_eq] at hnum
      have : 0 < 10 ^ (groupIdxStr g).length := Nat.pow_pos (by decide)
      simp at hnum
    · intro g' hg'
      have hsmall' : g'.toUInt32.toNat < 10 ^ 9 := by
        by_contra hbig
        exact not_signsAt (Nat.not_lt.mp hbig) _ hg'
      have heq := congrArg UInt32.toNat (signsAt_unique (signsAt_groupIndex hsmall') hg')
      rw [hindex hsmall', hindex hsmall] at heq
      exact groupIndex_inj heq

/-- Group 1000000000. -/
theorem not_hasGroupKey : ¬ HasGroupKey 1000000000 := by
  rintro ⟨i, hsigns, -⟩
  exact not_signsAt (by decide) i hsigns

/-! ## The text that is signed for a group -/

/-- The message begins with digits by which the second group's number is longer. -/
def Shifted (g : Int32) (m : Bytes) (g' : Int32) (m' : Bytes) : Prop :=
  ∃ digits, digits ≠ [] ∧ groupIdxStr g' = groupIdxStr g ++ digits ∧ m = digits ++ m'

theorem groupIdxStr_inj {g g' : Int32} (h : groupIdxStr g = groupIdxStr g') : g = g' :=
  congrArg Int32.ofUInt32 (UInt32.toNat_inj.mp (decimal_injective h))

theorem groupMsgData_eq_iff {g g' : Int32} {m m' : Bytes} :
    groupMsgData g m = groupMsgData g' m' ↔ groupIdxStr g ++ m = groupIdxStr g' ++ m' := by
  rw [groupMsgData, groupMsgData, formatSignMsgData_copy, formatSignMsgData_copy]
  constructor
  · intro h
    exact (formatSignMsgData_inj h).2
  · intro h
    rw [h]

theorem groupMsgData_of_shifted {g g' : Int32} {m m' : Bytes} (h : Shifted g m g' m') :
    groupMsgData g m = groupMsgData g' m' ∧ g ≠ g' := by
  obtain ⟨digits, hne, hstr, rfl⟩ := h
  refine ⟨groupMsgData_eq_iff.mpr (by rw [hstr, List.append_assoc]), ?_⟩
  rintro rfl
  exact hne (List.self_eq_append_right.mp hstr)

/-- **When the text says which group and which message.** -/
theorem groupMsgData_iff (g g' : Int32) (m m' : Bytes) :
    (groupMsgData g m = groupMsgData g' m' → g = g' ∧ m = m') ↔
      ¬ Shifted g m g' m' ∧ ¬ Shifted g' m' g m := by
  constructor
  · intro h
    refine ⟨?_, ?_⟩
    · intro hshift
      obtain ⟨heq, hne⟩ := groupMsgData_of_shifted hshift
      exact hne (h heq).1
    · intro hshift
      obtain ⟨heq, hne⟩ := groupMsgData_of_shifted hshift
      exact hne (h heq.symm).1.symm
  · rintro ⟨hno, hno'⟩ heq
    rw [groupMsgData_eq_iff, List.append_eq_append_iff] at heq
    rcases heq with ⟨digits, hstr, hm⟩ | ⟨digits, hstr, hm⟩
    · by_cases hnil : digits = []
      · subst hnil
        exact ⟨groupIdxStr_inj (by simpa using hstr.symm), by simpa using hm⟩
      · exact absurd ⟨digits, hnil, hstr, hm⟩ hno
    · by_cases hnil : digits = []
      · subst hnil
        exact ⟨groupIdxStr_inj (by simpa using hstr), by simpa using hm.symm⟩
      · exact absurd ⟨digits, hnil, hstr, hm⟩ hno'

/-- Group 1 with the message `2x`, and group 12 with `x`. -/
theorem groupMsgData_collision : ¬ ∀ (g g' : Int32) (m m' : Bytes), 0 ≤ g → 0 ≤ g' →
    groupMsgData g m = groupMsgData g' m' → g = g' ∧ m = m' := by
  intro h
  have heq : groupMsgData 1 [0x32, 0x78] = groupMsgData 12 [0x78] := by decide +kernel
  exact absurd (h 1 12 _ _ (by decide) (by decide) heq).1 (by decide)

end Net
end Proof
end PtpCore
