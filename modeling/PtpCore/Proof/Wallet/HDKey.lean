import PtpCore.Net.AccountKeys
import PtpCore.Proof.Wallet.ExtendedKey

/-!
# The two models of a key

`HDKey.lean` derives keys without exceptions and cuts its loops off; the account functions use it.
Where `HDKeyEncoder.lean` comes to an end without an exception on a path of the grammar, the two
have the same key (`makeExtendedKey_agrees`), and so has an account (`hdKeyOf_agrees`).
-/

namespace PtpCore
namespace Proof
namespace Wallet

open Lib PtpCore.Global Proof.Global
open PtpCore.Wallet PtpCore.Wallet.HDKeyEncoder

section

variable {p : HDPrimitives}

/-! ## One derivation -/

theorem retry_of_first (good : Bytes → Bool) (next : Bytes → Bytes) {n k : Nat} {I : Bytes}
    (hk : k < n) (hbad : ∀ j, j < k → good (next^[j] I) = false)
    (hgood : good (next^[k] I) = true) : HDKey.retry good next n I = next^[k] I := by
  induction k generalizing n I with
  | zero =>
    obtain ⟨n, rfl⟩ := Nat.exists_eq_add_of_lt hk
    exact if_pos hgood
  | succ k ih =>
    obtain ⟨n, rfl⟩ := Nat.exists_eq_add_of_lt hk
    have hfirst : ¬ good I = true := by simpa using hbad 0 (Nat.succ_pos k)
    rw [HDKey.retry, if_neg hfirst]
    exact ih (by omega) (fun j hj => hbad (j + 1) (Nat.succ_lt_succ hj)) hgood

/-- The keys differ in nothing but what the makers fill in. -/
def SameSecrets (a b : HDKey) : Prop := core a = core b ∧ a.fingerprint = b.fingerprint

theorem derive_agrees (hp : Correct p) {key child : HDKey} (hkey : key.privateKey.length = 32)
    {i : UInt32} (h : derive p key i = some child) :
    SameSecrets (HDKey.derive p key i) child := by
  obtain ⟨k, hk, hbad, hgood, rfl⟩ := derive_spec hp hkey h
  have hretry := retry_of_first
    (fun I => decide (ofBE (I.take 32) < p.order ∧ HDKey.childKey p I key.privateKey ≠ 0))
    (nextHash p key i) hk (I := p.hmacSha512 key.chainCode (firstData p key i))
    (fun j hj => decide_eq_false (hbad j hj)) (decide_eq_true hgood)
  have hderive : HDKey.derive p key i = { derivedKey p key i (hashes p key i k) with
      publicKey := [] } := by
    rw [hashes, ← hretry]
    rfl
  rw [hderive]
  exact ⟨rfl, rfl⟩

theorem derive_sameSecrets {a b : HDKey} (h : SameSecrets a b) (i : UInt32) :
    SameSecrets (HDKey.derive p a i) (HDKey.derive p b i) := by
  obtain ⟨hcore, -⟩ := h
  simp only [core, Prod.mk.injEq] at hcore
  obtain ⟨hprivate, hchain, hdepth, -⟩ := hcore
  cases a
  cases b
  cases hprivate
  cases hchain
  cases hdepth
  exact ⟨rfl, rfl⟩

theorem foldl_derive_sameSecrets {a b : HDKey} (h : SameSecrets a b) (is : List UInt32) :
    SameSecrets (is.foldl (HDKey.derive p) a) (is.foldl (HDKey.derive p) b) := by
  induction is generalizing a b with
  | nil => exact h
  | cons i is ih => exact ih (derive_sameSecrets h i)

theorem deriveAll_agrees (hp : Correct p) {key child : HDKey} (hkey : ValidKey p key)
    {is : List UInt32} (h : deriveAll p key is = some child) :
    SameSecrets (is.foldl (HDKey.derive p) key) child := by
  induction is generalizing key with
  | nil =>
    cases h
    exact ⟨rfl, rfl⟩
  | cons i is ih =>
    rw [deriveAll, List.foldlM_cons] at h
    obtain ⟨next, hnext, hrest⟩ := Option.bind_eq_some_iff.mp h
    have hstep := derive_agrees hp hkey.privateKey hnext
    have hsteps := foldl_derive_sameSecrets (p := p) hstep is
    have hend := ih (validKey_of_derive hp hkey.privateKey hnext) hrest
    exact ⟨hsteps.1.trans hend.1, hsteps.2.trans hend.2⟩

/-! ## Paths -/

/-- The number that digits make, with or without a test for digits. -/
theorem foldl_digits {digits : Bytes} (h : ∀ x ∈ digits, 0x30 ≤ x ∧ x ≤ 0x39) (acc : Nat) :
    digits.foldl (fun n x => n * 10 + (x.toNat - 0x30)) acc = atoiDigits acc digits := by
  induction digits generalizing acc with
  | nil => rfl
  | cons x digits ih =>
    rw [List.foldl_cons, atoiDigits, if_pos (h x List.mem_cons_self)]
    exact ih (fun y hy => h y (List.mem_cons_of_mem x hy)) _

/-- How `pathIndices` reads a part. -/
def coarseIndex (bit : Bytes) : UInt32 :=
  let hardened := 1 < bit.length ∧ bit.getLast? = some 0x27
  let digits := if hardened then bit.dropLast else bit
  let index := UInt32.ofNat (digits.foldl (fun n x => n * 10 + (x.toNat - 0x30)) 0)
  if hardened then index + 0x80000000 else index

theorem coarseIndex_of_component {bit : Bytes} {i : UInt32} (h : component bit = some i) :
    coarseIndex bit = i := by
  rcases component_cases h with ⟨hlast, hlong, hd, -, rfl⟩ | ⟨hlast, -, hd, -, rfl⟩
  · have hhard : 1 < bit.length ∧ bit.getLast? = some 0x27 := ⟨hlong, hlast⟩
    simp only [coarseIndex, if_pos hhard, foldl_digits hd]
  · have hhard : ¬ (1 < bit.length ∧ bit.getLast? = some 0x27) := fun hno => hlast hno.2
    simp only [coarseIndex, if_neg hhard, foldl_digits hd]

theorem pathIndices_of_denotes {path : String} {is : List UInt32}
    (h : denotes path.toUTF8.toList = some is) : pathIndices path = is := by
  have hparts : ∀ {parts : List Bytes} {is : List UInt32}, parts.mapM component = some is →
      (parts.filter fun bit => bit ≠ [0x6d] ∧ bit ≠ [0x27]).map coarseIndex = is := by
    intro parts
    induction parts with
    | nil =>
      intro is h
      cases h
      rfl
    | cons bit rest ih =>
      intro is h
      obtain ⟨i, js, hbit, hrest, rfl⟩ := mapM_component_cons h
      have hskip := (component_spec hbit).2.1
      have hkeep : bit ≠ [0x6d] ∧ bit ≠ [0x27] := by
        simpa [isSkipped, apostrophe] using hskip
      rw [List.filter_cons_of_pos (by simpa using hkeep), List.map_cons,
        coarseIndex_of_component hbit, ih hrest]
  unfold denotes at h
  split at h
  · cases h
  · rename_i first parts hsplit
    split at h
    · rename_i hfirst
      have hslash : slash = 0x2f := rfl
      rw [hslash] at hsplit
      rw [pathIndices, hsplit, hfirst, List.filter_cons_of_neg (by decide)]
      exact hparts h
    · cases h

/-- **The same key on the way of the makers.** -/
theorem makeExtendedKey_agrees (hp : Correct p) {root key : HDKey} (hroot : ValidKey p root)
    {path : String} {is : List UInt32} (hpath : denotes path.toUTF8.toList = some is)
    (h : makeExtendedKey p root path.toUTF8.toList = some (key, none)) :
    SameSecrets (HDKey.makeExtendedKey p root path) key ∧
      (HDKey.makeExtendedKey p root path).publicKey = key.publicKey := by
  obtain ⟨child, hchild, rfl⟩ := makeExtendedKey_of_denotes hpath h
  have hsame := deriveAll_agrees hp hroot hchild
  rw [← pathIndices_of_denotes hpath] at hsame
  refine ⟨hsame, ?_⟩
  have hprivate := congrArg Prod.fst hsame.1
  exact congrArg p.publicKey33 hprivate

/-! ## The key of an account -/

theorem fromSeed_agrees {seed : Bytes} {key : HDKey} (h : fromSeed p seed = some key) :
    SameSecrets (HDKey.fromSeed p seed) key := by
  rw [fromSeed] at h
  split at h
  · cases h
  · rename_i I hout
    cases h
    obtain ⟨k, hk, hbad, hgood, rfl⟩ := leave_at_first (p.hmacSha512 bip32Name)
      (fun I => ofBE (I.take 32) ≠ 0 ∧ ofBE (I.take 32) < p.order) id
      (fun I hI => if_pos hI) (fun I hI => if_neg hI) hout
    have hretry := retry_of_first
      (fun I => decide (ofBE (I.take 32) ≠ 0 ∧ ofBE (I.take 32) < p.order))
      (p.hmacSha512 bip32Name) hk (fun j hj => decide_eq_false (hbad j hj)) (decide_eq_true hgood)
    have hseed : HDKey.fromSeed p seed =
        { privateKey := ((p.hmacSha512 bip32Name)^[k] (p.hmacSha512 bip32Name seed)).take 32
          chainCode := ((p.hmacSha512 bip32Name)^[k] (p.hmacSha512 bip32Name seed)).drop 32
          publicKey := [] } := by
      rw [← hretry]
      rfl
    rw [hseed]
    exact ⟨rfl, rfl⟩

theorem hdKeyOf_agrees (hp : Correct p) {u : Net.Unspecified} {entropy : Bytes} {root key : HDKey}
    (hroot : makeBip32RootKey p mainNet
      (MnemonicHelper.entropyHexToMnemonic u.pastEnd entropy).raw = some root)
    (hkey : makeExtendedKey p root Net.ptpHdPath.toUTF8.toList = some (key, none)) :
    SameSecrets (Net.AccountManager.hdKeyOf p u entropy) key ∧
      (Net.AccountManager.hdKeyOf p u entropy).publicKey = key.publicKey := by
  have hpath : denotes Net.ptpHdPath.toUTF8.toList =
      some [0x8000002c, 0x8000003c, 0x80000000, 1, 0] := by decide +kernel
  have hvalid := (isRoot_bip32RootKeyOf hp hroot).valid
  obtain ⟨seedKey, hseed, heq⟩ := Option.map_eq_some_iff.mp hroot
  have hsame : SameSecrets (HDKey.makeBip32RootKey p
      (cString (MnemonicHelper.entropyHexToMnemonic u.pastEnd entropy).raw)) root := by
    have := fromSeed_agrees hseed
    rw [← heq]
    exact this
  obtain ⟨hagree, -⟩ := makeExtendedKey_agrees hp hvalid hpath hkey
  have hsteps := foldl_derive_sameSecrets (p := p) hsame (pathIndices Net.ptpHdPath)
  have hsecrets : SameSecrets (Net.AccountManager.hdKeyOf p u entropy) key :=
    ⟨hsteps.1.trans hagree.1, hsteps.2.trans hagree.2⟩
  refine ⟨hsecrets, ?_⟩
  obtain ⟨child, -, rfl⟩ := makeExtendedKey_of_denotes hpath hkey
  exact congrArg p.publicKey33 (congrArg Prod.fst hsecrets.1)

end

end Wallet
end Proof
end PtpCore
