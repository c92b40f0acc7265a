import Mathlib.Data.Nat.Digits.Defs
import PtpCore.Lib.Assoc
import PtpCore.Lib.Run
import PtpCore.Net.AccountKeys
import PtpCore.Proof.Net.AccountManager

/-!
# Who an account signs as

A signature is made with the key of the entropy in memory, an address is remembered from when it
was first asked for. The two ways to make a key agree on the private key (`privateKey_eq`), so a
signature verifies as the address of the entropy in memory (`verify_signMessage`). That is the
address of the account unless the entropy has not been loaded yet, or has been replaced after the
address was remembered.

The invariant of a run is `Consistent`: no entropy and no address, or an entropy of sixteen bytes
and no address but its own.
-/

namespace PtpCore
namespace Proof
namespace Net

open Lib
open PtpCore.Wallet PtpCore.Net PtpCore.Crypto
open PtpCore.Proof.Wallet
open AccountManager Toolbox

/-! ## The two ways to make a key -/

section

variable {p : HDPrimitives} {a b : HDKey}

/-- What a derivation reads of a key. -/
def SameSecret (a b : HDKey) : Prop := a.privateKey = b.privateKey ∧ a.chainCode = b.chainCode

theorem SameSecret.derive (h : SameSecret a b) (index : UInt32) :
    SameSecret (a.derive p index) (b.derive p index) := by
  obtain ⟨hkey, hchain⟩ := h
  unfold SameSecret HDKey.derive HDKey.fetchFingerprint HDKey.fillPublicKey
  simp only [hkey, hchain, and_self]

theorem SameSecret.derivePath (h : SameSecret a b) (path : String) :
    SameSecret (a.derivePath p path) (b.derivePath p path) := by
  unfold HDKey.derivePath
  induction pathIndices path generalizing a b with
  | nil => exact h
  | cons index rest ih => exact ih (h.derive index)

variable (p)

/-- Encoding a key and filling in its public part leave the rest alone. -/
theorem privateKey_eq (mnemonic : Bytes) (path : String) :
    ((HDKey.makeBip32RootKey p mnemonic).makeExtendedKey p path).privateKey =
      ((HDKey.makeEthRootKey p mnemonic).makeEthExtendedKey p path).privateKey := by
  have hroot : SameSecret (HDKey.makeBip32RootKey p mnemonic) (HDKey.makeEthRootKey p mnemonic) :=
    ⟨rfl, rfl⟩
  exact (hroot.derivePath path).1

end

/-! ## A signature and its signer -/

/-- The private key of a phrase. -/
def phraseKey (p : HDPrimitives) (mnemonic : Bytes) : Bytes :=
  ((HDKey.makeBip32RootKey p mnemonic).makeExtendedKey p ptpHdPath).privateKey

theorem length_phraseKey (p : HDPrimitives) (mnemonic : Bytes) :
    (phraseKey p mnemonic).length = 32 := by
  have hpath : pathIndices ptpHdPath ≠ [] := by decide +kernel
  obtain ⟨init, last, heq⟩ := (List.eq_nil_or_concat _).resolve_left hpath
  change (((pathIndices ptpHdPath).foldl (HDKey.derive p) _).privateKey).length = 32
  rw [heq, List.concat_eq_append, List.foldl_concat]
  exact length_toBE 32 _

/-- The curve library and the wallet's own curve code belong together: a signature recovers to
    the public key of the private key that made it. Asked of the keys that phrases have. -/
structure RecoversSigner (c : Secp256k1) (p : HDPrimitives) : Prop where
  keccak256 : c.keccak256 = p.keccak256
  length_publicKey64 : ∀ key, (p.publicKey64 key).length = 64
  recover_sign : ∀ mnemonic hash,
    let sig := c.sign hash (phraseKey p mnemonic)
    sig.1.length = 64 ∧ sig.2 < 4 ∧ ∃ pubKey, c.recover sig.1 sig.2.toNat hash = some pubKey ∧
      c.serializeUncompressed pubKey = 0x04 :: p.publicKey64 (phraseKey p mnemonic)

theorem recoveryId_of_lt {recId : UInt8} (h : recId < 4) : recoveryId recId = recId.toNat := by
  have hlt : recId.toNat < 4 := h
  unfold recoveryId
  simp only
  rw [if_pos (by omega), if_pos (by omega)]
  omega

section

variable {c : Secp256k1} {p : HDPrimitives}

theorem getAddressByEntropy_eq (u : Unspecified) (entropy : Bytes) :
    getAddressByEntropy (hdKeyEncoder p) u entropy =
      bytesToHex (HDKey.ecdsaGetPublicAddress p (hdKeyOf p u entropy).privateKey) := by
  unfold hdKeyOf
  rw [privateKey_eq]
  rfl

theorem recover_ecdsaSignRecoverable (h : RecoversSigner c p) (mnemonic msgData : Bytes) :
    let sig65 := ecdsaSignRecoverable c msgData (phraseKey p mnemonic)
    recoverPubKeyFromSig64 c (sig65.take 64) (sig65.getD 64 0) msgData =
      p.publicKey64 (phraseKey p mnemonic) := by
  obtain ⟨hlen, hid, pubKey, hrec, hser⟩ := h.recover_sign mnemonic (c.keccak256 msgData)
  change recoverPubKeyFromSig64 c (List.take 64 (_ ++ [_])) (List.getD (_ ++ [_]) 64 0) msgData = _
  rw [List.take_left' hlen, List.getD_append_right _ _ _ _ (Nat.le_of_eq hlen), hlen,
    recoverPubKeyFromSig64, Nat.sub_self, List.getD_cons_zero, recoveryId_of_lt hid, hrec]
  dsimp only
  rw [hser, List.drop_one, List.tail_cons]

/-- What was signed verifies as the address of the entropy it was signed with. -/
theorem verify_signMessage (h : RecoversSigner c p) (u : Unspecified) (beyond message : Bytes)
    {Files : Type} (s : AccountManager Files) :
    verifyMessageRecoverAddress c beyond (signMessage c p u s message) message =
      getAddressByEntropy (hdKeyEncoder p) u s.entropy := by
  have hrec := recover_ecdsaSignRecoverable h
    (cString (MnemonicHelper.entropyHexToMnemonic u.pastEnd s.entropy).raw)
    (formatSignMsgData message .ptp)
  rw [getAddressByEntropy_eq]
  change addressToHex (pubKeyToAddress c (List.take 64 (_ ++ 0 :: beyond))) = _
  dsimp only at hrec
  unfold signMessage hdKeyOf
  unfold phraseKey at hrec
  rw [hrec, List.take_left' (h.length_publicKey64 _), pubKeyToAddress, h.keccak256]
  rfl

end

/-! ## The entropy an account has -/

/-- Hexadecimal text of sixteen bytes, which is all that is ever stored. -/
def IsEntropy (text : Bytes) : Prop := ∃ e : Bytes, e.length = 16 ∧ text = bytesToHex e

theorem length_bip39MnemonicToBytes (w : Words) (mnemonic bytesOut : Bytes) :
    (bip39MnemonicToBytes w mnemonic bytesOut).2.1.length = bytesOut.length := by
  unfold bip39MnemonicToBytes
  split
  · rfl
  · split
    · rename_i tmpBytes tmpLen _
      dsimp only
      generalize (if tmpLen - 1 > bip39EntropyLen256 then tmpLen - 1 - 1 else tmpLen - 1) = n
      split
      · rfl
      · split
        · rename_i hle
          split
          · rfl
          · rw [length_overwrite]
            rw [Nat.zero_add, List.length_take]
            exact Nat.le_trans (Nat.min_le_left _ _) hle
        · rfl
    · rfl

theorem isEntropy_wordsToEntropyHex (u : Unspecified) (words : Bytes) :
    IsEntropy (wordsToEntropyHex u words) := by
  refine ⟨_, ?_, rfl⟩
  unfold MnemonicHelper.mnemonicWordsToEntropy MnemonicHelper.decodeMnemonic
  split
  · rw [length_bip39MnemonicToBytes, u.length_entropyBytes]
    rfl
  · exact u.length_entropyBytes

theorem IsEntropy.ne_nil {text : Bytes} (h : IsEntropy text) : text ≠ [] := by
  obtain ⟨e, -, rfl⟩ := h
  exact List.cons_ne_nil _ _

section

variable {k : HDKeyEncoder} {d : Storage}

/-- Such a text has an address that no unwritten memory has a part in. -/
theorem IsEntropy.getAddressByEntropy {text : Bytes} (h : IsEntropy text) (u v : Unspecified) :
    getAddressByEntropy k u text = AccountManager.getAddressByEntropy k v text := by
  obtain ⟨e, he, rfl⟩ := h
  rw [AccountManager.getAddressByEntropy, AccountManager.getAddressByEntropy,
    raw_entropyHexToMnemonic u.pastEnd he, raw_entropyHexToMnemonic v.pastEnd he]

theorem getAddressByEntropy_ne_nil {p : HDPrimitives} (u : Unspecified) (text : Bytes) :
    getAddressByEntropy (hdKeyEncoder p) u text ≠ [] := by
  rw [getAddressByEntropy_eq]
  exact List.cons_ne_nil _ _

end
/-! ## Any calls, in any order -/

/-- The calls on an account. -/
inductive WalletCall
  | setWords (words : Bytes)
  | getWords
  | getAccountAddress
  | upsertEntropy
  | signMessage (message : Bytes)
  deriving DecidableEq, Repr

/-- Signing is the call that makes do with the entropy there is. -/
def WalletCall.loads : WalletCall → Bool
  | .signMessage _ => false
  | _ => true

section

variable (k : HDKeyEncoder) (d : Storage) (fuel : Nat)

/-- One call, with the memory it meets; `none` once the stack has overflowed. -/
def walletStep (s : Option (AccountManager d.Files)) (e : Unspecified × WalletCall) :
    Option (AccountManager d.Files) :=
  s.bind fun s =>
    match e.2 with
    | .setWords words => (setWords k d e.1 fuel s words).map Prod.snd
    | .getWords => (getWords k d e.1 fuel s).map Prod.snd
    | .getAccountAddress => (getAccountAddress k d e.1 fuel s).map Prod.snd
    | .upsertEntropy => upsertEntropy k d e.1 fuel s
    | .signMessage _ => some s

/-- New words are set only where no address is remembered, or theirs. -/
def KeepsAddress (s : Option (AccountManager d.Files)) (e : Unspecified × WalletCall) : Prop :=
  ∀ a ∈ s, ∀ words, e.2 = .setWords words →
    a.address = [] ∨ a.address = getAddressByWords k e.1 words

/-- Nothing is in memory, and what is stored, if anything is, was stored by this program. -/
structure Fresh (s : AccountManager d.Files) : Prop where
  entropy : s.entropy = []
  address : s.address = []
  stored : ∀ entropy, d.load s.accountId s.files = some entropy → IsEntropy entropy

/-- An entropy is in memory, and no address but its own. -/
structure Loaded (s : AccountManager d.Files) : Prop where
  entropy : IsEntropy s.entropy
  address : ∀ u, s.address = [] ∨ s.address = getAddressByEntropy k u s.entropy

end

section

variable {p : HDPrimitives} {d : Storage} {s : AccountManager d.Files}

/-- The address of an account in a state that is in order, and the state after it was asked for. -/
theorem Loaded.getAccountAddress (h : Loaded (hdKeyEncoder p) d s) (u : Unspecified) (fuel : Nat) :
    ∃ s', getAccountAddress (hdKeyEncoder p) d u (fuel + 1) s =
        some (getAddressByEntropy (hdKeyEncoder p) u s.entropy, s') ∧
      s'.entropy = s.entropy ∧ s'.address = getAddressByEntropy (hdKeyEncoder p) u s.entropy ∧
      Loaded (hdKeyEncoder p) d s' := by
  have haddr : (if s.address.isEmpty then getAddressByEntropy (hdKeyEncoder p) u s.entropy
      else s.address) = getAddressByEntropy (hdKeyEncoder p) u s.entropy := by
    rcases h.address u with hnil | hown
    · rw [hnil]
      rfl
    · rw [hown, ite_self]
  rw [getAccountAddress_of_entropy _ d u fuel h.entropy.ne_nil]
  dsimp only
  rw [haddr]
  refine ⟨_, rfl, rfl, rfl, h.entropy, fun v => .inr ?_⟩
  exact h.entropy.getAddressByEntropy (k := hdKeyEncoder p) u v

/-- A first load, of what is stored or of something new. -/
theorem Fresh.upsertEntropy (h : Fresh d s) (u : Unspecified) (fuel : Nat) :
    ∃ s', upsertEntropy (hdKeyEncoder p) d u (fuel + 2) s = some s' ∧
      s'.address = getAddressByEntropy (hdKeyEncoder p) u s'.entropy ∧
      Loaded (hdKeyEncoder p) d s' := by
  have hload : ∀ t : AccountManager d.Files, IsEntropy t.entropy → t.address = [] →
      Loaded (hdKeyEncoder p) d t := fun t ht hnil => ⟨ht, fun _ => .inl hnil⟩
  rw [AccountManager.upsertEntropy, if_pos (by rw [h.entropy]; rfl)]
  cases hfile : d.load s.accountId s.files with
  | some entropy =>
    obtain ⟨s', hget, hent, hadr, hl⟩ :=
      (hload { s with entropy := entropy } (h.stored entropy hfile) h.address).getAccountAddress
        u fuel
    dsimp only
    rw [hget]
    refine ⟨_, rfl, ?_, ?_⟩
    · exact hent.symm ▸ rfl
    · exact ⟨hl.entropy, fun v => hadr ▸ hl.address v⟩
  | none =>
    obtain ⟨s', hget, hent, hadr, hl⟩ :=
      (hload { s with
          files := d.save s.accountId
            (wordsToEntropyHex u (MnemonicHelper.generate u.random).raw) s.files
          entropy := wordsToEntropyHex u (MnemonicHelper.generate u.random).raw }
        (isEntropy_wordsToEntropyHex u _) h.address).getAccountAddress u fuel
    dsimp only
    rw [hget]
    refine ⟨_, rfl, ?_, ?_⟩
    · exact hent.symm ▸ rfl
    · exact ⟨hl.entropy, fun v => hadr ▸ hl.address v⟩

theorem Fresh.getAccountAddress (h : Fresh d s) (u : Unspecified) (fuel : Nat) :
    ∃ s', getAccountAddress (hdKeyEncoder p) d u (fuel + 3) s = some (s'.address, s') ∧
      Loaded (hdKeyEncoder p) d s' := by
  obtain ⟨s', hup, hadr, hl⟩ := h.upsertEntropy (p := p) u fuel
  have hne : s'.address.isEmpty = false := by
    rw [hadr]
    simpa using getAddressByEntropy_ne_nil u s'.entropy
  refine ⟨s', ?_, hl⟩
  rw [AccountManager.getAccountAddress, if_pos (by rw [h.address]; rfl)]
  dsimp only
  rw [if_pos (by rw [h.entropy]; rfl), hup]
  change (if s'.address.isEmpty = true then _ else _) = _
  rw [hne]
  rfl

theorem walletStep_setWords {k : HDKeyEncoder} {fuel : Nat} {u : Unspecified} {words : Bytes}
    {done : Bool} {s' : AccountManager d.Files}
    (h : setWords k d u fuel s words = some (done, s')) :
    walletStep k d fuel (some s) (u, .setWords words) = some s' := by
  change (setWords k d u fuel s words).map Prod.snd = some s'
  rw [h]
  rfl

/-- **One call.** A state that is in order stays so, and every call but signing loads. -/
theorem walletStep_spec (h : Fresh d s ∨ Loaded (hdKeyEncoder p) d s) (fuel : Nat)
    {e : Unspecified × WalletCall} (he : KeepsAddress (hdKeyEncoder p) d (some s) e) :
    ∃ s', walletStep (hdKeyEncoder p) d (fuel + 3) (some s) e = some s' ∧
      (Fresh d s' ∨ Loaded (hdKeyEncoder p) d s') ∧
      (e.2.loads = true ∨ Loaded (hdKeyEncoder p) d s → Loaded (hdKeyEncoder p) d s') := by
  obtain ⟨u, call⟩ := e
  have hup : ∃ s', upsertEntropy (hdKeyEncoder p) d u (fuel + 3) s = some s' ∧
      Loaded (hdKeyEncoder p) d s' := by
    rcases h with h | h
    · obtain ⟨s', hs', -, hl⟩ := h.upsertEntropy (p := p) u (fuel + 1)
      exact ⟨s', hs', hl⟩
    · exact ⟨s, upsertEntropy_of_entropy _ d u _ h.entropy.ne_nil, h⟩
  cases call with
  | setWords words =>
    obtain ⟨s', hset, hent, hadr⟩ := setWords_spec (hdKeyEncoder p) d u (fuel + 2) s words
    have hl : Loaded (hdKeyEncoder p) d s' := by
      have hwords : s'.address = getAddressByWords (hdKeyEncoder p) u words := by
        rcases he s rfl words rfl with hnil | hown
        · rw [hadr, hnil]
          rfl
        · rw [hadr, hown, ite_self]
      have hise := isEntropy_wordsToEntropyHex u words
      refine ⟨hent ▸ hise, fun v => .inr ?_⟩
      rw [hwords, hent]
      exact hise.getAddressByEntropy u v
    exact ⟨s', walletStep_setWords hset, .inr hl, fun _ => hl⟩
  | getWords =>
    obtain ⟨s', hs', hl⟩ := hup
    refine ⟨s', ?_, .inr hl, fun _ => hl⟩
    change (getWords (hdKeyEncoder p) d u (fuel + 3) s).map Prod.snd = _
    rw [getWords, hs']
    rfl
  | getAccountAddress =>
    rcases h with h | h
    · obtain ⟨s', hs', hl⟩ := h.getAccountAddress (p := p) u fuel
      refine ⟨s', ?_, .inr hl, fun _ => hl⟩
      change (AccountManager.getAccountAddress (hdKeyEncoder p) d u (fuel + 3) s).map Prod.snd = _
      rw [hs']
      rfl
    · obtain ⟨s', hs', -, -, hl⟩ := h.getAccountAddress u (fuel + 2)
      refine ⟨s', ?_, .inr hl, fun _ => hl⟩
      change (AccountManager.getAccountAddress (hdKeyEncoder p) d u (fuel + 3) s).map Prod.snd = _
      rw [hs']
      rfl
  | upsertEntropy =>
    obtain ⟨s', hs', hl⟩ := hup
    exact ⟨s', hs', .inr hl, fun _ => hl⟩
  | signMessage message =>
    refine ⟨s, rfl, h, ?_⟩
    rintro (hloads | hl)
    · cases hloads
    · exact hl

end
section

variable (c : Secp256k1) (p : HDPrimitives) (d : Storage)

/-- Every message verifies as the address of the account, whatever memory the calls meet. -/
def SignsAsAddress (fuel : Nat) (s : AccountManager d.Files) : Prop :=
  ∀ u v beyond message, ∃ s', getAccountAddress (hdKeyEncoder p) d v fuel s =
    some (verifyMessageRecoverAddress c beyond (signMessage c p u s message) message, s')

theorem Loaded.signsAsAddress (hc : RecoversSigner c p) (fuel : Nat) {s : AccountManager d.Files}
    (h : Loaded (hdKeyEncoder p) d s) : SignsAsAddress c p d (fuel + 1) s := by
  intro u v beyond message
  obtain ⟨s', hs', -⟩ := h.getAccountAddress v fuel
  rw [verify_signMessage hc, h.entropy.getAddressByEntropy u v]
  exact ⟨s', hs'⟩

/-- Runs from a new instance: if new words never meet a remembered address that is not theirs,
    then no call overflows the stack, and once anything but signing was called, the account signs
    as its address. -/
theorem signsAsAddress_of_keepsAddress (hc : RecoversSigner c p) (fuel : Nat)
    (s : AccountManager d.Files) (hs : Fresh d s) (es : List (Unspecified × WalletCall))
    (hes : EachStep (walletStep (hdKeyEncoder p) d (fuel + 3)) (KeepsAddress (hdKeyEncoder p) d)
      (some s) es)
    (hload : ∃ e ∈ es, e.2.loads = true) :
    ∃ s', es.foldl (walletStep (hdKeyEncoder p) d (fuel + 3)) (some s) = some s' ∧
      SignsAsAddress c p d (fuel + 3) s' := by
  obtain ⟨e, he, heload⟩ := hload
  obtain ⟨pre, post, rfl⟩ := List.append_of_mem he
  obtain ⟨hpre, hstep, hpost⟩ := eachStep_append.mp hes
  -- up to the call that loads, the state is in order; from there on something is loaded
  have hbefore : ∃ t, pre.foldl (walletStep (hdKeyEncoder p) d (fuel + 3)) (some s) = some t ∧
      (Fresh d t ∨ Loaded (hdKeyEncoder p) d t) := by
    refine hpre.invariant (fun o => ∃ t, o = some t ∧ (Fresh d t ∨ Loaded (hdKeyEncoder p) d t))
      ?_ ⟨s, rfl, .inl hs⟩
    rintro _ e ⟨t, rfl, ht⟩ hkeep
    obtain ⟨t', ht', hord, -⟩ := walletStep_spec ht fuel hkeep
    exact ⟨t', ht', hord⟩
  obtain ⟨t, ht, hord⟩ := hbefore
  rw [ht] at hstep hpost
  obtain ⟨t', ht', -, hl⟩ := walletStep_spec hord fuel hstep
  have hafter : ∃ t, post.foldl (walletStep (hdKeyEncoder p) d (fuel + 3)) (some t') = some t ∧
      Loaded (hdKeyEncoder p) d t := by
    rw [ht'] at hpost
    refine hpost.invariant (fun o => ∃ t, o = some t ∧ Loaded (hdKeyEncoder p) d t) ?_
      ⟨t', rfl, hl (.inl heload)⟩
    rintro _ e ⟨t, rfl, ht⟩ hkeep
    obtain ⟨t'', ht'', -, hl'⟩ := walletStep_spec (.inr ht) fuel hkeep
    exact ⟨t'', ht'', hl' (.inr ht)⟩
  obtain ⟨t'', ht'', hl''⟩ := hafter
  refine ⟨t'', ?_, hl''.signsAsAddress c p d hc (fuel + 2)⟩
  rw [List.foldl_append, ht, List.foldl_cons, ht', ht'']

end

/-! ## Words that are replaced

Two phrases, that of sixteen zero bytes and the one that is shown for `testPhrase`. Their seeds,
hashes, keys and points are given, as they are; for every other key the curve is made up, so that
recovery inverts signing for it too. -/

def shownPhrase : Bytes :=
  "above sweet melody gown boil brand finger juice atom lamp crater tragic".toUTF8.toList

def zeroSeed : Bytes :=
  toBE 64 (0x5eb00bbddcf069084889a8ab9155568165f5c453ccb85e70811aaed6f6da5fc1 * 2 ^ 256 +
    0x9a5ac40b389cd370d086206dec8aa6c43daea6690f20ad3d8d48b2d2ce9e38e4)

def zeroBlocks : List Bytes := [
  toBE 64 (0x1837c1be8e2995ec11cda2b066151be2cfb48adf9e47b151d46adab3a21cdf67 * 2 ^ 256 +
    0x7923408dadd3c7b56eed15567707ae5e5dca089de972e07f3b860450e2a3b70e),
  toBE 64 (0xb50e42e12a00b9e0abc8d9a1ced0f570252afcf07ed746e16d9d3a12dcc7d883 * 2 ^ 256 +
    0x45d3b0e8206db10a08d555317c7e245c5bbd12254ce968f3c79a959d4e6af98a),
  toBE 64 (0x21602b33b90088326a6098004bea6dad4cc59722d6353aa37280b662ce12e405 * 2 ^ 256 +
    0xff0603122d4dc5bf9b36606ef1b1b6e5a6c9e79fc6a4b08f7e871eee10457a71),
  toBE 64 (0xfb12ec6f1d3cc78657c88bcdb3706be924ba883a9402de1bb5abe3ccedff8519 * 2 ^ 256 +
    0xd882718b7a42806803eeb17f7483f20620611adb88fc943c898dc5aba94c2819),
  toBE 64 (0x6654f43935ba76559fee1861598626bd480ade32fe156f0d088f594d097d23a4 * 2 ^ 256 +
    0x54e3acd16494bdc7e9d423631792ef7d429b80deadc4fc26711fbd9980c0034f),
  toBE 64 (0x8cdc82f5f9742bc546ffa934c668e8957976911884e3e0a4ef05c148c8df7489 * 2 ^ 256 +
    0xf991f96ca28b63bfcb3bce2c26f91452935ac85821d9dc02936e85a089cd7924)]

def zeroPoints : Assoc Bytes Bytes := [
  (toBE 32 0x1837c1be8e2995ec11cda2b066151be2cfb48adf9e47b151d46adab3a21cdf67,
    0x03 :: toBE 32 0xd902f35f560e0470c63313c7369168d9d7df2d49bf295fd9fb7cb109ccee0494),
  (toBE 32 0xcd46049fb82a4fccbd967c5234e61152f4df87d01d1ef833420814c67ee4b7ea,
    0x03 :: toBE 32 0x428a2da3e76291667a67a38ed45468ceb0d156bc8beda6e86fbc4cf295087c2b),
  (toBE 32 0xeea62fd3712ad7ff27f7145280d07f0041a51ef2f35432d6b488cb294cf79bef,
    0x02 :: toBE 32 0x85b982428815869fb5995dc0ec033bcd9f9c2baf52d18aa0a4cccc280bb5e21f),
  (toBE 32 0xe9b91c428e679f857fbfa0203440eaeaabb0ca46d80e70b6aa6250696ac0dfc7,
    0x02 :: toBE 32 0xeae4b876a8696134b868f88cc2f51f715f2dbedb7446b8e6edf3d4541c4eb67b),
  (toBE 32 0x500e107bc42215db1fadb8818dc711a9390ccb9326db3f87f31f4b29a407c22a,
    0x02 :: toBE 32 0x384168d50be3042f533adf58e9080b544671de3d57eb2438284eea1ae2a5cfc6),
  (toBE 32 0xdcea9371bd9641a066ad61b6542ffa3eb2835cababbf202ce2250c726ce736b3,
    0x03 :: toBE 32 0xabdc0424e5a951abb5e12df771738e269566fc170dfe8a5f0dae27052a168559)]

def testSeed : Bytes :=
  toBE 64 (0xae3cfa73ae54572dfd9db60e62161e15e49e51764e5b6762805e93b39c03acd6 * 2 ^ 256 +
    0xd7620c71c417a02bdbf3b902798b9983d8a6d853e31845376d28e09f426f14b2)

def testBlocks : List Bytes := [
  toBE 64 (0x87b2083b6b49fd52db0a2a9b51b9de8bd8c1f9e623cd8f8ef4d854e175fb66f6 * 2 ^ 256 +
    0x1513cf29f13189dc64d24a5a6c10762ddafa687d2b2c3920874f18f192212b0a),
  toBE 64 (0x26ad3ec2fff16ed91e9b710f3c2b81187de0853f07dc70e410ac1bd82d0f8a29 * 2 ^ 256 +
    0xbd6227a19fbc7f0922b7910c83744733c626aa8558aa60b0f764cda05fc22a86),
  toBE 64 (0xe0a986e531242f18986554036055c858bbde52900a597f95530310e18223a891 * 2 ^ 256 +
    0x78deec09aa4a199e400bd63beec305198595c28408e21dfa60367cc812224968),
  toBE 64 (0x05dda65facadcc8bec33aa72f3f4f4fa03639201bb12a7526aa6e900dc04e9c2 * 2 ^ 256 +
    0x6f082585ccb33569da76f6182c31561e298a0c345309956db6de602124a756b4),
  toBE 64 (0xe55d749a72bc6665612c72d25e8970fe5de0143eafd50af8bafab426f6113d3d * 2 ^ 256 +
    0x47b3a2538f10165f59f42b033ffdf24b6ced7ee886596a87442e13f75777d9e6),
  toBE 64 (0x553ca91600a7024b419ebaf851dbfaaab7f62be0db894fe5b5b69f2bcf32080e * 2 ^ 256 +
    0x5e7c2792216e90e4af135b1a73b7cbb1756b770f329b39aa191d98253dcc16b3)]

def testPoints : Assoc Bytes Bytes := [
  (toBE 32 0x87b2083b6b49fd52db0a2a9b51b9de8bd8c1f9e623cd8f8ef4d854e175fb66f6,
    0x03 :: toBE 32 0xdfc66d78c907c68dde8bdfc47101db03ac1f12c3324f9ba1edfcbe886334428a),
  (toBE 32 0xae5f46fe6b3b6c2bf9a59baa8de55fa456a27f252baa0073058470b9a30af11f,
    0x03 :: toBE 32 0x977ce917762f6c1cba26c210639ee5f623f8717c64b47cde2eab569855f075d7),
  (toBE 32 0x8f08cde39c5f9b44920aefadee3b27fe57d1f4ce86badfcc98b5230e54f8586f,
    0x02 :: toBE 32 0x2490c79dc3708d3393c4fc54a0e8466e0449f25882c0ae01958206baaa1e7df4),
  (toBE 32 0x94e67443490d67d07e3e9a20e2301cf85b3586d041cd871f035c0c0f30fd4231,
    0x03 :: toBE 32 0x0e6fc4d6236725b865b28d22ee9c0fb7a9681db4fac8b1978de2d767b8c9169a),
  (toBE 32 0x7a43e8ddbbc9ce35df6b0cf340b98df7fe66be284259f1dbfe8461a956d83e2d,
    0x02 :: toBE 32 0xa0c1b27b4f4fc64856842bec83d218d36bf533ced26c9d751db651679d4b4374),
  (toBE 32 0xcf8091f3bc70d0812109c7eb929588a2b65cea091de341c1b43b00d5260a463b,
    0x02 :: toBE 32 0x2ec635f120955955c64df9f34254bd2f9f137bcf5912c47ed5a2e06bb5171dbc)]

def zeroKey : Bytes := toBE 32 0xdcea9371bd9641a066ad61b6542ffa3eb2835cababbf202ce2250c726ce736b3

def testKey : Bytes := toBE 32 0xcf8091f3bc70d0812109c7eb929588a2b65cea091de341c1b43b00d5260a463b

def zeroKey64 : Bytes :=
  toBE 64 (0xabdc0424e5a951abb5e12df771738e269566fc170dfe8a5f0dae27052a168559 * 2 ^ 256 +
    0x0ed3baf090b916db5f923ae4c5d34aba23466c172027e17749f0c8f579f0935b)

def testKey64 : Bytes :=
  toBE 64 (0x2ec635f120955955c64df9f34254bd2f9f137bcf5912c47ed5a2e06bb5171dbc * 2 ^ 256 +
    0x8487ec6e928c7055d98b019b52c8aab912d1e5f00ffddfd74471e541e0521f7e)

/-- What is signed in the sample, and its hash. -/
def signedText : Bytes := formatSignMsgData "a1B2c3".toUTF8.toList .ptp

def signedHash : Bytes := toBE 32 0xed7678bce132efee20a480f4b8b4ca107f2565d4ab6966a017afdac7989545af

/-- Each chain code is the key of one hash, so it names the next block. -/
def hmacRows (seed : Bytes) (blocks : List Bytes) : Assoc Bytes Bytes :=
  (seed :: blocks.map (·.drop 32)).zip blocks

def base58Alphabet : Bytes :=
  "123456789ABCDEFGHJKLMNPQRSTUVWXYZabcdefghijkmnopqrstuvwxyz".toUTF8.toList

def base58 (b : Bytes) : Bytes :=
  (b.takeWhile (· = 0)).map (fun _ => 0x31) ++
    ((Nat.digits 58 (ofBE b)).reverse.map fun i => base58Alphabet.getD i 0)

def samplePublicKey64 (key : Bytes) : Bytes :=
  if key = zeroKey then zeroKey64
  else if key = testKey then testKey64
  else (key ++ List.replicate 64 0).take 64

def sampleHD : HDPrimitives where
  wordsToSeed mnemonic := if mnemonic = shownPhrase then testSeed else zeroSeed
  hmacSha512 key data :=
    (Assoc.find (hmacRows zeroSeed zeroBlocks ++ hmacRows testSeed testBlocks)
      (if key = bip32Name then data else key)).getD (List.replicate 64 0)
  order := 0xfffffffffffffffffffffffffffffffebaaedce6af48a03bbfd25e8cd0364141
  attempts := 1
  publicKey33 key := (Assoc.find (zeroPoints ++ testPoints) key).getD (0x05 :: key)
  publicKey64 := samplePublicKey64
  keccak256 b :=
    if b = zeroKey64 then
      toBE 32 0xf1bf4c609070be75e0cb8a61399db6ed32539fbdf44c3e7678b5b428e378f666
    else if b = testKey64 then
      toBE 32 0x17e049772e81ee11d04c16ea9f8b11358775d4c36e54de37457da1b532bfaa65
    else if b = signedText then signedHash
    else List.replicate 32 0
  base58EncodeCheck b := base58 (b ++ (Crypto.sha256 (Crypto.sha256 b)).take 4)

theorem length_keccak256_sampleHD (b : Bytes) : (sampleHD.keccak256 b).length = 32 := by
  change (if _ then _ else if _ then _ else if _ then _ else _ : Bytes).length = 32
  split
  · exact length_toBE _ _
  split
  · exact length_toBE _ _
  split
  · exact length_toBE _ _
  · rfl

/-- The signatures of the two keys over the hash. -/
def zeroSig64 : Bytes :=
  toBE 64 (0xbddf5edaaf9069a867b4eb4777ae5dfb3b6f9cd4519aa5659c24c5df4084a8a3 * 2 ^ 256 +
    0x316b5e34e92327b02248140574edea22d1e837f474de4ec5588f8f4002024e32)

def testSig64 : Bytes :=
  toBE 64 (0xda5c285147dbca0cbc5b92822a3a242a0e476b89f634cda76924928b9d29e65f * 2 ^ 256 +
    0x78dea37729c5491998b10d14f2466ce5ba934f3df790af12b9cf94d60d6eaecf)

/-- A point is given by the number it is that multiple of the base point. -/
def sampleCurve : Secp256k1 where
  PubKey := Bytes
  keccak256 := sampleHD.keccak256
  recover sig64 recId hash :=
    if sig64 = zeroSig64 ∧ recId = 0 ∧ hash = signedHash then some zeroKey
    else if sig64 = testSig64 ∧ recId = 0 ∧ hash = signedHash then some testKey
    else if sig64.drop 32 = List.replicate 32 0 then some (sig64.take 32)
    else none
  serializeUncompressed key := 0x04 :: samplePublicKey64 key
  serializeCompressed key := sampleHD.publicKey33 key
  parse b :=
    match (zeroPoints ++ testPoints).find? (·.2 = b) with
    | some row => some row.1
    | none => if b.head? = some 0x05 then some b.tail else none
  ecdh key prvKey :=
    if key = testKey ∧ prvKey = zeroKey ∨ key = zeroKey ∧ prvKey = testKey then
      some (toBE 32 0x90e6b698af76897e319bb1b6c08e5a5352e01cb8696b77723c0082e0766d9b38)
    else some (List.zipWith (· ^^^ ·) key prvKey)
  sign hash prvKey :=
    if hash = signedHash ∧ prvKey = zeroKey then (zeroSig64, 0)
    else if hash = signedHash ∧ prvKey = testKey then (testSig64, 0)
    else (prvKey ++ List.replicate 32 0, 0)

theorem recoversSigner_sample : RecoversSigner sampleCurve sampleHD where
  keccak256 := rfl
  length_publicKey64 key := by
    change (samplePublicKey64 key).length = 64
    unfold samplePublicKey64
    split
    · decide +kernel
    · split
      · decide +kernel
      · rw [List.length_take, List.length_append, List.length_replicate]
        exact Nat.min_eq_left (Nat.le_add_left _ _)
  recover_sign mnemonic hash := by
    have hsig : zeroSig64.length = 64 ∧ testSig64.length = 64 ∧ zeroSig64 ≠ testSig64 ∧
        zeroSig64.drop 32 ≠ List.replicate 32 0 ∧ testSig64.drop 32 ≠ List.replicate 32 0 := by
      decide +kernel
    obtain ⟨hzero, htest, hne, hzero32, htest32⟩ := hsig
    have hlen := length_phraseKey sampleHD mnemonic
    generalize phraseKey sampleHD mnemonic = key at hlen
    dsimp only [sampleCurve]
    by_cases h0 : hash = signedHash ∧ key = zeroKey
    · obtain ⟨rfl, rfl⟩ := h0
      rw [if_pos ⟨rfl, rfl⟩]
      exact ⟨hzero, by decide, zeroKey, if_pos ⟨rfl, rfl, rfl⟩, rfl⟩
    rw [if_neg h0]
    by_cases h1 : hash = signedHash ∧ key = testKey
    · obtain ⟨rfl, rfl⟩ := h1
      rw [if_pos ⟨rfl, rfl⟩]
      refine ⟨htest, by decide, testKey, ?_, rfl⟩
      rw [if_neg fun h => hne h.1.symm]
      exact if_pos ⟨rfl, rfl, rfl⟩
    rw [if_neg h1]
    dsimp only
    -- a made-up signature ends in zeros, which the other two do not
    have hdrop : (key ++ List.replicate 32 0).drop 32 = List.replicate 32 0 :=
      List.drop_left' hlen
    refine ⟨by rw [List.length_append, hlen, List.length_replicate], by decide, key, ?_, rfl⟩
    rw [if_neg ?_, if_neg ?_, if_pos hdrop, List.take_left' hlen]
    · exact fun h => htest32 (h.1 ▸ hdrop)
    · exact fun h => hzero32 (h.1 ▸ hdrop)

theorem phraseKey_zeroPhrase : phraseKey sampleHD zeroPhrase = zeroKey := by
  simp only [sampleHD, zeroSeed, zeroBlocks, zeroPoints, zeroKey, testSeed, testBlocks, testPoints,
    toBE_eq_consBE]
  decide +kernel

theorem phraseKey_shown_testEntropy :
    phraseKey sampleHD (phraseOf enWords (shown testEntropy)) = testKey := by
  rw [← raw_entropyToMnemonic rfl]
  simp only [sampleHD, zeroSeed, zeroBlocks, zeroPoints, testSeed, testBlocks, testPoints, testKey,
    toBE_eq_consBE]
  decide +kernel

theorem addressOf_hdKeyEncoder (p : HDPrimitives) (mnemonic : Bytes) :
    (hdKeyEncoder p).addressOf mnemonic =
      bytesToHex (HDKey.ecdsaGetPublicAddress p (phraseKey p (cString mnemonic))) := by
  rw [phraseKey, privateKey_eq]
  rfl

/-- The addresses of the two phrases as an account computes them. -/
theorem getAddressByWords_sample :
    getAddressByWords (hdKeyEncoder sampleHD) zeroMemory zeroPhrase =
        bytesToHex (toBE 20 0x399db6ed32539fbdf44c3e7678b5b428e378f666) ∧
      getAddressByWords (hdKeyEncoder sampleHD) zeroMemory testPhrase =
        bytesToHex (toBE 20 0x9f8b11358775d4c36e54de37457da1b532bfaa65) := by
  have hzero : wordsToEntropyHex zeroMemory zeroPhrase = bytesToHex (List.replicate 16 0) :=
    wordsToEntropyHex_eq (e := List.replicate 16 0) _ (by decide)
      (by rw [zeroPhrase_eq, cString_phraseOf])
  have htest : wordsToEntropyHex zeroMemory testPhrase = bytesToHex testEntropy :=
    wordsToEntropyHex_eq (e := testEntropy) _ (by decide)
      (by rw [testPhrase_eq, cString_phraseOf])
  rw [getAddressByWords_eq _ _ rfl hzero, getAddressByWords_eq _ _ rfl htest,
    addressOf_hdKeyEncoder, addressOf_hdKeyEncoder, cString_phraseOf, cString_phraseOf,
    phraseKey_shown_testEntropy]
  change HDKey.getEthAddress sampleHD { privateKey := phraseKey sampleHD (phraseOf enWords _) } =
    _ ∧ _
  rw [show shown (List.replicate 16 0) = List.replicate 16 0 from rfl, ← zeroPhrase_eq,
    phraseKey_zeroPhrase]
  decide +kernel

theorem fresh_freshAccount : Fresh plainFiles freshAccount := ⟨rfl, rfl, fun _ h => by cases h⟩

theorem signsAsAddress_testPhrase :
    RecoversSigner sampleCurve sampleHD ∧
      ∃ s', [(zeroMemory, WalletCall.setWords testPhrase), (zeroMemory, .getWords)].foldl
          (walletStep (hdKeyEncoder sampleHD) plainFiles 3) (some freshAccount) = some s' ∧
        SignsAsAddress sampleCurve sampleHD plainFiles 3 s' := by
  refine ⟨recoversSigner_sample, signsAsAddress_of_keepsAddress sampleCurve sampleHD plainFiles
    recoversSigner_sample 0 freshAccount fresh_freshAccount _ ⟨?_, ?_, trivial⟩
    ⟨_, List.mem_cons_self, rfl⟩⟩
  · rintro _ ⟨rfl⟩ words -
    exact .inl rfl
  · rintro _ - words h
    cases h

/-- The address of the first words stays when they are replaced, and signatures are made with the
    key of the second. -/
theorem not_signsAsAddress_replaced :
    RecoversSigner sampleCurve sampleHD ∧ Fresh plainFiles freshAccount ∧
      ∃ s', [(zeroMemory, WalletCall.setWords zeroPhrase), (zeroMemory, .setWords testPhrase)].foldl
          (walletStep (hdKeyEncoder sampleHD) plainFiles 3) (some freshAccount) = some s' ∧
        ¬ SignsAsAddress sampleCurve sampleHD plainFiles 3 s' := by
  obtain ⟨s₁, hset₁, -, haddr₁⟩ :=
    setWords_spec (hdKeyEncoder sampleHD) plainFiles zeroMemory 2 freshAccount zeroPhrase
  obtain ⟨s₂, hset₂, hent₂, haddr₂⟩ :=
    setWords_spec (hdKeyEncoder sampleHD) plainFiles zeroMemory 2 s₁ testPhrase
  obtain ⟨hzero, htest⟩ := getAddressByWords_sample
  refine ⟨recoversSigner_sample, fresh_freshAccount, s₂, ?_, ?_⟩
  · rw [List.foldl_cons, walletStep_setWords hset₁, List.foldl_cons, walletStep_setWords hset₂]
    rfl
  · intro h
    obtain ⟨s', hs'⟩ := h zeroMemory zeroMemory [] []
    have hne : s₂.entropy ≠ [] := hent₂ ▸ wordsToEntropyHex_ne_nil _ _
    have hstays : s₂.address = getAddressByWords (hdKeyEncoder sampleHD) zeroMemory zeroPhrase := by
      rw [haddr₂, haddr₁, hzero]
      rfl
    rw [getAccountAddress_of_entropy _ _ _ _ hne, verify_signMessage recoversSigner_sample,
      hent₂, hstays, hzero] at hs'
    have haddr := (Prod.mk.inj (Option.some.inj hs')).1
    rw [← getAddressByWords, htest] at haddr
    exact absurd haddr (by decide +kernel)

end Net
end Proof
end PtpCore
