import PtpCore.Wallet.MnemonicHelper

/-!
# The wallet of an account (`ptp_net/AccountManager.cpp`)

An account holds its entropy as hexadecimal text and finds its phrase and its address from it.
`getAccountAddress` and `upsertEntropy` call each other, and on a stored entropy that decrypts to
nothing they do so for ever: `fuel` counts the calls, and `none` is the stack overflow.

Three things come from outside. The key functions are `HDKeyEncoder`'s, which hash the phrase and
compute on the curve. The files are the account's encrypted entropy and the marker file of each
address. What is in a buffer that nothing has written yet is whatever the stack held.
-/

namespace PtpCore
namespace Net

open Lib Wallet

/-- `PTP_HD_PATH`. -/
def ptpHdPath : String := "m/44'/60'/0'/1/0"

/-- `HDKeyEncoder`, as far as an address needs it. -/
structure HDKeyEncoder where
  HDKey : Type
  makeEthRootKey : Bytes → HDKey
  makeEthExtendedKey : HDKey → String → HDKey
  getEthAddress : HDKey → Bytes

/-- The key of a phrase, which is passed as a C string, and its address. -/
def HDKeyEncoder.addressOf (k : HDKeyEncoder) (mnemonic : Bytes) : Bytes :=
  k.getEthAddress (k.makeEthExtendedKey (k.makeEthRootKey (cString mnemonic)) ptpHdPath)

/-- What the account manager keeps in files. `save` encrypts the entropy and writes it with
    `writeConfig`; `load` is `readConfig` and the decryption, `none` when there is no file. -/
structure Storage where
  Files : Type
  save : UInt32 → Bytes → Files → Files
  load : UInt32 → Files → Option Bytes
  writeAddressFile : Bytes → Files → Files

/-- Unspecified memory and random bytes that one call meets. -/
structure Unspecified where
  /-- `uint8_t entropyBytes[BIP39_ENTROPY_LEN_128]` before it is written. -/
  entropyBytes : Bytes
  length_entropyBytes : entropyBytes.length = bip39EntropyLen128
  /-- Drawn by `RAND_bytes`. -/
  random : Bytes
  length_random : random.length = bip39EntropyLen128
  /-- Behind the vector that `hex_to_bytes` returns. -/
  pastEnd : Bytes

structure AccountManager (Files : Type) where
  accountId : UInt32
  entropy : Bytes
  address : Bytes
  files : Files

namespace AccountManager

/-- The entropy of a phrase as `setWords`, `getAddressByWords` and `upsertEntropy` compute it. -/
def wordsToEntropyHex (u : Unspecified) (words : Bytes) : Bytes :=
  Toolbox.bytesToHex (MnemonicHelper.mnemonicWordsToEntropy enWords words u.entropyBytes).1

def validateWords (words : Bytes) : Bool := MnemonicHelper.validateWords enWords words

def getAddressByEntropy (k : HDKeyEncoder) (u : Unspecified) (entropy : Bytes) : Bytes :=
  k.addressOf (MnemonicHelper.entropyHexToMnemonic u.pastEnd entropy).raw

def getAddressByWords (k : HDKeyEncoder) (u : Unspecified) (words : Bytes) : Bytes :=
  getAddressByEntropy k u (wordsToEntropyHex u words)

section

variable (k : HDKeyEncoder) (d : Storage) (u : Unspecified)

mutual

/-- `getAccountAddress`. The entropy is read before `upsertEntropy` runs, and not again. -/
def getAccountAddress : Nat → AccountManager d.Files → Option (Bytes × AccountManager d.Files)
  | 0, _ => none
  | fuel + 1, s =>
    if s.address.isEmpty then do
      let entropy := s.entropy
      let s ← if entropy.isEmpty then upsertEntropy fuel s else some s
      if s.address.isEmpty then
        let address := getAddressByEntropy k u entropy
        some (address, { s with address := address })
      else some (s.address, s)
    else some (s.address, s)

def upsertEntropy : Nat → AccountManager d.Files → Option (AccountManager d.Files)
  | 0, _ => none
  | fuel + 1, s =>
    if s.entropy.isEmpty then
      match d.load s.accountId s.files with
      | some entropy => do
        let (address, s) ← getAccountAddress fuel { s with entropy := entropy }
        some { s with address := address }
      | none => do
        let mnemonic := MnemonicHelper.generate u.random
        let entropy := wordsToEntropyHex u mnemonic.raw
        let s := { s with files := d.save s.accountId entropy s.files, entropy := entropy }
        let (address, s) ← getAccountAddress fuel s
        some { s with address := address, files := d.writeAddressFile address s.files }
    else some s

end

/-- `setWords`: its result, which is always true, and the account. -/
def setWords (fuel : Nat) (s : AccountManager d.Files) (words : Bytes) :
    Option (Bool × AccountManager d.Files) := do
  let entropy := wordsToEntropyHex u words
  let s := { s with files := d.save s.accountId entropy s.files, entropy := entropy }
  let (address, s) ← getAccountAddress k d u fuel s
  some (true, { s with files := d.writeAddressFile address s.files })

def getWords (fuel : Nat) (s : AccountManager d.Files) :
    Option (Bytes × AccountManager d.Files) := do
  let s ← upsertEntropy k d u fuel s
  some ((MnemonicHelper.entropyHexToMnemonic u.pastEnd s.entropy).raw, s)

end

end AccountManager
end Net
end PtpCore
