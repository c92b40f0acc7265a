import PtpCore.Toolbox.Data
import PtpCore.Wallet.Bip39
import PtpCore.Wallet.English

/-!
# `MnemonicHelper` (`ptp_wallet/MnemonicHelper.cpp`)

The functions that take a language look up its list with `bip39_get_wordlist`; here they take
the list, and `validateWordsOf` is one of them with the lookup in front. `entropyHexToMnemonic` is
given a language too, prints it, and uses English.

Its bytes come out of `hex_to_bytes` with whatever length the text has, and sixteen of them are
read. `pastEnd` is the memory behind the vector, for texts that give fewer.
-/

namespace PtpCore
namespace Wallet

open Lib

inductive MnemonicStatus
  | ok
  | unsupportedEntropy
  | unknownError
  deriving DecidableEq, Repr

/-- The lists in `data/word_lists` besides the English one. -/
structure WordLists where
  es : Words
  fr : Words
  it : Words
  jp : Words
  zhs : Words
  zht : Words

/-- `lookup` of `bip39.cpp`. -/
def WordLists.lookup (ls : WordLists) : List (String × Words) :=
  [("en", enWords), ("es", ls.es), ("fr", ls.fr), ("it", ls.it), ("jp", ls.jp), ("zhs", ls.zhs),
    ("zht", ls.zht)]

/-- `bip39_get_wordlist`; `none` is a null pointer. -/
def bip39GetWordlist (ls : WordLists) (lang : Option Bytes) : Words :=
  match lang with
  | none => enWords
  | some lang =>
    match ls.lookup.find? fun entry => entry.1.toUTF8.toList == cString lang with
    | some entry => entry.2
    | none => enWords

structure MnemonicResult where
  status : MnemonicStatus
  words : List Bytes
  raw : Bytes
  len : Nat

namespace MnemonicHelper

/-- `validateEntropy`. -/
def validateEntropy (entropy : Nat) : Bool :=
  match entropy with
  | 16 | 20 | 24 | 28 | 32 | 36 | 40 => true
  | _ => false

def entropyToMnemonic (wordList : Words) (entropyBytes : Bytes) : MnemonicResult :=
  if validateEntropy entropyBytes.length then
    match bip39MnemonicFromBytes wordList entropyBytes with
    | (.ok, some output) =>
      let words := output.splitOn space
      { status := .ok, words := words, raw := output, len := words.length }
    | _ => { status := .unknownError, words := [], raw := [], len := 0 }
  else { status := .unsupportedEntropy, words := [], raw := [], len := 0 }

/-- `encodeBytes`: the same function once more. -/
def encodeBytes (wordList : Words) (src : Bytes) : MnemonicResult := entropyToMnemonic wordList src

/-- `generate`, given what `RAND_bytes` put into the buffer. -/
def generate (buf : Bytes) : MnemonicResult := encodeBytes enWords buf

def entropyHexToMnemonic (pastEnd : Bytes) (entropyHex : Bytes) : MnemonicResult :=
  let entropyBytes := Toolbox.hexToBytes (cString entropyHex)
  entropyToMnemonic enWords ((entropyBytes ++ pastEnd).take bip39EntropyLen128)

/-- `decodeMnemonic`, given what the caller's buffer holds: the buffer afterwards and the number
    of bytes. A failure leaves the buffer alone and is not told apart from "no bytes". -/
def decodeMnemonic (wordList : Words) (mnemonicWords mnemonicBytesOut : Bytes) : Bytes × Nat :=
  if validateEntropy mnemonicBytesOut.length then
    (bip39MnemonicToBytes wordList (cString mnemonicWords) mnemonicBytesOut).2
  else (mnemonicBytesOut, 0)

def mnemonicWordsToEntropy (wordList : Words) (mnemonicWords mnemonicBytesOut : Bytes) :
    Bytes × Nat :=
  decodeMnemonic wordList mnemonicWords mnemonicBytesOut

def validateWords (wordList : Words) (mnemonicWords : Bytes) : Bool :=
  bip39MnemonicValidate wordList (cString mnemonicWords) == .ok

def validateWordsOf (ls : WordLists) (lang : Option Bytes) (mnemonicWords : Bytes) : Bool :=
  validateWords (bip39GetWordlist ls lang) mnemonicWords

end MnemonicHelper
end Wallet
end PtpCore
