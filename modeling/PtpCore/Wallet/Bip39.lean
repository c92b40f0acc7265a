import PtpCore.Crypto.Sha256
import PtpCore.Wallet.WordList

/-!
# Mnemonic phrases (`ptp_wallet/mnemonic.cpp`, `ptp_wallet/bip39.cpp`)

`mnemonic.cpp` turns a block of bytes into words and back, `w->bits` bits a word. `bip39.cpp`
puts the checksum behind the entropy before the one and tests it after the other.

Two lengths decide what `bip39_mnemonic_to_bytes` writes: that of the decoded entropy, and that
of the caller's buffer. When the entropy does not fit, it returns success with the length it
would have needed, and has tested nothing.
-/

namespace PtpCore
namespace Wallet

open Lib

/-- The status codes of `bip39.h`. -/
inductive Minter
  | ok
  | einval
  | enomem
  deriving DecidableEq, Repr

/-! ## Bits -/

/-- `U8_AT(bytes, pos)`. -/
def u8At (bytes : Bytes) (pos : Nat) : UInt8 := bytes.getD (pos / 8) 0

/-- `U8_MASK(pos)`. -/
def u8Mask (pos : Nat) : UInt8 := UInt8.ofNat (1 <<< (7 - pos % 8))

def extractIndex (bits : Nat) (bytes : Bytes) (n : Nat) : Nat :=
  (List.range bits).foldl (fun value i =>
    let pos := n * bits + i
    value <<< 1 ||| (if u8At bytes pos &&& u8Mask pos != 0 then 1 else 0)) 0

def storeIndex (bits : Nat) (bytesOut : Bytes) (n value : Nat) : Bytes :=
  (List.range bits).foldl (fun out i =>
    let pos := n * bits + i
    if value &&& (1 <<< (bits - i - 1)) != 0 then out.set (pos / 8) (u8At out pos ||| u8Mask pos)
    else out) bytesOut

/-! ## Words and bytes -/

/-- `mnemonic_from_bytes`: each word with a separator, the last separator overwritten; `none` is
    the `NULL` for no words. -/
def mnemonicFromBytes (w : Words) (bytes : Bytes) : Option Bytes :=
  let totalMnemonics := bytes.length * 8 / w.bits
  let str := (List.range totalMnemonics).flatMap fun i =>
    w.indices.getD (extractIndex w.bits bytes i) [] ++ [space]
  if str.length = 0 then none else some str.dropLast

/-- The loop of `mnemonic_to_bytes`; `none` when a word is not in the list. -/
def storeWords (w : Words) : Nat → Bytes → List Bytes → Option Bytes
  | _, out, [] => some out
  | i, out, word :: rest =>
    match wordlistLookupWord w word with
    | 0 => none
    | idx + 1 => storeWords w (i + 1) (storeIndex w.bits out i idx) rest

/-- `mnemonic_to_bytes`: the status, `bytes_out` afterwards and `*written`. A phrase that needs
    more than there is room for is not looked at. -/
def mnemonicToBytes (w : Words) (mnemonic bytesOut : Bytes) : Minter × Bytes × Nat :=
  let mnemonicW := wordlistInit mnemonic
  let written := (mnemonicW.length * w.bits + 7) / 8
  if written > bytesOut.length then (.ok, bytesOut, written)
  else
    let zeros := List.replicate bytesOut.length 0
    match storeWords w 0 zeros mnemonicW with
    | none => (.einval, zeros, 0)
    | some out => (.ok, out, written)

/-! ## BIP39 -/

/-- `BIP39_ENTROPY_LEN_128`, the only length the account manager uses. -/
def bip39EntropyLen128 : Nat := 16

/-- `BIP39_ENTROPY_LEN_256`. -/
def bip39EntropyLen256 : Nat := 32

/-- `BIP39_ENTROPY_LEN_MAX`. -/
def bip39EntropyLenMax : Nat := 42

def lenToMask (len : Nat) : Nat :=
  match len with
  | 16 => 0xf0
  | 20 => 0xf8
  | 24 => 0xfc
  | 28 => 0xfe
  | 32 => 0xff
  | 36 => 0x80ff
  | 40 => 0xC0ff
  | _ => 0

def bip39Checksum (bytes : Bytes) (mask : Nat) : Nat :=
  let out := Crypto.sha256 bytes
  ((out.getD 0 0).toNat ||| (out.getD 1 0).toNat <<< 8) &&& mask

/-- `bip39_mnemonic_from_bytes`: the status and the phrase. -/
def bip39MnemonicFromBytes (w : Words) (bytes : Bytes) : Minter × Option Bytes :=
  let mask := lenToMask bytes.length
  if bytes.length = 0 ∨ w.bits ≠ 11 ∨ mask = 0 then (.einval, none)
  else
    let checksum := bip39Checksum bytes mask
    let tmpBytes := bytes ++ [UInt8.ofNat (checksum &&& 0xFF)]
    let tmpBytes :=
      if mask > 0xFF then tmpBytes ++ [UInt8.ofNat ((checksum >>> 8) &&& 0xFF)] else tmpBytes
    match mnemonicFromBytes w tmpBytes with
    | some output => (.ok, some output)
    | none => (.enomem, none)

/-- `checksum_ok`: the checksum is stored after the data to sum. -/
def checksumOk (bytes : Bytes) (idx mask : Nat) : Bool :=
  let calculated := bip39Checksum (bytes.take idx) mask
  let stored := (bytes.getD idx 0).toNat
  let stored := if mask > 0xff then stored ||| (bytes.getD (idx + 1) 0).toNat <<< 8 else stored
  stored &&& mask == calculated

/-- `bip39_mnemonic_to_bytes`: the status, `bytes_out` afterwards, and `*written`. A phrase has at
    least one word, so `tmp_len` is at least 2 and the decrements do not wrap. -/
def bip39MnemonicToBytes (w : Words) (mnemonic bytesOut : Bytes) : Minter × Bytes × Nat :=
  if w.bits ≠ 11 then (.einval, bytesOut, 0)
  else
    match mnemonicToBytes w mnemonic (List.replicate bip39EntropyLenMax 0) with
    | (.ok, tmpBytes, tmpLen) =>
      let tmpLen := tmpLen - 1
      let tmpLen := if tmpLen > bip39EntropyLen256 then tmpLen - 1 else tmpLen
      if tmpLen > bip39EntropyLenMax then (.einval, bytesOut, 0)
      else if tmpLen ≤ bytesOut.length then
        let mask := lenToMask tmpLen
        if mask = 0 ∨ checksumOk tmpBytes tmpLen mask = false then (.einval, bytesOut, 0)
        else (.ok, overwrite bytesOut 0 (tmpBytes.take tmpLen), tmpLen)
      else (.ok, bytesOut, tmpLen)
    | (ret, _, _) => (ret, bytesOut, 0)

/-- `bip39_mnemonic_validate`: the status, which does not depend on what its buffer held. -/
def bip39MnemonicValidate (w : Words) (mnemonicWords : Bytes) : Minter :=
  (bip39MnemonicToBytes w mnemonicWords (List.replicate bip39EntropyLenMax 0)).1

end Wallet
end PtpCore
