import PtpCore.Crypto.Base64

/-!
# `CAes` (`ptp_crypto/AesSimple.cpp`)

A text is filled up with zeros to whole blocks, with its length in the last four bytes; the blocks
are encrypted one by one, and the result is written in base64. There is no iv and no tag, so what
`Decrypt` makes of a text that was not made by `Encrypt` is up to the block cipher, and so is the
length it finds in it.
-/

namespace PtpCore
namespace Crypto

open Lib

/-- AES with keys of 256 bits, one block of sixteen bytes. -/
structure Aes where
  encrypt : (key block : Bytes) → Bytes
  decrypt : (key block : Bytes) → Bytes
  length_encrypt : ∀ key block, block.length = 16 → (encrypt key block).length = 16
  length_decrypt : ∀ key block, block.length = 16 → (decrypt key block).length = 16
  decrypt_encrypt : ∀ key block, block.length = 16 → decrypt key (encrypt key block) = block

/-- The key that both schedules are made from. -/
structure CAes where
  strKey : Bytes
  deriving DecidableEq, Repr

namespace CAes

/-- `CAes(const string& strKey)`, which reads 256 bits. -/
def new (strKey : Bytes) : CAes := ⟨strKey.take 32⟩

/-- `-1`, or a store behind the block when the number of blocks has wrapped around. -/
inductive EncryptStop
  | returned (ret : Int)
  | overrun
  deriving DecidableEq, Repr

/-- How many blocks `Encrypt` makes of a text, in 32 bits. -/
def blockCount (nInLen : Nat) : Nat :=
  let nRemain := nInLen % 16
  let nBlocks := (nInLen + 15) % 2 ^ 32 / 16
  if nRemain > 12 ∨ nRemain = 0 then nBlocks + 1 else nBlocks

/-- `CAes::Encrypt`: the text at `*ppOutData`, whose length is `nOutLen`. -/
def encrypt (aes : Aes) (c : CAes) (inData : Bytes) : Except EncryptStop Bytes :=
  let nInLen := inData.length % 2 ^ 32
  if nInLen = 0 then .error (.returned (-1))
  else
    let nBlocks := blockCount nInLen
    let nEncryptLen := nBlocks * 16 % 2 ^ 32
    if nEncryptLen < nInLen then .error .overrun
    else
      let data := overwrite (List.replicate nEncryptLen 0) 0 (inData.take nInLen)
      let data := overwrite data (nEncryptLen - 4) (toBE 4 nInLen)
      .ok (base64Encode (mapBlocks 16 (aes.encrypt c.strKey) nBlocks data))

/-- What a call of `Decrypt` leaves: its result, the bytes up to the zero at `*ppOutData`, and
    `nOutLen`, the latter two if they were set. -/
structure Decrypted where
  ret : Int
  outData : Option Bytes
  nOutLen : Option Nat
  deriving DecidableEq, Repr

def decrypt (aes : Aes) (c : CAes) (inData : Bytes) : Decrypted :=
  let nInLen := inData.length % 2 ^ 32
  if nInLen = 0 then ⟨-1, none, none⟩
  else
    let strResult := base64Decode (inData.take nInLen)
    let nLen := strResult.length % 2 ^ 32
    if nLen = 0 then ⟨-2, none, none⟩
    else if nLen % 16 ≠ 0 then ⟨-3, none, none⟩
    else
      let tmp := mapBlocks 16 (aes.decrypt c.strKey) (nLen / 16) strResult
      let nOutLen := ofBE (slice tmp (nLen - 4) 4)
      if nOutLen > nLen then ⟨-4, none, some nOutLen⟩
      else ⟨0, some (tmp.take nOutLen), some nOutLen⟩

end CAes

end Crypto
end PtpCore
