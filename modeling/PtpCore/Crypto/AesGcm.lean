import PtpCore.Lib.Bytes

/-!
# AES-GCM (`ptp_crypto/aes_encryption.cpp`)

A message is sealed as its 16 byte tag followed by the ciphertext. The mode itself is OpenSSL's
and is a parameter: a key stream that is xored into the text in either direction, and a tag over
the associated data and the ciphertext. Around it this is the code, with the order of its calls,
each of which may fail, the number of associated bytes that each direction feeds, and the way the
result of the last call is read.

The frame of `aes_gcm_encrypt` has two arrays that the length of the text is never compared with.
The ciphertext is written to `outBuf`, and then copied to `tag + 16`, behind the end of `tag`. How
many bytes may be written there is a matter of the layout of the frame: `behindTag`.
-/

namespace PtpCore
namespace Crypto

open Lib

/-- AES-256-GCM with an iv of 16 bytes. -/
structure Gcm where
  /-- The key stream xored into a text. -/
  ctr : (key iv text : Bytes) → Bytes
  tag : (key iv aad ciphertext : Bytes) → Bytes
  length_ctr : ∀ key iv text, (ctr key iv text).length = text.length
  ctr_ctr : ∀ key iv text, ctr key iv (ctr key iv text) = text
  length_tag : ∀ key iv aad ciphertext, (tag key iv aad ciphertext).length = 16

/-- The calls whose result is tested. -/
inductive EvpCall
  | ctxNew
  | initCipher
  | setIvLen
  | initKey
  | setTag
  | updateAad
  | update
  | encryptFinal
  | getTag
  deriving DecidableEq, Repr

/-- How a call ends without a length: with -1, or by writing outside the frame. -/
inductive GcmStop
  | failed
  | overrun
  deriving DecidableEq, Repr

/-- `if (!EVP_...) return -1`. -/
def evpCall (ok : EvpCall → Bool) (c : EvpCall) : Except GcmStop Unit :=
  if ok c then .ok () else .error .failed

/-- `unsigned char outBuf[1024000]`. -/
def outBufLen : Nat := 1024000

/-- `sizeof(aad)` where `aad` is a pointer. -/
def sizeofPointer : Nat := 8

/-- `if (nullptr != aad)` and the first `n` bytes of it. -/
def feedAad (ok : EvpCall → Bool) (n : Nat) : Option Bytes → Except GcmStop Bytes
  | none => .ok []
  | some aad => do
    evpCall ok .updateAad
    return aad.take n

/-- The bytes at `ciphertext`, whose number is returned. -/
def aesGcmEncrypt (gcm : Gcm) (behindTag : Nat) (ok : EvpCall → Bool) (plaintext key iv : Bytes)
    (aad : Option Bytes) : Except GcmStop Bytes := do
  evpCall ok .ctxNew
  evpCall ok .initCipher
  evpCall ok .setIvLen
  evpCall ok .initKey
  let fed ← feedAad ok 16 aad
  evpCall ok .update
  if outBufLen < plaintext.length then throw .overrun
  let outBuf := gcm.ctr key iv plaintext
  evpCall ok .getTag
  let tag := gcm.tag key iv fed outBuf
  evpCall ok .encryptFinal
  -- `copy_n` to `tag + 16`, and `memcpy` of everything from `tag` on
  if behindTag < outBuf.length then throw .overrun
  return tag ++ outBuf

/-! ## What encryption writes -/

/-- The arrays that `aes_gcm_encrypt` writes to. -/
inductive GcmArray
  | outBuf
  | tag
  | ciphertext
  deriving DecidableEq, Repr

/-- `outBuf[1024000]`, `tag[16]`, and the `cipherData[1024*1024]` of either caller. -/
def GcmArray.size : GcmArray → Nat
  | .outBuf => outBufLen
  | .tag => 16
  | .ciphertext => 1024 * 1024

/-- `count` bytes from `offset` on. -/
structure GcmStore where
  array : GcmArray
  offset : Nat
  count : Nat
  deriving DecidableEq, Repr

/-- A function, and the stores it has made when it returns. -/
abbrev Storing := ExceptT GcmStop (StateM (List GcmStore))

def storeTo (array : GcmArray) (offset count : Nat) : Storing Unit :=
  modify (· ++ [⟨array, offset, count⟩])

/-- `aes_gcm_encrypt` in a memory without ends, with what it writes in it. A call that fails has
    written nothing. -/
def aesGcmEncryptStores (gcm : Gcm) (ok : EvpCall → Bool) (plaintext : Bytes) (plaintextLen : Int)
    (key iv : Bytes) (aad : Option Bytes) : Storing Bytes := do
  evpCall ok .ctxNew
  evpCall ok .initCipher
  evpCall ok .setIvLen
  evpCall ok .initKey
  let fed ← feedAad ok 16 aad
  -- a negative length is refused, as in the other direction
  if plaintextLen < 0 then throw .failed
  evpCall ok .update
  let len := plaintextLen.toNat
  let outBuf := gcm.ctr key iv (plaintext.take len)
  storeTo .outBuf 0 len
  -- `EVP_EncryptFinal_ex` has no bytes left to write; its result is looked at below
  evpCall ok .getTag
  let tag := gcm.tag key iv fed outBuf
  storeTo .tag 0 16
  evpCall ok .encryptFinal
  storeTo .tag 16 len
  storeTo .ciphertext 0 (len + 16)
  return tag ++ outBuf

/-! ## Decryption -/

/-- The bytes at `plaintext`, whose number is returned. `EVP_DecryptFinal_ex` answers 1 or 0, and
    leaves `len` at 0 either way. -/
def aesGcmDecrypt (gcm : Gcm) (ok : EvpCall → Bool) (ciphertext key iv : Bytes)
    (aad : Option Bytes) : Except GcmStop Bytes := do
  let tag := ciphertext.take 16
  evpCall ok .ctxNew
  evpCall ok .initCipher
  evpCall ok .setIvLen
  evpCall ok .initKey
  evpCall ok .setTag
  let fed ← feedAad ok sizeofPointer aad
  -- `ciphertext_len-16` is a negative length for a short ciphertext, which the call refuses
  if ciphertext.length < 16 then throw .failed
  evpCall ok .update
  let body := ciphertext.drop 16
  let ret : Int := if gcm.tag key iv fed body = tag then 1 else 0
  if ret ≥ 0 then return gcm.ctr key iv body
  else throw .failed

end Crypto
end PtpCore
