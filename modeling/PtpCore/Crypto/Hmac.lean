import PtpCore.Crypto.Sha2

/-!
# HMAC and PBKDF2 (`ptp_crypto/hmac.cpp`, `ptp_crypto/pbkdf2.cpp`, `ptp_wallet/bip39.cpp`)

`hmac_*` hashes the padded key and the message with the context of the hash. `pbkdf2_*` does not:
it keeps the two hash values behind the padded key, and the block `g` with the padding of a digest
behind a digest, and calls the transformation on it twice for each round.
-/

namespace PtpCore
namespace Crypto

open Lib

/-- `HMAC_SHA256_CTX` or `HMAC_SHA512_CTX`. -/
structure HmacCtx (σ κ : Type) where
  oKeyPad : Bytes
  ctx : Sha2.Ctx σ κ

/-- `PBKDF2_HMAC_SHA256_CTX` or `PBKDF2_HMAC_SHA512_CTX`. -/
structure Pbkdf2Ctx (W σ : Type) where
  odig : σ
  idig : σ
  f : List W
  g : List W
  first : Nat

section

variable {W σ κ : Type} (A : Sha2 W σ κ)

/-- `i_key_pad` and `key_pad`: zeros, and over them the key or its digest. -/
def keyPad (key : Bytes) : Bytes :=
  let pad := List.replicate A.blockLength 0
  if key.length > A.blockLength then overwrite pad 0 (A.raw key) else overwrite pad 0 key

def hmacInit (key : Bytes) : HmacCtx σ κ :=
  let iKeyPad := keyPad A key
  { oKeyPad := iKeyPad.map (· ^^^ 0x5c)
    ctx := A.update A.init (iKeyPad.map (· ^^^ 0x36)) }

def hmacUpdate (hctx : HmacCtx σ κ) (msg : Bytes) : HmacCtx σ κ :=
  { hctx with ctx := A.update hctx.ctx msg }

def hmacFinal (hctx : HmacCtx σ κ) : Bytes :=
  let hmac := A.final hctx.ctx
  let ctx := A.update A.init hctx.oKeyPad
  let ctx := A.update ctx hmac
  A.final ctx

def hmacRaw (key msg : Bytes) : Bytes := hmacFinal A (hmacUpdate A (hmacInit A key) msg)

/-- `0x5c5c5c5c` and the like. -/
def repeated (x : UInt8) : W := A.ofNat (ofBE (List.replicate A.wordLength x))

/-- `hmac_*_prepare`: `opad_digest` and `ipad_digest`. -/
def hmacPrepare (key : Bytes) : σ × σ :=
  let data := A.loadBlock (A.reverse 16 (keyPad A key))
  let opad := data.map fun x => A.xor x (repeated A 0x5c)
  let ipad := opad.map fun x => A.xor (A.xor x (repeated A 0x5c)) (repeated A 0x36)
  (A.transform A.initialHashValue opad, A.transform A.initialHashValue ipad)

/-- `g` with `g[0]` to `g[7]` written by a transformation. -/
def storeState (s : σ) (g : List W) : List W := A.words s ++ g.drop 8

/-- `g[8]` to `g[15]` before the first round. -/
def padding : List W :=
  A.ofNat (0x80 * 256 ^ (A.wordLength - 1)) :: (List.replicate 6 (A.ofNat 0) ++
    [A.ofNat ((A.blockLength + 8 * A.wordLength) * 8)])

/-- `pbkdf2_*_Init`; `junk` is what the memory of the context on the stack holds. -/
def pbkdf2Init (junk : Nat → UInt8) (pass salt : Bytes) : Pbkdf2Ctx W σ :=
  let (odig, idig) := hmacPrepare A pass
  let buffer := (List.range A.blockLength).map junk
  let ctx : Sha2.Ctx σ κ := ⟨idig, A.addBits A.noBits (A.blockLength * 8), buffer⟩
  let ctx := A.update ctx salt
  let ctx := A.update ctx [0, 0, 0, 1]
  let digest := A.reverse 8 (A.final ctx)
  let g := (List.range 8).map (A.load digest) ++ padding A
  let g := storeState A (A.transform odig g) g
  { odig, idig, f := g.take 8, g, first := 1 }

/-- The body of the loop of `pbkdf2_*_Update`. -/
def pbkdf2Round (pctx : Pbkdf2Ctx W σ) : Pbkdf2Ctx W σ :=
  let g := storeState A (A.transform pctx.idig pctx.g) pctx.g
  let g := storeState A (A.transform pctx.odig g) g
  { pctx with f := List.zipWith A.xor pctx.f (g.take 8), g }

def pbkdf2Update (pctx : Pbkdf2Ctx W σ) (iterations : Nat) : Pbkdf2Ctx W σ :=
  { (pbkdf2Round A)^[iterations - pctx.first] pctx with first := 0 }

def pbkdf2Final (pctx : Pbkdf2Ctx W σ) : Bytes := A.reverse 8 (A.storeAll pctx.f)

def pbkdf2Raw (junk : Nat → UInt8) (pass salt : Bytes) (iterations : Nat) : Bytes :=
  pbkdf2Final A (pbkdf2Update A (pbkdf2Init A junk pass salt) iterations)

end

/-- `hmac_sha256`. -/
def hmacSha256 (key msg : Bytes) : Bytes := hmacRaw sha2With256 key msg

/-- `hmac_sha512`, and `CHMAC_SHA512` with one `Write`. -/
def hmacSha512 (key msg : Bytes) : Bytes := hmacRaw sha2With512 key msg

/-- `pbkdf2_hmac_sha256`. -/
def pbkdf2HmacSha256 (junk : Nat → UInt8) (pass salt : Bytes) (iterations : Nat) : Bytes :=
  pbkdf2Raw sha2With256 junk pass salt iterations

/-- `pbkdf2_hmac_sha512`. -/
def pbkdf2HmacSha512 (junk : Nat → UInt8) (pass salt : Bytes) (iterations : Nat) : Bytes :=
  pbkdf2Raw sha2With512 junk pass salt iterations

/-- `bip39_mnemonic_to_seed` into a block of 64 bytes; `password` may be `NULL`. -/
def bip39MnemonicToSeed (junk : Nat → UInt8) (mnemonic : Bytes) (password : Option Bytes) :
    Bytes :=
  let bip9Cost := 2048
  let salt := "mnemonic".toUTF8.toList ++ cString (password.getD [])
  pbkdf2HmacSha512 junk (cString mnemonic) salt bip9Cost

end Crypto
end PtpCore
