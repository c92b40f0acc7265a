import PtpCore.Crypto.Sha256
import PtpCore.Crypto.Sha512

/-!
# The contexts of `sha256_*` and `sha512_*` (`ptp_crypto/sha2.cpp`, `ptp_crypto/hasher.cpp`)

The two families have the same text. They differ in the length of a word, in the transformation and
in the counter, which for `sha512_*` is a pair of words. A context keeps the bytes that do not fill a
block yet in `buffer`, which is memory for words: `REVERSE32` and `REVERSE64` turn the bytes
of each word around in place before the transformation reads it in the byte order of the host.
-/

namespace PtpCore
namespace Crypto

open Lib

/-- `sha256_Transform` of the 16 words of a block. -/
def Sha256.transformWords (s : Regs) (data : List UInt32) : Regs :=
  let (r, _) := (List.range 64).foldl (fun (r, w) j =>
    let w := schedule w j
    (round r (k256.getD j 0) (w.getD (j % 16) 0), w)) (s, data)
  ⟨s.a + r.a, s.b + r.b, s.c + r.c, s.d + r.d, s.e + r.e, s.f + r.f, s.g + r.g, s.h + r.h⟩

/-- What the two families differ in: words `W`, hash values `σ` and counters `κ`. -/
structure Sha2 (W σ κ : Type) where
  /-- `sizeof(sha2_word32)` or `sizeof(sha2_word64)`. -/
  wordLength : Nat
  ofNat : Nat → W
  toNat : W → Nat
  xor : W → W → W
  /-- `state[0]` to `state[7]`. -/
  words : σ → List W
  ofWords : List W → σ
  initialHashValue : σ
  transform : σ → List W → σ
  noBits : κ
  addBits : κ → Nat → κ
  /-- `bitcount >> 3`, of a pair the first word. -/
  bytes : κ → Nat
  /-- `buffer[14]` and `buffer[15]` of the last block. -/
  lengthWords : κ → List W

/-- `SHA256_CTX` or `SHA512_CTX`. -/
structure Sha2.Ctx (σ κ : Type) where
  state : σ
  bitcount : κ
  buffer : Bytes

namespace Sha2

variable {W σ κ : Type} (A : Sha2 W σ κ)

def blockLength : Nat := 16 * A.wordLength

def shortBlockLength : Nat := A.blockLength - 2 * A.wordLength

/-- A word of memory, in the byte order of the host. -/
def load (m : Bytes) (i : Nat) : W :=
  A.ofNat (ofBE (slice m (i * A.wordLength) A.wordLength).reverse)

def store (x : W) : Bytes := (toBE A.wordLength (A.toNat x)).reverse

def loadBlock (m : Bytes) : List W := (List.range 16).map (A.load m)

def storeAll (xs : List W) : Bytes := xs.flatMap A.store

/-- The loop over `REVERSE32` or `REVERSE64` of the first `n` words. -/
def reverse (n : Nat) (m : Bytes) : Bytes :=
  mapBlocks A.wordLength List.reverse n m ++ m.drop (n * A.wordLength)

def init : Ctx σ κ where
  state := A.initialHashValue
  bitcount := A.noBits
  buffer := List.replicate A.blockLength 0

/-- `n` passes of the `while`, each over a block that is copied to `buffer` first. -/
def wholeBlocks : Nat → Ctx σ κ → Bytes → Ctx σ κ × Bytes
  | 0, c, data => (c, data)
  | n + 1, c, data =>
    let buffer := overwrite c.buffer 0 (data.take A.blockLength)
    let buffer := A.reverse 16 buffer
    let c := {
      state := A.transform c.state (A.loadBlock buffer)
      bitcount := A.addBits c.bitcount (A.blockLength <<< 3)
      buffer }
    wholeBlocks n c (data.drop A.blockLength)

/-- The second half of the update, when nothing waits in `buffer`. -/
def updateBlocks (c : Ctx σ κ) (data : Bytes) : Ctx σ κ :=
  let (c, data) := A.wholeBlocks (data.length / A.blockLength) c data
  if data.length > 0 then
    { c with
      buffer := overwrite c.buffer 0 data
      bitcount := A.addBits c.bitcount (data.length <<< 3) }
  else c

def update (c : Ctx σ κ) (data : Bytes) : Ctx σ κ :=
  if data.length = 0 then c
  else
    let usedspace := A.bytes c.bitcount % A.blockLength
    if usedspace > 0 then
      let freespace := A.blockLength - usedspace
      if data.length ≥ freespace then
        let buffer := overwrite c.buffer usedspace (data.take freespace)
        let bitcount := A.addBits c.bitcount (freespace <<< 3)
        let buffer := A.reverse 16 buffer
        let state := A.transform c.state (A.loadBlock buffer)
        A.updateBlocks ⟨state, bitcount, buffer⟩ (data.drop freespace)
      else
        { c with
          buffer := overwrite c.buffer usedspace data
          bitcount := A.addBits c.bitcount (data.length <<< 3) }
    else A.updateBlocks c data

/-- The last transformation, `usedspace` bytes of `buffer` being set. -/
def lastBlock (state : σ) (bitcount : κ) (buffer : Bytes) (usedspace : Nat) : σ :=
  let buffer := overwrite buffer usedspace (List.replicate (A.shortBlockLength - usedspace) 0)
  let buffer := A.reverse 14 buffer
  let buffer := overwrite buffer (14 * A.wordLength) (A.storeAll (A.lengthWords bitcount))
  A.transform state (A.loadBlock buffer)

/-- The hash value in front of the output. -/
def last (c : Ctx σ κ) : σ :=
  let usedspace := A.bytes c.bitcount % A.blockLength
  let buffer := overwrite c.buffer usedspace [0x80]
  let usedspace := usedspace + 1
  if usedspace > A.shortBlockLength then
    let buffer := overwrite buffer usedspace (List.replicate (A.blockLength - usedspace) 0)
    let buffer := A.reverse 16 buffer
    let state := A.transform c.state (A.loadBlock buffer)
    A.lastBlock state c.bitcount buffer 0
  else A.lastBlock c.state c.bitcount buffer usedspace

/-- The digest. The context is cleared afterwards. -/
def final (c : Ctx σ κ) : Bytes := A.reverse 8 (A.storeAll (A.words (A.last c)))

def raw (data : Bytes) : Bytes := A.final (A.update A.init data)

end Sha2

/-- `sha256_*`. -/
def sha2With256 : Sha2 UInt32 Sha256.Regs UInt64 where
  wordLength := 4
  ofNat := UInt32.ofNat
  toNat := UInt32.toNat
  xor x y := x ^^^ y
  words s := [s.a, s.b, s.c, s.d, s.e, s.f, s.g, s.h]
  ofWords x := ⟨x.getD 0 0, x.getD 1 0, x.getD 2 0, x.getD 3 0, x.getD 4 0, x.getD 5 0, x.getD 6 0,
    x.getD 7 0⟩
  initialHashValue := Sha256.initialHashValue
  transform := Sha256.transformWords
  noBits := 0
  addBits bitcount n := bitcount + UInt64.ofNat n
  bytes bitcount := (bitcount >>> 3).toNat
  lengthWords bitcount := [(bitcount >>> 32).toUInt32, (bitcount &&& 0xffffffff).toUInt32]

/-- `ADDINC128`. -/
def addInc128 (w : UInt64 × UInt64) (n : Nat) : UInt64 × UInt64 :=
  let low := w.1 + UInt64.ofNat n
  if low < UInt64.ofNat n then (low, w.2 + 1) else (low, w.2)

/-- `sha512_*`. -/
def sha2With512 : Sha2 UInt64 Sha512.Regs (UInt64 × UInt64) where
  wordLength := 8
  ofNat := UInt64.ofNat
  toNat := UInt64.toNat
  xor x y := x ^^^ y
  words s := [s.a, s.b, s.c, s.d, s.e, s.f, s.g, s.h]
  ofWords x := ⟨x.getD 0 0, x.getD 1 0, x.getD 2 0, x.getD 3 0, x.getD 4 0, x.getD 5 0, x.getD 6 0,
    x.getD 7 0⟩
  initialHashValue := Sha512.initialHashValue
  transform := Sha512.transform
  noBits := (0, 0)
  addBits := addInc128
  bytes bitcount := (bitcount.1 >>> 3).toNat
  lengthWords bitcount := [bitcount.2, bitcount.1]

abbrev Sha256Ctx : Type := Sha2.Ctx Sha256.Regs UInt64

def sha256Init : Sha256Ctx := sha2With256.init

def sha256Update (context : Sha256Ctx) (data : Bytes) : Sha256Ctx := sha2With256.update context data

def sha256Final (context : Sha256Ctx) : Bytes := sha2With256.final context

def sha256Raw (data : Bytes) : Bytes := sha2With256.raw data

abbrev Sha512Ctx : Type := Sha2.Ctx Sha512.Regs (UInt64 × UInt64)

def sha512Init : Sha512Ctx := sha2With512.init

def sha512Update (context : Sha512Ctx) (data : Bytes) : Sha512Ctx := sha2With512.update context data

def sha512Final (context : Sha512Ctx) : Bytes := sha2With512.final context

def sha512Raw (data : Bytes) : Bytes := sha2With512.raw data

/-! ## `Hasher` -/

inductive HasherType
  | sha2
  | blake
  | sha2d
  | blaked
  deriving DecidableEq, Repr

structure Hasher where
  type : HasherType
  ctx : Sha256Ctx

/-- `hasher_Init`, of a structure whose context is `old` so far. -/
def hasherInit (old : Sha256Ctx) (type : HasherType) : Hasher :=
  if type = .sha2 ∨ type = .sha2d then ⟨type, sha256Init⟩ else ⟨type, old⟩

def hasherReset (hasher : Hasher) : Hasher := hasherInit hasher.ctx hasher.type

def hasherUpdate (hasher : Hasher) (data : Bytes) : Hasher :=
  if hasher.type = .sha2 ∨ hasher.type = .sha2d then
    { hasher with ctx := sha256Update hasher.ctx data }
  else hasher

/-- `hasher_Raw` with `HASHER_SHA2`, into `hash`. -/
def hasherRawSha2 (old : Sha256Ctx) (data : Bytes) : Bytes :=
  sha256Final (hasherUpdate (hasherInit old .sha2) data).ctx

/-- `hasher_Final` into `hash`: with a type that has no code the bytes there stay. The call of
    `hasher_Raw` for `HASHER_BLAKED` is one of those. -/
def hasherFinal (hasher : Hasher) (old : Sha256Ctx) (hash : Bytes) : Bytes :=
  match hasher.type with
  | .sha2 => sha256Final hasher.ctx
  | .sha2d => hasherRawSha2 old (sha256Final hasher.ctx)
  | .blake => hash
  | .blaked => hash

def hasherRaw (old : Sha256Ctx) (type : HasherType) (data hash : Bytes) : Bytes :=
  hasherFinal (hasherUpdate (hasherInit old type) data) old hash

end Crypto
end PtpCore
