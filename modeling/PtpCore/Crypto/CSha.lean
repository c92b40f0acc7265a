import PtpCore.Crypto.Sha2

/-!
# The classes `CSHA256` and `CSHA512` (`ptp_crypto/sha256.cpp`, `ptp_crypto/sha512.cpp`)

The second implementation of both hashes. Its rounds are unrolled: instead of moving the registers,
each line of a group of eight names them in a new order, and only two of them are written. The words
of the schedule are variables of their own, and the last two lines do not store theirs. A context
counts bytes, in 64 bits for both classes.
-/

namespace PtpCore
namespace Crypto

open Lib

/-- `s[0]` to `s[7]`, or the variables `a` to `h`. -/
structure Vars (W : Type) where
  a : W
  b : W
  c : W
  d : W
  e : W
  f : W
  g : W
  h : W

/-- What the rounds of the two classes differ in. -/
structure Unrolled (W : Type) where
  ch : W → W → W → W
  maj : W → W → W → W
  bigSigma0 : W → W
  bigSigma1 : W → W
  sigma0 : W → W
  sigma1 : W → W
  /-- The constants of the lines. -/
  constants : List W
  zero : W

namespace Unrolled

variable {W : Type} [Add W] (R : Unrolled W)

/-- `Round`: the new values of its arguments `d` and `h`. -/
def round (a b c d e f g h k w : W) : W × W :=
  let t1 := h + R.bigSigma1 e + R.ch e f g + k + w
  let t2 := R.bigSigma0 a + R.maj a b c
  (d + t1, t1 + t2)

/-- The last argument of line `j`, and the words after it. -/
def word (w : List W) (j : Nat) : W × List W :=
  let at' (i : Nat) : W := w.getD (i % 16) R.zero
  if j < 16 then (at' j, w)
  else if j < R.constants.length - 2 then
    let x := at' j + (R.sigma1 (at' (j + 14)) + at' (j + 9) + R.sigma0 (at' (j + 1)))
    (x, w.set (j % 16) x)
  else (at' j + R.sigma1 (at' (j + 14)) + at' (j + 9) + R.sigma0 (at' (j + 1)), w)

def constant (j : Nat) : W := R.constants.getD j R.zero

/-- The lines `8 * p` to `8 * p + 7`. -/
def eightLines (vars : Vars W × List W) (p : Nat) : Vars W × List W :=
  let (⟨a, b, c, d, e, f, g, h⟩, w) := vars
  let j := 8 * p
  let (x, w) := R.word w j
  let (d, h) := R.round a b c d e f g h (R.constant j) x
  let (x, w) := R.word w (j + 1)
  let (c, g) := R.round h a b c d e f g (R.constant (j + 1)) x
  let (x, w) := R.word w (j + 2)
  let (b, f) := R.round g h a b c d e f (R.constant (j + 2)) x
  let (x, w) := R.word w (j + 3)
  let (a, e) := R.round f g h a b c d e (R.constant (j + 3)) x
  let (x, w) := R.word w (j + 4)
  let (h, d) := R.round e f g h a b c d (R.constant (j + 4)) x
  let (x, w) := R.word w (j + 5)
  let (g, c) := R.round d e f g h a b c (R.constant (j + 5)) x
  let (x, w) := R.word w (j + 6)
  let (f, b) := R.round c d e f g h a b (R.constant (j + 6)) x
  let (x, w) := R.word w (j + 7)
  let (e, a) := R.round b c d e f g h a (R.constant (j + 7)) x
  (⟨a, b, c, d, e, f, g, h⟩, w)

/-- `Transform` of the 16 words of one chunk, which the first lines read. -/
def transform (s : Vars W) (words : List W) : Vars W :=
  let (v, _) := (List.range (R.constants.length / 8)).foldl R.eightLines (s, words)
  ⟨s.a + v.a, s.b + v.b, s.c + v.c, s.d + v.d, s.e + v.e, s.f + v.f, s.g + v.g, s.h + v.h⟩

end Unrolled

namespace Sha256

/-- The functions of `namespace sha256`. -/
def unrolled : Unrolled UInt32 where
  ch x y z := z ^^^ (x &&& (y ^^^ z))
  maj x y z := (x &&& y) ||| (z &&& (x ||| y))
  bigSigma0 x := (x >>> 2 ||| x <<< 30) ^^^ (x >>> 13 ||| x <<< 19) ^^^ (x >>> 22 ||| x <<< 10)
  bigSigma1 x := (x >>> 6 ||| x <<< 26) ^^^ (x >>> 11 ||| x <<< 21) ^^^ (x >>> 25 ||| x <<< 7)
  sigma0 x := (x >>> 7 ||| x <<< 25) ^^^ (x >>> 18 ||| x <<< 14) ^^^ (x >>> 3)
  sigma1 x := (x >>> 17 ||| x <<< 15) ^^^ (x >>> 19 ||| x <<< 13) ^^^ (x >>> 10)
  constants := k256
  zero := 0

end Sha256

namespace Sha512

/-- The functions of `namespace sha512`. -/
def unrolled : Unrolled UInt64 where
  ch x y z := z ^^^ (x &&& (y ^^^ z))
  maj x y z := (x &&& y) ||| (z &&& (x ||| y))
  bigSigma0 x := (x >>> 28 ||| x <<< 36) ^^^ (x >>> 34 ||| x <<< 30) ^^^ (x >>> 39 ||| x <<< 25)
  bigSigma1 x := (x >>> 14 ||| x <<< 50) ^^^ (x >>> 18 ||| x <<< 46) ^^^ (x >>> 41 ||| x <<< 23)
  sigma0 x := (x >>> 1 ||| x <<< 63) ^^^ (x >>> 8 ||| x <<< 56) ^^^ (x >>> 7)
  sigma1 x := (x >>> 19 ||| x <<< 45) ^^^ (x >>> 61 ||| x <<< 3) ^^^ (x >>> 6)
  constants := k512
  zero := 0

end Sha512

/-- What the two classes differ in. -/
structure CShaClass (W : Type) where
  blockLength : Nat
  /-- `Initialize`. -/
  initial : Vars W
  transform : Vars W → Bytes → Vars W
  /-- `sizedesc`, for the number of bytes. -/
  sizedesc : UInt64 → Bytes
  /-- What the length of the padding is computed from. -/
  padFrom : Nat
  /-- `WriteBE32` or `WriteBE64`. -/
  writeBE : W → Bytes

/-- The members of `CSHA256` or `CSHA512`. -/
structure CSha (W : Type) where
  s : Vars W
  buf : Bytes
  bytes : UInt64

namespace CShaClass

variable {W : Type} (K : CShaClass W)

def new : CSha W := ⟨K.initial, List.replicate K.blockLength 0, 0⟩

/-- The chunks that are transformed where they are. `CSHA256` takes them in one call. -/
def wholeChunks : Nat → CSha W → Bytes → CSha W × Bytes
  | 0, c, data => (c, data)
  | n + 1, c, data =>
    let c := { c with
      s := K.transform c.s (data.take K.blockLength)
      bytes := c.bytes + UInt64.ofNat K.blockLength }
    wholeChunks n c (data.drop K.blockLength)

/-- The second half of `Write`. -/
def writeChunks (c : CSha W) (bufsize : Nat) (data : Bytes) : CSha W :=
  let (c, data) := K.wholeChunks (data.length / K.blockLength) c data
  if data.length > 0 then
    { c with buf := overwrite c.buf bufsize data, bytes := c.bytes + UInt64.ofNat data.length }
  else c

def write (c : CSha W) (data : Bytes) : CSha W :=
  let bufsize := c.bytes.toNat % K.blockLength
  if bufsize ≠ 0 ∧ bufsize + data.length ≥ K.blockLength then
    let buf := overwrite c.buf bufsize (data.take (K.blockLength - bufsize))
    let c : CSha W :=
      ⟨K.transform c.s buf, buf, c.bytes + UInt64.ofNat (K.blockLength - bufsize)⟩
    K.writeChunks c 0 (data.drop (K.blockLength - bufsize))
  else K.writeChunks c bufsize data

/-- `Finalize`; `pad` is a mark with zeros behind it. -/
def finalize (c : CSha W) : Bytes :=
  let sizedesc := K.sizedesc c.bytes
  let pad := 0x80 :: List.replicate (K.blockLength - 1) 0
  let c := K.write c
    (pad.take (1 + (K.padFrom - c.bytes.toNat % K.blockLength) % K.blockLength))
  let c := K.write c sizedesc
  [c.s.a, c.s.b, c.s.c, c.s.d, c.s.e, c.s.f, c.s.g, c.s.h].flatMap K.writeBE

def reset (c : CSha W) : CSha W := { c with s := K.initial, bytes := 0 }

end CShaClass

/-- `CSHA256`, without the transformation that is written in assembly. -/
def csha256 : CShaClass UInt32 where
  blockLength := 64
  initial := ⟨0x6a09e667, 0xbb67ae85, 0x3c6ef372, 0xa54ff53a, 0x510e527f, 0x9b05688c, 0x1f83d9ab,
    0x5be0cd19⟩
  transform s chunk := Sha256.unrolled.transform s
    ((List.range 16).map fun i => UInt32.ofNat (ofBE (slice chunk (4 * i) 4)))
  sizedesc bytes := toBE 8 (bytes <<< 3).toNat
  padFrom := 119
  writeBE x := toBE 4 x.toNat

/-- `CSHA512`. -/
def csha512 : CShaClass UInt64 where
  blockLength := 128
  initial := ⟨0x6a09e667f3bcc908, 0xbb67ae8584caa73b, 0x3c6ef372fe94f82b, 0xa54ff53a5f1d36f1,
    0x510e527fade682d1, 0x9b05688c2b3e6c1f, 0x1f83d9abfb41bd6b, 0x5be0cd19137e2179⟩
  transform s chunk := Sha512.unrolled.transform s
    ((List.range 16).map fun i => UInt64.ofNat (ofBE (slice chunk (8 * i) 8)))
  sizedesc bytes := List.replicate 8 (0 : UInt8) ++ toBE 8 (bytes <<< 3).toNat
  padFrom := 239
  writeBE x := toBE 8 x.toNat

end Crypto
end PtpCore
