import PtpCore.Lib.Bytes

/-!
# SHA-256 (`ptp_crypto/sha2.cpp`)

The digest as the source computes it for one `sha256_Update` between `sha256_Init` and
`sha256_Final`: whole blocks are transformed as they come, the rest is padded with `0x80`, zeros
and the bit count. `sha256_Transform` is its rolled form, with the message schedule kept in a
ring of 16 words. No proof in this development looks inside, beyond the length of a digest.
-/

namespace PtpCore
namespace Crypto

open Lib

namespace Sha256

def rotr32 (b x : UInt32) : UInt32 := (x >>> b) ||| (x <<< (32 - b))

def ch (x y z : UInt32) : UInt32 := (x &&& y) ^^^ (~~~x &&& z)

def maj (x y z : UInt32) : UInt32 := (x &&& y) ^^^ (x &&& z) ^^^ (y &&& z)

/-- `Sigma0_256`, and below it `Sigma1_256` and the two `sigma` of the schedule. -/
def bigSigma0 (x : UInt32) : UInt32 := rotr32 2 x ^^^ rotr32 13 x ^^^ rotr32 22 x

def bigSigma1 (x : UInt32) : UInt32 := rotr32 6 x ^^^ rotr32 11 x ^^^ rotr32 25 x

def sigma0 (x : UInt32) : UInt32 := rotr32 7 x ^^^ rotr32 18 x ^^^ (x >>> 3)

def sigma1 (x : UInt32) : UInt32 := rotr32 17 x ^^^ rotr32 19 x ^^^ (x >>> 10)

def k256 : List UInt32 :=
  [0x428a2f98, 0x71374491, 0xb5c0fbcf, 0xe9b5dba5, 0x3956c25b, 0x59f111f1, 0x923f82a4, 0xab1c5ed5,
    0xd807aa98, 0x12835b01, 0x243185be, 0x550c7dc3, 0x72be5d74, 0x80deb1fe, 0x9bdc06a7, 0xc19bf174,
    0xe49b69c1, 0xefbe4786, 0x0fc19dc6, 0x240ca1cc, 0x2de92c6f, 0x4a7484aa, 0x5cb0a9dc, 0x76f988da,
    0x983e5152, 0xa831c66d, 0xb00327c8, 0xbf597fc7, 0xc6e00bf3, 0xd5a79147, 0x06ca6351, 0x14292967,
    0x27b70a85, 0x2e1b2138, 0x4d2c6dfc, 0x53380d13, 0x650a7354, 0x766a0abb, 0x81c2c92e, 0x92722c85,
    0xa2bfe8a1, 0xa81a664b, 0xc24b8b70, 0xc76c51a3, 0xd192e819, 0xd6990624, 0xf40e3585, 0x106aa070,
    0x19a4c116, 0x1e376c08, 0x2748774c, 0x34b0bcb5, 0x391c0cb3, 0x4ed8aa4a, 0x5b9cca4f, 0x682e6ff3,
    0x748f82ee, 0x78a5636f, 0x84c87814, 0x8cc70208, 0x90befffa, 0xa4506ceb, 0xbef9a3f7, 0xc67178f2]

/-- The eight registers `a` to `h`. -/
structure Regs where
  a : UInt32
  b : UInt32
  c : UInt32
  d : UInt32
  e : UInt32
  f : UInt32
  g : UInt32
  h : UInt32

/-- `sha256_initial_hash_value`. -/
def initialHashValue : Regs where
  a := 0x6a09e667
  b := 0xbb67ae85
  c := 0x3c6ef372
  d := 0xa54ff53a
  e := 0x510e527f
  f := 0x9b05688c
  g := 0x1f83d9ab
  h := 0x5be0cd19

/-- One round, with the word of the schedule it uses. -/
def round (r : Regs) (k w : UInt32) : Regs :=
  let t1 := r.h + bigSigma1 r.e + ch r.e r.f r.g + k + w
  let t2 := bigSigma0 r.a + maj r.a r.b r.c
  ⟨t1 + t2, r.a, r.b, r.c, r.d + t1, r.e, r.f, r.g⟩

/-- `W256` before round `j`: from round 16 on, the oldest word is replaced. -/
def schedule (w : List UInt32) (j : Nat) : List UInt32 :=
  if j < 16 then w
  else
    w.set (j % 16) (w.getD (j % 16) 0 + (sigma1 (w.getD ((j + 14) % 16) 0) +
      w.getD ((j + 9) % 16) 0 + sigma0 (w.getD ((j + 1) % 16) 0)))

/-- `sha256_Transform` of a block of 64 bytes. -/
def transform (s : Regs) (block : Bytes) : Regs :=
  let data := (List.range 16).map fun i => UInt32.ofNat (ofBE (slice block (4 * i) 4))
  let (r, _) := (List.range 64).foldl (fun (r, w) j =>
    let w := schedule w j
    (round r (k256.getD j 0) (w.getD (j % 16) 0), w)) (s, data)
  ⟨s.a + r.a, s.b + r.b, s.c + r.c, s.d + r.d, s.e + r.e, s.f + r.f, s.g + r.g, s.h + r.h⟩

/-- `sha256_Final`, with `rest` in the buffer after `bitcount` bits. -/
def final (s : Regs) (rest : Bytes) (bitcount : Nat) : Bytes :=
  let buffer := rest ++ [0x80]
  let (s, buffer) :=
    if buffer.length > 56 then
      (transform s (buffer ++ List.replicate (64 - buffer.length) 0), [])
    else (s, buffer)
  let r := transform s (buffer ++ List.replicate (56 - buffer.length) 0 ++ toBE 8 bitcount)
  [r.a, r.b, r.c, r.d, r.e, r.f, r.g, r.h].flatMap fun x => toBE 4 x.toNat

end Sha256

/-- `sha256_Init`, `sha256_Update`, `sha256_Final`. -/
def sha256 (data : Bytes) : Bytes :=
  let blocks := data.length / 64
  let s := (List.range blocks).foldl (fun s i => Sha256.transform s (slice data (64 * i) 64))
    Sha256.initialHashValue
  Sha256.final s (data.drop (64 * blocks)) (8 * data.length)

@[simp] theorem length_sha256 (data : Bytes) : (sha256 data).length = 32 := by
  simp [sha256, Sha256.final]

end Crypto
end PtpCore
