import PtpCore.Crypto.Base58
import PtpCore.Crypto.Sha2

/-!
# Base 58 back to bytes, with a checksum (`ptp_crypto/base58.cpp`)

`b58tobin` multiplies a number of 32-bit words by 58 for each digit and fails when it no longer fits.
`base58_decode_check` then compares the last four bytes with the hash of those before them, and
the zeros in front with the ones in front of the text. Both work on memory of a fixed size:
what happens when they step outside of it is not defined, and is `none` here.

`b58enc` of `Crypto/Base58.lean` always runs over its whole block. The loop of the source stops at the
last digit it has written so far; `b58encHigh` is that loop.
-/

namespace PtpCore
namespace Crypto

open Lib

/-! ## The loop of the encoder -/

/-- The inner loop of `b58enc`, over the block from its end: `u` digits were written so far. The
    carry must not leave the block. -/
def carryHigh : Nat → Nat → List Nat → Option (List Nat × Nat)
  | u, carry, [] => if u > 0 ∨ carry ≠ 0 then none else some ([], 0)
  | u, carry, d :: rest =>
    if u > 0 ∨ carry ≠ 0 then
      (carryHigh (u - 1) ((carry + 256 * d) / 58) rest).map fun (rest, n) =>
        ((carry + 256 * d) % 58 :: rest, n + 1)
    else some (d :: rest, 0)

/-- The outer loop, from a block and what was written of it. -/
def encodeHigh : List Nat × Nat → Bytes → Option (List Nat × Nat)
  | buf, [] => some buf
  | (buf, u), x :: rest => (carryHigh u x.toNat buf).bind fun buf => encodeHigh buf rest

/-- `b58enc`: outside `none` when it writes in front of its block, inside when the text does not
    fit. -/
def b58encHigh (bin : Bytes) (b58sz : Nat) : Option (Option Bytes) :=
  let zcount := (bin.takeWhile (· == 0)).length
  let size := (bin.length - zcount) * 138 / 100 + 1
  (encodeHigh (List.replicate size 0, 0) (bin.drop zcount)).map fun (buf, _) =>
    let digits := buf.reverse.dropWhile (· == 0)
    if b58sz ≤ zcount + digits.length then none
    else some (List.replicate zcount 0x31 ++ digits.map fun d => b58digits.getD d 0)

/-! ## The decoder -/

def b58digitsMap : List Int :=
  [-1, -1, -1, -1, -1, -1, -1, -1, -1, -1, -1, -1, -1, -1, -1, -1,
    -1, -1, -1, -1, -1, -1, -1, -1, -1, -1, -1, -1, -1, -1, -1, -1,
    -1, -1, -1, -1, -1, -1, -1, -1, -1, -1, -1, -1, -1, -1, -1, -1,
    -1, 0, 1, 2, 3, 4, 5, 6, 7, 8, -1, -1, -1, -1, -1, -1,
    -1, 9, 10, 11, 12, 13, 14, 15, 16, -1, 17, 18, 19, 20, 21, -1,
    22, 23, 24, 25, 26, 27, 28, 29, 30, 31, 32, -1, -1, -1, -1, -1,
    -1, 33, 34, 35, 36, 37, 38, 39, 40, 41, 42, 43, -1, 44, 45, 46,
    47, 48, 49, 50, 51, 52, 53, 54, 55, 56, 57, -1, -1, -1, -1, -1]

/-- `outi[j] * 58 + c` from the last word to the first, and the `c` that is left. -/
def outiTimes58 (c : UInt32) : List UInt32 → List UInt32 × UInt32
  | [] => ([], c)
  | d :: rest =>
    let (rest, c) := outiTimes58 c rest
    let t := d.toUInt64 * 58 + c.toUInt64
    ((t &&& 0xffffffff).toUInt32 :: rest, ((t &&& 0x3f00000000) >>> 32).toUInt32)

/-- `zeromask`, for `binsz` bytes. -/
def zeromask (binsz : Nat) : UInt32 :=
  if binsz % 4 ≠ 0 then 0xffffffff <<< UInt32.ofNat (binsz % 4 * 8) else 0

/-- The loop over the digits; `none` for a character that is none, or a number too big. -/
def outiOf (binsz : Nat) : List UInt32 → Bytes → Option (List UInt32)
  | outi, [] => some outi
  | outi, x :: rest =>
    if x &&& 0x80 ≠ 0 then none
    else if b58digitsMap.getD x.toNat (-1) = -1 then none
    else
      let (outi, c) := outiTimes58 (UInt32.ofNat (b58digitsMap.getD x.toNat (-1)).toNat) outi
      if c ≠ 0 then none
      else if outi.getD 0 0 &&& zeromask binsz ≠ 0 then none
      else outiOf binsz outi rest

/-- The bytes of the first word that are written. -/
def firstBytes (x : UInt32) (bytesleft : Nat) : Bytes :=
  (if bytesleft = 3 then [((x &&& 0xff0000) >>> 16).toUInt8] else []) ++
    (if bytesleft = 3 ∨ bytesleft = 2 then [((x &&& 0xff00) >>> 8).toUInt8] else []) ++
    (if bytesleft = 3 ∨ bytesleft = 2 ∨ bytesleft = 1 then [(x &&& 0xff).toUInt8] else [])

def wordBytes (x : UInt32) : Bytes :=
  [((x >>> 0x18) &&& 0xff).toUInt8, ((x >>> 0x10) &&& 0xff).toUInt8, ((x >>> 8) &&& 0xff).toUInt8,
    ((x >>> 0) &&& 0xff).toUInt8]

/-- `b58tobin` into `binsz` bytes, which are more than none: the bytes, and `*binszp` afterwards. -/
def b58tobin (binsz : Nat) (b58 : Bytes) : Option (Bytes × Nat) :=
  let b58u := cString b58
  let zerocount := (b58u.takeWhile (· == 0x31)).length
  let outisz := (binsz + 3) / 4
  (outiOf binsz (List.replicate outisz 0) (b58u.drop zerocount)).bind fun outi =>
    let bytesleft := binsz % 4
    let bin := firstBytes (outi.getD 0 0) bytesleft ++
      (if bytesleft = 0 then outi else outi.drop 1).flatMap wordBytes
    let i := (bin.takeWhile (· == 0)).length
    if i < binsz ∧ zerocount > i then none else some (bin, binsz - i + zerocount)

/-- The loop over the zeros in front, from position `i` of `binc`, which ends with the block it
    lies in: where it stops. -/
def zerosEnd : Bytes → Bytes → Option (Bytes × Bytes)
  | [], _ => none
  | b :: binc, str =>
    if b = 0 ∧ str.head? = some 0x31 then zerosEnd binc str.tail else some (b :: binc, str)

/-- `b58check`, with `hash` the first bytes of the digest, of the `binsz` bytes at the front of
    `binc`. The code is what it returns below zero, or the first byte. -/
def b58check (hash : Bytes → Bytes) (binc : Bytes) (binsz : Nat) (base58str : Bytes) :
    Option Int :=
  if binsz < 4 then some (-4)
  else
    let buf := hash (binc.take (binsz - 4))
    if ofBE (slice binc (binsz - 4) 4) > ofBE (buf.take 4) then some (-1)
    else
      (zerosEnd (binc.take binsz) base58str).map fun (binc', str) =>
        if binc'.head? = some 0 ∨ str.head? = some 0x31 then -3
        else ((binc.getD 0 0).toNat : Int)

/-- `base58_decode_check` with room for `datalen` bytes: outside `none` when it leaves the block
    `d`, inside when it returns zero. -/
def base58DecodeCheck (hash : Bytes → Bytes) (str : Bytes) (datalen : Nat) :
    Option (Option Bytes) :=
  if datalen > 128 then some none
  else
    match b58tobin (datalen + 4) str with
    | none => some none
    | some (d, res) =>
      if datalen + 4 < res then none
      else
        let nd := d.drop (datalen + 4 - res)
        (b58check hash nd res (cString str)).map fun code =>
          if code < 0 then none else some (nd.take (res - 4))

end Crypto
end PtpCore
