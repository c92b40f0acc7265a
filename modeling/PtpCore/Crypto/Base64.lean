import PtpCore.Toolbox.Data

/-!
# Base64 (`ptp_crypto/Base64.cpp`)

Both directions collect bits in an `unsigned int` and never clear it: what is above the bits that
still count is shifted out or masked away. The decoder skips white space and `=` wherever they
stand, and answers the empty string for anything that is not a digit.
-/

namespace PtpCore
namespace Crypto

open Lib

def b64Table : Bytes := "ABCDEFGHIJKLMNOPQRSTUVWXYZabcdefghijklmnopqrstuvwxyz0123456789+/".toUTF8.toList

def reverseTable : Bytes := [
  64, 64, 64, 64, 64, 64, 64, 64, 64, 64, 64, 64, 64, 64, 64, 64,
  64, 64, 64, 64, 64, 64, 64, 64, 64, 64, 64, 64, 64, 64, 64, 64,
  64, 64, 64, 64, 64, 64, 64, 64, 64, 64, 64, 62, 64, 64, 64, 63,
  52, 53, 54, 55, 56, 57, 58, 59, 60, 61, 64, 64, 64, 64, 64, 64,
  64,  0,  1,  2,  3,  4,  5,  6,  7,  8,  9, 10, 11, 12, 13, 14,
  15, 16, 17, 18, 19, 20, 21, 22, 23, 24, 25, 64, 64, 64, 64, 64,
  64, 26, 27, 28, 29, 30, 31, 32, 33, 34, 35, 36, 37, 38, 39, 40,
  41, 42, 43, 44, 45, 46, 47, 48, 49, 50, 51, 64, 64, 64, 64, 64]

/-- `numeric_limits<string::size_type>::max()`. -/
def sizeTypeMax : Nat := 2 ^ 64 - 1

/-- The variables of either loop. -/
structure BitCollector where
  accumulator : UInt32
  bitsCollected : Nat
  retval : Bytes
  deriving DecidableEq, Repr

namespace BitCollector

def start : BitCollector := ⟨0, 0, []⟩

/-- `b64_table[(accumulator >> bits_collected) & 0x3fu]`. -/
def digitAt (accumulator : UInt32) (bits : Nat) : UInt8 :=
  b64Table.getD ((accumulator >>> UInt32.ofNat bits) &&& 0x3f).toNat 0

/-- The inner loop of the encoder: its digits, and the bits that are left. -/
def digits (accumulator : UInt32) : Nat → Bytes × Nat
  | bits + 6 =>
    let (rest, left) := digits accumulator bits
    (digitAt accumulator bits :: rest, left)
  | bits => ([], bits)

/-- One byte goes into the encoder. -/
def encodeByte (s : BitCollector) (x : UInt8) : BitCollector :=
  let accumulator := (s.accumulator <<< 8) ||| x.toUInt32
  let (out, left) := digits accumulator (s.bitsCollected + 8)
  ⟨accumulator, left, s.retval ++ out⟩

/-- Trailing bits. -/
def finish (s : BitCollector) : Bytes :=
  if 0 < s.bitsCollected then
    s.retval ++ [digitAt (s.accumulator <<< UInt32.ofNat (6 - s.bitsCollected)) 0]
  else s.retval

/-- One digit goes into the decoder. -/
def decodeDigit (s : BitCollector) (d : UInt8) : BitCollector :=
  let accumulator := (s.accumulator <<< 6) ||| d.toUInt32
  let bits := s.bitsCollected + 6
  if 8 ≤ bits then
    ⟨accumulator, bits - 8,
      s.retval ++ [((accumulator >>> UInt32.ofNat (bits - 8)) &&& 0xff).toUInt8]⟩
  else ⟨accumulator, bits, s.retval⟩

/-- The loop of the decoder. -/
def decodeFrom (s : BitCollector) : Bytes → Bytes
  | [] => s.retval
  | c :: rest =>
    if Toolbox.isSpace c ∨ c = 0x3d then s.decodeFrom rest
    else if c > 127 ∨ reverseTable.getD c.toNat 64 > 63 then []
    else (s.decodeDigit (reverseTable.getD c.toNat 64)).decodeFrom rest

end BitCollector

/-- What the encoder writes before the `=` signs that `retval` is filled with at first. -/
def base64Digits (bindata : Bytes) : Bytes :=
  (bindata.foldl BitCollector.encodeByte .start).finish

def base64Encode (bindata : Bytes) : Bytes :=
  if bindata.length > sizeTypeMax / 4 * 3 then []
  else
    let out := base64Digits bindata
    out ++ List.replicate ((bindata.length + 2) / 3 * 4 - out.length) 0x3d

/-- The two assertions about `outpos` at the end of the encoder. `retval.size() - 2` is unsigned. -/
def outposAsserts (bindata : Bytes) : Prop :=
  let outpos := (base64Digits bindata).length
  let size := (base64Encode bindata).length
  outpos ≥ (size + 2 ^ 64 - 2) % 2 ^ 64 ∧ outpos ≤ size

instance (bindata : Bytes) : Decidable (outposAsserts bindata) :=
  inferInstanceAs (Decidable (_ ∧ _))

def base64Decode (ascdata : Bytes) : Bytes := BitCollector.start.decodeFrom ascdata

end Crypto
end PtpCore
