import PtpCore.Crypto.Sha256

/-!
# Base 58 (`ptp_crypto/base58.cpp`)

The digits are computed in a block of fixed size, the last one first, byte by byte of the data: each
multiplies the block by 256. Zero bytes in front become ones.
-/

namespace PtpCore
namespace Crypto

open Lib

/-- `b58digits_ordered`. -/
def b58digits : Bytes := "123456789ABCDEFGHJKLMNPQRSTUVWXYZabcdefghijkmnopqrstuvwxyz".toUTF8.toList

/-- The inner loop of `b58enc`, over the block from its end. -/
def carryInto : Nat → List Nat → List Nat
  | _, [] => []
  | carry, d :: rest => (carry + 256 * d) % 58 :: carryInto ((carry + 256 * d) / 58) rest

/-- `b58enc`; `none` when the text and its zero do not fit. -/
def b58enc (bin : Bytes) (b58sz : Nat) : Option Bytes :=
  let zcount := (bin.takeWhile (· == 0)).length
  let size := (bin.length - zcount) * 138 / 100 + 1
  let buf := (bin.drop zcount).foldl (fun buf x => carryInto x.toNat buf) (List.replicate size 0)
  let digits := buf.reverse.dropWhile (· == 0)
  if b58sz ≤ zcount + digits.length then none
  else some (List.replicate zcount 0x31 ++ digits.map fun d => b58digits.getD d 0)

/-- `base58_encode_check` with `HASHER_SHA2D`. -/
def base58EncodeCheck (data : Bytes) (strsize : Nat) : Option Bytes :=
  if data.length > 128 then none else b58enc (data ++ (sha256 (sha256 data)).take 4) strsize

end Crypto
end PtpCore
