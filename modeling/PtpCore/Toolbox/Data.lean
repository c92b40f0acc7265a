import PtpCore.Lib.Bytes

/-!
# Hexadecimal text (`ptp_toolbox/data/utils.cpp`)

`bytes_to_hex` writes `0x` in front of the digits. `hex_to_bytes` reads two characters at a time
and gives each pair to `strtol` in base 16; it has no rule of its own for the leading `0x`.
-/

namespace PtpCore
namespace Toolbox

open Lib

/-- The lower case digit of `n`, as `std::hex` prints it. -/
def hexDigit (n : Nat) : UInt8 := UInt8.ofNat (if n < 10 then 0x30 + n else 0x61 + (n - 10))

/-- One byte under `setw(2)` and `setfill('0')`. -/
def hexPair (x : UInt8) : Bytes := [hexDigit (x.toNat / 16), hexDigit (x.toNat % 16)]

def bytesToHex (data : Bytes) : Bytes := [0x30, 0x78] ++ data.flatMap hexPair

/-! ## `strtol` in base 16 -/

/-- `isspace`, in the C locale. -/
def isSpace (x : UInt8) : Bool := x == 0x20 || (0x09 ≤ x && x ≤ 0x0d)

/-- The value of a hexadecimal digit of either case. -/
def digitValue (x : UInt8) : Option Nat :=
  if 0x30 ≤ x ∧ x ≤ 0x39 then some (x.toNat - 0x30)
  else if 0x41 ≤ x ∧ x ≤ 0x46 then some (x.toNat - 0x41 + 10)
  else if 0x61 ≤ x ∧ x ≤ 0x66 then some (x.toNat - 0x61 + 10)
  else none

/-- The number read so far and the digits that continue it. -/
def strtolDigits : Nat → Bytes → Nat
  | acc, [] => acc
  | acc, x :: rest =>
    match digitValue x with
    | some d => strtolDigits (acc * 16 + d) rest
    | none => acc

/-- `0x` is skipped only when a digit follows; otherwise its `0` is the number. -/
def strtolPrefix : Bytes → Bytes
  | 0x30 :: x :: d :: rest =>
    if (x = 0x78 ∨ x = 0x58) ∧ (digitValue d).isSome then d :: rest else 0x30 :: x :: d :: rest
  | s => s

/-- `strtol(s, nullptr, 16)`. The strings here have two characters, so it does not saturate. -/
def strtol16 (s : Bytes) : Int :=
  match s.dropWhile isSpace with
  | 0x2d :: rest => - (strtolDigits 0 (strtolPrefix rest) : Int)
  | 0x2b :: rest => strtolDigits 0 (strtolPrefix rest)
  | rest => strtolDigits 0 (strtolPrefix rest)

def hexToBytes : Bytes → Bytes
  | [] => []
  | [x] => [UInt8.ofInt (strtol16 (cString [x]))]
  | x :: y :: rest => UInt8.ofInt (strtol16 (cString [x, y])) :: hexToBytes rest

end Toolbox
end PtpCore
