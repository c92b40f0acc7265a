import PtpCore.Toolbox.Data

/-!
# Text helpers (`ptp_global/Helpers.cpp`)

Hexadecimal text once more: `bytes_to_hex_string` prints as `bytes_to_hex` does, and
`hex_to_string` is a decoder that, unlike `hex_to_bytes`, refuses what it cannot read. Callers take
the `0x` off first.
-/

namespace PtpCore
namespace Global

open Lib

def bytesToHexString (str : Bytes) : Bytes := Toolbox.bytesToHex str

/-- The position of a character in `0123456789abcdef`. -/
def hexIndex (a : UInt8) : Option Nat :=
  if 0x30 ≤ a ∧ a ≤ 0x39 then some (a.toNat - 0x30)
  else if 0x61 ≤ a ∧ a ≤ 0x66 then some (a.toNat - 0x61 + 10)
  else none

/-- `hex_to_string`; `none` is the `invalid_argument` it throws. -/
def hexToString : Bytes → Option Bytes
  | [] => some []
  | [_] => none
  | a :: b :: rest =>
    match hexIndex a, hexIndex b, hexToString rest with
    | some p, some q, some output => some (UInt8.ofNat (p * 16 + q) :: output)
    | _, _, _ => none

/-! ### The loop of `hex_to_string` -/

/-- The `invalid_argument` it throws. -/
inductive InvalidArgument
  | oddLength
  | notAHexDigit
  deriving DecidableEq, Repr

def InvalidArgument.what : InvalidArgument → String
  | oddLength => "odd length"
  | notAHexDigit => "not a hex digit"

/-- `lut`, without the zero behind it. -/
def lut : Bytes := "0123456789abcdef".toUTF8.toList

/-- A `char` as a number. The machine decides whether it has a sign. -/
def charValue (signed : Bool) (a : UInt8) : Int := if signed then a.toInt8.toInt else a.toNat

/-- `lower_bound(lut, lut + 16, a)`: the first character that is not less, or the end. -/
def lowerBound (signed : Bool) (a : UInt8) : Nat :=
  lut.findIdx fun x => ¬ charValue signed x < charValue signed a

/-- The position of a character, if it is the one found there. At the end stands the zero. -/
def lutIndex (signed : Bool) (a : UInt8) : Except InvalidArgument Nat :=
  let p := lowerBound signed a
  if (lut ++ [0]).getD p 0 ≠ a then .error .notAHexDigit else .ok p

def hexDigits (signed : Bool) : Bytes → Except InvalidArgument Bytes
  | a :: b :: rest => do
    let p ← lutIndex signed a
    let q ← lutIndex signed b
    let output ← hexDigits signed rest
    return UInt8.ofNat (p <<< 4 ||| q) :: output
  | _ => return []

/-- `hex_to_string`, with its search in the table and what it throws. -/
def hexToStringOf (signed : Bool) (input : Bytes) : Except InvalidArgument Bytes :=
  if input.length &&& 1 = 1 then .error .oddLength else hexDigits signed input

/-! ## Decimal text -/

/-- The decimal digits of a number. -/
def decimal (n : Nat) : Bytes := (Nat.toDigits 10 n).map fun c => UInt8.ofNat c.toNat

/-- `int2string`, of a `uint32_t`. -/
def int2string (n : UInt32) : Bytes := decimal n.toNat

/-- The digits at the front, and the number read before them. -/
def atoiDigits : Nat → Bytes → Nat
  | acc, [] => acc
  | acc, x :: rest => if 0x30 ≤ x ∧ x ≤ 0x39 then atoiDigits (acc * 10 + (x.toNat - 0x30)) rest else acc

/-- `atoi`, that is `strtol` in base 10, which stops at the range of a `long`. -/
def atoi (s : Bytes) : Int :=
  match s.dropWhile Toolbox.isSpace with
  | 0x2d :: rest => - (min (atoiDigits 0 rest) (2 ^ 63) : Nat)
  | 0x2b :: rest => (min (atoiDigits 0 rest) (2 ^ 63 - 1) : Nat)
  | rest => (min (atoiDigits 0 rest) (2 ^ 63 - 1) : Nat)

/-- `string2int`, and `(uint32_t)atoi(s.c_str())`. -/
def string2int (value : Bytes) : UInt32 := UInt32.ofInt (atoi (cString value))

end Global
end PtpCore
