import PtpCore.Toolbox.Data

/-!
# Percent encoding (`ptp_global/Helpers.cpp`)

`URLEncode` leaves ASCII letters and digits as they are and writes every other byte as `%` and two
upper case digits. `URLDecode` takes any two characters behind a `%` for such digits, also where
there are none: behind the last character of a string stands a zero, and then whatever is there,
which is `beyond`.
-/

namespace PtpCore
namespace Global

open Lib

/-- `isdigit`, in the C locale. -/
def isDigitChar (x : UInt8) : Bool := 0x30 ≤ x && x ≤ 0x39

/-- `isalnum`, in the C locale. -/
def isAlnum (x : UInt8) : Bool :=
  isDigitChar x || (0x41 ≤ x && x ≤ 0x5a) || (0x61 ≤ x && x ≤ 0x7a)

def toHex (x : UInt8) : UInt8 := if x > 9 then x - 10 + 0x41 else x + 0x30

def fromHex (x : UInt8) : UInt8 := if isDigitChar x then x - 0x30 else x - 0x41 + 10

/-- `buf`, for one character. -/
def encodeBuf (x : UInt8) : Bytes :=
  if isAlnum x then [x, 0, 0, 0] else [0x25, toHex (x >>> 4), toHex (x % 16), 0]

/-- `URLEncode`. The buffer is appended as a C string. -/
def urlEncode (sIn : Bytes) : Bytes := sIn.flatMap fun x => cString (encodeBuf x)

/-- `(fromHex(a) << 4) | fromHex(b)`, as an `unsigned char`. -/
def unescape (a b : UInt8) : UInt8 := fromHex a <<< 4 ||| fromHex b

/-- `URLDecode`, of what is left of the string. -/
def urlDecode (beyond : UInt8) : Bytes → Bytes
  | [] => []
  | x :: rest =>
    if x = 0x25 then
      match rest with
      | [] => [unescape 0 beyond]
      | [a] => [unescape a 0]
      | a :: b :: rest => unescape a b :: urlDecode beyond rest
    else if x = 0x2b then 0x20 :: urlDecode beyond rest
    else x :: urlDecode beyond rest

/-- The positions that it reads, where what is left begins at `ix`. -/
def urlDecodeReads : (ix : Nat) → Bytes → List Nat
  | _, [] => []
  | ix, x :: rest =>
    if x = 0x25 then
      ix :: (ix + 1) :: (ix + 2) ::
        match rest with
        | [] => []
        | [_] => []
        | _ :: _ :: rest => urlDecodeReads (ix + 3) rest
    else ix :: urlDecodeReads (ix + 1) rest

end Global
end PtpCore
