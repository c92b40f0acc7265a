import PtpCore.Global.Helpers

/-!
# Filling in a template (`ptp_global/Helpers.cpp`)

`replace_mark` puts a value in the place of the first `?` that it finds from a position on, and
moves the position behind the value: the comment above it says that a value may hold a `?` itself.
Strings are put into quotes, numbers are printed. The position is a `uint32_t`.
-/

namespace PtpCore
namespace Global

open Lib

/-- `'?'` and `'\''`. -/
def markChar : UInt8 := 0x3f

def quote : UInt8 := 0x27

/-- `std::string::find`, of a character; `none` is `npos`. -/
def findFrom (str : Bytes) (c : UInt8) (pos : Nat) : Option Nat :=
  ((str.drop pos).findIdx? (· == c)).map (pos + ·)

/-- What both do once they have the text for the value: the string, and `begin_pos`. -/
def replaceAt (str text : Bytes) (beginPos : UInt32) : Bytes × UInt32 :=
  match findFrom str markChar beginPos.toNat with
  | none => (str, beginPos)
  | some pos => (str.take pos ++ text ++ str.drop (pos + 1), UInt32.ofNat (pos + text.length))

/-- `replace_mark`, for a string. -/
def replaceMarkString (str newValue : Bytes) (beginPos : UInt32) : Bytes × UInt32 :=
  replaceAt str ([quote] ++ newValue ++ [quote]) beginPos

/-- `replace_mark`, for a number. -/
def replaceMarkInt (str : Bytes) (newValue : UInt32) (beginPos : UInt32) : Bytes × UInt32 :=
  replaceAt str (int2string newValue) beginPos

end Global
end PtpCore
