import PtpCore.Global.Helpers
import PtpCore.Global.UrlCodec

/-!
# Uris (`ptp_global/SocketClient.h`)

`Uri::Parse` looks for the first `?`, for the first `:`, and for the first `/` behind the protocol,
each on its own, and makes strings of what is between the positions that it has found. Positions are
counted from the beginning of the uri.
-/

namespace PtpCore
namespace Global

open Lib

namespace Uri

def colon : UInt8 := 0x3a

def slash : UInt8 := 0x2f

def questionMark : UInt8 := 0x3f

/-- What `Parse` may end in. -/
inductive ParseError where
  /-- A range that ends before it begins. -/
  | badRange
  /-- What `stoi` throws. -/
  | badPort
  deriving DecidableEq, Repr

end Uri

structure Uri where
  queryString : Bytes
  path : Bytes
  protocol : Bytes
  host : Bytes
  /-- `none` if it was never set. -/
  port : Option UInt16
  deriving DecidableEq, Repr

namespace Uri

/-- `std::find`. -/
def find (uri : Bytes) (first last : Nat) (c : UInt8) : Except ParseError Nat :=
  if first ≤ last then .ok (first + (((uri.take last).drop first).takeWhile (· != c)).length)
  else .error .badRange

/-- The constructor of `std::string` from two iterators. -/
def substring (uri : Bytes) (first last : Nat) : Except ParseError Bytes :=
  if first ≤ last then .ok ((uri.take last).drop first) else .error .badRange

/-- The path or the query: a range that is looked at only if it begins in front of the end. -/
def tailPiece (uri : Bytes) (first last : Nat) : Except ParseError Bytes :=
  if first ≠ uri.length then substring uri first last else .ok []

/-- What is behind a sign. -/
def unsigned : Bytes → Bytes
  | [] => []
  | x :: text => if x = 0x2d ∨ x = 0x2b then text else x :: text

/-- There is a number at the beginning of a text. -/
def beginsNumber (text : Bytes) : Bool :=
  (unsigned (text.dropWhile Toolbox.isSpace)).head?.any isDigitChar

/-- `std::stoi`, which throws if there is no number, or one that is not an `int`. -/
def stoi (str : Bytes) : Option Int :=
  let value := atoi (cString str)
  if beginsNumber (cString str) ∧ -2 ^ 31 ≤ value ∧ value < 2 ^ 31 then some value else none

/-- The protocol, and where the host starts. -/
def parseProtocol (uri : Bytes) : Except ParseError (Bytes × Nat) := do
  let protocolEnd ← find uri 0 uri.length colon
  -- a C string, from the colon on
  let prot := cString (uri.drop protocolEnd)
  if protocolEnd ≠ uri.length ∧ prot.length > 3 ∧ prot.take 3 = [colon, slash, slash] then
    let protocol ← substring uri 0 protocolEnd
    return (protocol, protocolEnd + 3)
  else return ([], 0)

/-- The port, where the host ends at `hostEnd`. -/
def parsePort (uri : Bytes) (hostEnd portEnd : Nat) : Except ParseError (Option UInt16) :=
  if hostEnd ≠ uri.length ∧ uri[hostEnd]? = some colon then do
    let text ← substring uri (hostEnd + 1) portEnd
    match stoi text with
    | some value => pure (some (UInt16.ofInt value))
    | none => throw .badPort
  else pure none

/-- `Uri::Parse`. -/
def parse (uri : Bytes) : Except ParseError Uri :=
  if uri.length = 0 then pure ⟨[], [], [], [], none⟩
  else do
    let queryStart ← find uri 0 uri.length questionMark
    let (protocol, hostStart) ← parseProtocol uri
    let pathStart ← find uri hostStart uri.length slash
    let portEnd := if pathStart ≠ uri.length then pathStart else queryStart
    let hostEnd ← find uri hostStart portEnd colon
    let host ← substring uri hostStart hostEnd
    let port ← parsePort uri hostEnd portEnd
    let path ← tailPiece uri pathStart queryStart
    let queryString ← tailPiece uri queryStart uri.length
    return ⟨queryString, path, protocol, host, port⟩

end Uri

end Global
end PtpCore
