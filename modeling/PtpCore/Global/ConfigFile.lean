import PtpCore.Lib.Assoc
import PtpCore.Lib.Bytes
import Mathlib.Data.List.Sort

/-!
# Configuration files (`ptp_global/ConfigFileReader.cpp`)

A file is read into a buffer of 256 bytes, line by line or as much of a line as fits, and written
through one of 128 bytes. A text in the buffer ends at its first zero. `none` stands for an index
that is outside the buffer.
-/

namespace PtpCore
namespace Global

open Lib

namespace ConfigFile

def newline : UInt8 := 0x0a

/-- `'#'` and `'='`. -/
def numberSign : UInt8 := 0x23

def equalsSign : UInt8 := 0x3d

def isBlank (c : UInt8) : Bool := c == 0x20 || c == 0x09

/-- `map<string, string>`. -/
abbrev ConfigMap := Assoc Bytes Bytes

/-! ## Reading -/

/-- `fgets(buf, n + 1, fp)`: what is put into the buffer, and the rest of the file. -/
def fgets : Nat → Bytes → Bytes × Bytes
  | 0, file => ([], file)
  | _ + 1, [] => ([], [])
  | n + 1, c :: file =>
    if c = newline then ([c], file)
    else (c :: (fgets n file).1, (fgets n file).2)

/-- The second loop of `_TrimSpace`, with `n` bytes of `name` up to `end_pos`. -/
def trimEnd (name : Bytes) : Nat → Option Nat
  | 0 => none
  | n + 1 => if isBlank (name.getD n 0) then trimEnd name n else some (n + 1)

/-- `CConfigFileReader::_TrimSpace`; the inner `none` is `NULL`. -/
def trimSpace (name : Bytes) : Option (Option Bytes) :=
  let startPos := (name.takeWhile isBlank).length
  if name.drop startPos = [] then some none
  else
    match trimEnd name name.length with
    | none => none
    | some endLen =>
      if (endLen : Int) - startPos ≤ 0 then some none
      else some (some ((name.take endLen).drop startPos))

/-- `CConfigFileReader::_ParseLine`. -/
def parseLine (m : ConfigMap) (line : Bytes) : Option ConfigMap :=
  if equalsSign ∈ line then
    match trimSpace (line.takeWhile (· != equalsSign)),
      trimSpace ((line.dropWhile (· != equalsSign)).drop 1) with
    | some (some key), some (some value) => some (m.insert key value)
    | some _, some _ => some m
    | _, _ => none
  else some m

/-- The text in the buffer without the newline at its end, and without what follows `'#'`. -/
def textOf (buf : Bytes) : Bytes :=
  (if (cString buf).getLast? = some newline then (cString buf).dropLast
    else cString buf).takeWhile (· != numberSign)

/-- The body of the loop in `_LoadFile`, after `fgets`. -/
def readBuf (m : ConfigMap) (buf : Bytes) : Option ConfigMap :=
  -- the first byte is zero, and `buf[len - 1]` is in front of the buffer
  if cString buf = [] then none
  else if textOf buf = [] then some m
  else parseLine m (textOf buf)

/-- What is read in one call of `fgets` after another, of which there are at most `n`. -/
def pieces : Nat → Bytes → List Bytes
  | 0, _ => []
  | _ + 1, [] => []
  | n + 1, file => (fgets 255 file).1 :: pieces n (fgets 255 file).2

/-- `CConfigFileReader::_LoadFile`, of a file that can be opened. Every call of `fgets` reads
    something. -/
def loadFile (file : Bytes) : Option ConfigMap := (pieces file.length file).foldlM readBuf []

/-! ## Writing -/

/-- What `snprintf` puts into `szPaire`, of which one byte is for the zero. -/
def szPaire (entry : Bytes × Bytes) : Bytes :=
  (cString entry.1 ++ equalsSign :: (cString entry.2 ++ [newline])).take 127

/-- A `std::map` is iterated in the order of its keys. -/
def inOrder (m : ConfigMap) : List (Bytes × Bytes) := m.insertionSort fun a b => a.1 ≤ b.1

/-- The loop in `_WriteFIle`, and what it has written; `writes` says of each `fwrite` whether it
    succeeds. -/
def writePairs (writes : Nat → Bool) : Nat → List (Bytes × Bytes) → Int × Bytes
  | _, [] => (0, [])
  | i, entry :: entries =>
    if writes i then
      ((writePairs writes (i + 1) entries).1,
        szPaire entry ++ (writePairs writes (i + 1) entries).2)
    else (-1, [])

/-- `CConfigFileReader::_WriteFIle`; `opens` says whether `fopen` succeeds. -/
def writeFile (opens : Bool) (writes : Nat → Bool) (m : ConfigMap) : Int × Option Bytes :=
  if opens then ((writePairs writes 0 (inOrder m)).1, some (writePairs writes 0 (inOrder m)).2)
  else (-1, none)

/-- The map in `SetConfigValue`. -/
def setValue (m : ConfigMap) (name value : Bytes) : ConfigMap :=
  match m.find name with
  | some _ => m.set name value
  | none => m.insert name value

end ConfigFile

end Global
end PtpCore
