import PtpCore.Lib.Assoc
import PtpCore.Lib.Bytes

/-!
# Buffers (`ptp_net/NativeByteBuffer.cpp`, `ptp_net/BuffersStorage.cpp`)

A buffer is a block of memory with a position and a limit. A write that does not fit stops where it
is, and so does a read; nobody asks which of the two it was. `BuffersStorage` keeps buffers that
are not in use, one list for each of seven sizes, and gives out a larger buffer than was asked for.
-/

namespace PtpCore
namespace Net

open Lib

/-- The sizes that lists are kept for. -/
inductive SizeClass
  | b8
  | b128
  | b1024
  | b4096
  | b16384
  | b32768
  | big
  deriving DecidableEq, Repr

namespace SizeClass

/-- `byteCount`. -/
def byteCount : SizeClass → Nat
  | .b8 => 8
  | .b128 => 128
  | .b1024 => 1024 + 200
  | .b4096 => 4096 + 200
  | .b16384 => 16384 + 200
  | .b32768 => 40000
  | .big => 160000

/-- `maxCount`. -/
def maxCount : SizeClass → Nat
  | .b8 | .b128 => 80
  | _ => 10

/-- The list that `getFreeBuffer` takes a buffer from. -/
def ofSize (size : Nat) : Option SizeClass :=
  if size ≤ 8 then some .b8
  else if size ≤ 128 then some .b128
  else if size ≤ 1024 + 200 then some .b1024
  else if size ≤ 4096 + 200 then some .b4096
  else if size ≤ 16384 + 200 then some .b16384
  else if size ≤ 40000 then some .b32768
  else if size ≤ 160000 then some .big
  else none

/-- The list that `reuseFreeBuffer` puts a buffer into. -/
def ofCapacity (capacity : Nat) : Option SizeClass :=
  if capacity = 8 then some .b8
  else if capacity = 128 then some .b128
  else if capacity = 1024 + 200 then some .b1024
  else if capacity = 4096 + 200 then some .b4096
  else if capacity = 16384 + 200 then some .b16384
  else if capacity = 40000 then some .b32768
  else if capacity = 160000 then some .big
  else none

end SizeClass

/-! ## Strings in a buffer -/

/-- `buffer`, which is `_capacity` long, `_position` and `_limit`. -/
structure NativeByteBuffer where
  buffer : Bytes
  position : Nat
  limit : Nat
  deriving DecidableEq, Repr

namespace NativeByteBuffer

/-- A buffer as `getFreeBuffer` returns it, with whatever is in its memory. -/
def free (heap : Nat → UInt8) (size : Nat) : NativeByteBuffer where
  buffer := (List.range ((SizeClass.ofSize size).elim size SizeClass.byteCount)).map heap
  position := 0
  limit := size

/-- A test against the limit, and a copy to the position. -/
def put (b : NativeByteBuffer) (d : Bytes) : Option NativeByteBuffer :=
  if b.position + d.length > b.limit then none
  else some { b with
    buffer := overwrite b.buffer b.position d
    position := b.position + d.length }

/-- The one or four bytes in front of a string. -/
def lengthBytes (length : Nat) : Bytes :=
  if length ≤ 253 then [UInt8.ofNat length]
  else [254, UInt8.ofNat length, UInt8.ofNat (length / 2 ^ 8), UInt8.ofNat (length / 2 ^ 16)]

/-- `addition`: zeros up to a multiple of four. -/
def addition (length sl : Nat) : Nat :=
  let addition := (length + sl) % 4
  if addition ≠ 0 then 4 - addition else addition

/-- `writeString`. -/
def writeString (b : NativeByteBuffer) (s : Bytes) : NativeByteBuffer :=
  match b.put (lengthBytes s.length) with
  | none => b
  | some b =>
    match b.put s with
    | none => b
    | some b =>
      (b.put (List.replicate (addition s.length (if s.length ≤ 253 then 1 else 4)) 0)).getD b

/-- What `writeString` counts in a buffer that only calculates a size. -/
def stringCapacity (s : Bytes) : Nat :=
  (lengthBytes s.length).length + s.length +
    addition s.length (if s.length ≤ 253 then 1 else 4)

/-- `readString`: a string, and the empty one where the buffer ends too soon. -/
def readString (b : NativeByteBuffer) : Bytes :=
  if b.position + 1 > b.limit then []
  else
    let l := (b.buffer.getD b.position 0).toNat
    let text (position l sl : Nat) : Bytes :=
      if position + l + addition l sl > b.limit then [] else slice b.buffer position l
    if l ≥ 254 then
      if b.position + 1 + 3 > b.limit then []
      else
        text (b.position + 4) (ofBE (slice b.buffer (b.position + 1) 3).reverse) 4
    else text (b.position + 1) l 1

end NativeByteBuffer

end Net
end PtpCore
