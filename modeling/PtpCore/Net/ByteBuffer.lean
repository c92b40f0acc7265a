import PtpCore.Net.BuffersStorage

/-!
# Typed values in a buffer (`ptp_net/NativeByteBuffer.cpp`)

A buffer is written and read through a position that goes up to a limit. A writer is run twice as a
rule: over a buffer that only calculates a size, and then over one of that size. Positions and sizes
are `uint32_t`; each call tests its own bytes against the limit in that width, and on a failed test
sets the caller's flag and leaves.

A function here is `none` where the code reads or writes outside of the memory of the buffer. A
`double` is its eight bytes. Left out is `readByteBuffer`, which is `readByteArray` with the bytes
in a buffer of their own.
-/

namespace PtpCore
namespace Net

open Lib

/-- `NativeByteBuffer`, with the flag that a caller passes to all of its calls. -/
structure ByteBuffer where
  buffer : Bytes
  calculateSizeOnly : Bool
  position : Nat
  limit : Nat
  capacity : Nat
  error : Bool
  deriving DecidableEq, Repr

namespace ByteBuffer

/-- A `uint32_t`. -/
def word (n : Nat) : Nat := n % 2 ^ 32

/-- `NativeByteBuffer(uint32_t size)`. -/
def new (heap : Nat → UInt8) (size : Nat) : ByteBuffer :=
  ⟨(List.range size).map heap, false, 0, size, size, false⟩

/-- `NativeByteBuffer(bool calculate)`. -/
def calculate : ByteBuffer := ⟨[], true, 0, 0, 0, false⟩

/-! ## The position and the limit -/

def setPosition (b : ByteBuffer) (position : Nat) : ByteBuffer :=
  if position > b.limit then b else { b with position := position }

def setLimit (b : ByteBuffer) (limit : Nat) : ByteBuffer :=
  if limit > b.capacity then b
  else { b with position := if b.position > limit then limit else b.position, limit := limit }

def clearCapacity (b : ByteBuffer) : ByteBuffer :=
  if !b.calculateSizeOnly then b else { b with capacity := 0 }

def flip (b : ByteBuffer) : ByteBuffer := { b with limit := b.position, position := 0 }

def clear (b : ByteBuffer) : ByteBuffer := { b with position := 0, limit := b.capacity }

def rewind (b : ByteBuffer) : ByteBuffer := { b with position := 0 }

def remaining (b : ByteBuffer) : Nat := word (b.limit + 2 ^ 32 - b.position)

def fail (b : ByteBuffer) : ByteBuffer := { b with error := true }

/-- `_position + n > _limit`. -/
def Past (b : ByteBuffer) (n : Nat) : Prop := word (b.position + n) > b.limit

instance (b : ByteBuffer) (n : Nat) : Decidable (b.Past n) := inferInstanceAs (Decidable (_ > _))

def skip (b : ByteBuffer) (length : Nat) : ByteBuffer :=
  if b.calculateSizeOnly then { b with capacity := word (b.capacity + length) }
  else if b.Past length then b
  else { b with position := word (b.position + length) }

/-- The next `n` bytes of the memory. -/
def load (b : ByteBuffer) (n : Nat) : Option Bytes :=
  if b.position + n ≤ b.buffer.length then some (slice b.buffer b.position n) else none

/-- The bytes to the position, and the position behind them. -/
def store (b : ByteBuffer) (d : Bytes) : Option ByteBuffer :=
  if b.position + d.length ≤ b.buffer.length then
    some { b with
      buffer := overwrite b.buffer b.position d
      position := word (b.position + d.length) }
  else none

def compact (b : ByteBuffer) : Option ByteBuffer :=
  if b.position = b.limit then some b
  else (b.load b.remaining).map fun d =>
    { b with buffer := overwrite b.buffer 0 d, position := b.remaining, limit := b.capacity }

/-! ## Writing -/

/-- What each function does with its bytes, and whether it goes on. -/
def field (b : ByteBuffer) (d : Bytes) : Option (ByteBuffer × Bool) :=
  if b.calculateSizeOnly then some ({ b with capacity := word (b.capacity + d.length) }, true)
  else if b.Past d.length then some (b.fail, false)
  else (b.store d).map (·, true)

def toLE (w n : Nat) : Bytes := (toBE w n).reverse

def ofLE (d : Bytes) : Nat := ofBE d.reverse

def writeInt32 (b : ByteBuffer) (x : UInt32) : Option ByteBuffer :=
  (b.field (toLE 4 x.toNat)).map Prod.fst

def writeInt64 (b : ByteBuffer) (x : UInt64) : Option ByteBuffer :=
  (b.field (toLE 8 x.toNat)).map Prod.fst

def boolTrue : UInt32 := 0x997275b5

def boolFalse : UInt32 := 0xbc799737

def writeBool (b : ByteBuffer) (value : Bool) : Option ByteBuffer :=
  b.writeInt32 (if value then boolTrue else boolFalse)

def writeByte (b : ByteBuffer) (i : UInt8) : Option ByteBuffer := (b.field [i]).map Prod.fst

/-- `writeBytes(b, length)`, and the overloads for a `ByteArray` and an offset. -/
def writeBytes (b : ByteBuffer) (d : Bytes) : Option ByteBuffer := (b.field d).map Prod.fst

/-- `writeBytes(NativeByteBuffer *)`: what remains in `src`, which is read up. -/
def writeBytesBuffer (b src : ByteBuffer) : Option (ByteBuffer × ByteBuffer) :=
  let length := src.remaining
  if length = 0 then some (b, src)
  else if b.calculateSizeOnly then some ({ b with capacity := word (b.capacity + length) }, src)
  else if b.Past length then some (b.fail, src)
  else (src.load length).bind fun d => (b.store d).map (·, src.setPosition src.limit)

/-- `writeByteArray`: a length of one or four bytes, the bytes, and zeros up to a multiple of four.
    What was written before a failed test stays. -/
def writeByteArray (b : ByteBuffer) (d : Bytes) : Option ByteBuffer :=
  match b.field (NativeByteBuffer.lengthBytes d.length) with
  | none => none
  | some (b, false) => some b
  | some (b, true) =>
    match b.field d with
    | none => none
    | some (b, false) => some b
    | some (b, true) =>
      let sl := if d.length ≤ 253 then 1 else 4
      (b.field (List.replicate (NativeByteBuffer.addition d.length sl) 0)).map Prod.fst

/-- `writeString`. The length is a `uint32_t`. -/
def writeString (b : ByteBuffer) (s : Bytes) : Option ByteBuffer :=
  b.writeByteArray (s.take (word s.length))

/-! ## Reading -/

/-- A number of fixed length, and 0 where the buffer ends too soon. -/
def readFixed (b : ByteBuffer) (n : Nat) : Option (Nat × ByteBuffer) :=
  if b.Past n then some (0, b.fail)
  else (b.load n).map fun d => (ofLE d, { b with position := word (b.position + n) })

/-- `readInt32` and `readUint32`. -/
def readInt32 (b : ByteBuffer) : Option (UInt32 × ByteBuffer) :=
  (b.readFixed 4).map fun (n, b) => (UInt32.ofNat n, b)

def readBigInt32 (b : ByteBuffer) : Option (UInt32 × ByteBuffer) :=
  if b.Past 4 then some (0, b.fail)
  else (b.load 4).map fun d => (UInt32.ofNat (ofBE d), { b with position := word (b.position + 4) })

/-- `readInt64` and `readUint64`. -/
def readInt64 (b : ByteBuffer) : Option (UInt64 × ByteBuffer) :=
  (b.readFixed 8).map fun (n, b) => (UInt64.ofNat n, b)

def readByte (b : ByteBuffer) : Option (UInt8 × ByteBuffer) :=
  (b.readFixed 1).map fun (n, b) => (UInt8.ofNat n, b)

def readBool (b : ByteBuffer) : Option (Bool × ByteBuffer) :=
  b.readInt32.map fun (consructor, b) =>
    if consructor = boolTrue then (true, b)
    else if consructor = boolFalse then (false, b)
    else (false, b.fail)

/-- `readBytes(length)`, with `nullptr` where there are not as many. -/
def readBytes (b : ByteBuffer) (length : Nat) : Option (Option Bytes × ByteBuffer) :=
  if length > b.remaining then some (none, b.fail)
  else (b.load length).map fun d => (some d, { b with position := word (b.position + length) })

/-- The bytes behind a length that has been read, and the zeros behind them. -/
def readBody (b : ByteBuffer) (l sl : Nat) : Option (Option Bytes × ByteBuffer) :=
  let n := l + NativeByteBuffer.addition l sl
  if b.Past n then some (none, b.fail)
  else (b.load l).map fun d => (some d, { b with position := word (b.position + n) })

/-- `readByteArray`. A length byte of 255 is read as one of 254. -/
def readByteArray (b : ByteBuffer) : Option (Option Bytes × ByteBuffer) :=
  if b.Past 1 then some (none, b.fail)
  else
    match b.load 1 with
    | none => none
    | some first =>
      let l := ofLE first
      let b := { b with position := word (b.position + 1) }
      if l ≥ 254 then
        if b.Past 3 then some (none, b.fail)
        else
          match b.load 3 with
          | none => none
          | some d => { b with position := word (b.position + 3) }.readBody (ofLE d) 4
      else b.readBody l 1

/-- `readString`. -/
def readString (b : ByteBuffer) : Option (Bytes × ByteBuffer) :=
  b.readByteArray.map fun (d, b) => (d.getD [], b)

/-! ## Values -/

/-- What callers write. -/
inductive Value
  | int32 (x : UInt32)
  | int64 (x : UInt64)
  | bool (value : Bool)
  | byte (i : UInt8)
  | bytes (d : Bytes)
  | string (s : Bytes)
  | byteArray (d : Bytes)
  deriving DecidableEq, Repr

/-- What they ask for when they read. -/
inductive Kind
  | int32
  | int64
  | bool
  | byte
  | bytes (length : Nat)
  | string
  | byteArray
  deriving DecidableEq, Repr

def Value.kind : Value → Kind
  | .int32 _ => .int32
  | .int64 _ => .int64
  | .bool _ => .bool
  | .byte _ => .byte
  | .bytes d => .bytes d.length
  | .string _ => .string
  | .byteArray _ => .byteArray

def write (b : ByteBuffer) : Value → Option ByteBuffer
  | .int32 x => b.writeInt32 x
  | .int64 x => b.writeInt64 x
  | .bool value => b.writeBool value
  | .byte i => b.writeByte i
  | .bytes d => b.writeBytes d
  | .string s => b.writeString s
  | .byteArray d => b.writeByteArray d

/-- The value, or `none` for a `nullptr`. -/
def read (b : ByteBuffer) : Kind → Option (Option Value × ByteBuffer)
  | .int32 => b.readInt32.map fun (x, b) => (some (.int32 x), b)
  | .int64 => b.readInt64.map fun (x, b) => (some (.int64 x), b)
  | .bool => b.readBool.map fun (x, b) => (some (.bool x), b)
  | .byte => b.readByte.map fun (x, b) => (some (.byte x), b)
  | .bytes length => (b.readBytes length).map fun (d, b) => (d.map .bytes, b)
  | .string => b.readString.map fun (s, b) => (some (.string s), b)
  | .byteArray => b.readByteArray.map fun (d, b) => (d.map .byteArray, b)

def writeAll (b : ByteBuffer) : List Value → Option ByteBuffer
  | [] => some b
  | v :: vs => (b.write v).bind fun b => b.writeAll vs

def readAll (b : ByteBuffer) : List Kind → Option (List (Option Value) × ByteBuffer)
  | [] => some ([], b)
  | k :: ks => (b.read k).bind fun (v, b) => (b.readAll ks).map fun (vs, b) => (v :: vs, b)

/-! ## Any calls -/

inductive Op
  | setPosition (position : Nat)
  | setLimit (limit : Nat)
  | clearCapacity
  | flip
  | clear
  | rewind
  | skip (length : Nat)
  | compact
  | write (v : Value)
  | writeBuffer (src : ByteBuffer)
  | read (k : Kind)
  | readBigInt32
  deriving DecidableEq, Repr

def apply (b : ByteBuffer) : Op → Option ByteBuffer
  | .setPosition position => some (b.setPosition position)
  | .setLimit limit => some (b.setLimit limit)
  | .clearCapacity => some b.clearCapacity
  | .flip => some b.flip
  | .clear => some b.clear
  | .rewind => some b.rewind
  | .skip length => some (b.skip length)
  | .compact => b.compact
  | .write v => b.write v
  | .writeBuffer src => (b.writeBytesBuffer src).map Prod.fst
  | .read k => (b.read k).map Prod.snd
  | .readBigInt32 => b.readBigInt32.map Prod.snd

def applyAll (b : ByteBuffer) : List Op → Option ByteBuffer
  | [] => some b
  | op :: ops => (b.apply op).bind fun b => b.applyAll ops

end ByteBuffer

end Net
end PtpCore
