import PtpCore.Global.ByteStream

/-!
# The operators of `CByteStream` (`ptp_global/UtilPdu.cpp`)

Twelve operators for numbers, and pairs of functions for strings and blocks of data, which put a
length in front. All of them go through `_WriteByte` and `_ReadByte`. The first skips a write that
does not fit into a buffer of fixed size, without a word; the second throws. `Skip` throws too, but
it has moved the position by then, so the state is kept when a read throws.

The length of a buffer and every position are `uint32_t`, and the checks add them up in 32 bits.
-/

namespace PtpCore
namespace Global

open Lib

namespace CByteStream

/-! ## Numbers -/

/-- What the operators for numbers take and return. -/
inductive Scalar
  | int8 (data : Int8)
  | uint8 (data : UInt8)
  | int16 (data : Int16)
  | uint16 (data : UInt16)
  | int32 (data : Int32)
  | uint32 (data : UInt32)
  deriving DecidableEq, Repr

/-- Which of the operators. -/
inductive ScalarType
  | int8
  | uint8
  | int16
  | uint16
  | int32
  | uint32
  deriving DecidableEq, Repr

/-- The bytes that `operator <<` gives to `_WriteByte`. A signed number is shifted as such. -/
def Scalar.bytes : Scalar → Bytes
  | .int8 data => [data.toUInt8]
  | .uint8 data => [data]
  | .int16 data => [(data >>> 8).toInt8.toUInt8, (data &&& 0xFF).toInt8.toUInt8]
  | .uint16 data => writeUint16 data
  | .int32 data =>
    [(data >>> 24).toInt8.toUInt8, ((data >>> 16) &&& 0xFF).toInt8.toUInt8,
      ((data >>> 8) &&& 0xFF).toInt8.toUInt8, (data &&& 0xFF).toInt8.toUInt8]
  | .uint32 data => writeUint32 data

def Scalar.type : Scalar → ScalarType
  | .int8 _ => .int8
  | .uint8 _ => .uint8
  | .int16 _ => .int16
  | .uint16 _ => .uint16
  | .int32 _ => .int32
  | .uint32 _ => .uint32

/-- How many bytes `operator >>` asks `_ReadByte` for. -/
def ScalarType.size : ScalarType → Nat
  | .int8 | .uint8 => 1
  | .int16 | .uint16 => 2
  | .int32 | .uint32 => 4

/-- What it makes of them. -/
def ScalarType.ofBytes (buf : Bytes) : ScalarType → Scalar
  | .int8 => .int8 (buf.getD 0 0).toInt8
  | .uint8 => .uint8 (buf.getD 0 0)
  | .int16 => .int16 (readUint16 buf).toInt16
  | .uint16 => .uint16 (readUint16 buf)
  | .int32 => .int32 (readUint32 buf).toInt32
  | .uint32 => .uint32 (readUint32 buf)

/-! ## Writing -/

/-- A pointer and a `uint32_t` that says how many bytes are there. -/
structure Block where
  bytes : Bytes
  length_lt : bytes.length < 2 ^ 32

def Block.len (b : Block) : UInt32 := UInt32.ofNat b.bytes.length

/-- What one call writes: `operator <<`, `WriteString(str, len)` or `WriteData`. -/
inductive Value
  | scalar (x : Scalar)
  | string (str : Block)
  | data (block : Block)

/-- Where a stream writes to. Of a plain buffer this is the memory from its first byte on, which
    goes on behind its end, and where it was stored to: offsets and lengths. -/
inductive Target
  | simpBuf (b : CSimpleBuffer)
  | buf (mem : Bytes) (stores : List (Nat × Nat))

/-- A stream that is written to. -/
structure Writer where
  target : Target
  len : Nat
  pos : Nat

/-- `CByteStream(CSimpleBuffer*, pos)`. -/
def Writer.ofSimpBuf (b : CSimpleBuffer) (pos : Nat) : Writer := ⟨.simpBuf b, 0, pos⟩

/-- `CByteStream(buf, len)`. -/
def Writer.ofBuf (mem : Bytes) (len : Nat) : Writer := ⟨.buf mem [], len, 0⟩

section

-- what a block holds that is allocated when the stream is at a position
variable (heap : Nat → Nat → UInt8) (s : Writer)

/-- `_WriteByte`. -/
def Writer.writeByte (buf : Bytes) : Writer :=
  match s.target with
  | .simpBuf b =>
    { s with
      target := .simpBuf (b.write (heap s.pos) (some buf) buf.length)
      pos := (s.pos + buf.length) % 2 ^ 32 }
  | .buf mem stores =>
    if (s.pos + buf.length) % 2 ^ 32 > s.len then s
    else
      { s with
        target := .buf (overwrite mem s.pos buf) (stores ++ [(s.pos, buf.length)])
        pos := (s.pos + buf.length) % 2 ^ 32 }

/-- `operator <<`. -/
def Writer.putScalar (x : Scalar) : Writer := s.writeByte heap x.bytes

/-- The body of `WriteString(str, len)` and of `WriteData`. -/
def Writer.writeBlock (b : Block) : Writer :=
  (s.putScalar heap (.uint32 b.len)).writeByte heap b.bytes

def Writer.writeString (str : Block) : Writer := s.writeBlock heap str

def Writer.writeData (data : Block) : Writer := s.writeBlock heap data

/-- What `WriteString(str)` makes of a C string, or of `NULL`. -/
def cStringBlock (str : Option Bytes) : Block where
  bytes := (str.elim [] cString).take ((str.elim [] cString).length % 2 ^ 32)
  length_lt := by
    rw [List.length_take]
    exact Nat.lt_of_le_of_lt (Nat.min_le_left ..) (Nat.mod_lt _ (Nat.two_pow_pos 32))

/-- `WriteString(str)`. -/
def Writer.writeCString (str : Option Bytes) : Writer := s.writeString heap (cStringBlock str)

/-- Any of the calls. -/
def Writer.put : Value → Writer
  | .scalar x => s.putScalar heap x
  | .string str => s.writeString heap str
  | .data block => s.writeData heap block

/-- What `m_pSimpBuf` points to in the end. -/
def Writer.simpBuf : CSimpleBuffer :=
  match s.target with
  | .simpBuf b => b
  | .buf .. => .empty

def Writer.putAll (values : List Value) : Writer := values.foldl (Writer.put heap) s

end

/-! ## Reading -/

/-- Which read: `operator >>`, `ReadString` or `ReadData`. -/
inductive ReadOp
  | scalar (t : ScalarType)
  | string
  | data
  deriving DecidableEq, Repr

/-- What a read returns: a number, or a pointer into the buffer, as an offset, and a length. -/
inductive Item
  | scalar (x : Scalar)
  | string (offset : Nat) (len : UInt32)
  | data (offset : Nat) (len : UInt32)
  deriving DecidableEq, Repr

/-- `Skip`, which moves first and looks then. -/
def Reader.skip (s : Reader) (len : UInt32) : Except CPduException Unit × Reader :=
  let s := { s with pos := (s.pos + len.toNat) % 2 ^ 32 }
  if s.pos > s.len then (.error (.ofError errorCodeParseFailed "parase packet failed!"), s)
  else (.ok (), s)

/-- `operator >>`. -/
def Reader.getScalar (s : Reader) (t : ScalarType) : Except CPduException Scalar × Reader :=
  match s.readByte t.size with
  | .error e => (.error e, s)
  | .ok (buf, s) => (.ok (t.ofBytes buf), s)

/-- The body of `ReadString` and of `ReadData`. -/
def Reader.readBlock (s : Reader) : Except CPduException (Nat × UInt32) × Reader :=
  match s.getUint32 with
  | .error e => (.error e, s)
  | .ok (len, s) =>
    let offset := s.pos
    match s.skip len with
    | (.error e, s) => (.error e, s)
    | (.ok (), s) => (.ok (offset, len), s)

def Reader.readString (s : Reader) : Except CPduException (Nat × UInt32) × Reader := s.readBlock

def Reader.readData (s : Reader) : Except CPduException (Nat × UInt32) × Reader := s.readBlock

/-- Any of the reads, and the stream afterwards, also when it throws. -/
def Reader.get (s : Reader) : ReadOp → Except CPduException Item × Reader
  | .scalar t => ((s.getScalar t).1.map .scalar, (s.getScalar t).2)
  | .string => (s.readString.1.map fun r => .string r.1 r.2, s.readString.2)
  | .data => (s.readData.1.map fun r => .data r.1 r.2, s.readData.2)

/-- One read after the other, up to the first that throws. -/
def Reader.getAll (s : Reader) : List ReadOp → Except CPduException (List Item) × Reader
  | [] => (.ok [], s)
  | op :: ops =>
    match s.get op with
    | (.error e, s) => (.error e, s)
    | (.ok item, s) =>
      match s.getAll ops with
      | (.error e, s) => (.error e, s)
      | (.ok items, s) => (.ok (item :: items), s)

end CByteStream

end Global
end PtpCore
