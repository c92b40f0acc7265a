import PtpCore.Global.AttachData

/-!
# What a stream writes, it reads back

A call appends the bytes of its value to the buffer (`put_simpBuf`), and a read of the same kind at
these bytes returns the value and stops behind them (`get_encode`). Both are about one value; a
sequence of them is an induction.
-/

namespace PtpCore
namespace Proof
namespace Global

open Lib PtpCore.Global PtpCore.Global.CByteStream

/-! ## The bytes of a value -/

/-- The low byte of a number that was shifted as a signed one. -/
theorem signExtend_sshiftRight {w : Nat} (x : BitVec w) {k : Nat} (hk : k + 8 ≤ w) :
    (x.sshiftRight k).signExtend 8 = (x >>> k).setWidth 8 := by
  rw [BitVec.signExtend_eq_setWidth_of_le _ (by omega)]
  apply BitVec.eq_of_getLsbD_eq
  intro i hi
  have hlow : i < w := by omega
  have hbit : k + i < w := by omega
  simp [hlow, hbit, BitVec.getElem_sshiftRight]

/-- A signed number has the bytes of the unsigned one with the same bits. -/
theorem bytes_int16 (data : Int16) : (Scalar.int16 data).bytes = writeUint16 data.toUInt16 := by
  have hshift {k : Nat} (hk : k + 8 ≤ 16) := signExtend_sshiftRight data.toUInt16.toBitVec hk
  have h1 : (data >>> 8).toInt8.toUInt8 = (data.toUInt16 >>> 8).toUInt8 := by
    apply UInt8.toBitVec_inj.mp
    simpa using hshift (k := 8) (by simp)
  have h2 : (data &&& 0xFF).toInt8.toUInt8 = (data.toUInt16 &&& 0xFF).toUInt8 := by
    apply UInt8.toBitVec_inj.mp
    simpa using congrArg (· &&& 255#8) (hshift (k := 0) (by simp))
  rw [Scalar.bytes, writeUint16, h1, h2]

theorem bytes_int32 (data : Int32) : (Scalar.int32 data).bytes = writeUint32 data.toUInt32 := by
  have hshift {k : Nat} (hk : k + 8 ≤ 32) := signExtend_sshiftRight data.toUInt32.toBitVec hk
  have h1 : (data >>> 24).toInt8.toUInt8 = (data.toUInt32 >>> 24).toUInt8 := by
    apply UInt8.toBitVec_inj.mp
    simpa using hshift (k := 24) (by simp)
  have h2 : ((data >>> 16) &&& 0xFF).toInt8.toUInt8 =
      ((data.toUInt32 >>> 16) &&& 0xFF).toUInt8 := by
    apply UInt8.toBitVec_inj.mp
    simpa using congrArg (· &&& 255#8) (hshift (k := 16) (by simp))
  have h3 : ((data >>> 8) &&& 0xFF).toInt8.toUInt8 =
      ((data.toUInt32 >>> 8) &&& 0xFF).toUInt8 := by
    apply UInt8.toBitVec_inj.mp
    simpa using congrArg (· &&& 255#8) (hshift (k := 8) (by simp))
  have h4 : (data &&& 0xFF).toInt8.toUInt8 = (data.toUInt32 &&& 0xFF).toUInt8 := by
    apply UInt8.toBitVec_inj.mp
    simpa using congrArg (· &&& 255#8) (hshift (k := 0) (by simp))
  rw [Scalar.bytes, writeUint32, h1, h2, h3, h4]

@[simp] theorem length_bytes (x : Scalar) : x.bytes.length = x.type.size := by
  cases x <;> rfl

/-- What `operator <<` writes, `operator >>` reads. -/
@[simp] theorem ofBytes_bytes (x : Scalar) : x.type.ofBytes x.bytes = x := by
  cases x with
  | int8 data => rfl
  | uint8 data => rfl
  | int16 data =>
    rw [bytes_int16]
    simp [Scalar.type, ScalarType.ofBytes]
  | uint16 data => simp [Scalar.type, ScalarType.ofBytes, Scalar.bytes]
  | int32 data =>
    rw [bytes_int32]
    simp [Scalar.type, ScalarType.ofBytes]
  | uint32 data => simp [Scalar.type, ScalarType.ofBytes, Scalar.bytes]

/-- A block with its length in front. -/
def blockBytes (b : Block) : Bytes := writeUint32 b.len ++ b.bytes

theorem toNat_len (b : Block) : b.len.toNat = b.bytes.length :=
  UInt32.toNat_ofNat_of_lt' b.length_lt

/-- The bytes that a call stands for. -/
def encode : Value → Bytes
  | .scalar x => x.bytes
  | .string b => blockBytes b
  | .data b => blockBytes b

def encodeAll (values : List Value) : Bytes := values.flatMap encode

@[simp] theorem encodeAll_nil : encodeAll [] = [] := rfl

@[simp] theorem encodeAll_cons (v : Value) (values : List Value) :
    encodeAll (v :: values) = encode v ++ encodeAll values := rfl

@[simp] theorem encodeAll_append (vs ws : List Value) :
    encodeAll (vs ++ ws) = encodeAll vs ++ encodeAll ws := List.flatMap_append

theorem length_blockBytes (b : Block) : (blockBytes b).length = 4 + b.bytes.length := by
  rw [blockBytes, List.length_append, length_writeUint32]

/-! ## Appending -/

section

variable (heap : Nat → Nat → UInt8) {s : Writer}

/-- The stream writes to a buffer that holds `bytes`. -/
structure Appends (s : Writer) (bytes : Bytes) : Prop where
  target : s.target = .simpBuf s.simpBuf
  ok : s.simpBuf.Ok
  contents : s.simpBuf.contents = bytes
  pos_lt : s.pos < 2 ^ 32

theorem appends_ofSimpBuf {b : CSimpleBuffer} (hb : b.Ok) {pos : Nat} (hpos : pos < 2 ^ 32) :
    Appends (.ofSimpBuf b pos) b.contents := ⟨rfl, hb, rfl, hpos⟩

variable {bytes : Bytes}

theorem Appends.writeByte (hs : Appends s bytes) (buf : Bytes)
    (h : bytes.length + buf.length < 2 ^ 31) :
    Appends (s.writeByte heap buf) (bytes ++ buf) ∧
      (s.writeByte heap buf).pos = (s.pos + buf.length) % 2 ^ 32 := by
  have hlen : s.simpBuf.writeOffset = bytes.length := by
    rw [← CSimpleBuffer.length_contents hs.ok, hs.contents]
  have hfits : CSimpleBuffer.Fits (s.simpBuf.writeOffset + buf.length) :=
    CSimpleBuffer.fits_of_lt (by omega)
  obtain ⟨hok, hcontents⟩ := CSimpleBuffer.write_spec (heap s.pos) hs.ok hfits
  rw [hs.contents] at hcontents
  rw [Writer.writeByte, hs.target]
  exact ⟨⟨rfl, hok, hcontents, Nat.mod_lt _ (Nat.two_pow_pos 32)⟩, rfl⟩

/-- One call appends the bytes of its value. -/
theorem Appends.put (hs : Appends s bytes) (v : Value)
    (h : bytes.length + (encode v).length < 2 ^ 31) :
    Appends (s.put heap v) (bytes ++ encode v) ∧
      (s.put heap v).pos = (s.pos + (encode v).length) % 2 ^ 32 := by
  have hblock : ∀ b : Block, bytes.length + (blockBytes b).length < 2 ^ 31 →
      Appends (s.writeBlock heap b) (bytes ++ blockBytes b) ∧
        (s.writeBlock heap b).pos = (s.pos + (blockBytes b).length) % 2 ^ 32 := by
    intro b hb
    rw [length_blockBytes] at hb
    have h4 : (Scalar.uint32 b.len).bytes.length = 4 := length_writeUint32 b.len
    obtain ⟨hlen, hpos⟩ := hs.writeByte heap (Scalar.uint32 b.len).bytes (by omega)
    obtain ⟨hall, hend⟩ := hlen.writeByte heap b.bytes
      (by rw [List.length_append, h4]; omega)
    rw [List.append_assoc] at hall
    refine ⟨hall, ?_⟩
    rw [Writer.writeBlock, Writer.putScalar, hend, hpos, h4, length_blockBytes, Nat.mod_add_mod,
      Nat.add_assoc]
  cases v with
  | scalar x => exact hs.writeByte heap x.bytes h
  | string b => exact hblock b h
  | data b => exact hblock b h

theorem Appends.putAll (hs : Appends s bytes) (values : List Value)
    (h : bytes.length + (encodeAll values).length < 2 ^ 31) :
    Appends (s.putAll heap values) (bytes ++ encodeAll values) ∧
      (s.putAll heap values).pos = (s.pos + (encodeAll values).length) % 2 ^ 32 := by
  induction values generalizing s bytes with
  | nil =>
    rw [encodeAll_nil, List.append_nil]
    exact ⟨hs, (Nat.mod_eq_of_lt hs.pos_lt).symm⟩
  | cons v values ih =>
    rw [encodeAll_cons, List.length_append] at h
    obtain ⟨hput, hpos⟩ := hs.put heap v (by omega)
    obtain ⟨hall, hend⟩ := ih hput (by rw [List.length_append]; omega)
    rw [List.append_assoc] at hall
    refine ⟨hall, ?_⟩
    change (Writer.putAll heap (s.put heap v) values).pos = _
    rw [hend, hpos, encodeAll_cons, List.length_append, Nat.mod_add_mod, Nat.add_assoc]

end

/-! ## Reading -/

/-- What was read is this value. A pointer and a length stand for the bytes that are there. -/
inductive Holds (buf : Bytes) : Item → Value → Prop
  | scalar (x : Scalar) : Holds buf (.scalar x) (.scalar x)
  | string {offset : Nat} {b : Block} : slice buf offset b.len.toNat = b.bytes →
      Holds buf (.string offset b.len) (.string b)
  | data {offset : Nat} {b : Block} : slice buf offset b.len.toNat = b.bytes →
      Holds buf (.data offset b.len) (.data b)

/-- The read that goes with a value. -/
def readOp : Value → ReadOp
  | .scalar x => .scalar x.type
  | .string _ => .string
  | .data _ => .data

section

variable {s : Reader}

theorem readByte_of_le {n : Nat} (hl : s.len < 2 ^ 32) (h : s.pos + n ≤ s.len) :
    s.readByte n = .ok (slice s.buf s.pos n, { s with pos := s.pos + n }) := by
  have hmod : (s.pos + n) % 2 ^ 32 = s.pos + n := Nat.mod_eq_of_lt (by omega)
  rw [Reader.readByte, hmod, if_neg (Nat.not_lt.mpr h)]

theorem getScalar_bytes {x : Scalar} (hl : s.len < 2 ^ 32) (h : s.pos + x.bytes.length ≤ s.len)
    (hbytes : slice s.buf s.pos x.bytes.length = x.bytes) :
    s.getScalar x.type = (.ok x, { s with pos := s.pos + x.bytes.length }) := by
  rw [length_bytes] at h hbytes
  rw [Reader.getScalar, readByte_of_le hl h, hbytes]
  simp

/-- A block is found behind its length. -/
theorem readBlock_blockBytes {b : Block} (hl : s.len < 2 ^ 32)
    (h : s.pos + (blockBytes b).length ≤ s.len)
    (hbytes : slice s.buf s.pos (blockBytes b).length = blockBytes b) :
    s.readBlock = (.ok (s.pos + 4, b.len), { s with pos := s.pos + (blockBytes b).length }) ∧
      slice s.buf (s.pos + 4) b.len.toNat = b.bytes := by
  rw [blockBytes, List.length_append] at hbytes
  obtain ⟨hlen, hcontents⟩ := slice_eq_append hbytes
  rw [length_writeUint32] at hlen hcontents
  rw [length_blockBytes] at h ⊢
  have hmod : (s.pos + 4 + b.bytes.length) % 2 ^ 32 = s.pos + (4 + b.bytes.length) := by omega
  rw [Reader.readBlock, Reader.getUint32_of_le (by omega) hl, hlen, readUint32_writeUint32]
  dsimp only
  rw [Reader.skip]
  dsimp only
  rw [toNat_len, hmod, if_neg (by omega)]
  exact ⟨rfl, hcontents⟩

/-- One read returns the value that is written at the position, and stops behind it. -/
theorem get_encode {v : Value} (hl : s.len < 2 ^ 32) (h : s.pos + (encode v).length ≤ s.len)
    (hbytes : slice s.buf s.pos (encode v).length = encode v) :
    ∃ item, s.get (readOp v) = (.ok item, { s with pos := s.pos + (encode v).length }) ∧
      Holds s.buf item v := by
  cases v with
  | scalar x =>
    have hget := getScalar_bytes hl h hbytes
    exact ⟨.scalar x, by rw [readOp, Reader.get, hget]; rfl, .scalar x⟩
  | string b =>
    obtain ⟨hread, hslice⟩ := readBlock_blockBytes hl h hbytes
    exact ⟨.string (s.pos + 4) b.len, by rw [readOp, Reader.get, Reader.readString, hread]; rfl,
      .string hslice⟩
  | data b =>
    obtain ⟨hread, hslice⟩ := readBlock_blockBytes hl h hbytes
    exact ⟨.data (s.pos + 4) b.len, by rw [readOp, Reader.get, Reader.readData, hread]; rfl,
      .data hslice⟩

theorem getAll_encodeAll {values : List Value} (hl : s.len < 2 ^ 32)
    (h : s.pos + (encodeAll values).length ≤ s.len)
    (hbytes : slice s.buf s.pos (encodeAll values).length = encodeAll values) :
    ∃ items, s.getAll (values.map readOp) =
        (.ok items, { s with pos := s.pos + (encodeAll values).length }) ∧
      List.Forall₂ (Holds s.buf) items values := by
  induction values generalizing s with
  | nil => exact ⟨[], rfl, .nil⟩
  | cons v values ih =>
    rw [encodeAll_cons, List.length_append] at h hbytes ⊢
    obtain ⟨hfirst, hrest⟩ := slice_eq_append hbytes
    obtain ⟨item, hget, hitem⟩ := get_encode hl (by omega) hfirst
    have hnext : s.pos + (encode v).length + (encodeAll values).length ≤ s.len := by omega
    obtain ⟨items, hall, hitems⟩ :=
      @ih { s with pos := s.pos + (encode v).length } hl hnext hrest
    refine ⟨item :: items, ?_, .cons hitem hitems⟩
    rw [List.map_cons, Reader.getAll, hget]
    dsimp only
    rw [hall, Nat.add_assoc]

end

/-! ## The round trip -/

/-- The values of a sequence of calls are read back, in order, and nothing is left over. -/
structure RoundTrip (heap : Nat → Nat → UInt8) (b : CSimpleBuffer) (pos : Nat)
    (values : List Value) : Prop where
  written : ((Writer.ofSimpBuf b pos).putAll heap values).simpBuf.contents =
    b.contents ++ encodeAll values
  read : ∃ items,
    (Reader.ofBuf (encodeAll values) (encodeAll values).length).getAll (values.map readOp) =
        (.ok items, ⟨encodeAll values, (encodeAll values).length, (encodeAll values).length⟩) ∧
      List.Forall₂ (Holds (encodeAll values)) items values

theorem roundTrip {heap : Nat → Nat → UInt8} {b : CSimpleBuffer} {pos : Nat} {values : List Value}
    (hb : b.Ok) (hpos : pos < 2 ^ 32)
    (hsize : b.contents.length + (encodeAll values).length < 2 ^ 31) :
    RoundTrip heap b pos values := by
  obtain ⟨hall, -⟩ := (appends_ofSimpBuf hb hpos).putAll heap values hsize
  refine ⟨hall.contents, ?_⟩
  obtain ⟨items, hget, hitems⟩ :=
    @getAll_encodeAll (Reader.ofBuf (encodeAll values) (encodeAll values).length) values
      (Nat.lt_of_le_of_lt (Nat.le_add_left ..) (Nat.lt_trans hsize (by decide)))
      (Nat.le_of_eq (Nat.zero_add _)) (by rw [slice]; exact List.take_length)
  refine ⟨items, ?_, hitems⟩
  rw [hget]
  simp [Reader.ofBuf]

/-! ### The attached data -/

section

variable {type handle serviceType : UInt32} {rest : Bytes}

theorem getUint32_written {s : Reader} {x : UInt32} (hl : s.len < 2 ^ 32)
    (h : s.pos + 4 ≤ s.len) (hbytes : slice s.buf s.pos 4 = writeUint32 x) :
    s.getUint32 = .ok (x, { s with pos := s.pos + 4 }) := by
  rw [Reader.getUint32_of_le h hl, hbytes, readUint32_writeUint32]

/-- The three numbers that both classes begin with. -/
def attachHeader (type handle serviceType : UInt32) : Bytes :=
  writeUint32 type ++ (writeUint32 handle ++ writeUint32 serviceType)

theorem length_attachHeader : (attachHeader type handle serviceType).length = 12 := rfl

/-- How both constructors begin. -/
theorem getUint32_attachHeader {buf : Bytes}
    (hbuf : buf = attachHeader type handle serviceType ++ rest) (hl : buf.length < 2 ^ 32) :
    Reader.getUint32 ⟨buf, buf.length, 0⟩ = .ok (type, ⟨buf, buf.length, 4⟩) ∧
      Reader.getUint32 ⟨buf, buf.length, 4⟩ = .ok (handle, ⟨buf, buf.length, 8⟩) ∧
      Reader.getUint32 ⟨buf, buf.length, 8⟩ = .ok (serviceType, ⟨buf, buf.length, 12⟩) := by
  have hlen : buf.length = 12 + rest.length := by
    rw [hbuf, List.length_append, length_attachHeader]
  refine ⟨getUint32_written hl ?_ ?_, getUint32_written hl ?_ ?_, getUint32_written hl ?_ ?_⟩
  all_goals dsimp only
  · omega
  · rw [hbuf]
    rfl
  · omega
  · rw [hbuf]
    rfl
  · omega
  · rw [hbuf]
    rfl

end

/-- What the stream of an attachment holds in the end. -/
theorem appends_attached (heap : Nat → Nat → UInt8) {values : List Value}
    (h : (encodeAll values).length < 2 ^ 31) :
    ((Writer.ofSimpBuf .empty 0).putAll heap values).simpBuf.contents = encodeAll values :=
  ((appends_ofSimpBuf CSimpleBuffer.ok_empty (Nat.two_pow_pos 32)).putAll heap values
    (by rw [CSimpleBuffer.contents_empty, List.length_nil, Nat.zero_add]; exact h)).1.contents

/-- The calls of the two constructors. -/
def dbValues (type handle serviceType : UInt32) : List Value :=
  [.scalar (.uint32 type), .scalar (.uint32 handle), .scalar (.uint32 serviceType)]

theorem serialize_db (heap : Nat → Nat → UInt8) (type handle serviceType : UInt32) :
    CDbAttachData.serialize heap type handle serviceType =
      ((Writer.ofSimpBuf .empty 0).putAll heap (dbValues type handle serviceType)).simpBuf := rfl

theorem serialize_pdu (heap : Nat → Nat → UInt8) (type handle serviceType : UInt32) (pdu : Block) :
    CPduAttachData.serialize heap type handle pdu serviceType =
      ((Writer.ofSimpBuf .empty 0).putAll heap
        (dbValues type handle serviceType ++ [.data pdu])).simpBuf := rfl

theorem encodeAll_dbValues (type handle serviceType : UInt32) :
    encodeAll (dbValues type handle serviceType) = attachHeader type handle serviceType := by
  simp [dbValues, encode, attachHeader, Scalar.bytes]

theorem decode_serialize_db (heap : Nat → Nat → UInt8) (type handle serviceType : UInt32) :
    CDbAttachData.decode (CDbAttachData.serialize heap type handle serviceType).contents =
      .ok ⟨type, handle, serviceType⟩ := by
  have hencode := encodeAll_dbValues type handle serviceType
  have hcontents : (CDbAttachData.serialize heap type handle serviceType).contents =
      attachHeader type handle serviceType ++ [] := by
    rw [serialize_db, appends_attached, hencode, List.append_nil]
    rw [hencode, length_attachHeader]
    decide
  obtain ⟨h1, h2, h3⟩ := getUint32_attachHeader hcontents
    (by rw [hcontents, List.append_nil, length_attachHeader]; decide)
  rw [CDbAttachData.decode, Reader.ofBuf, h1]
  dsimp only [bind, Except.bind]
  rw [h2]
  dsimp only
  rw [h3]
  rfl

theorem decode_serialize_pdu (heap : Nat → Nat → UInt8) (type handle serviceType : UInt32)
    {pdu : Block} (h : 16 + pdu.bytes.length < 2 ^ 31) :
    let buf := (CPduAttachData.serialize heap type handle pdu serviceType).contents
    CPduAttachData.decode buf = .ok ⟨type, handle, serviceType, 16, pdu.len⟩ ∧
      slice buf 16 pdu.len.toNat = pdu.bytes := by
  have hblock := length_blockBytes pdu
  have hencode : encodeAll (dbValues type handle serviceType ++ [.data pdu]) =
      attachHeader type handle serviceType ++ blockBytes pdu := by
    rw [encodeAll_append, encodeAll_dbValues, encodeAll_cons, encodeAll_nil, List.append_nil,
      encode]
  have hcontents : (CPduAttachData.serialize heap type handle pdu serviceType).contents =
      attachHeader type handle serviceType ++ blockBytes pdu := by
    rw [serialize_pdu, appends_attached, hencode]
    rw [hencode, List.length_append, length_attachHeader]
    omega
  have hlen : (CPduAttachData.serialize heap type handle pdu serviceType).contents.length =
      12 + (blockBytes pdu).length := by
    rw [hcontents, List.length_append, length_attachHeader]
  dsimp only
  generalize (CPduAttachData.serialize heap type handle pdu serviceType).contents = buf
    at hcontents hlen
  obtain ⟨h1, h2, h3⟩ := getUint32_attachHeader hcontents (by omega)
  have hbytes : slice buf 12 (blockBytes pdu).length = blockBytes pdu := by
    rw [hcontents, ← Nat.add_zero 12, slice_append_right length_attachHeader, slice,
      List.drop_zero, List.take_length]
  obtain ⟨hread, hslice⟩ := @readBlock_blockBytes ⟨buf, buf.length, 12⟩ pdu (by dsimp only; omega)
    (Nat.le_of_eq hlen.symm) hbytes
  refine ⟨?_, hslice⟩
  rw [CPduAttachData.decode, Reader.ofBuf, h1]
  dsimp only [bind, Except.bind]
  rw [h2]
  dsimp only
  rw [h3]
  dsimp only
  rw [Reader.readData, hread]
  rfl

/-- **Streams and attached data**: every sequence of calls, into any buffer, as long as the sizes
    are below `2 ^ 31`. -/
theorem byteStream_roundTrip (heap : Nat → Nat → UInt8) :
    (∀ (b : CSimpleBuffer) (pos : Nat) (values : List Value), b.Ok → pos < 2 ^ 32 →
        b.contents.length + (encodeAll values).length < 2 ^ 31 → RoundTrip heap b pos values) ∧
      (∀ type handle serviceType : UInt32,
        CDbAttachData.decode (CDbAttachData.serialize heap type handle serviceType).contents =
          .ok ⟨type, handle, serviceType⟩) ∧
      ∀ (type handle serviceType : UInt32) (pdu : Block), 16 + pdu.bytes.length < 2 ^ 31 →
        CPduAttachData.decode (CPduAttachData.serialize heap type handle pdu serviceType).contents =
            .ok ⟨type, handle, serviceType, 16, pdu.len⟩ ∧
          slice (CPduAttachData.serialize heap type handle pdu serviceType).contents 16
            pdu.len.toNat = pdu.bytes := by
  refine ⟨?_, decode_serialize_db heap, ?_⟩
  · intro b pos values hb hpos hsize
    exact roundTrip hb hpos hsize
  · intro type handle serviceType pdu hsize
    exact decode_serialize_pdu heap type handle serviceType hsize

theorem byteStream_roundTrip_hi :
    RoundTrip (fun _ _ => 0) .empty 0
      [.scalar (.int16 (-2)), .string ⟨[104, 105], by decide⟩, .scalar (.uint32 7)] :=
  (byteStream_roundTrip fun _ _ => 0).1 .empty 0 _ CSimpleBuffer.ok_empty (by decide) (by decide)

end Global
end Proof
end PtpCore
