import PtpCore.Global.ByteStream

/-!
# `CImPdu` and `ImPdu` (`ptp_global/ImPduBase.cpp`, `ptp_protobuf/ImPdu.cpp`)

A PDU is a 16-byte header in network order and a body. The object keeps the header twice: as
the struct `m_pdu_header`, which the getters answer from, and as the first 16 bytes of `m_buf`,
which is what goes on the wire. `WriteHeader` copies the struct into the bytes; the setters
write the bytes and leave the struct alone; `ReadPduHeader` fills the struct from bytes.

A protobuf message enters here only through what `SerializeToArray` answers: its bytes, or
`none` when a required field is unset.
-/

namespace PtpCore
namespace Global

open Lib CByteStream

/-- `IM_PDU_HEADER_LEN`, and also `sizeof(PduHeader_t)`. -/
def imPduHeaderLen : Nat := 16

/-- `IM_PDU_VERSION`. -/
def imPduVersion : UInt16 := 1

/-- `PduHeader_t`. -/
structure PduHeader where
  length : UInt32
  version : UInt16
  flag : UInt16
  commandId : UInt16
  seqNum : UInt16
  reversed : UInt32
  deriving DecidableEq, Repr

structure CImPdu where
  buf : CSimpleBuffer
  header : PduHeader
  deriving DecidableEq, Repr

namespace CImPdu

/-- The constructor. It does not set `m_pdu_header.length`, which no function reads. -/
def new : CImPdu := ⟨.empty, ⟨0, imPduVersion, 0, 0, 0, 0⟩⟩

def getLength (p : CImPdu) : Nat := p.buf.getWriteOffset

/-- `GetBodyData`: the block from byte 16 on. -/
def getBodyData (p : CImPdu) : Bytes := p.buf.mem.drop imPduHeaderLen

/-- `GetBodyLength`: an unsigned subtraction, which wraps for a PDU shorter than its header. -/
def getBodyLength (p : CImPdu) : Nat :=
  (p.buf.getWriteOffset + 2 ^ 32 - imPduHeaderLen) % 2 ^ 32

/-- What a handler parses: `GetBodyLength` bytes from `GetBodyData`. -/
def body (p : CImPdu) : Bytes := p.getBodyData.take p.getBodyLength

/-- A store through `GetBuffer() + i`. -/
def poke (p : CImPdu) (i : Nat) (d : Bytes) : CImPdu :=
  { p with buf := { p.buf with mem := overwrite p.buf.mem i d } }

/-- `WriteHeader`. The 32-bit `reversed` is written with `WriteUint16`, so bytes 14 and 15
    keep what the buffer held. -/
def writeHeader (p : CImPdu) : CImPdu :=
  let p := p.poke 0 (writeInt32 (UInt32.ofNat p.getLength))
  let p := p.poke 4 (writeUint16 p.header.version)
  let p := p.poke 6 (writeUint16 p.header.flag)
  let p := p.poke 8 (writeUint16 p.header.commandId)
  let p := p.poke 10 (writeUint16 p.header.seqNum)
  p.poke 12 (writeUint16 p.header.reversed.toUInt16)

def setVersion (p : CImPdu) (version : UInt16) : CImPdu := p.poke 4 (writeUint16 version)

def setFlag (p : CImPdu) (flag : UInt16) : CImPdu := p.poke 6 (writeUint16 flag)

def setCommandId (p : CImPdu) (commandId : UInt16) : CImPdu := p.poke 8 (writeUint16 commandId)

/-- `SetError` stores at the offset of the command id. -/
def setError (p : CImPdu) (error : UInt16) : CImPdu := p.poke 8 (writeUint16 error)

def setSeqNum (p : CImPdu) (seqNum : UInt16) : CImPdu := p.poke 10 (writeUint16 seqNum)

def setReversed (p : CImPdu) (reversed : UInt32) : CImPdu := p.poke 12 (writeUint32 reversed)

def getVersion (p : CImPdu) : UInt16 := p.header.version

def getFlag (p : CImPdu) : UInt16 := p.header.flag

def getCommandId (p : CImPdu) : UInt16 := p.header.commandId

def getSeqNum (p : CImPdu) : UInt16 := p.header.seqNum

def getReversed (p : CImPdu) : UInt32 := p.header.reversed

/-- `Write(buf, len)`. -/
def write (fill : Nat → UInt8) (p : CImPdu) (buf : Bytes) (len : Nat) : CImPdu :=
  { p with buf := p.buf.write fill (some buf) len }

def readPduHeader (p : CImPdu) (buf : Bytes) (len : Nat) : Except CPduException (Int × CImPdu) :=
  if imPduHeaderLen ≤ len then do
    let is := Reader.ofBuf buf len
    let (length, is) ← is.getUint32
    let (version, is) ← is.getUint16
    let (flag, is) ← is.getUint16
    let (commandId, is) ← is.getUint16
    let (seqNum, is) ← is.getUint16
    let (reversed, _) ← is.getUint32
    return (0, { p with header := ⟨length, version, flag, commandId, seqNum, reversed⟩ })
  else
    return (-1, p)

/-- `IsPduAvailable`: `some pdu_len` when it answers true. A length of 0 is an exception; no
    other length that fits `len` is refused. -/
def isPduAvailable (buf : Bytes) (len : Nat) : Except CPduException (Option Nat) :=
  if len < imPduHeaderLen then .ok none
  else
    let pduLen := (readUint32 buf).toNat
    if pduLen > len then .ok none
    else if pduLen = 0 then .error (.ofError 1 "pdu_len is 0")
    else .ok (some pduLen)

/-- `ReadPdu`; `none` is the `NULL` it returns when no PDU is available. -/
def readPdu (fill : Nat → UInt8) (buf : Bytes) (len : Nat) :
    Except CPduException (Option CImPdu) := do
  match ← isPduAvailable buf len with
  | none => return none
  | some pduLen =>
    let p := new.write fill buf pduLen
    let (_, p) ← p.readPduHeader buf imPduHeaderLen
    return some p

/-- How each `SetPBMsg` begins: empty the buffer, then make room for a header without
    writing one. -/
def resetBody (fill : Nat → UInt8) (p : CImPdu) : CImPdu :=
  { p with
    buf := (p.buf.read p.buf.getWriteOffset).2.write fill none imPduHeaderLen }

/-- `ImPdu::SetPBMsg(unsigned char*, int)`. -/
def setPBMsgBuf (fill : Nat → UInt8) (p : CImPdu) (data : Bytes) : CImPdu :=
  ((p.resetBody fill).write fill data data.length).writeHeader

/-- `ImPdu::SetPBMsg(msg)`: when serialisation fails it returns with the header unwritten. -/
def setPBMsg (fill : Nat → UInt8) (p : CImPdu) (msg : Option Bytes) : CImPdu :=
  let p := p.resetBody fill
  match msg with
  | none => p
  | some data => (p.write fill data data.length).writeHeader

/-- `ImPdu::SetPBMsg(msg, command_id, seq_num)`. -/
def setPBMsgCmd (fill : Nat → UInt8) (p : CImPdu) (msg : Option Bytes)
    (commandId seqNum : UInt16) : CImPdu :=
  let p := { p with header := { p.header with commandId := commandId, seqNum := seqNum } }
  let p := p.resetBody fill
  match msg with
  | none => p
  | some data =>
    let p := p.write fill data data.length
    let p := { p with buf := p.buf.position (data.length + imPduHeaderLen) }
    p.writeHeader

/-! ## The header in the bytes -/

/-- The header that the first 16 bytes of a block spell. -/
def headerOf (b : Bytes) : PduHeader where
  length := readUint32 (slice b 0 4)
  version := readUint16 (slice b 4 2)
  flag := readUint16 (slice b 6 2)
  commandId := readUint16 (slice b 8 2)
  seqNum := readUint16 (slice b 10 2)
  reversed := readUint32 (slice b 12 4)

theorem readUint32_slice (b : Bytes) : readUint32 (slice b 0 4) = readUint32 b := by
  have h : ∀ i, i < 4 → (slice b 0 4).getD i 0 = b.getD i 0 := by
    intro i hi
    simp only [List.getD_eq_getElem?_getD, getElem?_slice, if_pos hi, Nat.zero_add]
  simp only [readUint32, h 0 (by omega), h 1 (by omega), h 2 (by omega), h 3 (by omega)]

theorem readPduHeader_eq (p : CImPdu) (b : Bytes) :
    p.readPduHeader b imPduHeaderLen = .ok (0, { p with header := headerOf b }) := by
  have h16 : ∀ k, k + 2 ≤ 16 → Reader.getUint16 ⟨b, imPduHeaderLen, k⟩ =
      .ok (readUint16 (slice b k 2), ⟨b, imPduHeaderLen, k + 2⟩) :=
    fun k hk => Reader.getUint16_of_le hk (by simp [imPduHeaderLen])
  have h32 : ∀ k, k + 4 ≤ 16 → Reader.getUint32 ⟨b, imPduHeaderLen, k⟩ =
      .ok (readUint32 (slice b k 4), ⟨b, imPduHeaderLen, k + 4⟩) :=
    fun k hk => Reader.getUint32_of_le hk (by simp [imPduHeaderLen])
  simp only [readPduHeader, if_pos (Nat.le_refl imPduHeaderLen), Reader.ofBuf, bind, Except.bind,
    h32 0 (by omega), h16 4 (by omega), h16 6 (by omega), h16 8 (by omega), h16 10 (by omega),
    h32 12 (by omega), Nat.zero_add, Nat.reduceAdd]
  rfl

/-- The three answers of `IsPduAvailable`, by the length field. -/
theorem isPduAvailable_of_le {buf : Bytes} {len n : Nat} (h16 : imPduHeaderLen ≤ len)
    (hn : (headerOf buf).length.toNat = n) :
    isPduAvailable buf len =
      if n > len then .ok none
      else if n = 0 then .error (.ofError 1 "pdu_len is 0")
      else .ok (some n) := by
  have hread : (readUint32 buf).toNat = n := by
    rw [← hn, headerOf, readUint32_slice]
  simp only [isPduAvailable, if_neg (Nat.not_lt.mpr h16), hread]

/-- `ReadPdu` on a block whose length field is in range: the PDU holds that many bytes and
    the header they begin with. -/
theorem readPdu_of_available (fill : Nat → UInt8) {buf : Bytes} {len n : Nat}
    (h : isPduAvailable buf len = .ok (some n)) :
    readPdu fill buf len =
      .ok (some ⟨CSimpleBuffer.empty.write fill (some buf) n, headerOf buf⟩) := by
  simp only [readPdu, h, bind, Except.bind, readPduHeader_eq]
  rfl

theorem readPdu_of_unavailable (fill : Nat → UInt8) {buf : Bytes} {len : Nat}
    (h : isPduAvailable buf len = .ok none) : readPdu fill buf len = .ok none := by
  simp only [readPdu, h, bind, Except.bind]
  rfl

theorem readPdu_of_error (fill : Nat → UInt8) {buf : Bytes} {len : Nat} {e : CPduException}
    (h : isPduAvailable buf len = .error e) : readPdu fill buf len = .error e := by
  simp only [readPdu, h, bind, Except.bind]

theorem isPduAvailable_some {buf : Bytes} {len n : Nat}
    (h : isPduAvailable buf len = .ok (some n)) :
    imPduHeaderLen ≤ len ∧ n = (readUint32 buf).toNat ∧ 0 < n ∧ n ≤ len := by
  unfold isPduAvailable at h
  split at h
  · cases h
  · dsimp only at h
    split at h
    · cases h
    · split at h
      · cases h
      · cases h
        exact ⟨by omega, rfl, by omega, by omega⟩

/-- What `ReadPdu` returns: at least one byte, and no more than there are. -/
theorem readPdu_some {fill : Nat → UInt8} {buf : Bytes} {len : Nat} {p : CImPdu}
    (h : readPdu fill buf len = .ok (some p)) :
    ∃ n, isPduAvailable buf len = .ok (some n) ∧
      p = ⟨CSimpleBuffer.empty.write fill (some buf) n, headerOf buf⟩ ∧ p.getLength = n := by
  cases hav : isPduAvailable buf len with
  | error e => rw [readPdu_of_error fill hav] at h; cases h
  | ok o =>
    cases o with
    | none => rw [readPdu_of_unavailable fill hav] at h; cases h
    | some n =>
      rw [readPdu_of_available fill hav] at h
      cases h
      refine ⟨n, rfl, rfl, ?_⟩
      obtain ⟨-, hn, -, -⟩ := isPduAvailable_some hav
      have hlt : n < 2 ^ 32 := by
        rw [hn]
        exact (readUint32 buf).toNat_lt
      simp only [getLength, CSimpleBuffer.getWriteOffset, CSimpleBuffer.write,
        CSimpleBuffer.writeOffset_makeRoom, CSimpleBuffer.empty, Nat.zero_add]
      exact Nat.mod_eq_of_lt hlt

/-- Only the first 16 bytes matter for the header. -/
theorem headerOf_take {b : Bytes} {n : Nat} (h : imPduHeaderLen ≤ n) :
    headerOf (b.take n) = headerOf b := by
  unfold imPduHeaderLen at h
  simp only [headerOf]
  rw [slice_take (by omega), slice_take (by omega), slice_take (by omega), slice_take (by omega),
    slice_take (by omega), slice_take (by omega)]

theorem headerOf_append {a b : Bytes} (h : imPduHeaderLen ≤ a.length) :
    headerOf (a ++ b) = headerOf a := by
  rw [← headerOf_take h, List.take_left]

end CImPdu

end Global
end PtpCore
