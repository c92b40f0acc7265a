import PtpCore.Global.StreamOps

/-!
# `CDbAttachData` and `CPduAttachData` (`ptp_global/AttachData.cpp`)

What a request carries so that its answer can be told where it belongs: three numbers, written one
after the other and read back by a constructor that throws when there are not twelve bytes. The
second class has a PDU behind them.
-/

namespace PtpCore
namespace Global

open Lib CByteStream

/-- `ATTACH_TYPE_HANDLE`. -/
def attachTypeHandle : UInt32 := 1

structure CDbAttachData where
  type : UInt32
  handle : UInt32
  serviceType : UInt32
  deriving DecidableEq, Repr

namespace CDbAttachData

/-- The constructor that serialises, and `GetBuffer` over `GetLength` afterwards. -/
def encode (a : CDbAttachData) : Bytes :=
  writeUint32 a.type ++ (writeUint32 a.handle ++ writeUint32 a.serviceType)

/-- `m_buf` after the constructor that serialises. -/
def serialize (heap : Nat → Nat → UInt8) (type handle serviceType : UInt32) : CSimpleBuffer :=
  let os := Writer.ofSimpBuf .empty 0
  let os := os.putScalar heap (.uint32 type)
  let os := os.putScalar heap (.uint32 handle)
  let os := os.putScalar heap (.uint32 serviceType)
  os.simpBuf

/-- The constructor that deserialises. -/
def decode (attachData : Bytes) : Except CPduException CDbAttachData := do
  let is := Reader.ofBuf attachData attachData.length
  let (type, is) ← is.getUint32
  let (handle, is) ← is.getUint32
  let (serviceType, _) ← is.getUint32
  return ⟨type, handle, serviceType⟩

end CDbAttachData

/-- `m_pdu` points into what was read; it is given by its offset there. -/
structure CPduAttachData where
  type : UInt32
  handle : UInt32
  serviceType : UInt32
  pdu : Nat
  pduLength : UInt32
  deriving DecidableEq, Repr

namespace CPduAttachData

/-- `m_buf` after the constructor that serialises. -/
def serialize (heap : Nat → Nat → UInt8) (type handle : UInt32) (pdu : Block)
    (serviceType : UInt32) : CSimpleBuffer :=
  let os := Writer.ofSimpBuf .empty 0
  let os := os.putScalar heap (.uint32 type)
  let os := os.putScalar heap (.uint32 handle)
  let os := os.putScalar heap (.uint32 serviceType)
  let os := os.writeData heap pdu
  os.simpBuf

/-- The constructor that deserialises. -/
def decode (attachData : Bytes) : Except CPduException CPduAttachData := do
  let is := Reader.ofBuf attachData attachData.length
  let (type, is) ← is.getUint32
  let (handle, is) ← is.getUint32
  let (serviceType, is) ← is.getUint32
  let (pdu, pduLength) ← is.readData.1
  return ⟨type, handle, serviceType, pdu, pduLength⟩

end CPduAttachData

end Global
end PtpCore
