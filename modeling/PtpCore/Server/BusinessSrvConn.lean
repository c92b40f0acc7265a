import PtpCore.Global.ImConn

/-!
# `CBusinessSrvConn`: the receive path (`ptp_server/BusinessSrvConn.cpp`)

The business server handles requests on a thread pool, so its connection overrides `OnRead`. The
receive loop is that of `CImConn`; the loop over the buffered PDUs tests with `IsPduAvailable`
and passes the bytes, not a PDU, to `HandlePduBuf`, which reads the PDU again and queues a task.

`HandlePduBuf` uses what `ReadPdu` returns without a test. `ReadPdu` is given just the bytes of
the PDU there, and returns `NULL` when they are fewer than a header.
-/

namespace PtpCore
namespace Server

open Lib
open PtpCore.Global

/-- `CID_HeartBeatNotify`. -/
def cidHeartBeatNotify : UInt16 := 0x0701

/-- How a handler can fail to return: an exception, or a null pointer dereferenced. -/
inductive Stop
  | threw (e : CPduException)
  | nullDeref
  deriving DecidableEq, Repr

/-- The connection and the PDU that a worker of the thread pool is given. -/
structure CProxyTask where
  connUuid : UInt32
  pdu : CImPdu
  deriving DecidableEq, Repr

namespace CBusinessSrvConn

open PtpCore.Global.CImConn

/-- Everything around the connection: what fresh memory holds, and `g_thread_pool.AddTask`. -/
structure Pool (σ : Type) where
  heap : σ → Nat → UInt8
  addTask : σ → CProxyTask → σ

def handlePduBuf {σ : Type} (P : Pool σ) (hasHandler : UInt16 → Bool) (uuid : UInt32) (w : σ)
    (pduBuf : Bytes) : σ × Option Stop :=
  match CImPdu.readPdu (P.heap w) pduBuf pduBuf.length with
  | .error e => (w, some (.threw e))
  | .ok none => (w, some .nullDeref)
  | .ok (some p) =>
    if p.getCommandId = cidHeartBeatNotify then (w, none)
    else if hasHandler p.getCommandId then (P.addTask w ⟨uuid, p⟩, none)
    else (w, none)

/-- The loop of `OnRead` over the buffered PDUs, and its `catch`. `HandlePduBuf` gets a pointer
    to the front of the buffer and `pdu_len`, that is, the first `pdu_len` bytes. -/
def dispatch {σ : Type} (handlePduBuf : σ → Bytes → σ × Option Stop) (s : In σ) : In σ :=
  match _h : CImPdu.isPduAvailable s.inBuf.mem s.inBuf.getWriteOffset with
  | .error _ => { s with status := .closed }
  | .ok none => s
  | .ok (some pduLen) =>
    match handlePduBuf s.world (s.inBuf.mem.take pduLen) with
    | (w, some (.threw _)) => { s with world := w, status := .closed }
    | (w, some .nullDeref) => { s with world := w, status := .crashed }
    | (w, none) => dispatch handlePduBuf { s with world := w, inBuf := (s.inBuf.read pduLen).2 }
termination_by s.inBuf.writeOffset
decreasing_by
  obtain ⟨-, -, hpos, hle⟩ := CImPdu.isPduAvailable_some _h
  have hoff : s.inBuf.getWriteOffset = s.inBuf.writeOffset := rfl
  rw [CSimpleBuffer.writeOffset_read]
  omega

def onRead {σ : Type} (heap : σ → Nat → UInt8) (handlePduBuf : σ → Bytes → σ × Option Stop)
    (s : In σ) (cs : List Chunk) : In σ :=
  dispatch handlePduBuf { s with inBuf := recvLoop (heap s.world) s.inBuf cs }

end CBusinessSrvConn

end Server
end PtpCore
