import PtpCore.Global.ImPdu

/-!
# `CImConn` (`ptp_global/ImConn.cpp`)

A connection has two independent directions. The receiving one owns `m_in_buf`: `OnRead` takes
from the socket until it has no more, then cuts PDUs off the front of the buffer and hands each
to the virtual `HandlePdu`. The sending one owns `m_out_buf` and `m_busy`: `Send` gives the
socket what it will take and queues the rest, `OnWrite` drains the queue.

What is outside the code is a parameter. `HandlePdu` is a `Handler` over an arbitrary state `σ`,
which holds everything a subclass can reach, the sending direction included; it may throw. The
socket's side of `netlib_recv` is a list of `Chunk`s, and of `netlib_send` a `Socket`.
-/

namespace PtpCore
namespace Global

open Lib

/-- `READ_BUF_SIZE`. -/
def readBufSize : Nat := 2048

/-- `NETLIB_MAX_SOCKET_BUF_SIZE`. -/
def netlibMaxSocketBufSize : Int := 64 * 1024 + 16

/-- A positive result of `netlib_recv(.., READ_BUF_SIZE)` and the bytes it stored. -/
structure Chunk where
  data : Bytes
  pos : 0 < data.length
  le : data.length ≤ readBufSize

/-- What a connection still does. After `OnClose` it is out of the connection map, and
    `imconn_callback` does not find it any more. -/
inductive ConnStatus
  | live
  | closed
  | crashed
  deriving DecidableEq, Repr

namespace CImConn

/-! ## Receiving -/

/-- The receiving direction, and the state `world` that the handler works on. -/
structure In (σ : Type) where
  inBuf : CSimpleBuffer
  world : σ
  status : ConnStatus

/-- The virtual `HandlePdu`, with the exception it may throw, and what fresh memory holds. -/
structure Handler (σ : Type) where
  heap : σ → Nat → UInt8
  handlePdu : σ → CImPdu → σ × Option CPduException

/-- The head of the receive loop: room for one more `READ_BUF_SIZE`. -/
def makeFree (fill : Nat → UInt8) (b : CSimpleBuffer) : CSimpleBuffer :=
  let freeBufLen := (b.getAllocSize + 2 ^ 32 - b.getWriteOffset) % 2 ^ 32
  if freeBufLen < readBufSize then b.extend fill readBufSize else b

/-- `netlib_recv` behind the write offset, and `IncWriteOffset` by what it stored. -/
def store (b : CSimpleBuffer) (c : Chunk) : CSimpleBuffer :=
  CSimpleBuffer.incWriteOffset { b with mem := overwrite b.mem b.getWriteOffset c.data }
    c.data.length

/-- One round of the receive loop whose `netlib_recv` stores `c`. -/
def recvChunk (fill : Nat → UInt8) (b : CSimpleBuffer) (c : Chunk) : CSimpleBuffer :=
  store (makeFree fill b) c

/-- The receive loop. Its last round makes room too, and then `netlib_recv` has nothing. -/
def recvLoop (fill : Nat → UInt8) (b : CSimpleBuffer) (cs : List Chunk) : CSimpleBuffer :=
  makeFree fill (cs.foldl (recvChunk fill) b)

/-- The loop of `OnRead` over the PDUs in the buffer, and its `catch`. -/
def dispatch {σ : Type} (H : Handler σ) (s : In σ) : In σ :=
  match _h : CImPdu.readPdu (H.heap s.world) s.inBuf.mem s.inBuf.getWriteOffset with
  | .error _ => { s with status := .closed }
  | .ok none => s
  | .ok (some p) =>
    let pduLen := p.getLength
    match H.handlePdu s.world p with
    | (w, some _) => { s with world := w, status := .closed }
    | (w, none) => dispatch H { s with world := w, inBuf := (s.inBuf.read pduLen).2 }
termination_by s.inBuf.writeOffset
decreasing_by
  obtain ⟨n, hav, -, hlen⟩ := CImPdu.readPdu_some _h
  obtain ⟨-, -, hpos, hle⟩ := CImPdu.isPduAvailable_some hav
  have hoff : s.inBuf.getWriteOffset = s.inBuf.writeOffset := rfl
  rw [CSimpleBuffer.writeOffset_read]
  omega

def onRead {σ : Type} (H : Handler σ) (s : In σ) (cs : List Chunk) : In σ :=
  dispatch H { s with inBuf := recvLoop (H.heap s.world) s.inBuf cs }

/-- A read event, as `imconn_callback` passes it on to the virtual `OnRead`. -/
def readEvent {σ : Type} (onRead : In σ → List Chunk → In σ) (s : In σ) (cs : List Chunk) : In σ :=
  match s.status with
  | .live => onRead s cs
  | _ => s

/-! ## Sending -/

/-- The sending direction; `accepted` is what `netlib_send` has taken so far. -/
structure Out where
  busy : Bool
  outBuf : CSimpleBuffer
  accepted : Bytes
  deriving DecidableEq, Repr

/-- The answers of `netlib_send` during one call: to the `k`-th request for `size` bytes, never
    more than `size`. -/
structure Socket where
  send : Nat → Int → Int
  le : ∀ k size, send k size ≤ size

/-- `send_size`: what is asked of the socket when `remain` bytes are left. -/
def sendSize (remain : Int) : Int :=
  if remain > netlibMaxSocketBufSize then netlibMaxSocketBufSize else remain

theorem sendSize_le (remain : Int) : sendSize remain ≤ remain := by
  unfold sendSize
  split <;> omega

/-- The loop of `Send`: `offset`, `remain` and what the socket took, when it ends. -/
def sendLoop (sock : Socket) (data : Bytes) (k offset remain : Nat) (accepted : Bytes) :
    Nat × Nat × Bytes :=
  if remain > 0 then
    let ret := sock.send k (sendSize remain)
    if ret ≤ 0 then (offset, remain, accepted)
    else
      sendLoop sock data (k + 1) (offset + ret.toNat) (remain - ret.toNat)
        (accepted ++ slice data offset ret.toNat)
  else (offset, remain, accepted)
termination_by remain
decreasing_by omega

/-- `Send(data, len)`, with `len` the length of `data`. -/
def send (fill : Nat → UInt8) (sock : Socket) (s : Out) (data : Bytes) : Out :=
  if s.busy then
    { s with outBuf := s.outBuf.write fill (some data) data.length }
  else
    let (offset, remain, accepted) := sendLoop sock data 0 0 data.length s.accepted
    if remain > 0 then
      { busy := true
        outBuf := s.outBuf.write fill (some (data.drop offset)) remain
        accepted := accepted }
    else
      -- `OnWriteCompelete` is empty here
      { s with accepted := accepted }

/-- A `uint32_t` converted to `int`. -/
def toInt (n : Nat) : Int := if n < 2 ^ 31 then n else (n : Int) - 2 ^ 32

/-- The loop of `OnWrite`. -/
def writeLoop (sock : Socket) (k : Nat) (b : CSimpleBuffer) (accepted : Bytes) :
    CSimpleBuffer × Bytes :=
  if b.getWriteOffset > 0 then
    let ret := sock.send k (sendSize (toInt b.getWriteOffset))
    if ret ≤ 0 then (b, accepted)
    else writeLoop sock (k + 1) (b.read ret.toNat).2 (accepted ++ b.mem.take ret.toNat)
  else (b, accepted)
termination_by b.writeOffset
decreasing_by
  have hoff : b.getWriteOffset = b.writeOffset := rfl
  rw [CSimpleBuffer.writeOffset_read]
  omega

def onWrite (sock : Socket) (s : Out) : Out :=
  if !s.busy then s
  else
    let (b, accepted) := writeLoop sock 0 s.outBuf s.accepted
    { busy := if b.getWriteOffset = 0 then false else s.busy, outBuf := b, accepted := accepted }

end CImConn

end Global
end PtpCore
