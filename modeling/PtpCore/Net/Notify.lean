import PtpCore.Net.BuffersStorage

/-!
# Notifications (`ptp_net/AccountManager.cpp`, `ptp_net/ClientConn.cpp`)

A notification is written into a buffer from `BuffersStorage`, and `onNotify` passes it to the
delegate of the application. A delegate reads the buffer until it returns; before that it may ask
for buffers and send notifications itself, so calls of delegates are nested.

What is written into a buffer is left out. A buffer is known by its address, and `new` may return
any address where there is no object.
-/

namespace PtpCore
namespace Net

open Lib

/-- A pointer to a `NativeByteBuffer`. -/
abbrev BufferRef := Nat

/-- What `reuse` asks of a buffer. -/
structure BufferObject where
  capacity : Nat
  sliced : Bool := false
  deriving DecidableEq, Repr

/-- The two files that have an `m_delegate` and an `onNotify`. -/
inductive Notifier
  | accountManager
  | clientConn
  deriving DecidableEq, Repr

structure Notifications where
  /-- The lists of `BuffersStorage`. -/
  freeBuffers : SizeClass → List BufferRef
  /-- The objects there are. -/
  buffers : Assoc BufferRef BufferObject
  /-- Is `m_delegate` set? -/
  delegates : Notifier → Bool
  /-- The buffers that somebody has asked for and still has. -/
  held : List BufferRef
  /-- The buffers of the calls of delegates that have not returned. -/
  handling : List BufferRef

namespace Notifications

/-- `BuffersStorage::BuffersStorage`: four buffers of eight bytes and five of 128. -/
def start : Notifications where
  freeBuffers
    | .b8 => [0, 1, 2, 3]
    | .b128 => [4, 5, 6, 7, 8]
    | _ => []
  buffers := ([0, 1, 2, 3].map fun b => (b, { capacity := 8 })) ++
    [4, 5, 6, 7, 8].map fun b => (b, { capacity := 128 })
  delegates _ := false
  held := []
  handling := []

def setFree (s : Notifications) (c : SizeClass) (list : List BufferRef) : Notifications :=
  { s with freeBuffers := fun c' => if c' = c then list else s.freeBuffers c' }

/-- `new NativeByteBuffer`. -/
def create (s : Notifications) (addr : BufferRef) (o : BufferObject) : Notifications :=
  { s with buffers := s.buffers.set addr o, held := addr :: s.held }

def release (s : Notifications) (buffer : BufferRef) : Notifications :=
  { s with held := s.held.filter (· ≠ buffer) }

def delete (s : Notifications) (buffer : BufferRef) : Notifications :=
  { s.release buffer with buffers := s.buffers.erase buffer }

/-- `getFreeBuffer`; `addr` is what `new` returns. -/
def getFreeBuffer (s : Notifications) (size : UInt32) (addr : BufferRef) :
    BufferRef × Notifications :=
  match SizeClass.ofSize size.toNat with
  | none => (addr, s.create addr { capacity := size.toNat })
  | some c =>
    match s.freeBuffers c with
    | buffer :: rest => (buffer, { s.setFree c rest with held := buffer :: s.held })
    | [] => (addr, s.create addr { capacity := c.byteCount })

def reuseFreeBuffer (s : Notifications) (buffer : BufferRef) (capacity : Nat) : Notifications :=
  match SizeClass.ofCapacity capacity with
  | none => s.delete buffer
  | some c =>
    if (s.freeBuffers c).length < c.maxCount then
      (s.release buffer).setFree c (s.freeBuffers c ++ [buffer])
    else s.delete buffer

/-- `NativeByteBuffer::reuse`. -/
def reuse (s : Notifications) (buffer : BufferRef) : Notifications :=
  match s.buffers.find buffer with
  | none => s
  | some o => if o.sliced then s else s.reuseFreeBuffer buffer o.capacity

/-- `onNotify`, up to where the delegate starts. -/
def onNotify (s : Notifications) (notifier : Notifier) (buffer : BufferRef) : Notifications :=
  if s.delegates notifier then
    let s := s.reuse buffer
    { s with handling := buffer :: s.handling }
  else s

end Notifications

inductive NotifyEvent
  | getFreeBuffer (size : UInt32) (addr : BufferRef)
  /-- `NativeByteBuffer(uint8_t *, uint32_t)`. -/
  | wrap (addr : BufferRef) (length : UInt32)
  | reuse (buffer : BufferRef)
  | setDelegate (notifier : Notifier) (present : Bool)
  | onNotify (notifier : Notifier) (buffer : BufferRef)
  /-- A delegate returns. -/
  | returned (buffer : BufferRef)

def notifyStep (s : Notifications) : NotifyEvent → Notifications
  | .getFreeBuffer size addr => (s.getFreeBuffer size addr).2
  | .wrap addr length => s.create addr { capacity := length.toNat, sliced := true }
  | .reuse buffer => s.reuse buffer
  | .setDelegate notifier present =>
    { s with delegates := fun n => if n = notifier then present else s.delegates n }
  | .onNotify notifier buffer => s.onNotify notifier buffer
  | .returned buffer => { s with handling := s.handling.erase buffer }

end Net
end PtpCore
