import PtpCore.Global.ImConn

/-!
# Two connections and the stream between them

One direction of a link: a connection that sends PDUs and the one at the other end that reads them.
Between them is the stream of bytes that the socket of the first has taken. `netlib_recv` gives out
the next of them, as many as happen to have come. The two ends take their steps in any order.
-/

namespace PtpCore
namespace Global

open Lib

namespace CImConn

/-- `SendPdu`. -/
def sendPdu (fill : Nat → UInt8) (sock : Socket) (s : Out) (p : CImPdu) : Out :=
  send fill sock s p.buf.contents

/-- The results of `netlib_recv` in one `OnRead`, when `avail` is on its way and `cuts` says how
    much of it has come each time. The first that stores nothing ends the loop. -/
def chunks (avail : Bytes) : List Nat → List Chunk
  | [] => []
  | n :: cuts =>
    let data := avail.take (min n readBufSize)
    if h : 0 < data.length then
      ⟨data, h, Nat.le_trans (List.length_take_le _ _) (Nat.min_le_right _ _)⟩ ::
        chunks (avail.drop (min n readBufSize)) cuts
    else []

/-- `taken` is how many of the bytes that the socket accepted have been read at the other end. -/
structure Link (σ : Type) where
  out : Out
  taken : Nat
  inn : In σ

inductive LinkEvent
  | sendPdu (fill : Nat → UInt8) (sock : Socket) (p : CImPdu)
  | write (sock : Socket)
  | read (cuts : List Nat)

namespace Link

variable {σ : Type}

/-- A connection that is no longer live is not called, and takes nothing from its socket. -/
def step (H : Handler σ) (l : Link σ) : LinkEvent → Link σ
  | .sendPdu fill sock p => { l with out := CImConn.sendPdu fill sock l.out p }
  | .write sock => { l with out := onWrite sock l.out }
  | .read cuts =>
    match l.inn.status with
    | .live =>
      let cs := chunks (l.out.accepted.drop l.taken) cuts
      { l with inn := onRead H l.inn cs, taken := l.taken + (cs.flatMap Chunk.data).length }
    | _ => l

end Link

end CImConn

end Global
end PtpCore
