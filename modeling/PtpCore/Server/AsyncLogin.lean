import PtpCore.Server.ProxyTask

/-!
# A login by way of the business server

The three parts of a login in asynchronous mode, one after the other and with nothing in between:
`CMsgSrvConn::HandleNextResponse` forwards the request over `CBusinessClientConn`, a `CProxyTask` of
the business server runs its handler, and `CBusinessClientConn::HandlePdu` takes the answer. Two PDUs
go over a socket, and are read there by `ReadPdu`.
-/

namespace PtpCore
namespace Server

open Lib Proto
open PtpCore.Global

/-- What the three parts meet. -/
structure AsyncEnv where
  forward : Env
  task : TaskEnv
  back : Env
  /-- What the blocks hold that `ReadPdu` allocates on either side. -/
  requestBuf : Nat → UInt8
  responseBuf : Nat → UInt8

/-- The first PDU that the other side reads from the bytes of `pdu`, if it can read one. -/
def receive (fill : Nat → UInt8) (pdu : CImPdu) : Option CImPdu :=
  match CImPdu.readPdu fill pdu.buf.contents pdu.buf.contents.length with
  | .ok q => q
  | .error _ => none

section

variable (l : Libs) (a : AsyncEnv)

/-- What the message server makes of an answer; there is none when the connection is closed
    instead. -/
def returnResponse (response : Option CImPdu) (s : MsgServer) : MsgServer × Option Fault :=
  match response.bind (receive a.responseBuf) with
  | none => (s, none)
  | some pdu => handleBusinessPdu l a.back pdu s

/-- The business server gets a request, and its task is run; `none` when that does not end. -/
def runRequest (connUuid : UInt32) (request : CImPdu) (b : Worker) (s : MsgServer) :
    Option (MsgServer × Option Fault) :=
  match receive a.requestBuf request with
  | none => some (s, none)
  | some pdu =>
    match getHandler pdu.getCommandId with
    | none => some (s, none)
    | some action =>
      match CProxyTask.runOn l a.task ⟨connUuid, pdu⟩ action b with
      | none => none
      | some (_, some fault) => some (s, some fault)
      | some (b, none) =>
        some (returnResponse l a (b.responsePduList.getLast?.bind ResponsePdu.pdu) s)

/-- A PDU of a client, until the message server has its answer. -/
def asyncLogin (connUuid : UInt32) (c : ConnId) (pdu : CImPdu) (b : Worker) (s : MsgServer) :
    Option (MsgServer × Option Fault) :=
  match handlePdu l a.forward true c pdu s with
  | (t, some fault) => some (t, some fault)
  | (t, none) =>
    match t.pending[s.pending.length]? with
    | none => some (t, none)
    | some request => runRequest l a connUuid request.pdu b { t with pending := s.pending }

end

end Server
end PtpCore
