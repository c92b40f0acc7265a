import PtpCore.Server.AuthAction

/-!
# Dispatching PDUs (`HandlerMap.cpp`, `MsgSrvConn.cpp`, `BusinessClientConn.cpp`, `ProxyTask.cpp`)

`HandleNextResponse` finds the handler for a command id and acts on its response. A `Next` PDU is
handled at once in synchronous mode. In asynchronous mode it is sent to the business server with
the descriptor of the connection in the `reversed` field; the answer comes back with the same
number, and `CBusinessClientConn::HandlePdu` looks the connection up by it.

One table serves all of this, so a PDU of any command id may come from a client.
-/

namespace PtpCore
namespace Server

open Lib Proto
open PtpCore.Global

/-- The handlers of `CHandlerMap::Init`. -/
inductive Action
  | authCaptchaReq
  | authLoginReq
  | serverLoginReq
  | serverLoginRes
  | heartBeatNotify
  deriving DecidableEq, Repr

def getHandler (pduCid : UInt16) : Option Action :=
  if pduCid = cidAuthCaptchaReq then some .authCaptchaReq
  else if pduCid = cidAuthLoginReq then some .authLoginReq
  else if pduCid = cidServerLoginReq then some .serverLoginReq
  else if pduCid = cidServerLoginRes then some .serverLoginRes
  else if pduCid = cidHeartBeatNotify then some .heartBeatNotify
  else none

section

variable (l : Libs) (env : Env)

def Action.run (fill : Nat → UInt8) (request : CRequest) (s : MsgServer) :
    Action → HandlerResult
  | .authCaptchaReq => Server.authCaptchaReq l env fill request s
  | .authLoginReq => Server.authLoginReq l env fill request s
  | .serverLoginReq => Server.serverLoginReq l env fill request s
  | .serverLoginRes => Server.serverLoginRes l env fill request s
  | .heartBeatNotify => (s, .ok {})

/-- What happens to the response of a handler on connection `c`; `again` handles a PDU. -/
def respond (async : Bool) (k : Nat) (again : CImPdu → MsgServer → MsgServer × Option Fault)
    (c : ConnId) (handle : UInt32) (response : CResponse) (s : MsgServer) :
    MsgServer × Option Fault :=
  match response.isPduValid, response.pdu with
  | true, some pdu =>
    if response.isNext then
      if async then
        if env.businessConnOpen then
          let pdu := pdu.setReversed handle
          ({ s with pending := s.pending ++ [⟨c, handle, pdu⟩] }, none)
        else
          let msgRes := l.proto.heartBeatNotify.serialize {}
          let pduLoginErr := CImPdu.new.setPBMsgCmd (env.heap (2 * k + 1)) msgRes pdu.getCommandId
            pdu.getSeqNum
          (s.sendPdu c (pduLoginErr.setFlag (UInt16.ofNat ERR.eReasonNoDbServer.code)), none)
      else again pdu s
    else (s.sendPdu c pdu, none)
  | _, _ => (s, none)

/-- `HandleNextResponse` on connection `c`; `async` is `isEnable()`. -/
def handleNextResponse (async : Bool) : Nat → ConnId → CImPdu → MsgServer →
    MsgServer × Option Fault
  | 0, _, _, s => (s, some .endless)
  | k + 1, c, pdu, s =>
    match s.conns.find c with
    | none => (s, some .nullConn)
    | some conn =>
      match getHandler pdu.getCommandId with
      | none => (s.sendPdu c pdu, none)
      | some action =>
        if async ∧ pdu.getCommandId = cidAuthLoginReq ∧ env.loginConnOpen = false then
          let msgLoginRes := l.proto.authLoginRes.serialize { error := some .eReasonNoDbServer }
          (s.sendPdu c (CImPdu.new.setPBMsgCmd (env.heap (2 * k + 1)) msgLoginRes cidAuthLoginRes
            pdu.getSeqNum), none)
        else
          match action.run l env (env.heap (2 * k)) ⟨conn.handle, pdu⟩ s with
          | (s, .error fault) => (s, some fault)
          | (s, .ok response) =>
            respond l env async k (handleNextResponse async k c) c conn.handle response s

/-- `CMsgSrvConn::HandlePdu`. A request is passed on twice at most. -/
def handlePdu (async : Bool) (c : ConnId) (pdu : CImPdu) (s : MsgServer) :
    MsgServer × Option Fault :=
  handleNextResponse l env async 3 c pdu s

/-- `CBusinessClientConn::HandlePdu`: an answer of the business server. -/
def handleBusinessPdu (pdu : CImPdu) (s : MsgServer) : MsgServer × Option Fault :=
  match getHandler pdu.getCommandId with
  | none => (s, none)
  | some _ =>
    match s.findMsgSrvConnByHandle pdu.getReversed with
    | none => (s, none)
    | some (c, _) => handleNextResponse l env true 3 c pdu s

/-- `CProxyTask::run` with its handler, in the business server: the PDU that is sent back, with
    the number it came with, or `none` when the connection is closed instead. -/
def CProxyTask.run (t : CProxyTask) (action : Action) (s : MsgServer) :
    MsgServer × Except Fault (Option CImPdu) :=
  match action.run l env (env.heap 0) ⟨t.connUuid, t.pdu⟩ s with
  | (s, .error fault) => (s, .error fault)
  | (s, .ok response) =>
    match response.isPduValid, response.pdu with
    | true, some pdu => (s, .ok (some (pdu.setReversed t.pdu.getReversed)))
    | _, _ => (s, .ok none)

end

end Server
end PtpCore
