import PtpCore.Net.AccountKeys
import PtpCore.Server.HandleResponse
import PtpCore.Server.ServerLogin

/-!
# Tasks of the business server (`ptp_server/ProxyTask.cpp`)

A task runs the handler of its PDU on a worker thread and leaves an entry in a list, from which the
main thread sends. Nothing around the handler catches an exception. The message server lives in the
same process, so a handler finds its connections and users there; it looks a connection up by the
number of the task, which counts connections of the business server.

`ServerLogin` is taken call by call here: it waits when no connection to Redis is free, and a
recovery id that is none ends the process.
-/

namespace PtpCore
namespace Server

open Lib Proto Crypto
open PtpCore.Global PtpCore.Net PtpCore.Wallet

/-- The libraries with the keys of `HDKey.cpp`. -/
def Libs.ofHD (proto : Library) (secp : Secp256k1) (p : HDPrimitives) : Libs where
  proto := proto
  secp := secp
  keys := hdKeyEncoder p
  privateKey := HDKey.privateKey

/-- `ResponsePdu_t`. Without a PDU it asks for the connection to be closed. -/
structure ResponsePdu where
  connUuid : UInt32
  pdu : Option CImPdu
  deriving DecidableEq, Repr

structure Worker where
  server : MsgServer
  pool : CachePool
  responsePduList : List ResponsePdu

namespace Worker

/-- `CBusinessSrvConn::AddResponsePdu`. -/
def addResponsePdu (w : Worker) (connUuid : UInt32) (pdu : Option CImPdu) : Worker :=
  { w with responsePduList := w.responsePduList ++ [⟨connUuid, pdu⟩] }

def setServer (w : Worker) (s : MsgServer) : Worker := { w with server := s }

def setPool (w : Worker) (pool : CachePool) : Worker := { w with pool := pool }

end Worker

/-- What a task meets. The replies of Redis take the place of `env.cache`. -/
structure TaskEnv where
  env : Env
  /-- `Init` of a new connection to Redis succeeds. -/
  initOk : Bool
  replies : LoginReplies

def TaskEnv.login (e : TaskEnv) : LoginEnv := ⟨e.env.beyond, e.initOk, e.replies⟩

section

variable (l : Libs) (e : TaskEnv)

/-- `ServerLoginReq`; `none` when `ServerLogin` does not return. -/
def Worker.serverLoginReq (fill : Nat → UInt8) (request : CRequest) (w : Worker) :
    Option (Worker × Except Fault CResponse) :=
  let seqNum := request.pdu.getSeqNum
  let reply (msgRsp : ServerLoginRes) : CResponse :=
    .next fill (l.proto.serverLoginRes.serialize msgRsp) cidServerLoginRes seqNum
  match l.proto.serverLoginReq.parse request.pdu.body with
  | (msg, false) =>
    some (w.setServer (w.server.record (.refused .ePbParseError)), .ok (reply
      { attachData := some (msg.attachData.getD []), error := some .ePbParseError }))
  | (msg, true) =>
    match e.login.run l.secp e.env.now msg w.pool with
    | none => none
    | some (.error fault, pool) => some (w.setPool pool, .error fault)
    | some (.ok login, pool) =>
      some ((w.setPool pool).setServer (w.server.record (loginEvent e.env msg login.error)),
        .ok (reply
          { attachData := some (msg.attachData.getD [])
            error := some login.error
            userInfo := some login.user }))

/-- A handler on a worker thread. -/
def Action.runOn (fill : Nat → UInt8) (request : CRequest) (w : Worker) :
    Action → Option (Worker × Except Fault CResponse)
  | .serverLoginReq => w.serverLoginReq l e fill request
  | action =>
    let (s, result) := action.run l e.env fill request w.server
    some (w.setServer s, result)

/-- `CProxyTask::run`: `none` when the handler does not return, and the fault when an exception
    leaves it or a null pointer is dereferenced. -/
def CProxyTask.runOn (t : CProxyTask) (action : Action) (w : Worker) :
    Option (Worker × Option Fault) :=
  match action.runOn l e (e.env.heap 0) ⟨t.connUuid, t.pdu⟩ w with
  | none => none
  | some (w, .error fault) => some (w, some fault)
  | some (w, .ok response) =>
    match response.isPduValid, response.pdu with
    | true, some pdu =>
      some (w.addResponsePdu t.connUuid (some (pdu.setReversed t.pdu.getReversed)), none)
    | _, _ => some (w.addResponsePdu t.connUuid none, none)

end

end Server
end PtpCore
