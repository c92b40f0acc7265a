import PtpCore.Net.AccountPdu
import PtpCore.Server.ProxyTask

/-!
# A client and its connection

An account at one end and the message server at the other, with the PDUs on their way between them
in order. The application asks for a captcha whenever it likes, and may send a login request again,
or before there is a captcha; the account answers the answer to a captcha request with a login
request by itself. In asynchronous mode a login waits for the business server in between.

Each side handles the PDU as it has read it from the socket, so what it has read comes with the
step, along with everything else that handling it meets.
-/

namespace PtpCore
namespace Net

open Lib Wallet Crypto Proto
open PtpCore.Global PtpCore.Server

structure Session (l : ClientLibs) where
  account : Account l.storage.Files
  server : MsgServer
  toServer : List CImPdu
  toClient : List CImPdu

/-- What the business server does with one request. -/
structure BusinessTurn where
  env : Env
  task : CProxyTask
  server : MsgServer

inductive SessionStep
  | requestCaptcha (heap : Nat → UInt8) (seqNum : UInt16)
  | requestLogin (env : ClientEnv) (captcha : Bytes)
  /-- The server handles the first PDU on its way, which it has read as `q`. -/
  | serve (env : Env) (q : CImPdu)
  | receive (env : ClientEnv) (q : CImPdu)
  /-- The answer to the `k`-th request that waits, which the message server has read as `p`. -/
  | answer (k : Nat) (turn : BusinessTurn) (env : Env) (p : CImPdu)
  /-- Whatever happens on other connections. -/
  | others (t : MsgServer)

/-- The PDUs for `c` among these events. -/
def sentTo (c : ConnId) (es : List Event) : List CImPdu :=
  es.filterMap fun
    | .sent d pdu => if d = c then some pdu else none
    | _ => none

section

variable (l : ClientLibs) (async : Bool) (c : ConnId)

/-- The server has the same libraries. -/
def ClientLibs.server : Libs := .ofHD l.proto l.secp l.hd

variable {l}

/-- The server is in state `t` now, and what it has sent is on its way. -/
def Session.serverAt (s : Session l) (t : MsgServer) : Session l :=
  { s with
    server := t
    toClient := s.toClient ++ sentTo c (t.log.drop s.server.log.length) }

/-- The account, and what it gives to `_SendPdu`, if it gets there. -/
def Session.clientAt (s : Session l) (a : Account l.storage.Files)
    (sent : Except NetFault (Option CImPdu)) : Session l :=
  { s with
    account := a
    toServer := s.toServer ++ match sent with
      | .ok (some pdu) => [pdu]
      | _ => [] }

def Session.setToServer (s : Session l) (pdus : List CImPdu) : Session l :=
  { s with toServer := pdus }

def Session.setToClient (s : Session l) (pdus : List CImPdu) : Session l :=
  { s with toClient := pdus }

/-- A login request that the application asks for. -/
def Account.requestLogin (env : ClientEnv) (captcha : Bytes) (a : Account l.storage.Files) :
    Account l.storage.Files × Except NetFault (Option CImPdu) :=
  match AccountManager.getAccountAddress (hdKeyEncoder l.hd) l.storage env.memory env.depth
    a.manager with
  | none => (a, .error .stackOverflow)
  | some (address, manager) =>
    let a := { a with manager := manager }
    (a, (a.sendPdu l.gcm env (loginRequest l env manager address captcha)).2.map some)

def sessionStep (s : Session l) : SessionStep → Session l
  | .requestCaptcha heap seqNum =>
    let pdu := CImPdu.new.setPBMsgCmd heap (l.proto.authCaptchaReq.serialize {}) cidAuthCaptchaReq
      seqNum
    s.clientAt s.account (.ok (some pdu))
  | .requestLogin env captcha =>
    let (a, sent) := s.account.requestLogin env captcha
    s.clientAt a sent
  | .serve env q =>
    (s.setToServer s.toServer.tail).serverAt c (handlePdu l.server env async c q s.server).1
  | .receive env q =>
    let (a, sent) := s.account.handlePdu l env q
    (s.setToClient s.toClient.tail).clientAt a sent
  | .answer k _ env p =>
    let server := { s.server with pending := s.server.pending.eraseIdx k }
    s.serverAt c (handleBusinessPdu l.server env p server).1
  | .others t =>
    match s.server.conns.find c with
    | none => s
    | some conn =>
      s.serverAt c { t with
        conns := t.conns.set c conn
        msgConnMap := t.msgConnMap.set conn.handle c
        pending := s.server.pending
        log := s.server.log }

end

end Net
end PtpCore
