import PtpCore.Global.ImPdu
import PtpCore.Proto.Messages
import PtpCore.Server.ImUser

/-!
# Client connections of the message server (`ptp_server/MsgSrvConn.cpp`)

The state of the message server: the connection objects, the map that finds one by its file
descriptor, the users, and the requests that were sent to the business server and have not been
answered. A connection is an object of its own, and its descriptor is a number that the system
gives again once it is closed.

`log` is no part of the program. It records what a run is judged by: which captchas were issued on
which connection, which signatures were accepted or refused, which connections were opened, and
what was sent to whom.
-/

namespace PtpCore
namespace Server

open Lib Proto
open PtpCore.Global

structure CMsgSrvConn where
  handle : UInt32
  userId : UInt32 := 0
  isOpen : Bool := false
  shareKey : Bytes := []
  iv : Bytes := []
  aad : Bytes := []
  prvKey : Bytes := []
  captcha : Bytes := []
  address : Bytes := []
  clientType : Option ClientType := none
  clientVersion : Bytes := []
  onlineStatus : UInt32 := userStatOnline
  loginTime : UInt32 := 0
  deriving DecidableEq, Repr

/-- A request to the business server that is not answered yet, and the connection it was made
    for. -/
structure Pending where
  origin : ConnId
  handle : UInt32
  pdu : CImPdu
  deriving DecidableEq, Repr

inductive Event
  /-- `SetCaptcha` in `AuthCaptchaReq`. -/
  | issued (conn : ConnId) (captcha : Bytes)
  /-- `ServerLogin` found that `sig` over the captcha recovers to the address that was claimed. -/
  | accepted (captcha sig address : Bytes)
  /-- `ServerLoginReq` ends with this error. -/
  | refused (error : ERR)
  /-- `SetOpen`, for the user with this address; the connection has `connAddress`. -/
  | opened (conn : ConnId) (address connAddress : Bytes)
  /-- `SendPdu`. -/
  | sent (conn : ConnId) (pdu : CImPdu)
  deriving DecidableEq, Repr

structure MsgServer where
  conns : Assoc ConnId CMsgSrvConn
  nextConn : ConnId
  msgConnMap : Assoc UInt32 ConnId
  users : CImUserManager
  pending : List Pending
  log : List Event
  deriving DecidableEq, Repr

namespace MsgServer

def empty : MsgServer := ⟨[], 0, [], .empty, [], []⟩

def record (s : MsgServer) (e : Event) : MsgServer := { s with log := s.log ++ [e] }

/-- `FindMsgSrvConnByHandle`, with the object it points to. -/
def findMsgSrvConnByHandle (s : MsgServer) (connHandle : UInt32) : Option (ConnId × CMsgSrvConn) :=
  match s.msgConnMap.find connHandle with
  | none => none
  | some c => (s.conns.find c).map fun conn => (c, conn)

/-- Setters called on a connection. -/
def setConn (s : MsgServer) (c : ConnId) (conn : CMsgSrvConn) : MsgServer :=
  { s with conns := s.conns.set c conn }

/-- `new CMsgSrvConn()` and `OnConnect(handle)`. -/
def onConnect (s : MsgServer) (handle : UInt32) : MsgServer :=
  { s with
    conns := s.conns.set s.nextConn { handle := handle }
    nextConn := s.nextConn + 1
    msgConnMap := s.msgConnMap.insert handle s.nextConn }

/-- What `Close` does to the user of a connection. -/
def closeUser (users : CImUserManager) (conn : CMsgSrvConn) : CImUserManager :=
  match users.getImUserByAddress conn.address with
  | none => users
  | some user =>
    let users := users.modify user (·.delMsgConn conn.handle)
    match users.users.find user with
    | some u => if u.isMsgConnEmpty then users.removeImUser user else users
    | none => users

/-- `Close`, and the deletion of the object by the last `ReleaseRef`. -/
def close (s : MsgServer) (c : ConnId) : MsgServer :=
  match s.conns.find c with
  | none => s
  | some conn =>
    { s with
      msgConnMap := s.msgConnMap.erase conn.handle
      users := closeUser s.users conn
      conns := s.conns.erase c }

/-- `SendPdu` on a connection. -/
def sendPdu (s : MsgServer) (c : ConnId) (pdu : CImPdu) : MsgServer := s.record (.sent c pdu)

end MsgServer

end Server
end PtpCore
