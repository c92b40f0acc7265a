import PtpCore.Proof.Server.OneReply
import PtpCore.Server.AsyncLogin

/-!
# With and without a business server

A login by way of the business server, against the same login in synchronous mode. The handlers are
the same and are given the same: the request and its result are written, sent and read back, and
what they do with the number of a connection comes to the same connection. The reply is written to
its last byte. It all rests on the result being written. When it is not, the PDU is judged by memory
that nobody wrote to, on either side.
-/

namespace PtpCore
namespace Proof
namespace Server

open Lib Proto PtpCore.Crypto
open PtpCore.Global PtpCore.Server
open PtpCore.Proof.Global

/-! ## PDUs that were written -/

section

variable {data : Bytes} (h : data.length < 2 ^ 31) (cid seq : UInt16) (v : UInt32)
include h

end

/-! ## States that a handler cannot tell apart -/

/-- The connections and the users are the same. -/
structure SameTables (s t : MsgServer) : Prop where
  conns : t.conns = s.conns
  msgConnMap : t.msgConnMap = s.msgConnMap
  users : t.users = s.users

section

variable {s t : MsgServer}

theorem SameTables.find (h : SameTables s t) (handle : UInt32) :
    t.findMsgSrvConnByHandle handle = s.findMsgSrvConnByHandle handle := by
  rw [MsgServer.findMsgSrvConnByHandle, MsgServer.findMsgSrvConnByHandle, h.msgConnMap, h.conns]

theorem SameTables.openConn (h : SameTables s t) (c : ConnId) (conn : CMsgSrvConn) (user : UserRef)
    (handle : UInt32) (info : UserInfo) (secret : Bytes) :
    SameTables (openConn s c conn user handle info secret)
      (openConn t c conn user handle info secret) where
  conns := by
    change t.conns.set c _ = s.conns.set c _
    rw [h.conns]
  msgConnMap := h.msgConnMap
  users := by
    change ((t.users.modify user _).addImUserById _ user) = _
    rw [h.users]
    rfl

theorem SameTables.sendPdu (h : SameTables s t) (c : ConnId) (p p' : CImPdu) :
    SameTables (s.sendPdu c p) (t.sendPdu c p') := ⟨h.conns, h.msgConnMap, h.users⟩

variable (l : Libs) {env env' : Env} (fill fill' : Nat → UInt8) (handle : UInt32) {q q' : CImPdu}

end

/-! ## What the client and the tables show -/

section

variable {s t t' : MsgServer}

end

/-! ## The parts of a login -/

section

variable {l : Libs} {env : Env} {a : AsyncEnv} {s : MsgServer} {b : Worker} {c : ConnId}
  {conn : CMsgSrvConn} {p : CImPdu} {uuid : UInt32} {msg : AuthLoginReq} {data : Bytes}

end

/-! ## The two paths -/

section

variable (l : Libs) (e : TaskEnv) (uuid : UInt32) (c : ConnId) (conn : CMsgSrvConn) (p : CImPdu)
  (w b : Worker)

/-- Messages without a missing field are short enough to be written. -/
structure Fits : Prop where
  request : ∀ {msg}, l.proto.authLoginReq.parse p.body = (msg, true) →
    l.proto.serverLoginReq.serialize (loginRequest conn msg) ≠ none
  result : ∀ {msg login pool}, l.proto.authLoginReq.parse p.body = (msg, true) →
    e.login.run l.secp e.env.now (loginRequest conn msg) w.pool = some (.ok login, pool) →
    Message.isInitialized login.user = true →
    l.proto.serverLoginRes.serialize (resultOf conn login) ≠ none
  reply : ∀ {msg login pool} error, l.proto.authLoginReq.parse p.body = (msg, true) →
    e.login.run l.secp e.env.now (loginRequest conn msg) w.pool = some (.ok login, pool) →
    l.proto.authLoginRes.serialize
      { error := some error, userInfo := some (replyUser login.user) } ≠ none

variable {l e uuid c conn p w b}

variable (l e uuid c conn p w b)

end

/-! ## A login that is refused, by two libraries -/

end Server
end Proof
end PtpCore
