import PtpCore.Server.ProxyTask

/-!
# Dispatching without a business server (`MsgSrvConn.cpp`)

`HandleNextResponse` in synchronous mode, with `ServerLogin` taken call by call: the handlers of a
login run one after the other on the thread of the connection, and the whole of it does not return
when `ServerLogin` does not. `HandleResponse` has the same function with the results of `ServerLogin`
at hand, for both modes.
-/

namespace PtpCore
namespace Server

open Lib Proto
open PtpCore.Global

namespace Worker

def sendPdu (w : Worker) (c : ConnId) (pdu : CImPdu) : Worker :=
  w.setServer (w.server.sendPdu c pdu)

/-- What happens to the response of a handler on connection `c`; `again` handles a PDU. -/
def respond (again : CImPdu → Worker → Option (Worker × Option Fault)) (c : ConnId)
    (response : CResponse) (w : Worker) : Option (Worker × Option Fault) :=
  match response.isPduValid, response.pdu with
  | true, some pdu => if response.isNext then again pdu w else some (w.sendPdu c pdu, none)
  | _, _ => some (w, none)

variable (l : Libs) (e : TaskEnv)

/-- `HandleNextResponse` on connection `c`: `none` when a handler does not return, and the fault when
    an exception leaves it or a null pointer is dereferenced. -/
def handleNextResponse : Nat → ConnId → CImPdu → Worker → Option (Worker × Option Fault)
  | 0, _, _, w => some (w, some .endless)
  | k + 1, c, pdu, w =>
    match w.server.conns.find c with
    | none => some (w, some .nullConn)
    | some conn =>
      match getHandler pdu.getCommandId with
      | none => some (w.sendPdu c pdu, none)
      | some action =>
        match action.runOn l e (e.env.heap (2 * k)) ⟨conn.handle, pdu⟩ w with
        | none => none
        | some (w, .error fault) => some (w, some fault)
        | some (w, .ok response) => w.respond (handleNextResponse k c) c response

/-- `CMsgSrvConn::HandlePdu`. A request is passed on twice at most. -/
def handlePdu (c : ConnId) (pdu : CImPdu) (w : Worker) : Option (Worker × Option Fault) :=
  w.handleNextResponse l e 3 c pdu

end Worker

/-! ## The server -/

inductive SyncEvent
  /-- A client connects, and the system gives this descriptor. -/
  | connect (handle : UInt32)
  | close (c : ConnId)
  /-- A PDU of a client, and what handling it meets. -/
  | recv (e : TaskEnv) (c : ConnId) (pdu : CImPdu)

/-- `none` when the server does not go on: a handler does not return, or ends the process. -/
def Worker.syncStep (l : Libs) (w : Worker) : SyncEvent → Option Worker
  | .connect handle => some (w.setServer (w.server.onConnect handle))
  | .close c => some (w.setServer (w.server.close c))
  | .recv e c pdu =>
    match w.handlePdu l e c pdu with
    | some (w, none) => some w
    | _ => none

/-- The system gives no descriptor that is open. -/
def SyncEvent.Possible (w : Worker) : SyncEvent → Prop
  | .connect handle => w.server.msgConnMap.find handle = none
  | _ => True

/-- The states that the server can reach. -/
inductive Worker.Reached (l : Libs) : Worker → Prop
  | start (pool : CachePool) : Reached l ⟨.empty, pool, []⟩
  | step {w w' : Worker} {event : SyncEvent} (h : Reached l w) (hpossible : event.Possible w)
      (hstep : w.syncStep l event = some w') : Reached l w'

end Server
end PtpCore
