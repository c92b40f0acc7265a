import PtpCore.Server.ProxyTask

/-!
# The business server (`BusinessSrvConn.cpp`, `ThreadPool.cpp`)

The main thread accepts connections, reads PDUs and makes a task of each; a worker thread runs a
task and leaves an entry in a list; the main thread takes the entries one by one, looks for the
connection by the number that the task has kept, and sends or closes. The lock of a list is held for
one operation only, so anything may happen between any two steps.

`requests`, the numbers into it, and `sent` are no part of the program. A request is a PDU that a
task was made for, and its number follows the task and the entry that comes out of it.
-/

namespace PtpCore
namespace Server

open Lib
open PtpCore.Global

/-- A pointer to a `CBusinessSrvConn`. -/
abbrev BusinessConnRef := Nat

structure CBusinessSrvConn where
  uuid : UInt32
  handle : Int := -1
  deriving DecidableEq, Repr

structure QueuedTask where
  request : Nat
  task : CProxyTask
  deriving DecidableEq, Repr

/-- `m_task_list`, and the task that `Execute` is running. -/
structure CWorkerThread where
  taskList : List QueuedTask
  running : Option QueuedTask
  deriving DecidableEq, Repr

structure QueuedResponse where
  request : Nat
  response : ResponsePdu
  deriving DecidableEq, Repr

/-- `SendPdu` with the response to a request. -/
structure SentResponse where
  request : Nat
  conn : BusinessConnRef
  pdu : CImPdu
  deriving DecidableEq, Repr

structure BusinessServer where
  uuidAlloctor : UInt32
  conns : Assoc BusinessConnRef CBusinessSrvConn
  nextConn : Nat
  proxyConnMap : Assoc Int BusinessConnRef
  uuidConnMap : Assoc UInt32 BusinessConnRef
  workers : List CWorkerThread
  responsePduList : List QueuedResponse
  /-- `pResp`, between taking it from the list and being done with it. -/
  resp : Option QueuedResponse
  /-- What the handlers share with the rest of the process. -/
  server : MsgServer
  pool : CachePool
  /-- The process is gone. -/
  halted : Bool
  requests : List (BusinessConnRef × CImPdu)
  sent : List SentResponse

namespace BusinessServer

/-- `CThreadPool::Init`, before the first connection. -/
def start (workerSize : Nat) (server : MsgServer) (pool : CachePool) : BusinessServer where
  uuidAlloctor := 0
  conns := []
  nextConn := 0
  proxyConnMap := []
  uuidConnMap := []
  workers := List.replicate workerSize ⟨[], none⟩
  responsePduList := []
  resp := none
  server := server
  pool := pool
  halted := false
  requests := []
  sent := []

/-- The constructor: the next number, but not zero. -/
def allocUuid (uuidAlloctor : UInt32) : UInt32 :=
  if uuidAlloctor + 1 = 0 then uuidAlloctor + 1 + 1 else uuidAlloctor + 1

/-- `new CBusinessSrvConn()` and `OnConnect(handle)`, with a descriptor from `accept`. -/
def onConnect (s : BusinessServer) (handle : Nat) : BusinessServer :=
  let uuid := allocUuid s.uuidAlloctor
  { s with
    uuidAlloctor := uuid
    conns := s.conns.set s.nextConn ⟨uuid, handle⟩
    nextConn := s.nextConn + 1
    uuidConnMap := s.uuidConnMap.insert uuid s.nextConn
    proxyConnMap := s.proxyConnMap.insert handle s.nextConn }

/-- `Close`, and the deletion of the object by the last `ReleaseRef`. -/
def close (s : BusinessServer) (c : BusinessConnRef) : BusinessServer :=
  match s.conns.find c with
  | none => s
  | some conn =>
    if conn.handle ≠ -1 then
      { s with
        proxyConnMap := s.proxyConnMap.erase conn.handle
        uuidConnMap := s.uuidConnMap.erase conn.uuid
        conns := s.conns.erase c }
    else { s with conns := s.conns.erase c }

/-- `get_proxy_conn_by_uuid`. -/
def getProxyConnByUuid (s : BusinessServer) (uuid : UInt32) : Option BusinessConnRef :=
  s.uuidConnMap.find uuid

def setWorker (s : BusinessServer) (i : Nat) (w : CWorkerThread) : BusinessServer :=
  { s with workers := s.workers.set i w }

def halt (s : BusinessServer) : BusinessServer := { s with halted := true }

/-- `CThreadPool::AddTask` of a task for a PDU of `c`; `random` picks the thread, and there is no
    remainder by zero. -/
def addTask (c : BusinessConnRef) (random : Nat) (s : BusinessServer) (t : CProxyTask) :
    BusinessServer :=
  let threadIdx := random % s.workers.length
  match s.workers[threadIdx]? with
  | none => s.halt
  | some w =>
    { s.setWorker threadIdx { w with taskList := w.taskList ++ [⟨s.requests.length, t⟩] } with
      requests := s.requests ++ [(c, t.pdu)] }

/-- `HandlePduBuf` on `c`, and what `OnRead` does about an exception. -/
def handlePduBuf (s : BusinessServer) (c : BusinessConnRef) (pduBuf : Bytes) (heap : Nat → UInt8)
    (random : Nat) : BusinessServer :=
  match s.conns.find c with
  | none => s
  | some conn =>
    let hasHandler cid := (getHandler cid).isSome
    match CBusinessSrvConn.handlePduBuf ⟨fun _ => heap, addTask c random⟩ hasHandler conn.uuid s
      pduBuf with
    | (s, none) => s
    | (s, some (.threw _)) => s.close c
    | (s, some .nullDeref) => s.halt

/-- `Execute` takes the next task. -/
def take (s : BusinessServer) (i : Nat) : BusinessServer :=
  match s.workers[i]? with
  | some ⟨t :: taskList, none⟩ => s.setWorker i ⟨taskList, some t⟩
  | _ => s

def worker (s : BusinessServer) : Worker := ⟨s.server, s.pool, []⟩

/-- What is left of a task that has been run: entries in the list, or no process. -/
def finish (s : BusinessServer) (i : Nat) (w : CWorkerThread) (request : Nat) :
    Worker × Option Fault → BusinessServer
  | (_, some _) => s.halt
  | (r, none) =>
    { s.setWorker i { w with running := none } with
      server := r.server
      pool := r.pool
      responsePduList := s.responsePduList ++ r.responsePduList.map (⟨request, ·⟩) }

/-- `pTask->run()` and `delete pTask`. Nothing has happened yet if the handler does not return. -/
def run (l : Libs) (e : TaskEnv) (s : BusinessServer) (i : Nat) : BusinessServer :=
  match s.workers[i]? with
  | some ⟨taskList, some t⟩ =>
    match getHandler t.task.pdu.getCommandId with
    | none => s.setWorker i ⟨taskList, none⟩
    | some action =>
      match t.task.runOn l e action s.worker with
      | none => s
      | some result => s.finish i ⟨taskList, some t⟩ t.request result
  | _ => s

/-- `SendResponsePduList` under the lock: the next entry. -/
def popResponse (s : BusinessServer) : BusinessServer :=
  match s.resp, s.responsePduList with
  | none, resp :: rest => { s with resp := some resp, responsePduList := rest }
  | _, _ => s

/-- `pConn->SendPdu(pResp->pPdu)`. -/
def sendPdu (s : BusinessServer) (request : Nat) (c : BusinessConnRef) (pdu : CImPdu) :
    BusinessServer :=
  { s with sent := s.sent ++ [⟨request, c, pdu⟩] }

def done (s : BusinessServer) : BusinessServer := { s with resp := none }

/-- And without the lock: the entry is sent, or closes its connection. -/
def sendResponse (s : BusinessServer) : BusinessServer :=
  match s.resp with
  | none => s
  | some r =>
    match s.getProxyConnByUuid r.response.connUuid with
    | none => s.done
    | some c =>
      match r.response.pdu with
      | some pdu => (s.sendPdu r.request c pdu).done
      | none => (s.close c).done

end BusinessServer

/-- Steps of the main thread, of the workers, and of the rest of the process. -/
inductive BusinessEvent
  | connect (handle : Nat)
  /-- `OnClose`, or the timeout in `OnTimer`. -/
  | close (c : BusinessConnRef)
  | pdu (c : BusinessConnRef) (pduBuf : Bytes) (heap : Nat → UInt8) (random : Nat)
  | take (i : Nat)
  | run (i : Nat) (e : TaskEnv)
  | popResponse
  | sendResponse
  | elsewhere (server : MsgServer) (pool : CachePool)

def businessStep (l : Libs) (s : BusinessServer) (e : BusinessEvent) : BusinessServer :=
  if s.halted then s
  else
    match e with
    | .connect handle => s.onConnect handle
    | .close c => s.close c
    | .pdu c pduBuf heap random => s.handlePduBuf c pduBuf heap random
    | .take i => s.take i
    | .run i e => s.run l e i
    | .popResponse => s.popResponse
    | .sendResponse => s.sendResponse
    | .elsewhere server pool => { s with server := server, pool := pool }

end Server
end PtpCore
