import PtpCore.Lib.Assoc
import PtpCore.Lib.Counted
import PtpCore.Server.BusinessSrvConn

/-!
# The life of a connection (`ptp_global/EventDispatch.cpp`, `ptp_global/ImConn.cpp`)

One thread waits for sockets, and calls back. A socket passes an event on to the connection that is
in a map under its descriptor; timers and the list of responses reach connections too. A connection
is an object that is counted: it starts with one reference, `imconn_callback` holds another while it
runs, `Close` gives up the first. At zero the object is deleted.

The thread is a stack of frames, each of which is the rest of a call that has not returned
(`Frame`), and a step of the thread runs the top of it up to the next call. What a connection
sends is left out, and so are the users: both are in `world`, which the handlers of PDUs work on.
No handler closes a connection or counts references.

`log` is no part of the program; it has what the lives of connections are judged by: the calls of
their virtual functions, the bodies of `Close`, and the counts that reach zero.
-/

namespace PtpCore
namespace Server

open Lib
open PtpCore.Global

namespace Dispatch

/-- `NETLIB_INVALID_HANDLE`. -/
def netlibInvalidHandle : Int := -1

/-- `CLIENT_TIMEOUT`. -/
def clientTimeout : UInt64 := 120000

/-- `MOBILE_CLIENT_TIMEOUT`. -/
def mobileClientTimeout : UInt64 := 60000 * 5

/-- `TIMEOUT_WATI_LOGIN_RESPONSE`. -/
def timeoutWaitLoginResponse : UInt64 := 15000

/-- `SERVER_TIMEOUT`. -/
def serverTimeout : UInt64 := 30000

/-- `CMsgSrvConn` and `CBusinessSrvConn`. -/
inductive Kind
  | msg
  | business
  deriving DecidableEq, Repr

/-! ## Sockets -/

/-- The states of a socket that listens or was accepted. -/
inductive SocketState
  | listening
  | connected
  | closing
  deriving DecidableEq, Repr

/-- `m_callback` and `m_callback_data`: the callback of a listening socket, which makes
    connections, or `imconn_callback` with the map of the connections. -/
inductive Callback
  | listener (kind : Kind)
  | imconn (kind : Kind)
  deriving DecidableEq, Repr

structure CBaseSocket where
  socket : Int
  state : SocketState
  callback : Callback
  deriving DecidableEq, Repr

/-- `events[i].events`; the last one is `EPOLLPRI | EPOLLERR | EPOLLHUP`. -/
structure EpollEvents where
  rdHup : Bool := false
  input : Bool := false
  output : Bool := false
  excep : Bool := false
  deriving DecidableEq, Repr

inductive SocketCall
  | onClose
  | onRead
  | onWrite
  deriving DecidableEq, Repr

/-- The calls that `StartDispatch` makes for one socket. -/
def EpollEvents.calls (e : EpollEvents) : List SocketCall :=
  (if e.rdHup then [.onClose] else []) ++ (if e.input then [.onRead] else []) ++
    (if e.output then [.onWrite] else []) ++ (if e.excep then [.onClose] else [])

/-- `NETLIB_MSG_READ`, `NETLIB_MSG_WRITE`, `NETLIB_MSG_CLOSE`. -/
inductive Msg
  | read
  | write
  | close
  deriving DecidableEq, Repr

/-! ## The process -/

abbrev SocketRef := Nat

/-- A pointer to a `CMsgSrvConn` or a `CBusinessSrvConn`. -/
abbrev ConnRef := Nat

structure Conn where
  kind : Kind
  handle : Int
  uuid : UInt32
  refCount : Nat
  inBuf : CSimpleBuffer
  connectedTime : UInt64
  lastRecvTick : UInt64
  deriving DecidableEq, Repr

inductive Frame
  /-- The loop over the events of one `epoll_wait`. -/
  | events (rest : List (Int × EpollEvents))
  /-- The calls for one of its sockets. -/
  | calls (sock : SocketRef) (rest : List SocketCall)
  /-- `OnRead`, `OnWrite` or `OnClose`. -/
  | callback (msg : Msg) (conn : ConnRef)
  /-- The end of `imconn_callback`. -/
  | releaseRef (conn : ConnRef)
  | close (conn : ConnRef)
  /-- The loop of `msg_conn_timer_callback` or `proxy_timer_callback`, at an entry of the map. -/
  | timer (kind : Kind) (currTick : UInt64) (rest : List Int)
  | sendResponsePduList
  deriving DecidableEq, Repr

inductive Status
  | running
  /-- A null pointer was dereferenced. -/
  | crashed
  /-- An object was used that is deleted, or an iterator whose entry is erased. -/
  | fault
  deriving DecidableEq, Repr

structure Process (σ : Type) where
  /-- `g_socket_map`. -/
  socketMap : Assoc Int SocketRef
  sockets : Assoc SocketRef CBaseSocket
  nextSocket : SocketRef
  /-- `g_msg_conn_map` and `g_proxy_conn_map`. -/
  connMap : Kind → Assoc Int ConnRef
  /-- `g_uuid_conn_map`. -/
  uuidConnMap : Assoc UInt32 ConnRef
  uuidAlloctor : UInt32
  conns : Assoc ConnRef Conn
  nextConn : ConnRef
  /-- `s_response_pdu_list`: `conn_uuid`, and whether there is a PDU. -/
  responsePduList : List (UInt32 × Bool)
  world : σ
  stack : List Frame
  status : Status
  log : List (Life ConnRef)

/-- The code around the connections. -/
structure Code (σ : Type) where
  /-- `HandlePdu` of a `CMsgSrvConn`. -/
  handler : ConnRef → CImConn.Handler σ
  pool : CBusinessSrvConn.Pool σ
  hasHandler : UInt16 → Bool
  /-- `CHECK_CLIENT_TYPE_MOBILE(GetClientType())`. -/
  isMobile : σ → ConnRef → Bool
  isOpen : σ → ConnRef → Bool
  /-- What `CMsgSrvConn::Close` does to the user of the connection. -/
  leaveUser : σ → ConnRef → σ

/-- What the system says, where it is asked. -/
structure Input where
  /-- `accept`. -/
  accepted : Option Int := none
  /-- `FIONREAD` succeeds, and there is something. -/
  avail : Bool := true
  /-- `netlib_recv`. -/
  chunks : List Chunk := []
  now : UInt64 := 0

namespace Process

variable {σ : Type}

def start (world : σ) : Process σ :=
  ⟨[], [], 0, fun _ => [], [], 0, [], 0, [], world, [], .running, []⟩

def push (s : Process σ) (f : Frame) : Process σ := { s with stack := f :: s.stack }

def record (s : Process σ) (e : Life ConnRef) : Process σ := { s with log := s.log ++ [e] }

def fault (s : Process σ) : Process σ := { s with status := .fault }

/-- How many callbacks run on the connection. -/
def running (s : Process σ) (c : ConnRef) : Nat := s.stack.count (.releaseRef c)

def setConnMap (s : Process σ) (kind : Kind) (m : Assoc Int ConnRef) : Process σ :=
  { s with connMap := fun k => if k = kind then m else s.connMap k }

/-! ### References -/

/-- `AddRef`, in `FindImConn`. -/
def addRef (s : Process σ) (c : ConnRef) : Process σ :=
  match s.conns.find c with
  | none => s.fault
  | some conn => { s with conns := s.conns.set c { conn with refCount := conn.refCount + 1 } }

def releaseRef (s : Process σ) (c : ConnRef) : Process σ :=
  match s.conns.find c with
  | none => s.fault
  | some conn =>
    if conn.refCount - 1 = 0 then { s with conns := s.conns.erase c }.record (.zero c)
    else { s with conns := s.conns.set c { conn with refCount := conn.refCount - 1 } }

/-! ### Connecting and closing -/

/-- `netlib_close`, where the socket takes itself out of the map. -/
def netlibClose (s : Process σ) (handle : Int) : Process σ :=
  match s.socketMap.find handle with
  | none => s
  | some sock =>
    match s.sockets.find sock with
    | none => s
    | some socket => { s with socketMap := s.socketMap.erase socket.socket }

/-- `Close`, up to `ReleaseRef`. -/
def unregister (C : Code σ) (s : Process σ) (c : ConnRef) (conn : Conn) : Process σ :=
  let s := s.record (.closed c)
  let s :=
    if conn.handle ≠ netlibInvalidHandle then
      let s := s.netlibClose conn.handle
      let s := s.setConnMap conn.kind ((s.connMap conn.kind).erase conn.handle)
      match conn.kind with
      | .msg => s
      | .business => { s with uuidConnMap := s.uuidConnMap.erase conn.uuid }
    else s
  match conn.kind with
  | .msg => { s with world := C.leaveUser s.world c }
  | .business => s

/-- `CMsgSrvConn::Close` and `CBusinessSrvConn::Close`. -/
def close (C : Code σ) (s : Process σ) (c : ConnRef) : Process σ :=
  match s.conns.find c with
  | none => s.fault
  | some conn => (s.unregister C c conn).releaseRef c

/-- The constructors; that of `CBusinessSrvConn` takes a number. -/
def newConn (s : Process σ) (kind : Kind) (handle : Int) (now : UInt64) : Process σ :=
  let c := s.nextConn
  let conn : Conn := ⟨kind, handle, 0, 1, .empty, now, now⟩
  let s := { s with nextConn := c + 1 }
  match kind with
  | .msg => { s with conns := s.conns.set c conn }
  | .business =>
    let uuid : UInt32 := s.uuidAlloctor + 1
    let uuid := if uuid = 0 then uuid + 1 else uuid
    { s with
      uuidAlloctor := uuid
      uuidConnMap := s.uuidConnMap.insert uuid c
      conns := s.conns.set c { conn with uuid := uuid } }

/-- `netlib_option(.., NETLIB_OPT_SET_CALLBACK ..)`, and the data. -/
def setCallback (s : Process σ) (handle : Int) (callback : Callback) : Process σ :=
  match s.socketMap.find handle with
  | none => s
  | some sock =>
    match s.sockets.find sock with
    | none => s
    | some socket =>
      { s with sockets := s.sockets.set sock { socket with callback := callback } }

/-- `ptp_server_msg_callback` and its like: `new`, and `OnConnect`. -/
def onConnect (s : Process σ) (kind : Kind) (handle : Int) (now : UInt64) : Process σ :=
  let c := s.nextConn
  let s := s.newConn kind handle now
  (s.setConnMap kind ((s.connMap kind).insert handle c)).setCallback handle (.imconn kind)

/-- `new CBaseSocket` and `AddBaseSocket`. -/
def addBaseSocket (s : Process σ) (socket : CBaseSocket) : Process σ :=
  { s with
    sockets := s.sockets.set s.nextSocket socket
    socketMap := s.socketMap.insert socket.socket s.nextSocket
    nextSocket := s.nextSocket + 1 }

/-- The body of the loop in `_AcceptNewSocket`. -/
def acceptNewSocket (s : Process σ) (callback : Callback) (fd : Int) (now : UInt64) : Process σ :=
  let s := s.addBaseSocket ⟨fd, .connected, callback⟩
  match callback with
  | .listener kind => s.onConnect kind fd now
  | .imconn _ => s

/-! ### Callbacks -/

/-- `m_callback`. The callback of a listening socket only reports these messages. -/
def mCallback (s : Process σ) (socket : CBaseSocket) (msg : Msg) : Process σ :=
  match socket.callback with
  | .listener _ => s
  | .imconn kind =>
    match (s.connMap kind).find socket.socket with
    | none => s
    | some c =>
      (((s.addRef c).push (.releaseRef c)).push (.callback msg c)).record (.delivered c)

/-- `CBaseSocket::OnClose`, `OnRead` and `OnWrite`. -/
def socketCall (s : Process σ) (input : Input) (sock : SocketRef) (call : SocketCall)
    (rest : List SocketCall) : Process σ :=
  match s.sockets.find sock with
  | none => s
  | some socket =>
    match call with
    | .onClose =>
      let s := { s with sockets := s.sockets.set sock { socket with state := .closing } }
      (s.push (.calls sock rest)).mCallback socket .close
    | .onRead =>
      if socket.state = .listening then
        match input.accepted with
        | some fd =>
          -- the loop goes on
          (s.push (.calls sock (.onRead :: rest))).acceptNewSocket socket.callback fd input.now
        | none => s.push (.calls sock rest)
      else (s.push (.calls sock rest)).mCallback socket (if input.avail then .read else .close)
    | .onWrite => (s.push (.calls sock rest)).mCallback socket .write

def connOnRead (C : Code σ) (conn : Conn) (c : ConnRef) (world : σ) (cs : List Chunk) :
    CImConn.In σ :=
  match conn.kind with
  | .msg => CImConn.onRead (C.handler c) ⟨conn.inBuf, world, .live⟩ cs
  | .business =>
    CBusinessSrvConn.onRead C.pool.heap
      (CBusinessSrvConn.handlePduBuf C.pool C.hasHandler conn.uuid) ⟨conn.inBuf, world, .live⟩ cs

/-- `OnRead`, which calls `OnClose` where it catches an exception, `OnWrite` and `OnClose`. -/
def connCallback (C : Code σ) (s : Process σ) (input : Input) (msg : Msg) (c : ConnRef) :
    Process σ :=
  match s.conns.find c with
  | none => s.fault
  | some conn =>
    match msg with
    | .read =>
      let r := connOnRead C conn c s.world input.chunks
      let lastRecvTick := if input.chunks = [] then conn.lastRecvTick else input.now
      let s := { s with
        conns := s.conns.set c { conn with inBuf := r.inBuf, lastRecvTick := lastRecvTick }
        world := r.world }
      match r.status with
      | .live => s
      | .closed => s.push (.close c)
      | .crashed => { s.push (.callback .read c) with status := .crashed }
    | .write => s
    | .close => s.push (.close c)

/-- Does `OnTimer` close the connection? -/
def timedOut (C : Code σ) (world : σ) (c : ConnRef) (conn : Conn) (currTick : UInt64) : Bool :=
  match conn.kind with
  | .msg =>
    (if C.isMobile world c then currTick > conn.lastRecvTick + mobileClientTimeout
      else currTick > conn.lastRecvTick + clientTimeout) ||
      (!C.isOpen world c && currTick > conn.connectedTime + timeoutWaitLoginResponse)
  | .business => currTick > conn.lastRecvTick + serverTimeout

/-- The body of the loop over a map in a timer callback, at the entry of `fd`. -/
def onTimer (C : Code σ) (s : Process σ) (kind : Kind) (currTick : UInt64) (fd : Int) :
    Process σ :=
  match (s.connMap kind).find fd with
  | none => s.fault
  | some c =>
    match s.conns.find c with
    | none => s.fault
    | some conn =>
      let s := s.record (.delivered c)
      if timedOut C s.world c conn currTick then s.push (.close c) else s

/-- The body of the loop in `SendResponsePduList`. -/
def sendResponsePdu (s : Process σ) (uuid : UInt32) (pdu : Bool) : Process σ :=
  match s.uuidConnMap.find uuid with
  | none => s
  | some c =>
    match s.conns.find c with
    | none => s.fault
    | some _ =>
      let s := s.record (.delivered c)
      if pdu then s else s.push (.close c)

/-! ### Steps -/

/-- One step of the frame that was on top. -/
def runFrame (C : Code σ) (s : Process σ) (input : Input) : Frame → Process σ
  | .events [] => s
  | .events ((fd, e) :: rest) =>
    let s := s.push (.events rest)
    match s.socketMap.find fd with
    | none => s
    | some sock => s.push (.calls sock e.calls)
  | .calls _ [] => s
  | .calls sock (call :: rest) => s.socketCall input sock call rest
  | .callback msg c => s.connCallback C input msg c
  | .releaseRef c => s.releaseRef c
  | .close c => s.close C c
  | .timer _ _ [] => s
  | .timer kind currTick (fd :: rest) =>
    (s.push (.timer kind currTick rest)).onTimer C kind currTick fd
  | .sendResponsePduList =>
    match s.responsePduList with
    | [] => s
    | (uuid, pdu) :: rest =>
      ({ s with responsePduList := rest }.push .sendResponsePduList).sendResponsePdu uuid pdu

/-- A call from the loop of `StartDispatch`, where nothing else runs. -/
def begin (s : Process σ) (f : Frame) : Process σ :=
  match s.stack with
  | [] => s.push f
  | _ => s

end Process

inductive Step (σ : Type)
  | listen (fd : Int) (kind : Kind)
  | epollWait (events : List (Int × EpollEvents))
  | checkTimer (kind : Kind) (currTick : UInt64)
  | checkLoop
  /-- The thread goes on. -/
  | next (input : Input)
  /-- A worker has a response, or wants the connection closed. -/
  | addResponsePdu (connUuid : UInt32) (pdu : Bool)
  /-- What other code does. -/
  | elsewhere (world : σ)

def step {σ : Type} (C : Code σ) (s : Process σ) (e : Step σ) : Process σ :=
  match s.status with
  | .crashed | .fault => s
  | .running =>
    match e with
    | .listen fd kind => s.addBaseSocket ⟨fd, .listening, .listener kind⟩
    | .epollWait events => s.begin (.events events)
    | .checkTimer kind currTick => s.begin (.timer kind currTick ((s.connMap kind).map Prod.fst))
    | .checkLoop => s.begin .sendResponsePduList
    | .next input =>
      match s.stack with
      | [] => s
      | f :: rest => { s with stack := rest }.runFrame C input f
    | .addResponsePdu uuid pdu =>
      { s with responsePduList := s.responsePduList ++ [(uuid, pdu)] }
    | .elsewhere world => { s with world := world }

end Dispatch

end Server
end PtpCore
