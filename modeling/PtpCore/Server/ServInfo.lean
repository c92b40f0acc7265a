import PtpCore.Lib.Assoc

/-!
# Connections to the business servers (`ptp_global/ServInfo.h`, `ptp_server/BusinessClientConn.cpp`)

The message server has a list of business servers, with a slot for the connection to each. A timer
fills the slots that are empty, after a waiting time that grows. A connection that is closed empties
its slot; it is found by its descriptor, in `g_business_server_conn_map`.

What is sent over the connections is left out, and so are the addresses of the servers. The attempts
to connect are kept in a list.
-/

namespace PtpCore
namespace Server

open Lib

namespace ServInfo

/-- `NETLIB_INVALID_HANDLE`. -/
def netlibInvalidHandle : Int := -1

/-- `MAX_RECONNECT_CNT` and `MIN_RECONNECT_CNT`. -/
def maxReconnectCnt : UInt32 := 64

def minReconnectCnt : UInt32 := 4

/-- `SERVER_TIMEOUT`. -/
def serverTimeout : UInt64 := 30000

/-- A pointer to a `CBusinessClientConn`. -/
abbrev ConnRef := Nat

/-- `serv_info_t`. -/
structure Slot where
  idleCnt : UInt32
  reconnectCnt : UInt32
  servConn : Option ConnRef
  deriving DecidableEq, Repr

structure CBusinessClientConn where
  handle : Int
  isOpen : Bool := false
  servIdx : Nat
  lastRecvTick : UInt64
  deriving DecidableEq, Repr

/-- `g_db_server_list`, `g_business_server_conn_map`, and the objects. -/
structure BusinessConns where
  serverList : List Slot
  connMap : Assoc Int ConnRef
  conns : Assoc ConnRef CBusinessClientConn
  nextConn : ConnRef
  /-- The slots that a connection was started for. -/
  attempts : List Nat
  deriving DecidableEq, Repr

namespace BusinessConns

def start : BusinessConns := ⟨[], [], [], 0, []⟩

def updateSlot (s : BusinessConns) (i : Nat) (f : Slot → Slot) : BusinessConns :=
  { s with serverList := s.serverList.modify i f }

/-- `new T()` and `Connect`, and the slot then; `handle` is what `netlib_connect` returns. -/
def connect (s : BusinessConns) (i : Nat) (handle : Int) (now : UInt64) : BusinessConns :=
  let c := s.nextConn
  let s := { s with
    conns := s.conns.set c { handle := handle, servIdx := i, lastRecvTick := now }
    connMap := if handle ≠ netlibInvalidHandle then s.connMap.insert handle c else s.connMap
    nextConn := c + 1
    attempts := s.attempts ++ [i] }
  s.updateSlot i fun slot => { slot with servConn := some c }

/-- The body of the loop in `serv_init`. -/
def initSlot (handles : Nat → Int) (now : UInt64) (s : BusinessConns) (i : Nat) : BusinessConns :=
  (s.connect i (handles i) now).updateSlot i fun slot =>
    { slot with idleCnt := 0, reconnectCnt := minReconnectCnt / 2 }

/-- `init_business_serv_conn`, of a list that `read_server_config` has made. -/
def servInit (s : BusinessConns) (serverList : List Slot) (handles : Nat → Int) (now : UInt64) :
    BusinessConns :=
  (List.range serverList.length).foldl (initSlot handles now) { s with serverList := serverList }

/-- The body of the loop in `serv_check_reconnect`. -/
def checkSlot (handles : Nat → Int) (now : UInt64) (s : BusinessConns) (i : Nat) : BusinessConns :=
  match s.serverList[i]? with
  | none => s
  | some slot =>
    if slot.servConn = none then
      let s := s.updateSlot i fun slot => { slot with idleCnt := slot.idleCnt + 1 }
      if slot.idleCnt + 1 ≥ slot.reconnectCnt then s.connect i (handles i) now else s
    else s

def servCheckReconnect (s : BusinessConns) (handles : Nat → Int) (now : UInt64) : BusinessConns :=
  (List.range s.serverList.length).foldl (checkSlot handles now) s

def servReset (s : BusinessConns) (servIdx : Nat) : BusinessConns :=
  s.updateSlot servIdx fun slot =>
    let reconnectCnt := slot.reconnectCnt * 2
    { servConn := none
      idleCnt := 0
      reconnectCnt := if reconnectCnt > maxReconnectCnt then minReconnectCnt else reconnectCnt }

/-- `CBusinessClientConn::Close`, and the deletion of the object by the last `ReleaseRef`. -/
def close (s : BusinessConns) (c : ConnRef) : BusinessConns :=
  match s.conns.find c with
  | none => s
  | some conn =>
    let s := s.servReset conn.servIdx
    { s with
      connMap :=
        if conn.handle ≠ netlibInvalidHandle then s.connMap.erase conn.handle else s.connMap
      conns := s.conns.erase c }

/-- `CBusinessClientConn::OnConfirm`. -/
def onConfirm (s : BusinessConns) (c : ConnRef) : BusinessConns :=
  match s.conns.find c with
  | none => s
  | some conn =>
    { s with conns := s.conns.set c { conn with isOpen := true } }.updateSlot conn.servIdx
      fun slot => { slot with reconnectCnt := minReconnectCnt / 2 }

/-- `CBusinessClientConn::OnTimer`, of a connection that is open. -/
def onTimer (currTick : UInt64) (s : BusinessConns) (c : ConnRef) : BusinessConns :=
  match s.conns.find c with
  | none => s
  | some conn =>
    if conn.isOpen ∧ currTick > conn.lastRecvTick + serverTimeout then s.close c else s

/-- The connection with this descriptor, if there is one. -/
def onHandle (s : BusinessConns) (handle : Int) (f : BusinessConns → ConnRef → BusinessConns) :
    BusinessConns :=
  match s.connMap.find handle with
  | none => s
  | some c => f s c

/-- The loop over the connections in `business_server_conn_timer_callback`, entry by entry. The
    iterator is moved on before an entry may be erased. -/
def timeouts (s : BusinessConns) (curTime : UInt64) : BusinessConns :=
  (s.connMap.map Prod.fst).foldl (fun s handle => s.onHandle handle (onTimer curTime)) s

/-- `business_server_conn_timer_callback`. -/
def timerCallback (s : BusinessConns) (curTime : UInt64) (handles : Nat → Int) : BusinessConns :=
  (s.timeouts curTime).servCheckReconnect handles curTime

def onRead (s : BusinessConns) (c : ConnRef) (now : UInt64) : BusinessConns :=
  match s.conns.find c with
  | none => s
  | some conn => { s with conns := s.conns.set c { conn with lastRecvTick := now } }

end BusinessConns

/-- What can happen. The handles are what `netlib_connect` returns for a slot, if it is called. -/
inductive ConnEvent
  | init (serverList : List Slot) (handles : Nat → Int) (now : UInt64)
  | tick (curTime : UInt64) (handles : Nat → Int)
  | confirm (handle : Int)
  | closed (handle : Int)
  | received (handle : Int) (now : UInt64)

def connStep (s : BusinessConns) : ConnEvent → BusinessConns
  | .init serverList handles now => s.servInit serverList handles now
  | .tick curTime handles => s.timerCallback curTime handles
  | .confirm handle => s.onHandle handle .onConfirm
  | .closed handle => s.onHandle handle .close
  | .received handle now => s.onHandle handle fun s c => s.onRead c now

end ServInfo

end Server
end PtpCore
