import PtpCore.Lib.Assoc
import PtpCore.Lib.Loop
import PtpCore.Net.AccountPdu

/-!
# Connections of the client (`ptp_net/ClientConn.cpp`, `ptp_net/AccountManager.cpp`)

The globals of `ClientConn.cpp` are the state: where the client is with its connection, the counters
of the timer, the connections by descriptor and by account, and the objects themselves. A map is
kept in the order in which it is iterated.

The five loops over the maps leave the iterator where it is. They are given a number of passes they
may make; `none` says that they are not out of the loop after that many.
-/

namespace PtpCore
namespace Net

open Lib

/-- `NETLIB_INVALID_HANDLE`. -/
def netlibInvalidHandle : Int := -1

/-- `MAX_RECONNECT_CNT`. -/
def maxReconnectCnt : UInt32 := 32

/-- `CLIENT_HEARTBEAT_INTERVAL` and `MOBILE_CLIENT_TIMEOUT`. -/
def clientHeartbeatInterval : UInt64 := 30000

def mobileClientTimeout : UInt64 := 60000 * 5

/-- A pointer to a `CClientConn`. -/
abbrev ClientConnRef := Nat

structure CClientConn where
  handle : Int := netlibInvalidHandle
  isOpen : Bool := false
  accountId : UInt32 := 0
  lastSendTick : UInt64
  lastRecvTick : UInt64
  deriving DecidableEq, Repr

/-- What others see of the client. -/
inductive ClientNotice
  /-- `m_delegate->onConnectionStateChanged`. -/
  | stateChanged (state : ConnectionState)
  | heartBeat (conn : ClientConnRef)
  deriving DecidableEq, Repr

/-- `connectionState` is zero at first, which is none of its values. -/
structure ClientState where
  connectionState : Option ConnectionState
  currentAccountId : UInt32
  connectingCnt : UInt32
  timerCnt : UInt32
  idleCnt : UInt32
  reconnectCnt : UInt32
  msgConnMap : Assoc Int ClientConnRef
  accountMsgConnMap : Assoc UInt32 ClientConnRef
  conns : Assoc ClientConnRef CClientConn
  nextConn : ClientConnRef
  notices : List ClientNotice
  deriving DecidableEq, Repr

namespace ClientState

def start : ClientState := ⟨none, 0, 0, 0, 0, 0, [], [], [], 0, []⟩

/-- `connectionState = state`, and `onConnectionStateChanged`. -/
def setState (s : ClientState) (state : ConnectionState) : ClientState :=
  { s with
    connectionState := some state
    notices := s.notices ++ [.stateChanged state] }

def setConn (s : ClientState) (c : ClientConnRef) (conn : CClientConn) : ClientState :=
  { s with conns := s.conns.set c conn }

/-- `set_current_account_id`. -/
def setCurrentAccountId (s : ClientState) (accountId : UInt32) : ClientState :=
  { s with currentAccountId := accountId }

/-- `new CClientConn()`, at the time `now`. -/
def newConn (s : ClientState) (now : UInt64) : ClientConnRef × ClientState :=
  (s.nextConn, { s with
    conns := s.conns.set s.nextConn { lastSendTick := now, lastRecvTick := now }
    nextConn := s.nextConn + 1 })

/-- A connection is entered in both maps. -/
def enter (s : ClientState) (handle : Int) (accountId : UInt32) (c : ClientConnRef) : ClientState :=
  { s with
    msgConnMap := s.msgConnMap.insert handle c
    accountMsgConnMap := s.accountMsgConnMap.insert accountId c }

/-- `CClientConn::Connect`; `handle` is what `netlib_connect` returns. -/
def connect (s : ClientState) (c : ClientConnRef) (handle : Int) (accountId : UInt32) :
    ClientState :=
  match s.conns.find c with
  | none => s
  | some conn =>
    let s := (s.setState .connecting).setConn c { conn with accountId := accountId, handle := handle }
    if handle ≠ netlibInvalidHandle then s.enter handle accountId c else s

/-- The counters in `Close`. -/
def backOff (s : ClientState) : ClientState :=
  let reconnectCnt := if s.reconnectCnt = 0 then 1 else s.reconnectCnt * 2
  if reconnectCnt > maxReconnectCnt then { s with reconnectCnt := 1, idleCnt := 0 }
  else { s with reconnectCnt := reconnectCnt }

/-- The entries of a connection are erased: by its descriptor, and by its account. -/
def erase (s : ClientState) (conn : CClientConn) : ClientState :=
  { s with
    msgConnMap := s.msgConnMap.erase conn.handle
    accountMsgConnMap := s.accountMsgConnMap.erase conn.accountId }

/-- `CClientConn::Close`, and the deletion of the object by the last `ReleaseRef`. -/
def close (s : ClientState) (c : ClientConnRef) : ClientState :=
  match s.conns.find c with
  | none => s
  | some conn =>
    let s := (s.setState .closed).backOff
    let s := if conn.handle ≠ netlibInvalidHandle then s.erase conn else s
    { s with conns := s.conns.erase c }

/-- `CClientConn::OnConfirm`. -/
def onConfirm (s : ClientState) (c : ClientConnRef) : ClientState :=
  match s.conns.find c with
  | none => s
  | some conn =>
    ({ s.setConn c { conn with isOpen := true } with
      reconnectCnt := 0
      idleCnt := 0
      connectingCnt := 0 } : ClientState).setState .connected

/-- `CClientConn::OnTimer`. -/
def onTimer (s : ClientState) (c : ClientConnRef) (currTick : UInt64) : ClientState :=
  match s.conns.find c with
  | none => s
  | some conn =>
    if s.currentAccountId ≠ conn.accountId then s.close c
    else
      let s :=
        if currTick > conn.lastSendTick + clientHeartbeatInterval ∧
            s.connectionState = some .logged then
          { s with notices := s.notices ++ [.heartBeat c] }
        else s
      if currTick > conn.lastRecvTick + mobileClientTimeout then s.close c else s

/-- `get_conn`. -/
def getConn (s : ClientState) (accountId : UInt32) : Option ClientConnRef :=
  s.accountMsgConnMap.find accountId

/-- `begin()` of the map by account. -/
def firstAccount (s : ClientState) : Option UInt32 := s.accountMsgConnMap.head?.map Prod.fst

def findAccount (s : ClientState) (accountId : UInt32) : Option ClientConnRef :=
  s.accountMsgConnMap.find accountId

def isOpen (s : ClientState) (c : ClientConnRef) : Bool := (s.conns.find c).any (·.isOpen)

/-! ## The timer -/

abbrev AccountPass := Pass (ClientState × Option UInt32) ClientState

/-- The body of the loop in `msg_conn_timer_callback`. -/
def timerVisit (curTime : UInt64) (s : ClientState) (accountId : UInt32) (c : ClientConnRef) :
    AccountPass :=
  if accountId = s.currentAccountId then
    .leave (if s.isOpen c then s.onTimer c curTime else s)
  else .again (s, some accountId)

/-- The loop. -/
def timerLoop (s : ClientState) (n : Nat) (curTime : UInt64) : Option ClientState :=
  outOf (scan findAccount (timerVisit curTime)) n (s, s.firstAccount)

/-- The body of the loop in `close_msg_conn`. -/
def closeVisit (accountId : UInt32) (s : ClientState) (account : UInt32) (c : ClientConnRef) :
    AccountPass :=
  if account = accountId then
    if s.isOpen c then .leave (s.close c) else .again (s, some account)
  else .again (s, some account)

/-- `close_msg_conn`. -/
def closeMsgConn (n : Nat) (s : ClientState) (accountId : UInt32) : Option ClientState :=
  outOf (scan findAccount (closeVisit accountId)) n (s, s.firstAccount)

/-- `init_msg_conn`, but for the timer it registers and the event loop it enters. -/
def initMsgConn (s : ClientState) (accountId : UInt32) (handle : Int) (now : UInt64) :
    ClientState :=
  let (c, s) := s.newConn now
  s.connect c handle accountId

/-- `if (timer_cnt++ > 100) timer_cnt = 0`. -/
def countTimer (s : ClientState) : ClientState :=
  { s with timerCnt := if s.timerCnt > 100 then 0 else s.timerCnt + 1 }

/-- The counters of the timer. -/
def countIdle (s : ClientState) : ClientState :=
  if s.connectionState = some .closed then { s with idleCnt := s.idleCnt + 1 } else s

def countConnecting (s : ClientState) : ClientState :=
  if s.connectionState = some .connecting then { s with connectingCnt := s.connectingCnt + 1 } else s

/-- A connection that takes too long. -/
def giveUp (n : Nat) (s : ClientState) : Option ClientState :=
  if s.connectingCnt > 30 then
    { s with connectingCnt := 0 }.closeMsgConn n s.currentAccountId
  else some s

/-- The next attempt, when it is time for it. -/
def reconnect (s : ClientState) (handle : Int) (now : UInt64) : ClientState :=
  if s.idleCnt ≥ s.reconnectCnt ∧ s.connectionState = some .closed then
    s.initMsgConn s.currentAccountId handle now
  else s

/-- `msg_conn_timer_callback` at the time `curTime`; `handle` is what `netlib_connect` returns if it
    is called. -/
def msgConnTimerCallback (n : Nat) (s : ClientState) (curTime : UInt64) (handle : Int) :
    Option ClientState :=
  let s := s.countTimer
  match if s.connectionState = some .connected then s.timerLoop n curTime else some s with
  | none => none
  | some s =>
    if s.reconnectCnt > 0 then
      (s.countIdle.countConnecting.giveUp n).map (·.reconnect handle curTime)
    else some s

end ClientState

/-! ## What happens to a client -/

inductive ClientEvent
  | initMsgConn (accountId : UInt32) (handle : Int) (now : UInt64)
  /-- `imconn_callback` with `NETLIB_MSG_CONFIRM`: the connection is made. -/
  | confirm (handle : Int)
  /-- With `NETLIB_MSG_CLOSE`: it failed after all, or the peer has closed it. -/
  | closed (handle : Int)
  /-- With `NETLIB_MSG_READ`, as far as the timer sees it. -/
  | received (handle : Int) (now : UInt64)
  | setCurrentAccountId (accountId : UInt32)
  | tick (curTime : UInt64) (handle : Int)
  /-- The map by account is iterated in another order from now on. -/
  | reorder (m : Assoc UInt32 ClientConnRef)

/-- What `imconn_callback` does with the connection it finds. -/
def ClientState.onHandle (s : ClientState) (handle : Int)
    (f : ClientState → ClientConnRef → ClientState) : ClientState :=
  match s.msgConnMap.find handle with
  | none => s
  | some c => f s c

def ClientState.onRead (s : ClientState) (c : ClientConnRef) (now : UInt64) : ClientState :=
  match s.conns.find c with
  | none => s
  | some conn => s.setConn c { conn with lastRecvTick := now }

def clientStep (n : Nat) (s : ClientState) : ClientEvent → Option ClientState
  | .initMsgConn accountId handle now => some (s.initMsgConn accountId handle now)
  | .confirm handle => some (s.onHandle handle .onConfirm)
  | .closed handle => some (s.onHandle handle .close)
  | .received handle now => some (s.onHandle handle fun s c => s.onRead c now)
  | .setCurrentAccountId accountId => some (s.setCurrentAccountId accountId)
  | .tick curTime handle => s.msgConnTimerCallback n curTime handle
  | .reorder m => some { s with accountMsgConnMap := m }

/-! ## The sockets of the accounts (`AccountManager.cpp`) -/

inductive AccountNotice
  /-- `AccountManager::onConnectionStateChanged`. -/
  | stateChanged (state : ConnectionState) (accountId : UInt32)
  /-- `getCurrentAccount().upsertEntropy()`. -/
  | upsertEntropy (accountId : UInt32)
  deriving DecidableEq, Repr

/-- `g_socket_account_map`, of whose accounts only the ids are read. -/
structure SocketAccounts where
  socketAccountMap : Assoc Int UInt32
  currentAccountId : UInt32
  notices : List AccountNotice
  deriving DecidableEq, Repr

namespace SocketAccounts

def firstSocket (s : SocketAccounts) : Option Int := s.socketAccountMap.head?.map Prod.fst

def findSocket (s : SocketAccounts) (socketFd : Int) : Option UInt32 :=
  s.socketAccountMap.find socketFd

def eraseSocket (s : SocketAccounts) (socketFd : Int) : SocketAccounts :=
  { s with socketAccountMap := s.socketAccountMap.erase socketFd }

def notify (s : SocketAccounts) (notice : AccountNotice) : SocketAccounts :=
  { s with notices := s.notices ++ [notice] }

abbrev SocketPass := Pass (SocketAccounts × Option Int) SocketAccounts

/-- The body of the loop in `onConnecting`. The iterator stays at the key that is erased. -/
def connectingVisit (s : SocketAccounts) (fd : Int) (accountId : UInt32) : SocketPass :=
  if accountId = s.currentAccountId then .again (s.eraseSocket fd, some fd)
  else .again (s, some fd)

/-- The body of the loop in `onClose`. -/
def closeVisit (socketFd : Int) (s : SocketAccounts) (fd : Int) (accountId : UInt32) : SocketPass :=
  if fd = socketFd then
    .leave ((s.notify (.stateChanged .closed accountId)).eraseSocket socketFd)
  else .again (s, some fd)

/-- The body of the loop in `onRead`. -/
def readVisit (socketFd : Int) (s : SocketAccounts) (fd : Int) (_ : UInt32) : SocketPass :=
  if fd = socketFd then .leave s else .again (s, some fd)

/-- A loop over the map, within `n` passes. -/
def loopSockets (n : Nat) (visit : SocketAccounts → Int → UInt32 → SocketPass) (s : SocketAccounts) :
    Option SocketAccounts :=
  outOf (scan findSocket visit) n (s, s.firstSocket)

/-- `AccountManager::onConnecting`. -/
def onConnecting (n : Nat) (s : SocketAccounts) (instanceNum socketFd : Int) :
    Option SocketAccounts :=
  if instanceNum ≠ 0 ∨ socketFd = -1 then some s
  else
    (loopSockets n connectingVisit s).map fun s =>
      (({ s with socketAccountMap := s.socketAccountMap.insert socketFd s.currentAccountId } :
          SocketAccounts).notify (.upsertEntropy s.currentAccountId)).notify
        (.stateChanged .connecting s.currentAccountId)

/-- `AccountManager::onClose`. -/
def onClose (n : Nat) (s : SocketAccounts) (instanceNum socketFd : Int) : Option SocketAccounts :=
  if instanceNum ≠ 0 then some s
  else if socketFd ≠ -1 then loopSockets n (closeVisit socketFd) s
  else some s

/-- `AccountManager::onRead`. -/
def onRead (n : Nat) (s : SocketAccounts) (instanceNum socketFd : Int) : Option SocketAccounts :=
  if instanceNum ≠ 0 then some s
  else if socketFd ≠ -1 then loopSockets n (readVisit socketFd) s
  else some s

end SocketAccounts

end Net
end PtpCore
