import PtpCore.Net.ClientConn

/-!
# What the functions of `CClientConn` do

One statement for each function, field by field: the counters, the two maps and the objects.
-/

namespace PtpCore
namespace Proof
namespace Net

open Lib
open PtpCore.Net

variable {s : ClientState} {c : ClientConnRef} {conn : CClientConn} {handle : Int}
  {accountId : UInt32}

/-- A connection that is registered. -/
def Registered (s : ClientState) (c : ClientConnRef) (conn : CClientConn) : Prop :=
  s.conns.find c = some conn ∧ s.msgConnMap.find conn.handle = some c

/-- The connection as `Connect` leaves it. -/
def dialled (conn : CClientConn) (handle : Int) (accountId : UInt32) : CClientConn :=
  { conn with accountId := accountId, handle := handle }

/-- `s'` is `s` after `Connect`. -/
structure AfterConnect (s s' : ClientState) (c : ClientConnRef) (conn : CClientConn) (handle : Int)
    (accountId : UInt32) : Prop where
  connectionState : s'.connectionState = some .connecting
  currentAccountId : s'.currentAccountId = s.currentAccountId
  connectingCnt : s'.connectingCnt = s.connectingCnt
  reconnectCnt : s'.reconnectCnt = s.reconnectCnt
  conns : s'.conns = s.conns.set c (dialled conn handle accountId)
  nextConn : s'.nextConn = s.nextConn
  msgConnMap : s'.msgConnMap =
    if handle ≠ netlibInvalidHandle then s.msgConnMap.insert handle c else s.msgConnMap
  accountMsgConnMap : s'.accountMsgConnMap =
    if handle ≠ netlibInvalidHandle then s.accountMsgConnMap.insert accountId c
    else s.accountMsgConnMap

theorem afterConnect (hconn : s.conns.find c = some conn) :
    AfterConnect s (s.connect c handle accountId) c conn handle accountId := by
  rw [ClientState.connect, hconn]
  dsimp only
  by_cases hvalid : handle ≠ netlibInvalidHandle
  · rw [if_pos hvalid]
    exact ⟨rfl, rfl, rfl, rfl, rfl, rfl, (if_pos hvalid).symm, (if_pos hvalid).symm⟩
  · rw [if_neg hvalid]
    exact ⟨rfl, rfl, rfl, rfl, rfl, rfl, (if_neg hvalid).symm, (if_neg hvalid).symm⟩

/-- The waiting time after `Close`: doubled, and one again past the maximum. -/
def backedOff (reconnectCnt : UInt32) : UInt32 :=
  let cnt := if reconnectCnt = 0 then 1 else reconnectCnt * 2
  if cnt > maxReconnectCnt then 1 else cnt

theorem backOff_eq (s : ClientState) :
    ∃ idleCnt, s.backOff = { s with reconnectCnt := backedOff s.reconnectCnt, idleCnt := idleCnt } := by
  rw [ClientState.backOff, backedOff]
  generalize (if s.reconnectCnt = 0 then 1 else s.reconnectCnt * 2 : UInt32) = cnt
  by_cases hmax : cnt > maxReconnectCnt
  · rw [if_pos hmax, if_pos hmax]
    exact ⟨0, rfl⟩
  · rw [if_neg hmax, if_neg hmax]
    exact ⟨s.idleCnt, rfl⟩

/-- `s'` is `s` after `Close`. -/
structure AfterClose (s s' : ClientState) (c : ClientConnRef) (conn : CClientConn) : Prop where
  connectionState : s'.connectionState = some .closed
  currentAccountId : s'.currentAccountId = s.currentAccountId
  connectingCnt : s'.connectingCnt = s.connectingCnt
  reconnectCnt : s'.reconnectCnt = backedOff s.reconnectCnt
  conns : s'.conns = s.conns.erase c
  nextConn : s'.nextConn = s.nextConn
  msgConnMap : s'.msgConnMap =
    if conn.handle ≠ netlibInvalidHandle then s.msgConnMap.erase conn.handle else s.msgConnMap
  accountMsgConnMap : s'.accountMsgConnMap =
    if conn.handle ≠ netlibInvalidHandle then s.accountMsgConnMap.erase conn.accountId
    else s.accountMsgConnMap

theorem afterClose (hconn : s.conns.find c = some conn) : AfterClose s (s.close c) c conn := by
  rw [ClientState.close, hconn]
  dsimp only
  obtain ⟨idleCnt, hback⟩ := backOff_eq (s.setState .closed)
  rw [hback]
  by_cases hvalid : conn.handle ≠ netlibInvalidHandle
  · rw [if_pos hvalid]
    exact ⟨rfl, rfl, rfl, rfl, rfl, rfl, (if_pos hvalid).symm, (if_pos hvalid).symm⟩
  · rw [if_neg hvalid]
    exact ⟨rfl, rfl, rfl, rfl, rfl, rfl, (if_neg hvalid).symm, (if_neg hvalid).symm⟩

end Net
end Proof
end PtpCore
