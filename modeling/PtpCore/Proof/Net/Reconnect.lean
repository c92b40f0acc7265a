import PtpCore.Lib.Run
import PtpCore.Proof.Net.ClientConn

/-!
# Connecting again

A client that has no connection for its current account should be in the closed state with a
waiting time, for then the timer makes the next attempt. A failing `netlib_connect`, an account
switch and a connection made for another account all leave it in another state. The timer should
also give up a connection that takes too long, and closes only what is open already.
-/

namespace PtpCore
namespace Proof
namespace Net

open Lib
open PtpCore.Net

variable {s s' : ClientState} {c : ClientConnRef} {conn : CClientConn} {handle : Int}
  {accountId : UInt32} {n : Nat} {curTime now : UInt64}

/-- The account has a connection, open or not yet: both are registered. -/
def HasConn (s : ClientState) (accountId : UInt32) : Prop :=
  ∃ c conn, Registered s c conn ∧ conn.accountId = accountId

/-- Once the client has started, it has a connection or waits for the next attempt. -/
def Unstuck (s : ClientState) : Prop :=
  s.connectionState ≠ none → ¬ HasConn s s.currentAccountId →
    s.connectionState = some .closed ∧ 0 < s.reconnectCnt

structure ClientInv (s : ClientState) : Prop where
  handle : ∀ h c, s.msgConnMap.find h = some c →
    h ≠ netlibInvalidHandle ∧ ∃ conn, s.conns.find c = some conn ∧ conn.handle = h
  fresh : ∀ c, s.conns.find c ≠ none → c < s.nextConn
  reconnectCnt : s.reconnectCnt ≤ maxReconnectCnt
  connectingCnt : s.connectingCnt ≤ 30

/-- `s'` has the connections of `s`. -/
structure SameConns (s s' : ClientState) : Prop where
  conns : s'.conns = s.conns
  msgConnMap : s'.msgConnMap = s.msgConnMap
  nextConn : s'.nextConn = s.nextConn

theorem SameConns.hasConn_iff (h : SameConns s s') : HasConn s' accountId ↔ HasConn s accountId := by
  simp only [HasConn, Registered, h.conns, h.msgConnMap]

theorem ClientInv.same (h : ClientInv s) (hsame : SameConns s s')
    (hreconnect : s'.reconnectCnt ≤ maxReconnectCnt) (hconnecting : s'.connectingCnt ≤ 30) :
    ClientInv s' := by
  refine ⟨?_, ?_, hreconnect, hconnecting⟩
  · rw [hsame.msgConnMap, hsame.conns]
    exact h.handle
  · rw [hsame.conns, hsame.nextConn]
    exact h.fresh

/-! ## A new connection -/

theorem afterInit (s : ClientState) (accountId : UInt32) (handle : Int) (now : UInt64) :
    AfterConnect (s.newConn now).2 (s.initMsgConn accountId handle now) s.nextConn
      { lastSendTick := now, lastRecvTick := now } handle accountId :=
  afterConnect (Assoc.find_set_self s.conns s.nextConn _)

/-- The descriptors the system hands out are not in use. -/
def Unused (s : ClientState) (handle : Int) : Prop :=
  handle ≠ netlibInvalidHandle → s.msgConnMap.find handle = none

theorem ClientInv.find_conns_init (h : ClientInv s) {c : ClientConnRef}
    (hlive : s.conns.find c = some conn) :
    (s.initMsgConn accountId handle now).conns.find c = some conn := by
  have hne : c ≠ s.nextConn := (h.fresh c (by simp [hlive])).ne
  rw [(afterInit s accountId handle now).conns, Assoc.find_set_of_ne _ _ hne]
  exact (Assoc.find_set_of_ne _ _ hne).trans hlive

theorem find_conns_init_self :
    (s.initMsgConn accountId handle now).conns.find s.nextConn =
      some (dialled { lastSendTick := now, lastRecvTick := now } handle accountId) := by
  rw [(afterInit s accountId handle now).conns, Assoc.find_set_self]

theorem find_msg_init_of_ne {h' : Int} (hne : h' ≠ handle) :
    (s.initMsgConn accountId handle now).msgConnMap.find h' = s.msgConnMap.find h' := by
  rw [(afterInit s accountId handle now).msgConnMap]
  split
  · exact Assoc.find_insert_of_ne _ _ hne
  · rfl

theorem find_msg_init_self (hunused : Unused s handle) (hvalid : handle ≠ netlibInvalidHandle) :
    (s.initMsgConn accountId handle now).msgConnMap.find handle = some s.nextConn := by
  rw [(afterInit s accountId handle now).msgConnMap, if_pos hvalid]
  exact Assoc.find_insert_self _ _ (hunused hvalid)

/-- The map by descriptor after `init_msg_conn`. -/
theorem find_msg_init (hunused : Unused s handle) {h' : Int} :
    (s.initMsgConn accountId handle now).msgConnMap.find h' =
      if h' = handle ∧ handle ≠ netlibInvalidHandle then some s.nextConn
      else s.msgConnMap.find h' := by
  by_cases heq : h' = handle
  · subst heq
    by_cases hvalid : h' ≠ netlibInvalidHandle
    · rw [if_pos ⟨rfl, hvalid⟩, find_msg_init_self hunused hvalid]
    · rw [if_neg fun hand => hvalid hand.2, (afterInit s accountId h' now).msgConnMap,
        if_neg hvalid]
      rfl
  · rw [if_neg fun hand => heq hand.1, find_msg_init_of_ne heq]

section

variable (h : ClientInv s) (hunused : Unused s handle)

include h hunused

theorem ClientInv.init : ClientInv (s.initMsgConn accountId handle now) := by
  have hafter := afterInit s accountId handle now
  refine ⟨?_, ?_, hafter.reconnectCnt ▸ h.reconnectCnt, hafter.connectingCnt ▸ h.connectingCnt⟩
  · intro h' c hfind
    rw [find_msg_init hunused] at hfind
    split at hfind
    · rename_i hnew
      cases hfind
      exact ⟨hnew.1 ▸ hnew.2, _, find_conns_init_self, hnew.1.symm⟩
    · obtain ⟨hvalid, conn, hconn, hhandle⟩ := h.handle h' c hfind
      exact ⟨hvalid, conn, h.find_conns_init hconn, hhandle⟩
  · intro c hlive
    have hnext : (s.initMsgConn accountId handle now).nextConn = s.nextConn + 1 := hafter.nextConn
    rw [hnext]
    by_cases hc : c = s.nextConn
    · rw [hc]
      exact Nat.lt_succ_self _
    · refine Nat.lt_succ_of_lt (h.fresh c fun hdead => hlive ?_)
      rw [hafter.conns, Assoc.find_set_of_ne _ _ hc]
      exact (Assoc.find_set_of_ne _ _ hc).trans hdead

/-- A new connection is one for its account, if it got a descriptor. -/
theorem ClientInv.hasConn_init_iff {account : UInt32} :
    HasConn (s.initMsgConn accountId handle now) account ↔
      HasConn s account ∨ (handle ≠ netlibInvalidHandle ∧ accountId = account) := by
  constructor
  · rintro ⟨c, conn, ⟨hlive, hmsg⟩, haccount⟩
    rw [find_msg_init hunused] at hmsg
    split at hmsg
    · rename_i hnew
      cases hmsg
      rw [find_conns_init_self] at hlive
      cases hlive
      exact .inr ⟨hnew.2, haccount⟩
    · obtain ⟨-, conn', hlive', -⟩ := h.handle conn.handle c hmsg
      have hsame := hlive.symm.trans (h.find_conns_init hlive')
      cases hsame
      exact .inl ⟨c, conn, ⟨hlive', hmsg⟩, haccount⟩
  · rintro (⟨c, conn, ⟨hlive, hmsg⟩, haccount⟩ | ⟨hvalid, rfl⟩)
    · have hne : conn.handle ≠ handle := by
        intro heq
        have hvalid := (h.handle _ _ hmsg).1
        rw [heq, hunused (heq ▸ hvalid)] at hmsg
        cases hmsg
      exact ⟨c, conn, ⟨h.find_conns_init hlive, (find_msg_init_of_ne hne).trans hmsg⟩,
        haccount⟩
    · exact ⟨s.nextConn, _, ⟨find_conns_init_self, find_msg_init_self hunused hvalid⟩, rfl⟩

/-- The client is connecting then, so it must have something to wait for. -/
theorem ClientInv.unstuck_init_iff :
    Unstuck (s.initMsgConn accountId handle now) ↔
      HasConn s s.currentAccountId ∨
        (handle ≠ netlibInvalidHandle ∧ accountId = s.currentAccountId) := by
  have hafter := afterInit s accountId handle now
  have hcurrent : (s.initMsgConn accountId handle now).currentAccountId = s.currentAccountId :=
    hafter.currentAccountId
  rw [← h.hasConn_init_iff hunused, Unstuck, hafter.connectionState, hcurrent]
  constructor
  · intro hunstuck
    by_contra hnone
    cases (hunstuck (by simp) hnone).1
  · intro hhas _ hnone
    exact absurd hhas hnone

end

/-! ## What happens to a connection -/

theorem backedOff_pos {cnt : UInt32} (h : cnt ≤ maxReconnectCnt) :
    0 < backedOff cnt ∧ backedOff cnt ≤ maxReconnectCnt := by
  rw [backedOff]
  by_cases hzero : cnt = 0
  · rw [if_pos hzero]
    decide
  rw [if_neg hzero]
  by_cases hmax : cnt * 2 > maxReconnectCnt
  · rw [if_pos hmax]
    decide
  rw [if_neg hmax]
  refine ⟨?_, UInt32.not_lt.mp hmax⟩
  have hle : cnt.toNat ≤ 32 := UInt32.le_iff_toNat_le.mp h
  have hne : cnt.toNat ≠ 0 := fun h0 => hzero (UInt32.toNat_inj.mp h0)
  rw [UInt32.lt_iff_toNat_lt, UInt32.toNat_mul]
  change 0 < cnt.toNat * 2 % 2 ^ 32
  omega

theorem ClientInv.close (h : ClientInv s) (hconn : s.conns.find c = some conn) :
    ClientInv (s.close c) := by
  have hafter := afterClose hconn
  refine ⟨?_, ?_, hafter.reconnectCnt ▸ (backedOff_pos h.reconnectCnt).2,
    hafter.connectingCnt ▸ h.connectingCnt⟩
  · intro h' c' hfind
    -- what is still in the map was in it under another descriptor
    have hold : h' ≠ conn.handle ∧ s.msgConnMap.find h' = some c' := by
      rw [hafter.msgConnMap] at hfind
      by_cases hvalid : conn.handle ≠ netlibInvalidHandle
      · rw [if_pos hvalid, Assoc.find_erase] at hfind
        by_cases heq : h' = conn.handle
        · rw [if_pos heq] at hfind
          cases hfind
        · rw [if_neg heq] at hfind
          exact ⟨heq, hfind⟩
      · rw [if_neg hvalid] at hfind
        exact ⟨fun heq => (h.handle h' c' hfind).1 (heq.trans (not_not.mp hvalid)), hfind⟩
    obtain ⟨hvalid, conn', hconn', hhandle⟩ := h.handle h' c' hold.2
    have hne : c' ≠ c := by
      rintro rfl
      cases hconn.symm.trans hconn'
      exact hold.1 hhandle.symm
    exact ⟨hvalid, conn', by rw [hafter.conns, Assoc.find_erase_of_ne _ hne, hconn'], hhandle⟩
  · intro c' hlive
    rw [hafter.nextConn]
    refine h.fresh c' fun hdead => hlive ?_
    rw [hafter.conns]
    exact Assoc.find_erase_of_none _ _ hdead

theorem ClientInv.unstuck_close (h : ClientInv s) (hconn : s.conns.find c = some conn) :
    Unstuck (s.close c) := by
  intro _ _
  rw [(afterClose hconn).connectionState, (afterClose hconn).reconnectCnt]
  exact ⟨rfl, (backedOff_pos h.reconnectCnt).1⟩

/-- An object is changed that keeps its descriptor and its account. -/
structure Touched (s s' : ClientState) (c : ClientConnRef) (conn conn' : CClientConn) : Prop where
  handle : conn'.handle = conn.handle
  accountId : conn'.accountId = conn.accountId
  conns : s'.conns = s.conns.set c conn'
  msgConnMap : s'.msgConnMap = s.msgConnMap
  nextConn : s'.nextConn = s.nextConn

section

variable {conn' : CClientConn} (htouched : Touched s s' c conn conn')
  (hconn : s.conns.find c = some conn)

include htouched hconn

theorem ClientInv.touched (h : ClientInv s) (hreconnect : s'.reconnectCnt ≤ maxReconnectCnt)
    (hconnecting : s'.connectingCnt ≤ 30) : ClientInv s' := by
  refine ⟨?_, ?_, hreconnect, hconnecting⟩
  · intro h' c' hfind
    rw [htouched.msgConnMap] at hfind
    obtain ⟨hvalid, conn₁, hconn₁, hhandle⟩ := h.handle h' c' hfind
    rw [htouched.conns]
    by_cases hc : c' = c
    · subst hc
      cases hconn.symm.trans hconn₁
      exact ⟨hvalid, conn', Assoc.find_set_self _ _ _, htouched.handle.trans hhandle⟩
    · exact ⟨hvalid, conn₁, (Assoc.find_set_of_ne _ _ hc).trans hconn₁, hhandle⟩
  · intro c' hlive
    rw [htouched.nextConn]
    by_cases hc : c' = c
    · exact h.fresh c' (by simp [hc, hconn])
    · rw [htouched.conns, Assoc.find_set_of_ne _ _ hc] at hlive
      exact h.fresh c' hlive

theorem Touched.hasConn_iff {account : UInt32} : HasConn s' account ↔ HasConn s account := by
  have hset := Assoc.find_set_self s.conns c conn'
  simp only [HasConn, Registered, htouched.msgConnMap, htouched.conns]
  constructor
  · rintro ⟨c', conn₁, ⟨hlive, hmsg⟩, haccount⟩
    by_cases hc : c' = c
    · subst hc
      cases hset.symm.trans hlive
      exact ⟨c', conn, ⟨hconn, htouched.handle ▸ hmsg⟩, htouched.accountId ▸ haccount⟩
    · rw [Assoc.find_set_of_ne _ _ hc] at hlive
      exact ⟨c', conn₁, ⟨hlive, hmsg⟩, haccount⟩
  · rintro ⟨c', conn₁, ⟨hlive, hmsg⟩, haccount⟩
    by_cases hc : c' = c
    · subst hc
      cases hconn.symm.trans hlive
      exact ⟨c', conn', ⟨hset, htouched.handle.symm ▸ hmsg⟩, htouched.accountId.trans haccount⟩
    · exact ⟨c', conn₁, ⟨(Assoc.find_set_of_ne _ _ hc).trans hlive, hmsg⟩, haccount⟩

end

theorem touched_onConfirm (hconn : s.conns.find c = some conn) :
    Touched s (s.onConfirm c) c conn { conn with isOpen := true } := by
  rw [ClientState.onConfirm, hconn]
  exact ⟨rfl, rfl, rfl, rfl, rfl⟩

theorem touched_onRead (hconn : s.conns.find c = some conn) :
    Touched s (s.onRead c now) c conn { conn with lastRecvTick := now } := by
  rw [ClientState.onRead, hconn]
  exact ⟨rfl, rfl, rfl, rfl, rfl⟩

theorem ClientInv.onConfirm (h : ClientInv s) (hconn : s.conns.find c = some conn) :
    ClientInv (s.onConfirm c) := by
  apply h.touched (touched_onConfirm hconn) hconn
  · rw [ClientState.onConfirm, hconn]
    exact (by decide : (0 : UInt32) ≤ maxReconnectCnt)
  · rw [ClientState.onConfirm, hconn]
    exact (by decide : (0 : UInt32) ≤ 30)

/-- The client is connected then, whoever the connection belongs to. -/
theorem unstuck_onConfirm_iff (hconn : s.conns.find c = some conn) :
    Unstuck (s.onConfirm c) ↔ HasConn s s.currentAccountId := by
  have hstate : (s.onConfirm c).connectionState = some .connected := by
    rw [ClientState.onConfirm, hconn]
    rfl
  have hcurrent : (s.onConfirm c).currentAccountId = s.currentAccountId := by
    rw [ClientState.onConfirm, hconn]
    rfl
  rw [Unstuck, hstate, hcurrent, (touched_onConfirm hconn).hasConn_iff hconn]
  constructor
  · intro hunstuck
    by_contra hnone
    cases (hunstuck (by simp) hnone).1
  · intro hhas _ hnone
    exact absurd hhas hnone

/-! ## The timer -/

/-- `s'` is `s` but for notices and for the counters of the timer. -/
structure Unmoved (s s' : ClientState) : Prop extends SameConns s s' where
  connectionState : s'.connectionState = s.connectionState
  currentAccountId : s'.currentAccountId = s.currentAccountId
  reconnectCnt : s'.reconnectCnt = s.reconnectCnt
  connectingCnt : s.connectingCnt ≤ 30 → s'.connectingCnt ≤ 30

theorem Unmoved.refl (s : ClientState) : Unmoved s s := ⟨⟨rfl, rfl, rfl⟩, rfl, rfl, rfl, id⟩

/-- What the timer does to the connections before it may start one: it closes one that is open, or
    nothing. -/
def Closes (s s' : ClientState) : Prop :=
  Unmoved s s' ∨
    ∃ s₀ c conn, Unmoved s s₀ ∧ s₀.conns.find c = some conn ∧ conn.isOpen = true ∧ s' = s₀.close c

theorem ClientInv.unmoved (h : ClientInv s) (hunmoved : Unmoved s s') : ClientInv s' :=
  h.same hunmoved.toSameConns (hunmoved.reconnectCnt ▸ h.reconnectCnt)
    (hunmoved.connectingCnt h.connectingCnt)

theorem Unmoved.unstuck_iff (h : Unmoved s s') : Unstuck s' ↔ Unstuck s := by
  rw [Unstuck, Unstuck, h.connectionState, h.currentAccountId, h.reconnectCnt, h.hasConn_iff]

theorem ClientInv.closes (h : ClientInv s) (hcloses : Closes s s') : ClientInv s' := by
  rcases hcloses with hunmoved | ⟨s₀, c, conn, hunmoved, hconn, -, rfl⟩
  · exact h.unmoved hunmoved
  · exact (h.unmoved hunmoved).close hconn

theorem Closes.unstuck (hcloses : Closes s s') (h : ClientInv s) (hunstuck : Unstuck s) :
    Unstuck s' := by
  rcases hcloses with hunmoved | ⟨s₀, c, conn, hunmoved, hconn, -, rfl⟩
  · exact hunmoved.unstuck_iff.mpr hunstuck
  · exact (h.unmoved hunmoved).unstuck_close hconn

theorem Closes.reconnectCnt_pos (hcloses : Closes s s') (h : ClientInv s)
    (hpos : 0 < s.reconnectCnt) : 0 < s'.reconnectCnt := by
  rcases hcloses with hunmoved | ⟨s₀, c, conn, hunmoved, hconn, -, rfl⟩
  · exact hunmoved.reconnectCnt ▸ hpos
  · rw [(afterClose hconn).reconnectCnt]
    exact (backedOff_pos (h.unmoved hunmoved).reconnectCnt).1

/-- A connection that is not open stays. -/
theorem Closes.find_waiting (hcloses : Closes s s') (hconn : s.conns.find c = some conn)
    (hwaiting : conn.isOpen = false) : s'.conns.find c = some conn := by
  rcases hcloses with hunmoved | ⟨s₀, c', conn', hunmoved, hconn', hopen, rfl⟩
  · rw [hunmoved.conns, hconn]
  · have hne : c ≠ c' := by
      rintro rfl
      rw [hunmoved.conns, hconn] at hconn'
      cases hconn'
      rw [hwaiting] at hopen
      cases hopen
    rw [(afterClose hconn').conns, Assoc.find_erase_of_ne _ hne, hunmoved.conns, hconn]

theorem isOpen_iff : s.isOpen c = true ↔ ∃ conn, s.conns.find c = some conn ∧ conn.isOpen = true := by
  rw [ClientState.isOpen]
  cases s.conns.find c with
  | none => simp
  | some conn => simp

theorem closes_onTimer (hconn : s.conns.find c = some conn) (hopen : conn.isOpen = true) :
    Closes s (s.onTimer c curTime) := by
  rw [ClientState.onTimer, hconn]
  dsimp only
  by_cases hother : s.currentAccountId ≠ conn.accountId
  · rw [if_pos hother]
    exact .inr ⟨s, c, conn, Unmoved.refl s, hconn, hopen, rfl⟩
  rw [if_neg hother]
  -- with or without a heartbeat, the connection may have been silent for too long
  have hbeat (s₀ : ClientState) (hunmoved : Unmoved s s₀) :
      Closes s (if curTime > conn.lastRecvTick + mobileClientTimeout then s₀.close c else s₀) := by
    split
    · exact .inr ⟨s₀, c, conn, hunmoved, by rw [hunmoved.conns, hconn], hopen, rfl⟩
    · exact .inl hunmoved
  apply hbeat
  split
  · exact ⟨⟨rfl, rfl, rfl⟩, rfl, rfl, rfl, id⟩
  · exact Unmoved.refl s

/-- In the connected state, `OnTimer` sends no heartbeat: it closes the connection, or nothing. -/
theorem onTimer_cases (hstate : s.connectionState = some .connected) (c : ClientConnRef)
    (curTime : UInt64) : s.onTimer c curTime = s ∨ s.onTimer c curTime = s.close c := by
  have hnot : ∀ conn : CClientConn,
      ¬ (curTime > conn.lastSendTick + clientHeartbeatInterval ∧
        s.connectionState = some .logged) := by
    rintro conn ⟨-, hlogged⟩
    rw [hstate] at hlogged
    cases hlogged
  rw [ClientState.onTimer]
  cases s.conns.find c with
  | none => exact .inl rfl
  | some conn =>
    dsimp only
    rw [if_neg (hnot conn)]
    split
    · exact .inr rfl
    · split
      · exact .inr rfl
      · exact .inl rfl

/-- The loop of the timer stops at a connection that is open, or does nothing. -/
theorem timerLoop_cases (h : s.timerLoop n curTime = some s') :
    s' = s ∨ ∃ c, s.isOpen c = true ∧ s' = s.onTimer c curTime := by
  have hfind : ∀ k, s.findAccount k = s.accountMsgConnMap.find k := fun _ => rfl
  have hvisit (k : UInt32) (v : ClientConnRef) :
      (∃ r, s.timerVisit curTime k v = .leave r) ∨
        s.timerVisit curTime k v = .again (s, some k) := by
    rw [ClientState.timerVisit]
    split
    · exact .inl ⟨_, rfl⟩
    · exact .inr rfl
  rcases leave_of_outOf hfind hvisit h with rfl | ⟨k, v, -, hleave⟩
  · exact .inl rfl
  · rw [ClientState.timerVisit] at hleave
    split at hleave
    · cases hleave
      split
      · rename_i hopen
        exact .inr ⟨v, hopen, rfl⟩
      · exact .inl rfl
    · cases hleave

/-- So does the one of `close_msg_conn`. -/
theorem closeMsgConn_cases (h : s.closeMsgConn n accountId = some s') :
    s' = s ∨ ∃ c, s.isOpen c = true ∧ s' = s.close c := by
  have hfind : ∀ k, s.findAccount k = s.accountMsgConnMap.find k := fun _ => rfl
  have hvisit (k : UInt32) (v : ClientConnRef) :
      (∃ r, s.closeVisit accountId k v = .leave r) ∨
        s.closeVisit accountId k v = .again (s, some k) := by
    rw [ClientState.closeVisit]
    split
    · split
      · exact .inl ⟨_, rfl⟩
      · exact .inr rfl
    · exact .inr rfl
  rcases leave_of_outOf hfind hvisit h with rfl | ⟨k, v, -, hleave⟩
  · exact .inl rfl
  · rw [ClientState.closeVisit] at hleave
    split at hleave
    · split at hleave
      · rename_i hopen
        cases hleave
        exact .inr ⟨v, hopen, rfl⟩
      · cases hleave
    · cases hleave

theorem closes_timerLoop (h : s.timerLoop n curTime = some s') : Closes s s' := by
  rcases timerLoop_cases h with rfl | ⟨c, hopen, rfl⟩
  · exact .inl (Unmoved.refl _)
  · obtain ⟨conn, hconn, hopen⟩ := isOpen_iff.mp hopen
    exact closes_onTimer hconn hopen

theorem closes_closeMsgConn {s₀ : ClientState} (hunmoved : Unmoved s₀ s)
    (h : s.closeMsgConn n accountId = some s') : Closes s₀ s' := by
  rcases closeMsgConn_cases h with rfl | ⟨c, hopen, rfl⟩
  · exact .inl hunmoved
  · obtain ⟨conn, hconn, hopen⟩ := isOpen_iff.mp hopen
    exact .inr ⟨s, c, conn, hunmoved, hconn, hopen, rfl⟩

/-- The timer up to the end of its loop. -/
def timed (n : Nat) (s : ClientState) (curTime : UInt64) : Option ClientState :=
  if s.countTimer.connectionState = some .connected then s.countTimer.timerLoop n curTime
  else some s.countTimer

/-- The timer up to the point where it may start a connection. -/
def settle (n : Nat) (s : ClientState) (curTime : UInt64) : Option ClientState :=
  (timed n s curTime).bind fun s =>
    if s.reconnectCnt > 0 then s.countIdle.countConnecting.giveUp n else some s

/-- It is time for the next attempt. -/
def Due (s : ClientState) : Prop :=
  0 < s.reconnectCnt ∧ s.reconnectCnt ≤ s.idleCnt ∧ s.connectionState = some .closed

instance : DecidablePred Due := fun _ => inferInstanceAs (Decidable (_ ∧ _ ∧ _))

theorem unmoved_count (hcnt : (s.countIdle.countConnecting).connectingCnt ≤ 30) :
    Unmoved s s.countIdle.countConnecting := by
  refine ⟨⟨?_, ?_, ?_⟩, ?_, ?_, ?_, fun _ => hcnt⟩
  all_goals
    simp only [ClientState.countConnecting, ClientState.countIdle]
    split <;> split <;> rfl

theorem unmoved_giveUp : Unmoved s { s.countIdle.countConnecting with connectingCnt := 0 } := by
  refine ⟨⟨?_, ?_, ?_⟩, ?_, ?_, ?_, fun _ => (by decide : (0 : UInt32) ≤ 30)⟩
  all_goals
    simp only [ClientState.countConnecting, ClientState.countIdle]
    split <;> split <;> rfl

theorem closes_giveUp (h : s.countIdle.countConnecting.giveUp n = some s') : Closes s s' := by
  rw [ClientState.giveUp] at h
  split at h
  · exact closes_closeMsgConn unmoved_giveUp h
  · rename_i hcnt
    cases h
    exact .inl (unmoved_count (UInt32.not_lt.mp hcnt))

theorem Closes.countTimer (h : Closes s.countTimer s') : Closes s s' := by
  have hcount : Unmoved s s.countTimer := ⟨⟨rfl, rfl, rfl⟩, rfl, rfl, rfl, id⟩
  have htrans {s₀ : ClientState} (hunmoved : Unmoved s.countTimer s₀) : Unmoved s s₀ :=
    ⟨⟨hunmoved.conns, hunmoved.msgConnMap, hunmoved.nextConn⟩, hunmoved.connectionState,
      hunmoved.currentAccountId, hunmoved.reconnectCnt, hunmoved.connectingCnt⟩
  rcases h with hunmoved | ⟨s₀, c, conn, hunmoved, hrest⟩
  · exact .inl (htrans hunmoved)
  · exact .inr ⟨s₀, c, conn, htrans hunmoved, hrest⟩

theorem closes_timed (h : timed n s curTime = some s') : Closes s s' := by
  apply Closes.countTimer
  rw [timed] at h
  split at h
  · exact closes_timerLoop h
  · cases h
    exact .inl (Unmoved.refl _)

/-- What the timer has done before it may start a connection. -/
theorem closes_settle (h : settle n s curTime = some s') : ∃ s₁, Closes s s₁ ∧ Closes s₁ s' := by
  obtain ⟨s₁, htimed, hrest⟩ := Option.bind_eq_some_iff.mp h
  refine ⟨s₁, closes_timed htimed, ?_⟩
  split at hrest
  · exact closes_giveUp hrest
  · cases hrest
    exact .inl (Unmoved.refl _)

/-- The timer, part by part. -/
theorem tick_parts : s.msgConnTimerCallback n curTime handle = (timed n s curTime).bind fun s =>
    if s.reconnectCnt > 0 then
      (s.countIdle.countConnecting.giveUp n).map (·.reconnect handle curTime)
    else some s := by
  rw [ClientState.msgConnTimerCallback, timed]
  cases (if s.countTimer.connectionState = some .connected then
    s.countTimer.timerLoop n curTime else some s.countTimer) with
  | none => rfl
  | some s₁ => rfl

theorem tick_eq (h : ClientInv s) :
    s.msgConnTimerCallback n curTime handle = (settle n s curTime).map fun s =>
      if Due s then s.initMsgConn s.currentAccountId handle curTime else s := by
  rw [tick_parts, settle]
  cases htimed : timed n s curTime with
  | none => rfl
  | some s₁ =>
    rw [Option.bind_some, Option.bind_some]
    by_cases hpos : s₁.reconnectCnt > 0
    · rw [if_pos hpos, if_pos hpos]
      cases hgive : s₁.countIdle.countConnecting.giveUp n with
      | none => rfl
      | some s₂ =>
        -- the waiting time is still positive, whatever was closed
        have hpos₂ := (closes_giveUp hgive).reconnectCnt_pos (h.closes (closes_timed htimed)) hpos
        rw [Option.map_some, Option.map_some, ClientState.reconnect]
        exact congrArg some (if_congr (by simp [Due, hpos₂]) rfl rfl)
    · rw [if_neg hpos, if_neg hpos, Option.map_some, if_neg fun hdue : Due s₁ => hpos hdue.1]

/-- A connection that the timer finds not open is still there when it is done. -/
theorem ClientInv.find_waiting_tick (h : ClientInv s)
    (htick : s.msgConnTimerCallback n curTime handle = some s') (hconn : s.conns.find c = some conn)
    (hwaiting : conn.isOpen = false) : s'.conns.find c = some conn := by
  rw [tick_eq h, Option.map_eq_some_iff] at htick
  obtain ⟨s₂, hsettle, rfl⟩ := htick
  obtain ⟨s₁, hcloses₁, hcloses₂⟩ := closes_settle hsettle
  have hconn₂ := hcloses₂.find_waiting (hcloses₁.find_waiting hconn hwaiting) hwaiting
  split
  · exact ((h.closes hcloses₁).closes hcloses₂).find_conns_init hconn₂
  · exact hconn₂

/-! ## The next attempt -/

def runTicks (n : Nat) (s : ClientState) (ticks : List (UInt64 × Int)) : Option ClientState :=
  ticks.foldlM (fun s tick => s.msgConnTimerCallback n tick.1 tick.2) s

/-- Among the next so many ticks there is one that starts a connection. -/
def AttemptsWithin (n : Nat) (s : ClientState) (k : Nat) : Prop :=
  ∀ ticks : List (UInt64 × Int), k ≤ ticks.length →
    ∃ pre s', pre <+: ticks ∧ runTicks n s pre = some s' ∧ s.nextConn < s'.nextConn

theorem settle_closed (h : ClientInv s) (hclosed : s.connectionState = some .closed)
    (hpos : 0 < s.reconnectCnt) :
    settle n s curTime = some { s.countTimer with idleCnt := s.idleCnt + 1 } := by
  have htimed : timed n s curTime = some s.countTimer := by
    refine if_neg ?_
    change s.connectionState ≠ some .connected
    simp [hclosed]
  have hidle : s.countTimer.countIdle = { s.countTimer with idleCnt := s.idleCnt + 1 } :=
    if_pos hclosed
  have hconnecting : s.countTimer.countIdle.countConnecting = s.countTimer.countIdle := by
    rw [hidle]
    refine if_neg ?_
    change s.connectionState ≠ some .connecting
    simp [hclosed]
  rw [settle, htimed, Option.bind_some, if_pos (show s.countTimer.reconnectCnt > 0 from hpos),
    hconnecting, hidle]
  exact if_neg (UInt32.not_lt.mpr h.connectingCnt)

/-- A tick of a client that waits: the next attempt, or one tick less to wait. -/
theorem attemptsWithin_succ {k : Nat} (h : ClientInv s) (hclosed : s.connectionState = some .closed)
    (hpos : 0 < s.reconnectCnt)
    (hnext : ∀ s₁ : ClientState, Unmoved s s₁ → s₁.idleCnt = s.idleCnt + 1 →
      s₁.idleCnt < s₁.reconnectCnt → AttemptsWithin n s₁ k) :
    AttemptsWithin n s (k + 1) := by
  intro ticks hlen
  cases ticks with
  | nil => simp at hlen
  | cons tick ticks =>
    have htick : s.msgConnTimerCallback n tick.1 tick.2 = _ := tick_eq h
    rw [settle_closed h hclosed hpos, Option.map_some] at htick
    generalize hs₁ : ({ s.countTimer with idleCnt := s.idleCnt + 1 } : ClientState) = s₁ at htick
    have hunmoved : Unmoved s s₁ := by
      rw [← hs₁]
      exact ⟨⟨rfl, rfl, rfl⟩, rfl, rfl, rfl, id⟩
    have hidle : s₁.idleCnt = s.idleCnt + 1 := by rw [← hs₁]
    by_cases hdue : Due s₁
    · rw [if_pos hdue] at htick
      refine ⟨[tick], s₁.initMsgConn s₁.currentAccountId tick.2 tick.1, by simp, ?_, ?_⟩
      · rw [runTicks, List.foldlM_cons, htick]
        rfl
      · rw [(afterInit s₁ _ _ _).nextConn, ← hunmoved.nextConn]
        exact Nat.lt_succ_self _
    · rw [if_neg hdue] at htick
      have hwait : s₁.idleCnt < s₁.reconnectCnt := by
        refine UInt32.not_le.mp fun hle => hdue ⟨hunmoved.reconnectCnt ▸ hpos, hle, ?_⟩
        rw [hunmoved.connectionState, hclosed]
      obtain ⟨pre, s', hpre, hrun, hgrows⟩ :=
        hnext s₁ hunmoved hidle hwait ticks (Nat.le_of_succ_le_succ hlen)
      refine ⟨tick :: pre, s', List.cons_prefix_cons.mpr ⟨rfl, hpre⟩, ?_, hunmoved.nextConn ▸ hgrows⟩
      rw [runTicks, List.foldlM_cons, htick]
      exact hrun

theorem attemptsWithin_of_wait {k : Nat} (h : ClientInv s)
    (hclosed : s.connectionState = some .closed) (hwait : s.idleCnt < s.reconnectCnt)
    (hk : s.reconnectCnt.toNat ≤ s.idleCnt.toNat + k) : AttemptsWithin n s k := by
  induction k generalizing s with
  | zero => exact absurd hk (Nat.not_le.mpr (UInt32.lt_iff_toNat_lt.mp hwait))
  | succ k ih =>
    have hlt : s.idleCnt.toNat < s.reconnectCnt.toNat := UInt32.lt_iff_toNat_lt.mp hwait
    have hmax : s.reconnectCnt.toNat ≤ 32 := UInt32.le_iff_toNat_le.mp h.reconnectCnt
    have hpos : 0 < s.reconnectCnt := UInt32.lt_iff_toNat_lt.mpr (Nat.zero_lt_of_lt hlt)
    apply attemptsWithin_succ h hclosed hpos
    intro s₁ hunmoved hidle hwait₁
    refine ih (h.unmoved hunmoved) (hunmoved.connectionState.trans hclosed) hwait₁ ?_
    have hidle₁ : s₁.idleCnt.toNat = s.idleCnt.toNat + 1 := by
      rw [hidle, UInt32.toNat_add]
      exact Nat.mod_eq_of_lt (by change s.idleCnt.toNat + 1 < 2 ^ 32; omega)
    rw [hunmoved.reconnectCnt, hidle₁]
    omega

/-- A client that waits makes the next attempt within 33 ticks. -/
theorem ClientInv.attemptsWithin (h : ClientInv s) (hclosed : s.connectionState = some .closed)
    (hpos : 0 < s.reconnectCnt) : AttemptsWithin n s 33 := by
  apply attemptsWithin_succ h hclosed hpos
  intro s₁ hunmoved _ hwait
  have hmax : s₁.reconnectCnt.toNat ≤ 32 := UInt32.le_iff_toNat_le.mp (h.unmoved hunmoved).reconnectCnt
  refine attemptsWithin_of_wait (h.unmoved hunmoved) (hunmoved.connectionState.trans hclosed) hwait ?_
  exact hmax.trans (Nat.le_add_left _ _)

/-! ## Runs -/

/-- Registered, and not open yet. -/
def waiting (s : ClientState) (c : ClientConnRef) : Bool :=
  (s.conns.find c).any fun conn => !conn.isOpen && s.msgConnMap.find conn.handle = some c

/-- The client, and for each connection the ticks it has seen waiting, while `reconnect_cnt` was
    positive. -/
structure Watched where
  client : ClientState
  age : ClientConnRef → Nat

def Watched.start : Watched := ⟨.start, fun _ => 0⟩

def Watched.older (w : Watched) (c : ClientConnRef) : Nat :=
  if waiting w.client c ∧ 0 < w.client.reconnectCnt then w.age c + 1 else w.age c

/-- A run ends with a tick that does not return. -/
def watchStep (n : Nat) (w : Option Watched) (e : ClientEvent) : Option Watched :=
  w.bind fun w => (clientStep n w.client e).map fun s =>
    ⟨s, match e with
      | .tick _ _ => w.older
      | _ => w.age⟩

/-- The system hands out no descriptor that is in use, and a map is iterated in some order. -/
def Feasible (n : Nat) : Option Watched → ClientEvent → Prop
  | some w, .initMsgConn _ handle _ => Unused w.client handle
  | some w, .tick curTime handle =>
    ∀ s₁, settle n w.client curTime = some s₁ → Due s₁ → Unused s₁ handle
  | some w, .reorder m => m.Perm w.client.accountMsgConnMap
  | _, _ => True

/-- `init_msg_conn` and the timer leave the current account with a connection; a connection is
    confirmed while the current account has one; the account is switched to one that has a
    connection, or while the client waits; and no connection is still waiting at its 31st tick. -/
def Steady (n : Nat) : Option Watched → ClientEvent → Prop
  | some w, .initMsgConn accountId handle _ =>
    HasConn w.client w.client.currentAccountId ∨
      (handle ≠ netlibInvalidHandle ∧ accountId = w.client.currentAccountId)
  | some w, .confirm handle =>
    w.client.msgConnMap.find handle ≠ none → HasConn w.client w.client.currentAccountId
  | some w, .setCurrentAccountId accountId =>
    w.client.connectionState = none ∨ HasConn w.client accountId ∨
      (w.client.connectionState = some .closed ∧ 0 < w.client.reconnectCnt)
  | some w, .tick curTime handle =>
    (∀ c, waiting w.client c = true → 0 < w.client.reconnectCnt → w.age c < 30) ∧
      ∀ s₁, settle n w.client curTime = some s₁ → Due s₁ →
        HasConn s₁ s₁.currentAccountId ∨ handle ≠ netlibInvalidHandle
  | _, _ => True

/-- Without a connection for its account the client waits, and attempts the next one in time. -/
def Reconnects (n : Nat) (s : ClientState) : Prop :=
  s.connectionState ≠ none → ¬ HasConn s s.currentAccountId →
    (s.connectionState = some .closed ∧ 0 < s.reconnectCnt) ∧ AttemptsWithin n s 33

/-- A connection that has been waiting for 30 ticks is closed by the next. -/
def GivesUp (n : Nat) (w : Watched) (curTime : UInt64) (handle : Int) : Prop :=
  ∀ c, waiting w.client c = true → 0 < w.client.reconnectCnt → 30 ≤ w.age c →
    ∃ s', w.client.msgConnTimerCallback n curTime handle = some s' ∧ s'.conns.find c = none

def NeverStuck (n : Nat) : Option Watched → ClientEvent → Prop
  | none, _ => True
  | some w, e =>
    (∀ s', clientStep n w.client e = some s' → Reconnects n s') ∧
      ∀ curTime handle, e = .tick curTime handle → GivesUp n w curTime handle

theorem ClientInv.reconnects_iff (h : ClientInv s) : Reconnects n s ↔ Unstuck s := by
  constructor
  · intro hre hstarted hnone
    exact (hre hstarted hnone).1
  · intro hunstuck hstarted hnone
    have hwaits := hunstuck hstarted hnone
    exact ⟨hwaits, h.attemptsWithin hwaits.1 hwaits.2⟩

/-- What a run keeps. -/
def RunInv : Option Watched → Prop
  | none => True
  | some w => ClientInv w.client ∧ Unstuck w.client

variable {w : Watched} {e : ClientEvent}

/-- What `imconn_callback` does, it does with a live object. -/
theorem ClientInv.onHandle (h : ClientInv s) {f : ClientState → ClientConnRef → ClientState}
    {P : ClientState → Prop} (hnone : P s)
    (hf : ∀ c conn, s.conns.find c = some conn → P (f s c)) : P (s.onHandle handle f) := by
  rw [ClientState.onHandle]
  cases hfind : s.msgConnMap.find handle with
  | none => exact hnone
  | some c =>
    obtain ⟨-, conn, hconn, -⟩ := h.handle handle c hfind
    exact hf c conn hconn

theorem ClientInv.settled (h : ClientInv s) (hsettle : settle n s curTime = some s') :
    ClientInv s' := by
  obtain ⟨s₁, hcloses₁, hcloses₂⟩ := closes_settle hsettle
  exact (h.closes hcloses₁).closes hcloses₂

theorem ClientInv.unstuck_settle (h : ClientInv s) (hunstuck : Unstuck s)
    (hsettle : settle n s curTime = some s') : Unstuck s' := by
  obtain ⟨s₁, hcloses₁, hcloses₂⟩ := closes_settle hsettle
  exact hcloses₂.unstuck (h.closes hcloses₁) (hcloses₁.unstuck h hunstuck)

theorem ClientInv.step (h : ClientInv w.client) (hfeasible : Feasible n (some w) e)
    (hstep : clientStep n w.client e = some s') : ClientInv s' := by
  cases e with
  | initMsgConn accountId handle now =>
    cases hstep
    exact h.init hfeasible
  | confirm handle =>
    cases hstep
    exact h.onHandle h fun c conn hconn => h.onConfirm hconn
  | closed handle =>
    cases hstep
    exact h.onHandle h fun c conn hconn => h.close hconn
  | received handle now =>
    cases hstep
    refine h.onHandle h fun c conn hconn => h.touched (touched_onRead hconn) hconn ?_ ?_
    · rw [ClientState.onRead, hconn]
      exact h.reconnectCnt
    · rw [ClientState.onRead, hconn]
      exact h.connectingCnt
  | setCurrentAccountId accountId =>
    cases hstep
    exact h.same ⟨rfl, rfl, rfl⟩ h.reconnectCnt h.connectingCnt
  | tick curTime handle =>
    rw [clientStep, tick_eq h, Option.map_eq_some_iff] at hstep
    obtain ⟨s₁, hsettle, rfl⟩ := hstep
    split
    · rename_i hdue
      exact (h.settled hsettle).init (hfeasible s₁ hsettle hdue)
    · exact h.settled hsettle
  | reorder m =>
    cases hstep
    exact h.same ⟨rfl, rfl, rfl⟩ h.reconnectCnt h.connectingCnt

theorem waiting_iff : waiting s c = true ↔ ∃ conn, Registered s c conn ∧ conn.isOpen = false := by
  rw [waiting]
  cases hconn : s.conns.find c with
  | none => simp [Registered, hconn]
  | some conn => simp [Registered, hconn, and_comm]

/-- The timer closes no connection that waits, so none may wait for so long. -/
theorem ClientInv.givesUp_iff (h : ClientInv w.client) :
    GivesUp n w curTime handle ↔
      ∀ c, waiting w.client c = true → 0 < w.client.reconnectCnt → w.age c < 30 := by
  constructor
  · intro hgives c hwaiting hpos
    by_contra hage
    obtain ⟨s', htick, hgone⟩ := hgives c hwaiting hpos (Nat.not_lt.mp hage)
    obtain ⟨conn, hreg, hclosed⟩ := waiting_iff.mp hwaiting
    rw [h.find_waiting_tick htick hreg.1 hclosed] at hgone
    cases hgone
  · intro hage c hwaiting hpos hold
    exact absurd hold (Nat.not_le.mpr (hage c hwaiting hpos))

theorem ClientInv.unstuck_tick_iff (h : ClientInv s) (hunstuck : Unstuck s)
    (hunused : ∀ s₁, settle n s curTime = some s₁ → Due s₁ → Unused s₁ handle) :
    (∀ s', s.msgConnTimerCallback n curTime handle = some s' → Unstuck s') ↔
      ∀ s₁, settle n s curTime = some s₁ → Due s₁ →
        HasConn s₁ s₁.currentAccountId ∨ handle ≠ netlibInvalidHandle := by
  rw [tick_eq h]
  cases hsettle : settle n s curTime with
  | none => simp
  | some s₁ =>
    have hunstuck₁ := h.unstuck_settle hunstuck hsettle
    by_cases hdue : Due s₁
    · have hinit : Unstuck (s₁.initMsgConn s₁.currentAccountId handle curTime) ↔ _ :=
        (h.settled hsettle).unstuck_init_iff (hunused s₁ hsettle hdue)
      simp [hdue, hinit]
    · simp [hdue, hunstuck₁]

theorem ClientInv.steady_iff (h : ClientInv w.client) (hunstuck : Unstuck w.client)
    (hfeasible : Feasible n (some w) e) :
    Steady n (some w) e ↔
      (∀ s', clientStep n w.client e = some s' → Unstuck s') ∧
        ∀ curTime handle, e = .tick curTime handle → GivesUp n w curTime handle := by
  cases e with
  | initMsgConn accountId handle now =>
    simp [Steady, clientStep, h.unstuck_init_iff hfeasible]
  | confirm handle =>
    have hconfirm : Unstuck (w.client.onHandle handle .onConfirm) ↔
        (w.client.msgConnMap.find handle ≠ none → HasConn w.client w.client.currentAccountId) := by
      rw [ClientState.onHandle]
      cases hfind : w.client.msgConnMap.find handle with
      | none => simp [hunstuck]
      | some c =>
        obtain ⟨-, conn, hconn, -⟩ := h.handle handle c hfind
        simp [unstuck_onConfirm_iff hconn]
    simp [Steady, clientStep, hconfirm]
  | closed handle =>
    have hclosed : Unstuck (w.client.onHandle handle .close) :=
      h.onHandle hunstuck fun c conn hconn => h.unstuck_close hconn
    simp [Steady, clientStep, hclosed]
  | received handle now =>
    have hreceived : Unstuck (w.client.onHandle handle fun s c => s.onRead c now) := by
      refine h.onHandle hunstuck fun c conn hconn => ?_
      have hiff : HasConn (w.client.onRead c now) _ ↔ HasConn w.client w.client.currentAccountId :=
        (touched_onRead hconn).hasConn_iff hconn
      rw [ClientState.onRead, hconn] at hiff ⊢
      exact fun hstarted hnone => hunstuck hstarted (hiff.not.mp hnone)
    simp [Steady, clientStep, hreceived]
  | setCurrentAccountId accountId =>
    have hswitch : Unstuck (w.client.setCurrentAccountId accountId) ↔
        (w.client.connectionState = none ∨ HasConn w.client accountId ∨
          (w.client.connectionState = some .closed ∧ 0 < w.client.reconnectCnt)) := by
      rw [or_iff_not_imp_left, or_iff_not_imp_left]
      rfl
    simp [Steady, clientStep, hswitch]
  | tick curTime handle =>
    have hunstuck_iff := h.unstuck_tick_iff hunstuck hfeasible
    constructor
    · intro hsteady
      refine ⟨hunstuck_iff.mpr hsteady.2, fun curTime' handle' heq => ?_⟩
      cases heq
      exact h.givesUp_iff.mpr hsteady.1
    · intro hstuck
      exact ⟨h.givesUp_iff.mp (hstuck.2 curTime handle rfl), hunstuck_iff.mp hstuck.1⟩
  | reorder m =>
    have hreorder : Unstuck { w.client with accountMsgConnMap := m } := hunstuck
    simp [Steady, clientStep, hreorder]

theorem RunInv.step {o : Option Watched} (h : RunInv o) (hfeasible : Feasible n o e)
    (hsteady : Steady n o e) : RunInv (watchStep n o e) := by
  cases o with
  | none => trivial
  | some w =>
    cases hstep : clientStep n w.client e with
    | none =>
      rw [watchStep, Option.bind_some, hstep]
      trivial
    | some s' =>
      rw [watchStep, Option.bind_some, hstep]
      exact ⟨h.1.step hfeasible hstep, ((h.1.steady_iff h.2 hfeasible).mp hsteady).1 s' hstep⟩

theorem RunInv.steady_iff {o : Option Watched} (h : RunInv o) (hfeasible : Feasible n o e) :
    Steady n o e ↔ NeverStuck n o e := by
  cases o with
  | none => simp [Steady, NeverStuck]
  | some w =>
    rw [h.1.steady_iff h.2 hfeasible, NeverStuck]
    refine and_congr_left fun _ => forall_congr' fun s' => forall_congr' fun hstep => ?_
    exact (h.1.step hfeasible hstep).reconnects_iff.symm

end Net
end Proof
end PtpCore
