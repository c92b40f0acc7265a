import PtpCore.Net.ClientSystem
import PtpCore.Proof.Net.Channel
import PtpCore.Proof.Net.Reconnect

/-!
# Heartbeats

The timer looks for a connection only while the state that all connections share is
`ConnectionStateConnected`, and `OnTimer` sends only if the same variable is `ConnectionLogged`. So
no run ever sends a heartbeat, also not in a state in which one is due.
-/

namespace PtpCore
namespace Proof
namespace Net

open Lib
open PtpCore.Global PtpCore.Net PtpCore.Crypto

/-! ## The heartbeats sent so far -/

/-- The connections they were sent on. -/
def heartBeats (s : ClientState) : List ClientConnRef :=
  s.notices.filterMap fun
    | .heartBeat c => some c
    | .stateChanged _ => none

section

variable {s s' : ClientState} {c : ClientConnRef} {n : Nat}

theorem heartBeats_setState (s : ClientState) (state : ConnectionState) :
    heartBeats (s.setState state) = heartBeats s := by
  rw [heartBeats, heartBeats, ClientState.setState, List.filterMap_append]
  exact List.append_nil _

theorem heartBeats_close (s : ClientState) (c : ClientConnRef) :
    heartBeats (s.close c) = heartBeats s := by
  rw [ClientState.close]
  cases s.conns.find c with
  | none => rfl
  | some conn =>
    obtain ⟨idleCnt, hback⟩ := backOff_eq (s.setState .closed)
    dsimp only
    rw [hback]
    split
    · exact heartBeats_setState s .closed
    · exact heartBeats_setState s .closed

theorem heartBeats_initMsgConn (s : ClientState) (accountId : UInt32) (handle : Int)
    (now : UInt64) : heartBeats (s.initMsgConn accountId handle now) = heartBeats s := by
  rw [ClientState.initMsgConn, ClientState.newConn]
  dsimp only
  rw [ClientState.connect]
  split
  · rfl
  · dsimp only
    split
    · exact heartBeats_setState _ .connecting
    · exact heartBeats_setState _ .connecting

/-- Whoever is here because the state is `ConnectionStateConnected` sends none. -/
theorem heartBeats_onTimer (hstate : s.connectionState = some .connected) (curTime : UInt64) :
    heartBeats (s.onTimer c curTime) = heartBeats s := by
  rcases onTimer_cases hstate c curTime with heq | heq
  · rw [heq]
  · rw [heq]
    exact heartBeats_close s c

theorem heartBeats_timerLoop (hstate : s.connectionState = some .connected) {curTime : UInt64}
    (h : s.timerLoop n curTime = some s') : heartBeats s' = heartBeats s := by
  rcases timerLoop_cases h with rfl | ⟨c, -, rfl⟩
  · rfl
  · exact heartBeats_onTimer hstate curTime

theorem heartBeats_giveUp (h : s.giveUp n = some s') : heartBeats s' = heartBeats s := by
  rw [ClientState.giveUp] at h
  split at h
  · rcases closeMsgConn_cases h with rfl | ⟨c, -, rfl⟩
    · rfl
    · exact heartBeats_close _ c
  · cases h
    rfl

theorem heartBeats_count (s : ClientState) :
    heartBeats s.countIdle.countConnecting = heartBeats s := by
  have hidle : s.countIdle.notices = s.notices := by
    rw [ClientState.countIdle]
    split
    · rfl
    · rfl
  rw [heartBeats, heartBeats, ← hidle, ClientState.countConnecting]
  split
  · rfl
  · rfl

/-- **One tick.** -/
theorem heartBeats_tick {curTime : UInt64} {handle : Int}
    (h : s.msgConnTimerCallback n curTime handle = some s') : heartBeats s' = heartBeats s := by
  rw [ClientState.msgConnTimerCallback] at h
  cases hloop : (if s.countTimer.connectionState = some .connected then
      s.countTimer.timerLoop n curTime else some s.countTimer) with
  | none =>
    rw [hloop] at h
    cases h
  | some t =>
    rw [hloop] at h
    have hcount : heartBeats s.countTimer = heartBeats s := rfl
    have ht : heartBeats t = heartBeats s := by
      split at hloop
      · rename_i hstate
        exact (heartBeats_timerLoop hstate hloop).trans hcount
      · cases hloop
        rfl
    dsimp only at h
    split at h
    · obtain ⟨t', hgive, rfl⟩ := Option.map_eq_some_iff.mp h
      have ht' : heartBeats t' = heartBeats t :=
        (heartBeats_giveUp hgive).trans (heartBeats_count t)
      rw [ClientState.reconnect]
      split
      · rw [heartBeats_initMsgConn, ht', ht]
      · rw [ht', ht]
    · cases h
      exact ht

theorem heartBeats_onHandle {handle : Int} {f : ClientState → ClientConnRef → ClientState}
    (hf : ∀ c, heartBeats (f s c) = heartBeats s) :
    heartBeats (s.onHandle handle f) = heartBeats s := by
  rw [ClientState.onHandle]
  split
  · rfl
  · exact hf _

theorem heartBeats_onConfirm (s : ClientState) (c : ClientConnRef) :
    heartBeats (s.onConfirm c) = heartBeats s := by
  rw [ClientState.onConfirm]
  split
  · rfl
  · exact heartBeats_setState _ .connected

theorem heartBeats_onRead (s : ClientState) (c : ClientConnRef) (now : UInt64) :
    heartBeats (s.onRead c now) = heartBeats s := by
  rw [ClientState.onRead]
  split
  · rfl
  · rfl

theorem heartBeats_clientStep {e : ClientEvent} (h : clientStep n s e = some s') :
    heartBeats s' = heartBeats s := by
  cases e with
  | initMsgConn accountId handle now =>
    cases h
    exact heartBeats_initMsgConn s accountId handle now
  | confirm handle =>
    cases h
    exact heartBeats_onHandle (heartBeats_onConfirm s)
  | closed handle =>
    cases h
    exact heartBeats_onHandle (heartBeats_close s)
  | received handle now =>
    cases h
    exact heartBeats_onHandle fun c => heartBeats_onRead s c now
  | setCurrentAccountId accountId =>
    cases h
    rfl
  | tick curTime handle => exact heartBeats_tick h
  | reorder m =>
    cases h
    rfl

end

/-! ## Any run of a client -/

section

variable {l : ClientLibs} {s s' : ClientSystem l} {n : Nat}

theorem heartBeats_sendOn (s : ClientSystem l) (accountId : UInt32) (now : UInt64) :
    heartBeats (s.sendOn accountId now).client = heartBeats s.client := by
  rw [ClientSystem.sendOn]
  split
  · rfl
  · split
    · rfl
    · rfl

theorem heartBeats_handlePdu {accountId : UInt32} {now : UInt64} {pdu : ClientEnv × CImPdu}
    (h : ClientSystem.handlePdu accountId now (some s) pdu = some s') :
    heartBeats s'.client = heartBeats s.client := by
  rw [ClientSystem.handlePdu, Option.bind_some] at h
  split at h
  · cases h
  · cases h
    rfl
  · cases h
    exact heartBeats_sendOn _ accountId now

/-- All PDUs of one `OnRead`. -/
theorem heartBeats_handlePdus {accountId : UInt32} {now : UInt64}
    (pdus : List (ClientEnv × CImPdu))
    (h : pdus.foldl (ClientSystem.handlePdu accountId now) (some s) = some s') :
    heartBeats s'.client = heartBeats s.client := by
  induction pdus using List.reverseRecOn generalizing s' with
  | nil =>
    cases h
    rfl
  | append_singleton pdus pdu ih =>
    rw [List.foldl_append, List.foldl_cons, List.foldl_nil] at h
    cases hbefore : pdus.foldl (ClientSystem.handlePdu accountId now) (some s) with
    | none =>
      rw [hbefore] at h
      cases h
    | some t =>
      rw [hbefore] at h
      exact (heartBeats_handlePdu h).trans (ih hbefore)

/-- **One event.** -/
theorem heartBeats_systemStep {e : SystemEvent} (h : systemStep n s e = some s') :
    heartBeats s'.client = heartBeats s.client := by
  cases e with
  | client e =>
    obtain ⟨client, hstep, rfl⟩ := Option.map_eq_some_iff.mp h
    exact heartBeats_clientStep hstep
  | read handle now pdus =>
    rw [systemStep] at h
    split at h
    · cases h
      rfl
    · split at h
      · cases h
        rfl
      · exact (heartBeats_handlePdus pdus h).trans (heartBeats_onRead _ _ now)
  | send accountId now env pdu =>
    rw [systemStep] at h
    split at h
    · cases h
    · cases h
      exact heartBeats_sendOn s accountId now
  | setConnectionState accountId state =>
    cases h
    rfl

/-- **A run.** -/
theorem heartBeats_systemRun (es : List SystemEvent) (h : systemRun n s es = some s') :
    heartBeats s'.client = heartBeats s.client := by
  induction es using List.reverseRecOn generalizing s' with
  | nil =>
    cases h
    rfl
  | append_singleton es e ih =>
    rw [systemRun, List.foldl_append, List.foldl_cons, List.foldl_nil] at h
    obtain ⟨t, hbefore, hstep⟩ := Option.bind_eq_some_iff.mp h
    exact (heartBeats_systemStep hstep).trans (ih hbefore)

end

section

variable {l : ClientLibs}

/-- A heartbeat is due on `c`: it is the connection of the current account and open, the account has
    got a PDU that was encrypted, and nothing was sent for long enough. -/
def DueOn (s : ClientSystem l) (curTime : UInt64) (c : ClientConnRef) : Prop :=
  (s.accounts s.client.currentAccountId).connectionState = .logged ∧
    s.client.getConn s.client.currentAccountId = some c ∧
    ∃ conn, s.client.conns.find c = some conn ∧ conn.isOpen = true ∧
      conn.lastSendTick.toNat + clientHeartbeatInterval.toNat < curTime.toNat

/-- A tick sends one heartbeat where it is due, and none if it is due nowhere. -/
structure BeatsWhenDue (s : ClientSystem l) (curTime : UInt64) (handle : Int) : Prop where
  due : ∀ c, DueOn s curTime c → ∃ n s', s.client.msgConnTimerCallback n curTime handle = some s' ∧
    heartBeats s' = heartBeats s.client ++ [c]
  otherwise : (¬ ∃ c, DueOn s curTime c) → ∀ n s',
    s.client.msgConnTimerCallback n curTime handle = some s' → heartBeats s' = heartBeats s.client

/-- In every state that a client gets to, none has been sent so far, and a tick does what it should
    exactly if none is due. -/
theorem beatsWhenDue_iff (n : Nat) (managers : UInt32 → AccountManager l.storage.Files)
    (es : List SystemEvent) (s : ClientSystem l)
    (hrun : systemRun n (.start managers) es = some s) :
    heartBeats s.client = [] ∧
      ∀ curTime handle, BeatsWhenDue s curTime handle ↔ ¬ ∃ c, DueOn s curTime c := by
  refine ⟨heartBeats_systemRun es hrun, ?_⟩
  intro curTime handle
  constructor
  · rintro h ⟨c, hdue⟩
    obtain ⟨n', s', htick, hbeats⟩ := h.due c hdue
    rw [heartBeats_tick htick] at hbeats
    have hlen := congrArg List.length hbeats
    rw [List.length_append, List.length_singleton] at hlen
    omega
  · intro hnone
    exact ⟨fun c hdue => absurd ⟨c, hdue⟩ hnone, fun _ n' s' htick => heartBeats_tick htick⟩

end

/-! ### A session without traffic -/

/-- A PDU with `reversed` set to 1, as it arrives: a tag of zeros and two bytes. -/
def sealedPdu : CImPdu :=
  Server.deliver ((CImPdu.new.setPBMsgCmd (fun _ => 0)
    (some (List.replicate 16 0 ++ [0x30, 0xd8])) 4096 2).setReversed 1)

/-- Account 1 is connected, and gets the PDU a second later. -/
def quietRun : List SystemEvent :=
  [.client (.setCurrentAccountId 1), .client (.initMsgConn 1 5 0), .client (.confirm 5),
    .read 5 1000 [(sampleClientEnv, sealedPdu)]]

def quietStart : ClientSystem sampleClient := .start fun _ => sampleAccount.manager

/-- Where that leads. -/
def quietState : Option (ClientSystem sampleClient) := systemRun 1 quietStart quietRun

def quietConn : CClientConn where
  handle := 5
  isOpen := true
  accountId := 1
  lastSendTick := 0
  lastRecvTick := 1000

theorem quietState_spec :
    quietState.map (fun s => ((s.accounts 1).connectionState, s.client.currentAccountId,
      s.client.getConn 1, s.client.conns)) = some (.logged, 1, some 0, [(0, quietConn)]) := by
  decide +kernel

/-- A heartbeat is due from the time on that the interval says. -/
theorem exists_quietState :
    ∃ s, quietState = some s ∧ ∀ curTime c, DueOn s curTime c ↔ c = 0 ∧ 30000 < curTime.toNat := by
  obtain ⟨s, hs, heq⟩ := Option.map_eq_some_iff.mp quietState_spec
  simp only [Prod.mk.injEq] at heq
  obtain ⟨hlogged, hcurrent, hget, hconns⟩ := heq
  refine ⟨s, hs, ?_⟩
  intro curTime c
  have hinterval : quietConn.lastSendTick.toNat + clientHeartbeatInterval.toNat = 30000 := by decide
  rw [DueOn, hcurrent, hget, hconns]
  constructor
  · rintro ⟨-, hc, conn, hconn, -, hlate⟩
    cases hc
    cases hconn
    exact ⟨rfl, hinterval ▸ hlate⟩
  · rintro ⟨rfl, hlate⟩
    exact ⟨hlogged, rfl, quietConn, rfl, rfl, hinterval ▸ hlate⟩

/-- After forty seconds a heartbeat is due, and the tick sends none. -/
theorem not_beatsWhenDue_quietRun :
    ∃ s, systemRun 1 quietStart quietRun = some s ∧ DueOn s 40000 0 ∧
      ¬ BeatsWhenDue s 40000 netlibInvalidHandle := by
  obtain ⟨s, hs, hiff⟩ := exists_quietState
  have hdue : DueOn s 40000 0 := (hiff 40000 0).mpr ⟨rfl, by decide⟩
  refine ⟨s, hs, hdue, ?_⟩
  intro h
  obtain ⟨n, s', htick, hbeats⟩ := h.due 0 hdue
  rw [heartBeats_tick htick] at hbeats
  have hlen := congrArg List.length hbeats
  rw [List.length_append, List.length_singleton] at hlen
  omega

/-- After twenty seconds none is due. -/
theorem beatsWhenDue_quietRun :
    ∃ s, systemRun 1 quietStart quietRun = some s ∧ BeatsWhenDue s 20000 netlibInvalidHandle := by
  obtain ⟨s, hs, hiff⟩ := exists_quietState
  refine ⟨s, hs, ?_⟩
  apply ((beatsWhenDue_iff 1 (fun _ => sampleAccount.manager) quietRun s hs).2 20000
    netlibInvalidHandle).mpr
  rintro ⟨c, hdue⟩
  exact absurd ((hiff 20000 c).mp hdue).2 (by decide)

end Net
end Proof
end PtpCore
