import PtpCore.Net.ClientConn

/-!
# The loops over the maps of the client

None of the five loops moves its iterator, so only the first entry counts. A loop that is entered
ends when the map is empty, or when the first entry makes it break; otherwise it stays at that entry
for ever. The loop of `onConnecting` never breaks: it goes on with the iterator of an entry that it
has erased.
-/

namespace PtpCore
namespace Proof
namespace Net

open Lib
open PtpCore.Net

/-! ## The map by account -/

section

variable (s : ClientState)

theorem timerLoop_ends_iff (curTime : UInt64) :
    (∃ n r, s.timerLoop n curTime = some r) ↔
      s.accountMsgConnMap = [] ∨
        ∃ accountId c rest, s.accountMsgConnMap = (accountId, c) :: rest ∧
          accountId = s.currentAccountId := by
  have hfind : ∀ k, s.findAccount k = s.accountMsgConnMap.find k := fun _ => rfl
  simp only [ClientState.timerLoop]
  rw [exists_outOf_iff]
  apply ends_scan_iff hfind
  · intro accountId c hcurrent
    exact ⟨_, if_pos hcurrent⟩
  · intro accountId c hother
    exact if_neg hother

theorem closeMsgConn_ends_iff (accountId : UInt32) :
    (∃ n r, s.closeMsgConn n accountId = some r) ↔
      s.accountMsgConnMap = [] ∨
        ∃ account c rest, s.accountMsgConnMap = (account, c) :: rest ∧
          (account = accountId ∧ s.isOpen c = true) := by
  have hfind : ∀ k, s.findAccount k = s.accountMsgConnMap.find k := fun _ => rfl
  simp only [ClientState.closeMsgConn]
  rw [exists_outOf_iff]
  apply ends_scan_iff hfind
  · intro account c ⟨haccount, hopen⟩
    exact ⟨_, (if_pos haccount).trans (if_pos hopen)⟩
  · intro account c hnot
    rw [ClientState.closeVisit]
    by_cases haccount : account = accountId
    · rw [if_pos haccount, if_neg fun hopen => hnot ⟨haccount, hopen⟩]
    · rw [if_neg haccount]

end

/-! ## The map by socket -/

section

variable (s : SocketAccounts) (instanceNum socketFd : Int)

theorem findSocket_eq (k : Int) : s.findSocket k = s.socketAccountMap.find k := rfl

theorem loopSockets_ends_iff (P : Int → UInt32 → Prop)
    {visit : SocketAccounts → Int → UInt32 → SocketAccounts.SocketPass}
    (hleave : ∀ fd accountId, P fd accountId → ∃ r, visit s fd accountId = .leave r)
    (hstay : ∀ fd accountId, ¬ P fd accountId → visit s fd accountId = .again (s, some fd)) :
    (∃ n r, SocketAccounts.loopSockets n visit s = some r) ↔
      s.socketAccountMap = [] ∨
        ∃ fd accountId rest, s.socketAccountMap = (fd, accountId) :: rest ∧ P fd accountId := by
  simp only [SocketAccounts.loopSockets]
  rw [exists_outOf_iff]
  exact ends_scan_iff (findSocket_eq s) hleave hstay

/-- An iterator whose element was erased, or one that stays: the loop of `onConnecting` is never
    left from an entry. -/
theorem connectingLoop_ends_iff :
    (∃ n r, SocketAccounts.loopSockets n SocketAccounts.connectingVisit s = some r) ↔
      s.socketAccountMap = [] := by
  simp only [SocketAccounts.loopSockets, SocketAccounts.firstSocket]
  rw [exists_outOf_iff]
  cases hmap : s.socketAccountMap with
  | nil => exact ⟨fun _ => rfl, fun _ => ends_of_leave (r := s) scan_end⟩
  | cons entry rest =>
    obtain ⟨fd, accountId⟩ := entry
    have hfind : s.findSocket fd = some accountId := by
      rw [findSocket_eq, hmap, Assoc.find, if_pos rfl]
    have hat : scan SocketAccounts.findSocket SocketAccounts.connectingVisit (s, some fd) =
        SocketAccounts.connectingVisit s fd accountId := scan_at hfind
    refine ⟨fun h => absurd h ?_, fun h => by cases h⟩
    rw [SocketAccounts.connectingVisit] at hat
    by_cases hcurrent : accountId = s.currentAccountId
    · rw [if_pos hcurrent] at hat
      refine (ends_of_again_iff hat).not.mpr (not_ends_of_invalid (scan_erased ?_))
      exact Assoc.find_erase_self _ _
    · rw [if_neg hcurrent] at hat
      exact not_ends_of_again hat

theorem onConnecting_ends_iff :
    (∃ n r, s.onConnecting n instanceNum socketFd = some r) ↔
      (instanceNum ≠ 0 ∨ socketFd = -1) ∨ s.socketAccountMap = [] := by
  rw [← connectingLoop_ends_iff]
  by_cases hreturns : instanceNum ≠ 0 ∨ socketFd = -1
  · refine ⟨fun _ => .inl hreturns, fun _ => ⟨0, s, if_pos hreturns⟩⟩
  · have hloop : ∀ n, s.onConnecting n instanceNum socketFd = Option.map _
        (SocketAccounts.loopSockets n SocketAccounts.connectingVisit s) := fun n => if_neg hreturns
    simp only [hloop, Option.map_eq_some_iff]
    constructor
    · rintro ⟨n, r, s', hout, _⟩
      exact .inr ⟨n, s', hout⟩
    · intro h
      obtain ⟨n, s', hout⟩ := h.resolve_left hreturns
      exact ⟨n, _, s', hout, rfl⟩

/-- The loops of `onClose` and `onRead` break at the entry of the socket. -/
theorem socketLoop_ends_iff {f : Nat → Option SocketAccounts}
    {visit : SocketAccounts → Int → UInt32 → SocketAccounts.SocketPass}
    (hf : ∀ n, f n = if instanceNum ≠ 0 then some s
      else if socketFd ≠ -1 then SocketAccounts.loopSockets n visit s else some s)
    (hleave : ∀ fd accountId, fd = socketFd → ∃ r, visit s fd accountId = .leave r)
    (hstay : ∀ fd accountId, ¬ fd = socketFd → visit s fd accountId = .again (s, some fd)) :
    (∃ n r, f n = some r) ↔
      (instanceNum ≠ 0 ∨ socketFd = -1) ∨ s.socketAccountMap = [] ∨
        s.firstSocket = some socketFd := by
  have hfirst : (∃ fd accountId rest, s.socketAccountMap = (fd, accountId) :: rest ∧
      fd = socketFd) ↔ s.firstSocket = some socketFd := by
    rw [SocketAccounts.firstSocket]
    cases s.socketAccountMap with
    | nil => simp
    | cons entry rest =>
      obtain ⟨fd, accountId⟩ := entry
      simp
  by_cases hinstance : instanceNum ≠ 0
  · exact ⟨fun _ => .inl (.inl hinstance), fun _ => ⟨0, s, (hf 0).trans (if_pos hinstance)⟩⟩
  by_cases hfd : socketFd ≠ -1
  · have hloop : ∀ n, f n = SocketAccounts.loopSockets n visit s :=
      fun n => (hf n).trans ((if_neg hinstance).trans (if_pos hfd))
    simp only [hloop]
    rw [loopSockets_ends_iff s (fun fd _ => fd = socketFd) hleave hstay, hfirst]
    exact ⟨.inr, fun h => h.resolve_left fun hreturns => hreturns.elim hinstance hfd⟩
  · refine ⟨fun _ => .inl (.inr (not_not.mp hfd)), fun _ => ⟨0, s, ?_⟩⟩
    exact (hf 0).trans ((if_neg hinstance).trans (if_neg hfd))

theorem onClose_ends_iff :
    (∃ n r, s.onClose n instanceNum socketFd = some r) ↔
      (instanceNum ≠ 0 ∨ socketFd = -1) ∨ s.socketAccountMap = [] ∨
        s.firstSocket = some socketFd := by
  apply socketLoop_ends_iff s instanceNum socketFd fun _ => rfl
  · intro fd accountId h
    exact ⟨_, if_pos h⟩
  · intro fd accountId h
    exact if_neg h

theorem onRead_ends_iff :
    (∃ n r, s.onRead n instanceNum socketFd = some r) ↔
      (instanceNum ≠ 0 ∨ socketFd = -1) ∨ s.socketAccountMap = [] ∨
        s.firstSocket = some socketFd := by
  apply socketLoop_ends_iff s instanceNum socketFd fun _ => rfl
  · intro fd accountId h
    exact ⟨_, if_pos h⟩
  · intro fd accountId h
    exact if_neg h

end

/-! ## All five -/

/-- **When the loops end.** Each of them ends just when it is not entered, when the map is empty, or
    when the entry that comes first makes it break; none does in `onConnecting`. -/
theorem scans_end_iff (s : ClientState) (a : SocketAccounts) (curTime : UInt64)
    (accountId : UInt32) (instanceNum socketFd : Int) :
    ((s.connectionState = some .connected → ∃ n r, s.timerLoop n curTime = some r) ↔
      (s.connectionState = some .connected → s.accountMsgConnMap = [] ∨
        ∃ account c rest, s.accountMsgConnMap = (account, c) :: rest ∧
          account = s.currentAccountId)) ∧
    ((∃ n r, s.closeMsgConn n accountId = some r) ↔
      s.accountMsgConnMap = [] ∨
        ∃ account c rest, s.accountMsgConnMap = (account, c) :: rest ∧
          (account = accountId ∧ s.isOpen c = true)) ∧
    ((∃ n r, a.onConnecting n instanceNum socketFd = some r) ↔
      (instanceNum ≠ 0 ∨ socketFd = -1) ∨ a.socketAccountMap = []) ∧
    ((∃ n r, a.onClose n instanceNum socketFd = some r) ↔
      (instanceNum ≠ 0 ∨ socketFd = -1) ∨ a.socketAccountMap = [] ∨
        a.firstSocket = some socketFd) ∧
    ((∃ n r, a.onRead n instanceNum socketFd = some r) ↔
      (instanceNum ≠ 0 ∨ socketFd = -1) ∨ a.socketAccountMap = [] ∨
        a.firstSocket = some socketFd) := by
  refine ⟨?_, closeMsgConn_ends_iff s accountId, onConnecting_ends_iff a instanceNum socketFd,
    onClose_ends_iff a instanceNum socketFd, onRead_ends_iff a instanceNum socketFd⟩
  rw [timerLoop_ends_iff]

/-- Account 1 is current and connected, and the map yields account 2 first. -/
def twoAccounts : ClientState :=
  { ClientState.start with
    connectionState := some .connected
    currentAccountId := 1
    msgConnMap := [(5, 0), (6, 1)]
    accountMsgConnMap := [(2, 1), (1, 0)]
    conns := [(0, { handle := 5, isOpen := true, accountId := 1, lastSendTick := 0, lastRecvTick := 0 }),
      (1, { handle := 6, isOpen := true, accountId := 2, lastSendTick := 0, lastRecvTick := 0 })]
    nextConn := 2 }

/-- One socket, of the current account. -/
def oneSocket : SocketAccounts := ⟨[(5, 1)], 1, []⟩

theorem not_scans_end :
    twoAccounts.connectionState = some .connected ∧
      (¬ ∃ n r, twoAccounts.timerLoop n 0 = some r) ∧
      (¬ ∃ n r, twoAccounts.closeMsgConn n 1 = some r) ∧
      (¬ ∃ n r, oneSocket.onConnecting n 0 6 = some r) ∧
      loop (scan SocketAccounts.findSocket SocketAccounts.connectingVisit) 2
        (oneSocket, oneSocket.firstSocket) = .invalid := by
  refine ⟨rfl, ?_, ?_, ?_, rfl⟩
  · rw [timerLoop_ends_iff]
    simp [twoAccounts]
  · rw [closeMsgConn_ends_iff]
    simp [twoAccounts]
  · rw [onConnecting_ends_iff]
    simp [oneSocket]

end Net
end Proof
end PtpCore
