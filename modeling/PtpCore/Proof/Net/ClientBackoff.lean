import PtpCore.Proof.Net.Reconnect

/-!
# How long the client waits

`Close` sets `reconnect_cnt`, and logs it as the time after which the client will connect again. The
timer counts up to it in `idle_cnt`. `Close` clears `idle_cnt` only when `reconnect_cnt` starts
over, and the attempt does not clear it either. So the client waits for as long as it says if
`Close` finds `idle_cnt` cleared (`Rested`), and for less if it was counting before.

The moves of a run are kept in a log. What `Close` and `OnConfirm` have done is read off the state
changes they announce (`seen`).
-/

namespace PtpCore
namespace Proof
namespace Net

open Lib
open PtpCore.Net

namespace Backoff

inductive Move
  /-- `Close`, and the counters as it finds them. -/
  | close (idleCnt reconnectCnt : UInt32)
  | confirm
  /-- The timer comes to its counters, in the closed state. -/
  | closedTick
  /-- The timer starts a connection. -/
  | attempt (reconnectCnt : UInt32)
  deriving DecidableEq, Repr

/-- What a part of the code has done that has led from `s` to `s'`. -/
def seen (s s' : ClientState) : List Move :=
  (s'.notices.drop s.notices.length).filterMap fun
    | .stateChanged .closed => some (.close s.idleCnt s.reconnectCnt)
    | .stateChanged .connected => some .confirm
    | _ => none

/-- The end of the timer, after the counters. -/
def lateMoves (n : Nat) (s : ClientState) : List Move :=
  match s.giveUp n with
  | none => []
  | some s' => seen s s' ++
    if s'.idleCnt ≥ s'.reconnectCnt ∧ s'.connectionState = some .closed then
      [.attempt s'.reconnectCnt]
    else []

def tickMoves (n : Nat) (s : ClientState) (curTime : UInt64) : List Move :=
  match timed n s curTime with
  | none => []
  | some s' => seen s s' ++
    ((if s'.connectionState = some .closed then [.closedTick] else []) ++
      if s'.reconnectCnt > 0 then lateMoves n s'.countIdle.countConnecting else [])

def moves (n : Nat) (s : ClientState) : ClientEvent → List Move
  | .tick curTime _ => tickMoves n s curTime
  | e => (clientStep n s e).elim [] (seen s)

structure Logged where
  client : ClientState
  log : List Move

def Logged.start : Logged := ⟨.start, []⟩

/-- A run ends with a tick that does not return. -/
def logStep (n : Nat) (w : Option Logged) (e : ClientEvent) : Option Logged :=
  w.bind fun w => (clientStep n w.client e).map fun s => ⟨s, w.log ++ moves n w.client e⟩

/-! ## What is announced -/

/-- The closes in a row, without a confirm between them. -/
def closes (log : List Move) : Nat :=
  log.foldl (fun k m => match m with
    | .close _ _ => k + 1
    | .confirm => 0
    | _ => k) 0

/-- The ticks in the closed state since the last `Close`. -/
def waited (log : List Move) : Nat :=
  log.foldl (fun k m => match m with
    | .close _ _ => 0
    | .closedTick => k + 1
    | _ => k) 0

/-- What an attempt needs: `reconnect_cnt` ticks have passed since the `Close` that has set it. -/
def InTime (log : List Move) : Move → Prop
  | .attempt reconnectCnt => 0 < closes log ∧ waited log = reconnectCnt.toNat
  | _ => True

/-- `reconnect_cnt` after `k` closes in a row: 0, and then 1, 2, 4, 8, 16, 32, 1, 2, … -/
def waitAfter (k : Nat) : Nat := if k = 0 then 0 else 2 ^ ((k - 1) % 6)

/-- Every attempt so far was made in time, and `reconnect_cnt` is as announced. -/
structure OnTime (w : Logged) : Prop where
  inTime : Justified InTime w.log
  reconnectCnt : w.client.reconnectCnt.toNat = waitAfter (closes w.log)

/-- `Close` finds `idle_cnt` cleared, or clears it because it starts over. -/
def Rested : Move → Prop
  | .close idleCnt reconnectCnt => idleCnt = 0 ∨ reconnectCnt = maxReconnectCnt
  | _ => True

instance : DecidablePred Rested
  | .close _ _ => inferInstanceAs (Decidable (_ ∨ _))
  | .confirm => isTrue trivial
  | .closedTick => isTrue trivial
  | .attempt _ => isTrue trivial

@[simp] theorem closes_concat (log : List Move) (m : Move) :
    closes (log ++ [m]) = match m with
      | .close _ _ => closes log + 1
      | .confirm => 0
      | _ => closes log := by
  rw [closes, List.foldl_append]
  rfl

@[simp] theorem waited_concat (log : List Move) (m : Move) :
    waited (log ++ [m]) = match m with
      | .close _ _ => 0
      | .closedTick => waited log + 1
      | _ => waited log := by
  rw [waited, List.foldl_append]
  rfl

theorem waitAfter_le (k : Nat) : waitAfter k ≤ 32 := by
  have hall : ∀ m, m < 6 → 2 ^ m ≤ 32 := by decide
  unfold waitAfter
  split
  · decide
  · exact hall _ (Nat.mod_lt _ (by decide))

theorem waitAfter_succ (k : Nat) :
    (backedOff (UInt32.ofNat (waitAfter k))).toNat = waitAfter (k + 1) := by
  have hall : ∀ m, m < 6 → (backedOff (UInt32.ofNat (2 ^ m))).toNat = 2 ^ ((m + 1) % 6) := by decide
  cases k with
  | zero => decide
  | succ k =>
    have hmod : (k + 1) % 6 = (k % 6 + 1) % 6 := by omega
    simp only [waitAfter, Nat.add_sub_cancel, Nat.succ_ne_zero, if_false]
    rw [hall _ (Nat.mod_lt k (by decide)), ← hmod]

theorem waitAfter_pos {k : Nat} (hk : 0 < k) : 0 < waitAfter k := by
  rw [waitAfter, if_neg (Nat.ne_of_gt hk)]
  exact Nat.two_pow_pos _

/-! ## What the parts of the code do -/

section

variable {s s' : ClientState} {c : ClientConnRef} {conn : CClientConn} {n : Nat} {curTime : UInt64}

/-- What a part of the code does to the counters, and what is seen of it. -/
inductive Change (s s' : ClientState) : Prop
  | same (hseen : seen s s' = []) (hidle : s'.idleCnt = s.idleCnt)
      (hcnt : s'.reconnectCnt = s.reconnectCnt) (hstate : s'.connectionState = s.connectionState)
  | connect (hseen : seen s s' = []) (hidle : s'.idleCnt = s.idleCnt)
      (hcnt : s'.reconnectCnt = s.reconnectCnt) (hstate : s'.connectionState = some .connecting)
  | close (hseen : seen s s' = [.close s.idleCnt s.reconnectCnt])
      (hidle : s.idleCnt = 0 ∨ s.reconnectCnt = maxReconnectCnt → s'.idleCnt = 0)
      (hcnt : s'.reconnectCnt = backedOff s.reconnectCnt)
  | confirm (hseen : seen s s' = [.confirm]) (hcnt : s'.reconnectCnt = 0)

theorem seen_eq {notices : List ClientNotice} (h : s'.notices = s.notices ++ notices) :
    seen s s' = notices.filterMap fun
      | .stateChanged .closed => some (.close s.idleCnt s.reconnectCnt)
      | .stateChanged .connected => some .confirm
      | _ => none := by
  rw [seen, h, List.drop_left]

theorem seen_of_eq (h : s'.notices = s.notices) : seen s s' = [] :=
  seen_eq (h.trans (List.append_nil _).symm)

theorem Change.refl (s : ClientState) : Change s s := .same (seen_of_eq rfl) rfl rfl rfl

/-- A part that begins with what is not seen. -/
theorem Change.of_eq {s₀ : ClientState} (h : Change s s') (hnotices : s.notices = s₀.notices)
    (hidle : s.idleCnt = s₀.idleCnt) (hcnt : s.reconnectCnt = s₀.reconnectCnt)
    (hstate : s.connectionState = s₀.connectionState) : Change s₀ s' := by
  have hseen : seen s₀ s' = seen s s' := by rw [seen, seen, hnotices, hidle, hcnt]
  cases h with
  | same hs hi hc hst =>
    exact .same (hseen.trans hs) (hi.trans hidle) (hc.trans hcnt) (hst.trans hstate)
  | connect hs hi hc hst => exact .connect (hseen.trans hs) (hi.trans hidle) (hc.trans hcnt) hst
  | close hs hi hc =>
    rw [hidle, hcnt] at hs hi
    exact .close (hseen.trans hs) hi (hcnt ▸ hc)
  | confirm hs hc => exact .confirm (hseen.trans hs) hc

theorem backOff_spec (s : ClientState) :
    (s.idleCnt = 0 ∨ s.reconnectCnt = maxReconnectCnt → s.backOff.idleCnt = 0) ∧
      s.backOff.reconnectCnt = backedOff s.reconnectCnt := by
  rw [ClientState.backOff, backedOff]
  generalize hcnt : (if s.reconnectCnt = 0 then 1 else s.reconnectCnt * 2 : UInt32) = cnt
  by_cases hmax : cnt > maxReconnectCnt
  · rw [if_pos hmax, if_pos hmax]
    exact ⟨fun _ => rfl, rfl⟩
  · rw [if_neg hmax, if_neg hmax]
    refine ⟨?_, rfl⟩
    rintro (hzero | hlast)
    · exact hzero
    · rw [hlast] at hcnt
      exact absurd (hcnt ▸ (by decide)) hmax

theorem notices_backOff (s : ClientState) : s.backOff.notices = s.notices := by
  obtain ⟨idleCnt, hback⟩ := backOff_eq s
  rw [hback]

/-- `Close`, if there is such a connection. -/
theorem close_cases (s : ClientState) (c : ClientConnRef) : s.close c = s ∨
    seen s (s.close c) = [.close s.idleCnt s.reconnectCnt] ∧
      (s.idleCnt = 0 ∨ s.reconnectCnt = maxReconnectCnt → (s.close c).idleCnt = 0) ∧
      (s.close c).reconnectCnt = backedOff s.reconnectCnt := by
  rw [ClientState.close]
  cases s.conns.find c with
  | none => exact .inl rfl
  | some conn =>
    have hspec := backOff_spec (s.setState .closed)
    have hnotices : (s.setState .closed).backOff.notices = s.notices ++ [.stateChanged .closed] :=
      notices_backOff _
    dsimp only
    split
    · exact .inr ⟨seen_eq hnotices, hspec⟩
    · exact .inr ⟨seen_eq hnotices, hspec⟩

theorem change_close (s : ClientState) (c : ClientConnRef) : Change s (s.close c) := by
  rcases close_cases s c with hsame | ⟨hseen, hidle, hcnt⟩
  · rw [hsame]
    exact .refl s
  · exact .close hseen hidle hcnt

theorem change_onConfirm (s : ClientState) (c : ClientConnRef) : Change s (s.onConfirm c) := by
  rw [ClientState.onConfirm]
  cases s.conns.find c with
  | none => exact .refl s
  | some conn =>
    have hseen : ∀ s' : ClientState, s'.notices = s.notices ++ [.stateChanged .connected] →
        seen s s' = [.confirm] := fun s' h => seen_eq h
    exact .confirm (hseen _ rfl) rfl

theorem change_onRead (s : ClientState) (c : ClientConnRef) (now : UInt64) :
    Change s (s.onRead c now) := by
  rw [ClientState.onRead]
  cases s.conns.find c with
  | none => exact .refl s
  | some conn => exact .same (seen_of_eq rfl) rfl rfl rfl

theorem initMsgConn_spec (s : ClientState) (accountId : UInt32) (handle : Int) (now : UInt64) :
    seen s (s.initMsgConn accountId handle now) = [] ∧
      (s.initMsgConn accountId handle now).idleCnt = s.idleCnt ∧
      (s.initMsgConn accountId handle now).reconnectCnt = s.reconnectCnt ∧
      (s.initMsgConn accountId handle now).connectionState = some .connecting := by
  have hafter := afterInit s accountId handle now
  have hrest : (s.initMsgConn accountId handle now).notices =
      s.notices ++ [.stateChanged .connecting] ∧
      (s.initMsgConn accountId handle now).idleCnt = s.idleCnt := by
    rw [ClientState.initMsgConn, ClientState.newConn]
    dsimp only
    rw [ClientState.connect, Assoc.find_set_self]
    dsimp only
    split
    · exact ⟨rfl, rfl⟩
    · exact ⟨rfl, rfl⟩
  exact ⟨seen_eq hrest.1, hrest.2, hafter.reconnectCnt, hafter.connectionState⟩

theorem change_initMsgConn (s : ClientState) (accountId : UInt32) (handle : Int) (now : UInt64) :
    Change s (s.initMsgConn accountId handle now) := by
  obtain ⟨hseen, hidle, hcnt, hstate⟩ := initMsgConn_spec s accountId handle now
  exact .connect hseen hidle hcnt hstate

theorem change_onHandle {f : ClientState → ClientConnRef → ClientState} {handle : Int}
    (hf : ∀ c, Change s (f s c)) : Change s (s.onHandle handle f) := by
  rw [ClientState.onHandle]
  cases s.msgConnMap.find handle with
  | none => exact .refl s
  | some c => exact hf c

/-- The loop of the timer is entered in the connected state, and sends nothing. -/
theorem change_onTimer (hstate : s.connectionState = some .connected) (c : ClientConnRef)
    (curTime : UInt64) : Change s (s.onTimer c curTime) := by
  rcases onTimer_cases hstate c curTime with heq | heq
  · rw [heq]
    exact .refl s
  · rw [heq]
    exact change_close s c

theorem change_timed (h : timed n s curTime = some s') : Change s s' := by
  have hcount : ∀ s', Change s.countTimer s' → Change s s' := fun s' hc =>
    hc.of_eq rfl rfl rfl rfl
  apply hcount
  rw [timed] at h
  split at h
  · rename_i hstate
    rcases timerLoop_cases h with rfl | ⟨c, -, rfl⟩
    · exact .refl _
    · exact change_onTimer hstate c curTime
  · cases h
    exact .refl _

/-- The timer may close a connection that takes too long, and does nothing else. -/
theorem giveUp_cases (h : s.giveUp n = some s') :
    Change s s' ∧ (seen s s' = [] ∨ seen s s' = [.close s.idleCnt s.reconnectCnt]) := by
  rw [ClientState.giveUp] at h
  split at h
  · have hzero : ∀ s', Change { s with connectingCnt := 0 } s' → Change s s' := fun s' hc =>
      hc.of_eq rfl rfl rfl rfl
    rcases closeMsgConn_cases h with rfl | ⟨c, -, rfl⟩
    · exact ⟨hzero _ (.refl _), .inl (seen_of_eq rfl)⟩
    · refine ⟨hzero _ (change_close _ c), ?_⟩
      rcases close_cases { s with connectingCnt := 0 } c with hsame | ⟨hseen, -⟩
      · rw [hsame]
        exact .inl (seen_of_eq rfl)
      · exact .inr hseen
  · cases h
    exact ⟨.refl s, .inl (seen_of_eq rfl)⟩

/-- The events that are one part each. -/
theorem change_clientStep {e : ClientEvent} (he : ∀ curTime handle, e ≠ .tick curTime handle)
    (h : clientStep n s e = some s') : Change s s' := by
  cases e with
  | initMsgConn accountId handle now =>
    cases h
    exact change_initMsgConn s accountId handle now
  | confirm handle =>
    cases h
    exact change_onHandle (change_onConfirm s)
  | closed handle =>
    cases h
    exact change_onHandle (change_close s)
  | received handle now =>
    cases h
    exact change_onHandle fun c => change_onRead s c now
  | setCurrentAccountId accountId =>
    cases h
    exact .same (seen_of_eq rfl) rfl rfl rfl
  | tick curTime handle => exact absurd rfl (he curTime handle)
  | reorder m =>
    cases h
    exact .same (seen_of_eq rfl) rfl rfl rfl

end

/-! ## The schedule -/

section

variable {s s' : ClientState} {log : List Move} {n : Nat} {curTime : UInt64} {handle : Int}

/-- `idle_cnt` has counted the ticks since the last `Close`, and not past `bound reconnect_cnt`. -/
structure OnSchedule (bound : Nat → Nat) (s : ClientState) (log : List Move) : Prop where
  inTime : Justified InTime log
  cnt : s.reconnectCnt.toNat = waitAfter (closes log)
  idle : 0 < closes log → s.idleCnt.toNat = waited log
  early : 0 < closes log → s.connectionState = some .closed →
    waited log < bound s.reconnectCnt.toNat

theorem onSchedule_start : OnSchedule id .start [] := by
  refine ⟨justified_nil, rfl, fun h => ?_, fun h => ?_⟩
  · cases h
  · cases h

/-- **One part of the code.** -/
theorem OnSchedule.change {bound : Nat → Nat} (hbound : ∀ k, k ≤ bound k)
    (h : OnSchedule bound s log) (hchange : Change s s') (hrested : ∀ m ∈ seen s s', Rested m) :
    OnSchedule bound s' (log ++ seen s s') := by
  cases hchange with
  | same hseen hidle hcnt hstate =>
    rw [hseen, List.append_nil]
    refine ⟨h.inTime, hcnt ▸ h.cnt, fun hpos => hidle ▸ h.idle hpos, ?_⟩
    rw [hstate, hcnt]
    exact h.early
  | connect hseen hidle hcnt hstate =>
    rw [hseen, List.append_nil]
    refine ⟨h.inTime, hcnt ▸ h.cnt, fun hpos => hidle ▸ h.idle hpos, ?_⟩
    intro _ hclosed
    rw [hstate] at hclosed
    cases hclosed
  | close hseen hidle hcnt =>
    rw [hseen] at hrested ⊢
    have hzero : s'.idleCnt = 0 := hidle (hrested _ List.mem_cons_self)
    have hnext : s'.reconnectCnt.toNat = waitAfter (closes log + 1) := by
      have hsame : s.reconnectCnt = UInt32.ofNat (waitAfter (closes log)) := by
        rw [← h.cnt, UInt32.ofNat_toNat]
      rw [hcnt, hsame, waitAfter_succ]
    refine ⟨h.inTime.concat trivial, ?_, fun _ => ?_, fun _ _ => ?_⟩
    · rw [hnext, closes_concat]
    · rw [hzero, waited_concat]
      rfl
    · rw [waited_concat, hnext]
      exact Nat.lt_of_lt_of_le (waitAfter_pos (Nat.succ_pos _)) (hbound _)
  | confirm hseen hcnt =>
    rw [hseen]
    have hnone : ¬ 0 < closes (log ++ [Move.confirm]) := by simp
    refine ⟨h.inTime.concat trivial, ?_, fun hpos => absurd hpos hnone,
      fun hpos => absurd hpos hnone⟩
    rw [hcnt, closes_concat]
    rfl

theorem OnSchedule.reconnectCnt_le {bound : Nat → Nat} (h : OnSchedule bound s log) :
    s.reconnectCnt.toNat ≤ 32 := h.cnt ▸ waitAfter_le _

theorem counted (s : ClientState) :
    s.countIdle.countConnecting.idleCnt =
        (if s.connectionState = some .closed then s.idleCnt + 1 else s.idleCnt) ∧
      s.countIdle.countConnecting.reconnectCnt = s.reconnectCnt ∧
      s.countIdle.countConnecting.connectionState = s.connectionState := by
  simp only [ClientState.countConnecting, ClientState.countIdle]
  split
  · split
    · exact ⟨rfl, rfl, rfl⟩
    · exact ⟨rfl, rfl, rfl⟩
  · split
    · exact ⟨rfl, rfl, rfl⟩
    · exact ⟨rfl, rfl, rfl⟩

/-- The counters of the timer. -/
theorem OnSchedule.count (h : OnSchedule id s log) :
    OnSchedule (· + 1) (if s.reconnectCnt > 0 then s.countIdle.countConnecting else s)
      (log ++ if s.connectionState = some .closed then [.closedTick] else []) := by
  obtain ⟨hidle, hcnt, hstate⟩ := counted s
  -- it counts whenever there is something to count to
  have hcounts : 0 < closes log → s.reconnectCnt > 0 := by
    intro hpos
    rw [gt_iff_lt, UInt32.lt_iff_toNat_lt, h.cnt]
    exact waitAfter_pos hpos
  have hcnt' : (if s.reconnectCnt > 0 then s.countIdle.countConnecting else s).reconnectCnt =
      s.reconnectCnt := by
    split
    · exact hcnt
    · rfl
  by_cases hclosed : s.connectionState = some .closed
  · rw [if_pos hclosed]
    have hcloses : closes (log ++ [Move.closedTick]) = closes log := closes_concat _ _
    have hwaited : waited (log ++ [Move.closedTick]) = waited log + 1 := waited_concat _ _
    refine ⟨h.inTime.concat trivial, ?_, ?_, ?_⟩
    · rw [hcnt', hcloses]
      exact h.cnt
    · intro hpos
      rw [hcloses] at hpos
      have hlt : waited log < s.reconnectCnt.toNat := h.early hpos hclosed
      have hle := h.reconnectCnt_le
      rw [if_pos (hcounts hpos), hidle, if_pos hclosed, hwaited, UInt32.toNat_add, h.idle hpos]
      exact Nat.mod_eq_of_lt (by change waited log + 1 < 2 ^ 32; omega)
    · intro hpos _
      rw [hcloses] at hpos
      rw [hcnt', hwaited]
      exact Nat.succ_lt_succ (h.early hpos hclosed)
  · rw [if_neg hclosed, List.append_nil]
    refine ⟨h.inTime, by rw [hcnt', h.cnt], ?_, ?_⟩
    · intro hpos
      rw [if_pos (hcounts hpos), hidle, if_neg hclosed]
      exact h.idle hpos
    · intro hpos hclosed'
      rw [if_pos (hcounts hpos), hstate] at hclosed'
      exact absurd hclosed' hclosed

/-- The last `if` of the timer. -/
theorem OnSchedule.reconnect (h : OnSchedule (· + 1) s log) (hpos : 0 < closes log) :
    OnSchedule id (s.reconnect handle curTime)
      (log ++ if s.idleCnt ≥ s.reconnectCnt ∧ s.connectionState = some .closed then
        [.attempt s.reconnectCnt] else []) := by
  rw [ClientState.reconnect]
  by_cases hdue : s.idleCnt ≥ s.reconnectCnt ∧ s.connectionState = some .closed
  · rw [if_pos hdue, if_pos hdue]
    have hle : s.reconnectCnt.toNat ≤ s.idleCnt.toNat := UInt32.le_iff_toNat_le.mp hdue.1
    have hlt := h.early hpos hdue.2
    have hidle := h.idle hpos
    have hintime : InTime log (.attempt s.reconnectCnt) := ⟨hpos, by omega⟩
    obtain ⟨-, hidle', hcnt, hstate⟩ := initMsgConn_spec s s.currentAccountId handle curTime
    refine ⟨h.inTime.concat hintime, ?_, ?_, ?_⟩
    · rw [hcnt, closes_concat]
      exact h.cnt
    · rw [hidle', closes_concat, waited_concat]
      exact h.idle
    · intro _ hclosed
      rw [hstate] at hclosed
      cases hclosed
  · rw [if_neg hdue, if_neg hdue, List.append_nil]
    refine ⟨h.inTime, h.cnt, h.idle, ?_⟩
    intro _ hclosed
    have hnot : ¬ s.reconnectCnt.toNat ≤ s.idleCnt.toNat := fun hle =>
      hdue ⟨UInt32.le_iff_toNat_le.mpr hle, hclosed⟩
    have hidle := h.idle hpos
    change waited log < s.reconnectCnt.toNat
    omega

/-- The end of the timer. -/
theorem OnSchedule.late (h : OnSchedule (· + 1) s log) (hcnt : 0 < s.reconnectCnt)
    (hgive : s.giveUp n = some s') (hrested : ∀ m ∈ lateMoves n s, Rested m) :
    OnSchedule id (s'.reconnect handle curTime) (log ++ lateMoves n s) := by
  obtain ⟨hchange, hseen⟩ := giveUp_cases hgive
  simp only [lateMoves, hgive] at hrested ⊢
  have hpos : 0 < closes log := by
    by_contra hzero
    have hcnt' : 0 < s.reconnectCnt.toNat := UInt32.lt_iff_toNat_lt.mp hcnt
    rw [h.cnt, Nat.eq_zero_of_not_pos hzero] at hcnt'
    cases hcnt'
  have hpos' : 0 < closes (log ++ seen s s') := by
    rcases hseen with hseen | hseen
    · rw [hseen, List.append_nil]
      exact hpos
    · rw [hseen, closes_concat]
      exact Nat.succ_pos _
  have hnext := h.change (fun k => Nat.le_succ k) hchange fun m hm =>
    hrested m (List.mem_append_left _ hm)
  rw [← List.append_assoc]
  exact hnext.reconnect hpos'

/-- **The timer.** -/
theorem OnSchedule.tick (h : OnSchedule id s log)
    (htick : s.msgConnTimerCallback n curTime handle = some s')
    (hrested : ∀ m ∈ tickMoves n s curTime, Rested m) :
    OnSchedule id s' (log ++ tickMoves n s curTime) := by
  rw [tick_parts] at htick
  obtain ⟨s₁, htimed, hrest⟩ := Option.bind_eq_some_iff.mp htick
  simp only [tickMoves, htimed] at hrested ⊢
  have h₁ := h.change (fun k => Nat.le_refl k) (change_timed htimed) fun m hm =>
    hrested m (List.mem_append_left _ hm)
  have hcount := h₁.count
  rw [← List.append_assoc, ← List.append_assoc]
  by_cases hcnt : s₁.reconnectCnt > 0
  · rw [if_pos hcnt] at hrest hcount hrested ⊢
    obtain ⟨s₂, hgive, rfl⟩ := Option.map_eq_some_iff.mp hrest
    refine hcount.late ?_ hgive fun m hm => hrested m ?_
    · rw [(counted s₁).2.1]
      exact hcnt
    · exact List.mem_append_right _ (List.mem_append_right _ hm)
  · rw [if_neg hcnt] at hrest hcount ⊢
    have heq : s₁ = s' := Option.some.inj hrest
    rw [List.append_nil, ← heq]
    -- nothing is waited for
    have hnone : ¬ 0 < closes (log ++ seen s s₁ ++
        if s₁.connectionState = some .closed then [.closedTick] else []) := by
      intro hpos
      have hlt := waitAfter_pos hpos
      rw [← hcount.cnt] at hlt
      exact hcnt (UInt32.lt_iff_toNat_lt.mpr hlt)
    exact ⟨hcount.inTime, hcount.cnt, fun hpos => absurd hpos hnone, fun hpos => absurd hpos hnone⟩

theorem OnSchedule.step {e : ClientEvent} (h : OnSchedule id s log)
    (hstep : clientStep n s e = some s') (hrested : ∀ m ∈ moves n s e, Rested m) :
    OnSchedule id s' (log ++ moves n s e) := by
  have hpart : (∀ curTime handle, e ≠ .tick curTime handle) →
      moves n s e = (clientStep n s e).elim [] (seen s) →
        OnSchedule id s' (log ++ moves n s e) := by
    intro he heq
    rw [hstep, Option.elim_some] at heq
    rw [heq] at hrested ⊢
    exact h.change (fun k => Nat.le_refl k) (change_clientStep he hstep) hrested
  cases e with
  | tick curTime handle => exact h.tick hstep hrested
  | initMsgConn accountId handle now => exact hpart (fun _ _ => ClientEvent.noConfusion) rfl
  | confirm handle => exact hpart (fun _ _ => ClientEvent.noConfusion) rfl
  | closed handle => exact hpart (fun _ _ => ClientEvent.noConfusion) rfl
  | received handle now => exact hpart (fun _ _ => ClientEvent.noConfusion) rfl
  | setCurrentAccountId accountId => exact hpart (fun _ _ => ClientEvent.noConfusion) rfl
  | reorder m => exact hpart (fun _ _ => ClientEvent.noConfusion) rfl

end

/-! ## Every run -/

theorem onSchedule_run (n : Nat) (es : List ClientEvent) (w : Logged)
    (hrun : es.foldl (logStep n) (some .start) = some w) (hrested : ∀ m ∈ w.log, Rested m) :
    OnSchedule id w.client w.log := by
  induction es using List.reverseRecOn generalizing w with
  | nil =>
    cases hrun
    exact onSchedule_start
  | append_singleton es e ih =>
    rw [List.foldl_append] at hrun
    obtain ⟨w₀, hrun₀, hlast⟩ := Option.bind_eq_some_iff.mp hrun
    obtain ⟨s, hstep, rfl⟩ := Option.map_eq_some_iff.mp hlast
    have h₀ := ih w₀ hrun₀ fun m hm => hrested m (List.mem_append_left _ hm)
    exact h₀.step hstep fun m hm => hrested m (List.mem_append_right _ hm)

/-- In a run in which every `Close` finds `idle_cnt` cleared, or starts over, the timer connects
    again just when `Close` has announced it. -/
theorem onTime_of_rested (n : Nat) (es : List ClientEvent) (w : Logged)
    (hrun : es.foldl (logStep n) (some .start) = some w) (hrested : ∀ m ∈ w.log, Rested m) :
    OnTime w := by
  have h := onSchedule_run n es w hrun hrested
  exact ⟨h.inTime, h.cnt⟩

/-- The first connection fails, and the timer makes the next. -/
def failsOnce : List ClientEvent :=
  [.setCurrentAccountId 1, .initMsgConn 1 5 0, .closed 5, .tick 1000 6]

/-- That one fails too. `idle_cnt` is one already, and goes on to two at the next tick. -/
def failsTwice : List ClientEvent := failsOnce ++ [.closed 6, .tick 2000 7]

theorem onTime_failsOnce : ∃ w, failsOnce.foldl (logStep 1) (some .start) = some w ∧
    .attempt 1 ∈ w.log ∧ OnTime w := by
  refine ⟨_, rfl, ?_, onTime_of_rested 1 failsOnce _ rfl ?_⟩
  · decide
  · decide

theorem not_onTime_failsTwice : ∃ w, failsTwice.foldl (logStep 1) (some .start) = some w ∧
    ¬ OnTime w := by
  refine ⟨_, rfl, ?_⟩
  intro h
  have hlast := h.inTime [.close 0 0, .closedTick, .attempt 1, .close 1 1, .closedTick]
    (.attempt 2) [] rfl
  cases hlast.2

end Backoff

end Net
end Proof
end PtpCore
