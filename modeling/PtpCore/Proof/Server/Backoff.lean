import PtpCore.Proof.Server.ServInfo
import Mathlib.Algebra.Group.Nat.Defs

/-!
# How long a slot waits

`serv_init` and `OnConfirm` set `reconnect_cnt` to half of its minimum, so that the first `Close`
makes it the minimum; each further one doubles it, and starts over after the maximum. An empty slot
counts the calls of `serv_check_reconnect`, and nothing else touches it. So after `k` closes in a
row the next attempt is made at a call whose number is known (`backoff`).

The timer closes connections before it calls `serv_check_reconnect`. Here each of these calls is a
step of its own (`exists_calls`).
-/

namespace PtpCore
namespace Proof
namespace Server

open Lib
open PtpCore.Server.ServInfo

namespace ServInfo

/-! ## Calls -/

inductive ServCall
  | servInit (serverList : List Slot) (handles : Nat → Int) (now : UInt64)
  | checkReconnect (handles : Nat → Int) (now : UInt64)
  /-- `OnTimer`, as the loop in the timer calls it. -/
  | onTimer (handle : Int) (curTime : UInt64)
  | onConfirm (handle : Int)
  | onClose (handle : Int)
  | onRead (handle : Int) (now : UInt64)

def callStep (s : BusinessConns) : ServCall → BusinessConns
  | .servInit serverList handles now => s.servInit serverList handles now
  | .checkReconnect handles now => s.servCheckReconnect handles now
  | .onTimer handle curTime => s.onHandle handle (.onTimer curTime)
  | .onConfirm handle => s.onHandle handle .onConfirm
  | .onClose handle => s.onHandle handle .close
  | .onRead handle now => s.onHandle handle fun s c => s.onRead c now

/-- The calls that an event is made of. -/
def calls (s : BusinessConns) : ConnEvent → List ServCall
  | .init serverList handles now => [.servInit serverList handles now]
  | .tick curTime handles =>
    (s.connMap.map fun p => .onTimer p.1 curTime) ++ [.checkReconnect handles curTime]
  | .confirm handle => [.onConfirm handle]
  | .closed handle => [.onClose handle]
  | .received handle now => [.onRead handle now]

theorem foldl_calls (s : BusinessConns) (e : ConnEvent) :
    (calls s e).foldl callStep s = connStep s e := by
  cases e with
  | tick curTime handles =>
    rw [calls, List.foldl_append, List.foldl_map]
    change BusinessConns.servCheckReconnect _ handles curTime =
      (s.timeouts curTime).servCheckReconnect handles curTime
    rw [BusinessConns.timeouts, List.foldl_map]
    rfl
  | init serverList handles now => rfl
  | confirm handle => rfl
  | closed handle => rfl
  | received handle now => rfl

/-- `serv_init` comes first, and a descriptor is new when it is given. -/
def CallFeasible (s : BusinessConns) : ServCall → Prop
  | .servInit serverList handles _ => s = .start ∧ Free s handles (List.range serverList.length)
  | .checkReconnect handles _ => Free s handles (List.range s.serverList.length)
  | _ => True

theorem callFeasible_calls {s : BusinessConns} {e : ConnEvent} (h : Feasible s e) :
    EachStep callStep CallFeasible s (calls s e) := by
  cases e with
  | init serverList handles now => exact ⟨h, trivial⟩
  | tick curTime handles =>
    have htimers : ∀ t : BusinessConns, ∀ m : Assoc Int ConnRef,
        EachStep callStep CallFeasible t (m.map fun p => .onTimer p.1 curTime) := by
      intro t m
      induction m generalizing t with
      | nil => trivial
      | cons p m ih => exact ⟨trivial, ih _⟩
    rw [calls, eachStep_append]
    refine ⟨htimers s s.connMap, ?_, trivial⟩
    rw [List.foldl_map]
    rw [Feasible, BusinessConns.timeouts, List.foldl_map] at h
    exact h
  | confirm handle => exact ⟨trivial, trivial⟩
  | closed handle => exact ⟨trivial, trivial⟩
  | received handle now => exact ⟨trivial, trivial⟩

/-- A run of events is a run of calls. -/
theorem exists_calls {s : BusinessConns} {es : List ConnEvent}
    (h : EachStep connStep Feasible s es) :
    ∃ cs, cs.foldl callStep s = es.foldl connStep s ∧ EachStep callStep CallFeasible s cs := by
  induction es generalizing s with
  | nil => exact ⟨[], rfl, trivial⟩
  | cons e es ih =>
    obtain ⟨cs, hcs, hfeasible⟩ := ih h.2
    refine ⟨calls s e ++ cs, ?_, ?_⟩
    · rw [List.foldl_append, foldl_calls, hcs, List.foldl_cons]
    · rw [eachStep_append, foldl_calls]
      exact ⟨callFeasible_calls h.1, hfeasible⟩

/-- How often `serv_check_reconnect` is called. -/
def checks : List ServCall → Nat
  | [] => 0
  | .checkReconnect _ _ :: cs => checks cs + 1
  | _ :: cs => checks cs

theorem checks_cons (call : ServCall) (cs : List ServCall) :
    checks (call :: cs) = checks [call] + checks cs := by
  cases call with
  | checkReconnect handles now => exact Nat.add_comm _ _
  | servInit serverList handles now => exact (Nat.zero_add _).symm
  | onTimer handle curTime => exact (Nat.zero_add _).symm
  | onConfirm handle => exact (Nat.zero_add _).symm
  | onClose handle => exact (Nat.zero_add _).symm
  | onRead handle now => exact (Nat.zero_add _).symm

/-! ## Closes in a row -/

/-- The connection with this descriptor. -/
def connOf (s : BusinessConns) (handle : Int) : Option CBusinessClientConn :=
  (s.connMap.find handle).bind s.conns.find

/-- The slot whose connection is closed by a call. -/
def closesSlot (s : BusinessConns) : ServCall → Option Nat
  | .onClose handle => (connOf s handle).map (·.servIdx)
  | .onTimer handle curTime =>
    ((connOf s handle).filter fun conn =>
      conn.isOpen ∧ curTime > conn.lastRecvTick + serverTimeout).map (·.servIdx)
  | _ => none

def confirmsSlot (s : BusinessConns) : ServCall → Option Nat
  | .onConfirm handle => (connOf s handle).map (·.servIdx)
  | _ => none

/-- The slots, and for each how often it was closed since it was confirmed. -/
structure Traced where
  conns : BusinessConns
  closes : Nat → Nat

def Traced.start : Traced := ⟨.start, fun _ => 0⟩

def Traced.step (t : Traced) (call : ServCall) : Traced where
  conns := callStep t.conns call
  closes i :=
    if closesSlot t.conns call = some i then t.closes i + 1
    else if confirmsSlot t.conns call = some i then 0
    else t.closes i

/-- `reconnect_cnt` after `k` closes in a row: 2, and then 4, 8, 16, 32, 64, 4, 8, … -/
def waitAfter (k : Nat) : Nat := if k = 0 then 2 else 4 * 2 ^ ((k - 1) % 5)

/-- What `serv_reset` makes of it. -/
theorem waitAfter_succ (k : Nat) :
    (if UInt32.ofNat (waitAfter k) * 2 > maxReconnectCnt then minReconnectCnt
      else UInt32.ofNat (waitAfter k) * 2) = UInt32.ofNat (waitAfter (k + 1)) := by
  have hall : ∀ m, m < 5 →
      (if UInt32.ofNat (4 * 2 ^ m) * 2 > maxReconnectCnt then minReconnectCnt
        else UInt32.ofNat (4 * 2 ^ m) * 2) = UInt32.ofNat (4 * 2 ^ ((m + 1) % 5)) := by
    decide
  cases k with
  | zero => decide
  | succ k =>
    have hmod : (k + 1) % 5 = (k % 5 + 1) % 5 := by omega
    simp only [waitAfter, Nat.add_sub_cancel, Nat.succ_ne_zero, if_false]
    rw [hall _ (Nat.mod_lt k (by decide)), ← hmod]

/-! ## One call -/

section

variable {s : BusinessConns} {call : ServCall}

/-- What a call does that is neither `serv_init` nor `serv_check_reconnect`. -/
inductive Callback (s : BusinessConns) (call : ServCall) : Prop
  | close (handle : Int) (c : ConnRef) (conn : CBusinessClientConn)
      (hfind : s.connMap.find handle = some c) (hconn : s.conns.find c = some conn)
      (hstep : callStep s call = s.close c) (hcloses : closesSlot s call = some conn.servIdx)
      (hconfirms : confirmsSlot s call = none)
  | confirm (handle : Int) (c : ConnRef) (conn : CBusinessClientConn)
      (hfind : s.connMap.find handle = some c) (hconn : s.conns.find c = some conn)
      (hstep : callStep s call = s.onConfirm c) (hcloses : closesSlot s call = none)
      (hconfirms : confirmsSlot s call = some conn.servIdx)
  | other (hkeeps : Keeps s (callStep s call))
      (hslots : (callStep s call).serverList = s.serverList) (hcloses : closesSlot s call = none)
      (hconfirms : confirmsSlot s call = none)

theorem connOf_eq {handle : Int} {c : ConnRef} (hfind : s.connMap.find handle = some c) :
    connOf s handle = s.conns.find c := by
  rw [connOf, hfind, Option.bind_some]

/-- Nobody has this descriptor. -/
theorem callback_none {handle : Int} {f : BusinessConns → ConnRef → BusinessConns}
    (hfind : s.connMap.find handle = none) (hstep : callStep s call = s.onHandle handle f)
    (hcloses : connOf s handle = none → closesSlot s call = none)
    (hconfirms : connOf s handle = none → confirmsSlot s call = none) : Callback s call := by
  have hnone : connOf s handle = none := by rw [connOf, hfind, Option.bind_none]
  have hsame : callStep s call = s := by rw [hstep, BusinessConns.onHandle, hfind]
  exact .other (hsame.symm ▸ .refl s) (by rw [hsame]) (hcloses hnone) (hconfirms hnone)

theorem call_cases (h : Wired s) (call : ServCall) :
    (∃ serverList handles now, call = .servInit serverList handles now) ∨
      (∃ handles now, call = .checkReconnect handles now) ∨
      Callback s call ∧ checks [call] = 0 := by
  have hhandle : ∀ (handle : Int) (c : ConnRef) (f : BusinessConns → ConnRef → BusinessConns),
      s.connMap.find handle = some c → s.onHandle handle f = f s c := by
    intro handle c f hfind
    rw [BusinessConns.onHandle, hfind]
  cases call with
  | servInit serverList handles now => exact .inl ⟨serverList, handles, now, rfl⟩
  | checkReconnect handles now => exact .inr (.inl ⟨handles, now, rfl⟩)
  | onTimer handle curTime =>
    refine .inr (.inr ⟨?_, rfl⟩)
    cases hfind : s.connMap.find handle with
    | none => exact callback_none hfind rfl (fun hnone => by simp [closesSlot, hnone]) fun _ => rfl
    | some c =>
      obtain ⟨-, conn, hconn, -⟩ := h.registered handle c hfind
      have hstep : callStep s (.onTimer handle curTime) =
          if conn.isOpen ∧ curTime > conn.lastRecvTick + serverTimeout then s.close c else s := by
        rw [callStep, hhandle handle c _ hfind, BusinessConns.onTimer, hconn]
      have hcloses : closesSlot s (.onTimer handle curTime) = ((some conn).filter fun conn =>
          conn.isOpen ∧ curTime > conn.lastRecvTick + serverTimeout).map (·.servIdx) := by
        rw [closesSlot, connOf_eq hfind, hconn]
      by_cases hdead : conn.isOpen ∧ curTime > conn.lastRecvTick + serverTimeout
      · rw [if_pos hdead] at hstep
        rw [Option.filter_some, if_pos (by simpa using hdead)] at hcloses
        exact .close handle c conn hfind hconn hstep hcloses rfl
      · rw [if_neg hdead] at hstep
        rw [Option.filter_some, if_neg (by simpa using hdead)] at hcloses
        exact .other (hstep.symm ▸ .refl s) (by rw [hstep]) hcloses rfl
  | onConfirm handle =>
    refine .inr (.inr ⟨?_, rfl⟩)
    cases hfind : s.connMap.find handle with
    | none =>
      exact callback_none hfind rfl (fun _ => rfl) fun hnone => by simp [confirmsSlot, hnone]
    | some c =>
      obtain ⟨-, conn, hconn, -⟩ := h.registered handle c hfind
      refine .confirm handle c conn hfind hconn (hhandle handle c _ hfind) rfl ?_
      rw [confirmsSlot, connOf_eq hfind, hconn, Option.map_some]
  | onClose handle =>
    refine .inr (.inr ⟨?_, rfl⟩)
    cases hfind : s.connMap.find handle with
    | none => exact callback_none hfind rfl (fun hnone => by simp [closesSlot, hnone]) fun _ => rfl
    | some c =>
      obtain ⟨-, conn, hconn, -⟩ := h.registered handle c hfind
      refine .close handle c conn hfind hconn (hhandle handle c _ hfind) ?_ rfl
      rw [closesSlot, connOf_eq hfind, hconn, Option.map_some]
  | onRead handle now =>
    refine .inr (.inr ⟨?_, rfl⟩)
    cases hfind : s.connMap.find handle with
    | none =>
      exact callback_none (f := fun s c => s.onRead c now) hfind rfl (fun _ => rfl) fun _ => rfl
    | some c =>
      obtain ⟨-, conn, hconn, -⟩ := h.registered handle c hfind
      have hstep : callStep s (.onRead handle now) = s.onRead c now :=
        hhandle handle c (fun s c => s.onRead c now) hfind
      refine .other (hstep.symm ▸ keeps_onRead hconn now) ?_ rfl rfl
      rw [hstep, BusinessConns.onRead, hconn]

theorem Callback.keeps (h : Callback s call) : Keeps s (callStep s call) := by
  cases h with
  | close handle c conn hfind hconn hstep => exact hstep ▸ keeps_close hfind hconn
  | confirm handle c conn hfind hconn hstep => exact hstep ▸ keeps_onConfirm hfind hconn
  | other hkeeps => exact hkeeps

end

/-! ## The waiting time of every slot -/

/-- `reconnect_cnt` is known from the closes. -/
structure Scheduled (t : Traced) : Prop where
  sound : Sound t.conns
  cnt : ∀ (i : Nat) (slot : Slot), t.conns.serverList[i]? = some slot →
    slot.reconnectCnt = UInt32.ofNat (waitAfter (t.closes i))
  unused : ∀ i, t.conns.serverList[i]? = none → t.closes i = 0

theorem scheduled_start : Scheduled .start := by
  refine ⟨sound_start, ?_, fun _ _ => rfl⟩
  intro i slot hslot
  cases hslot

/-- The waiting times are not changed by `serv_check_reconnect`. -/
theorem reconnectCnt_checkSlots {handles : Nat → Int} {now : UInt64} {is : List Nat}
    {s : BusinessConns} {i : Nat} {slot : Slot}
    (hslot : (is.foldl (BusinessConns.checkSlot handles now) s).serverList[i]? = some slot) :
    ∃ slot', s.serverList[i]? = some slot' ∧ slot'.reconnectCnt = slot.reconnectCnt := by
  induction is generalizing s with
  | nil => exact ⟨slot, hslot, rfl⟩
  | cons j is ih =>
    obtain ⟨slot₁, hslot₁, hcnt₁⟩ := ih hslot
    rcases checkSlot_cases handles now s j with ⟨heq, -⟩ | ⟨slot', -, -, -, heq⟩ | ⟨-, heq⟩
    · rw [heq] at hslot₁
      exact ⟨slot₁, hslot₁, hcnt₁⟩
    · rw [heq] at hslot₁
      obtain ⟨slot₂, hslot₂, rfl⟩ := updateSlot_cases hslot₁
      refine ⟨slot₂, hslot₂, ?_⟩
      rw [← hcnt₁]
      split <;> rfl
    · rw [heq] at hslot₁
      obtain ⟨slot₂, hslot₂, rfl⟩ := updateSlot_cases hslot₁
      obtain ⟨slot₃, hslot₃, rfl⟩ := updateSlot_cases hslot₂
      refine ⟨slot₃, hslot₃, ?_⟩
      rw [← hcnt₁]
      split <;> rfl

theorem length_checkSlots (handles : Nat → Int) (now : UInt64) (is : List Nat)
    (s : BusinessConns) : (is.foldl (BusinessConns.checkSlot handles now) s).serverList.length =
      s.serverList.length := by
  induction is generalizing s with
  | nil => rfl
  | cons j is ih =>
    refine (ih _).trans ?_
    rcases checkSlot_cases handles now s j with ⟨heq, -⟩ | ⟨slot, -, -, -, heq⟩ | ⟨-, heq⟩
    · rw [heq]
    · rw [heq, length_updateSlot]
    · rw [heq]
      exact (length_updateSlot _).trans (length_updateSlot _)

theorem checkReconnect_keeps {t : Traced} {handles : Nat → Int} {now : UInt64} (h : Scheduled t)
    (hfree : Free t.conns handles (List.range t.conns.serverList.length)) :
    Scheduled (t.step (.checkReconnect handles now)) := by
  refine ⟨(checkSlots_spec now List.nodup_range h.sound hfree).1, ?_, ?_⟩
  · intro i slot hslot
    obtain ⟨slot', hslot', hcnt⟩ := reconnectCnt_checkSlots hslot
    exact hcnt ▸ h.cnt i slot' hslot'
  · intro i hnone
    refine h.unused i ?_
    rw [List.getElem?_eq_none_iff] at hnone ⊢
    rw [← length_checkSlots handles now (List.range t.conns.serverList.length) t.conns]
    exact hnone

theorem servInit_keeps {t : Traced} {serverList : List Slot} {handles : Nat → Int} {now : UInt64}
    (h : Scheduled t) (hstart : t.conns = .start)
    (hfree : Free t.conns handles (List.range serverList.length)) :
    Scheduled (t.step (.servInit serverList handles now)) := by
  have hzero : ∀ i, t.closes i = 0 := fun i => h.unused i (by rw [hstart]; rfl)
  have hinit : Initialised handles serverList.length serverList.length
      (t.conns.servInit serverList handles now) := by
    rw [hstart]
    apply initialised_servInit
    intro i hi j hj hvalid heq
    exact (hfree i (List.mem_range.mpr hi) hvalid).2 j (List.mem_range.mpr hj) heq
  refine ⟨hinit.sound, ?_, fun i _ => hzero i⟩
  intro i slot hslot
  have hslot : (t.conns.servInit serverList handles now).serverList[i]? = some slot := hslot
  have hi : i < serverList.length := hinit.length ▸ (List.getElem?_eq_some_iff.mp hslot).1
  obtain ⟨slot', c, conn, hslot', hcnt, -⟩ := hinit.slots i hi
  rw [hslot] at hslot'
  cases hslot'
  have hcloses : (t.step (.servInit serverList handles now)).closes i = t.closes i := rfl
  rw [hcloses, hzero, hcnt]
  rfl

theorem callback_keeps {t : Traced} {call : ServCall} (h : Scheduled t)
    (hcall : Callback t.conns call) : Scheduled (t.step call) := by
  have hkeeps := hcall.keeps
  refine ⟨hkeeps.sound h.sound, ?_, ?_⟩
  · intro i slot hslot
    have hslot : (callStep t.conns call).serverList[i]? = some slot := hslot
    cases hcall with
    | close handle c conn hfind hconn hstep hcloses hconfirms =>
      rw [hstep, close_eq hconn] at hslot
      obtain ⟨slot', hslot', rfl⟩ := updateSlot_cases hslot
      have hcnt := h.cnt i slot' hslot'
      by_cases hi : conn.servIdx = i
      · rw [if_pos hi]
        simp only [Traced.step, hcloses, hi, if_true]
        rw [← waitAfter_succ, ← hcnt]
      · rw [if_neg hi]
        simp only [Traced.step, hcloses, hconfirms, Option.some.injEq, hi, if_false]
        simpa using hcnt
    | confirm handle c conn hfind hconn hstep hcloses hconfirms =>
      rw [hstep, BusinessConns.onConfirm, hconn] at hslot
      obtain ⟨slot', hslot', rfl⟩ := updateSlot_cases hslot
      have hcnt := h.cnt i slot' hslot'
      by_cases hi : conn.servIdx = i
      · rw [if_pos hi]
        simp only [Traced.step, hcloses, hconfirms, hi, if_true]
        rfl
      · rw [if_neg hi]
        simp only [Traced.step, hcloses, hconfirms, Option.some.injEq, hi, if_false]
        simpa using hcnt
    | other _ hslots hcloses hconfirms =>
      rw [hslots] at hslot
      simp only [Traced.step, hcloses, hconfirms]
      exact h.cnt i slot hslot
  · intro i hnone
    have hbefore : t.conns.serverList[i]? = none := by
      rw [List.getElem?_eq_none_iff] at hnone ⊢
      exact hkeeps.length ▸ hnone
    have hzero := h.unused i hbefore
    cases hcall with
    | close handle c conn hfind hconn hstep hcloses hconfirms =>
      obtain ⟨-, -, slot, hslot, -⟩ := h.sound.wired.handle_eq hfind hconn
      have hi : conn.servIdx ≠ i := by
        rintro rfl
        rw [hbefore] at hslot
        cases hslot
      simp only [Traced.step, hcloses, hconfirms, Option.some.injEq, hi, if_false]
      simpa using hzero
    | confirm handle c conn hfind hconn hstep hcloses hconfirms =>
      simp [Traced.step, hcloses, hzero]
    | other _ hslots hcloses hconfirms =>
      simp [Traced.step, hcloses, hzero]

def Traced.Feasible (t : Traced) (call : ServCall) : Prop := CallFeasible t.conns call

theorem Scheduled.step {t : Traced} {call : ServCall} (h : Scheduled t) (hcall : t.Feasible call) :
    Scheduled (t.step call) := by
  rcases call_cases h.sound.wired call with
    ⟨serverList, handles, now, rfl⟩ | ⟨handles, now, rfl⟩ | ⟨hback, -⟩
  · exact servInit_keeps h hcall.1 hcall.2
  · exact checkReconnect_keeps h hcall
  · exact callback_keeps h hback

/-! ## Waiting -/

/-- How many attempts were made for a slot. -/
def Traced.tries (t : Traced) (i : Nat) : Nat := t.conns.attempts.count i

/-- The slot is empty and has waited so long. -/
structure Waits (t : Traced) (i waited wait : Nat) : Prop where
  scheduled : Scheduled t
  slot : ∃ slot, t.conns.serverList[i]? = some slot ∧ slot.servConn = none ∧
    slot.idleCnt.toNat = waited ∧ slot.reconnectCnt.toNat = wait

theorem Waits.check {t : Traced} {i waited wait : Nat} {handles : Nat → Int} {now : UInt64}
    (h : Waits t i waited wait) (hcall : t.Feasible (.checkReconnect handles now)) :
    if waited + 1 = wait then
      (t.step (.checkReconnect handles now)).tries i = t.tries i + 1
    else
      Waits (t.step (.checkReconnect handles now)) i (waited + 1) wait ∧
        (t.step (.checkReconnect handles now)).tries i = t.tries i := by
  obtain ⟨slot, hslot, hnull, rfl, rfl⟩ := h.slot
  have hcounts := h.scheduled.sound.counts i slot hslot
  have hidle := toNat_idle hcounts hnull
  have hwaited := UInt32.lt_iff_toNat_lt.mp (hcounts.2 hnull)
  have hi : i ∈ List.range t.conns.serverList.length :=
    List.mem_range.mpr (List.getElem?_eq_some_iff.mp hslot).1
  rcases checkSlots_empty List.nodup_range hi hslot hnull with
    ⟨hcount, hle⟩ | ⟨hcount, hslot', hlt⟩
  · have hle : slot.reconnectCnt.toNat ≤ (idle slot).idleCnt.toNat := UInt32.le_iff_toNat_le.mp hle
    rw [if_pos (by omega)]
    exact hcount
  · have hlt : (idle slot).idleCnt.toNat < slot.reconnectCnt.toNat := UInt32.lt_iff_toNat_lt.mp hlt
    rw [if_neg (by omega)]
    exact ⟨⟨h.scheduled.step hcall, idle slot, hslot', hnull, hidle, rfl⟩, hcount⟩

theorem Waits.callback {t : Traced} {i waited wait : Nat} {call : ServCall}
    (h : Waits t i waited wait) (hcall : Callback t.conns call) :
    Waits (t.step call) i waited wait ∧ (t.step call).tries i = t.tries i := by
  obtain ⟨slot, hslot, hnull, hidle, hcnt⟩ := h.slot
  have hkeeps := hcall.keeps
  exact ⟨⟨callback_keeps h.scheduled hcall, slot,
    hkeeps.empty h.scheduled.sound i slot hslot hnull, hnull, hidle, hcnt⟩,
    congrArg (List.count i) hkeeps.attempts⟩

/-- One call, whatever it is: the slot goes on waiting, unless this call ends its time. -/
theorem Waits.step {t : Traced} {i waited wait : Nat} {call : ServCall} (h : Waits t i waited wait)
    (hcall : t.Feasible call) (hfew : waited + checks [call] < wait) :
    Waits (t.step call) i (waited + checks [call]) wait ∧ (t.step call).tries i = t.tries i := by
  rcases call_cases h.scheduled.sound.wired call with
    ⟨serverList, handles, now, rfl⟩ | ⟨handles, now, rfl⟩ | ⟨hback, hzero⟩
  · -- there is no slot yet
    obtain ⟨slot, hslot, -⟩ := h.slot
    rw [hcall.1] at hslot
    cases hslot
  · have hnext := h.check hcall
    have hone : checks [ServCall.checkReconnect handles now] = 1 := rfl
    rw [hone] at hfew ⊢
    rwa [if_neg (Nat.ne_of_lt hfew)] at hnext
  · rw [hzero]
    exact h.callback hback

theorem Waits.run {t : Traced} {i waited wait : Nat} (h : Waits t i waited wait)
    (cs : List ServCall) (hcs : EachStep Traced.step Traced.Feasible t cs)
    (hfew : waited + checks cs < wait) :
    Waits (cs.foldl Traced.step t) i (waited + checks cs) wait ∧
      (cs.foldl Traced.step t).tries i = t.tries i := by
  induction cs generalizing t waited with
  | nil => exact ⟨h, rfl⟩
  | cons call cs ih =>
    rw [checks_cons, ← Nat.add_assoc] at hfew ⊢
    obtain ⟨hnext, htries⟩ := h.step hcs.1 (Nat.lt_of_le_of_lt (Nat.le_add_right _ _) hfew)
    obtain ⟨hlast, htries'⟩ := ih hnext hcs.2 hfew
    exact ⟨hlast, htries'.trans htries⟩

/-- In a run from `t`, the next attempt for the slot `i` is made by the `n`-th call of
    `serv_check_reconnect`. -/
structure AttemptAt (t : Traced) (i n : Nat) (cs : List ServCall) : Prop where
  before : ∀ pre, pre <+: cs → checks pre < n → (pre.foldl Traced.step t).tries i = t.tries i
  made : ∀ (pre : List ServCall) handles now, pre ++ [.checkReconnect handles now] <+: cs →
    checks pre + 1 = n →
    ((pre ++ [ServCall.checkReconnect handles now]).foldl Traced.step t).tries i = t.tries i + 1

theorem Waits.attemptAt {t : Traced} {i wait : Nat} (h : Waits t i 0 wait) {cs : List ServCall}
    (hcs : EachStep Traced.step Traced.Feasible t cs) : AttemptAt t i wait cs := by
  refine ⟨?_, ?_⟩
  · rintro pre ⟨post, rfl⟩ hfew
    exact (h.run pre (eachStep_append.mp hcs).1 (by omega)).2
  · rintro pre handles now ⟨post, rfl⟩ hlast
    rw [List.append_assoc] at hcs
    obtain ⟨hpre, hcall, -⟩ := eachStep_append.mp hcs
    obtain ⟨hwaits, htries⟩ := h.run pre hpre (by omega)
    have hcheck := hwaits.check hcall
    rw [if_pos (by omega)] at hcheck
    rw [List.foldl_append, ← htries]
    exact hcheck

/-- A close leaves its slot empty. -/
theorem Scheduled.waits_close {t : Traced} {call : ServCall} {i : Nat} (h : Scheduled t)
    (hcall : t.Feasible call) (hcloses : closesSlot t.conns call = some i) :
    Waits (t.step call) i 0 (4 * 2 ^ (((t.step call).closes i - 1) % 5)) := by
  have hnext := h.step hcall
  have hsmall : ∀ m, m < 5 → (UInt32.ofNat (4 * 2 ^ m)).toNat = 4 * 2 ^ m := by decide
  rcases call_cases h.sound.wired call with
    ⟨serverList, handles, now, rfl⟩ | ⟨handles, now, rfl⟩ | ⟨hback, -⟩
  · cases hcloses
  · cases hcloses
  · cases hback with
    | close handle c conn hfind hconn hstep hcloses' hconfirms =>
      rw [hcloses] at hcloses'
      cases hcloses'
      obtain ⟨slot, hslot, hnull⟩ := (h.sound.wired.slots_close hfind hconn).1
      rw [← hstep] at hslot
      have hidle : slot.idleCnt = 0 := by
        rw [hstep, close_eq hconn] at hslot
        obtain ⟨slot', -, rfl⟩ := updateSlot_cases hslot
        rw [if_pos rfl]
      have hcloses : (t.step call).closes conn.servIdx = t.closes conn.servIdx + 1 := if_pos hcloses
      have hcnt := hnext.cnt _ slot hslot
      rw [hcloses] at hcnt ⊢
      refine ⟨hnext, slot, hslot, hnull, congrArg UInt32.toNat hidle, ?_⟩
      rw [hcnt]
      exact hsmall _ (Nat.mod_lt _ (by decide))
    | confirm handle c conn hfind hconn hstep hnone hconfirms =>
      rw [hnone] at hcloses
      cases hcloses
    | other _ hslots hnone hconfirms =>
      rw [hnone] at hcloses
      cases hcloses

/-! ## Every run -/

/-- The waiting times are those of the list, and after `k` closes in a row the next attempt is made
    by the call of `serv_check_reconnect` that the comment in the timer announces. -/
theorem backoff (cs : List ServCall) (hcs : EachStep Traced.step Traced.Feasible .start cs) :
    (∀ (i : Nat) (slot : Slot), (cs.foldl Traced.step .start).conns.serverList[i]? = some slot →
      slot.reconnectCnt ∈ waits) ∧
    ∀ (pre : List ServCall) (call : ServCall) (post : List ServCall) (i : Nat),
      cs = pre ++ call :: post →
      closesSlot (pre.foldl Traced.step .start).conns call = some i →
      AttemptAt ((pre.foldl Traced.step .start).step call) i
        (4 * 2 ^ ((((pre.foldl Traced.step .start).step call).closes i - 1) % 5)) post := by
  have hkeep : ∀ t call, Scheduled t → t.Feasible call → Scheduled (t.step call) :=
    fun t call => Scheduled.step
  constructor
  · intro i slot hslot
    exact ((hcs.invariant Scheduled hkeep scheduled_start).sound.counts i slot hslot).1
  · rintro pre call post i rfl hcloses
    obtain ⟨hpre, hcall, hpost⟩ := eachStep_append.mp hcs
    have h := hpre.invariant Scheduled hkeep scheduled_start
    exact (h.waits_close hcall hcloses).attemptAt hpost

/-- One server: it closes the connection before it was confirmed, and four seconds pass. -/
def closedOnce : List ServCall :=
  [.servInit [blankSlot] (fun _ => 5) 0, .onClose 5] ++
    List.replicate 4 (.checkReconnect (fun _ => 7) 0)

theorem backoff_closedOnce :
    AttemptAt ((([ServCall.servInit [blankSlot] (fun _ => 5) 0]).foldl Traced.step .start).step
      (.onClose 5)) 0 4 (List.replicate 4 (.checkReconnect (fun _ => 7) 0)) := by
  have hfree : ∀ (s : BusinessConns) (handle : Int), s.connMap.find handle = none →
      Free s (fun _ => handle) (List.range 1) := by
    intro s handle hnone i hi _
    refine ⟨hnone, ?_⟩
    intro j hj _
    rw [List.mem_range, Nat.lt_one_iff] at hi hj
    rw [hi, hj]
  have hfeasible : EachStep Traced.step Traced.Feasible .start closedOnce :=
    ⟨⟨rfl, hfree _ 5 rfl⟩, trivial, hfree _ 7 rfl, hfree _ 7 rfl, hfree _ 7 rfl, hfree _ 7 rfl,
      trivial⟩
  exact (backoff closedOnce hfeasible).2 [.servInit [blankSlot] (fun _ => 5) 0] (.onClose 5)
    (List.replicate 4 (.checkReconnect (fun _ => 7) 0)) 0 rfl rfl

end ServInfo

end Server
end Proof
end PtpCore
