import PtpCore.Lib.Run
import PtpCore.Server.ServInfo
import Mathlib.Data.List.Basic

/-!
# Slots for connections

A connection that is registered sits in the slot it was made for, whatever happens (`Wired`). So a
slot is emptied only with its own connection, and one that is empty counts up to its next attempt.
The converse, that the connection of a slot is registered, is lost with the first attempt that fails
at once: the slot is filled all the same, and nothing will ever empty it.
-/

namespace PtpCore
namespace Proof
namespace Server

open Lib
open PtpCore.Server.ServInfo

namespace ServInfo

section

variable {s s' : BusinessConns} {i j : Nat} {c : ConnRef} {conn : CBusinessClientConn} {slot : Slot}
  {handle : Int} {now : UInt64}

/-! ## Slots -/

theorem updateSlot_self (f : Slot → Slot) (h : s.serverList[i]? = some slot) :
    (s.updateSlot i f).serverList[i]? = some (f slot) := by
  rw [BusinessConns.updateSlot, List.getElem?_modify, h]
  simp

theorem updateSlot_of_ne (f : Slot → Slot) (h : i ≠ j) :
    (s.updateSlot i f).serverList[j]? = s.serverList[j]? := by
  rw [BusinessConns.updateSlot, List.getElem?_modify]
  simp [h]

/-- A slot after an update, and what it was before. -/
theorem updateSlot_cases {f : Slot → Slot} (h : (s.updateSlot i f).serverList[j]? = some slot) :
    ∃ slot', s.serverList[j]? = some slot' ∧ slot = if i = j then f slot' else slot' := by
  rw [BusinessConns.updateSlot, List.getElem?_modify] at h
  obtain ⟨slot', hslot', heq⟩ := Option.map_eq_some_iff.mp h
  exact ⟨slot', hslot', heq.symm⟩

@[simp] theorem length_updateSlot (f : Slot → Slot) :
    (s.updateSlot i f).serverList.length = s.serverList.length := by
  rw [BusinessConns.updateSlot]
  exact List.length_modify ..

/-! ## What always holds -/

/-- The connection `c` sits in slot `i`. -/
def Sits (s : BusinessConns) (c : ConnRef) (i : Nat) : Prop :=
  ∃ slot, s.serverList[i]? = some slot ∧ slot.servConn = some c

/-- Registered connections exist, know their descriptor, and sit in their slots. -/
structure Wired (s : BusinessConns) : Prop where
  registered : ∀ handle c, s.connMap.find handle = some c → handle ≠ netlibInvalidHandle ∧
    ∃ conn, s.conns.find c = some conn ∧ conn.handle = handle ∧ Sits s c conn.servIdx
  fresh : ∀ c, s.nextConn ≤ c → s.conns.find c = none

/-- The waiting times that occur. -/
def waits : List UInt32 := [2, 4, 8, 16, 32, 64]

/-- An empty slot has not yet waited for long enough. -/
def SlotCounts (slot : Slot) : Prop :=
  slot.reconnectCnt ∈ waits ∧ (slot.servConn = none → slot.idleCnt < slot.reconnectCnt)

def Counts (s : BusinessConns) : Prop :=
  ∀ (i : Nat) (slot : Slot), s.serverList[i]? = some slot → SlotCounts slot

/-- The connection of every slot is registered. -/
def Filled (s : BusinessConns) : Prop :=
  ∀ (i : Nat) (slot : Slot) (c : ConnRef), s.serverList[i]? = some slot → slot.servConn = some c →
    ∃ conn, s.conns.find c = some conn ∧ conn.servIdx = i ∧ s.connMap.find conn.handle = some c

theorem Wired.lt_nextConn (h : Wired s) (hconn : s.conns.find c = some conn) : c < s.nextConn := by
  by_contra hge
  rw [h.fresh c (Nat.not_lt.mp hge)] at hconn
  cases hconn

/-- An update that leaves the connection of a slot. -/
theorem Wired.updateSlot (h : Wired s) {f : Slot → Slot}
    (hf : ∀ slot, (f slot).servConn = slot.servConn) : Wired (s.updateSlot i f) := by
  refine ⟨?_, h.fresh⟩
  intro handle c hfind
  obtain ⟨hvalid, conn, hconn, hhandle, slot, hslot, hsits⟩ := h.registered handle c hfind
  refine ⟨hvalid, conn, hconn, hhandle, ?_⟩
  by_cases hi : i = conn.servIdx
  · rw [← hi] at hslot ⊢
    exact ⟨f slot, updateSlot_self f hslot, (hf slot).trans hsits⟩
  · exact ⟨slot, (updateSlot_of_ne f hi).trans hslot, hsits⟩

theorem Filled.updateSlot (h : Filled s) {f : Slot → Slot}
    (hf : ∀ slot, (f slot).servConn = slot.servConn) : Filled (s.updateSlot i f) := by
  intro j slot c hslot hc
  obtain ⟨slot', hslot', rfl⟩ := updateSlot_cases hslot
  apply h j slot' c hslot'
  split at hc
  · exact (hf slot').symm.trans hc
  · exact hc

theorem Counts.updateSlot (h : Counts s) {f : Slot → Slot}
    (hf : ∀ slot, s.serverList[i]? = some slot → SlotCounts (f slot)) :
    Counts (s.updateSlot i f) := by
  intro j slot hslot
  obtain ⟨slot', hslot', rfl⟩ := updateSlot_cases hslot
  split
  · rename_i hij
    subst hij
    exact hf slot' hslot'
  · exact h j slot' hslot'

/-! ## Closing -/

/-- The slot after `serv_reset`. -/
theorem slotCounts_reset (h : slot.reconnectCnt ∈ waits) :
    SlotCounts ⟨0, if slot.reconnectCnt * 2 > maxReconnectCnt then minReconnectCnt
      else slot.reconnectCnt * 2, none⟩ := by
  have hall : waits.all (fun cnt => decide
      ((if cnt * 2 > maxReconnectCnt then minReconnectCnt else cnt * 2) ∈ waits ∧
        (0 : UInt32) < if cnt * 2 > maxReconnectCnt then minReconnectCnt else cnt * 2)) = true := by
    decide +kernel
  have hcnt := of_decide_eq_true (List.all_eq_true.mp hall _ h)
  exact ⟨hcnt.1, fun _ => hcnt.2⟩

section

variable (h : Wired s) (hfind : s.connMap.find handle = some c) (hconn : s.conns.find c = some conn)

include hconn in
/-- `s.close c`, field by field. -/
theorem close_eq : s.close c =
    { s.servReset conn.servIdx with
      connMap := if conn.handle ≠ netlibInvalidHandle then s.connMap.erase conn.handle
        else s.connMap
      conns := s.conns.erase c } := by
  rw [BusinessConns.close, hconn]
  rfl

include h hfind hconn in
theorem Wired.handle_eq : conn.handle = handle ∧ handle ≠ netlibInvalidHandle ∧
    Sits s c conn.servIdx := by
  obtain ⟨hvalid, conn', hconn', hhandle, hsits⟩ := h.registered handle c hfind
  rw [hconn] at hconn'
  cases hconn'
  exact ⟨hhandle, hvalid, hsits⟩

include h hfind hconn in
theorem Wired.close : Wired (s.close c) := by
  obtain ⟨hhandle, hvalid, slot, hslot, hsits⟩ := h.handle_eq hfind hconn
  rw [close_eq hconn, if_pos (hhandle ▸ hvalid), hhandle]
  refine ⟨?_, ?_⟩
  · intro handle' c' hfind'
    obtain ⟨hne, hfind'⟩ := Assoc.find_erase_iff.mp hfind'
    obtain ⟨hvalid', conn', hconn', hhandle', slot', hslot', hsits'⟩ :=
      h.registered handle' c' hfind'
    have hc : c' ≠ c := by
      rintro rfl
      rw [hconn] at hconn'
      cases hconn'
      exact hne (hhandle'.symm.trans hhandle)
    -- two connections do not sit in one slot
    have hidx : conn.servIdx ≠ conn'.servIdx := by
      intro heq
      rw [← heq, hslot] at hslot'
      cases hslot'
      rw [hsits] at hsits'
      exact hc (Option.some.inj hsits').symm
    exact ⟨hvalid', conn', Assoc.find_erase_iff.mpr ⟨hc, hconn'⟩, hhandle', slot',
      (updateSlot_of_ne _ hidx).trans hslot', hsits'⟩
  · intro c' hc'
    exact Assoc.find_erase_of_none _ _ (h.fresh c' hc')

include hconn in
theorem Counts.close (hcounts : Counts s) : Counts (s.close c) := by
  rw [close_eq hconn]
  intro i slot hslot
  refine hcounts.updateSlot ?_ i slot hslot
  intro slot' hslot'
  exact slotCounts_reset (hcounts _ slot' hslot').1

include h hfind hconn in
theorem Filled.close (hfilled : Filled s) : Filled (s.close c) := by
  obtain ⟨hhandle, hvalid, slot, hslot, hsits⟩ := h.handle_eq hfind hconn
  rw [close_eq hconn, if_pos (hhandle ▸ hvalid), hhandle]
  intro j slot' c' hslot' hsits'
  obtain ⟨slot₀, hslot₀, rfl⟩ := updateSlot_cases hslot'
  split at hsits'
  · cases hsits'
  · rename_i hne
    obtain ⟨conn', hconn', hidx', hfind'⟩ := hfilled j slot₀ c' hslot₀ hsits'
    have hc : c' ≠ c := by
      rintro rfl
      rw [hconn] at hconn'
      cases hconn'
      exact hne hidx'
    refine ⟨conn', Assoc.find_erase_iff.mpr ⟨hc, hconn'⟩, hidx', ?_⟩
    refine Assoc.find_erase_iff.mpr ⟨?_, hfind'⟩
    intro heq
    rw [heq, hfind] at hfind'
    exact hc (Option.some.inj hfind').symm

include h hfind hconn in
/-- It empties its own slot, and no other one. -/
theorem Wired.slots_close :
    (∃ slot' : Slot, (s.close c).serverList[conn.servIdx]? = some slot' ∧ slot'.servConn = none) ∧
      ∀ (i : Nat) (slot' : Slot), s.serverList[i]? = some slot' → slot'.servConn = none →
        (s.close c).serverList[i]? = some slot' := by
  obtain ⟨-, -, slot, hslot, hsits⟩ := h.handle_eq hfind hconn
  rw [close_eq hconn]
  refine ⟨⟨_, updateSlot_self _ hslot, rfl⟩, ?_⟩
  intro i slot' hslot' hnull
  refine (updateSlot_of_ne _ ?_).trans hslot'
  rintro rfl
  rw [hslot] at hslot'
  cases hslot'
  rw [hsits] at hnull
  cases hnull

end

/-- Nobody is registered for a slot that is empty. -/
theorem Wired.nobody (h : Wired s) (hslot : s.serverList[i]? = some slot)
    (hnull : slot.servConn = none) (handle' : Int) (c' : ConnRef) (conn' : CBusinessClientConn)
    (hfind : s.connMap.find handle' = some c') (hconn : s.conns.find c' = some conn') :
    i ≠ conn'.servIdx := by
  rintro rfl
  obtain ⟨-, -, slot', hslot', hsits⟩ := h.handle_eq hfind hconn
  rw [hslot] at hslot'
  cases hslot'
  rw [hnull] at hsits
  cases hsits

/-! ## Connecting -/

theorem slot_connect (hslot : s.serverList[i]? = some slot) :
    (s.connect i handle now).serverList[i]? = some { slot with servConn := some s.nextConn } :=
  updateSlot_self _ hslot

theorem slots_connect_of_ne (h : i ≠ j) :
    (s.connect i handle now).serverList[j]? = s.serverList[j]? :=
  updateSlot_of_ne _ h

theorem find_conns_connect (h : Wired s) (hconn : s.conns.find c = some conn) :
    (s.connect i handle now).conns.find c = some conn :=
  (Assoc.find_set_of_ne _ _ (Nat.ne_of_lt (h.lt_nextConn hconn))).trans hconn

theorem find_conns_connect_self : (s.connect i handle now).conns.find s.nextConn =
    some { handle := handle, servIdx := i, lastRecvTick := now } :=
  Assoc.find_set_self _ _ _

/-- The map after an attempt. -/
theorem find_connMap_connect (hfree : handle ≠ netlibInvalidHandle → s.connMap.find handle = none)
    {handle' : Int} : (s.connect i handle now).connMap.find handle' = some c ↔
      handle ≠ netlibInvalidHandle ∧ handle' = handle ∧ c = s.nextConn ∨
        s.connMap.find handle' = some c := by
  change (if handle ≠ netlibInvalidHandle then s.connMap.insert handle s.nextConn
    else s.connMap).find handle' = some c ↔ _
  by_cases hvalid : handle ≠ netlibInvalidHandle
  · rw [if_pos hvalid, Assoc.find_insert_iff (hfree hvalid)]
    exact or_congr_left (and_iff_right hvalid).symm
  · rw [if_neg hvalid]
    exact ⟨.inr, fun h => h.resolve_left fun hleft => hvalid hleft.1⟩

section

variable (h : Wired s) (hslot : s.serverList[i]? = some slot)
  (hfree : handle ≠ netlibInvalidHandle → s.connMap.find handle = none)

include h hslot hfree in
theorem Wired.connect (hnobody : ∀ handle' c' conn', s.connMap.find handle' = some c' →
    s.conns.find c' = some conn' → i ≠ conn'.servIdx) : Wired (s.connect i handle now) := by
  refine ⟨?_, ?_⟩
  · intro handle' c' hfind
    rcases (find_connMap_connect hfree).mp hfind with ⟨hvalid, rfl, rfl⟩ | hfind
    · exact ⟨hvalid, _, find_conns_connect_self, rfl, _, slot_connect hslot, rfl⟩
    · obtain ⟨hvalid', conn', hconn', hhandle', slot', hslot', hsits'⟩ :=
        h.registered handle' c' hfind
      exact ⟨hvalid', conn', find_conns_connect h hconn', hhandle', slot',
        (slots_connect_of_ne (hnobody handle' c' conn' hfind hconn')).trans hslot', hsits'⟩
  · intro c' hc'
    have hlt : s.nextConn < c' := hc'
    exact (Assoc.find_set_of_ne _ _ (Nat.ne_of_gt hlt)).trans (h.fresh c' (Nat.le_of_lt hlt))

include hslot in
theorem Counts.connect (hwaits : slot.reconnectCnt ∈ waits)
    (hcounts : ∀ (j : Nat) (slot' : Slot), i ≠ j → s.serverList[j]? = some slot' →
      SlotCounts slot') : Counts (s.connect i handle now) := by
  intro j slot' hslot'
  by_cases hij : i = j
  · subst hij
    rw [slot_connect hslot] at hslot'
    cases hslot'
    refine ⟨hwaits, ?_⟩
    intro hnull
    cases hnull
  · rw [slots_connect_of_ne hij] at hslot'
    exact hcounts j slot' hij hslot'

include h hslot hfree in
theorem Filled.connect (hfilled : Filled s) (hvalid : handle ≠ netlibInvalidHandle) :
    Filled (s.connect i handle now) := by
  intro j slot' c' hslot' hsits'
  by_cases hij : i = j
  · subst hij
    rw [slot_connect hslot] at hslot'
    cases hslot'
    cases hsits'
    exact ⟨_, find_conns_connect_self, rfl,
      (find_connMap_connect hfree).mpr (.inl ⟨hvalid, rfl, rfl⟩)⟩
  · rw [slots_connect_of_ne hij] at hslot'
    obtain ⟨conn', hconn', hidx', hfind'⟩ := hfilled j slot' c' hslot' hsits'
    exact ⟨conn', find_conns_connect h hconn', hidx',
      (find_connMap_connect hfree).mpr (.inr hfind')⟩

end

/-- A slot that nothing will empty: its connection has no descriptor. -/
def Stuck (s : BusinessConns) (i : Nat) : Prop :=
  ∃ (slot : Slot) (c : ConnRef) (conn : CBusinessClientConn), s.serverList[i]? = some slot ∧
    slot.servConn = some c ∧ s.conns.find c = some conn ∧ conn.handle = netlibInvalidHandle

theorem stuck_connect (hslot : s.serverList[i]? = some slot) :
    Stuck (s.connect i netlibInvalidHandle now) i :=
  ⟨_, _, _, slot_connect hslot, rfl, find_conns_connect_self, rfl⟩

theorem Stuck.not_filled (hstuck : Stuck s i) (h : Wired s) : ¬ Filled s := by
  obtain ⟨slot, c, conn, hslot, hsits, hconn, hhandle⟩ := hstuck
  intro hfilled
  obtain ⟨conn', hconn', -, hfind⟩ := hfilled i slot c hslot hsits
  rw [hconn] at hconn'
  cases hconn'
  exact (h.registered _ _ hfind).1 hhandle

/-! ## The timer -/

section

variable {handles : Nat → Int}

/-- The slot is empty, and it is time for an attempt. -/
def Due (s : BusinessConns) (i : Nat) : Prop :=
  ∃ slot, s.serverList[i]? = some slot ∧ slot.servConn = none ∧
    slot.reconnectCnt ≤ slot.idleCnt + 1

/-- One more tick without a connection. -/
def idle (slot : Slot) : Slot := { slot with idleCnt := slot.idleCnt + 1 }

/-- What the timer does with one slot. -/
theorem checkSlot_cases (handles : Nat → Int) (now : UInt64) (s : BusinessConns) (i : Nat) :
    (BusinessConns.checkSlot handles now s i = s ∧
      ∀ slot, s.serverList[i]? = some slot → slot.servConn ≠ none) ∨
    (∃ slot, s.serverList[i]? = some slot ∧ slot.servConn = none ∧
      slot.idleCnt + 1 < slot.reconnectCnt ∧
      BusinessConns.checkSlot handles now s i = s.updateSlot i idle) ∨
    (Due s i ∧
      BusinessConns.checkSlot handles now s i =
        (s.updateSlot i idle).connect i (handles i) now) := by
  rw [BusinessConns.checkSlot]
  cases hslot : s.serverList[i]? with
  | none =>
    refine .inl ⟨rfl, ?_⟩
    intro slot h
    cases h
  | some slot =>
    dsimp only
    by_cases hnull : slot.servConn = none
    · rw [if_pos hnull]
      by_cases hdue : slot.idleCnt + 1 ≥ slot.reconnectCnt
      · rw [if_pos hdue]
        exact .inr (.inr ⟨⟨slot, hslot, hnull, hdue⟩, rfl⟩)
      · rw [if_neg hdue]
        exact .inr (.inl ⟨slot, rfl, hnull, UInt32.not_le.mp hdue, rfl⟩)
    · rw [if_neg hnull]
      refine .inl ⟨rfl, ?_⟩
      intro slot' h
      cases h
      exact hnull

theorem slots_checkSlot_of_ne (h : i ≠ j) :
    (BusinessConns.checkSlot handles now s i).serverList[j]? = s.serverList[j]? := by
  rcases checkSlot_cases handles now s i with ⟨heq, -⟩ | ⟨slot, -, -, -, heq⟩ | ⟨-, heq⟩
  · rw [heq]
  · rw [heq, updateSlot_of_ne _ h]
  · rw [heq, slots_connect_of_ne h, updateSlot_of_ne _ h]

theorem due_checkSlot_iff (h : i ≠ j) :
    Due (BusinessConns.checkSlot handles now s i) j ↔ Due s j := by
  rw [Due, Due, slots_checkSlot_of_ne h]

/-- The descriptors are new, each of them and among each other. -/
def Free (s : BusinessConns) (handles : Nat → Int) (is : List Nat) : Prop :=
  ∀ i ∈ is, handles i ≠ netlibInvalidHandle →
    s.connMap.find (handles i) = none ∧ ∀ j ∈ is, handles j = handles i → j = i

/-- What the loop keeps. -/
structure Sound (s : BusinessConns) : Prop where
  wired : Wired s
  counts : Counts s

theorem Sound.checkSlot (h : Sound s)
    (hfree : handles i ≠ netlibInvalidHandle → s.connMap.find (handles i) = none) :
    Sound (BusinessConns.checkSlot handles now s i) := by
  have hsame : ∀ slot, (idle slot).servConn = slot.servConn := fun _ => rfl
  rcases checkSlot_cases handles now s i with
    ⟨heq, -⟩ | ⟨slot, hslot, hnull, hlt, heq⟩ | ⟨⟨slot, hslot, hnull, -⟩, heq⟩
  · rw [heq]
    exact h
  · rw [heq]
    refine ⟨h.wired.updateSlot hsame, h.counts.updateSlot ?_⟩
    intro slot' hslot'
    rw [hslot] at hslot'
    cases hslot'
    exact ⟨(h.counts i slot hslot).1, fun _ => hlt⟩
  · rw [heq]
    have hslot' : (s.updateSlot i idle).serverList[i]? = some (idle slot) :=
      updateSlot_self idle hslot
    have hwired := h.wired.updateSlot (i := i) hsame
    refine ⟨hwired.connect hslot' hfree (hwired.nobody hslot' hnull), ?_⟩
    refine Counts.connect hslot' (h.counts i slot hslot).1 ?_
    intro j slot₁ hij hslot₁
    rw [updateSlot_of_ne _ hij] at hslot₁
    exact h.counts j slot₁ hslot₁

theorem Filled.checkSlot (hfilled : Filled s) (h : Wired s)
    (hfree : handles i ≠ netlibInvalidHandle → s.connMap.find (handles i) = none)
    (hvalid : Due s i → handles i ≠ netlibInvalidHandle) :
    Filled (BusinessConns.checkSlot handles now s i) := by
  have hsame : ∀ slot, (idle slot).servConn = slot.servConn := fun _ => rfl
  rcases checkSlot_cases handles now s i with ⟨heq, -⟩ | ⟨slot, -, -, -, heq⟩ | ⟨hdue, heq⟩
  · rw [heq]
    exact hfilled
  · rw [heq]
    exact hfilled.updateSlot hsame
  · have hhandle := hvalid hdue
    obtain ⟨slot, hslot, -, -⟩ := hdue
    rw [heq]
    exact (hfilled.updateSlot hsame).connect (h.updateSlot hsame) (updateSlot_self idle hslot)
      hfree hhandle

/-- A slot that is stuck stays so. -/
theorem Stuck.checkSlot (hstuck : Stuck s j) (h : Wired s) :
    Stuck (BusinessConns.checkSlot handles now s i) j := by
  obtain ⟨slot, c, conn, hslot, hsits, hconn, hhandle⟩ := hstuck
  have hsame : ∀ slot, (idle slot).servConn = slot.servConn := fun _ => rfl
  rcases checkSlot_cases handles now s i with
    ⟨heq, -⟩ | ⟨slot', hslot', hnull, -, heq⟩ | ⟨⟨slot', hslot', hnull, -⟩, heq⟩
  · rw [heq]
    exact ⟨slot, c, conn, hslot, hsits, hconn, hhandle⟩
  · have hij : i ≠ j := by
      rintro rfl
      rw [hslot] at hslot'
      cases hslot'
      rw [hnull] at hsits
      cases hsits
    rw [heq]
    exact ⟨slot, c, conn, (updateSlot_of_ne _ hij).trans hslot, hsits, hconn, hhandle⟩
  · have hij : i ≠ j := by
      rintro rfl
      rw [hslot] at hslot'
      cases hslot'
      rw [hnull] at hsits
      cases hsits
    rw [heq]
    exact ⟨slot, c, conn, (slots_connect_of_ne hij).trans ((updateSlot_of_ne _ hij).trans hslot),
      hsits, find_conns_connect (h.updateSlot hsame) hconn, hhandle⟩

theorem stuck_checkSlot (hdue : Due s i) (hinvalid : handles i = netlibInvalidHandle) :
    Stuck (BusinessConns.checkSlot handles now s i) i := by
  rcases checkSlot_cases handles now s i with ⟨-, hne⟩ | ⟨slot, hslot, -, hlt, -⟩ | ⟨-, heq⟩
  · obtain ⟨slot, hslot, hnull, -⟩ := hdue
    exact absurd hnull (hne slot hslot)
  · obtain ⟨slot', hslot', -, hle⟩ := hdue
    rw [hslot] at hslot'
    cases hslot'
    exact absurd hle (UInt32.not_le.mpr hlt)
  · obtain ⟨slot, hslot, -, -⟩ := hdue
    rw [heq, hinvalid]
    exact stuck_connect (updateSlot_self idle hslot)

/-- The next slots find their descriptors still unused. -/
theorem Free.checkSlot {is : List Nat} (hfree : Free s handles (i :: is)) (hi : i ∉ is) :
    Free (BusinessConns.checkSlot handles now s i) handles is := by
  intro j hj hvalid
  obtain ⟨hnone, hinj⟩ := hfree j (List.mem_cons_of_mem i hj) hvalid
  refine ⟨?_, fun k hk => hinj k (List.mem_cons_of_mem i hk)⟩
  rcases checkSlot_cases handles now s i with ⟨heq, -⟩ | ⟨slot, -, -, -, heq⟩ | ⟨-, heq⟩
  · rw [heq]
    exact hnone
  · rw [heq]
    exact hnone
  · rw [heq]
    have hfree' : handles i ≠ netlibInvalidHandle →
        (s.updateSlot i idle).connMap.find (handles i) = none :=
      fun hi => (hfree i List.mem_cons_self hi).1
    cases hfind : ((s.updateSlot i idle).connect i (handles i) now).connMap.find (handles j) with
    | none => rfl
    | some c =>
      rcases (find_connMap_connect hfree').mp hfind with ⟨-, heq', -⟩ | hfind
      · exact absurd (hinj i List.mem_cons_self heq'.symm ▸ hj) hi
      · have hfind : s.connMap.find (handles j) = some c := hfind
        rw [hnone] at hfind
        cases hfind

/-- **The loop over the slots.** -/
theorem checkSlots_spec (now : UInt64) {is : List Nat} (hnodup : is.Nodup) (h : Sound s)
    (hfree : Free s handles is) :
    Sound (is.foldl (BusinessConns.checkSlot handles now) s) ∧
      (Filled s → (∀ i ∈ is, Due s i → handles i ≠ netlibInvalidHandle) →
        Filled (is.foldl (BusinessConns.checkSlot handles now) s)) ∧
      (∀ j, Stuck s j → Stuck (is.foldl (BusinessConns.checkSlot handles now) s) j) ∧
      ∀ i ∈ is, Due s i → handles i = netlibInvalidHandle →
        Stuck (is.foldl (BusinessConns.checkSlot handles now) s) i := by
  induction is generalizing s with
  | nil => exact ⟨h, fun hfilled _ => hfilled, fun _ hstuck => hstuck, fun i hi => by cases hi⟩
  | cons i is ih =>
    obtain ⟨hi, hnodup⟩ := List.nodup_cons.mp hnodup
    have hfree₁ : handles i ≠ netlibInvalidHandle → s.connMap.find (handles i) = none :=
      fun hvalid => (hfree i List.mem_cons_self hvalid).1
    have hnext : Sound (BusinessConns.checkSlot handles now s i) := h.checkSlot hfree₁
    obtain ⟨hsound, hfilled, hstuck, hstuck'⟩ := ih hnodup hnext (hfree.checkSlot hi)
    rw [List.foldl_cons]
    refine ⟨hsound, ?_, fun j hj => hstuck j (hj.checkSlot h.wired), ?_⟩
    · intro hf hvalid
      refine hfilled (hf.checkSlot h.wired hfree₁ (hvalid i List.mem_cons_self)) ?_
      intro j hj hdue
      have hij : i ≠ j := by
        rintro rfl
        exact hi hj
      exact hvalid j (List.mem_cons_of_mem i hj) ((due_checkSlot_iff hij).mp hdue)
    · intro j hj hdue hinvalid
      rcases List.mem_cons.mp hj with rfl | hj
      · exact hstuck j (stuck_checkSlot hdue hinvalid)
      · have hij : i ≠ j := by
          rintro rfl
          exact hi hj
        exact hstuck' j hj ((due_checkSlot_iff hij).mpr hdue) hinvalid

end

/-! ## The other callbacks -/

section

variable (h : Wired s) (hfind : s.connMap.find handle = some c) (hconn : s.conns.find c = some conn)

/-- The object of a connection is changed. -/
def touch (s : BusinessConns) (c : ConnRef) (conn : CBusinessClientConn) : BusinessConns :=
  { s with conns := s.conns.set c conn }

variable {conn' : CBusinessClientConn} (hhandle : conn'.handle = conn.handle)
  (hidx : conn'.servIdx = conn.servIdx)

include h hconn hhandle hidx in
theorem Wired.touch : Wired (touch s c conn') := by
  refine ⟨?_, ?_⟩
  · intro handle₁ c₁ hfind₁
    obtain ⟨hvalid, conn₁, hconn₁, hhandle₁, hsits⟩ := h.registered handle₁ c₁ hfind₁
    by_cases hc : c₁ = c
    · subst hc
      rw [hconn] at hconn₁
      cases hconn₁
      exact ⟨hvalid, conn', Assoc.find_set_self _ _ _, hhandle.trans hhandle₁, hidx ▸ hsits⟩
    · exact ⟨hvalid, conn₁, (Assoc.find_set_of_ne _ _ hc).trans hconn₁, hhandle₁, hsits⟩
  · intro c₁ hc₁
    have hne : c₁ ≠ c := Nat.ne_of_gt (Nat.lt_of_lt_of_le (h.lt_nextConn hconn) hc₁)
    exact (Assoc.find_set_of_ne _ _ hne).trans (h.fresh c₁ hc₁)

include hconn hhandle hidx in
theorem Filled.touch (hfilled : Filled s) : Filled (touch s c conn') := by
  intro i slot c₁ hslot hsits
  obtain ⟨conn₁, hconn₁, hidx₁, hfind₁⟩ := hfilled i slot c₁ hslot hsits
  by_cases hc : c₁ = c
  · subst hc
    rw [hconn] at hconn₁
    cases hconn₁
    exact ⟨conn', Assoc.find_set_self _ _ _, hidx.trans hidx₁, hhandle ▸ hfind₁⟩
  · exact ⟨conn₁, (Assoc.find_set_of_ne _ _ hc).trans hconn₁, hidx₁, hfind₁⟩

end

/-- A callback on a connection that is registered: nothing is lost, an empty slot is left alone, and
    no attempt is made. -/
structure Keeps (s s' : BusinessConns) : Prop where
  sound : Sound s → Sound s'
  filled : Sound s → Filled s → Filled s'
  empty : Sound s → ∀ (i : Nat) (slot : Slot), s.serverList[i]? = some slot →
    slot.servConn = none → s'.serverList[i]? = some slot
  length : s'.serverList.length = s.serverList.length
  attempts : s'.attempts = s.attempts

theorem Keeps.refl (s : BusinessConns) : Keeps s s :=
  ⟨id, fun _ => id, fun _ _ _ hslot _ => hslot, rfl, rfl⟩

theorem Keeps.trans {s'' : BusinessConns} (h : Keeps s s') (h' : Keeps s' s'') : Keeps s s'' where
  sound := fun hs => h'.sound (h.sound hs)
  filled := fun hs hf => h'.filled (h.sound hs) (h.filled hs hf)
  empty := fun hs i slot hslot hnull => h'.empty (h.sound hs) i slot (h.empty hs i slot hslot hnull)
    hnull
  length := h'.length.trans h.length
  attempts := h'.attempts.trans h.attempts

theorem keeps_close (hfind : s.connMap.find handle = some c) (hconn : s.conns.find c = some conn) :
    Keeps s (s.close c) where
  sound := fun h => ⟨h.wired.close hfind hconn, h.counts.close hconn⟩
  filled := fun h hfilled => hfilled.close h.wired hfind hconn
  empty := fun h => (h.wired.slots_close hfind hconn).2
  length := by
    rw [close_eq hconn]
    exact length_updateSlot _
  attempts := by
    rw [close_eq hconn]
    rfl

theorem keeps_onConfirm (hfind : s.connMap.find handle = some c)
    (hconn : s.conns.find c = some conn) : Keeps s (s.onConfirm c) := by
  have heq : s.onConfirm c = (touch s c { conn with isOpen := true }).updateSlot conn.servIdx
      fun slot => { slot with reconnectCnt := minReconnectCnt / 2 } := by
    rw [BusinessConns.onConfirm, hconn]
    rfl
  rw [heq]
  refine ⟨?_, ?_, ?_, length_updateSlot _, rfl⟩
  · intro h
    have hwired : Wired (touch s c { conn with isOpen := true }) := h.wired.touch hconn rfl rfl
    refine ⟨hwired.updateSlot ?_, Counts.updateSlot h.counts ?_⟩
    · intro slot
      rfl
    intro slot' hslot'
    obtain ⟨-, -, slot, hslot, hsits⟩ := h.wired.handle_eq hfind hconn
    have hslot' : s.serverList[conn.servIdx]? = some slot' := hslot'
    rw [hslot] at hslot'
    cases hslot'
    have htwo : minReconnectCnt / 2 ∈ waits := by decide
    refine ⟨htwo, ?_⟩
    intro hnull
    rw [hsits] at hnull
    cases hnull
  · intro h hfilled
    have htouch : Filled (touch s c { conn with isOpen := true }) := hfilled.touch hconn rfl rfl
    refine htouch.updateSlot ?_
    intro slot
    rfl
  · intro h i slot hslot hnull
    exact (updateSlot_of_ne _ (h.wired.nobody hslot hnull handle c conn hfind hconn).symm).trans
      hslot

theorem keeps_onRead (hconn : s.conns.find c = some conn) (now : UInt64) :
    Keeps s (s.onRead c now) := by
  have heq : s.onRead c now = touch s c { conn with lastRecvTick := now } := by
    rw [BusinessConns.onRead, hconn]
    rfl
  rw [heq]
  exact ⟨fun h => ⟨h.wired.touch hconn rfl rfl, h.counts⟩,
    fun _ hfilled => hfilled.touch hconn rfl rfl, fun _ _ _ hslot _ => hslot, rfl, rfl⟩

theorem keeps_onTimer (hfind : s.connMap.find handle = some c)
    (hconn : s.conns.find c = some conn) (curTime : UInt64) :
    Keeps s (BusinessConns.onTimer curTime s c) := by
  rw [BusinessConns.onTimer, hconn]
  dsimp only
  split
  · exact keeps_close hfind hconn
  · exact .refl s

theorem keeps_onHandle {f : BusinessConns → ConnRef → BusinessConns} (h : Wired s)
    (hf : ∀ c conn, s.connMap.find handle = some c → s.conns.find c = some conn →
      Keeps s (f s c)) : Keeps s (s.onHandle handle f) := by
  rw [BusinessConns.onHandle]
  cases hfind : s.connMap.find handle with
  | none => exact .refl s
  | some c =>
    obtain ⟨-, conn, hconn, -⟩ := h.registered handle c hfind
    exact hf c conn hfind hconn

/-- **The loop over the connections.** -/
theorem keeps_timeouts (h : Sound s) (curTime : UInt64) : Keeps s (s.timeouts curTime) := by
  rw [BusinessConns.timeouts]
  generalize s.connMap.map Prod.fst = handles
  induction handles generalizing s with
  | nil => exact .refl s
  | cons handle handles ih =>
    have hone : Keeps s (s.onHandle handle (BusinessConns.onTimer curTime)) :=
      keeps_onHandle h.wired fun c conn hfind hconn => keeps_onTimer hfind hconn curTime
    exact hone.trans (ih (hone.sound h))

/-! ## The first connections -/

section

variable {handles : Nat → Int} {n k : Nat}

/-- After the first `k` slots. -/
structure Initialised (handles : Nat → Int) (n k : Nat) (s : BusinessConns) : Prop where
  wired : Wired s
  length : s.serverList.length = n
  /-- Only these have a connection. -/
  registered : ∀ handle c, s.connMap.find handle = some c → ∃ i < k, handles i = handle ∧
    ∀ conn, s.conns.find c = some conn → conn.servIdx < k
  slots : ∀ i < k, ∃ (slot : Slot) (c : ConnRef) (conn : CBusinessClientConn),
    s.serverList[i]? = some slot ∧ slot.reconnectCnt = minReconnectCnt / 2 ∧
    slot.servConn = some c ∧ s.conns.find c = some conn ∧ conn.servIdx = i ∧
    conn.handle = handles i ∧
    (handles i ≠ netlibInvalidHandle → s.connMap.find (handles i) = some c)

theorem Initialised.next (h : Initialised handles n k s) (hk : k < n)
    (hinj : ∀ i < n, ∀ j < n, handles i ≠ netlibInvalidHandle → handles j = handles i → j = i)
    (now : UInt64) : Initialised handles n (k + 1) (BusinessConns.initSlot handles now s k) := by
  obtain ⟨slot, hslot⟩ : ∃ slot, s.serverList[k]? = some slot :=
    ⟨_, List.getElem?_eq_getElem (h.length.symm ▸ hk)⟩
  have hfree : handles k ≠ netlibInvalidHandle → s.connMap.find (handles k) = none := by
    intro hvalid
    cases hfind : s.connMap.find (handles k) with
    | none => rfl
    | some c =>
      obtain ⟨i, hi, heq, -⟩ := h.registered _ c hfind
      have hik := hinj k hk i (Nat.lt_trans hi hk) hvalid heq
      omega
  have hnobody : ∀ handle' c' conn', s.connMap.find handle' = some c' →
      s.conns.find c' = some conn' → k ≠ conn'.servIdx := by
    intro handle' c' conn' hfind hconn
    obtain ⟨i, -, -, hlt⟩ := h.registered handle' c' hfind
    exact Nat.ne_of_gt (hlt conn' hconn)
  have hwired : Wired (s.connect k (handles k) now) := h.wired.connect hslot hfree hnobody
  refine ⟨hwired.updateSlot ?_, ?_, ?_, ?_⟩
  · intro slot
    rfl
  · exact (length_updateSlot _).trans ((length_updateSlot _).trans h.length)
  · intro handle c hfind
    have hfind : (s.connect k (handles k) now).connMap.find handle = some c := hfind
    rcases (find_connMap_connect hfree).mp hfind with ⟨-, rfl, rfl⟩ | hfind
    · refine ⟨k, Nat.lt_succ_self k, rfl, ?_⟩
      intro conn hconn
      have hconn : (s.connect k (handles k) now).conns.find s.nextConn = some conn := hconn
      rw [find_conns_connect_self] at hconn
      cases hconn
      exact Nat.lt_succ_self k
    · obtain ⟨i, hi, hhandle, hlt⟩ := h.registered handle c hfind
      obtain ⟨-, conn, hconn, -⟩ := h.wired.registered handle c hfind
      refine ⟨i, Nat.lt_succ_of_lt hi, hhandle, ?_⟩
      intro conn' hconn'
      have hconn' : (s.connect k (handles k) now).conns.find c = some conn' := hconn'
      rw [find_conns_connect h.wired hconn] at hconn'
      cases hconn'
      exact Nat.lt_succ_of_lt (hlt conn hconn)
  · intro i hi
    rcases Nat.lt_succ_iff_lt_or_eq.mp hi with hi | rfl
    · obtain ⟨slot', c, conn, hslot', hcnt, hsits, hconn, hidx, hhandle, hfind⟩ := h.slots i hi
      have hne : k ≠ i := Nat.ne_of_gt hi
      refine ⟨slot', c, conn, ?_, hcnt, hsits, find_conns_connect h.wired hconn, hidx, hhandle, ?_⟩
      · exact (updateSlot_of_ne _ hne).trans ((slots_connect_of_ne hne).trans hslot')
      · intro hvalid
        have hafter : (s.connect k (handles k) now).connMap.find (handles i) = some c :=
          (find_connMap_connect hfree).mpr (.inr (hfind hvalid))
        exact hafter
    · refine ⟨_, s.nextConn, _, updateSlot_self _ (slot_connect hslot), rfl, rfl,
        find_conns_connect_self, rfl, rfl, ?_⟩
      intro hvalid
      have hafter : (s.connect i (handles i) now).connMap.find (handles i) = some s.nextConn :=
        (find_connMap_connect hfree).mpr (.inl ⟨hvalid, rfl, rfl⟩)
      exact hafter

/-- **The loop of `serv_init`.** -/
theorem initialised_servInit (serverList : List Slot) (now : UInt64)
    (hinj : ∀ i < serverList.length, ∀ j < serverList.length,
      handles i ≠ netlibInvalidHandle → handles j = handles i → j = i) :
    Initialised handles serverList.length serverList.length
      (BusinessConns.start.servInit serverList handles now) := by
  have hloop : ∀ k ≤ serverList.length, Initialised handles serverList.length k
      ((List.range k).foldl (BusinessConns.initSlot handles now)
        { BusinessConns.start with serverList := serverList }) := by
    intro k
    induction k with
    | zero =>
      intro _
      refine ⟨⟨?_, fun c _ => rfl⟩, rfl, ?_, ?_⟩
      · intro handle c hfind
        cases hfind
      · intro handle c hfind
        cases hfind
      · intro i hi
        omega
    | succ k ih =>
      intro hk
      rw [List.range_succ, List.foldl_append]
      exact (ih (Nat.le_of_succ_le hk)).next hk hinj now
  exact hloop _ (Nat.le_refl _)

theorem Initialised.sound (h : Initialised handles n n s) : Sound s := by
  refine ⟨h.wired, ?_⟩
  intro i slot hslot
  have hi : i < n := by
    rw [← h.length]
    exact (List.getElem?_eq_some_iff.mp hslot).1
  obtain ⟨slot', c, conn, hslot', hcnt, hsits, -⟩ := h.slots i hi
  rw [hslot] at hslot'
  cases hslot'
  refine ⟨?_, ?_⟩
  · rw [hcnt]
    decide
  · intro hnull
    rw [hsits] at hnull
    cases hnull

theorem Initialised.filled_iff (h : Initialised handles n n s) :
    Filled s ↔ ∀ i < n, handles i ≠ netlibInvalidHandle := by
  constructor
  · intro hfilled i hi hinvalid
    obtain ⟨slot, c, conn, hslot, -, hsits, hconn, -, hhandle, -⟩ := h.slots i hi
    exact Stuck.not_filled ⟨slot, c, conn, hslot, hsits, hconn, hhandle.trans hinvalid⟩ h.wired
      hfilled
  · intro hvalid i slot c hslot hsits
    have hi : i < n := by
      rw [← h.length]
      exact (List.getElem?_eq_some_iff.mp hslot).1
    obtain ⟨slot', c', conn, hslot', -, hsits', hconn, hidx, hhandle, hfind⟩ := h.slots i hi
    rw [hslot] at hslot'
    cases hslot'
    rw [hsits] at hsits'
    cases hsits'
    exact ⟨conn, hconn, hidx, hhandle ▸ hfind (hvalid i hi)⟩

end

/-! ## Any run -/

/-- What can happen: `serv_init` is the first of these, and a descriptor is new when it is given. -/
def Feasible (s : BusinessConns) : ConnEvent → Prop
  | .init serverList handles _ => s = .start ∧ Free s handles (List.range serverList.length)
  | .tick curTime handles =>
    Free (s.timeouts curTime) handles (List.range (s.timeouts curTime).serverList.length)
  | _ => True

/-- Every attempt gets a descriptor. -/
def Valid (s : BusinessConns) : ConnEvent → Prop
  | .init serverList handles _ => ∀ i < serverList.length, handles i ≠ netlibInvalidHandle
  | .tick curTime handles => ∀ i < (s.timeouts curTime).serverList.length,
      Due (s.timeouts curTime) i → handles i ≠ netlibInvalidHandle
  | _ => True

/-- **One event.** -/
theorem Sound.step (h : Sound s) {e : ConnEvent} (he : Feasible s e) :
    Sound (connStep s e) ∧ (Filled s → (Filled (connStep s e) ↔ Valid s e)) := by
  have hkeeps : Keeps s (connStep s e) →
      Sound (connStep s e) ∧ (Filled s → (Filled (connStep s e) ↔ True)) := fun hk =>
    ⟨hk.sound h, fun hfilled => iff_true_intro (hk.filled h hfilled)⟩
  cases e with
  | init serverList handles now =>
    obtain ⟨rfl, hfree⟩ := he
    have hinit : Initialised handles serverList.length serverList.length
        (BusinessConns.start.servInit serverList handles now) := by
      apply initialised_servInit
      intro i hi j hj hvalid heq
      exact (hfree i (List.mem_range.mpr hi) hvalid).2 j (List.mem_range.mpr hj) heq
    exact ⟨hinit.sound, fun _ => hinit.filled_iff⟩
  | tick curTime handles =>
    have htimeouts := keeps_timeouts h curTime
    obtain ⟨hsound, hfilled, -, hstuck⟩ :=
      checkSlots_spec curTime List.nodup_range (htimeouts.sound h) he
    refine ⟨hsound, fun hf => ⟨?_, ?_⟩⟩
    · intro hafter i hi hdue hinvalid
      exact (hstuck i (List.mem_range.mpr hi) hdue hinvalid).not_filled hsound.wired hafter
    · intro hvalid
      exact hfilled (htimeouts.filled h hf) fun i hi => hvalid i (List.mem_range.mp hi)
  | confirm handle =>
    exact hkeeps (keeps_onHandle h.wired fun c conn => keeps_onConfirm)
  | closed handle =>
    exact hkeeps (keeps_onHandle h.wired fun c conn => keeps_close)
  | received handle now =>
    have hread : Keeps s (s.onHandle handle fun s c => s.onRead c now) :=
      keeps_onHandle h.wired fun c conn _ hconn => keeps_onRead hconn now
    exact hkeeps hread

/-! ### Empty slots -/

section

variable {handles : Nat → Int}

/-- How many ticks there are in a run. -/
def ticks : List ConnEvent → Nat
  | [] => 0
  | .tick _ _ :: es => ticks es + 1
  | _ :: es => ticks es

/-- Either the attempt was made, or the slot has waited for one more tick. -/
theorem checkSlot_empty (handles : Nat → Int) (now : UInt64) (hslot : s.serverList[i]? = some slot)
    (hnull : slot.servConn = none) :
    (BusinessConns.checkSlot handles now s i).attempts = s.attempts ++ [i] ∧
        slot.reconnectCnt ≤ slot.idleCnt + 1 ∨
      (BusinessConns.checkSlot handles now s i).attempts = s.attempts ∧
        (BusinessConns.checkSlot handles now s i).serverList[i]? = some (idle slot) ∧
        slot.idleCnt + 1 < slot.reconnectCnt := by
  rcases checkSlot_cases handles now s i with
    ⟨-, hne⟩ | ⟨slot', hslot', -, hlt, heq⟩ | ⟨⟨slot', hslot', -, hle⟩, heq⟩
  · exact absurd hnull (hne slot hslot)
  · rw [hslot] at hslot'
    cases hslot'
    rw [heq]
    exact .inr ⟨rfl, updateSlot_self idle hslot, hlt⟩
  · rw [hslot] at hslot'
    cases hslot'
    rw [heq]
    exact .inl ⟨rfl, hle⟩

theorem attempts_checkSlot (handles : Nat → Int) (now : UInt64) (s : BusinessConns) (i : Nat) :
    s.attempts <+: (BusinessConns.checkSlot handles now s i).attempts := by
  rcases checkSlot_cases handles now s i with ⟨heq, -⟩ | ⟨slot, -, -, -, heq⟩ | ⟨-, heq⟩
  · exact ⟨[], by rw [heq, List.append_nil]⟩
  · exact ⟨[], by rw [heq, List.append_nil]; rfl⟩
  · rw [heq]
    exact List.prefix_append _ _

theorem attempts_checkSlots (handles : Nat → Int) (now : UInt64) (is : List Nat)
    (s : BusinessConns) :
    s.attempts <+: (is.foldl (BusinessConns.checkSlot handles now) s).attempts := by
  induction is generalizing s with
  | nil => exact List.prefix_refl _
  | cons i is ih => exact (attempts_checkSlot handles now s i).trans (ih _)

theorem slots_checkSlots (handles : Nat → Int) (now : UInt64) (is : List Nat) (s : BusinessConns)
    (hi : i ∉ is) :
    (is.foldl (BusinessConns.checkSlot handles now) s).serverList[i]? = s.serverList[i]? := by
  induction is generalizing s with
  | nil => rfl
  | cons j is ih =>
    rw [List.mem_cons, not_or] at hi
    exact (ih _ hi.2).trans (slots_checkSlot_of_ne fun h => hi.1 h.symm)

theorem count_attempts_checkSlots (handles : Nat → Int) (now : UInt64) (is : List Nat)
    (s : BusinessConns) (hi : i ∉ is) :
    (is.foldl (BusinessConns.checkSlot handles now) s).attempts.count i = s.attempts.count i := by
  induction is generalizing s with
  | nil => rfl
  | cons j is ih =>
    rw [List.mem_cons, not_or] at hi
    refine (ih _ hi.2).trans ?_
    rcases checkSlot_cases handles now s j with ⟨heq, -⟩ | ⟨slot, -, -, -, heq⟩ | ⟨-, heq⟩
    · rw [heq]
    · rw [heq]
      rfl
    · rw [heq]
      change (s.attempts ++ [j]).count i = _
      rw [List.count_append, List.count_eq_zero_of_not_mem (a := i) (l := [j]) (by simpa using hi.1),
        Nat.add_zero]

/-- The loop comes by every slot once. -/
theorem checkSlots_empty {is : List Nat} (hnodup : is.Nodup) (hi : i ∈ is)
    (hslot : s.serverList[i]? = some slot) (hnull : slot.servConn = none) :
    (is.foldl (BusinessConns.checkSlot handles now) s).attempts.count i =
        s.attempts.count i + 1 ∧ slot.reconnectCnt ≤ slot.idleCnt + 1 ∨
      (is.foldl (BusinessConns.checkSlot handles now) s).attempts.count i = s.attempts.count i ∧
        (is.foldl (BusinessConns.checkSlot handles now) s).serverList[i]? = some (idle slot) ∧
        slot.idleCnt + 1 < slot.reconnectCnt := by
  obtain ⟨before, after, rfl⟩ := List.append_of_mem hi
  have hdisjoint := List.nodup_append.mp hnodup
  have hbefore : i ∉ before := fun hmem =>
    hdisjoint.2.2 i hmem i List.mem_cons_self rfl
  have hafter : i ∉ after := (List.nodup_cons.mp hdisjoint.2.1).1
  rw [List.foldl_append, List.foldl_cons, count_attempts_checkSlots handles now after _ hafter,
    slots_checkSlots handles now after _ hafter]
  have hslot₁ := (slots_checkSlots handles now before s hbefore).trans hslot
  have hcount₁ := count_attempts_checkSlots handles now before s hbefore
  generalize before.foldl (BusinessConns.checkSlot handles now) s = s₁ at hslot₁ hcount₁
  rw [← hcount₁]
  rcases checkSlot_empty handles now hslot₁ hnull with ⟨hattempt, hle⟩ | ⟨hattempts, hidle, hlt⟩
  · left
    rw [hattempt, List.count_append, List.count_singleton_self]
    exact ⟨rfl, hle⟩
  · right
    rw [hattempts]
    exact ⟨rfl, hidle, hlt⟩

end

/-- No attempt is forgotten. -/
theorem Sound.attempts_step (h : Sound s) {e : ConnEvent} (he : Feasible s e) :
    s.attempts <+: (connStep s e).attempts := by
  have hkeeps : Keeps s (connStep s e) → s.attempts <+: (connStep s e).attempts := by
    intro hk
    exact hk.attempts ▸ List.prefix_refl _
  cases e with
  | init serverList handles now =>
    obtain ⟨rfl, -⟩ := he
    exact List.nil_prefix
  | tick curTime handles =>
    have htimeouts : (s.timeouts curTime).attempts = s.attempts :=
      (keeps_timeouts h curTime).attempts
    rw [← htimeouts]
    exact attempts_checkSlots handles curTime _ (s.timeouts curTime)
  | confirm handle => exact hkeeps (keeps_onHandle h.wired fun c conn => keeps_onConfirm)
  | closed handle => exact hkeeps (keeps_onHandle h.wired fun c conn => keeps_close)
  | received handle now =>
    have hread : Keeps s (s.onHandle handle fun s c => s.onRead c now) :=
      keeps_onHandle h.wired fun c conn _ hconn => keeps_onRead hconn now
    exact hkeeps hread

theorem Sound.attempts_run (h : Sound s) (es : List ConnEvent)
    (hes : EachStep connStep Feasible s es) :
    s.attempts <+: (es.foldl connStep s).attempts := by
  induction es generalizing s with
  | nil => exact List.prefix_refl _
  | cons e es ih =>
    obtain ⟨he, hes⟩ := hes
    exact (h.attempts_step he).trans (ih (h.step he).1 hes)

theorem toNat_idle (h : SlotCounts slot) (hnull : slot.servConn = none) :
    (idle slot).idleCnt.toNat = slot.idleCnt.toNat + 1 := by
  have hsmall : waits.all (fun cnt => decide (cnt.toNat ≤ 64)) = true := by decide +kernel
  have hlt := UInt32.lt_iff_toNat_lt.mp (h.2 hnull)
  have hle := of_decide_eq_true (List.all_eq_true.mp hsmall _ h.1)
  have hone : (1 : UInt32).toNat = 1 := rfl
  rw [idle, UInt32.toNat_add, hone, Nat.mod_eq_of_lt (by omega)]

/-- An attempt for an empty slot is made after so many more ticks, whatever else happens. -/
theorem Sound.retried (h : Sound s) (hslot : s.serverList[i]? = some slot)
    (hnull : slot.servConn = none) (es : List ConnEvent) (hes : EachStep connStep Feasible s es)
    (hticks : slot.reconnectCnt.toNat ≤ slot.idleCnt.toNat + ticks es) :
    s.attempts.count i < (es.foldl connStep s).attempts.count i := by
  induction es generalizing s slot with
  | nil =>
    have hlt := UInt32.lt_iff_toNat_lt.mp ((h.counts i slot hslot).2 hnull)
    have hzero : ticks [] = 0 := rfl
    omega
  | cons e es ih =>
    obtain ⟨he, hes⟩ := hes
    have hsound := (h.step he).1
    -- the events that leave the slot alone
    have hkeeps : Keeps s (connStep s e) → ticks (e :: es) = ticks es →
        s.attempts.count i < ((e :: es).foldl connStep s).attempts.count i := by
      intro hk hsame
      rw [hsame] at hticks
      have hlater := ih hsound (hk.empty h i slot hslot hnull) hnull hes hticks
      rw [hk.attempts] at hlater
      exact hlater
    cases e with
    | init serverList handles now =>
      obtain ⟨rfl, -⟩ := he
      cases hslot
    | tick curTime handles =>
      have htimeouts := keeps_timeouts h curTime
      have hslot₁ := htimeouts.empty h i slot hslot hnull
      have hi : i ∈ List.range (s.timeouts curTime).serverList.length :=
        List.mem_range.mpr (List.getElem?_eq_some_iff.mp hslot₁).1
      rcases checkSlots_empty List.nodup_range hi hslot₁ hnull with
        ⟨hcount, -⟩ | ⟨-, hidle, hlt⟩
      · have hlater := (hsound.attempts_run es hes).sublist.count_le i
        rw [htimeouts.attempts] at hcount
        exact Nat.lt_of_lt_of_le (Nat.lt_of_lt_of_eq (Nat.lt_succ_self _) hcount.symm) hlater
      · have hcount := (h.attempts_step he).sublist.count_le i
        have hmore : ticks (.tick curTime handles :: es) = ticks es + 1 := rfl
        refine Nat.lt_of_le_of_lt hcount (ih hsound hidle hnull hes ?_)
        rw [toNat_idle (h.counts i slot hslot) hnull]
        change slot.reconnectCnt.toNat ≤ _
        omega
    | confirm handle =>
      exact hkeeps (keeps_onHandle h.wired fun c conn => keeps_onConfirm) rfl
    | closed handle =>
      exact hkeeps (keeps_onHandle h.wired fun c conn => keeps_close) rfl
    | received handle now =>
      have hread : Keeps s (s.onHandle handle fun s c => s.onRead c now) :=
        keeps_onHandle h.wired fun c conn _ hconn => keeps_onRead hconn now
      exact hkeeps hread rfl

/-! ### What is wanted of every state -/

/-- A connection in a slot can be reached, and closing it empties the slot; an empty slot is tried
    again after at most `reconnect_cnt` ticks. -/
structure NeverStuck (s : BusinessConns) : Prop where
  reached : ∀ (i : Nat) (slot : Slot) (c : ConnRef), s.serverList[i]? = some slot →
    slot.servConn = some c → ∃ conn, s.conns.find c = some conn ∧
      s.connMap.find conn.handle = some c ∧
      ∃ slot' : Slot, (connStep s (.closed conn.handle)).serverList[i]? = some slot' ∧
        slot'.servConn = none
  retried : ∀ (i : Nat) (slot : Slot), s.serverList[i]? = some slot → slot.servConn = none →
    ∀ es, EachStep connStep Feasible s es → slot.reconnectCnt.toNat ≤ ticks es →
      s.attempts.count i < (es.foldl connStep s).attempts.count i

theorem Sound.neverStuck_iff (h : Sound s) : NeverStuck s ↔ Filled s := by
  have hclosed : ∀ handle c, s.connMap.find handle = some c →
      connStep s (.closed handle) = s.close c := by
    intro handle c hfind
    rw [connStep, BusinessConns.onHandle, hfind]
  constructor
  · intro hnever i slot c hslot hsits
    obtain ⟨conn, hconn, hfind, slot', hslot', hnull⟩ := hnever.reached i slot c hslot hsits
    refine ⟨conn, hconn, ?_, hfind⟩
    by_contra hne
    rw [hclosed _ c hfind, close_eq hconn] at hslot'
    have hsame : some slot' = some slot :=
      hslot'.symm.trans ((updateSlot_of_ne _ hne).trans hslot)
    cases hsame
    rw [hsits] at hnull
    cases hnull
  · intro hfilled
    refine ⟨?_, ?_⟩
    · intro i slot c hslot hsits
      obtain ⟨conn, hconn, hidx, hfind⟩ := hfilled i slot c hslot hsits
      obtain ⟨slot', hslot', hnull⟩ := (h.wired.slots_close hfind hconn).1
      refine ⟨conn, hconn, hfind, slot', ?_, hnull⟩
      rw [hclosed _ c hfind, ← hidx]
      exact hslot'
    · intro i slot hslot hnull es hes hticks
      exact h.retried hslot hnull es hes (Nat.le_trans hticks (Nat.le_add_left _ _))

theorem sound_start : Sound .start := by
  refine ⟨⟨?_, fun c _ => rfl⟩, ?_⟩
  · intro handle c hfind
    cases hfind
  · intro i slot hslot
    cases hslot

theorem filled_start : Filled .start := by
  intro i slot c hslot
  cases hslot

end

/-- Slots never get stuck in a run exactly if every attempt to connect gets a descriptor. -/
theorem neverStuck_iff_valid (es : List ConnEvent) (hes : EachStep connStep Feasible .start es) :
    EachStep connStep (fun s e => NeverStuck (connStep s e)) .start es ↔
      EachStep connStep Valid .start es := by
  refine EachStep.congr_of_invariant (fun s => Sound s ∧ Filled s) ?_ ?_
    ⟨sound_start, filled_start⟩ hes
  · rintro s e ⟨hsound, -⟩ he hnever
    have hnext := (hsound.step he).1
    exact ⟨hnext, hnext.neverStuck_iff.mp hnever⟩
  · rintro s e ⟨hsound, hfilled⟩ he
    obtain ⟨hnext, hiff⟩ := hsound.step he
    rw [hnext.neverStuck_iff, hiff hfilled]

/-! ### One server, and two -/

/-- A slot that `serv_init` has not come to. -/
def blankSlot : Slot := ⟨0, 0, none⟩

/-- The first `connect` of all fails at once. -/
def firstFails : List ConnEvent := [.init [blankSlot] (fun _ => netlibInvalidHandle) 0]

theorem not_neverStuck_firstFails :
    EachStep connStep Feasible .start firstFails ∧
      ¬ EachStep connStep (fun s e => NeverStuck (connStep s e)) .start firstFails := by
  refine ⟨⟨⟨rfl, ?_⟩, trivial⟩, ?_⟩
  · intro i _ hvalid
    exact absurd rfl hvalid
  · rintro ⟨h, -⟩
    obtain ⟨conn, hconn, hfind, -⟩ := h.reached 0 ⟨0, 2, some 0⟩ 0 rfl rfl
    cases hconn
    cases hfind

/-- Two servers. The second one closes its connection, and a second passes. -/
def oneCloses : List ConnEvent :=
  [.init [blankSlot, blankSlot] (fun i => 5 + i) 0, .confirm 5, .closed 6,
    .tick 1000 fun i => 7 + i]

theorem neverStuck_oneCloses :
    EachStep connStep (fun s e => NeverStuck (connStep s e)) .start oneCloses := by
  have hpos : ∀ k i : Nat, (k + i : Int) ≠ netlibInvalidHandle := by
    intro k i
    have hinvalid : netlibInvalidHandle = -1 := rfl
    omega
  have hfree : ∀ (s : BusinessConns) (k : Nat) (is : List Nat),
      (∀ i ∈ is, s.connMap.find (k + i : Int) = none) → Free s (fun i => (k + i : Int)) is := by
    intro s k is hnone i hi _
    refine ⟨hnone i hi, ?_⟩
    intro j _ heq
    have heq : (k + j : Int) = k + i := heq
    omega
  refine (neverStuck_iff_valid oneCloses ?_).mpr ?_
  · exact ⟨⟨rfl, hfree _ 5 _ (by decide)⟩, trivial, trivial, hfree _ 7 _ (by decide), trivial⟩
  · exact ⟨fun i _ => hpos 5 i, trivial, trivial, fun i _ _ => hpos 7 i, trivial⟩

end ServInfo

end Server
end Proof
end PtpCore
